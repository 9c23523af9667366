import FieldGraph.Field.Basic
import FieldGraph.Mesh.Grid

/-!
# Nodal fields

A field given by its values at the nodes of a grid and multilinear within each
element. Its derivative in an element is the sum over the corners of the nodal
value times the derivative of the corner's shape function, the product of one
linear factor for each axis.
-/

namespace FieldGraph

structure NodalField (K : Type) where
  grid : Grid K
  components : Nat
  rows : Vector (Vector K components) grid.nodeCount
  components_pos : 0 < components
  /-- There is room for all values. -/
  values_fit : grid.nodeCount * components < Calc.roomLimit

namespace NodalField

section
variable {K : Type}

def values (f : NodalField K) : List K := f.rows.toList.flatMap (·.toList)

theorem row_entry_lt {n c : Nat} (i : Fin n) (j : Fin c) : i * c + j < n * c := by
  have h : (i + 1) * c ≤ n * c := Nat.mul_le_mul_right c i.isLt
  have hj := j.isLt
  rw [Nat.add_mul, Nat.one_mul] at h
  omega

def rowsOf {n c : Nat} (values : List K) (h : values.length = n * c) : Vector (Vector K c) n :=
  let all : Vector K (n * c) := ⟨values.toArray, by simpa using h⟩
  Vector.ofFn fun i => Vector.ofFn fun j => all.get ⟨i * c + j, row_entry_lt i j⟩

def ofValues (g : Grid K) (components : Nat) (values : List K) : Eval K (NodalField K) :=
  if hc : 0 < components then do
    let expected ← Eval.calculate (Calc.count (g.nodeCount * components))
    if hn : values.length = g.nodeCount * components then
      if hf : g.nodeCount * components < Calc.roomLimit then
        return ⟨g, components, rowsOf values hn, hc, hf⟩
      else throw .outOfBounds
    else Eval.fail (.invalidArgument (.nodalCount expected values.length))
  else Eval.fail (.invalidArgument .noComponents)

end

section
variable {K : Type} [Scalar K]

def sample (g : Grid K) (components : Nat) (f : Nat → List K → Calc K) : Eval K (NodalField K) := do
  let values ← Eval.calculate do
    Calc.reserve (g.nodeCount * components)
    (List.range g.nodeCount).mapM fun n => do
      let x ← Calc.read (g.vertex n)
      (List.range components).mapM fun i => f i x
  ofValues g components values.flatten

/-- The slope along axis `k`, in element coordinates, of the shape function of a corner. -/
def shapeSlope (corner : List Bool) (ξ : List K) (k : Nat) : Calc K :=
  corner.zipIdx.foldlM (fun product (upper, d) => do
    let sign : K := Scalar.ofRat (if upper then 1 else -1)
    let factor ←
      if d = k then Scalar.mul (Scalar.ofRat (1 / 2)) sign
      else do
        let x ← Calc.read ξ[d]?
        Scalar.mul (Scalar.ofRat (1 / 2)) (← Scalar.add (Scalar.ofRat 1) (← Scalar.mul sign x))
    Scalar.mul product factor) (Scalar.ofRat 1)

/-- The spatial derivatives of a corner's shape function: with cells of width `h`, one unit of
space is `2 / h` units of element coordinates. -/
def shapeDerivatives (axes : List (Axis K)) (corner : List Bool) (ξ : List K) : Calc (List K) :=
  axes.zipIdx.mapM fun (a, k) => do
    let slope ← shapeSlope corner ξ k
    Scalar.div (← Scalar.mul slope (Scalar.ofRat 2)) a.spacing

def addCorner (rows : List (List K)) (nodal slopes : List K) : Flagged (List (List K)) :=
  (rows.zip nodal).mapM fun (row, value) =>
    (row.zip slopes).mapM fun (sum, slope) => do Scalar.add sum (← Scalar.mul value slope)

variable (f : NodalField K)

def derivativesIn (e : Nat) (ξ : List K) : Calc (List K) := do
  let zeros := List.replicate f.components (List.replicate f.grid.dim (Scalar.ofRat 0 : K))
  let rows ← f.grid.corners.foldlM (fun rows corner => do
    let nodal ← Calc.read f.rows[f.grid.cornerNode e corner]?
    let slopes ← shapeDerivatives f.grid.axes corner ξ
    addCorner rows nodal.toList slopes) zeros
  return rows.flatten

def derivativesAt (p : List K) : Calc (Interpolation K) := do
  match ← f.grid.locate p with
  | none => return ⟨.outside, none⟩
  | some e =>
    let ξ ← f.grid.toLocal e p
    return ⟨.owned, some (← f.derivativesIn e ξ)⟩

end

instance {K : Type} [Scalar K] : FieldVariable K (Grid K) (NodalField K) where
  mesh := grid
  elementMesh := grid
  components := components
  derivativesIn := derivativesIn
  derivativesAt := derivativesAt

def debugText (f : NodalField Binary64) : Flagged String := do
  let grid ← f.grid.debugText
  return Text.record "NodalField"
    [("cartesian", grid), ("mesh", grid), ("components", toString f.components),
      ("values", ← Binary64.debugList f.values)]

end NodalField
end FieldGraph
