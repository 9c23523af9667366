import FieldGraph.Capacity
import FieldGraph.Eval
import FieldGraph.Mesh.Axis
import FieldGraph.Mesh.Basic
import FieldGraph.Mesh.Numbering

/-!
# Regular grids

A mesh of equal boxes in one to three dimensions, the product of its axes.
Elements are the cells and nodes their corners; both are numbered by position,
the first axis fastest.
-/

namespace FieldGraph

structure Grid (K : Type) where
  /-- Tells apart grids that exist at the same time. -/
  address : Nat
  axes : List (Axis K)
  dim_pos : 0 < axes.length
  dim_le : axes.length ≤ 3
  deriving DecidableEq

namespace Grid

section
variable {K : Type} (g : Grid K)

def dim : Nat := g.axes.length

def cellCounts : List Nat := g.axes.map (·.cells)

def nodeCounts : List Nat := g.axes.map (·.cells + 1)

def elementCount : Nat := Numbering.count g.cellCounts

def nodeCount : Nat := Numbering.count g.nodeCounts

def nodePosition (n : Nat) : List Nat := Numbering.position g.nodeCounts n

def nodeIndex (p : List Nat) : Nat := Numbering.index g.nodeCounts p

def elementPosition (e : Nat) : List Nat := Numbering.position g.cellCounts e

def elementIndex (p : List Nat) : Nat := Numbering.index g.cellCounts p

def corners : List (List Bool) := Numbering.corners g.dim

def cornerNode (e : Nat) (corner : List Bool) : Nat :=
  g.nodeIndex (Numbering.cornerPosition (g.elementPosition e) corner)

def elementNodes (e : Nat) : List Nat := g.corners.map (g.cornerNode e)

/-- The elements that meet at a node, in ascending order. -/
def nodeElements (n : Nat) : List Nat :=
  (Numbering.choices (g.cellCounts.zipWith Numbering.touching (g.nodePosition n))).map
    g.elementIndex

def vertex (n : Nat) : Option (List K) :=
  (g.axes.zip (g.nodePosition n)).mapM fun (a, i) => a.coordinates[i]?

end

section
variable {K : Type} [Scalar K] (g : Grid K)

/-- Coordinate maps go axis by axis: the cell's origin first, then the point's coordinate. -/
def mapAxes (convert : Axis K → K → K → Flagged K) :
    List (Axis K) → List Nat → List K → Calc (List K)
  | a :: as, i :: is, p => do
    let origin ← a.origin i
    let x ← Calc.read p.head?
    let y ← convert a origin x
    return y :: (← mapAxes convert as is p.tail)
  | _, _, _ => pure []

def toLocal (e : Nat) (p : List K) : Calc (List K) :=
  mapAxes Axis.toLocal g.axes (g.elementPosition e) p

def toGlobal (e : Nat) (p : List K) : Calc (List K) :=
  mapAxes Axis.toGlobal g.axes (g.elementPosition e) p

def locateAxes : List (Axis K) → List K → Flagged (Option (List Nat))
  | a :: as, x :: xs => do
    match ← a.locate x with
    | none => return none
    | some i => return (← locateAxes as xs).map (i :: ·)
  | _, _ => pure (some [])

def locate (p : List K) : Flagged (Option Nat) :=
  if p.length = g.dim then do return (← locateAxes g.axes p).map g.elementIndex else pure none

def makeAxes : List Nat → List K → List K → Flagged (List (Axis K))
  | n :: ns, lo :: los, hi :: his =>
    if h : 0 < n then do
      let a ← Axis.make n lo hi h
      return a :: (← makeAxes ns los his)
    else pure []
  | _, _, _ => pure []

def shapeFault (resolution : List Nat) (lower upper : List K) : Option BadArgument :=
  let dim := resolution.length
  if dim = 0 ∨ 3 < dim then some (.meshDimension dim)
  else if lower.length ≠ dim ∨ upper.length ≠ dim then some .boundsLength
  else if 0 ∈ resolution then some .emptyAxis
  else if (lower.zip upper).any fun (lo, hi) => !Scalar.lt lo hi then some .boundsOrder
  else none

theorem length_makeAxes {resolution : List Nat} {lower upper : List K}
    (hl : lower.length = resolution.length) (hu : upper.length = resolution.length)
    (h0 : 0 ∉ resolution) :
    (makeAxes resolution lower upper).value.length = resolution.length := by
  induction resolution generalizing lower upper with
  | nil => simp [makeAxes]
  | cons n ns ih =>
    match lower, upper, hl, hu with
    | lo :: los, hi :: his, hl, hu =>
      simp only [List.mem_cons, not_or] at h0
      have hn : 0 < n := Nat.pos_of_ne_zero (Ne.symm h0.1)
      simp only [makeAxes, hn, dite_true, Flagged.value_bind, Flagged.value_pure,
        List.length_cons]
      rw [ih (by simpa using hl) (by simpa using hu) h0.2]

theorem length_of_shapeFault {resolution : List Nat} {lower upper : List K}
    (h : shapeFault resolution lower upper = none) :
    0 < (makeAxes resolution lower upper).value.length ∧
      (makeAxes resolution lower upper).value.length ≤ 3 := by
  simp only [shapeFault] at h
  split at h
  · cases h
  · split at h
    · cases h
    · split at h
      · cases h
      · next hd hb h0 =>
        rw [length_makeAxes (by omega) (by omega) h0]
        omega

def cellWidths : List Nat → List K → List K → Flagged (List K)
  | n :: ns, lo :: los, hi :: his => do
    let width ← Axis.cellWidth n lo hi
    return width :: (← cellWidths ns los his)
  | _, _, _ => pure []

def reserve (resolution : List Nat) (lower upper : List K) : Calc Unit := do
  let _ ← cellWidths resolution lower upper
  Calc.reserve (Numbering.count (resolution.map (· + 1)) * resolution.length)

def create (address : Nat) (resolution : List Nat) (lower upper : List K) : Eval K (Grid K) :=
  match h : shapeFault resolution lower upper with
  | some fault => Eval.fail (.invalidArgument fault)
  | none => do
    Eval.calculate (reserve resolution lower upper)
    let axes := makeAxes resolution lower upper
    let hd := length_of_shapeFault h
    let g ← Eval.calculate ⟨some (Grid.mk address axes.value hd.1 hd.2), axes.raised⟩
    Eval.notify (.meshCreated g.dim g.elementCount g.nodeCount)
    return g

end

instance {K : Type} [Scalar K] : Mesh K (Grid K) where
  address := address
  dim := dim
  nodeCount := nodeCount
  elementCount := elementCount
  vertex := vertex
  nodeElements g n := some (g.nodeElements n)
  toLocal := toLocal
  toGlobal := toGlobal

def debugText (g : Grid Binary64) : Flagged String := do
  let vertices := (List.range g.nodeCount).flatMap fun n => (g.vertex n).getD []
  return Text.record "CartesianMesh"
    [("elements_per_axis", Text.list (g.cellCounts.map toString)),
      ("min", ← Binary64.debugList (g.axes.map (·.lower))),
      ("max", ← Binary64.debugList (g.axes.map (·.upper))),
      ("spacing", ← Binary64.debugList (g.axes.map (·.spacing))),
      ("vertices", ← Binary64.debugList vertices)]

end Grid
end FieldGraph
