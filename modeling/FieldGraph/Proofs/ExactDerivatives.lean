import FieldGraph.Field.Nodal
import FieldGraph.Proofs.ExactCoordinates
import FieldGraph.Proofs.FieldTotality
import FieldGraph.Proofs.NodalValues

/-!
# Derivatives in exact arithmetic

Over the rationals the loops of a nodal field come to closed formulas: the slope
of a corner's shape function is a product over the axes, and the derivatives in an
element are a table of sums over the corners. Hence they are the derivatives of
every multilinear polynomial that takes the nodal values at the element's corners.
-/

theorem List.zipIdx_ofFn {α : Type} {n : Nat} (f : Fin n → α) :
    (List.ofFn f).zipIdx = List.ofFn fun d => (f d, d.val) := by
  apply List.ext_getElem <;> simp

theorem List.zip_ofFn {α β : Type} {n : Nat} (f : Fin n → α) (g : Fin n → β) :
    (List.ofFn f).zip (List.ofFn g) = List.ofFn fun d => (f d, g d) := by
  apply List.ext_getElem <;> simp

namespace FieldGraph

open MvPolynomial (eval pderiv)

/-! ## Loops -/

namespace Calc
variable {α β : Type}

theorem result_foldlM {γ : Type} (repr : γ → β) {f : β → α → Calc β} {g : γ → α → γ}
    {xs : List α} (h : ∀ c, ∀ x ∈ xs, (f (repr c) x).result = some (repr (g c x))) (c : γ) :
    (xs.foldlM f (repr c)).result = some (repr (xs.foldl g c)) := by
  induction xs generalizing c with
  | nil => rfl
  | cons x xs ih =>
    rw [List.foldlM_cons, result_bind, h c x List.mem_cons_self]
    exact ih (fun c y hy => h c y (List.mem_cons_of_mem _ hy)) (g c x)

theorem result_mapM_ofFn {n : Nat} {f : α → Calc β} {x : Fin n → α} {y : Fin n → β}
    (h : ∀ d, (f (x d)).result = some (y d)) :
    ((List.ofFn x).mapM f).result = some (List.ofFn y) := by
  induction n with
  | zero => rfl
  | succ n ih =>
    have rest := ih fun d => h d.succ
    rw [List.ofFn_succ, List.ofFn_succ, List.mapM_cons, result_bind, h 0, Option.bind_some,
      result_bind, rest]
    rfl

end Calc

/-! ## Corners -/

theorem Numbering.sum_corners {M : Type} [AddCommMonoid M] {n : Nat} (f : List Bool → M) :
    ((corners n).map f).sum = ∑ c : Fin n → Bool, f (List.ofFn c) := by
  induction n generalizing f with
  | zero => simp [corners, choices]
  | succ n ih =>
    have sides : ((corners (n + 1)).map f).sum =
        ((corners n).map fun tail => f (false :: tail) + f (true :: tail)).sum := by
      rw [corners_succ]
      simp [List.flatMap_def, List.sum_flatten, List.map_map, Function.comp_def]
    rw [sides, ih, ← (Fin.consEquiv fun _ => Bool).sum_comp, Fintype.sum_prod_type]
    simp [Finset.sum_add_distrib, add_comm]

namespace NodalField

/-! ## Shape functions -/

theorem result_shapeSlope {n : Nat} (c : Fin n → Bool) (ξ : Fin n → Rat) (k : Fin n) :
    (shapeSlope (List.ofFn c) (List.ofFn ξ) k).result = some (∏ d, slopeFactor ξ k d (c d)) := by
  let factor (x : Bool × Nat) : Rat :=
    if x.2 = k then 1 / 2 * side x.1 else 1 / 2 * (1 + side x.1 * (List.ofFn ξ).getD x.2 0)
  have loop : (shapeSlope (List.ofFn c) (List.ofFn ξ) k).result =
      some ((List.ofFn c).zipIdx.foldl (fun p x => p * factor x) 1) := by
    refine Calc.result_foldlM id ?_ (1 : Rat)
    rintro p ⟨upper, d⟩ hd
    have hd : d < n := by simpa using List.snd_lt_of_mem_zipIdx hd
    by_cases hk : d = k
    · simp only [factor, hk, if_true]
      rfl
    · have coordinate : (List.ofFn ξ)[d]? = some ((List.ofFn ξ).getD d 0) := by simp [hd]
      simp only [factor, hk, if_false, coordinate]
      rfl
  rw [loop, ← List.foldl_map, ← List.prod_eq_foldl, List.zipIdx_ofFn, List.map_ofFn,
    List.prod_ofFn]
  congr 1
  apply Finset.prod_congr rfl
  intro d _
  simp [factor, slopeFactor, Fin.val_inj]

theorem result_shapeDerivatives (g : Grid Rat) (c : Fin g.dim → Bool) (ξ : Fin g.dim → Rat) :
    (shapeDerivatives g.axes (List.ofFn c) (List.ofFn ξ)).result =
      some (List.ofFn fun k => (∏ d, slopeFactor ξ k d (c d)) * 2 / g.spacing k) := by
  have axes : g.axes.zipIdx = List.ofFn fun k => (g.axis k, k.val) := by
    rw [← List.zipIdx_ofFn]
    exact congrArg (·.zipIdx) g.axes_eq_ofFn
  rw [shapeDerivatives, axes]
  apply Calc.result_mapM_ofFn
  intro k
  rw [Calc.result_bind, result_shapeSlope]
  rfl

/-! ## Tables -/

/-- One row for each component, one column for each axis. -/
def table {m n : Nat} (t : Fin m → Fin n → Rat) : List (List Rat) :=
  List.ofFn fun i => List.ofFn (t i)

theorem length_flatten_table {m n : Nat} (t : Fin m → Fin n → Rat) :
    (table t).flatten.length = m * n := by
  simp [table, Function.comp_def]

theorem getElem?_flatten_table {m n : Nat} (t : Fin m → Fin n → Rat) (i : Fin m) (k : Fin n) :
    (table t).flatten[i * n + k]? = some (t i k) := by
  have rows : ∀ row ∈ table t, row.length = n := by simp [table]
  rw [List.getElem?_flatten_of_length rows i k.isLt]
  simp [table]

theorem value_addCorner {m n : Nat} (t : Fin m → Fin n → Rat) (u : Fin m → Rat)
    (s : Fin n → Rat) :
    (addCorner (table t) (List.ofFn u) (List.ofFn s)).value =
      table fun i k => t i k + u i * s k := by
  simp only [addCorner, Flagged.value_mapM, table, List.zip_ofFn, List.map_ofFn, Function.comp_def]
  rfl

variable (f : NodalField Rat)

theorem result_derivativesIn {e : Nat}
    {values : (Fin f.grid.dim → Bool) → Vector Rat f.components}
    (h : ∀ c, f.rows[f.grid.cornerNode e (List.ofFn c)]? = some (values c))
    (ξ : Fin f.grid.dim → Rat) :
    (f.derivativesIn e (List.ofFn ξ)).result = some (table fun i k =>
      ∑ c, (values c)[i] * ((∏ d, slopeFactor ξ k d (c d)) * 2 / f.grid.spacing k)).flatten := by
  -- the corner is read back from its list
  let term (corner : List Bool) (i : Fin f.components) (k : Fin f.grid.dim) : Rat :=
    let c (d : Fin f.grid.dim) := corner.getD d false
    (values c)[i] * ((∏ d, slopeFactor ξ k d (c d)) * 2 / f.grid.spacing k)
  have zeros : List.replicate f.components (List.replicate f.grid.dim (Scalar.ofRat 0 : Rat)) =
      table (0 : Fin f.components → Fin f.grid.dim → Rat) := by
    simp [table, Pi.zero_def]
  have loop : (f.grid.corners.foldlM (fun rows corner => do
      let nodal ← Calc.read f.rows[f.grid.cornerNode e corner]?
      let slopes ← shapeDerivatives f.grid.axes corner (List.ofFn ξ)
      addCorner rows nodal.toList slopes)
        (table (0 : Fin f.components → Fin f.grid.dim → Rat))).result =
        some (table (f.grid.corners.foldl (fun t corner => t + term corner) 0)) := by
    apply Calc.result_foldlM
    intro t corner hc
    obtain ⟨c, rfl⟩ := List.exists_eq_ofFn (Numbering.length_of_mem_corners hc)
    have nodal : (values c).toList = List.ofFn fun i => (values c)[i] := by
      apply List.ext_getElem <;> simp
    rw [h, Calc.result_bind, Calc.result_read, Option.bind_some, Calc.result_bind,
      result_shapeDerivatives, Option.bind_some, nodal]
    change some (addCorner _ _ _).value = _
    rw [value_addCorner]
    congr 2
    funext i k
    simp [term]
  rw [derivativesIn, zeros, Calc.result_bind, loop]
  rw [← List.foldl_map, ← List.sum_eq_foldl]
  rw [Grid.corners, Numbering.sum_corners]
  show some _ = _
  congr 3
  funext i k
  simp [term, Finset.sum_apply]

/-- The value of a component at a node of the grid. -/
def valueAt (n i : Nat) : Rat := (f.value? n i).getD 0

theorem value?_eq_some {n i : Nat} (hn : n < f.grid.nodeCount) (hi : i < f.components) :
    f.value? n i = some (f.valueAt n i) := by
  simp [valueAt, value?, hn, hi]

theorem derivativesIn_eq {e : Nat} (he : e < f.grid.elementCount) (ξ : Fin f.grid.dim → Rat) :
    (f.derivativesIn e (List.ofFn ξ)).result =
      some (table fun (i : Fin f.components) k =>
        ∑ c, f.valueAt (f.grid.cornerNode e (List.ofFn c)) i *
          ((∏ d, slopeFactor ξ k d (c d)) * 2 / f.grid.spacing k)).flatten := by
  have onGrid (c : Fin f.grid.dim → Bool) :
      f.grid.cornerNode e (List.ofFn c) < f.grid.nodeCount :=
    f.grid.cornerNode_lt he (Numbering.mem_corners c)
  have rows (c : Fin f.grid.dim → Bool) : f.rows[f.grid.cornerNode e (List.ofFn c)]? =
      some (f.rows.get ⟨_, onGrid c⟩) := Vector.getElem?_eq_getElem (onGrid c)
  rw [f.result_derivativesIn rows]
  congr 3
  funext i k
  apply Finset.sum_congr rfl
  intro c _
  have entry := f.value?_eq_some (onGrid c) i.isLt
  rw [value?, rows, Option.bind_some, Vector.getElem?_eq_getElem i.isLt, Option.some.injEq] at entry
  rw [← entry]
  rfl

/-! ## Multilinear polynomials -/

/-- The polynomial takes the values of a component at the corners of an element. -/
def AgreesWith (e i : Nat) (p : MvPolynomial (Fin f.grid.dim) Rat) : Prop :=
  ∀ n ∈ f.grid.elementNodes e, ∀ x, f.grid.vertex n = some (List.ofFn x) →
    f.value? n i = some (eval x p)

variable {f}

theorem AgreesWith.at_corner {e i : Nat} {p : MvPolynomial (Fin f.grid.dim) Rat}
    (h : f.AgreesWith e i p) (made : f.grid.Made) (he : e < f.grid.elementCount)
    (c : Fin f.grid.dim → Bool) :
    f.valueAt (f.grid.cornerNode e (List.ofFn c)) i =
      eval (boxCorner (f.grid.origin e) f.grid.spacing c) p := by
  rw [valueAt, h _ (List.mem_map_of_mem (Numbering.mem_corners c)) _ (made.vertex_cornerNode he c)]
  rfl

/-- In an element the derivatives of a field are those of the polynomials that agree with it. -/
theorem derivativesIn_exact (made : f.grid.Made) {e : Nat} (he : e < f.grid.elementCount)
    (ξ : Fin f.grid.dim → Rat) :
    ∃ t : Fin f.components → Fin f.grid.dim → Rat,
      (f.derivativesIn e (List.ofFn ξ)).result = some (table t).flatten ∧
        ∀ (i : Fin f.components) (p), IsMultilinear p → f.AgreesWith e i p →
          ∀ k, t i k = eval (boxPoint (f.grid.origin e) f.grid.spacing ξ) (pderiv k p) := by
  refine ⟨_, f.derivativesIn_eq he ξ, ?_⟩
  intro i p hp agrees k
  rw [← hp.sum_corners _ _ _ made.spacing_ne_zero]
  apply Finset.sum_congr rfl
  intro c _
  rw [agrees.at_corner made he c]

end NodalField
end FieldGraph
