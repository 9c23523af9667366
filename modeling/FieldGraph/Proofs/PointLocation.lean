import FieldGraph.Proofs.ExactCoordinates
import Mathlib.Algebra.Order.Floor.Semiring
import Mathlib.Order.Bounds.Basic

/-!
# Point location

In exact arithmetic a point is found if it has a coordinate for each axis and none
of them is farther beyond the range of its axis than the tolerance. On each axis it
is then in the last cell that contains the nearest coordinate in range, ends
included; elements are numbered so that later cells make for larger numbers, and so
of all elements whose closed boxes contain the nearest point of the grid the largest
is found.
-/

namespace FieldGraph

/-! ## Axes -/

namespace Axis
variable {a : Axis Rat}

/-- A coordinate is in range up to the tolerance. -/
def Near (a : Axis Rat) (x : Rat) : Prop :=
  a.lower - 1 / 10 ^ 12 * (a.upper - a.lower) ≤ x ∧ x ≤ a.upper + 1 / 10 ^ 12 * (a.upper - a.lower)

/-- The nearest coordinate in range. -/
def project (a : Axis Rat) (x : Rat) : Rat := max a.lower (min x a.upper)

/-- A cell contains a coordinate, ends included. -/
def Spans (a : Axis Rat) (i : Nat) (x : Rat) : Prop := a.node i ≤ x ∧ x ≤ a.node (i + 1)

theorem covers_iff {x : Rat} : (a.covers x).value = true ↔ a.Near x := by
  simp only [covers, Near, Flagged.value_bind, Scalar.value_mul, Scalar.value_sub,
    Scalar.ofRat_eq, Scalar.isFinite_eq, Scalar.lt_eq, Bool.not_true, Bool.false_eq_true, if_false]
  rw [← not_lt, ← not_lt, show (1 / 10 ^ 12 : Rat) = slack by norm_num [slack]]
  by_cases below : x < a.lower - slack * (a.upper - a.lower) <;> simp [below]

theorem project_of_mem {x : Rat} (lower : a.lower ≤ x) (upper : x ≤ a.upper) : a.project x = x := by
  rw [project, min_eq_left upper, max_eq_right lower]

namespace Made

theorem node_zero (h : a.Made) : a.node 0 = a.lower := by
  rw [h.node_eq]
  simp

theorem node_cells (h : a.Made) : a.node a.cells = a.upper := by
  rw [h.node_eq, h.cells_mul_spacing]
  simp

theorem node_strictMono (h : a.Made) : StrictMono a.node := by
  intro i j hij
  have farther : (i : Rat) * a.spacing < j * a.spacing :=
    mul_lt_mul_of_pos_right (Nat.cast_lt.mpr hij) h.spacing_pos
  rw [h.node_eq, h.node_eq]
  linarith

theorem node_mono (h : a.Made) : Monotone a.node := h.node_strictMono.monotone

/-- Coordinates are compared with nodes in units of cells. -/
theorem node_le_iff (h : a.Made) {i : Nat} {x : Rat} :
    a.node i ≤ x ↔ (i : Rat) ≤ (x - a.lower) / a.spacing := by
  rw [h.node_eq, le_div_iff₀ h.spacing_pos, le_sub_iff_add_le']

theorem lt_node_iff (h : a.Made) {i : Nat} {x : Rat} :
    x < a.node i ↔ (x - a.lower) / a.spacing < i := by
  rw [← not_le, h.node_le_iff, not_le]

end Made

theorem value_cellOf_eq_floor (a : Axis Rat) (x : Rat) :
    (a.cellOf x).value = min ⌊(x - a.lower) / a.spacing⌋₊ (a.cells - 1) := by
  rw [value_cellOf, Int.floor_toNat]

namespace Made

theorem node_cellOf_le (h : a.Made) (x : Rat) : a.node (a.cellOf x).value ≤ a.project x := by
  obtain inside | below := le_or_gt a.lower x
  · have progress : 0 ≤ (x - a.lower) / a.spacing :=
      div_nonneg (sub_nonneg.mpr inside) h.spacing_pos.le
    have reached : a.node (a.cellOf x).value ≤ x := by
      rw [h.node_le_iff, value_cellOf_eq_floor]
      exact (Nat.cast_le.mpr (Nat.min_le_left _ _)).trans (Nat.floor_le progress)
    have last : a.node (a.cellOf x).value ≤ a.upper :=
      (h.node_mono (a.cellOf_lt x).le).trans_eq h.node_cells
    exact le_max_of_le_right (le_min reached last)
  · -- the floor is negative, and the first cell is taken instead
    have progress : (x - a.lower) / a.spacing ≤ 0 :=
      div_nonpos_of_nonpos_of_nonneg (sub_neg.mpr below).le h.spacing_pos.le
    rw [value_cellOf_eq_floor, Nat.floor_of_nonpos progress, Nat.zero_min, h.node_zero]
    exact le_max_left _ _

theorem project_le_node (h : a.Made) (x : Rat) :
    a.project x ≤ a.node ((a.cellOf x).value + 1) := by
  refine max_le (h.node_zero.symm.trans_le (h.node_mono (Nat.zero_le _))) ?_
  rw [value_cellOf_eq_floor]
  obtain uncut | cut := Nat.le_total ⌊(x - a.lower) / a.spacing⌋₊ (a.cells - 1)
  · have next : x < a.node (⌊(x - a.lower) / a.spacing⌋₊ + 1) := by
      rw [h.lt_node_iff, Nat.cast_succ]
      exact Nat.lt_floor_add_one _
    rw [Nat.min_eq_left uncut]
    exact (min_le_left _ _).trans next.le
  · rw [Nat.min_eq_right cut, Nat.sub_add_cancel a.cells_pos, h.node_cells]
    exact min_le_right _ _

theorem le_cellOf (h : a.Made) {x : Rat} {i : Nat} (hi : i < a.cells)
    (reached : a.node i ≤ a.project x) : i ≤ (a.cellOf x).value := by
  rw [value_cellOf_eq_floor]
  refine le_min ?_ (by omega)
  obtain rfl | pos := Nat.eq_zero_or_pos i
  · exact Nat.zero_le _
  · have beyond : a.lower < a.node i := h.node_zero ▸ h.node_strictMono pos
    have inside := (le_max_iff.mp reached).resolve_left beyond.not_ge
    exact Nat.le_floor (h.node_le_iff.mp (inside.trans (min_le_left _ _)))

/-- A coordinate is found in the last cell that contains the nearest one in range. -/
theorem cellOf_isGreatest (h : a.Made) (x : Rat) :
    IsGreatest {i | i < a.cells ∧ a.Spans i (a.project x)} (a.cellOf x).value :=
  ⟨⟨a.cellOf_lt x, h.node_cellOf_le x, h.project_le_node x⟩,
    fun _ ⟨hi, spans⟩ => h.le_cellOf hi spans.1⟩

/-- Within a cell local coordinates go from `-1` to `1`. -/
theorem toLocal_mem (h : a.Made) {i : Nat} {x : Rat} (spans : a.Spans i x) :
    -1 ≤ (a.toLocal (a.origin i).value x).value ∧ (a.toLocal (a.origin i).value x).value ≤ 1 := by
  have pos := h.spacing_pos
  obtain ⟨lower, upper⟩ := spans
  rw [h.node_eq] at lower upper
  push_cast at upper
  have low : 0 ≤ 2 * (x - (a.lower + i * a.spacing)) / a.spacing := by
    apply div_nonneg _ pos.le
    linarith
  have high : 2 * (x - (a.lower + i * a.spacing)) / a.spacing ≤ 2 := by
    rw [div_le_iff₀ pos]
    linarith
  rw [value_toLocal, value_origin]
  constructor <;> linarith

end Made
end Axis

/-! ## Elements -/

namespace Grid

/-- The closed box of an element contains a point. -/
def BoxContains (g : Grid Rat) (e : Nat) (x : Fin g.dim → Rat) : Prop :=
  ∀ d, (g.axis d).Spans (g.cellOn e d) (x d)

/-- The nearest point of a grid. -/
def project (g : Grid Rat) (x : Fin g.dim → Rat) (d : Fin g.dim) : Rat := (g.axis d).project (x d)

def cellsOf (g : Grid Rat) (x : Fin g.dim → Rat) (d : Fin g.dim) : Nat :=
  ((g.axis d).cellOf (x d)).value

variable {g : Grid Rat}

theorem locate_ofFn_iff {x : Fin g.dim → Rat} {e : Nat} :
    (g.locate (List.ofFn x)).value = some e ↔
      (∀ d, (g.axis d).Near (x d)) ∧ g.elementIndex (List.ofFn (g.cellsOf x)) = e := by
  simp only [value_locate, Axis.locate_eq_some_iff, Axis.covers_iff]
  constructor
  · rintro ⟨i, same, found⟩
    have cells : g.cellsOf x = i := funext fun d => (found d).2
    exact ⟨fun d => (found d).1, cells ▸ same⟩
  · rintro ⟨near, same⟩
    exact ⟨g.cellsOf x, same, fun d => ⟨near d, rfl⟩⟩

theorem locate_ofFn_eq_none_iff {x : Fin g.dim → Rat} :
    (g.locate (List.ofFn x)).value = none ↔ ∃ d, ¬(g.axis d).Near (x d) := by
  rw [Option.eq_none_iff_forall_ne_some]
  constructor
  · intro missing
    by_contra! near
    exact missing _ (locate_ofFn_iff.mpr ⟨near, rfl⟩)
  · rintro ⟨d, far⟩ e found
    exact far ((locate_ofFn_iff.mp found).1 d)

theorem Made.cellsOf_isGreatest (h : g.Made) (x : Fin g.dim → Rat) :
    IsGreatest {e | e < g.elementCount ∧ g.BoxContains e (g.project x)}
      (g.elementIndex (List.ofFn (g.cellsOf x))) := by
  have greatest (d : Fin g.dim) := (h.axis d).cellOf_isGreatest (x d)
  obtain ⟨lt, cells⟩ := g.cellOn_elementIndex (i := g.cellsOf x) fun d => (greatest d).1.1
  refine ⟨⟨lt, fun d => ?_⟩, ?_⟩
  · rw [cells]
    exact (greatest d).1.2
  · rintro e ⟨he, contains⟩
    rw [← g.elementIndex_cellOn e]
    have below (d : Fin g.dim) : g.cellOn e d ≤ g.cellsOf x d :=
      (greatest d).2 ⟨g.cellOn_lt he d, contains d⟩
    exact Numbering.index_mono (List.forall₂_iff_get.mpr ⟨by simp, fun d _ _ => by simp [below]⟩)

theorem BoxContains.toLocal_mem (h : g.Made) {e : Nat} {x : Fin g.dim → Rat}
    (contains : g.BoxContains e x) :
    ∃ ξ : Fin g.dim → Rat, (g.toLocal e (List.ofFn x)).result = some (List.ofFn ξ) ∧
      ∀ d, -1 ≤ ξ d ∧ ξ d ≤ 1 :=
  ⟨_, g.result_toLocal e x, fun d => (h.axis d).toLocal_mem (contains d)⟩

/-- A point is found unless it has not a coordinate for each axis, or one that is out of range by
more than the tolerance. Of the elements whose closed boxes contain the nearest point of the grid
the one with the largest index is found. Where the point is in range itself, its local coordinates
there are. -/
theorem point_location (g : Grid Rat) (made : g.Made) (p : List Rat) :
    ((g.locate p).value = none ↔ p.length ≠ g.dim ∨ ∃ d, ¬(g.axis d).Near (point p d)) ∧
      ∀ e, (g.locate p).value = some e →
        IsGreatest {e | e < g.elementCount ∧ g.BoxContains e (g.project (point p))} e ∧
          ((∀ d, (g.axis d).lower ≤ point p d ∧ point p d ≤ (g.axis d).upper) →
            ∃ ξ : Fin g.dim → Rat, (g.toLocal e p).result = some (List.ofFn ξ) ∧
              ∀ d, -1 ≤ ξ d ∧ ξ d ≤ 1) := by
  by_cases length : p.length = g.dim
  · obtain ⟨x, rfl⟩ := List.exists_eq_ofFn length
    rw [point_ofFn]
    constructor
    · rw [locate_ofFn_eq_none_iff, or_iff_right fun differ => differ length]
    · intro e found
      obtain ⟨-, rfl⟩ := locate_ofFn_iff.mp found
      have greatest := made.cellsOf_isGreatest x
      refine ⟨greatest, fun inside => ?_⟩
      have projected : g.project x = x :=
        funext fun d => Axis.project_of_mem (inside d).1 (inside d).2
      exact (projected ▸ greatest.1.2).toLocal_mem made
  · have missing : (g.locate p).value = none := by rw [locate, if_neg length]; rfl
    rw [missing]
    refine ⟨iff_of_true rfl (.inl length), fun e found => ?_⟩
    cases found

/-- Where four elements meet, the last of them is found. -/
theorem point_location_corner :
    let axis : Axis Rat := (Axis.make 2 0 2 Nat.two_pos).value
    let g : Grid Rat := ⟨0, [axis, axis], by decide, by decide⟩
    g.Made ∧ (g.locate [1, 1]).value = some 3 ∧
      IsGreatest {e | e < g.elementCount ∧ g.BoxContains e (g.project (point [1, 1]))} 3 ∧
      ∃ ξ : Fin g.dim → Rat, (g.toLocal 3 [1, 1]).result = some (List.ofFn ξ) ∧
        ∀ d, -1 ≤ ξ d ∧ ξ d ≤ 1 := by
  intro axis g
  have created : (Grid.create 0 [2, 2] [0, 0] [2, 2] {}).1 = .ok g := by decide +kernel
  have made : g.Made := .create (Prod.ext created rfl)
  have located : (g.locate [1, 1]).value = some 3 := by decide +kernel
  have inside : ∀ d : Fin g.dim,
      (g.axis d).lower ≤ point [1, 1] d ∧ point [1, 1] d ≤ (g.axis d).upper := by decide +kernel
  obtain ⟨greatest, within⟩ := (point_location g made [1, 1]).2 3 located
  exact ⟨made, located, greatest, within inside⟩

end Grid
end FieldGraph
