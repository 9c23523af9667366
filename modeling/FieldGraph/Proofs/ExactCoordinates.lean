import FieldGraph.Proofs.GridPoints
import FieldGraph.Proofs.Multilinear
import Mathlib.Data.Rat.Floor
import Mathlib.Tactic.Linarith

/-!
# Coordinates in exact arithmetic

Over the rationals a created grid is what it says: nodes stand at equal distances,
the last one at the upper bound without being put there, the maps between
coordinates in space and in an element undo each other, and a point of an element
is found in that element, unless it lies on its upper side and there is a next one.
-/

namespace FieldGraph

/-! ## Rational scalars -/

namespace Scalar
variable (x y : Rat)

@[simp] theorem value_add : (Scalar.add x y).value = x + y := rfl

@[simp] theorem value_sub : (Scalar.sub x y).value = x - y := rfl

@[simp] theorem value_mul : (Scalar.mul x y).value = x * y := rfl

@[simp] theorem value_div : (Scalar.div x y).value = x / y := rfl

@[simp] theorem ofRat_eq : Scalar.ofRat x = x := rfl

@[simp] theorem lt_eq : Scalar.lt x y = decide (x < y) := rfl

@[simp] theorem isFinite_eq : Scalar.isFinite x = true := rfl

end Scalar

/-! ## Axes -/

namespace Axis
variable {a : Axis Rat}

theorem Made.spacing (h : a.Made) : a.spacing = (a.upper - a.lower) / a.cells := h.spacing_eq

theorem cells_ne_zero (a : Axis Rat) : (a.cells : Rat) ≠ 0 :=
  Nat.cast_ne_zero.mpr (Nat.pos_iff_ne_zero.mp a.cells_pos)

theorem Made.range_pos (h : a.Made) : 0 < a.upper - a.lower := by
  have := h.lower_lt
  simpa using this

theorem Made.spacing_pos (h : a.Made) : 0 < a.spacing := by
  rw [h.spacing]
  exact div_pos h.range_pos (Nat.cast_pos.mpr a.cells_pos)

theorem Made.cells_mul_spacing (h : a.Made) : a.cells * a.spacing = a.upper - a.lower := by
  rw [h.spacing]
  field_simp [a.cells_ne_zero]

/-- The last node is where the formula of the others would put it. -/
theorem Made.node_eq (h : a.Made) (i : Nat) : a.node i = a.lower + i * a.spacing := by
  rw [node, nodeCoordinate]
  by_cases hi : i = a.cells
  · rw [if_pos hi, hi, h.cells_mul_spacing]
    simp
  · rw [if_neg hi]
    simp

theorem value_origin (a : Axis Rat) (i : Nat) : (a.origin i).value = a.lower + i * a.spacing := rfl

theorem value_toGlobal (a : Axis Rat) (o ξ : Rat) :
    (a.toGlobal o ξ).value = o + 1 / 2 * (ξ + 1) * a.spacing := rfl

theorem value_toLocal (a : Axis Rat) (o x : Rat) :
    (a.toLocal o x).value = 2 * (x - o) / a.spacing - 1 := rfl

theorem Made.toLocal_toGlobal (h : a.Made) (o ξ : Rat) :
    (a.toLocal o (a.toGlobal o ξ).value).value = ξ := by
  have := h.spacing_pos.ne'
  rw [value_toLocal, value_toGlobal]
  field_simp
  ring

theorem Made.toGlobal_toLocal (h : a.Made) (o x : Rat) :
    (a.toGlobal o (a.toLocal o x).value).value = x := by
  have := h.spacing_pos.ne'
  rw [value_toLocal, value_toGlobal]
  field_simp
  ring

/-- The nodes at the ends of a cell have the local coordinates `-1` and `1`. -/
theorem Made.toLocal_node (h : a.Made) (i : Nat) (upper : Bool) :
    (a.toLocal (a.origin i).value (a.node (i + upper.toNat))).value = side upper := by
  have := h.spacing_pos.ne'
  rw [value_toLocal, value_origin, h.node_eq]
  cases upper
  · simp [side]
  · simp only [side, Bool.toNat_true, if_true]
    push_cast
    field_simp
    ring

/-! ## Finding a point -/

theorem covers_of_mem {x : Rat} (lower : a.lower ≤ x) (upper : x ≤ a.upper) :
    (a.covers x).value = true := by
  have tolerance : 0 ≤ slack * (a.upper - a.lower) :=
    mul_nonneg (by norm_num [slack]) (by linarith)
  have above : ¬x < a.lower - slack * (a.upper - a.lower) := by linarith
  have below : ¬a.upper + slack * (a.upper - a.lower) < x := by linarith
  simp [covers, above, below]

theorem value_cellOf (a : Axis Rat) (x : Rat) :
    (a.cellOf x).value = min ⌊(x - a.lower) / a.spacing⌋.toNat (a.cells - 1) := rfl

/-- The cells are half open, except for the last one. -/
def InCell (a : Axis Rat) (i : Nat) (ξ : Rat) : Prop :=
  -1 ≤ ξ ∧ (ξ < 1 ∨ ξ = 1 ∧ i + 1 = a.cells)

theorem Made.locate_toGlobal (h : a.Made) {i : Nat} (hi : i < a.cells) {ξ : Rat}
    (hξ : a.InCell i ξ) : (a.locate (a.toGlobal (a.origin i).value ξ).value).value = some i := by
  have pos := h.spacing_pos
  have last : (i : Rat) + 1 ≤ a.cells := by exact_mod_cast hi
  obtain ⟨lower, upper⟩ := hξ
  have le_one : ξ ≤ 1 := by
    rcases upper with lt | ⟨rfl, -⟩
    · exact lt.le
    · exact le_rfl
  -- in units of cells, the point is `(ξ + 1) / 2` beyond the lower side of its cell
  have away : (a.toGlobal (a.origin i).value ξ).value - a.lower =
      (i + 1 / 2 * (ξ + 1)) * a.spacing := by
    rw [value_toGlobal, value_origin]
    ring
  generalize (a.toGlobal (a.origin i).value ξ).value = x at away
  have covered : (a.covers x).value = true := by
    have range := h.cells_mul_spacing
    apply covers_of_mem
    · nlinarith
    · nlinarith
  have units : (x - a.lower) / a.spacing = i + 1 / 2 * (ξ + 1) := by
    rw [away, mul_div_assoc, div_self pos.ne', mul_one]
  refine locate_eq_some_iff.mpr ⟨covered, ?_⟩
  rw [value_cellOf, units]
  rcases upper with lt | ⟨rfl, top⟩
  · have floor : ⌊i + 1 / 2 * (ξ + 1)⌋ = (i : Int) := by
      rw [Int.floor_eq_iff, Int.cast_natCast]
      constructor <;> linarith
    rw [floor, Int.toNat_natCast]
    omega
  · have floor : ⌊(i : Rat) + 1 / 2 * (1 + 1)⌋ = (i + 1 : Nat) := by
      rw [Int.floor_eq_iff, Int.cast_natCast, Nat.cast_succ]
      constructor <;> linarith
    rw [floor, Int.toNat_natCast]
    omega

end Axis

/-! ## Elements -/

/-- The point with given coordinates. -/
def point {n : Nat} (x : List Rat) (d : Fin n) : Rat := x.getD d 0

theorem point_ofFn {n : Nat} (x : Fin n → Rat) : point (List.ofFn x) = x := by
  funext d
  simp [point]

namespace Grid
variable {g : Grid Rat} {e : Nat}

/-- The corner of an element with the lowest coordinates. -/
def origin (g : Grid Rat) (e : Nat) (d : Fin g.dim) : Rat :=
  (g.axis d).lower + g.cellOn e d * (g.axis d).spacing

def spacing (g : Grid Rat) (d : Fin g.dim) : Rat := (g.axis d).spacing

theorem Made.spacing_ne_zero (h : g.Made) (d : Fin g.dim) : g.spacing d ≠ 0 :=
  (h.axis d).spacing_pos.ne'

theorem toGlobal_eq (e : Nat) (ξ : Fin g.dim → Rat) :
    (g.toGlobal e (List.ofFn ξ)).result =
      some (List.ofFn (boxPoint (g.origin e) g.spacing ξ)) := g.result_toGlobal e ξ

theorem Made.toLocal_boxPoint (h : g.Made) (e : Nat) (ξ : Fin g.dim → Rat) :
    (g.toLocal e (List.ofFn (boxPoint (g.origin e) g.spacing ξ))).result = some (List.ofFn ξ) := by
  rw [g.result_toLocal e]
  congr 2
  funext d
  exact (h.axis d).toLocal_toGlobal _ (ξ d)

theorem Made.exists_boxPoint (h : g.Made) (e : Nat) (x : Fin g.dim → Rat) :
    ∃ ξ, boxPoint (g.origin e) g.spacing ξ = x ∧
      (g.toLocal e (List.ofFn x)).result = some (List.ofFn ξ) := by
  refine ⟨_, ?_, g.result_toLocal e x⟩
  funext d
  exact (h.axis d).toGlobal_toLocal _ (x d)

theorem Made.vertex_cornerNode (h : g.Made) (he : e < g.elementCount) (c : Fin g.dim → Bool) :
    g.vertex (g.cornerNode e (List.ofFn c)) =
      some (List.ofFn (boxCorner (g.origin e) g.spacing c)) := by
  rw [h.vertex (g.cornerNode_lt he (Numbering.mem_corners c)), g.nodeOn_cornerNode he]
  congr 2
  funext d
  rw [(h.axis d).node_eq, boxCorner, origin, spacing]
  push_cast
  ring

theorem Made.locate_boxPoint (h : g.Made) (he : e < g.elementCount) {ξ : Fin g.dim → Rat}
    (inside : ∀ d, (g.axis d).InCell (g.cellOn e d) (ξ d)) :
    (g.locate (List.ofFn (boxPoint (g.origin e) g.spacing ξ))).value = some e := by
  rw [value_locate]
  refine ⟨g.cellOn e, g.elementIndex_cellOn e, fun d => ?_⟩
  exact (h.axis d).locate_toGlobal (g.cellOn_lt he d) (inside d)

end Grid
end FieldGraph
