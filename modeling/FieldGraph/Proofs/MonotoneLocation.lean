import FieldGraph.Proofs.NodeLocation
import FieldGraph.Proofs.NondegenerateGrids

/-!
# Location is monotone

The cell of a coordinate comes from a rounded difference, a rounded quotient and
a whole part. Each of them is monotone on numbers, so larger coordinates are found
in later cells. Where the spacing is zero or infinite a quotient may be no number;
but then the cell is the first or the last one, by the sign of the difference.
-/

namespace FieldGraph

namespace Binary64
variable {x y : Binary64}

/-! ## The order of numbers -/

def le (x y : Binary64) : Bool := x.lt y || x.eq y

theorem le_iff : x.le y = true ↔ x.isNaN = false ∧ y.isNaN = false ∧ x.place ≤ y.place := by
  rw [le, Bool.or_eq_true, lt_iff, eq, Bool.and_eq_true, Bool.and_eq_true, Bool.not_eq_true',
    Bool.not_eq_true', decide_eq_true_iff, le_iff_lt_or_eq]
  tauto

theorem lt_of_le_of_lt {z : Binary64} (h : x.le y = true) (h' : y.lt z = true) : x.lt z = true := by
  obtain ⟨hx, -, first⟩ := le_iff.mp h
  obtain ⟨-, hz, second⟩ := lt_iff.mp h'
  exact lt_iff.mpr ⟨hx, hz, by omega⟩

theorem lt_of_lt_of_le {z : Binary64} (h : x.lt y = true) (h' : y.le z = true) : x.lt z = true := by
  obtain ⟨hx, -, first⟩ := lt_iff.mp h
  obtain ⟨-, hz, second⟩ := le_iff.mp h'
  exact lt_iff.mpr ⟨hx, hz, by omega⟩

theorem isFinite_of_between {z : Binary64} (hx : x.isFinite) (hy : y.isFinite) (xz : x.le z = true)
    (zy : z.le y = true) : z.isFinite := by
  obtain ⟨-, -, above⟩ := le_iff.mp xz
  obtain ⟨-, -, below⟩ := le_iff.mp zy
  rw [isFinite_iff] at hx hy ⊢
  omega

/-! ## Whole parts -/

theorem isNegative_of_neg (h : x.place < 0) : x.isNegative = true := by
  unfold place at h
  cases negative : x.isNegative with
  | true => rfl
  | false =>
    rw [negative, if_neg Bool.false_ne_true] at h
    omega

theorem floorWithin_of_isInfinite (h : x.isInfinite = true) (last : Nat) :
    (floorWithin last x).value = if 0 < x.place then last else 0 := by
  have size := isInfinite_iff.mp h
  have positive : 0 < infinityPattern := by decide
  by_cases pos : 0 < x.place
  · simp [floorWithin, isNaN_of_isInfinite h, h, isNegative_eq_false pos, pos]
  · simp [floorWithin, isNaN_of_isInfinite h, h, isNegative_of_neg (show x.place < 0 by omega), pos]

theorem floorWithin_mono (hx : x.isNaN = false) (hy : y.isNaN = false) (h : x.place ≤ y.place)
    (last : Nat) : (floorWithin last x).value ≤ (floorWithin last y).value := by
  by_cases fx : x.isFinite
  · by_cases fy : y.isFinite
    · have whole := Rat.floor_monotone (place_le_place.mp h)
      rw [floorWithin_eq fx, floorWithin_eq fy]
      omega
    · have infinite := isInfinite_of_number (Bool.eq_false_iff.mpr fy) hy
      have size := isInfinite_iff.mp infinite
      rw [isFinite_iff] at fx
      rw [floorWithin_of_isInfinite infinite, if_pos (by omega)]
      exact floorWithin_le last x
  · have infinite := isInfinite_of_number (Bool.eq_false_iff.mpr fx) hx
    have size := isInfinite_iff.mp infinite
    rw [floorWithin_of_isInfinite infinite]
    by_cases pos : 0 < x.place
    · have bound := isNaN_eq_false_iff.mp hy
      have above : y.isInfinite = true := isInfinite_iff.mpr (by omega)
      rw [floorWithin_of_isInfinite above, if_pos pos, if_pos (by omega)]
    · rw [if_neg pos]
      exact Nat.zero_le _

/-! ## Quotients -/

theorem isInfinite_infinity (negative : Bool) : (infinity negative).isInfinite = true := by
  cases negative <;> decide

theorem infinity_pos_iff (nonzero : x.place ≠ 0) :
    0 < (infinity x.isNegative).place ↔ 0 < x.place := by
  rcases lt_or_gt_of_ne nonzero with below | above
  · rw [isNegative_of_neg below]
    exact iff_of_false (by decide) below.not_gt
  · rw [isNegative_eq_false above]
    exact iff_of_true (by decide) above

theorem isZero_iff : x.isZero = true ↔ x.place = 0 := by
  rw [← Int.natAbs_eq_zero, natAbs_place, isZero, decide_eq_true_iff]

theorem isFinite_of_isZero (h : x.isZero = true) : x.isFinite := by
  rw [isFinite_iff, isZero_iff.mp h]
  decide

/-- Cells of infinite width have everything in the first one. -/
theorem floorWithin_div_of_isInfinite (hx : x.isNaN = false) (hy : y.isInfinite = true) (last : Nat) :
    (floorWithin last (div x y).value).value = 0 := by
  have zero (negative : Bool) : (Binary64.zero negative).HasValue 0 := by
    cases negative <;> decide +kernel
  by_cases infinite : x.isInfinite
  · have delivered : (div x y).value = defaultNaN := by
      simp [div, withOperands, hx, isNaN_of_isInfinite hy, infinite, hy, invalidOperation]
    rw [delivered]
    rfl
  · have delivered : (div x y).value = Binary64.zero (x.isNegative != y.isNegative) := by
      simp [div, withOperands, hx, isNaN_of_isInfinite hy, infinite, hy]
    rw [delivered, floorWithin_eq (zero _).1, (zero _).2]
    exact Nat.zero_min last

theorem div_zero_zero (hx : x.isZero = true) (hy : y.isZero = true) : (div x y).value = defaultNaN := by
  have fx := isFinite_of_isZero hx
  have fy := isFinite_of_isZero hy
  simp [div, withOperands_of_isFinite fx fy, isInfinite_of_isFinite fx, isInfinite_of_isFinite fy, hx,
    hy, invalidOperation]

theorem div_of_isZero (hx : x.isNaN = false) (nonzero : x.isZero = false) (hy : y.isZero = true)
    (positive : y.isNegative = false) : (div x y).value = infinity x.isNegative := by
  have fy := isFinite_of_isZero hy
  by_cases infinite : x.isInfinite <;>
    simp [div, withOperands, isNaN_of_isFinite fy, isInfinite_of_isFinite fy, hx, hy, infinite,
      nonzero, positive]

/-- Cells of no width have everything above the lower bound in the last one. -/
theorem floorWithin_div_of_isZero (hx : x.isNaN = false) (hy : y.isZero = true)
    (positive : y.isNegative = false) (last : Nat) :
    (floorWithin last (div x y).value).value = if 0 < x.place then last else 0 := by
  cases zero : x.isZero with
  | true =>
    rw [div_zero_zero zero hy, isZero_iff.mp zero]
    rfl
  | false =>
    have nonzero : x.place ≠ 0 := isZero_iff.not.mp (Bool.eq_false_iff.mp zero)
    rw [div_of_isZero hx zero hy positive, floorWithin_of_isInfinite (isInfinite_infinity _)]
    simp only [infinity_pos_iff nonzero]

theorem div_of_isInfinite (hx : x.isInfinite = true) (hy : y.isFinite) (pos : 0 < y.place) :
    (div x y).value = infinity x.isNegative := by
  simp [div, withOperands, isNaN_of_isInfinite hx, isNaN_of_isFinite hy, hx, isInfinite_of_isFinite hy,
    isNegative_eq_false pos]

theorem place_infinity (h : x.isInfinite = true) : (infinity x.isNegative).place = x.place := by
  have size : x.magnitude = infinityPattern := of_decide_eq_true h
  rw [infinity, place_ofPattern _ (by decide), place, size]

theorem div_eq_of_pos (hx : x.isFinite) (hy : y.isFinite) (pos : 0 < y.place) :
    div x y = roundWith (x.isNegative != y.isNegative) (x.toRat / y.toRat) :=
  div_eq hx hy (place_pos_iff.mp pos).ne'

theorem isNaN_div (hx : x.isNaN = false) (hy : y.isFinite) (pos : 0 < y.place) :
    (div x y).value.isNaN = false := by
  by_cases fx : x.isFinite
  · rw [div_eq_of_pos fx hy pos]
    exact isNaN_roundWith _ _
  · rw [div_of_isInfinite (isInfinite_of_number (Bool.eq_false_iff.mpr fx) hx) hy pos]
    cases x.isNegative <;> rfl

theorem place_div_mono {d : Binary64} (hx : x.isNaN = false) (hy : y.isNaN = false) (hd : d.isFinite)
    (pos : 0 < d.place) (h : x.place ≤ y.place) : (div x d).value.place ≤ (div y d).value.place := by
  have mono : Monotone (· / d.toRat) := fun _ _ order =>
    div_le_div_of_nonneg_right order (place_pos_iff.mp pos).le
  refine place_mono (f := fun x => (div x d).value) mono (fun fx => ?_) (fun infinite => ?_) hx hy h
  · rw [div_eq_of_pos fx hd pos, place_roundWith]
  · rw [div_of_isInfinite infinite hd pos, place_infinity infinite]

theorem isNegative_roundWith {q : Rat} (pos : 0 < q) (zeroSign : Bool) :
    (roundWith zeroSign q).value.isNegative = false := by
  have size : min (roundMagnitude q) infinityPattern < signWeight :=
    (Nat.min_le_right _ _).trans_lt (by decide)
  rw [roundWith, if_neg pos.ne', if_neg pos.not_gt, value_roundSigned, isNegative_ofPattern _ size]

end Binary64

/-! ## Axes -/

namespace Axis
variable {a : Axis Binary64} {x y z : Binary64}

/-- How far a coordinate is above the lower bound, as it is computed. -/
def distance (a : Axis Binary64) (x : Binary64) : Binary64 := (Binary64.sub x a.lower).value

theorem value_cellOf_eq_floorWithin (a : Axis Binary64) (x : Binary64) : (a.cellOf x).value =
    (Binary64.floorWithin (a.cells - 1) (Binary64.div (a.distance x) a.spacing).value).value := by
  simp only [cellOf, Flagged.value_bind]
  rfl

theorem isFinite_of_covers (h : (a.covers x).value = true) : x.isFinite := by
  rw [value_covers, Bool.and_eq_true, Bool.and_eq_true] at h
  exact h.1.1

theorem covers_between (hx : (a.covers x).value = true) (hy : (a.covers y).value = true)
    (xz : x.le z = true) (zy : z.le y = true) : (a.covers z).value = true := by
  have finite := Binary64.isFinite_of_between (isFinite_of_covers hx) (isFinite_of_covers hy) xz zy
  rw [value_covers, Bool.and_eq_true, Bool.and_eq_true, Bool.not_eq_true', Bool.not_eq_true']
    at hx hy ⊢
  refine ⟨⟨finite, ?_⟩, ?_⟩
  · by_contra below
    rw [Binary64.lt_of_le_of_lt xz (Bool.eq_true_of_not_eq_false below)] at hx
    cases hx.1.2
  · by_contra above
    rw [Binary64.lt_of_lt_of_le (Bool.eq_true_of_not_eq_false above) zy] at hy
    cases hy.2

theorem Made.isNaN_distance (h : a.Made) (fx : x.isFinite) : (a.distance x).isNaN = false := by
  have lower := (Binary64.lt_iff.mp h.lower_lt).1
  rw [distance, Binary64.sub_eq_add (Binary64.isNaN_of_isFinite fx) lower]
  exact Binary64.isNaN_add fx ((Binary64.isNaN_neg _).trans lower)

theorem place_distance_mono (lower : a.lower.isFinite) (fx : x.isFinite) (fy : y.isFinite)
    (h : x.place ≤ y.place) : (a.distance x).place ≤ (a.distance y).place := by
  rw [distance, distance, Binary64.sub_eq fx lower, Binary64.sub_eq fy lower,
    Binary64.place_roundWith, Binary64.place_roundWith]
  exact Binary64.roundPlace_mono (sub_le_sub_right (Binary64.place_le_place.mp h) _)

/-- A spacing that is rounded to zero is a positive zero. -/
theorem Created.isNegative_spacing (h : a.Created) (finite : a.spacing.isFinite) :
    a.spacing.isNegative = false := by
  obtain ⟨-, pos, -⟩ := h.extent_spec
  have parts := Binary64.one_le_ofRat a.cells_pos
  have extent : a.extent.isFinite := h.spacing_spec.2.2 ▸ finite
  have quotient : 0 < a.extent.toRat / (Binary64.ofRat a.cells).toRat :=
    div_pos (Binary64.place_pos_iff.mp pos) (by linarith)
  have spacing : a.spacing = (Binary64.div a.extent (Binary64.ofRat a.cells)).value := h.spacing_eq
  rw [spacing, Binary64.div_eq extent (Binary64.isFinite_ofRat_natCast h.small) (by linarith)]
  exact Binary64.isNegative_roundWith quotient _

theorem Created.cellOf_mono (h : a.Created) (fx : x.isFinite) (fy : y.isFinite)
    (order : x.place ≤ y.place) : (a.cellOf x).value ≤ (a.cellOf y).value := by
  obtain ⟨number, nonneg, finite⟩ := h.spacing_spec
  have hx := h.isNaN_distance fx
  have hy := h.isNaN_distance fy
  rw [value_cellOf_eq_floorWithin, value_cellOf_eq_floorWithin]
  by_cases fs : a.spacing.isFinite
  · have lower := (h.extent_spec.2.2 (finite ▸ fs)).2
    have further := place_distance_mono lower fx fy order
    rcases nonneg.lt_or_eq with pos | zero
    · exact Binary64.floorWithin_mono (Binary64.isNaN_div hx fs pos) (Binary64.isNaN_div hy fs pos)
        (Binary64.place_div_mono hx hy fs pos further) _
    · have sign := h.isNegative_spacing fs
      have isZero := Binary64.isZero_iff.mpr zero.symm
      rw [Binary64.floorWithin_div_of_isZero hx isZero sign,
        Binary64.floorWithin_div_of_isZero hy isZero sign]
      by_cases above : 0 < (a.distance x).place
      · rw [if_pos above, if_pos (above.trans_le further)]
      · rw [if_neg above]
        exact Nat.zero_le _
  · have infinite := Binary64.isInfinite_of_number (Bool.eq_false_iff.mpr fs) number
    rw [Binary64.floorWithin_div_of_isInfinite hx infinite]
    exact Nat.zero_le _

theorem Created.locate_between (h : a.Created) {i j : Nat} (hx : (a.locate x).value = some i)
    (hy : (a.locate y).value = some j) (xz : x.le z = true) (zy : z.le y = true) :
    ∃ k, (a.locate z).value = some k ∧ i ≤ k ∧ k ≤ j := by
  obtain ⟨coverx, rfl⟩ := locate_eq_some_iff.mp hx
  obtain ⟨covery, rfl⟩ := locate_eq_some_iff.mp hy
  have cover := covers_between coverx covery xz zy
  have fz := isFinite_of_covers cover
  exact ⟨_, locate_eq_some_iff.mpr ⟨cover, rfl⟩,
    h.cellOf_mono (isFinite_of_covers coverx) fz (Binary64.le_iff.mp xz).2.2,
    h.cellOf_mono fz (isFinite_of_covers covery) (Binary64.le_iff.mp zy).2.2⟩

end Axis

/-! ## Grids -/

namespace Grid

theorem exists_coordinates {K : Type} [Scalar K] {g : Grid K} {p : List K} {e : Nat}
    (h : (g.locate p).value = some e) : ∃ x : Fin g.dim → K, p = List.ofFn x := by
  rw [locate] at h
  split at h
  · exact List.exists_eq_ofFn ‹_›
  · cases h

theorem forall₂_ofFn {α : Type} {R : α → α → Prop} {n : Nat} {x y : Fin n → α} :
    List.Forall₂ R (List.ofFn x) (List.ofFn y) ↔ ∀ d, R (x d) (y d) := by
  rw [List.forall₂_iff_get]
  constructor
  · rintro ⟨-, entries⟩ d
    simpa using entries d (by simp) (by simp)
  · intro entries
    exact ⟨by simp, fun d _ _ => by simp [entries]⟩

theorem Made.locate_between {g : Grid Binary64} (made : g.Made) {x y z : Fin g.dim → Binary64}
    {e f : Nat} (hx : (g.locate (List.ofFn x)).value = some e)
    (hy : (g.locate (List.ofFn y)).value = some f) (xz : ∀ d, (x d).le (z d) = true)
    (zy : ∀ d, (z d).le (y d) = true) :
    ∃ k, (g.locate (List.ofFn z)).value = some k ∧ e ≤ k ∧ k ≤ f := by
  obtain ⟨i, rfl, hi⟩ := (g.value_locate x e).mp hx
  obtain ⟨j, rfl, hj⟩ := (g.value_locate y f).mp hy
  choose k hk above below using fun d =>
    (made.created d).locate_between (hi d) (hj d) (xz d) (zy d)
  exact ⟨_, (g.value_locate z _).mpr ⟨k, rfl, hk⟩, Numbering.index_mono (forall₂_ofFn.mpr above),
    Numbering.index_mono (forall₂_ofFn.mpr below)⟩

/-- A point whose coordinates are all at least those of another one is found in the same element or
in a later one, and every point between two that are found is found, in an element between theirs. -/
theorem locate_monotone (g : Grid Binary64) (made : g.Made) {x y : List Binary64} {e f : Nat}
    (order : List.Forall₂ (fun a b => a.le b = true) x y) (hx : (g.locate x).value = some e)
    (hy : (g.locate y).value = some f) :
    e ≤ f ∧ ∀ z, List.Forall₂ (fun a b => a.le b = true) x z →
      List.Forall₂ (fun a b => a.le b = true) z y →
        ∃ k, (g.locate z).value = some k ∧ e ≤ k ∧ k ≤ f := by
  obtain ⟨x, rfl⟩ := exists_coordinates hx
  obtain ⟨y, rfl⟩ := exists_coordinates hy
  have xy := forall₂_ofFn.mp order
  have yy (d : Fin g.dim) : (y d).le (y d) = true := by
    obtain ⟨-, number, -⟩ := Binary64.le_iff.mp (xy d)
    exact Binary64.le_iff.mpr ⟨number, number, le_rfl⟩
  constructor
  · obtain ⟨k, hk, above, -⟩ := made.locate_between hx hy xy yy
    rw [hy] at hk
    cases hk
    exact above
  · intro z xz zy
    obtain ⟨z, rfl⟩ := List.exists_eq_ofFn (xz.length_eq.symm.trans List.length_ofFn)
    have above := forall₂_ofFn.mp xz
    have below := forall₂_ofFn.mp zy
    exact made.locate_between hx hy above below

/-- On an axis with a spacing of zero, from zero to the least positive double, beside one with an
infinite spacing, from the least finite double to the greatest one. -/
theorem locate_monotone_extremes :
    let least : Binary64 := ⟨1⟩
    let most : Binary64 := ⟨0x7fefffffffffffff⟩
    let x : List Binary64 := [.zero false, most.neg]
    let y : List Binary64 := [least, most]
    let z : List Binary64 := [.zero true, .ofRat 1]
    ∃ g : Grid Binary64, g.Made ∧ g.axes.map (·.spacing) = [.zero false, .infinity false] ∧
      List.Forall₂ (fun a b => a.le b = true) x y ∧ List.Forall₂ (fun a b => a.le b = true) x z ∧
      List.Forall₂ (fun a b => a.le b = true) z y ∧ (g.locate x).value = some 0 ∧
      (g.locate y).value = some 1 ∧ ∃ k, (g.locate z).value = some k ∧ 0 ≤ k ∧ k ≤ 1 := by
  intro least most x y z
  let axis : Axis Binary64 := (Axis.make 2 (.zero false) least Nat.two_pos).value
  let axis' : Axis Binary64 := (Axis.make 2 most.neg most Nat.two_pos).value
  let g : Grid Binary64 := ⟨0, [axis, axis'], by decide, by decide⟩
  have created : (Grid.create 0 [2, 2] [.zero false, most.neg] [least, most] {}).1 = .ok g := by
    decide +kernel
  have made : g.Made := .create (Prod.ext created rfl)
  have order : List.Forall₂ (fun a b : Binary64 => a.le b = true) x y := by decide +kernel
  have order₁ : List.Forall₂ (fun a b : Binary64 => a.le b = true) x z := by decide +kernel
  have order₂ : List.Forall₂ (fun a b : Binary64 => a.le b = true) z y := by decide +kernel
  have hx : (g.locate x).value = some 0 := by decide +kernel
  have hy : (g.locate y).value = some 1 := by decide +kernel
  exact ⟨g, made, by decide +kernel, order, order₁, order₂, hx, hy,
    (locate_monotone g made order hx hy).2 z order₁ order₂⟩

end Grid
end FieldGraph
