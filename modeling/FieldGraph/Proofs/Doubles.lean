import FieldGraph.Binary64.Arithmetic
import FieldGraph.Proofs.Rounding

/-!
# Values of doubles

The place of a double orders doubles like their values. A result is rounded to a
double that is on the same side of every finite double as the exact result; so an
operation whose exact result is the value of a double delivers that value.
-/

namespace FieldGraph.Binary64

/-! ## Places -/

theorem magnitude_lt (x : Binary64) : x.magnitude < signWeight := Nat.mod_lt _ (by decide)

theorem toNat_ofPattern (negative : Bool) {m : Nat} (hm : m < signWeight) :
    (ofPattern negative m).bits.toNat = if negative then signWeight + m else m := by
  have weight : signWeight + signWeight = 2 ^ 64 := by decide
  cases negative
  · exact Nat.mod_eq_of_lt (show m < 2 ^ 64 by omega)
  · exact Nat.mod_eq_of_lt (show signWeight + m < 2 ^ 64 by omega)

theorem magnitude_ofPattern (negative : Bool) {m : Nat} (hm : m < signWeight) :
    (ofPattern negative m).magnitude = m := by
  rw [magnitude, toNat_ofPattern negative hm]
  cases negative
  · exact Nat.mod_eq_of_lt hm
  · simp only [if_true, Nat.add_mod_left]
    exact Nat.mod_eq_of_lt hm

theorem isNegative_ofPattern (negative : Bool) {m : Nat} (hm : m < signWeight) :
    (ofPattern negative m).isNegative = negative := by
  rw [isNegative, toNat_ofPattern negative hm]
  cases negative
  · simp [hm]
  · simp

theorem place_ofPattern (negative : Bool) {m : Nat} (hm : m < signWeight) :
    (ofPattern negative m).place = if negative then -(m : Int) else m := by
  rw [place, magnitude_ofPattern negative hm, isNegative_ofPattern negative hm]

/-- The value at a place of the order, negative places below zero. -/
def placeValue (p : Int) : Rat := if p < 0 then -patternValue p.natAbs else patternValue p.natAbs

theorem toRat_eq (x : Binary64) : x.toRat = placeValue x.place := by
  unfold toRat place placeValue
  cases x.isNegative
  · simp
  · by_cases zero : x.magnitude = 0
    · simp [zero, patternValue_zero]
    · simp [Nat.pos_of_ne_zero zero]

theorem placeValue_lt {p q : Int} (h : p < q) : placeValue p < placeValue q := by
  unfold placeValue
  by_cases hp : p < 0
  · by_cases hq : q < 0
    · rw [if_pos hp, if_pos hq, neg_lt_neg_iff]
      exact patternValue_strictMono (by omega)
    · rw [if_pos hp, if_neg hq]
      have below : 0 < patternValue p.natAbs := by
        rw [← patternValue_zero]
        exact patternValue_strictMono (by omega)
      have := patternValue_nonneg q.natAbs
      linarith
  · rw [if_neg hp, if_neg (by omega)]
    exact patternValue_strictMono (by omega)

theorem placeValue_lt_iff {p q : Int} : placeValue p < placeValue q ↔ p < q := by
  constructor
  · intro h
    by_contra not
    rcases (not_lt.mp not).eq_or_lt with rfl | less
    · exact lt_irrefl _ h
    · exact lt_asymm h (placeValue_lt less)
  · exact placeValue_lt

theorem placeValue_le_iff {p q : Int} : placeValue p ≤ placeValue q ↔ p ≤ q := by
  rw [← not_lt, placeValue_lt_iff, not_lt]

theorem place_le_place {x y : Binary64} : x.place ≤ y.place ↔ x.toRat ≤ y.toRat := by
  rw [toRat_eq, toRat_eq, placeValue_le_iff]

theorem place_lt_place {x y : Binary64} : y.place < x.place ↔ y.toRat < x.toRat := by
  rw [toRat_eq, toRat_eq, placeValue_lt_iff]

theorem place_pos_iff {x : Binary64} : 0 < x.place ↔ 0 < x.toRat := by
  rw [toRat_eq, ← placeValue_lt_iff]
  simp [placeValue, patternValue_zero]

theorem toRat_nonneg_iff {x : Binary64} : 0 ≤ x.toRat ↔ 0 ≤ x.place := by
  rw [toRat_eq, ← placeValue_le_iff]
  simp [placeValue, patternValue_zero]

theorem placeValue_neg (p : Int) : placeValue (-p) = -placeValue p := by
  unfold placeValue
  rcases lt_trichotomy p 0 with hp | rfl | hp
  · rw [if_neg (by omega), if_pos hp, Int.natAbs_neg, neg_neg]
  · simp [patternValue_zero]
  · rw [if_pos (by omega), if_neg (by omega), Int.natAbs_neg]

theorem natAbs_place (x : Binary64) : x.place.natAbs = x.magnitude := by
  unfold place
  cases x.isNegative
  · exact Int.natAbs_natCast _
  · exact (Int.natAbs_neg _).trans (Int.natAbs_natCast _)

theorem isFinite_iff {x : Binary64} : x.isFinite ↔ x.place.natAbs < infinityPattern := by
  rw [natAbs_place]
  exact decide_eq_true_iff

theorem lt_eq_false {x y : Binary64} (h : y.place ≤ x.place) : x.lt y = false := by
  rw [lt, decide_eq_false (not_lt.mpr h), Bool.and_false]

theorem isNaN_eq_false_iff {x : Binary64} : x.isNaN = false ↔ x.place.natAbs ≤ infinityPattern := by
  rw [natAbs_place, isNaN, decide_eq_false_iff_not, not_lt]

theorem lt_iff {x y : Binary64} :
    x.lt y = true ↔ x.isNaN = false ∧ y.isNaN = false ∧ x.place < y.place := by
  rw [lt, Bool.and_eq_true, Bool.and_eq_true, Bool.not_eq_true', Bool.not_eq_true',
    decide_eq_true_iff, and_assoc]

/-! ## Rounded results -/

/-- The place of a rounded value: beyond the finite places that of infinity. -/
def roundPlace (q : Rat) : Int :=
  if q = 0 then 0
  else if q < 0 then -(min (roundMagnitude (-q)) infinityPattern : Nat)
  else (min (roundMagnitude q) infinityPattern : Nat)

theorem value_roundSigned (negative inexact : Bool) (q : Rat) :
    (roundSigned negative inexact q).value =
      ofPattern negative (min (roundMagnitude q) infinityPattern) := by
  simp only [roundSigned]
  by_cases overflows : infinityPattern ≤ roundMagnitude q
  · rw [if_pos overflows, Nat.min_eq_right overflows, infinity]
  · rw [if_neg overflows, Nat.min_eq_left (not_le.mp overflows).le]

theorem place_roundWith (zeroSign : Bool) (q : Rat) :
    (roundWith zeroSign q).value.place = roundPlace q := by
  have bound (m : Nat) : min m infinityPattern < signWeight :=
    lt_of_le_of_lt (Nat.min_le_right _ _) (by decide)
  unfold roundWith roundPlace
  by_cases zero : q = 0
  · rw [if_pos zero, if_pos zero, Binary64.zero, place_ofPattern _ (by decide)]
    simp
  rw [if_neg zero, if_neg zero]
  by_cases negative : q < 0
  · rw [if_pos negative, if_pos negative, value_roundSigned, place_ofPattern _ (bound _),
      if_pos rfl]
  · rw [if_neg negative, if_neg negative, value_roundSigned, place_ofPattern _ (bound _)]
    rfl

theorem isNaN_roundWith (zeroSign : Bool) (q : Rat) : (roundWith zeroSign q).value.isNaN = false := by
  rw [isNaN_eq_false_iff, place_roundWith, roundPlace]
  split
  · exact Nat.zero_le _
  · split <;> omega

theorem roundPlace_neg (q : Rat) : roundPlace (-q) = -roundPlace q := by
  unfold roundPlace
  rcases lt_trichotomy q 0 with hq | rfl | hq
  · rw [if_neg (by linarith), if_neg (by linarith), if_neg hq.ne, if_pos hq, neg_neg]
  · simp
  · rw [if_neg (by linarith), if_pos (by linarith), if_neg hq.ne', if_neg hq.le.not_gt, neg_neg]

theorem le_roundPlace {p : Int} (finite : p.natAbs < infinityPattern) {q : Rat}
    (h : placeValue p ≤ q) : p ≤ roundPlace q := by
  have zero : placeValue 0 = 0 := by simp [placeValue, patternValue_zero]
  rcases lt_trichotomy q 0 with hq | rfl | hq
  · have negative : p < 0 := placeValue_lt_iff.mp (by linarith)
    rw [placeValue, if_pos negative] at h
    have := roundMagnitude_le (neg_pos.mpr hq) (neg_le.mp h)
    rw [roundPlace, if_neg hq.ne, if_pos hq]
    omega
  · rw [roundPlace, if_pos rfl]
    exact placeValue_le_iff.mp (h.trans_eq zero.symm)
  · rw [roundPlace, if_neg hq.ne', if_neg hq.le.not_gt]
    by_cases negative : p < 0
    · omega
    · rw [placeValue, if_neg negative] at h
      have := le_roundMagnitude hq h
      omega

theorem roundPlace_le {p : Int} (finite : p.natAbs < infinityPattern) {q : Rat}
    (h : q ≤ placeValue p) : roundPlace q ≤ p := by
  have below : placeValue (-p) ≤ -q := by
    rw [placeValue_neg]
    exact neg_le_neg h
  have mirrored := le_roundPlace (by rwa [Int.natAbs_neg]) below
  rw [roundPlace_neg] at mirrored
  exact neg_le_neg_iff.mp mirrored

theorem roundPlace_mono_of_pos {q r : Rat} (hq : 0 < q) (h : q ≤ r) :
    roundPlace q ≤ roundPlace r := by
  have hr := hq.trans_le h
  have := roundMagnitude_mono hq h
  rw [roundPlace, roundPlace, if_neg hq.ne', if_neg hq.not_gt, if_neg hr.ne', if_neg hr.not_gt]
  omega

theorem roundPlace_mono {q r : Rat} (h : q ≤ r) : roundPlace q ≤ roundPlace r := by
  have zero : placeValue 0 = 0 := by simp [placeValue, patternValue_zero]
  by_cases hq : 0 < q
  · exact roundPlace_mono_of_pos hq h
  by_cases hr : r < 0
  · have mirrored := roundPlace_mono_of_pos (neg_pos.mpr hr) (neg_le_neg h)
    rw [roundPlace_neg, roundPlace_neg] at mirrored
    exact neg_le_neg_iff.mp mirrored
  · have below : roundPlace q ≤ 0 := roundPlace_le (by decide) (zero ▸ not_lt.mp hq)
    exact below.trans (le_roundPlace (by decide) (zero ▸ not_lt.mp hr))

theorem roundWith_ge {y : Binary64} (hy : y.isFinite) {q : Rat} (h : y.toRat ≤ q) (zeroSign : Bool) :
    y.place ≤ (roundWith zeroSign q).value.place := by
  rw [place_roundWith]
  exact le_roundPlace (isFinite_iff.mp hy) (toRat_eq y ▸ h)

theorem roundWith_le {y : Binary64} (hy : y.isFinite) {q : Rat} (h : q ≤ y.toRat) (zeroSign : Bool) :
    (roundWith zeroSign q).value.place ≤ y.place := by
  rw [place_roundWith]
  exact roundPlace_le (isFinite_iff.mp hy) (toRat_eq y ▸ h)

/-- What lies between two finite doubles stays between them. -/
theorem roundWith_between {y z : Binary64} (hy : y.isFinite) (hz : z.isFinite) {q : Rat}
    (lower : y.toRat ≤ q) (upper : q ≤ z.toRat) (zeroSign : Bool) :
    (roundWith zeroSign q).value.isFinite ∧ y.toRat ≤ (roundWith zeroSign q).value.toRat ∧
      (roundWith zeroSign q).value.toRat ≤ z.toRat := by
  have below := roundWith_ge hy lower zeroSign
  have above := roundWith_le hz upper zeroSign
  refine ⟨?_, place_le_place.mp below, place_le_place.mp above⟩
  rw [isFinite_iff] at hy hz ⊢
  omega

/-- The double is finite and stands for the rational number. -/
def HasValue (x : Binary64) (q : Rat) : Prop := x.isFinite ∧ x.toRat = q

instance (x : Binary64) (q : Rat) : Decidable (x.HasValue q) :=
  inferInstanceAs (Decidable (_ ∧ _))

def IsValue (q : Rat) : Prop := ∃ y : Binary64, y.HasValue q

/-- What has a double is not rounded. -/
theorem roundWith_exact {q : Rat} (hq : IsValue q) (zeroSign : Bool) :
    (roundWith zeroSign q).value.HasValue q := by
  obtain ⟨y, hy, rfl⟩ := hq
  have same : (roundWith zeroSign y.toRat).value.place = y.place :=
    le_antisymm (roundWith_le hy le_rfl _) (roundWith_ge hy le_rfl _)
  constructor
  · rw [isFinite_iff, same]
    exact isFinite_iff.mp hy
  · rw [toRat_eq, same, ← toRat_eq]

theorem hasValue_ofRat {q : Rat} (hq : IsValue q) : (ofRat q).HasValue q := roundWith_exact hq false

/-! ## Arithmetic on numbers -/

section
variable {x y : Binary64}

theorem isNaN_of_isFinite (h : x.isFinite) : x.isNaN = false := by
  have := of_decide_eq_true h
  exact decide_eq_false (by omega)

theorem isInfinite_of_isFinite (h : x.isFinite) : x.isInfinite = false := by
  have := of_decide_eq_true h
  exact decide_eq_false (by omega)

theorem isInfinite_of_isNaN (h : x.isNaN) : x.isInfinite = false := by
  have := of_decide_eq_true h
  exact decide_eq_false (by omega)

theorem isInfinite_of_number (finite : x.isFinite = false) (number : x.isNaN = false) :
    x.isInfinite = true := by
  have := of_decide_eq_false finite
  have := of_decide_eq_false number
  exact decide_eq_true (by omega)

theorem withOperands_of_isFinite (hx : x.isFinite) (hy : y.isFinite) (onNumbers : Flagged Binary64) :
    withOperands x y onNumbers = onNumbers := by
  simp [withOperands, isNaN_of_isFinite hx, isNaN_of_isFinite hy]

theorem place_neg (x : Binary64) : x.neg.place = -x.place := by
  rw [neg, place_ofPattern _ x.magnitude_lt, place]
  cases x.isNegative <;> simp

theorem toRat_neg (x : Binary64) : x.neg.toRat = -x.toRat := by
  rw [toRat_eq, place_neg, placeValue_neg, ← toRat_eq]

theorem isFinite_neg (h : x.isFinite) : x.neg.isFinite := by
  rw [isFinite_iff, place_neg, Int.natAbs_neg]
  exact isFinite_iff.mp h

theorem add_eq (hx : x.isFinite) (hy : y.isFinite) :
    add x y = roundWith (x.isNegative && y.isNegative) (x.toRat + y.toRat) := by
  simp [add, withOperands_of_isFinite hx hy, isInfinite_of_isFinite hx, isInfinite_of_isFinite hy]

theorem sub_eq (hx : x.isFinite) (hy : y.isFinite) :
    sub x y = roundWith (x.isNegative && y.neg.isNegative) (x.toRat - y.toRat) := by
  rw [sub, isNaN_of_isFinite hx, isNaN_of_isFinite hy, Bool.or_false, if_neg Bool.false_ne_true,
    add_eq hx (isFinite_neg hy), toRat_neg, sub_eq_add_neg]

theorem mul_eq (hx : x.isFinite) (hy : y.isFinite) :
    mul x y = roundWith (x.isNegative != y.isNegative) (x.toRat * y.toRat) := by
  simp [mul, withOperands_of_isFinite hx hy, isInfinite_of_isFinite hx, isInfinite_of_isFinite hy]

theorem div_eq (hx : x.isFinite) (hy : y.isFinite) (h : y.toRat ≠ 0) :
    div x y = roundWith (x.isNegative != y.isNegative) (x.toRat / y.toRat) := by
  have nonzero : y.isZero = false := by
    apply decide_eq_false
    intro zero
    apply h
    rw [toRat, zero, patternValue_zero]
    simp
  simp [div, withOperands_of_isFinite hx hy, isInfinite_of_isFinite hx, isInfinite_of_isFinite hy,
    nonzero]

theorem floorWithin_eq (hx : x.isFinite) (last : Nat) :
    (floorWithin last x).value = min x.toRat.floor.toNat last := by
  simp [floorWithin, isNaN_of_isFinite hx, isInfinite_of_isFinite hx]

namespace HasValue
variable {p q : Rat}

theorem add (hx : x.HasValue p) (hy : y.HasValue q) (h : IsValue (p + q)) :
    (add x y).value.HasValue (p + q) := by
  rw [add_eq hx.1 hy.1, hx.2, hy.2]
  exact roundWith_exact h _

theorem sub (hx : x.HasValue p) (hy : y.HasValue q) (h : IsValue (p - q)) :
    (sub x y).value.HasValue (p - q) := by
  rw [sub_eq hx.1 hy.1, hx.2, hy.2]
  exact roundWith_exact h _

theorem mul (hx : x.HasValue p) (hy : y.HasValue q) (h : IsValue (p * q)) :
    (mul x y).value.HasValue (p * q) := by
  rw [mul_eq hx.1 hy.1, hx.2, hy.2]
  exact roundWith_exact h _

theorem div (hx : x.HasValue p) (hy : y.HasValue q) (hq : q ≠ 0) (h : IsValue (p / q)) :
    (div x y).value.HasValue (p / q) := by
  rw [div_eq hx.1 hy.1 (hy.2 ▸ hq), hx.2, hy.2]
  exact roundWith_exact h _

end HasValue
end

/-! ## Dyadic numbers -/

theorem isValue_patternValue {m : Nat} (h : m < infinityPattern) : IsValue (patternValue m) := by
  have inside : m < signWeight := h.trans (by decide)
  refine ⟨ofPattern false m, ?_, ?_⟩
  · rw [isFinite_iff, natAbs_place, magnitude_ofPattern _ inside]
    exact h
  · rw [toRat_eq, place_ofPattern _ inside]
    simp [placeValue]

theorem IsValue.neg {q : Rat} (h : IsValue q) : IsValue (-q) := by
  obtain ⟨y, hy, rfl⟩ := h
  exact ⟨y.neg, isFinite_neg hy, toRat_neg y⟩

/-- A small number of steps is worth twice as many of half the size. -/
theorem isValue_steps {n : Nat} (hn : n ≤ 2 * fractionRange) {t : Nat} (ht : t ≤ 2044) :
    IsValue (n * (2 : Rat) ^ ((t : Int) - 1074)) := by
  induction t generalizing n with
  | zero =>
    rw [← patternValue_steps hn (.inl rfl)]
    apply isValue_patternValue
    have : 2 * fractionRange < infinityPattern := by decide
    omega
  | succ t ih =>
    by_cases normal : fractionRange ≤ n
    · rw [← patternValue_steps hn (.inr normal)]
      apply isValue_patternValue
      have patterns : infinityPattern = 2047 * fractionRange := by decide
      have positive : 0 < fractionRange := by decide
      have := Nat.mul_le_mul_right fractionRange ht
      omega
    · have halved : (n : Rat) * 2 ^ (((t + 1 : Nat) : Int) - 1074) =
          (2 * n : Nat) * 2 ^ ((t : Int) - 1074) := by
        rw [show ((t + 1 : Nat) : Int) - 1074 = ((t : Int) - 1074) + 1 by push_cast; ring,
          zpow_add_one₀ (by norm_num)]
        push_cast
        ring
      rw [halved]
      exact ih (by omega) (by omega)

theorem isValue_dyadic {z k : Int} (hz : z.natAbs ≤ 2 ^ 53) (hk : -1074 ≤ k ∧ k ≤ 970) :
    IsValue (z * (2 : Rat) ^ k) := by
  obtain ⟨t, rfl⟩ : ∃ t : Nat, k = (t : Int) - 1074 := ⟨(k + 1074).toNat, by omega⟩
  have magnitude : IsValue (z.natAbs * (2 : Rat) ^ ((t : Int) - 1074)) :=
    isValue_steps (hz.trans_eq (by decide)) (by omega)
  rcases Int.natAbs_eq z with positive | negative
  · rw [positive, Int.cast_natCast]
    exact magnitude
  · rw [negative, Int.cast_neg, Int.cast_natCast, neg_mul]
    exact magnitude.neg

theorem isValue_natCast {n : Nat} (hn : n ≤ 2 ^ 53) : IsValue n := by
  have fits := isValue_dyadic (z := (n : Int)) (k := 0) hn (by decide)
  simpa using fits

end FieldGraph.Binary64
