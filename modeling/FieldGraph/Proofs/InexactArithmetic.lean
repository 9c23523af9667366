import FieldGraph.Capacity
import FieldGraph.Proofs.Doubles

/-!
# Inexact results

A result that no double has is off by less than the distance of the doubles around
it, and larger results are not rounded to smaller doubles. Infinite numbers come
into sums, differences and quotients where the operands or the result leave the
range of the finite ones; none of these operations makes NaN of the numbers that
they are used on here.
-/

namespace FieldGraph.Binary64

/-! ## Errors -/

/-- The double is less than a unit off a number, and has 53 digits before the unit at most. -/
structure Near (x : Binary64) (q : Rat) (k : Int) : Prop where
  finite : x.isFinite
  close : |x.toRat - q| < 2 ^ k
  bound : |x.toRat| ≤ 2 ^ 53 * (2 : Rat) ^ k

theorem roundWith_near {q : Rat} {k : Int} (hk : -1074 ≤ k ∧ k ≤ 970)
    (hq : |q| ≤ 2 ^ 53 * (2 : Rat) ^ k) (zeroSign : Bool) : (roundWith zeroSign q).value.Near q k := by
  have unit : (0 : Rat) < 2 ^ k := by positivity
  obtain ⟨least, most⟩ := abs_le.mp hq
  have floor_ge : -(2 ^ 53 : Int) ≤ ⌊q / 2 ^ k⌋ := by
    rw [Int.le_floor, le_div_iff₀ unit]
    push_cast
    linarith
  have ceil_le : ⌈q / 2 ^ k⌉ ≤ 2 ^ 53 := by
    rw [Int.ceil_le, div_le_iff₀ unit]
    push_cast
    exact most
  have order := Int.floor_le_ceil (q / 2 ^ k)
  obtain ⟨y, hy, below⟩ := isValue_dyadic (z := ⌊q / 2 ^ k⌋) (by omega) hk
  obtain ⟨z, hz, above⟩ := isValue_dyadic (z := ⌈q / 2 ^ k⌉) (by omega) hk
  have floor_le : ⌊q / 2 ^ k⌋ * (2 : Rat) ^ k ≤ q := (le_div_iff₀ unit).mp (Int.floor_le _)
  have le_ceil : q ≤ ⌈q / 2 ^ k⌉ * (2 : Rat) ^ k := (div_le_iff₀ unit).mp (Int.le_ceil _)
  have floor_gt : q < (⌊q / 2 ^ k⌋ + 1) * (2 : Rat) ^ k :=
    (div_lt_iff₀ unit).mp (Int.lt_floor_add_one _)
  have ceil_lt : (⌈q / 2 ^ k⌉ - 1) * (2 : Rat) ^ k < q :=
    (lt_div_iff₀ unit).mp (sub_lt_iff_lt_add.mpr (Int.ceil_lt_add_one _))
  obtain ⟨finite, lower, upper⟩ :=
    roundWith_between hy hz (below.trans_le floor_le) (le_ceil.trans_eq above.symm) zeroSign
  rw [below] at lower
  rw [above] at upper
  have floor_ge' := mul_le_mul_of_nonneg_right (Int.cast_le (R := Rat).mpr floor_ge) unit.le
  have ceil_le' := mul_le_mul_of_nonneg_right (Int.cast_le (R := Rat).mpr ceil_le) unit.le
  push_cast at floor_ge' ceil_le'
  refine ⟨finite, abs_lt.mpr ⟨?_, ?_⟩, abs_le.mpr ⟨?_, ?_⟩⟩ <;> linarith

section
variable {x y z : Binary64}

namespace HasValue
variable {p q : Rat} {k : Int}

theorem add_near (hx : x.HasValue p) (hy : y.HasValue q) (hk : -1074 ≤ k ∧ k ≤ 970)
    (h : |p + q| ≤ 2 ^ 53 * (2 : Rat) ^ k) : (Binary64.add x y).value.Near (p + q) k := by
  rw [add_eq hx.1 hy.1, hx.2, hy.2]
  exact roundWith_near hk h _

theorem sub_near (hx : x.HasValue p) (hy : y.HasValue q) (hk : -1074 ≤ k ∧ k ≤ 970)
    (h : |p - q| ≤ 2 ^ 53 * (2 : Rat) ^ k) : (Binary64.sub x y).value.Near (p - q) k := by
  rw [sub_eq hx.1 hy.1, hx.2, hy.2]
  exact roundWith_near hk h _

theorem mul_near (hx : x.HasValue p) (hy : y.HasValue q) (hk : -1074 ≤ k ∧ k ≤ 970)
    (h : |p * q| ≤ 2 ^ 53 * (2 : Rat) ^ k) : (Binary64.mul x y).value.Near (p * q) k := by
  rw [mul_eq hx.1 hy.1, hx.2, hy.2]
  exact roundWith_near hk h _

theorem div_near (hx : x.HasValue p) (hy : y.HasValue q) (hq : q ≠ 0) (hk : -1074 ≤ k ∧ k ≤ 970)
    (h : |p / q| ≤ 2 ^ 53 * (2 : Rat) ^ k) : (Binary64.div x y).value.Near (p / q) k := by
  rw [div_eq hx.1 hy.1 (hy.2 ▸ hq), hx.2, hy.2]
  exact roundWith_near hk h _

end HasValue

/-! ## Numbers beyond the finite ones -/

theorem isNegative_eq_false (h : 0 < x.place) : x.isNegative = false := by
  unfold place at h
  cases negative : x.isNegative with
  | false => rfl
  | true =>
    rw [if_pos negative] at h
    omega

theorem isInfinite_iff : x.isInfinite = true ↔ x.place.natAbs = infinityPattern := by
  rw [natAbs_place, isInfinite, decide_eq_true_iff]

theorem isNaN_of_isInfinite (h : x.isInfinite = true) : x.isNaN = false := by
  rw [isNaN_eq_false_iff]
  exact (isInfinite_iff.mp h).le

theorem isNaN_neg (x : Binary64) : x.neg.isNaN = x.isNaN := by
  rw [isNaN, isNaN, ← natAbs_place, place_neg, Int.natAbs_neg, natAbs_place]

theorem mul_zero_infinite (number : x.isNaN = false) (infinite : x.isInfinite = true) :
    (mul (Binary64.zero false) x).value = defaultNaN := by
  have zero : (Binary64.zero false).isNaN = false ∧ (Binary64.zero false).isZero = true := by decide
  simp [mul, withOperands, number, infinite, zero, invalidOperation]

theorem add_defaultNaN (number : x.isNaN = false) :
    (add x defaultNaN).value = defaultNaN.quiet := by
  have nan : defaultNaN.isNaN = true := by decide
  simp [add, withOperands, number, nan]

theorem roundPlace_bounds (q : Rat) : (roundPlace q).natAbs ≤ infinityPattern := by
  rw [← place_roundWith false q]
  exact isNaN_eq_false_iff.mp (isNaN_roundWith false q)

/-- What rounds a monotone function of finite numbers and leaves infinite ones is monotone. -/
theorem place_mono {f : Binary64 → Binary64} {r : Rat → Rat} (mono : Monotone r)
    (finite : ∀ {x : Binary64}, x.isFinite → (f x).place = roundPlace (r x.toRat))
    (infinite : ∀ {x : Binary64}, x.isInfinite = true → (f x).place = x.place)
    (hx : x.isNaN = false) (hy : y.isNaN = false) (h : x.place ≤ y.place) :
    (f x).place ≤ (f y).place := by
  have boundx := roundPlace_bounds (r x.toRat)
  have boundy := roundPlace_bounds (r y.toRat)
  by_cases fx : x.isFinite
  · by_cases fy : y.isFinite
    · rw [finite fx, finite fy]
      exact roundPlace_mono (mono (place_le_place.mp h))
    · have above := isInfinite_of_number (Bool.eq_false_iff.mpr fy) hy
      have size := isInfinite_iff.mp above
      rw [isFinite_iff] at fx
      rw [finite (isFinite_iff.mpr fx), infinite above]
      omega
  · have below := isInfinite_of_number (Bool.eq_false_iff.mpr fx) hx
    have size := isInfinite_iff.mp below
    by_cases fy : y.isFinite
    · rw [isFinite_iff] at fy
      rw [finite (isFinite_iff.mpr fy), infinite below]
      omega
    · rw [infinite below, infinite (isInfinite_of_number (Bool.eq_false_iff.mpr fy) hy)]
      exact h

/-! ## Sums -/

theorem add_of_isInfinite (hx : x.isFinite) (hy : y.isInfinite = true) : (add x y).value = y := by
  simp [add, withOperands, isNaN_of_isFinite hx, isNaN_of_isInfinite hy, isInfinite_of_isFinite hx, hy]

theorem add_of_isInfinite_left (hx : x.isInfinite = true) (hy : y.isNaN = false)
    (agree : y.isInfinite = true → x.isNegative = y.isNegative) : (add x y).value = x := by
  by_cases infinite : y.isInfinite
  · simp [add, withOperands, isNaN_of_isInfinite hx, hy, hx, agree infinite]
  · simp [add, withOperands, isNaN_of_isInfinite hx, hy, hx, infinite]

theorem isNaN_add (hx : x.isFinite) (hy : y.isNaN = false) : (add x y).value.isNaN = false := by
  by_cases fy : y.isFinite
  · rw [add_eq hx fy]
    exact isNaN_roundWith _ _
  · rw [add_of_isInfinite hx (isInfinite_of_number (Bool.eq_false_iff.mpr fy) hy)]
    exact hy

theorem place_add_mono (hx : x.isFinite) (hy : y.isNaN = false) (hz : z.isNaN = false)
    (h : y.place ≤ z.place) : (add x y).value.place ≤ (add x z).value.place := by
  have mono : Monotone (x.toRat + ·) := fun _ _ order => add_le_add_right order _
  refine place_mono (f := fun y => (add x y).value) mono (fun fy => ?_) (fun infinite => ?_) hy hz h
  · rw [add_eq hx fy, place_roundWith]
  · rw [add_of_isInfinite hx infinite]

/-! ## Differences -/

theorem sub_eq_add (hx : x.isNaN = false) (hy : y.isNaN = false) : sub x y = add x y.neg := by
  simp [sub, hx, hy]

/-- Every finite double is a whole multiple of the least positive one. -/
theorem exists_whole (x : Binary64) : ∃ z : Int, x.toRat = z * placeValue 1 := by
  have least : placeValue 1 = (2 : Rat) ^ (-1074 : Int) := by decide +kernel
  obtain ⟨t, n, hm, hn, ht⟩ := exists_steps x.magnitude
  have magnitude : patternValue x.magnitude = (n * 2 ^ t : Nat) * placeValue 1 := by
    rw [hm, patternValue_steps hn.le ht, sub_eq_add_neg, zpow_add₀ (by norm_num), zpow_natCast, least,
      Nat.cast_mul, Nat.cast_pow, Nat.cast_ofNat, mul_assoc]
  rw [toRat, magnitude]
  by_cases negative : x.isNegative
  · exact ⟨-(n * 2 ^ t : Nat), by rw [if_pos negative, Int.cast_neg, Int.cast_natCast, neg_mul]⟩
  · exact ⟨(n * 2 ^ t : Nat), by rw [if_neg negative, Int.cast_natCast]⟩

theorem least_le_sub (h : y.toRat < x.toRat) : placeValue 1 ≤ x.toRat - y.toRat := by
  have least : 0 < placeValue 1 := by decide +kernel
  obtain ⟨z, hz⟩ := x.exists_whole
  obtain ⟨w, hw⟩ := y.exists_whole
  rw [hz, hw] at h ⊢
  have apart : (w : Rat) + 1 ≤ z := by exact_mod_cast lt_of_mul_lt_mul_right h least.le
  rw [← sub_mul]
  exact le_mul_of_one_le_left least.le (by linarith)

/-- The difference of numbers in order is positive; it is infinite where one of them is. -/
theorem sub_of_lt (h : y.lt x = true) :
    (sub x y).value.isNaN = false ∧ 0 < (sub x y).value.place ∧
      ((sub x y).value.isFinite → x.isFinite ∧ y.isFinite) := by
  obtain ⟨hy, hx, order⟩ := lt_iff.mp h
  have least := isNaN_eq_false_iff.mp hy
  have most := isNaN_eq_false_iff.mp hx
  have hy' : y.neg.isNaN = false := (isNaN_neg y).trans hy
  by_cases fx : x.isFinite
  · by_cases fy : y.isFinite
    · rw [sub_eq fx fy]
      have apart := le_roundPlace (by decide) (least_le_sub (place_lt_place.mp order))
      exact ⟨isNaN_roundWith _ _, by rw [place_roundWith]; omega, fun _ => ⟨fx, fy⟩⟩
    · have infinite : y.neg.isInfinite = true := by
        rw [isFinite_iff] at fy
        rw [isInfinite_iff, place_neg]
        omega
      rw [isFinite_iff] at fx fy
      rw [sub_eq_add hx hy, add_of_isInfinite (isFinite_iff.mpr fx) infinite, isFinite_iff, place_neg]
      exact ⟨hy', by omega, by omega⟩
  · rw [isFinite_iff] at fx
    have infinite : x.isInfinite = true := isInfinite_iff.mpr (by omega)
    have agree : y.neg.isInfinite = true → x.isNegative = y.neg.isNegative := by
      intro infinite'
      rw [isInfinite_iff, place_neg] at infinite'
      rw [isNegative_eq_false (show 0 < x.place by omega),
        isNegative_eq_false (show 0 < y.neg.place by rw [place_neg]; omega)]
    rw [sub_eq_add hx hy, add_of_isInfinite_left infinite hy' agree, isFinite_iff]
    exact ⟨hx, by omega, by omega⟩

/-! ## Quotients -/

theorem isFinite_ofRat_natCast {n : Nat} (small : n < Calc.roomLimit) : (ofRat n).isFinite := by
  obtain ⟨y, hy, zero⟩ := isValue_natCast (n := 0) (by decide)
  obtain ⟨z, hz, limit⟩ := isValue_dyadic (z := 1) (k := 60) (by decide) (by decide)
  have below : y.toRat ≤ n := zero.trans_le (Nat.cast_le.mpr (Nat.zero_le n))
  have above : n ≤ z.toRat := by
    have room : (Calc.roomLimit : Rat) = z.toRat := by
      rw [limit]
      norm_num [Calc.roomLimit]
    exact (Nat.cast_le.mpr small.le).trans_eq room
  exact (roundWith_between hy hz below above false).1

theorem ofRat_mono {p q : Rat} (h : p ≤ q) : (ofRat p).place ≤ (ofRat q).place := by
  rw [ofRat, ofRat, place_roundWith, place_roundWith]
  exact roundPlace_mono h

theorem one_le_ofRat {n : Nat} (pos : 0 < n) : 1 ≤ (ofRat n).toRat := by
  obtain ⟨y, hy, one⟩ := isValue_natCast (n := 1) (by decide)
  have below : y.toRat ≤ n := one.trans_le (Nat.cast_le.mpr pos)
  rw [← Nat.cast_one, ← one]
  exact place_le_place.mp (roundWith_ge hy below false)

/-- Dividing a positive number into parts gives a number, finite as before, that may be zero. -/
theorem div_of_count (number : x.isNaN = false) (pos : 0 < x.place) (hy : y.isFinite)
    (parts : 1 ≤ y.toRat) :
    (div x y).value.isNaN = false ∧ 0 ≤ (div x y).value.place ∧
      (div x y).value.isFinite = x.isFinite := by
  by_cases fx : x.isFinite
  · have zero : (Binary64.zero false).HasValue 0 := by decide +kernel
    have positive : 0 < x.toRat := place_pos_iff.mp pos
    have nonneg : (Binary64.zero false).toRat ≤ x.toRat / y.toRat := by
      rw [zero.2]
      positivity
    rw [div_eq fx hy (by linarith)]
    have finite := (roundWith_between zero.1 fx nonneg (div_le_self positive.le parts)
      (x.isNegative != y.isNegative)).1
    exact ⟨isNaN_roundWith _ _, roundWith_ge zero.1 nonneg _, finite.trans fx.symm⟩
  · have infinite := isInfinite_of_number (Bool.eq_false_iff.mpr fx) number
    have sign : y.isNegative = false := isNegative_eq_false (place_pos_iff.mpr (by linarith))
    have delivered : (div x y).value = infinity false := by
      simp [div, withOperands, number, isNaN_of_isFinite hy, infinite, isInfinite_of_isFinite hy,
        isNegative_eq_false pos, sign]
    rw [delivered, Bool.eq_false_iff.mpr fx]
    decide

end
end FieldGraph.Binary64
