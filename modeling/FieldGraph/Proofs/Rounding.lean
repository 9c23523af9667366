import FieldGraph.Binary64.Rounding
import Mathlib.Algebra.Order.Field.Power
import Mathlib.Data.Nat.Log
import Mathlib.Data.Rat.Floor
import Mathlib.Tactic.Linarith
import Mathlib.Tactic.NormNum
import Mathlib.Tactic.Positivity
import Mathlib.Tactic.Ring

/-!
# Rounding is monotone

A pattern is a number of steps: it is `n` steps of a size that the exponent field
gives, `2 ^ (t - 1074)`, with `n` between the least normal fraction and twice
that, unless the steps are the smallest. Rounding takes a value to the nearest
number of such steps. So what is at least (at most) the value of a pattern is
rounded to a pattern at least (at most) as large, and values of patterns stay.
The larger of two values is not rounded to the smaller pattern either.
-/

namespace FieldGraph

theorem powerOfTwo_eq (k : Nat) : powerOfTwo k = 2 ^ k := by
  rw [powerOfTwo, Nat.one_shiftLeft]

namespace Binary64

/-! ## Natural numbers -/

theorem le_roundHalfEven {n : Nat} {q : Rat} (h : n ≤ q) : n ≤ roundHalfEven q := by
  have floor : (n : Int) ≤ q.floor := Rat.le_floor_iff.mpr (by exact_mod_cast h)
  have parity := Int.emod_two_eq q.floor
  simp only [roundHalfEven]
  split
  · omega
  · split <;> omega

theorem roundHalfEven_le {n : Nat} {q : Rat} (h : q ≤ n) : roundHalfEven q ≤ n := by
  by_cases below : q.floor < n
  · have parity := Int.emod_two_eq q.floor
    simp only [roundHalfEven]
    split
    · omega
    · split <;> omega
  · -- there is nothing between the floor and the natural number
    have floor : (n : Int) ≤ q.floor := not_lt.mp below
    have same : q = n := le_antisymm h (by exact_mod_cast Rat.le_floor_iff.mp floor)
    have whole : q.floor = n := by
      rw [same]
      show ⌊(n : Rat)⌋ = n
      exact Int.floor_natCast n
    simp only [roundHalfEven, whole]
    simp [same]

theorem roundHalfEven_mono {q r : Rat} (hq : 0 ≤ q) (h : q ≤ r) :
    roundHalfEven q ≤ roundHalfEven r := by
  rcases (Int.floor_le_floor h).lt_or_eq with apart | same
  · -- the natural number above the smaller one is in between
    have above : q ≤ (⌊q⌋ + 1).toNat := by
      have : q < ⌊q⌋ + 1 := Int.lt_floor_add_one q
      exact this.le.trans (by exact_mod_cast Int.self_le_toNat (⌊q⌋ + 1))
    have below : ((⌊q⌋ + 1).toNat : Rat) ≤ r := by
      have nonneg : 0 ≤ ⌊q⌋ := Int.floor_nonneg.mpr hq
      have next : ((⌊q⌋ + 1).toNat : Int) ≤ ⌊r⌋ := by omega
      exact_mod_cast Int.le_floor.mp next
    exact (roundHalfEven_le above).trans (le_roundHalfEven below)
  · have same : q.floor = r.floor := same
    have parity := Int.emod_two_eq r.floor
    have rest : q - r.floor ≤ r - r.floor := sub_le_sub_right h _
    simp only [roundHalfEven, same]
    split_ifs <;> first | omega | linarith

/-! ## Exponents -/

/-- Whether a quotient is below a power of two, decided by shifting one side. -/
theorem shifted_lt_iff {n d : Nat} (hd : 0 < d) (e : Int) :
    (if 0 ≤ e then decide (n < d * powerOfTwo e.toNat)
      else decide (n * powerOfTwo (-e).toNat < d)) = true ↔
      (n : Rat) / d < 2 ^ e := by
  have hd' : (0 : Rat) < d := Nat.cast_pos.mpr hd
  rw [div_lt_iff₀ hd', powerOfTwo_eq, powerOfTwo_eq]
  by_cases he : 0 ≤ e
  · obtain ⟨k, rfl⟩ := Int.eq_ofNat_of_zero_le he
    rw [if_pos he, decide_eq_true_iff, mul_comm ((2 : Rat) ^ _)]
    simp only [Int.toNat_natCast, zpow_natCast]
    exact_mod_cast Iff.rfl
  · obtain ⟨k, rfl⟩ : ∃ k : Nat, e = -k := ⟨(-e).toNat, by omega⟩
    have pos : (0 : Rat) < 2 ^ k := by positivity
    rw [if_neg he, decide_eq_true_iff, zpow_neg, zpow_natCast, inv_mul_eq_div, lt_div_iff₀ pos]
    simp only [neg_neg, Int.toNat_natCast]
    exact_mod_cast Iff.rfl

/-- Leading bits settle a quotient up to a factor of two on either side. -/
theorem quotient_bounds {n d a b : Nat} (hn : 2 ^ a ≤ n ∧ n < 2 ^ (a + 1))
    (hd : 2 ^ b ≤ d ∧ d < 2 ^ (b + 1)) :
    (2 : Rat) ^ ((a : Int) - b - 1) ≤ (n : Rat) / d ∧ (n : Rat) / d < 2 ^ ((a : Int) - b + 1) := by
  have two : (2 : Rat) ≠ 0 := by norm_num
  have hn₁ : (2 : Rat) ^ a ≤ n := by exact_mod_cast hn.1
  have hn₂ : (n : Rat) < 2 ^ (a + 1) := by exact_mod_cast hn.2
  have hd₁ : (2 : Rat) ^ b ≤ d := by exact_mod_cast hd.1
  have hd₂ : (d : Rat) < 2 ^ (b + 1) := by exact_mod_cast hd.2
  have pos : (0 : Rat) < 2 ^ b := by positivity
  constructor
  · calc (2 : Rat) ^ ((a : Int) - b - 1)
      _ = 2 ^ a / 2 ^ (b + 1) := by
        rw [← zpow_natCast 2 a, ← zpow_natCast 2 (b + 1), ← zpow_sub₀ two]
        congr 1
        push_cast
        ring
      _ ≤ n / d := div_le_div₀ (by positivity) hn₁ (pos.trans_le hd₁) hd₂.le
  · calc (n : Rat) / d
      _ < 2 ^ (a + 1) / 2 ^ b := div_lt_div₀ hn₂ hd₁ (by positivity) pos
      _ = (2 : Rat) ^ ((a : Int) - b + 1) := by
        rw [← zpow_natCast 2 b, ← zpow_natCast 2 (a + 1), ← zpow_sub₀ two]
        congr 1
        push_cast
        ring

theorem binaryExponent_spec {q : Rat} (hq : 0 < q) :
    (2 : Rat) ^ binaryExponent q ≤ q ∧ q < (2 : Rat) ^ (binaryExponent q + 1) := by
  have hn : q.num.natAbs ≠ 0 := by simp [hq.ne']
  have quotient : (q.num.natAbs : Rat) / q.den = q := by
    conv_rhs => rw [← Rat.num_div_den q]
    rw [Nat.cast_natAbs, abs_of_nonneg (Rat.num_nonneg.mpr hq.le)]
  have bounds := quotient_bounds ⟨Nat.log2_self_le hn, Nat.lt_log2_self⟩
    ⟨Nat.log2_self_le q.den_nz, Nat.lt_log2_self⟩
  have decided := shifted_lt_iff (n := q.num.natAbs) q.den_pos
    ((Nat.log2 q.num.natAbs : Int) - Nat.log2 q.den)
  rw [quotient] at bounds decided
  unfold binaryExponent
  simp only
  generalize (Nat.log2 q.num.natAbs : Int) - Nat.log2 q.den = e at bounds decided ⊢
  by_cases below : q < 2 ^ e
  · rw [if_pos (decided.mpr below), sub_add_cancel]
    exact ⟨bounds.1, below⟩
  · rw [if_neg (fun h => below (decided.mp h))]
    exact ⟨not_lt.mp below, bounds.2⟩

/-! ## Patterns -/

theorem patternValue_normal (t : Nat) {fraction : Nat} (h : fraction < fractionRange) :
    patternValue ((t + 1) * fractionRange + fraction) =
      (fractionRange + fraction : Nat) * (2 : Rat) ^ ((t : Int) - 1074) := by
  have range : 0 < fractionRange := by decide
  have exponent : ((t + 1) * fractionRange + fraction) / fractionRange = t + 1 := by
    rw [Nat.add_comm, Nat.add_mul_div_right _ _ range, Nat.div_eq_of_lt h, Nat.zero_add]
  have rest : ((t + 1) * fractionRange + fraction) % fractionRange = fraction := by
    rw [Nat.add_comm, Nat.add_mul_mod_self_right, Nat.mod_eq_of_lt h]
  simp only [patternValue, exponent, rest, Nat.succ_ne_zero, if_false]
  congr 2
  push_cast
  ring

theorem patternValue_steps {t n : Nat} (hn : n ≤ 2 * fractionRange)
    (ht : t = 0 ∨ fractionRange ≤ n) :
    patternValue (t * fractionRange + n) = n * (2 : Rat) ^ ((t : Int) - 1074) := by
  rcases Nat.lt_or_ge n fractionRange with subnormal | normal
  · have ht : t = 0 := by omega
    subst ht
    simp [patternValue, Nat.div_eq_of_lt subnormal, Nat.mod_eq_of_lt subnormal]
  rcases Nat.lt_or_ge n (2 * fractionRange) with inside | top
  · have split : t * fractionRange + n = (t + 1) * fractionRange + (n - fractionRange) := by
      rw [Nat.succ_mul]
      omega
    rw [split, patternValue_normal t (by omega), Nat.add_sub_cancel' normal]
  · -- twice the least normal fraction is the least one of the next exponent
    have double : n = fractionRange + fractionRange := by omega
    have split : t * fractionRange + n = (t + 1 + 1) * fractionRange + 0 := by
      rw [Nat.succ_mul, Nat.succ_mul]
      omega
    have next : ((t + 1 : Nat) : Int) - 1074 = ((t : Int) - 1074) + 1 := by
      push_cast
      ring
    rw [split, patternValue_normal (t + 1) (by decide), next, zpow_add_one₀ (by norm_num), double]
    push_cast
    ring

theorem exists_steps (m : Nat) : ∃ t n, m = t * fractionRange + n ∧ n < 2 * fractionRange ∧
    (t = 0 ∨ fractionRange ≤ n) := by
  rcases Nat.lt_or_ge m fractionRange with subnormal | normal
  · exact ⟨0, m, by simp, by omega, .inl rfl⟩
  · have range : 0 < fractionRange := by decide
    have exponent : 0 < m / fractionRange := Nat.div_pos normal range
    have fraction := Nat.mod_lt m range
    have split := Nat.div_add_mod m fractionRange
    refine ⟨m / fractionRange - 1, fractionRange + m % fractionRange, ?_, by omega, .inr (by omega)⟩
    have whole : (m / fractionRange - 1) * fractionRange + fractionRange =
        fractionRange * (m / fractionRange) := by
      rw [← Nat.succ_mul, Nat.succ_eq_add_one, Nat.sub_add_cancel exponent, Nat.mul_comm]
    omega

theorem patternValue_lt_succ (m : Nat) : patternValue m < patternValue (m + 1) := by
  obtain ⟨t, n, rfl, hn, ht⟩ := exists_steps m
  have step : (0 : Rat) < 2 ^ ((t : Int) - 1074) := by positivity
  rw [Nat.add_assoc, patternValue_steps hn.le ht, patternValue_steps hn (by omega)]
  push_cast
  nlinarith

theorem patternValue_strictMono : StrictMono patternValue :=
  strictMono_nat_of_lt_succ patternValue_lt_succ

theorem patternValue_zero : patternValue 0 = 0 := by
  simp [patternValue]

theorem patternValue_nonneg (m : Nat) : 0 ≤ patternValue m := by
  rw [← patternValue_zero]
  exact patternValue_strictMono.monotone (Nat.zero_le m)

/-! ## Magnitudes -/

theorem exists_roundMagnitude {q : Rat} (hq : 0 < q) : ∃ t : Nat,
    roundMagnitude q = t * fractionRange + roundHalfEven (q / (2 : Rat) ^ ((t : Int) - 1074)) ∧
      q < 2 * fractionRange * (2 : Rat) ^ ((t : Int) - 1074) ∧
        (t = 0 ∨ fractionRange * (2 : Rat) ^ ((t : Int) - 1074) ≤ q) := by
  have two : (2 : Rat) ≠ 0 := by norm_num
  have range : (fractionRange : Rat) = 2 ^ (52 : Int) := by norm_num [fractionRange]
  obtain ⟨lower, upper⟩ := binaryExponent_spec hq
  refine ⟨(spacingExponent (binaryExponent q) + 1074).toNat, ?_⟩
  have least : -1074 ≤ spacingExponent (binaryExponent q) := le_max_right _ _
  have cast : (((spacingExponent (binaryExponent q) + 1074).toNat : Int) - 1074) =
      spacingExponent (binaryExponent q) := by omega
  rw [cast]
  refine ⟨rfl, ?_, ?_⟩
  · calc q
      _ < 2 ^ (binaryExponent q + 1) := upper
      _ ≤ 2 ^ (1 + 52 + spacingExponent (binaryExponent q)) := by
        apply zpow_le_zpow_right₀ (by norm_num)
        have := le_max_left (binaryExponent q - 52) (-1074)
        unfold spacingExponent
        omega
      _ = 2 * fractionRange * 2 ^ spacingExponent (binaryExponent q) := by
        rw [zpow_add₀ two, zpow_add₀ two, zpow_one, range]
  · by_cases bottom : spacingExponent (binaryExponent q) = -1074
    · left
      omega
    · right
      have above : spacingExponent (binaryExponent q) = binaryExponent q - 52 := by
        unfold spacingExponent at bottom ⊢
        omega
      rw [range, ← zpow_add₀ two, above, add_sub_cancel]
      exact lower

theorem le_roundMagnitude {m : Nat} {q : Rat} (hq : 0 < q) (h : patternValue m ≤ q) :
    m ≤ roundMagnitude q := by
  obtain ⟨t, round, upper, lower⟩ := exists_roundMagnitude hq
  have step : (0 : Rat) < 2 ^ ((t : Int) - 1074) := by positivity
  -- at least as many steps as any natural number that fits into the value
  have steps {n : Nat} (hn : n * (2 : Rat) ^ ((t : Int) - 1074) ≤ q) :
      t * fractionRange + n ≤ roundMagnitude q := by
    rw [round]
    exact Nat.add_le_add_left (le_roundHalfEven ((le_div_iff₀ step).mpr hn)) _
  rcases Nat.lt_or_ge (t * fractionRange + 2 * fractionRange) m with beyond | inside
  · have larger := patternValue_strictMono beyond
    rw [patternValue_steps le_rfl (.inr (by omega))] at larger
    push_cast at larger
    linarith
  by_cases ht : t = 0 ∨ t * fractionRange + fractionRange ≤ m
  · have split : m = t * fractionRange + (m - t * fractionRange) := by
      rcases ht with rfl | above <;> omega
    rw [split, patternValue_steps (by omega) (by omega)] at h
    rw [split]
    exact steps h
  · obtain ⟨normal, below⟩ := not_or.mp ht
    exact (not_le.mp below).le.trans (steps (lower.resolve_left normal))

theorem roundMagnitude_le {m : Nat} {q : Rat} (hq : 0 < q) (h : q ≤ patternValue m) :
    roundMagnitude q ≤ m := by
  obtain ⟨t, round, upper, lower⟩ := exists_roundMagnitude hq
  have step : (0 : Rat) < 2 ^ ((t : Int) - 1074) := by positivity
  have steps {n : Nat} (hn : q ≤ n * (2 : Rat) ^ ((t : Int) - 1074)) :
      roundMagnitude q ≤ t * fractionRange + n := by
    rw [round]
    exact Nat.add_le_add_left (roundHalfEven_le ((div_le_iff₀ step).mpr hn)) _
  rcases Nat.lt_or_ge m (t * fractionRange + 2 * fractionRange) with inside | beyond
  · by_cases ht : t = 0 ∨ t * fractionRange + fractionRange ≤ m
    · have split : m = t * fractionRange + (m - t * fractionRange) := by
        rcases ht with rfl | above <;> omega
      rw [split, patternValue_steps (by omega) (by omega)] at h
      rw [split]
      exact steps h
    · obtain ⟨normal, below⟩ := not_or.mp ht
      have smaller := patternValue_strictMono (not_le.mp below)
      rw [patternValue_steps (by omega) (.inr le_rfl)] at smaller
      have := lower.resolve_left normal
      linarith
  · refine (steps (n := 2 * fractionRange) ?_).trans beyond
    push_cast
    exact upper.le

theorem roundMagnitude_mono {q r : Rat} (hq : 0 < q) (h : q ≤ r) :
    roundMagnitude q ≤ roundMagnitude r := by
  have hr := hq.trans_le h
  obtain ⟨s, round, upper, lower⟩ := exists_roundMagnitude hq
  obtain ⟨t, round', upper', lower'⟩ := exists_roundMagnitude hr
  have least (t : Nat) := patternValue_steps (t := t) (n := fractionRange) (by omega) (.inr le_rfl)
  have most (t : Nat) := patternValue_steps (t := t) (n := 2 * fractionRange) le_rfl (.inr (by omega))
  push_cast at most
  rcases lt_trichotomy s t with less | rfl | more
  · -- the steps get larger at a power of two in between
    have below := roundMagnitude_le hq (upper.le.trans_eq (most s).symm)
    have above := le_roundMagnitude hr ((least t).trans_le (lower'.resolve_left (by omega)))
    have := Nat.mul_le_mul_right fractionRange less
    rw [Nat.succ_mul] at this
    omega
  · have step : (0 : Rat) < 2 ^ ((s : Int) - 1074) := by positivity
    rw [round, round']
    apply Nat.add_le_add_left
    exact roundHalfEven_mono (by positivity) (div_le_div_of_nonneg_right h step.le)
  · have order : patternValue (s * fractionRange + fractionRange) <
        patternValue (t * fractionRange + 2 * fractionRange) := by
      rw [least, most]
      exact ((lower.resolve_left (by omega)).trans h).trans_lt upper'
    have := patternValue_strictMono.lt_iff_lt.mp order
    have := Nat.mul_le_mul_right fractionRange more
    rw [Nat.succ_mul] at this
    omega

end Binary64
end FieldGraph
