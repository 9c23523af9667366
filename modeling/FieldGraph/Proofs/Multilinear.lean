import Mathlib.Algebra.BigOperators.Fin
import Mathlib.Algebra.BigOperators.Ring.Finset
import Mathlib.Algebra.MvPolynomial.Degrees
import Mathlib.Algebra.MvPolynomial.PDeriv
import Mathlib.Tactic.FieldSimp
import Mathlib.Tactic.Ring

/-!
# Multilinear polynomials on boxes

A polynomial of degree at most one in each variable is settled by its values at
the corners of a box. Its partial derivatives at any point, inside the box or
not, are sums over the corners of the value times the slope of the corner's shape
function. Monomials are products over the axes, and so are shape functions; hence
a sum over the corners is a product of sums over the two sides of an axis.
-/

namespace FieldGraph

open Finset MvPolynomial

variable {n : Nat}

def IsMultilinear (p : MvPolynomial (Fin n) Rat) : Prop := ∀ d, p.degreeOf d ≤ 1

theorem IsMultilinear.exponent_le {p : MvPolynomial (Fin n) Rat} (h : IsMultilinear p)
    {m : Fin n →₀ Nat} (hm : m ∈ p.support) (d : Fin n) : m d ≤ 1 :=
  (monomial_le_degreeOf d hm).trans (h d)

theorem isMultilinear_mul_X {n : Nat} {i j : Fin n} (h : i ≠ j) : IsMultilinear (X i * X j) := by
  intro d
  refine (MvPolynomial.degreeOf_mul_le d (X i) (X j)).trans ?_
  rw [MvPolynomial.degreeOf_X, MvPolynomial.degreeOf_X]
  grind

/-! ## Shape functions -/

def side (upper : Bool) : Rat := if upper then 1 else -1

/-- What a corner's shape function contributes on axis `d` to its slope along axis `k`. -/
def slopeFactor (ξ : Fin n → Rat) (k d : Fin n) (upper : Bool) : Rat :=
  if d = k then 1 / 2 * side upper else 1 / 2 * (1 + side upper * ξ d)

/-- A corner of the box with origin `o` and sides `h`. -/
def boxCorner (o h : Fin n → Rat) (c : Fin n → Bool) (d : Fin n) : Rat := o d + (c d).toNat * h d

/-- A point of the box, from its coordinates between `-1` and `1`. -/
def boxPoint (o h ξ : Fin n → Rat) (d : Fin n) : Rat := o d + 1 / 2 * (ξ d + 1) * h d

theorem boxPoint_side (o h : Fin n → Rat) (c : Fin n → Bool) :
    boxPoint o h (fun d => side (c d)) = boxCorner o h c := by
  funext d
  rw [boxPoint, boxCorner]
  cases c d <;> norm_num [side]

/-! ## Sums over corners -/

theorem sum_corners (f : Fin n → Bool → Rat) :
    ∑ c : Fin n → Bool, ∏ d, f d (c d) = ∏ d, (f d false + f d true) := by
  calc ∑ c : Fin n → Bool, ∏ d, f d (c d)
    _ = ∏ d, ∑ upper, f d upper := by rw [prod_univ_sum, Fintype.piFinset_univ]
    _ = ∏ d, (f d false + f d true) := by simp only [Fintype.sum_bool, add_comm]

theorem prod_ite_one (k : Fin n) (a : Rat) (f : Fin n → Rat) :
    (∏ d, if d = k then a else f d) = a * ∏ d, if d = k then 1 else f d := by
  calc (∏ d, if d = k then a else f d)
    _ = ∏ d, (if d = k then a else 1) * (if d = k then 1 else f d) := by
      apply prod_congr rfl
      intro d _
      split <;> simp
    _ = a * ∏ d, if d = k then 1 else f d := by
      rw [prod_mul_distrib, prod_ite_eq' univ k, if_pos (mem_univ k)]

theorem axis_sum (o h ξ : Fin n → Rat) {m : Fin n →₀ Nat} (hm : ∀ d, m d ≤ 1) (k d : Fin n) :
    o d ^ m d * slopeFactor ξ k d false + (o d + h d) ^ m d * slopeFactor ξ k d true =
      if d = k then m k * h k / 2 else boxPoint o h ξ d ^ m d := by
  have cases : m d = 0 ∨ m d = 1 := by
    have := hm d
    omega
  by_cases hd : d = k
  · subst hd
    rcases cases with h0 | h1
    · simp [slopeFactor, side, h0]
    · simp only [slopeFactor, side, h1]
      norm_num
      ring
  · rcases cases with h0 | h1
    · simp only [slopeFactor, side, h0, hd]
      norm_num
      ring
    · simp only [slopeFactor, side, boxPoint, h1, hd]
      norm_num
      ring

theorem eval_pderiv_monomial (y : Fin n → Rat) {m : Fin n →₀ Nat} (hm : ∀ d, m d ≤ 1) (a : Rat)
    (k : Fin n) :
    eval y (pderiv k (monomial m a)) = a * (m k * ∏ d, if d = k then 1 else y d ^ m d) := by
  rw [pderiv_monomial, eval_monomial, Finsupp.prod_fintype _ _ fun _ => pow_zero _, mul_assoc]
  congr 2
  apply prod_congr rfl
  intro d _
  by_cases hd : d = k
  · subst hd
    simp [hm d]
  · simp [hd]

theorem sum_corners_monomial (o h ξ : Fin n → Rat) (hh : ∀ d, h d ≠ 0) {m : Fin n →₀ Nat}
    (hm : ∀ d, m d ≤ 1) (a : Rat) (k : Fin n) :
    ∑ c : Fin n → Bool,
        (a * ∏ d, boxCorner o h c d ^ m d) * ((∏ d, slopeFactor ξ k d (c d)) * 2 / h k) =
      eval (boxPoint o h ξ) (pderiv k (monomial m a)) := by
  have corner (c : Fin n → Bool) (d : Fin n) :
      boxCorner o h c d = if c d then o d + h d else o d := by
    rw [boxCorner]
    cases c d <;> simp
  let f (d : Fin n) (upper : Bool) : Rat :=
    (if upper then o d + h d else o d) ^ m d * slopeFactor ξ k d upper
  calc ∑ c : Fin n → Bool,
        (a * ∏ d, boxCorner o h c d ^ m d) * ((∏ d, slopeFactor ξ k d (c d)) * 2 / h k)
    _ = a * 2 / h k * ∑ c : Fin n → Bool, ∏ d, f d (c d) := by
      rw [mul_sum]
      apply sum_congr rfl
      intro c _
      simp only [f, prod_mul_distrib, corner]
      ring
    _ = a * 2 / h k * ∏ d, if d = k then m k * h k / 2 else boxPoint o h ξ d ^ m d := by
      rw [sum_corners]
      congr 1
      exact prod_congr rfl fun d _ => axis_sum o h ξ hm k d
    _ = a * (m k * ∏ d, if d = k then 1 else boxPoint o h ξ d ^ m d) := by
      rw [prod_ite_one]
      have := hh k
      field_simp
    _ = eval (boxPoint o h ξ) (pderiv k (monomial m a)) := (eval_pderiv_monomial _ hm a k).symm

/-- Interpolation from the corners of a box has the partial derivatives of every multilinear
polynomial that it interpolates. -/
theorem IsMultilinear.sum_corners {p : MvPolynomial (Fin n) Rat} (hp : IsMultilinear p)
    (o h ξ : Fin n → Rat) (hh : ∀ d, h d ≠ 0) (k : Fin n) :
    ∑ c : Fin n → Bool, eval (boxCorner o h c) p * ((∏ d, slopeFactor ξ k d (c d)) * 2 / h k) =
      eval (boxPoint o h ξ) (pderiv k p) := by
  conv_rhs => rw [← p.support_sum_monomial_coeff, map_sum, map_sum]
  simp only [eval_eq' _ p, sum_mul]
  rw [sum_comm]
  apply sum_congr rfl
  intro m hm
  exact sum_corners_monomial o h ξ hh (hp.exponent_le hm) _ k

end FieldGraph
