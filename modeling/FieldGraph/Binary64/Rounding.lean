import FieldGraph.Binary64.Basic
import FieldGraph.Flagged

/-!
# Rounding to double precision

`roundMagnitude` takes a positive rational to the nearest magnitude pattern,
ties to the even pattern. With `u` the spacing of the patterns around the
value, `value / u` rounds to a natural number `n`, and the pattern is `n` plus
one exponent step for each doubling of `u` above the smallest spacing: a carry
out of the fraction, and the step from subnormal to normal, need no case.

`round` adds the sign, overflow to infinity and the flags. Tininess is judged
after rounding to 53 digits with unbounded exponent.
-/

namespace FieldGraph

def powerOfTwo (k : Nat) : Nat := 1 <<< k

namespace Binary64

/-- Round to the nearest natural number, ties to even; negative values go to zero. -/
def roundHalfEven (q : Rat) : Nat :=
  let n := q.floor
  let rest := q - n
  if rest < 1 / 2 then n.toNat
  else if 1 / 2 < rest then (n + 1).toNat
  else (n + n % 2).toNat

/-- The exponent `e` with `2 ^ e ≤ q < 2 ^ (e + 1)`, for positive `q`. -/
def binaryExponent (q : Rat) : Int :=
  let n := q.num.natAbs
  let d := q.den
  let e : Int := (Nat.log2 n : Int) - (Nat.log2 d : Int)
  let below : Bool :=
    if 0 ≤ e then n < d * powerOfTwo e.toNat else n * powerOfTwo (-e).toNat < d
  if below then e - 1 else e

def spacingExponent (e : Int) : Int := max (e - 52) (-1074)

def roundMagnitude (q : Rat) : Nat :=
  let k := spacingExponent (binaryExponent q)
  (k + 1074).toNat * fractionRange + roundHalfEven (q / (2 : Rat) ^ k)

/-- Whether a positive value is below every normal number after rounding to 53 digits. -/
def isTiny (q : Rat) : Bool :=
  let e := binaryExponent q
  decide (e < -1022) &&
    !(e == -1023 && roundHalfEven (q / (2 : Rat) ^ (e - 52)) == 2 * fractionRange)

/-- Round the absolute value `q`, given whether the true result is known to be inexact. -/
def roundSigned (negative inexact : Bool) (q : Rat) : Flagged Binary64 :=
  let m := roundMagnitude q
  if infinityPattern ≤ m then ⟨infinity negative, { overflow := true }⟩
  else ⟨ofPattern negative m, { underflow := isTiny q && (inexact || patternValue m != q) }⟩

def roundWith (zeroSign : Bool) (q : Rat) : Flagged Binary64 :=
  if q = 0 then ⟨zero zeroSign, ∅⟩
  else if q < 0 then roundSigned true false (-q)
  else roundSigned false false q

def ofRat (q : Rat) : Binary64 := (roundWith false q).value

end Binary64
end FieldGraph
