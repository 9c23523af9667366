import FieldGraph.Binary64.Rounding

/-!
# Double-precision arithmetic

Each operation delivers the rounded exact result. An operand that is not a
number passes through, the left one first, made quiet; a signalling operand,
and an operation that has no numeric result, raise *invalid*.
-/

namespace FieldGraph.Binary64

/-- Deliver the NaN among the operands, or else the result of the operation on numbers. -/
def withOperands (x y : Binary64) (onNumbers : Flagged Binary64) : Flagged Binary64 :=
  let raised : Flags := { invalid := x.isSignaling || y.isSignaling }
  if x.isNaN then ⟨x.quiet, raised⟩
  else if y.isNaN then ⟨y.quiet, raised⟩
  else onNumbers

def invalidOperation : Flagged Binary64 := ⟨defaultNaN, { invalid := true }⟩

/-- A zero sum keeps the sign that both terms share and is positive otherwise. -/
def add (x y : Binary64) : Flagged Binary64 :=
  withOperands x y <|
    if x.isInfinite then
      if y.isInfinite && x.isNegative != y.isNegative then invalidOperation else ⟨x, ∅⟩
    else if y.isInfinite then ⟨y, ∅⟩
    else roundWith (x.isNegative && y.isNegative) (x.toRat + y.toRat)

def sub (x y : Binary64) : Flagged Binary64 :=
  if x.isNaN || y.isNaN then withOperands x y invalidOperation else add x y.neg

def mul (x y : Binary64) : Flagged Binary64 :=
  let negative := x.isNegative != y.isNegative
  withOperands x y <|
    if x.isInfinite || y.isInfinite then
      if x.isZero || y.isZero then invalidOperation else ⟨infinity negative, ∅⟩
    else roundWith negative (x.toRat * y.toRat)

def div (x y : Binary64) : Flagged Binary64 :=
  let negative := x.isNegative != y.isNegative
  withOperands x y <|
    if x.isInfinite then
      if y.isInfinite then invalidOperation else ⟨infinity negative, ∅⟩
    else if y.isInfinite then ⟨zero negative, ∅⟩
    else if y.isZero then
      if x.isZero then invalidOperation else ⟨infinity negative, { divideByZero := true }⟩
    else roundWith negative (x.toRat / y.toRat)

/-! ## Square root -/

/-- Below this many digits after the point no double lies strictly between neighbours. -/
def rootDigits : Nat := 1200

/-- The square root of a positive value rounded down to `rootDigits` binary places, with half
a place added if that is not exact, so that the result rounds like the root itself. -/
def rootOf (q : Rat) : Rat :=
  let scaled := (q * (powerOfTwo (2 * rootDigits) : Rat)).floor.toNat
  let r := Nat.sqrt scaled
  let sticky : Rat := if (r * r : Nat) = scaled then 0 else 1 / 2
  ((r : Rat) + sticky) / (powerOfTwo rootDigits : Rat)

def sqrt (x : Binary64) : Flagged Binary64 :=
  withOperands x x <|
    if x.isZero then ⟨x, ∅⟩
    else if x.isNegative then invalidOperation
    else if x.isInfinite then ⟨x, ∅⟩
    else roundWith false (rootOf x.toRat)

/-! ## Indices -/

/-- The whole part of `x`, kept between `0` and `last`; `0` where there is no number. Infinity
has no whole part, which is invalid. -/
def floorWithin (last : Nat) (x : Binary64) : Flagged Nat :=
  if x.isNaN then ⟨0, ∅⟩
  else if x.isInfinite then
    if x.isNegative then ⟨0, ∅⟩ else ⟨last, { invalid := true }⟩
  else ⟨min x.toRat.floor.toNat last, ∅⟩

theorem floorWithin_le (last : Nat) (x : Binary64) : (floorWithin last x).value ≤ last := by
  unfold floorWithin
  split
  · exact Nat.zero_le _
  · split
    · split
      · exact Nat.zero_le _
      · exact Nat.le_refl _
    · exact Nat.min_le_right _ _

end FieldGraph.Binary64
