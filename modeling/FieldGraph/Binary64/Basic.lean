/-!
# Double-precision numbers

A number is its IEEE 754 bit pattern. The pattern without the sign bit is the
*magnitude pattern*: read as a natural number it orders the absolute values,
up to infinity, and everything above infinity is not a number.
-/

namespace FieldGraph

structure Binary64 where
  bits : UInt64
  deriving DecidableEq

namespace Binary64

/-! ## Patterns -/

def signWeight : Nat := 0x8000000000000000

def fractionRange : Nat := 0x10000000000000

def infinityPattern : Nat := 0x7ff0000000000000

def isNegative (x : Binary64) : Bool := signWeight ≤ x.bits.toNat

def magnitude (x : Binary64) : Nat := x.bits.toNat % signWeight

def ofPattern (negative : Bool) (m : Nat) : Binary64 :=
  ⟨UInt64.ofNat (if negative then signWeight + m else m)⟩

def zero (negative : Bool) : Binary64 := ofPattern negative 0

def infinity (negative : Bool) : Binary64 := ofPattern negative infinityPattern

def defaultNaN : Binary64 := ⟨0xfff8000000000000⟩

def isNaN (x : Binary64) : Bool := infinityPattern < x.magnitude

def isInfinite (x : Binary64) : Bool := x.magnitude = infinityPattern

def isFinite (x : Binary64) : Bool := x.magnitude < infinityPattern

def isZero (x : Binary64) : Bool := x.magnitude = 0

/-- The bit that tells quiet from signalling patterns. -/
def quietBit : UInt64 := 0x8000000000000

def isSignaling (x : Binary64) : Bool := x.isNaN && x.bits &&& quietBit == 0

def quiet (x : Binary64) : Binary64 := ⟨x.bits ||| quietBit⟩

/-! ## Values -/

def patternValue (m : Nat) : Rat :=
  let exponent := m / fractionRange
  let fraction := m % fractionRange
  if exponent = 0 then (fraction : Rat) * (2 : Rat) ^ (-1074 : Int)
  else ((fractionRange + fraction : Nat) : Rat) * (2 : Rat) ^ ((exponent : Int) - 1075)

def toRat (x : Binary64) : Rat :=
  if x.isNegative then -patternValue x.magnitude else patternValue x.magnitude

/-! ## Order

Magnitude patterns are ordered like absolute values, so signed patterns are
ordered like the numbers, infinities included, and both zeros share one place. -/

def place (x : Binary64) : Int :=
  if x.isNegative then -(x.magnitude : Int) else (x.magnitude : Int)

def lt (x y : Binary64) : Bool := !x.isNaN && !y.isNaN && decide (x.place < y.place)

/-- Equality of numbers: no NaN equals anything, and the zeros are equal. -/
def eq (x y : Binary64) : Bool := !x.isNaN && !y.isNaN && decide (x.place = y.place)

/-! ## Operations on patterns, which raise nothing -/

def abs (x : Binary64) : Binary64 := ofPattern false x.magnitude

def neg (x : Binary64) : Binary64 := ofPattern (!x.isNegative) x.magnitude

end Binary64
end FieldGraph
