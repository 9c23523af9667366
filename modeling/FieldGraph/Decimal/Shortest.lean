import FieldGraph.Binary64.Rounding

/-!
# The shortest decimal

`shortest m` is the decimal with the fewest digits among those that read back
as the double with magnitude pattern `m`; of several, the one nearest to the
double's value, and the larger of two equally near ones.

The numbers that read back form an interval around the value, with its ends
if the pattern is even. On the grid of `n` digits it meets a grid point exactly
if it meets one of the two grid points next to the value.
-/

namespace FieldGraph

structure Decimal where
  coefficient : Nat
  exponent : Int
  deriving DecidableEq

namespace Decimal

/-- The exponent `e` with `10 ^ e ≤ q < 10 ^ (e + 1)`, for positive `q`. -/
def decimalExponent (q : Rat) : Int :=
  let guess := Binary64.binaryExponent q * 30103 / 100000
  if q < (10 : Rat) ^ guess then guess - 1
  else if (10 : Rat) ^ (guess + 1) ≤ q then guess + 1
  else guess

structure Interval where
  lower : Rat
  upper : Rat
  closed : Bool

def Interval.contains (i : Interval) (q : Rat) : Bool :=
  if i.closed then i.lower ≤ q && q ≤ i.upper else i.lower < q && q < i.upper

/-- Halfway to the neighbours on either side. -/
def readBack (m : Nat) : Interval :=
  let v := Binary64.patternValue m
  ⟨(Binary64.patternValue (m - 1) + v) / 2, (v + Binary64.patternValue (m + 1)) / 2, m % 2 = 0⟩

/-- The better of the two multiples of `10 ^ exponent` next to `v`, if one reads back. -/
def nearestOnGrid (i : Interval) (v : Rat) (exponent : Int) : Option Nat :=
  let scaled := v / (10 : Rat) ^ exponent
  let below := scaled.floor.toNat
  let hit (c : Nat) : Bool := i.contains ((c : Rat) * (10 : Rat) ^ exponent)
  let low := hit below
  let high := hit (below + 1)
  if low && (!high || scaled - below < 1 / 2) then some below
  else if high then some (below + 1)
  else none

def ofCoefficient (c : Nat) (e : Int) : Decimal :=
  if c ≠ 0 ∧ c % 10 = 0 then ofCoefficient (c / 10) (e + 1) else ⟨c, e⟩
termination_by c
decreasing_by omega

/-- The most digits that telling two doubles apart can take. -/
def maxDigits : Nat := 17

def shortest (m : Nat) : Decimal :=
  let v := Binary64.patternValue m
  let first := decimalExponent v
  let found := (List.range maxDigits).findSome? fun (n : Nat) =>
    (nearestOnGrid (readBack m) v (first - (n : Int))).map fun c => ofCoefficient c (first - (n : Int))
  found.getD ⟨0, 0⟩

end Decimal
end FieldGraph
