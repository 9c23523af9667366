import FieldGraph.Decimal.Shortest
import FieldGraph.Flagged
import FieldGraph.Text.Layout

/-!
# Numbers as text

A number is written with its shortest decimal digits. The plain form is always
positional and writes whole numbers without a point. The debug form marks whole
numbers with `.0`, and writes numbers below `10 ^ -4` and from `10 ^ 16` on with
an exponent; to choose, it compares the number with these bounds.
-/

namespace FieldGraph

structure NumberLayout where
  positional : Int → Bool
  wholeMark : String

namespace Decimal

def zeros (n : Nat) : String := String.ofList (List.replicate n '0')

def positionalText (wholeMark : String) (d : Decimal) : String :=
  let digits := toString d.coefficient
  if 0 ≤ d.exponent then digits ++ zeros d.exponent.toNat ++ wholeMark
  else
    let places := (-d.exponent).toNat
    let padded := (zeros (places + 1 - digits.length) ++ digits).toList
    let whole := padded.length - places
    String.ofList (padded.take whole) ++ "." ++ String.ofList (padded.drop whole)

def exponentText (d : Decimal) : String :=
  let digits := (toString d.coefficient).toList
  let tail := digits.drop 1
  String.ofList (digits.take 1) ++ (if tail.isEmpty then "" else "." ++ String.ofList tail) ++
    "e" ++ toString (d.exponent + tail.length)

def text (layout : NumberLayout) (d : Decimal) : String :=
  let first := d.exponent + ((toString d.coefficient).length : Int) - 1
  if layout.positional first then d.positionalText layout.wholeMark else d.exponentText

end Decimal

namespace Binary64

def plainLayout : NumberLayout := ⟨fun _ => true, ""⟩

def debugLayout : NumberLayout := ⟨fun e => -4 ≤ e && e < 16, ".0"⟩

def write (layout : NumberLayout) (x : Binary64) : String :=
  if x.isNaN then "NaN"
  else
    let sign := if x.isNegative then "-" else ""
    if x.isInfinite then sign ++ "inf"
    else if x.isZero then sign ++ "0" ++ layout.wholeMark
    else sign ++ (Decimal.shortest x.magnitude).text layout

def text (x : Binary64) : String := x.write plainLayout

/-- The debug form. A NaN cannot be compared with the bounds, which is invalid. -/
def debugText (x : Binary64) : Flagged String := ⟨x.write debugLayout, { invalid := x.isNaN }⟩

def debugList (xs : List Binary64) : Flagged String := do
  return Text.list (← xs.mapM debugText)

end Binary64
end FieldGraph
