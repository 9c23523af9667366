import FieldGraph.Scalar
import FieldGraph.Calc

/-!
# Grid axes

One axis of a regular grid: a range cut into equal cells. Nodes stand at the
ends of the cells; the last one stands exactly at the upper end of the range.
Within a cell, positions are measured from `-1` to `1`.
-/

namespace FieldGraph

structure Axis (K : Type) where
  cells : Nat
  lower : K
  upper : K
  spacing : K
  coordinates : Vector K (cells + 1)
  cells_pos : 0 < cells
  deriving DecidableEq

namespace Axis

variable {K : Type} [Scalar K]

def nodeCoordinate (cells : Nat) (lower upper spacing : K) (i : Nat) : Flagged K :=
  if i = cells then pure upper
  else do Scalar.add lower (← Scalar.mul (Scalar.ofRat i) spacing)

def cellWidth (cells : Nat) (lower upper : K) : Flagged K := do
  Scalar.div (← Scalar.sub upper lower) (Scalar.ofRat cells)

def make (cells : Nat) (lower upper : K) (h : 0 < cells) : Flagged (Axis K) := do
  let spacing ← cellWidth cells lower upper
  let coordinates ← Flagged.vector fun i : Fin (cells + 1) =>
    nodeCoordinate cells lower upper spacing i
  return ⟨cells, lower, upper, spacing, coordinates, h⟩

variable (a : Axis K)

def origin (i : Nat) : Flagged K := do
  Scalar.add a.lower (← Scalar.mul (Scalar.ofRat i) a.spacing)

/-- `2 (x - origin) / spacing - 1`. -/
def toLocal (origin x : K) : Flagged K := do
  let twice ← Scalar.mul (Scalar.ofRat 2) (← Scalar.sub x origin)
  Scalar.sub (← Scalar.div twice a.spacing) (Scalar.ofRat 1)

/-- `origin + (ξ + 1) / 2 * spacing`. -/
def toGlobal (origin ξ : K) : Flagged K := do
  let half ← Scalar.mul (Scalar.ofRat (1 / 2)) (← Scalar.add ξ (Scalar.ofRat 1))
  Scalar.add origin (← Scalar.mul half a.spacing)

def slack : Rat := 1 / 1000000000000

def covers (x : K) : Flagged Bool := do
  let tolerance ← Scalar.mul (Scalar.ofRat slack) (← Scalar.sub a.upper a.lower)
  if !Scalar.isFinite x then return false
  if Scalar.lt x (← Scalar.sub a.lower tolerance) then return false
  return !Scalar.lt (← Scalar.add a.upper tolerance) x

/-- The cell of a point on the range; a point between two cells is in the upper one. -/
def cellOf (x : K) : Flagged Nat := do
  Scalar.floorWithin (a.cells - 1) (← Scalar.div (← Scalar.sub x a.lower) a.spacing)

def locate (x : K) : Flagged (Option Nat) := do
  if ← a.covers x then return some (← a.cellOf x) else return none

end Axis
end FieldGraph
