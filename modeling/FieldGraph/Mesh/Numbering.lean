/-!
# Numbering of grid positions

A position on a grid is a list of indices, one for each axis. Positions are
numbered with the first axis fastest: the indices are the digits of the number,
lowest first, in a mixed radix of the axes' counts. The last index has no bound,
so a number beyond the grid never stands for a position on it.
-/

namespace FieldGraph.Numbering

def count : List Nat → Nat
  | [] => 1
  | n :: ns => n * count ns

def position : List Nat → Nat → List Nat
  | [], _ => []
  | [_], i => [i]
  | n :: m :: ns, i => i % n :: position (m :: ns) (i / n)

def index : List Nat → List Nat → Nat
  | n :: ns, i :: is => i + n * index ns is
  | _, _ => 0

def choices {α : Type} : List (List α) → List (List α)
  | [] => [[]]
  | xs :: rest => (choices rest).flatMap fun tail => xs.map (· :: tail)

/-- The corners of a box: on each axis its lower (`false`) or its upper side. -/
def corners (dim : Nat) : List (List Bool) := choices (List.replicate dim [false, true])

def cornerPosition (cell : List Nat) (corner : List Bool) : List Nat :=
  cell.zipWith (fun i upper => i + upper.toNat) corner

def touching (cells i : Nat) : List Nat :=
  (if 0 < i then [i - 1] else []) ++ (if i < cells then [i] else [])

end FieldGraph.Numbering
