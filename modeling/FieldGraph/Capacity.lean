import FieldGraph.Calc

/-!
# Counts and room

Indices and counts are 64-bit numbers, and a list of numbers lies in one piece
of memory, which is less than half of what can be addressed. A calculation whose
sizes go beyond these bounds has no result.
-/

namespace FieldGraph.Calc

def countLimit : Nat := 0x10000000000000000

/-- The first number of doubles for which there is no room. -/
def roomLimit : Nat := 0x1000000000000000

def count (n : Nat) : Calc Nat := read (if n < countLimit then some n else none)

def reserve (n : Nat) : Calc Unit := read (if n < roomLimit then some () else none)

theorem reserve_of_lt {n : Nat} (h : n < roomLimit) : reserve n = pure () := by
  simp only [reserve, if_pos h]
  rfl

end FieldGraph.Calc
