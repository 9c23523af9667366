/-!
# Floating-point exception flags

A set of the four IEEE 754 exceptions that a computation can raise without
stopping. Sets are joined with `∪`, and written in one fixed order.
-/

namespace FieldGraph

structure Flags where
  divideByZero : Bool := false
  invalid : Bool := false
  overflow : Bool := false
  underflow : Bool := false
  deriving DecidableEq

namespace Flags

instance : EmptyCollection Flags := ⟨{}⟩

instance : Union Flags :=
  ⟨fun a b => ⟨a.divideByZero || b.divideByZero, a.invalid || b.invalid,
    a.overflow || b.overflow, a.underflow || b.underflow⟩⟩

instance : HasSubset Flags := ⟨fun a b => a ∪ b = b⟩

instance (a b : Flags) : Decidable (a ⊆ b) := inferInstanceAs (Decidable (a ∪ b = b))

def isEmpty (f : Flags) : Bool := f = ∅

def names (f : Flags) : List String :=
  (if f.divideByZero then ["Divide by zero"] else []) ++
  (if f.invalid then ["Invalid domain"] else []) ++
  (if f.overflow then ["Value overflow"] else []) ++
  (if f.underflow then ["Value underflow"] else [])

def text (f : Flags) : String :=
  if f.isEmpty then "none" else String.intercalate ", " f.names

def debugText (f : Flags) : String := "FpExceptions(" ++ f.text ++ ")"

/-! ## Union -/

theorem union_assoc (a b c : Flags) : (a ∪ b) ∪ c = a ∪ (b ∪ c) := by
  simp only [Union.union, Bool.or_assoc]

theorem union_comm (a b : Flags) : a ∪ b = b ∪ a := by
  simp only [Union.union, Bool.or_comm]

@[simp] theorem union_self (a : Flags) : a ∪ a = a := by
  simp [Union.union]

@[simp] theorem empty_union (a : Flags) : ∅ ∪ a = a := by
  simp [Union.union, EmptyCollection.emptyCollection]

@[simp] theorem union_empty (a : Flags) : a ∪ ∅ = a := by
  simp [Union.union, EmptyCollection.emptyCollection]

theorem union_eq_empty {a b : Flags} (h : a ∪ b = ∅) : a = ∅ ∧ b = ∅ := by
  obtain ⟨a₁, a₂, a₃, a₄⟩ := a
  obtain ⟨b₁, b₂, b₃, b₄⟩ := b
  simp_all [Union.union, EmptyCollection.emptyCollection]

theorem isEmpty_iff {a : Flags} : a.isEmpty = true ↔ a = ∅ := by
  simp [isEmpty]

end Flags
end FieldGraph
