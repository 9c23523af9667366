import FieldGraph.Flags

/-!
# Flagged results

Arithmetic always delivers a result, together with the exceptions that were
raised on the way. Operations compose: results feed one another and exceptions
accumulate, so the result alone follows the formula that is computed.
-/

namespace FieldGraph

structure Flagged (α : Type) where
  value : α
  raised : Flags := ∅
  deriving DecidableEq

namespace Flagged

variable {α β : Type}

instance : Monad Flagged where
  pure a := ⟨a, ∅⟩
  bind x f := ⟨(f x.value).value, x.raised ∪ (f x.value).raised⟩

def vector {n : Nat} (f : Fin n → Flagged α) : Flagged (Vector α n) :=
  ⟨Vector.ofFn fun i => (f i).value, (List.ofFn fun i => (f i).raised).foldl (· ∪ ·) ∅⟩

/-! ## Laws -/

@[ext] theorem ext {x y : Flagged α} (hv : x.value = y.value) (hr : x.raised = y.raised) :
    x = y := by
  cases x; cases y; simp_all

@[simp] theorem value_pure (a : α) : (pure a : Flagged α).value = a := rfl

@[simp] theorem raised_pure (a : α) : (pure a : Flagged α).raised = ∅ := rfl

@[simp] theorem value_bind (x : Flagged α) (f : α → Flagged β) :
    (x >>= f).value = (f x.value).value := rfl

@[simp] theorem raised_bind (x : Flagged α) (f : α → Flagged β) :
    (x >>= f).raised = x.raised ∪ (f x.value).raised := rfl

theorem map_id_eq (x : Flagged α) : id <$> x = x := ext rfl (Flags.union_empty _)

theorem pure_bind_eq (a : α) (f : α → Flagged β) : pure a >>= f = f a :=
  ext rfl (Flags.empty_union _)

theorem bind_bind {γ : Type} (x : Flagged α) (f : α → Flagged β) (g : β → Flagged γ) :
    x >>= f >>= g = x >>= fun a => f a >>= g := ext rfl (Flags.union_assoc _ _ _)

instance : LawfulMonad Flagged := LawfulMonad.mk' Flagged map_id_eq pure_bind_eq bind_bind

end Flagged
end FieldGraph
