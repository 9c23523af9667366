import FieldGraph.Flagged

/-!
# Calculations

A calculation on indexed data has a result, unless an index or a size ran out of
its bounds, and the exceptions that its operations raised before that. Results
do not depend on exceptions: by `result_bind` they compose like `Option`.
-/

namespace FieldGraph

structure Calc (α : Type) where
  result : Option α
  raised : Flags := ∅

namespace Calc

variable {α β : Type}

instance : Monad Calc where
  pure a := ⟨some a, ∅⟩
  bind x f :=
    match x.result with
    | none => ⟨none, x.raised⟩
    | some a => ⟨(f a).result, x.raised ∪ (f a).raised⟩

def ofFlagged (x : Flagged α) : Calc α := ⟨some x.value, x.raised⟩

instance : MonadLift Flagged Calc := ⟨ofFlagged⟩

def read (x : Option α) : Calc α := ⟨x, ∅⟩

/-! ## Laws -/

@[ext] theorem ext {x y : Calc α} (hr : x.result = y.result) (hf : x.raised = y.raised) : x = y := by
  cases x; cases y; simp_all

@[simp] theorem result_pure (a : α) : (pure a : Calc α).result = some a := rfl

@[simp] theorem raised_pure (a : α) : (pure a : Calc α).raised = ∅ := rfl

@[simp] theorem result_ofFlagged (x : Flagged α) : (ofFlagged x).result = some x.value := rfl

@[simp] theorem raised_ofFlagged (x : Flagged α) : (ofFlagged x).raised = x.raised := rfl

@[simp] theorem result_read (x : Option α) : (read x).result = x := rfl

@[simp] theorem raised_read (x : Option α) : (read x).raised = ∅ := rfl

theorem result_bind (x : Calc α) (f : α → Calc β) :
    (x >>= f).result = x.result.bind fun a => (f a).result := by
  show (match x.result with
    | none => ⟨none, x.raised⟩
    | some a => ⟨(f a).result, x.raised ∪ (f a).raised⟩ : Calc β).result = _
  cases x.result <;> rfl

theorem bind_of_none {x : Calc α} (h : x.result = none) (f : α → Calc β) :
    x >>= f = ⟨none, x.raised⟩ := by
  show (match x.result with
    | none => ⟨none, x.raised⟩
    | some a => ⟨(f a).result, x.raised ∪ (f a).raised⟩ : Calc β) = _
  rw [h]

theorem bind_of_some {x : Calc α} {a : α} (h : x.result = some a) (f : α → Calc β) :
    x >>= f = ⟨(f a).result, x.raised ∪ (f a).raised⟩ := by
  show (match x.result with
    | none => ⟨none, x.raised⟩
    | some a => ⟨(f a).result, x.raised ∪ (f a).raised⟩ : Calc β) = _
  rw [h]

theorem map_id_eq (x : Calc α) : id <$> x = x := by
  show x >>= (fun a => pure (id a)) = x
  cases h : x.result with
  | none => rw [bind_of_none h]; exact ext h.symm rfl
  | some a => rw [bind_of_some h]; exact ext h.symm (Flags.union_empty _)

theorem pure_bind_eq (a : α) (f : α → Calc β) : pure a >>= f = f a := by
  rw [bind_of_some (result_pure a)]; exact ext rfl (Flags.empty_union _)

theorem bind_bind {γ : Type} (x : Calc α) (f : α → Calc β) (g : β → Calc γ) :
    x >>= f >>= g = x >>= fun a => f a >>= g := by
  cases h : x.result with
  | none =>
    rw [bind_of_none h f, bind_of_none h fun a => f a >>= g]
    exact bind_of_none rfl g
  | some a =>
    rw [bind_of_some h f, bind_of_some h fun a => f a >>= g]
    cases h' : (f a).result with
    | none => rw [bind_of_none rfl, bind_of_none h']
    | some b =>
      rw [bind_of_some rfl, bind_of_some h']
      exact ext rfl (Flags.union_assoc _ _ _)

instance : LawfulMonad Calc := LawfulMonad.mk' Calc map_id_eq pure_bind_eq bind_bind

end Calc
end FieldGraph
