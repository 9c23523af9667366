import FieldGraph.Calc
import FieldGraph.Error
import FieldGraph.Notice

/-!
# Evaluation

Evaluation runs in a context: the exceptions that are raised at the moment,
which only a guard takes back, and the journal. It may fail; what it raised and
wrote before it failed remains.
-/

namespace FieldGraph

structure Context where
  flags : Flags := ∅
  journal : List Entry := []

/-- Why an evaluation stopped: an error of the library, or an index or a size beyond its bounds. -/
inductive Failure (K : Type) where
  | error (e : Error K)
  | outOfBounds
  deriving DecidableEq

abbrev Eval (K : Type) := ExceptT (Failure K) (StateM Context)

/-- The outcome of evaluating something that changes on the way, and what it is afterwards. -/
structure Run (K α γ : Type) where
  outcome : Except (Failure K) α
  after : γ

namespace Context

def record (e : Entry) : StateM Context Unit := fun c =>
  ((), { c with journal := c.journal ++ [e] })

def notify (n : Notice) : StateM Context Unit := record (.notice n)

end Context

namespace Eval

variable {K α : Type}

def fail (e : Error K) : Eval K α := throw (.error e)

/-- Perform a calculation: what it raises joins what is raised already. -/
def calculate (x : Calc α) : Eval K α := fun c =>
  (match x.result with
    | some a => .ok a
    | none => .error .outOfBounds,
    { c with flags := c.flags ∪ x.raised })

def resume (outcome : Except (Failure K) α) : Eval K α := fun c => (outcome, c)

def record (e : Entry) : Eval K Unit := Context.record e

def notify (n : Notice) : Eval K Unit := record (.notice n)

theorem bind_apply {β : Type} (m : Eval K α) (f : α → Eval K β) (c : Context) :
    (m >>= f) c = match m c with
      | (.ok a, c') => f a c'
      | (.error failure, c') => (.error failure, c') := by
  show ExceptT.bindCont (m := StateM Context) f (m c).1 (m c).2 = _
  obtain ⟨o, c'⟩ := m c
  cases o <;> rfl

end Eval
end FieldGraph
