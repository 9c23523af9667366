import FieldGraph.Evaluator.Basic

/-!
# Histories

What is asked of an evaluator in the course of time. Between two calls the
caller may do anything with the context.
-/

namespace FieldGraph

inductive Request (σ : Type) where
  | evaluate (s : σ)
  | clear
  /-- Work of the caller's own. -/
  | outside (work : StateM Context Unit)

namespace Evaluator

variable {K σ κ γ F : Type} [Specializable K σ κ γ F] [DecidableEq κ]

def history (ev : Evaluator κ γ F) : List (Request σ) →
    StateM Context (List (Except (Failure K) (Container K)) × Evaluator κ γ F)
  | [] => return ([], ev)
  | .evaluate s :: rest => do
    let call ← ev.evaluate s
    let (answers, last) ← call.evaluator.history rest
    return (call.outcome :: answers, last)
  | .clear :: rest => ev.clear.history rest
  | .outside work :: rest => do
    work
    ev.history rest

end Evaluator
end FieldGraph
