import FieldGraph.Container
import FieldGraph.Eval
import FieldGraph.Evaluator.Recency
import FieldGraph.Evaluator.Settings

/-!
# Evaluators

An evaluator holds a function and the closures made from it. The first sample
of a kind specializes the function, later ones of the kind call the closure
again, as earlier calls have left it; closures are kept by recency. A call
answers a result or a failure and always leaves an evaluator: statistics count
failing calls too, but a specialization that fails leaves the store of closures
as it was.
-/

namespace FieldGraph

/-- What an evaluator needs of functions: samples of type `σ` come in kinds of type `κ`, and a
function is specialized to closures of type `γ`. -/
class Specializable (K σ κ γ : outParam Type) (F : Type) where
  name : F → String
  kind : F → σ → κ
  form : F → κ → SampleForm
  specialize : F → σ → Eval K γ
  run : F → γ → σ → StateM Context (Run K (Container K) γ)

structure Evaluator (κ γ F : Type) where
  root : F
  settings : Settings
  closures : Recency κ γ
  stats : Stats := {}

structure Call (K κ γ F : Type) where
  outcome : Except (Failure K) (Container K)
  evaluator : Evaluator κ γ F

namespace Evaluator

variable {K σ κ γ F : Type}

def ofRoot (root : F) (settings : Settings) : Evaluator κ γ F :=
  { root, settings, closures := { capacity := settings.capacity } }

def clear (ev : Evaluator κ γ F) : Evaluator κ γ F :=
  { ev with closures := ev.closures.clear, stats := {} }

variable [Specializable K σ κ γ F]

def evaluateFresh (ev : Evaluator κ γ F) (s : σ) : StateM Context (Call K κ γ F) := do
  match ← (Specializable.specialize ev.root s).run with
  | .error failure => return ⟨.error failure, { ev with stats := ev.stats.miss }⟩
  | .ok closure =>
    let run ← Specializable.run ev.root closure s
    return ⟨run.outcome, { ev with stats := ev.stats.miss }⟩

variable [DecidableEq κ]

def evaluateCached (ev : Evaluator κ γ F) (s : σ) : StateM Context (Call K κ γ F) := do
  let kind := Specializable.kind ev.root s
  let form := Specializable.form ev.root
  match ev.closures.find? kind with
  | some closure =>
    Context.notify (.cacheHit (form kind))
    let run ← Specializable.run ev.root closure s
    return ⟨run.outcome,
      { ev with closures := ev.closures.refresh kind run.after, stats := ev.stats.hit }⟩
  | none =>
    Context.notify (.specializing (Specializable.name ev.root) (form kind))
    match ← (Specializable.specialize ev.root s).run with
    | .error failure => return ⟨.error failure, { ev with stats := ev.stats.miss }⟩
    | .ok closure =>
      let stats ←
        match ev.closures.victim? with
        | none => pure ev.stats.miss
        | some victim =>
          Context.notify (.evicted (form victim))
          pure ev.stats.miss.evict
      let run ← Specializable.run ev.root closure s
      return ⟨run.outcome, { ev with closures := ev.closures.insert kind run.after, stats }⟩

def evaluate (ev : Evaluator κ γ F) (s : σ) : StateM Context (Call K κ γ F) :=
  if ev.settings.caching then ev.evaluateCached s else ev.evaluateFresh s

end Evaluator
end FieldGraph
