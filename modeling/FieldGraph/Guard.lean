import FieldGraph.Eval

/-!
# Guards

A guard sets the raised exceptions aside, so that what is raised while it is
held can be told apart, and puts them back when it is released. Whatever was
raised under the guard is then forgotten.
-/

namespace FieldGraph

structure Guard where
  saved : Flags

namespace Guard

variable {K α : Type}

def take : StateM Context Guard := fun c => (⟨c.flags⟩, { c with flags := ∅ })

def hold : Eval K Guard := take

def raised : Eval K Flags := fun c => (.ok c.flags, c)

def release (g : Guard) : Eval K Unit := fun c => (.ok (), { c with flags := g.saved })

def check (g : Guard) : Eval K Unit := do
  let found ← raised
  g.release
  if found.isEmpty then pure () else Eval.fail (.floatingPoint found)

/-- End an evaluation that ran under the guard, which is released on every way out. An error of
the evaluation itself comes before what it raised. -/
def conclude (g : Guard) : Except (Failure K) α → Eval K α
  | .ok a => do
    g.check
    return a
  | .error failure => do
    g.release
    throw failure

end Guard
end FieldGraph
