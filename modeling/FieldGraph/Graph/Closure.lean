import FieldGraph.Gradient
import FieldGraph.Graph.Operation
import FieldGraph.Guard

/-!
# Closures

A closure is a function prepared for the samples of one kind. Where the
function computes something new, the closure owns a container for it, which
every call overwrites: a closure changes from call to call, also when a call
fails halfway.
-/

namespace FieldGraph

inductive Closure (V : Type) where
  | input
  | constant (value : Container Binary64)
  | component (function : Closure V) (start stop : Nat) (output : Container Binary64)
  | binary (left right : Closure V) (op : BinaryOp) (mode : Broadcast)
      (output : Container Binary64)
  | unary (function : Closure V) (op : UnaryOp) (output : Container Binary64)
  | guarded (function : Closure V)
  | gradient (g : Gradient V) (route : Route) (output : Container Binary64)
  | traced (label : String) (function : Closure V)

abbrev ClosureRun (V : Type) := Run Binary64 (Container Binary64) (Closure V)

namespace Closure

/-! ## What is computed from the operands -/

def extract (c : Container Binary64) (start stop : Nat) : Eval Binary64 Binary64 :=
  match c.byteRange? start stop with
  | some bytes => pure (Binary64.ofBytes bytes)
  | none => Eval.fail
      (.componentOutOfRange (start / Binary64.byteCount) (c.bytes.length / Binary64.byteCount))

def combine (op : BinaryOp) (mode : Broadcast) (output l r : Container Binary64) :
    Eval Binary64 (List Binary64) := do
  if (l.size, r.size) ≠ mode.operandSizes output.size then
    Eval.fail (.shapeMismatch l.size r.size)
  Eval.calculate (.ofFlagged ((mode.pairs l.data r.data).mapM fun (x, y) => op.apply x y))

def transform (op : UnaryOp) (output c : Container Binary64) : Eval Binary64 (List Binary64) := do
  if c.size ≠ output.size then Eval.fail (.shapeMismatch c.size output.size)
  Eval.calculate (.ofFlagged (c.data.mapM op.apply))

/-! ## Calls -/

variable {M V : Type}

/-- Write what `body` computes to an output and deliver the output. When `body` fails, the output
stays as it was. -/
def deliver (output : Container Binary64) (rebuild : Container Binary64 → Closure V)
    (body : Eval Binary64 (List Binary64)) : StateM Context (ClosureRun V) := do
  match ← body.run with
  | .ok data => return ⟨.ok (output.write data), rebuild (output.write data)⟩
  | .error failure => return ⟨.error failure, rebuild output⟩

variable [Mesh Binary64 M] [FieldVariable Binary64 M V] [DecidableEq M]

def run (s : Sample Binary64 M) : Closure V → StateM Context (ClosureRun V)
  | input => return ⟨.ok s.position, input⟩
  | constant value => return ⟨.ok value, constant value⟩
  | component function start stop output => do
    let inner ← function.run s
    deliver output (component inner.after start stop) do
      return [← extract (← Eval.resume inner.outcome) start stop]
  | binary left right op mode output => do
    let l ← left.run s
    match l.outcome with
    -- the right operand is left alone
    | .error failure => return ⟨.error failure, binary l.after right op mode output⟩
    | .ok x => do
      let r ← right.run s
      deliver output (binary l.after r.after op mode) do
        combine op mode output x (← Eval.resume r.outcome)
  | unary function op output => do
    let inner ← function.run s
    deliver output (unary inner.after op) do
      transform op output (← Eval.resume inner.outcome)
  | guarded function => do
    let guard ← Guard.take
    let inner ← function.run s
    let outcome ← (guard.conclude inner.outcome).run
    return ⟨outcome, guarded inner.after⟩
  | gradient g route output => deliver output (gradient g route) (g.evaluate route s)
  | traced label function => do
    Context.record (.passage .evaluate label)
    let inner ← function.run s
    return ⟨inner.outcome, traced label inner.after⟩

def evaluate (s : Sample Binary64 M) (c : Closure V) : Eval Binary64 (Container Binary64) := do
  let call ← c.run s
  Eval.resume call.outcome

def probe (s : Sample Binary64 M) (c : Closure V) :
    Eval Binary64 (Container Binary64 × Closure V) := do
  let call ← c.run s
  return (← Eval.resume call.outcome, call.after)

end Closure
end FieldGraph
