import FieldGraph.Graph.Closure

/-!
# Function graphs

A function is built from others. Specializing it for a sample inspects the
sample once and gives a closure, which is then evaluated at any number of
samples. Where a function must know the size of what another one delivers, it
specializes that one and evaluates it once at the sample.
-/

namespace FieldGraph

inductive Node (V : Type) where
  | input
  | constant (value : Container Binary64)
  | component (function : Node V) (i : Nat)
  | inputComponent (i : Nat)
  | binary (left right : Node V) (op : BinaryOp)
  | unary (function : Node V) (op : UnaryOp)
  | guarded (function : Node V)
  | gradient (g : Gradient V)
  /-- A function whose use is written to the journal. -/
  | traced (label : String) (function : Node V)
  /-- A function that no sample suits. -/
  | refusing

namespace Node

variable {V : Type}

/-- A constant; a single value is a scalar. -/
def constantOf (values : List Binary64) (shape : Option Shape) :
    Except (Error Binary64) (Node V) :=
  if values.isEmpty then .error (.invalidArgument .emptyConstant)
  else .ok (.constant ⟨shape.getD (if values.length = 1 then .scalar else .array), values⟩)

def name : Node V → String
  | input => "Input"
  | constant _ => "Constant"
  | component .. => "At"
  | inputComponent _ => "At"
  | binary .. => "Binary"
  | unary _ op => op.name
  | guarded _ => "SafeMaths"
  | gradient _ => Gradient.name
  | traced .. => "Trace"
  | refusing => "Refuse"

/-- The fields whose gradients a function takes, and keeps as long as it exists itself. -/
def fields : Node V → List V
  | component function _ => function.fields
  | binary left right _ => left.fields ++ right.fields
  | unary function _ => function.fields
  | guarded function => function.fields
  | gradient g => [g.field]
  | traced _ function => function.fields
  | _ => []

end Node

section
variable {M V : Type} [Mesh Binary64 M] [FieldVariable Binary64 M V] [DecidableEq M]

namespace Node

def specializeComponent (s : Sample Binary64 M) (inner : Closure V) (i : Nat) :
    Eval Binary64 (Closure V) := do
  let (probe, inner) ← inner.probe s
  if probe.size ≤ i then Eval.fail (.componentOutOfRange i probe.size)
  let start := Binary64.byteCount * i
  let stop := Binary64.byteCount * (i + 1)
  Eval.notify (.extracting i probe.size start stop)
  return .component inner start stop (.scalar (.zero false))

def specialize (s : Sample Binary64 M) : Node V → Eval Binary64 (Closure V)
  | input => pure .input
  | constant value => pure (.constant value)
  | component function i => do specializeComponent s (← function.specialize s) i
  | inputComponent i => specializeComponent s .input i
  | binary left right op => do
    let l ← left.specialize s
    let r ← right.specialize s
    let (leftProbe, l) ← l.probe s
    let (rightProbe, r) ← r.probe s
    match Broadcast.ofSizes? leftProbe.size rightProbe.size with
    | none => Eval.fail (.shapeMismatch leftProbe.size rightProbe.size)
    | some mode =>
      let wider := if mode = .leftScalar then rightProbe else leftProbe
      Eval.notify (.broadcasting left.name op right.name wider.size mode)
      return .binary l r op mode wider.blank
  | unary function op => do
    let (probe, inner) ← (← function.specialize s).probe s
    return .unary inner op probe.blank
  | guarded function => return .guarded (← function.specialize s)
  | gradient g => return .gradient g (← g.specialize s) g.output
  | traced label function => do
    Eval.record (.passage .specialize label)
    return .traced label (← function.specialize s)
  | refusing => Eval.fail (.typeMismatch "nothing" s.form.text)

end Node
end
end FieldGraph
