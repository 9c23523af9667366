import FieldGraph.Graph.Node

/-!
# Debug texts of functions

A function is written with the names of its parts, one within the other.
-/

namespace FieldGraph

def Node.debugText {M V : Type} [Mesh Binary64 M] [FieldVariable Binary64 M V]
    (fieldText : V → Flagged String) : Node V → Flagged String
  | input => pure "InputFn"
  | constant value => do return Text.record "Constant" [("value", ← value.debugText)]
  | component function i => do
    return Text.record "At"
      [("function", "Some(" ++ (← function.debugText fieldText) ++ ")"),
        ("component", toString i)]
  | inputComponent i =>
    pure <| Text.record "At" [("function", "None"), ("component", toString i)]
  | binary left right op => do
    return Text.record "Binary"
      [("left", ← left.debugText fieldText), ("right", ← right.debugText fieldText),
        ("op", op.debugText)]
  | unary function op => do
    return Text.record "MathUnary"
      [("function", ← function.debugText fieldText), ("op", op.debugText)]
  | guarded function => do
    return Text.record "SafeMaths" [("function", ← function.debugText fieldText)]
  | gradient g => do
    return Text.record Gradient.name
      [("variable", ← fieldText g.field), ("components", toString g.components),
        ("dim", toString g.dim)]
  | traced label function => do
    return "Trace(" ++ Text.quoted label ++ ", " ++ (← function.debugText fieldText) ++ ")"
  | refusing => pure "Refuse"

end FieldGraph
