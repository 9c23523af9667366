import FieldGraph.Evaluator.Basic
import FieldGraph.Graph.Text

/-!
# Evaluators of function graphs
-/

namespace FieldGraph

variable {M V : Type} [Mesh Binary64 M] [FieldVariable Binary64 M V] [DecidableEq M]

instance : Specializable Binary64 (Sample Binary64 M) SampleKind (Closure V) (Node V) where
  name := Node.name
  kind _ s := s.kind
  form _ k := k.form
  specialize f s := f.specialize s
  run _ c s := c.run s

abbrev GraphEvaluator (V : Type) := Evaluator SampleKind (Closure V) (Node V)

def GraphEvaluator.ofNode {V : Type} (root : Node V) (settings : Settings) : GraphEvaluator V :=
  .ofRoot (if settings.guarding then .guarded root else root) settings

def GraphEvaluator.create {V : Type} (root : Node V) (settings : Settings) :
    Calc (GraphEvaluator V) := do
  Recency.reserve settings.capacity
  return .ofNode root settings

def GraphEvaluator.debugText (fieldText : V → Flagged String) (ev : GraphEvaluator V) :
    Flagged String := do
  return Text.record "FunctionEvaluator"
    [("root", ← ev.root.debugText fieldText), ("config", ev.settings.debugText),
      ("specializations", toString ev.closures.size), ("stats", ev.stats.debugText)]

end FieldGraph
