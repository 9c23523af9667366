import FieldGraph.Field.Nodal
import FieldGraph.Sample.Basic

/-!
# Gradients of fields

The spatial derivatives of a field as a function of the sample. The kind of the
sample that a gradient is specialized for decides once how it interpolates: a
point of an element of the field's mesh in place, a node of the field's mesh in
the last element that meets there, and all else by looking for the element that
contains the position.
-/

namespace FieldGraph

structure Gradient (V : Type) where
  field : V

namespace Gradient

variable {K M V : Type} [Mesh K M] [FieldVariable K M V]

def name : String := "GradFeVariableFn"

def create : Discretization M V → Except (Error K) (Gradient V)
  | .mesh m => .error (.invalidArgument (.notAField (Discretization.mesh (V := V) m).kindName))
  | .field v =>
    if FieldVariable.components v = 0 then .error (.invalidArgument .noComponents)
    else if FieldVariable.dim v = 0 ∨ 3 < FieldVariable.dim v then
      .error (.invalidArgument (.fieldDimension (FieldVariable.dim v)))
    else .ok ⟨v⟩

variable (g : Gradient V)

def components : Nat := FieldVariable.components g.field

def dim : Nat := FieldVariable.dim g.field

def outputSize : Nat := g.components * g.dim

def outputShape : Shape := if g.dim = 1 then .vector else .tensor

def output [Scalar K] : Container K :=
  ⟨g.outputShape, List.replicate g.outputSize (Scalar.ofRat 0)⟩

/-- Settle on a route; the container for the derivatives is made at the same time. -/
def take (route : Route) (n : Notice) : Eval K Route := do
  Eval.notify n
  Eval.calculate (Calc.reserve g.outputSize)
  return route

variable [DecidableEq M]

def specialize (s : Sample K M) : Eval K Route :=
  let elsewhere : Eval K Route := do
    if s.position.size ≠ g.dim then Eval.fail (.incompatibleInput name)
    g.take .global (.foreignDescriptor s.form)
  match s with
  | .element p =>
    if p.mesh = FieldVariable.elementMesh g.field then g.take .element (.gradientRoute .element)
    else elsewhere
  | .node p =>
    if p.mesh = FieldVariable.mesh g.field then g.take .node (.gradientRoute .node)
    else elsewhere
  | .value c => do
    if c.size ≠ g.dim then Eval.fail (.dimensionMismatch g.dim c.size)
    g.take .global (.gradientRoute .global)

def evaluateElement (s : Sample K M) : Eval K (List K) :=
  match s with
  | .element p =>
    if p.mesh = FieldVariable.elementMesh g.field then
      Eval.calculate (FieldVariable.derivativesIn g.field p.element p.coordinates)
    else Eval.fail (.typeMismatch "element-local coordinate on the variable's element mesh"
      "element-local coordinate on another mesh")
  | _ => Eval.fail (.typeMismatch "element-local coordinate" s.form.text)

/-- Interpolate in the last element that meets at the node. -/
def evaluateNode (s : Sample K M) : Eval K (List K) :=
  match s with
  | .node p =>
    let mesh := FieldVariable.mesh g.field
    if p.mesh = mesh then do
      let elements ← Eval.calculate (.read (Mesh.nodeElements mesh p.node))
      match elements.getLast? with
      | none => Eval.fail (.topology (.isolatedNode p.node))
      | some element =>
        Eval.calculate do
          let ξ ← Mesh.toLocal mesh element p.position.data
          FieldVariable.derivativesIn g.field element ξ
    else Eval.fail (.typeMismatch "node of the variable's mesh" "node of another mesh")
  | _ => Eval.fail (.typeMismatch "mesh node" s.form.text)

/-- Interpolate at the position, wherever it is. A field may leave the output as it was. -/
def evaluateGlobal (s : Sample K M) : Eval K (List K) := do
  let position := s.position
  if position.size ≠ g.dim then Eval.fail (.dimensionMismatch g.dim position.size)
  let found ← Eval.calculate (FieldVariable.derivativesAt g.field position.data)
  if found.whereabouts.isUsable then return found.derivatives.getD []
  else Eval.fail (.outsideDomain position.data)

def evaluate (route : Route) (s : Sample K M) : Eval K (List K) :=
  match route with
  | .element => g.evaluateElement s
  | .node => g.evaluateNode s
  | .global => g.evaluateGlobal s

end Gradient
end FieldGraph
