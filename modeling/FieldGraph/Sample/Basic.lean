import FieldGraph.Container
import FieldGraph.Eval
import FieldGraph.Mesh.Basic
import FieldGraph.Sample.Form

/-!
# Sample points

A function is evaluated at a sample: a raw value, a point in the coordinates of
an element, or a node. The last two are descriptors: they name a mesh, and keep
their position in space for functions that know nothing of meshes. Samples of
one kind share what was prepared for the first of them. A kind does not keep the
mesh of a descriptor, only its address.
-/

namespace FieldGraph

structure ElementPoint (K M : Type) where
  mesh : M
  element : Nat
  coordinates : List K
  position : Container K

structure NodePoint (K M : Type) where
  mesh : M
  node : Nat
  position : Container K

inductive Sample (K M : Type) where
  | value (c : Container K)
  | element (p : ElementPoint K M)
  | node (p : NodePoint K M)

/-- What samples have in common that can share a closure. -/
inductive SampleKind where
  | value (size : Nat)
  | element (address : Nat)
  | node (address : Nat)
  deriving DecidableEq

section
variable {K M : Type} [Mesh K M]

def ElementPoint.create (mesh : M) (element : Nat) (ξ : List K) : Eval K (ElementPoint K M) := do
  if ξ.length ≠ Mesh.dim mesh then Eval.fail (.dimensionMismatch (Mesh.dim mesh) ξ.length)
  if Mesh.elementCount mesh ≤ element then
    Eval.fail (.topology (.noElement element (Mesh.elementCount mesh)))
  let position ← Eval.calculate (Mesh.toGlobal mesh element ξ)
  return ⟨mesh, element, ξ, .vector position⟩

def NodePoint.create (mesh : M) (node : Nat) : Eval K (NodePoint K M) := do
  if Mesh.nodeCount mesh ≤ node then
    Eval.fail (.topology (.noNode node (Mesh.nodeCount mesh)))
  let position ← Eval.calculate (.read (Mesh.vertex mesh node))
  return ⟨mesh, node, .vector position⟩

end

namespace Sample

variable {K M : Type}

def position : Sample K M → Container K
  | value c => c
  | element p => p.position
  | node p => p.position

def kind [Mesh K M] : Sample K M → SampleKind
  | value c => .value c.size
  | element p => .element (Mesh.address p.mesh)
  | node p => .node (Mesh.address p.mesh)

end Sample

def SampleKind.form : SampleKind → SampleForm
  | value size => .value size
  | element _ => .element
  | node _ => .node

def Sample.form {K M : Type} [Mesh K M] (s : Sample K M) : SampleForm := s.kind.form

/-! ## Text -/

def ElementPoint.debugText {M : Type} (p : ElementPoint Binary64 M) : Flagged String := do
  return Text.record "FemCoordinate"
    [("element", toString p.element), ("local", ← Binary64.debugList p.coordinates),
      ("position", ← Binary64.debugList p.position.data)]

def NodePoint.debugText {M : Type} (p : NodePoint Binary64 M) : Flagged String := do
  return Text.record "MeshCoordinate"
    [("index", toString p.node), ("position", ← Binary64.debugList p.position.data)]

def Sample.debugText {M : Type} : Sample Binary64 M → Flagged String
  | value c => do return "Value(" ++ (← c.debugText) ++ ")"
  | element p => do return "Fem(" ++ (← p.debugText) ++ ")"
  | node p => do return "Mesh(" ++ (← p.debugText) ++ ")"

end FieldGraph
