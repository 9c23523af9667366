import FieldGraph.Mesh.Basic

/-!
# Fields on meshes

What functions need of a field: its mesh, how many components it has, and its
spatial derivatives within an element or at a point of space. The derivative of
component `i` along axis `k` is entry `i * dim + k`.
-/

namespace FieldGraph

/-- Where a point was found, seen from the part of the mesh that is at hand. -/
inductive Whereabouts where
  | owned
  | shadow
  | otherProcess
  | outside
  deriving DecidableEq

def Whereabouts.isUsable : Whereabouts → Bool
  | owned | shadow => true
  | otherProcess | outside => false

/-- The outcome of interpolating at a point of space; derivatives may come with any whereabouts. -/
structure Interpolation (K : Type) where
  whereabouts : Whereabouts
  derivatives : Option (List K)

class FieldVariable (K M : outParam Type) [Mesh K M] (V : Type) where
  mesh : V → M
  /-- The mesh that numbers the elements of element-local coordinates. -/
  elementMesh : V → M
  components : V → Nat
  derivativesIn : V → Nat → List K → Calc (List K)
  derivativesAt : V → List K → Calc (Interpolation K)

def FieldVariable.dim {K M V : Type} [Mesh K M] [FieldVariable K M V] (v : V) : Nat :=
  Mesh.dim (FieldVariable.mesh v)

inductive Discretization (M V : Type) where
  | mesh (m : M)
  | field (v : V)

def Discretization.kindName {M V : Type} : Discretization M V → String
  | .mesh _ => "Mesh"
  | .field _ => "MeshVariable"

end FieldGraph
