import FieldGraph.Calc

/-!
# Meshes

What functions need of a mesh: its address, its size, where its nodes are, which
elements meet at a node, and the coordinates within an element. Indices are not
promised to be in range; reading beyond a mesh has no result.
-/

namespace FieldGraph

class Mesh (K : outParam Type) (M : Type) where
  /-- Where a mesh is kept: one that comes later may be kept where one was before. -/
  address : M → Nat
  dim : M → Nat
  nodeCount : M → Nat
  elementCount : M → Nat
  vertex : M → Nat → Option (List K)
  nodeElements : M → Nat → Option (List Nat)
  toLocal : M → Nat → List K → Calc (List K)
  toGlobal : M → Nat → List K → Calc (List K)

end FieldGraph
