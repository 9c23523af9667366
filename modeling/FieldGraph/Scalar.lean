import FieldGraph.Binary64.Arithmetic

/-!
# Scalars

Meshes, fields and gradients compute with any kind of scalar. Double precision
is the arithmetic that runs; rational numbers are the exact reading of the same
formulas, in which nothing is rounded and no exception is raised.
-/

namespace FieldGraph

class Scalar (K : Type) where
  add : K → K → Flagged K
  sub : K → K → Flagged K
  mul : K → K → Flagged K
  div : K → K → Flagged K
  ofRat : Rat → K
  lt : K → K → Bool
  isFinite : K → Bool
  /-- The whole part, kept between `0` and a last index. -/
  floorWithin : Nat → K → Flagged Nat

instance : Scalar Binary64 where
  add := Binary64.add
  sub := Binary64.sub
  mul := Binary64.mul
  div := Binary64.div
  ofRat := Binary64.ofRat
  lt := Binary64.lt
  isFinite := Binary64.isFinite
  floorWithin := Binary64.floorWithin

instance : Scalar Rat where
  add x y := ⟨x + y, ∅⟩
  sub x y := ⟨x - y, ∅⟩
  mul x y := ⟨x * y, ∅⟩
  div x y := ⟨x / y, ∅⟩
  ofRat q := q
  lt x y := x < y
  isFinite _ := true
  floorWithin last x := ⟨min x.floor.toNat last, ∅⟩

end FieldGraph
