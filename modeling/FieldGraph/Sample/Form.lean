/-!
# Forms of samples

How a sample point was given, as far as texts show it.
-/

namespace FieldGraph

inductive SampleForm where
  | value (size : Nat)
  | element
  | node
  deriving DecidableEq

def SampleForm.text : SampleForm → String
  | value size => "value of size " ++ toString size
  | element => "FEMCoordinate"
  | node => "MeshCoordinate"

end FieldGraph
