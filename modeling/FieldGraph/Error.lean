import FieldGraph.Binary64.Text
import FieldGraph.Text.Quoted

/-!
# Errors

What can go wrong while functions are built, specialized and evaluated. An
error is its cause; `Error.message` is its one wording.
-/

namespace FieldGraph

inductive BadArgument where
  | meshDimension (dim : Nat)
  | boundsLength
  | emptyAxis
  | boundsOrder
  | noComponents
  | nodalCount (expected actual : Nat)
  | notAField (kind : String)
  | fieldDimension (dim : Nat)
  | emptyConstant
  | other (text : String)
  deriving DecidableEq

def BadArgument.message : BadArgument → String
  | meshDimension dim => "Mesh dimensionality must be 1, 2 or 3, got " ++ toString dim ++ "."
  | boundsLength => "Mesh bounds must have one entry per dimension."
  | emptyAxis => "Mesh resolution must be at least one element per axis."
  | boundsOrder => "Mesh maximum coordinates must exceed minimum coordinates."
  | noComponents => "Mesh variable must have at least one component."
  | nodalCount expected actual =>
    "Mesh variable expects " ++ toString expected ++ " nodal values, got " ++ toString actual ++ "."
  | notAField kind =>
    "Provided object does not appear to be of 'MeshVariable' type (got '" ++ kind ++ "')."
  | fieldDimension dim =>
    "Mesh variable dimensionality must be 1, 2 or 3, got " ++ toString dim ++ "."
  | emptyConstant => "Constant function requires at least one value."
  | other text => text

inductive TopologyFault where
  | noElement (element count : Nat)
  | noNode (node count : Nat)
  | isolatedNode (node : Nat)
  | other (text : String)
  deriving DecidableEq

def TopologyFault.message : TopologyFault → String
  | noElement element count => "Element " ++ toString element ++ " does not exist; mesh has " ++
    toString count ++ " elements."
  | noNode node count => "Node " ++ toString node ++ " does not exist; mesh has " ++
    toString count ++ " nodes."
  | isolatedNode node => "Node " ++ toString node ++ " has no incident elements."
  | other text => text

inductive Error (K : Type) where
  | invalidArgument (cause : BadArgument)
  | typeMismatch (expected actual : String)
  | dimensionMismatch (expected actual : Nat)
  | componentOutOfRange (component size : Nat)
  | incompatibleInput (function : String)
  | shapeMismatch (left right : Nat)
  | outsideDomain (coordinates : List K)
  | topology (cause : TopologyFault)
  | floatingPoint (raised : Flags)
  | floatEnvironment (operation : String)
  deriving DecidableEq

namespace Error

def isSpecialization {K : Type} : Error K → Bool
  | dimensionMismatch .. | componentOutOfRange .. | incompatibleInput .. | shapeMismatch .. => true
  | _ => false

def message : Error Binary64 → String
  | invalidArgument cause => "Invalid argument: " ++ cause.message
  | typeMismatch expected actual => "Type mismatch: expected " ++ expected ++ ", got " ++ actual
  | dimensionMismatch expected actual =>
    "Function input dimensionality (" ++ toString actual ++
      ") does not appear to match mesh variable dimensionality (" ++ toString expected ++ ")."
  | componentOutOfRange component size =>
    "Trying to extract component " ++ toString component ++ " from object with size " ++
      toString size ++ ". Index must be in [0," ++ toString (size - 1) ++ "]."
  | incompatibleInput function =>
    "'" ++ function ++ "' does not appear to be compatible with provided input type."
  | shapeMismatch left right =>
    "Operand sizes " ++ toString left ++ " and " ++ toString right ++
      " are incompatible. Sizes must match or one must be scalar."
  | outsideDomain coordinates =>
    "FeVariable derivative interpolation at location (" ++
      String.intercalate ", " (coordinates.map Binary64.text) ++
      ") does not appear to be valid. Location is probably outside local domain."
  | topology cause => "Topology error: " ++ cause.message
  | floatingPoint raised =>
    "Floating point exception(s) encountered while evaluating SafeMaths argument function: " ++
      raised.text
  | floatEnvironment operation =>
    "Floating point environment operation '" ++ operation ++ "' failed"

def debugText : Error Binary64 → Flagged String
  | invalidArgument cause =>
    pure <| Text.record "InvalidArgument" [("message", Text.quoted cause.message)]
  | typeMismatch expected actual =>
    pure <| Text.record "TypeMismatch"
      [("expected", Text.quoted expected), ("actual", Text.quoted actual)]
  | dimensionMismatch expected actual =>
    pure <| Text.record "DimensionMismatch"
      [("expected", toString expected), ("actual", toString actual)]
  | componentOutOfRange component size =>
    pure <| Text.record "ComponentOutOfRange"
      [("component", toString component), ("size", toString size)]
  | incompatibleInput function =>
    pure <| Text.record "IncompatibleInput" [("function", Text.quoted function)]
  | shapeMismatch left right =>
    pure <| Text.record "ShapeMismatch" [("left", toString left), ("right", toString right)]
  | outsideDomain coordinates => do
    return Text.record "OutsideDomain" [("coordinates", ← Binary64.debugList coordinates)]
  | topology cause => pure <| Text.record "Topology" [("message", Text.quoted cause.message)]
  | floatingPoint raised =>
    pure <| Text.record "FloatingPoint" [("exceptions", raised.debugText)]
  | floatEnvironment operation =>
    pure <| Text.record "FloatEnvironment" [("operation", Text.quoted operation)]

/-- Equality of errors, with coordinates compared as numbers: a NaN differs from itself. -/
def eq : Error Binary64 → Error Binary64 → Bool
  | outsideDomain xs, outsideDomain ys =>
    xs.length = ys.length && (xs.zip ys).all fun (x, y) => x.eq y
  | a, b => a = b

end Error
end FieldGraph
