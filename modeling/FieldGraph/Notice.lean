import FieldGraph.Graph.Operation
import FieldGraph.Sample.Form

/-!
# The journal

Building, specializing and evaluating functions leave a journal: notices for a
log, and the passages through traced functions.
-/

namespace FieldGraph

inductive Level where
  | warn | debug | trace
  deriving DecidableEq

def Level.text : Level → String
  | warn => "WARN"
  | debug => "DEBUG"
  | trace => "TRACE"

inductive Route where
  | element | node | global
  deriving DecidableEq

inductive Notice where
  | meshCreated (dim elements nodes : Nat)
  | extracting (component size start stop : Nat)
  | broadcasting (left : String) (op : BinaryOp) (right : String) (size : Nat) (mode : Broadcast)
  | gradientRoute (route : Route)
  | foreignDescriptor (form : SampleForm)
  | cacheHit (form : SampleForm)
  | specializing (root : String) (form : SampleForm)
  | evicted (form : SampleForm)
  deriving DecidableEq

namespace Notice

def level : Notice → Level
  | foreignDescriptor _ => .warn
  | cacheHit _ => .trace
  | _ => .debug

def message : Notice → String
  | meshCreated dim elements nodes =>
    "Created " ++ toString dim ++ "D Cartesian mesh with " ++ toString elements ++
      " elements and " ++ toString nodes ++ " nodes"
  | extracting component size start stop =>
    "At: extracting component " ++ toString component ++ " of " ++ toString size ++
      " (bytes " ++ toString start ++ ".." ++ toString stop ++ ")"
  | broadcasting left op right size mode =>
    "Binary: '" ++ left ++ "' " ++ op.symbol ++ " '" ++ right ++ "' over " ++ toString size ++
      " component(s) (" ++ mode.debugText ++ ")"
  | gradientRoute .element => "GradFeVariableFn: element-local interpolation"
  | gradientRoute .node => "GradFeVariableFn: node interpolation via last incident element"
  | gradientRoute .global => "GradFeVariableFn: global coordinate interpolation"
  | foreignDescriptor form =>
    "GradFeVariableFn: " ++ form.text ++
      " descriptor is not on the variable's mesh, locating its global position"
  | cacheHit form => "Specialization cache hit for " ++ form.text
  | specializing root form => "Specializing '" ++ root ++ "' for " ++ form.text
  | evicted form => "Evicted specialization for " ++ form.text

def text (n : Notice) : String := n.level.text ++ " " ++ n.message

end Notice

inductive Phase where
  | specialize | evaluate
  deriving DecidableEq

def Phase.text : Phase → String
  | specialize => "specialize"
  | evaluate => "evaluate"

inductive Entry where
  | notice (n : Notice)
  | passage (phase : Phase) (label : String)
  deriving DecidableEq

end FieldGraph
