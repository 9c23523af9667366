import FieldGraph.Binary64.Elementary

/-!
# Operations on components

The arithmetic between two components, the elementary functions of one, and
the ways in which two lists of components are paired.
-/

namespace FieldGraph

inductive BinaryOp where
  | add | subtract | multiply | divide
  deriving DecidableEq

namespace BinaryOp

def apply : BinaryOp → Binary64 → Binary64 → Flagged Binary64
  | add => Binary64.add
  | subtract => Binary64.sub
  | multiply => Binary64.mul
  | divide => Binary64.div

def symbol : BinaryOp → String
  | add => "+"
  | subtract => "-"
  | multiply => "*"
  | divide => "/"

def debugText : BinaryOp → String
  | add => "Add"
  | subtract => "Subtract"
  | multiply => "Multiply"
  | divide => "Divide"

end BinaryOp

inductive UnaryOp where
  | sqrt | exp | log | abs | sin | cos | tan
  deriving DecidableEq

namespace UnaryOp

def apply : UnaryOp → Binary64 → Flagged Binary64
  | sqrt => Binary64.sqrt
  | exp => Binary64.exp
  | log => Binary64.log
  | abs => fun x => ⟨x.abs, ∅⟩
  | sin => Binary64.sin
  | cos => Binary64.cos
  | tan => Binary64.tan

def name : UnaryOp → String
  | sqrt => "sqrt"
  | exp => "exp"
  | log => "log"
  | abs => "abs"
  | sin => "sin"
  | cos => "cos"
  | tan => "tan"

def debugText : UnaryOp → String
  | sqrt => "Sqrt"
  | exp => "Exp"
  | log => "Log"
  | abs => "Abs"
  | sin => "Sin"
  | cos => "Cos"
  | tan => "Tan"

end UnaryOp

/-- How operands are paired: component by component, or with one of them repeated. -/
inductive Broadcast where
  | matched | leftScalar | rightScalar
  deriving DecidableEq

namespace Broadcast

def debugText : Broadcast → String
  | matched => "Matched"
  | leftScalar => "LeftScalar"
  | rightScalar => "RightScalar"

def ofSizes? (left right : Nat) : Option Broadcast :=
  if left = right then some matched
  else if left = 1 then some leftScalar
  else if right = 1 then some rightScalar
  else none

def operandSizes : Broadcast → Nat → Nat × Nat
  | matched, size => (size, size)
  | leftScalar, size => (1, size)
  | rightScalar, size => (size, 1)

def pairs {α : Type} : Broadcast → List α → List α → List (α × α)
  | matched, xs, ys => xs.zip ys
  | leftScalar, xs, ys => xs.flatMap fun x => ys.map fun y => (x, y)
  | rightScalar, xs, ys => xs.flatMap fun x => ys.map fun y => (x, y)

end Broadcast
end FieldGraph
