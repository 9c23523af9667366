import FieldGraph.Binary64.Text
import FieldGraph.Capacity
import FieldGraph.Scalar

/-!
# Containers

The values that pass between functions: a list of scalars and a tag that says
what the list stands for. A container of doubles can also be seen as bytes,
eight to a component, the low byte first.
-/

namespace FieldGraph

inductive Shape where
  | scalar | vector | symmetricTensor | tensor | array
  deriving DecidableEq

def Shape.text : Shape → String
  | scalar => "scalar"
  | vector => "vector"
  | symmetricTensor => "symmetric tensor"
  | tensor => "tensor"
  | array => "array"

structure Container (K : Type) where
  shape : Shape
  data : List K
  deriving DecidableEq

namespace Container

variable {K : Type}

def zeros [Scalar K] (size : Nat) (shape : Shape) : Calc (Container K) := do
  Calc.reserve size
  return ⟨shape, List.replicate size (Scalar.ofRat 0)⟩

def blank [Scalar K] (c : Container K) : Container K :=
  ⟨c.shape, List.replicate c.data.length (Scalar.ofRat 0)⟩

def scalar (x : K) : Container K := ⟨.scalar, [x]⟩

def vector (xs : List K) : Container K := ⟨.vector, xs⟩

def size (c : Container K) : Nat := c.data.length

def get? (c : Container K) (i : Nat) : Option K := c.data[i]?

theorem size_blank [Scalar K] (c : Container K) : c.blank.size = c.size := List.length_replicate

def set (c : Container K) (i : Nat) (x : K) : Container K := { c with data := c.data.set i x }

/-- Overwrite components from the first one on, as far as there are any. -/
def write (c : Container K) (new : List K) : Container K :=
  { c with data := new.take c.size ++ c.data.drop new.length }

@[simp] theorem shape_write (c : Container K) (new : List K) : (c.write new).shape = c.shape := rfl

@[simp] theorem size_write (c : Container K) (new : List K) : (c.write new).size = c.size := by
  simp only [write, size, List.length_append, List.length_take, List.length_drop]
  omega

theorem data_write {c : Container K} {new : List K} (h : new.length = c.size) :
    (c.write new).data = new := by
  have hd : c.data.length ≤ new.length := Nat.le_of_eq h.symm
  simp only [write, List.drop_of_length_le hd, List.append_nil]
  exact List.take_of_length_le (Nat.le_of_eq h)

@[simp] theorem write_write (c : Container K) (new : List K) :
    (c.write new).write new = c.write new := by
  have kept : (c.write new).data.drop new.length = c.data.drop new.length := by
    obtain fits | long := Nat.lt_or_ge c.size new.length |>.symm
    · simp only [write, List.take_of_length_le fits, List.drop_left]
    · have drops (xs : List K) (h : xs.length = c.size) : xs.drop new.length = [] :=
        List.drop_of_length_le (h ▸ Nat.le_of_lt long)
      rw [drops _ (c.size_write new), drops _ rfl]
  rw [write, size_write, kept]
  rfl

end Container

/-! ## Bytes -/

namespace Binary64

def byteCount : Nat := 8

def toBytes (x : Binary64) : List UInt8 :=
  [x.bits, x.bits >>> 8, x.bits >>> 16, x.bits >>> 24,
    x.bits >>> 32, x.bits >>> 40, x.bits >>> 48, x.bits >>> 56].map UInt64.toUInt8

def ofBytes (bytes : List UInt8) : Binary64 :=
  ⟨bytes.foldr (fun b rest => rest <<< 8 ||| b.toUInt64) 0⟩

end Binary64

namespace Container

def bytes (c : Container Binary64) : List UInt8 := c.data.flatMap Binary64.toBytes

def byteRange? (c : Container Binary64) (start stop : Nat) : Option (List UInt8) :=
  if start ≤ stop ∧ stop ≤ c.bytes.length then some ((c.bytes.drop start).take (stop - start))
  else none

def setBytes (c : Container Binary64) (start : Nat) (new : List UInt8) : Container Binary64 :=
  let all := c.bytes.take start ++ new ++ c.bytes.drop (start + new.length)
  let component (i : Nat) : Binary64 :=
    Binary64.ofBytes ((all.drop (Binary64.byteCount * i)).take Binary64.byteCount)
  { c with data := (List.range c.size).map component }

/-! ## Comparison and text -/

/-- Same tag and equal numbers in order; a NaN differs from itself. -/
def eq (a b : Container Binary64) : Bool :=
  a.shape = b.shape && a.size = b.size && (a.data.zip b.data).all fun (x, y) => x.eq y

end Container

def Container.debugText (c : Container Binary64) : Flagged String := do
  return "IoDouble<" ++ c.shape.text ++ ">" ++ (← Binary64.debugList c.data)

end FieldGraph
