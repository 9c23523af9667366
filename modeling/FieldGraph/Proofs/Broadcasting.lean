import FieldGraph.Proofs.SuccessfulCalls

/-!
# Broadcasting

Arithmetic on constants and the input is pointwise. Operands are paired one
operation at a time, by the sizes of what the operations below have delivered;
which of them fit together, and what comes out, can be read off the leaves alone
and does not depend on how the operations are nested.
-/

namespace FieldGraph

/-- Arithmetic on constants and the input. -/
inductive Formula where
  | input
  | constant (value : Container Binary64)
  | binary (left right : Formula) (op : BinaryOp)
  | unary (function : Formula) (op : UnaryOp)

/-! ## Repeated components -/

namespace Broadcast
variable {α : Type}

/-- The component at `j`, where a single component stands at every index. -/
def repeated? (xs : List α) (j : Nat) : Option α := xs[if xs.length = 1 then 0 else j]?

theorem repeated?_singleton (x : α) (j : Nat) : repeated? [x] j = some x := rfl

theorem repeated?_of_length_ne {xs : List α} (h : xs.length ≠ 1) (j : Nat) :
    repeated? xs j = xs[j]? := by
  rw [repeated?, if_neg h]

theorem repeated?_of_lt {xs : List α} {j : Nat} (h : j < xs.length) :
    repeated? xs j = xs[j]? := by
  by_cases single : xs.length = 1
  · have first : j = 0 := by omega
    rw [repeated?, if_pos single, first]
  · exact repeated?_of_length_ne single j

theorem repeated?_map {β : Type} (f : α → β) (xs : List α) (j : Nat) :
    repeated? (xs.map f) j = (repeated? xs j).map f := by
  simp only [repeated?, List.length_map, List.getElem?_map]

theorem ofSizes?_eq_none {l r : Nat} : ofSizes? l r = none ↔ l ≠ r ∧ l ≠ 1 ∧ r ≠ 1 := by
  unfold ofSizes?
  grind

theorem ofSizes?_cases {l r : Nat} {mode : Broadcast} (h : ofSizes? l r = some mode) :
    mode = matched ∧ l = r ∨ mode = leftScalar ∧ l = 1 ∨ mode = rightScalar ∧ r = 1 := by
  unfold ofSizes? at h
  grind

theorem wider_of_left {l r : Nat} {mode : Broadcast} (h : ofSizes? l r = some mode) (hl : l ≠ 1) :
    (if mode = .leftScalar then r else l) = l := by
  rw [wider_of_ofSizes? h, if_neg hl]

theorem wider_of_right {l r : Nat} {mode : Broadcast} (h : ofSizes? l r = some mode)
    (hr : r ≠ 1) : (if mode = .leftScalar then r else l) = r := by
  unfold ofSizes? at h
  grind

/-- There is a pair where both operands have a component. -/
theorem repeated?_pairs {mode : Broadcast} {xs ys : List α}
    (h : ofSizes? xs.length ys.length = some mode) (j : Nat) :
    repeated? (mode.pairs xs ys) j = do return (← repeated? xs j, ← repeated? ys j) := by
  obtain ⟨rfl, same⟩ | ⟨rfl, single⟩ | ⟨rfl, single⟩ := ofSizes?_cases h
  · simp only [repeated?, pairs, List.length_zip, same, Nat.min_self]
    generalize (if ys.length = 1 then 0 else j) = i
    rw [List.zip_eq_zipWith, List.getElem?_zipWith]
    cases xs[i]? <;> cases ys[i]? <;> rfl
  · obtain ⟨x, rfl⟩ := List.length_eq_one_iff.mp single
    have paired : pairs leftScalar [x] ys = ys.map fun y => (x, y) := by simp [pairs]
    rw [paired, repeated?_map, repeated?_singleton]
    cases repeated? ys j <;> rfl
  · obtain ⟨y, rfl⟩ := List.length_eq_one_iff.mp single
    have paired : pairs rightScalar xs [y] = xs.map fun x => (x, y) := by
      simp [pairs, List.map_eq_flatMap]
    rw [paired, repeated?_map, repeated?_singleton]
    cases repeated? xs j <;> rfl

end Broadcast

/-! ## Leaves -/

/-- Sizes agree, but for those of single components. -/
def Compatible (leaves : List (Container Binary64)) : Prop :=
  ∀ a ∈ leaves, ∀ b ∈ leaves, a.size ≠ 1 → b.size ≠ 1 → a.size = b.size

/-- The leaf that a result takes its size and its tag from: the first that has not a single
component, and the first of all if there is none. -/
def leading? (leaves : List (Container Binary64)) : Option (Container Binary64) :=
  (leaves.find? (·.size ≠ 1)).or leaves.head?

theorem Compatible.of_append_left {xs ys : List (Container Binary64)} (h : Compatible (xs ++ ys)) :
    Compatible xs := fun a ha b hb =>
  h a (List.mem_append_left ys ha) b (List.mem_append_left ys hb)

theorem Compatible.of_append_right {xs ys : List (Container Binary64)} (h : Compatible (xs ++ ys)) :
    Compatible ys := fun a ha b hb =>
  h a (List.mem_append_right xs ha) b (List.mem_append_right xs hb)

theorem mem_of_leading? {leaves : List (Container Binary64)} {a : Container Binary64}
    (h : leading? leaves = some a) : a ∈ leaves := by
  obtain found | ⟨-, first⟩ := Option.or_eq_some_iff.mp h
  · exact List.mem_of_find?_eq_some found
  · exact List.mem_of_head? first

theorem leading?_singleton (a : Container Binary64) : leading? [a] = some a := by
  by_cases h : a.size = 1 <;> simp [leading?, h]

theorem leading?_append {xs ys : List (Container Binary64)} {a b : Container Binary64}
    (ha : leading? xs = some a) (hb : leading? ys = some b) :
    leading? (xs ++ ys) = some (if a.size = 1 ∧ b.size ≠ 1 then b else a) := by
  have single {zs : List (Container Binary64)} {c : Container Binary64}
      (none : zs.find? (·.size ≠ 1) = none) (hc : leading? zs = some c) : c.size = 1 := by
    simpa using List.find?_eq_none.mp none c (mem_of_leading? hc)
  rw [leading?, List.find?_append, List.head?_append]
  cases foundLeft : xs.find? (·.size ≠ 1) with
  | some a' =>
    rw [leading?, foundLeft] at ha
    cases ha
    have wide : a.size ≠ 1 := by simpa using List.find?_some foundLeft
    rw [if_neg fun h => wide h.1]
    rfl
  | none =>
    have one := single foundLeft ha
    rw [leading?, foundLeft] at ha
    cases foundRight : ys.find? (·.size ≠ 1) with
    | some b' =>
      rw [leading?, foundRight] at hb
      cases hb
      have wide : b.size ≠ 1 := by simpa using List.find?_some foundRight
      rw [if_pos ⟨one, wide⟩]
      rfl
    | none =>
      rw [if_neg fun h => h.2 (single foundRight hb)]
      show xs.head?.or ys.head? = some a
      rw [show xs.head? = some a from ha]
      rfl

/-! ## Formulas -/

namespace Formula

open Broadcast

def toNode {V : Type} : Formula → Node V
  | input => .input
  | constant value => .constant value
  | binary left right op => .binary left.toNode right.toNode op
  | unary function op => .unary function.toNode op

/-- What the leaves deliver at a sample with position `x`, from left to right. -/
def leaves (x : Container Binary64) : Formula → List (Container Binary64)
  | input => [x]
  | constant value => [value]
  | binary left right _ => left.leaves x ++ right.leaves x
  | unary function _ => function.leaves x

/-- The formula on scalars, each leaf replaced by its component at `j` or by its only one. -/
def component? (x : Container Binary64) (j : Nat) : Formula → Option Binary64
  | input => repeated? x.data j
  | constant value => repeated? value.data j
  | binary left right op => do
    return (op.apply (← left.component? x j) (← right.component? x j)).value
  | unary function op => do return (op.apply (← function.component? x j)).value

/-- A container that has at every index what the formula on scalars comes to there, with the size
and the tag of the leading leaf. -/
structure Pointwise (f : Formula) (x v : Container Binary64) : Prop where
  leading : ∃ leaf, leading? (f.leaves x) = some leaf ∧ v.shape = leaf.shape ∧ v.size = leaf.size
  wide : ∀ leaf ∈ f.leaves x, leaf.size ≠ 1 → v.size = leaf.size
  -- beyond the size there is nothing on either side, as some leaf is no wider
  components : ∀ j, repeated? v.data j = f.component? x j

/-- The output of a pair of operands has the size that their pairing asks for. -/
theorem operandSizes_blank {v w : Container Binary64} {mode : Broadcast}
    (sizes : ofSizes? v.size w.size = some mode) :
    (v.size, w.size) = mode.operandSizes (if mode = .leftScalar then w else v).blank.size := by
  rw [Container.size_blank, apply_ite Container.size, wider_of_ofSizes? sizes,
    operandSizes_of_ofSizes? sizes]

namespace Pointwise
variable {f l r : Formula} {x v w : Container Binary64} {mode : Broadcast}

theorem of_leaf (leaf : f.leaves x = [v]) (component : ∀ j, f.component? x j = repeated? v.data j) :
    Pointwise f x v where
  leading := ⟨v, leaf ▸ leading?_singleton v, rfl, rfl⟩
  wide a ha _ := by
    rw [leaf, List.mem_singleton] at ha
    rw [ha]
  components j := (component j).symm

theorem unary (h : Pointwise f x v) (op : UnaryOp) :
    Pointwise (.unary f op) x (v.blank.write (v.data.map fun y => (op.apply y).value)) where
  leading := by
    obtain ⟨leaf, found, shape, size⟩ := h.leading
    refine ⟨leaf, found, shape, ?_⟩
    rw [Container.size_write, Container.size_blank, size]
  wide leaf hleaf wide := by
    rw [Container.size_write, Container.size_blank]
    exact h.wide leaf hleaf wide
  components j := by
    have length : (v.data.map fun y => (op.apply y).value).length = v.blank.size :=
      (List.length_map _).trans v.size_blank.symm
    rw [Container.data_write length, repeated?_map, h.components, component?]
    cases f.component? x j <;> rfl

theorem binary (hl : Pointwise l x v) (hr : Pointwise r x w) (op : BinaryOp)
    (sizes : ofSizes? v.size w.size = some mode) :
    Pointwise (.binary l r op) x ((if mode = .leftScalar then w else v).blank.write
      ((mode.pairs v.data w.data).map fun (y, z) => (op.apply y z).value)) where
  leading := by
    obtain ⟨a, foundLeft, shapeLeft, sizeLeft⟩ := hl.leading
    obtain ⟨b, foundRight, shapeRight, sizeRight⟩ := hr.leading
    refine ⟨_, leading?_append foundLeft foundRight, ?_⟩
    rw [Container.shape_write, Container.size_write, Container.size_blank, ← sizeLeft, ← sizeRight]
    simp only [eq_leftScalar_iff sizes]
    split
    · exact ⟨shapeRight, sizeRight⟩
    · exact ⟨shapeLeft, sizeLeft⟩
  wide leaf hleaf wide := by
    rw [Container.size_write, Container.size_blank, apply_ite Container.size]
    obtain left | right := List.mem_append.mp hleaf
    · have same := hl.wide leaf left wide
      exact (wider_of_left sizes (same ▸ wide)).trans same
    · have same := hr.wide leaf right wide
      exact (wider_of_right sizes (same ▸ wide)).trans same
  components j := by
    have length : ((mode.pairs v.data w.data).map fun (y, z) => (op.apply y z).value).length =
        (if mode = .leftScalar then w else v).blank.size :=
      (List.length_map _).trans (length_pairs (operandSizes_blank sizes))
    rw [Container.data_write length, repeated?_map, repeated?_pairs sizes, hl.components,
      hr.components, component?]
    cases l.component? x j <;> cases r.component? x j <;> rfl

theorem compatible (h : Pointwise f x v) : Compatible (f.leaves x) :=
  fun a ha b hb wideA wideB => (h.wide a ha wideA).symm.trans (h.wide b hb wideB)

theorem not_compatible (hl : Pointwise l x v) (hr : Pointwise r x w)
    (sizes : ofSizes? v.size w.size = none) : ¬Compatible (l.leaves x ++ r.leaves x) := by
  intro compatible
  obtain ⟨differ, wideLeft, wideRight⟩ := ofSizes?_eq_none.mp sizes
  obtain ⟨a, ha, -, sizeLeft⟩ := hl.leading
  obtain ⟨b, hb, -, sizeRight⟩ := hr.leading
  rw [sizeLeft, sizeRight] at differ
  exact differ <| compatible a (List.mem_append_left _ (mem_of_leading? ha)) b
    (List.mem_append_right _ (mem_of_leading? hb)) (sizeLeft ▸ wideLeft) (sizeRight ▸ wideRight)

/-- The component that a result has at `j` is that of the formula on scalars. -/
theorem get?_eq (h : Pointwise f x v) {j : Nat} (hj : j < v.size) :
    v.get? j = f.component? x j := (repeated?_of_lt hj).symm.trans (h.components j)

theorem size_of_single (h : Pointwise f x v) (single : ∀ leaf ∈ f.leaves x, leaf.size = 1) :
    v.size = 1 := by
  obtain ⟨leaf, found, -, size⟩ := h.leading
  exact size.trans (single leaf (mem_of_leading? found))

end Pointwise

/-! ## Calls -/

section
variable {M V : Type} [Mesh Binary64 M] [FieldVariable Binary64 M V] [DecidableEq M]

/-- Specialization fails because of sizes that do not go together. -/
def Mismatch (leaves : List (Container Binary64)) (failure : Failure Binary64) : Prop :=
  ¬Compatible leaves ∧ ∃ l r, failure = .error (.shapeMismatch l r)

theorem Mismatch.append_left {xs : List (Container Binary64)} {failure : Failure Binary64}
    (h : Mismatch xs failure) (ys : List (Container Binary64)) : Mismatch (xs ++ ys) failure :=
  ⟨fun compatible => h.1 compatible.of_append_left, h.2⟩

theorem Mismatch.append_right {ys : List (Container Binary64)} {failure : Failure Binary64}
    (h : Mismatch ys failure) (xs : List (Container Binary64)) : Mismatch (xs ++ ys) failure :=
  ⟨fun compatible => h.1 compatible.of_append_right, h.2⟩

theorem combine_yields (op : BinaryOp) {mode : Broadcast} {output x y : Container Binary64}
    (sizes : (x.size, y.size) = mode.operandSizes output.size) :
    ∃ r, Yields (Closure.combine op mode output x y)
      ((mode.pairs x.data y.data).map fun (y, z) => (op.apply y z).value) r := by
  rw [Closure.combine_of_sizes op sizes]
  exact ⟨_, .calculate (congrArg some (Flagged.value_mapM _ _))⟩

theorem transform_yields (op : UnaryOp) {output x : Container Binary64}
    (size : x.size = output.size) :
    ∃ r, Yields (Closure.transform op output x) (x.data.map fun y => (op.apply y).value) r := by
  rw [Closure.transform_of_size op size]
  exact ⟨_, .calculate (congrArg some (Flagged.value_mapM _ _))⟩

/-- A call at the sample for which the closure is made delivers what the formula says. -/
def Ready (f : Formula) (s : Sample Binary64 M) (c : Closure V) : Prop :=
  ∃ v c' r, c.Returns s v c' r ∧ Pointwise f s.position v

theorem Ready.binary {l r : Formula} {s : Sample Binary64 M} {lc lc' rc rc' : Closure V}
    {v w : Container Binary64} {p q : Flags} {mode : Broadcast} (left : lc.Returns s v lc' p)
    (right : rc.Returns s w rc' q) (hl : Pointwise l s.position v) (hr : Pointwise r s.position w)
    (op : BinaryOp) (sizes : ofSizes? v.size w.size = some mode) :
    (binary l r op).Ready s
      (.binary lc' rc' op mode (if mode = .leftScalar then w else v).blank) := by
  obtain ⟨_, combined⟩ := combine_yields op (operandSizes_blank sizes)
  exact ⟨_, _, _, .binary left.again right.again combined, hl.binary hr op sizes⟩

theorem Ready.unary {f : Formula} {s : Sample Binary64 M} {c c' : Closure V}
    {v : Container Binary64} {r : Flags} (function : c.Returns s v c' r)
    (h : Pointwise f s.position v) (op : UnaryOp) :
    (unary f op).Ready s (.unary c' op v.blank) := by
  obtain ⟨_, transformed⟩ := transform_yields op v.size_blank.symm
  exact ⟨_, _, _, .unary function.again transformed, h.unary op⟩

theorem specialize_settles (s : Sample Binary64 M) : ∀ f : Formula,
    Settles (Mismatch (f.leaves s.position)) ((f.toNode : Node V).specialize s) (f.Ready s)
  | input => .pure ⟨_, _, _, .input, .of_leaf rfl fun _ => rfl⟩
  | constant value => .pure ⟨_, _, _, .constant value, .of_leaf rfl fun _ => rfl⟩
  | binary left right op => by
    have inLeft := (specialize_settles s left).mono fun _ h => h.append_left (right.leaves s.position)
    have inRight := (specialize_settles s right).mono fun _ h => h.append_right (left.leaves s.position)
    refine inLeft.bind fun lc ⟨v, lc', _, calledLeft, hl⟩ => ?_
    refine inRight.bind fun rc ⟨w, rc', _, calledRight, hr⟩ => ?_
    refine calledLeft.yields.bind_settles (calledRight.yields.bind_settles ?_)
    dsimp only
    cases sizes : ofSizes? v.size w.size with
    | none => exact .fail ⟨hl.not_compatible hr sizes, _, _, rfl⟩
    | some mode => exact .record (.pure (.binary calledLeft calledRight hl hr op sizes))
  | unary function op => by
    refine (specialize_settles s function).bind fun c ⟨v, c', _, called, h⟩ => ?_
    exact called.yields.bind_settles (.pure (.unary called h op))

end
end Formula

/-- Arithmetic on constants and the input succeeds where the sizes of the leaves agree, but for
those of single components, and is then pointwise. -/
theorem arithmetic_pointwise {M V : Type} [Mesh Binary64 M] [FieldVariable Binary64 M V]
    [DecidableEq M] (f : Formula) (s : Sample Binary64 M) (ctx : Context) :
    let specialized := ((f.toNode : Node V).specialize s ctx).1
    let leaves := f.leaves s.position
    (specialized.isOk ↔ Compatible leaves) ∧
      (¬Compatible leaves → ∃ l r, specialized = .error (.error (.shapeMismatch l r))) ∧
      ∀ c, specialized = .ok c → ∀ ctx', ∃ v, (c.evaluate s ctx').1 = .ok v ∧
        (∀ leaf ∈ leaves, leaf.size ≠ 1 → v.size = leaf.size) ∧
        ((∀ leaf ∈ leaves, leaf.size = 1) → v.size = 1) ∧
        (leading? leaves).map (·.shape) = some v.shape ∧
        ∀ j < v.size, v.get? j = f.component? s.position j := by
  intro specialized leaves
  have settled := f.specialize_settles (V := V) s ctx
  change (∃ c, specialized = .ok c ∧ _) ∨ ∃ failure, specialized = .error failure ∧ _ at settled
  rcases settled with ⟨c, hc, v, c', r, returned, pointwise⟩ | ⟨failure, hf, no, l, r, rfl⟩
  · rw [hc]
    refine ⟨iff_of_true rfl pointwise.compatible, fun no => (no pointwise.compatible).elim, ?_⟩
    rintro _ ⟨⟩ ctx'
    refine ⟨v, ?_, pointwise.wide, pointwise.size_of_single, ?_, fun j hj => pointwise.get?_eq hj⟩
    · exact (Closure.yields_evaluate_iff.mpr ⟨c', returned⟩ ctx').1
    · obtain ⟨leaf, found, shape, -⟩ := pointwise.leading
      rw [found, shape]
      rfl
  · rw [hf]
    refine ⟨iff_of_false Bool.false_ne_true no, fun _ => ⟨l, r, rfl⟩, nofun⟩

end FieldGraph
