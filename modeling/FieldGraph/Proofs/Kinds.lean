import FieldGraph.Proofs.FieldTotality
import FieldGraph.Proofs.Outcomes

/-!
# Closures that suit a sample

The size of a sample's position settles how many components a function delivers,
and together with the sample's mesh which way a gradient takes. A closure suits a
function and a sample if it is built as these prescribe; what earlier calls left in
its outputs does not matter, and no call at any sample changes that it suits.
-/

namespace FieldGraph

/-! ## Samples -/

section
variable {K M : Type} [Mesh K M]

/-- Samples as they can be had: descriptors are created on their mesh. -/
inductive Sample.Made : Sample K M → Prop where
  | value (c : Container K) : Made (.value c)
  | element {mesh : M} {e : Nat} {ξ : List K} {c c' : Context} {p : ElementPoint K M}
      (h : ElementPoint.create mesh e ξ c = (.ok p, c')) : Made (.element p)
  | node {mesh : M} {n : Nat} {c c' : Context} {p : NodePoint K M}
      (h : NodePoint.create mesh n c = (.ok p, c')) : Made (.node p)

end

theorem NodePoint.create_returns {K : Type} [Scalar K] {E : Failure K → Prop} {g : Grid K} {n : Nat}
    (hn : n < g.nodeCount) {x : List K} (hx : g.vertex n = some x) :
    Settles E (create g n) (· = ⟨g, n, .vector x⟩) := by
  refine .require (fun h => absurd hn (Nat.not_lt.mpr h)) fun _ => ?_
  refine (Settles.calculate (P := (· = x)) ⟨x, hx, rfl⟩).bind ?_
  rintro _ rfl
  exact .pure rfl

namespace Sample.Made
variable {K : Type} [Scalar K]

theorem of_vertex {g : Grid K} {n : Nat} (hn : n < g.nodeCount) {x : List K} (hx : g.vertex n = some x) :
    (Sample.node ⟨g, n, .vector x⟩).Made :=
  .node (Prod.ext ((NodePoint.create_returns hn hx).eq_ok {}) rfl)

theorem create_element_settles (mesh : Grid K) (e : Nat) (ξ : List K) :
    Settles (fun _ => True) (ElementPoint.create mesh e ξ) fun p =>
      p.element < p.mesh.elementCount ∧ p.coordinates.length = p.mesh.dim ∧
        (p.mesh.toGlobal p.element p.coordinates).result = some p.position.data := by
  refine .require (fun _ => trivial) fun hξ => .require (fun _ => trivial) fun he => ?_
  replace hξ : ξ.length = mesh.dim := Decidable.not_not.mp hξ
  replace he : e < mesh.elementCount := Nat.not_le.mp he
  obtain ⟨x, hx, -⟩ := mesh.toGlobal_delivers _ hξ
  exact (Settles.calculate ⟨x, hx, rfl⟩).bind fun _ hy => .pure ⟨he, hξ, hx.trans (congrArg some hy)⟩

theorem create_node_settles (mesh : Grid K) (n : Nat) :
    Settles (fun _ => True) (NodePoint.create mesh n) fun p =>
      p.node < p.mesh.nodeCount ∧ p.mesh.vertex p.node = some p.position.data := by
  refine .require (fun _ => trivial) fun hn => ?_
  replace hn : n < mesh.nodeCount := Nat.not_le.mp hn
  exact (Settles.calculate_or (fun _ hx => hx) trivial).bind fun x hx => .pure ⟨hn, hx⟩

theorem element_position {p : ElementPoint K (Grid K)} (h : (Sample.element p).Made) :
    (p.mesh.toGlobal p.element p.coordinates).result = some p.position.data := by
  cases h with
  | element h => exact ((create_element_settles _ _ _).of_ok h).2.2

theorem node_position {p : NodePoint K (Grid K)} (h : (Sample.node p).Made) :
    p.mesh.vertex p.node = some p.position.data := by
  cases h with
  | node h => exact ((create_node_settles _ _).of_ok h).2

theorem element_bounds {p : ElementPoint K (Grid K)} (h : (Sample.element p).Made) :
    p.element < p.mesh.elementCount ∧ p.coordinates.length = p.mesh.dim ∧
      p.position.size = p.mesh.dim := by
  have position := h.element_position
  cases h with
  | element h =>
    obtain ⟨he, hξ, -⟩ := (create_element_settles _ _ _).of_ok h
    obtain ⟨x, hx, hlen⟩ := p.mesh.toGlobal_delivers p.element hξ
    rw [position] at hx
    cases hx
    exact ⟨he, hξ, hlen⟩

theorem node_bounds {p : NodePoint K (Grid K)} (h : (Sample.node p).Made) :
    p.node < p.mesh.nodeCount ∧ p.position.size = p.mesh.dim := by
  have position := h.node_position
  cases h with
  | node h =>
    have hn := ((create_node_settles _ _).of_ok h).1
    exact ⟨hn, Grid.length_of_vertex position⟩

end Sample.Made

/-! ## Functions and closures -/

namespace Broadcast

theorem operandSizes_of_ofSizes? {l r : Nat} {mode : Broadcast} (h : ofSizes? l r = some mode) :
    mode.operandSizes (if l = 1 then r else l) = (l, r) := by
  unfold ofSizes? at h
  split at h
  · cases h
    simp_all [operandSizes]
  · split at h
    · cases h
      simp_all [operandSizes]
    · split at h
      · cases h
        simp_all [operandSizes]
      · cases h

theorem wider_of_ofSizes? {l r : Nat} {mode : Broadcast} (h : ofSizes? l r = some mode) :
    (if mode = .leftScalar then r else l) = if l = 1 then r else l := by
  unfold ofSizes? at h
  grind

theorem eq_leftScalar_iff {l r : Nat} {mode : Broadcast} (h : ofSizes? l r = some mode) :
    mode = .leftScalar ↔ l = 1 ∧ r ≠ 1 := by
  unfold ofSizes? at h
  grind

theorem length_pairs {α : Type} {mode : Broadcast} {xs ys : List α} {n : Nat}
    (h : (xs.length, ys.length) = mode.operandSizes n) : (mode.pairs xs ys).length = n := by
  cases mode with
  | matched =>
    obtain ⟨hx, hy⟩ := Prod.mk.inj h
    rw [pairs, List.length_zip, hx, hy, Nat.min_self]
  | leftScalar =>
    obtain ⟨hx, hy⟩ := Prod.mk.inj h
    obtain ⟨x, rfl⟩ := List.length_eq_one_iff.mp hx
    simp [pairs, hy]
  | rightScalar =>
    obtain ⟨hx, hy⟩ := Prod.mk.inj h
    obtain ⟨y, rfl⟩ := List.length_eq_one_iff.mp hy
    simp [pairs, hx]

end Broadcast

section
variable {K M V : Type} [Mesh K M] [FieldVariable K M V] [DecidableEq M]

def Gradient.route? (g : Gradient V) (s : Sample K M) : Option Route :=
  let elsewhere := if s.position.size = g.dim then some .global else none
  match s with
  | .value _ => elsewhere
  | .element p => if p.mesh = FieldVariable.elementMesh g.field then some .element else elsewhere
  | .node p => if p.mesh = FieldVariable.mesh g.field then some .node else elsewhere

end

section
variable {M V : Type} [Mesh Binary64 M] [FieldVariable Binary64 M V] [DecidableEq M]

/-- How many components a function delivers at positions of a size. -/
def Node.width (size : Nat) : Node V → Nat
  | input => size
  | constant value => value.size
  | component .. => 1
  | inputComponent _ => 1
  | binary left right _ => if left.width size = 1 then right.width size else left.width size
  | unary function _ => function.width size
  | guarded function => function.width size
  | gradient g => g.outputSize
  | traced _ function => function.width size
  | refusing => 0

namespace Closure

/-- The closures that a function may have for a sample, whatever their outputs hold. -/
inductive Suits (s : Sample Binary64 M) : Node V → Closure V → Prop where
  | input : Suits s .input .input
  | constant (value : Container Binary64) : Suits s (.constant value) (.constant value)
  | component {f : Node V} {c : Closure V} {i : Nat} {output : Container Binary64}
      (function : Suits s f c) (hi : i < f.width s.position.size) (size : output.size = 1) :
      Suits s (.component f i)
        (.component c (Binary64.byteCount * i) (Binary64.byteCount * (i + 1)) output)
  | inputComponent {i : Nat} {output : Container Binary64} (hi : i < s.position.size)
      (size : output.size = 1) :
      Suits s (.inputComponent i)
        (.component .input (Binary64.byteCount * i) (Binary64.byteCount * (i + 1)) output)
  | binary {l r : Node V} {lc rc : Closure V} {op : BinaryOp} {mode : Broadcast}
      {output : Container Binary64} (left : Suits s l lc) (right : Suits s r rc)
      (sizes : Broadcast.ofSizes? (l.width s.position.size) (r.width s.position.size) = some mode)
      (size : output.size = (Node.binary l r op).width s.position.size) :
      Suits s (.binary l r op) (.binary lc rc op mode output)
  | unary {f : Node V} {c : Closure V} {op : UnaryOp} {output : Container Binary64}
      (function : Suits s f c) (size : output.size = f.width s.position.size) :
      Suits s (.unary f op) (.unary c op output)
  | guarded {f : Node V} {c : Closure V} (function : Suits s f c) :
      Suits s (.guarded f) (.guarded c)
  | gradient {g : Gradient V} {route : Route} {output : Container Binary64}
      (routed : g.route? s = some route) (size : output.size = g.outputSize) :
      Suits s (.gradient g) (.gradient g route output)
  | traced {f : Node V} {c : Closure V} {label : String} (function : Suits s f c) :
      Suits s (.traced label f) (.traced label c)

theorem exists_after_deliver (output : Container Binary64)
    (rebuild : Container Binary64 → Closure V) (body : Eval Binary64 (List Binary64)) (ctx : Context) :
    ∃ output' : Container Binary64, (deliver output rebuild body ctx).1.after = rebuild output' ∧
      output'.size = output.size ∧ output'.shape = output.shape := by
  simp only [deliver, Context.bind_apply, Context.run_apply]
  rcases body ctx with ⟨failure | data, ctx'⟩
  · exact ⟨output, rfl, rfl, rfl⟩
  · exact ⟨output.write data, rfl, output.size_write data, output.shape_write data⟩

theorem after_deliver {P : Closure V → Prop} {output : Container Binary64}
    {rebuild : Container Binary64 → Closure V}
    (h : ∀ output' : Container Binary64, output'.size = output.size →
      output'.shape = output.shape → P (rebuild output'))
    (body : Eval Binary64 (List Binary64)) (ctx : Context) :
    P (deliver output rebuild body ctx).1.after := by
  obtain ⟨output', after, size, shape⟩ := exists_after_deliver output rebuild body ctx
  rw [after]
  exact h output' size shape

/-- A call keeps a closure suitable, at whatever sample and with whatever outcome. -/
theorem Suits.after_run {s₀ : Sample Binary64 M} {f : Node V} {c : Closure V} (h : Suits s₀ f c)
    (s : Sample Binary64 M) (ctx : Context) : Suits s₀ f (c.run s ctx).1.after := by
  induction h generalizing ctx with
  | input => exact .input
  | constant value => exact .constant value
  | component function hi size ih =>
    exact after_deliver (P := Suits s₀ _) (fun _ h _ => .component (ih ctx) hi (h.trans size)) _ _
  | inputComponent hi size =>
    exact after_deliver (P := Suits s₀ _) (fun _ h _ => .inputComponent hi (h.trans size)) _ _
  | @binary l r lc rc op mode output left right sizes size ihl ihr =>
    -- where the left operand fails, the right one has not been called
    simp only [run, Context.bind_apply]
    cases (lc.run s ctx).1.outcome with
    | error failure => exact .binary (ihl ctx) right sizes size
    | ok x =>
      exact after_deliver (P := Suits s₀ _)
        (fun _ h _ => .binary (ihl ctx) (ihr _) sizes (h.trans size)) _ _
  | unary function size ih =>
    exact after_deliver (P := Suits s₀ _) (fun _ h _ => .unary (ih ctx) (h.trans size)) _ _
  | guarded function ih => exact .guarded (ih _)
  | gradient routed size =>
    exact after_deliver (P := Suits s₀ _) (fun _ h _ => .gradient routed (h.trans size)) _ _
  | traced function ih => exact .traced (ih _)

/-- The closure after calls at any samples, each in any context. -/
def afterCalls (c : Closure V) (calls : List (Sample Binary64 M × Context)) : Closure V :=
  calls.foldl (fun c call => (c.run call.1 call.2).1.after) c

/-- Calls change what a closure is built from step by step, and the numbers in its output. -/
theorem exists_afterCalls {γ : Type} (step : γ → Sample Binary64 M × Context → γ)
    {rebuild : γ → Container Binary64 → Closure V}
    (h : ∀ a output call, ∃ output' : Container Binary64,
      ((rebuild a output).run call.1 call.2).1.after = rebuild (step a call) output' ∧
        output'.size = output.size ∧ output'.shape = output.shape)
    (a : γ) (output : Container Binary64) (calls : List (Sample Binary64 M × Context)) :
    ∃ output' : Container Binary64,
      (rebuild a output).afterCalls calls = rebuild (calls.foldl step a) output' ∧
        output'.size = output.size ∧ output'.shape = output.shape := by
  induction calls generalizing a output with
  | nil => exact ⟨output, rfl, rfl, rfl⟩
  | cons call rest ih =>
    obtain ⟨output₁, after, size₁, shape₁⟩ := h a output call
    obtain ⟨output₂, later, size₂, shape₂⟩ := ih (step a call) output₁
    refine ⟨output₂, ?_, size₂.trans size₁, shape₂.trans shape₁⟩
    exact (congrArg (afterCalls · rest) after).trans later

theorem Suits.after_calls {s₀ : Sample Binary64 M} {f : Node V} {c : Closure V} (h : Suits s₀ f c)
    (calls : List (Sample Binary64 M × Context)) : Suits s₀ f (c.afterCalls calls) := by
  induction calls generalizing c with
  | nil => exact h
  | cons call rest ih => exact ih (h.after_run call.1 call.2)

end Closure
end
end FieldGraph
