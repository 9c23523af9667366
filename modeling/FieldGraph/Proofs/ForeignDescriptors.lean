import FieldGraph.Proofs.Meaning

/-!
# Foreign descriptors

A descriptor is foreign to a function if none of its gradients interpolates on
the descriptor's mesh. To such a function it is its position: specializing for
the one and for the other ends in the same closure or in corresponding errors,
and the closure does the same at a sample as at its position, from then on.
-/

namespace FieldGraph

/-- The error that a foreign descriptor gets where its position gets this one. A gradient that turns
away a position of the wrong size says of a descriptor that it is incompatible. -/
def Failure.ofDescriptor {K : Type} : Failure K → Failure K
  | .error (.dimensionMismatch ..) => .error (.incompatibleInput Gradient.name)
  | failure => failure

section
variable {K M V : Type} [Mesh K M] [FieldVariable K M V]

def Gradient.Foreign (g : Gradient V) : Sample K M → Prop
  | .value _ => False
  | .element p => p.mesh ≠ FieldVariable.elementMesh g.field
  | .node p => p.mesh ≠ FieldVariable.mesh g.field

end

section
variable {M V : Type} [Mesh Binary64 M] [FieldVariable Binary64 M V]

/-- A refusing function tells samples apart by their form, so no descriptor passes for its position
there. -/
def Node.Foreign (s : Sample Binary64 M) : Node V → Prop
  | input => True
  | constant _ => True
  | component function _ => function.Foreign s
  | inputComponent _ => True
  | binary left right _ => left.Foreign s ∧ right.Foreign s
  | unary function _ => function.Foreign s
  | guarded function => function.Foreign s
  | gradient g => g.Foreign s
  | traced _ function => function.Foreign s
  | refusing => False

end

/-! ## Mirrored evaluations -/

section
variable {K α β : Type}

/-- Two evaluations raise the same, and deliver the same as `P` says or fail correspondingly. They
may write different entries. -/
def Mirrors (m m' : Eval K α) (P : α → Prop) : Prop :=
  ∀ c c', c.flags = c'.flags → (m c).2.flags = (m' c').2.flags ∧
    ((∃ a, (m c).1 = .ok a ∧ (m' c').1 = .ok a ∧ P a) ∨
      ∃ failure, (m c).1 = .error failure.ofDescriptor ∧ (m' c').1 = .error failure)

namespace Mirrors
variable {P : α → Prop} {Q : β → Prop}

theorem pure {a : α} (h : P a) : Mirrors (Pure.pure a : Eval K α) (Pure.pure a) P :=
  fun _ _ flags => ⟨flags, .inl ⟨a, rfl, rfl, h⟩⟩

theorem fail (e e' : Error K) (h : .error e = (Failure.error e').ofDescriptor) :
    Mirrors (Eval.fail e : Eval K α) (Eval.fail e') P :=
  fun _ _ flags => ⟨flags, .inr ⟨.error e', congrArg Except.error h, rfl⟩⟩

theorem bind {m m' : Eval K α} {f f' : α → Eval K β} (h : Mirrors m m' P)
    (hf : ∀ a, P a → Mirrors (f a) (f' a) Q) : Mirrors (m >>= f) (m' >>= f') Q := by
  intro c c' same
  have step := h c c' same
  rw [Eval.bind_apply, Eval.bind_apply]
  generalize m c = out, m' c' = out' at step ⊢
  obtain ⟨o, c₁⟩ := out
  obtain ⟨o', c₁'⟩ := out'
  obtain ⟨flags, ⟨a, rfl, rfl, ha⟩ | ⟨failure, rfl, rfl⟩⟩ := step
  · exact hf a ha c₁ c₁' flags
  · exact ⟨flags, .inr ⟨failure, rfl, rfl⟩⟩

theorem record (e e' : Entry) {m m' : Eval K α} (h : Mirrors m m' P) :
    Mirrors (Eval.record e >>= fun _ => m) (Eval.record e' >>= fun _ => m') P :=
  fun _ _ same => h _ _ same

theorem require {p : Prop} [Decidable p] (e e' : Error K) {m m' : Eval K α}
    (he : .error e = (Failure.error e').ofDescriptor) (h : ¬p → Mirrors m m' P) :
    Mirrors (if p then (do Eval.fail e; m) else m) (if p then (do Eval.fail e'; m') else m') P := by
  split
  · exact bind (fail (P := fun _ => False) e e' he) fun _ no => no.elim
  · exact h ‹_›

/-- An evaluation mirrors itself unless it fails in a way that descriptors see differently. -/
theorem refl {m : Eval K α} (uniform : Uniform m)
    (h : Settles (fun failure => failure.ofDescriptor = failure) m P) : Mirrors m m P := by
  intro c c' same
  have delivered := h {}
  rw [uniform.flags_apply, uniform.flags_apply, uniform.fst_apply, uniform.fst_apply, same]
  refine ⟨rfl, ?_⟩
  rcases delivered with ⟨a, ha, hP⟩ | ⟨failure, hf, kept⟩
  · exact .inl ⟨a, ha, ha, hP⟩
  · exact .inr ⟨failure, by rw [kept]; exact hf, hf⟩

end Mirrors
end

/-! ## Closures that locate positions -/

section
variable {M V : Type} [Mesh Binary64 M] [FieldVariable Binary64 M V] [DecidableEq M]

namespace Closure

/-- Every gradient looks for the position of a sample, of which it expects `n` components. -/
inductive Locates (n : Nat) : Closure V → Prop where
  | input : Locates n .input
  | constant (value : Container Binary64) : Locates n (.constant value)
  | component {c : Closure V} {start stop : Nat} {output : Container Binary64}
      (function : Locates n c) : Locates n (.component c start stop output)
  | binary {l r : Closure V} {op : BinaryOp} {mode : Broadcast} {output : Container Binary64}
      (left : Locates n l) (right : Locates n r) : Locates n (.binary l r op mode output)
  | unary {c : Closure V} {op : UnaryOp} {output : Container Binary64} (function : Locates n c) :
      Locates n (.unary c op output)
  | guarded {c : Closure V} (function : Locates n c) : Locates n (.guarded c)
  | gradient {g : Gradient V} {output : Container Binary64} (width : g.dim = n) :
      Locates n (.gradient g .global output)
  | traced {c : Closure V} {label : String} (function : Locates n c) :
      Locates n (.traced label c)

namespace Locates
variable {n : Nat} {c : Closure V}

/-- A call does the same at a sample of whatever form as at its position. -/
theorem run_position (h : Locates n c) (s : Sample Binary64 M) :
    c.run s = c.run (.value s.position) := by
  induction h with
  | input => rfl
  | constant value => rfl
  | component function ih => simp only [run, ih]
  | binary left right ihl ihr => simp only [run, ihl, ihr]
  | unary function ih => simp only [run, ih]
  | guarded function ih => simp only [run, ih]
  | gradient width => rfl
  | traced function ih => simp only [run, ih]

theorem after_run (h : Locates n c) (s : Sample Binary64 M) (ctx : Context) :
    Locates n (c.run s ctx).1.after := by
  induction h generalizing ctx with
  | input => exact .input
  | constant value => exact .constant value
  | component function ih =>
    refine after_deliver (P := Locates n) ?_ _ _
    exact fun _ _ _ => .component (ih ctx)
  | @binary l r op mode output left right ihl ihr =>
    -- where the left operand fails, the right one has not been called
    simp only [run, Context.bind_apply]
    cases (l.run s ctx).1.outcome with
    | error failure => exact .binary (ihl ctx) right
    | ok x =>
      refine after_deliver (P := Locates n) ?_ _ _
      exact fun _ _ _ => .binary (ihl ctx) (ihr _)
  | unary function ih =>
    refine after_deliver (P := Locates n) ?_ _ _
    exact fun _ _ _ => .unary (ih ctx)
  | guarded function ih => exact .guarded (ih _)
  | gradient width =>
    refine after_deliver (P := Locates n) ?_ _ _
    exact fun _ _ _ => .gradient width
  | traced function ih => exact .traced (ih _)

theorem after_calls (h : Locates n c) (calls : List (Sample Binary64 M × Context)) :
    Locates n (c.afterCalls calls) := by
  induction calls generalizing c with
  | nil => exact h
  | cons call rest ih => exact ih (h.after_run call.1 call.2)

/-- At positions of the expected size no gradient finds fault with the size. -/
theorem evaluate_settles {s : Sample Binary64 M} (h : Locates s.position.size c) :
    Settles (fun failure => failure.ofDescriptor = failure) (c.evaluate s) fun _ => True := by
  induction h with
  | input => exact .pure trivial
  | constant value => exact .pure trivial
  | @component c start stop output function ih =>
    rw [evaluate_component]
    refine ih.bind fun x _ => ?_
    exact (extract_settles x start stop fun _ _ => rfl).bind fun _ _ => .pure trivial
  | @binary l r op mode output left right ihl ihr =>
    rw [evaluate_binary]
    refine ihl.bind fun x _ => ihr.bind fun y _ => ?_
    exact (combine_settles op mode output x y fun _ _ => rfl).bind fun _ _ => .pure trivial
  | @unary c op output function ih =>
    rw [evaluate_unary]
    refine ih.bind fun x _ => ?_
    exact (transform_settles op output x fun _ _ => rfl).bind fun _ _ => .pure trivial
  | guarded function ih => exact guarded_settles ih fun _ => rfl
  | @gradient g output width =>
    rw [evaluate_gradient]
    refine Settles.bind (P := fun _ => True) ?_ fun _ _ => .pure trivial
    show Settles _ (g.evaluateGlobal s) _
    unfold Gradient.evaluateGlobal
    refine .require (fun wrong => absurd width.symm wrong) fun _ => ?_
    refine Settles.bind (P := fun _ => True) (.calculate_or (fun _ _ => trivial) rfl) fun found _ => ?_
    split
    · exact .pure trivial
    · exact .fail rfl
  | traced function ih =>
    rw [evaluate_traced]
    exact .record ih

theorem probe_mirrors {s : Sample Binary64 M} (h : Locates s.position.size c) :
    Mirrors (c.probe s) (c.probe (.value s.position)) fun probe => Locates s.position.size probe.2 := by
  have same : c.probe s = c.probe (.value s.position) := by simp only [probe, h.run_position s]
  rw [← same]
  refine .refl (c.probe_uniform s) ?_
  exact (probe_settles_of_evaluate h.evaluate_settles (h.after_run s)).imp fun _ h => h.2

end Locates
end Closure

/-! ## Specialization -/

namespace Gradient

theorem specialize_mirrors {g : Gradient V} {s : Sample Binary64 M} (h : g.Foreign s) :
    Mirrors (g.specialize s) (g.specialize (.value s.position)) fun route =>
      route = .global ∧ g.dim = s.position.size := by
  have taken (n n' : Notice) (width : g.dim = s.position.size) :
      Mirrors (g.take .global n : Eval Binary64 Route) (g.take .global n') fun route =>
        route = .global ∧ g.dim = s.position.size := by
    refine .record _ _ (.bind (P := fun _ => True) (.refl (.calculate _) ?_) fun _ _ => ?_)
    · exact .calculate_or (fun _ _ => trivial) rfl
    · exact .pure ⟨rfl, width⟩
  have elsewhere (n n' : Notice) : Mirrors
      (if s.position.size ≠ g.dim then (do Eval.fail (.incompatibleInput name); g.take .global n)
        else g.take .global n : Eval Binary64 Route)
      (if s.position.size ≠ g.dim then
        (do Eval.fail (.dimensionMismatch g.dim s.position.size); g.take .global n')
        else g.take .global n') fun route => route = .global ∧ g.dim = s.position.size :=
    .require _ _ rfl fun width => taken n n' (Decidable.not_not.mp width).symm
  cases s with
  | value c => exact h.elim
  | element p =>
    show Mirrors (if p.mesh = _ then _ else _) _ _
    rw [if_neg h]
    exact elsewhere _ _
  | node p =>
    show Mirrors (if p.mesh = _ then _ else _) _ _
    rw [if_neg h]
    exact elsewhere _ _

end Gradient

namespace Node
variable {s : Sample Binary64 M}

theorem specializeComponent_mirrors {c : Closure V} (h : c.Locates s.position.size) (i : Nat) :
    Mirrors (specializeComponent s c i) (specializeComponent (.value s.position) c i)
      (Closure.Locates s.position.size) := by
  refine h.probe_mirrors.bind fun (v, inner) inner_locates => ?_
  exact .require _ _ rfl fun _ => .record _ _ (.pure (.component inner_locates))

/-- Specialized for a foreign descriptor and for its position, a function ends in the same closure. -/
theorem specialize_mirrors : ∀ {f : Node V}, f.Foreign s →
    Mirrors (f.specialize s) (f.specialize (.value s.position)) (Closure.Locates s.position.size)
  | input, _ => .pure .input
  | constant value, _ => .pure (.constant value)
  | component function i, h => by
    refine (specialize_mirrors (f := function) h).bind fun c hc => ?_
    exact specializeComponent_mirrors hc i
  | inputComponent i, _ => specializeComponent_mirrors .input i
  | binary left right op, h => by
    refine (specialize_mirrors h.1).bind fun l hl => ?_
    refine (specialize_mirrors h.2).bind fun r hr => ?_
    refine hl.probe_mirrors.bind fun (x, l') hl' => ?_
    refine hr.probe_mirrors.bind fun (y, r') hr' => ?_
    dsimp only
    cases Broadcast.ofSizes? x.size y.size with
    | none => exact .fail _ _ rfl
    | some mode => exact .record _ _ (.pure (.binary hl' hr'))
  | unary function op, h => by
    refine (specialize_mirrors (f := function) h).bind fun c hc => ?_
    exact hc.probe_mirrors.bind fun _ hc' => .pure (.unary hc')
  | guarded function, h =>
    (specialize_mirrors (f := function) h).bind fun _ hc => .pure (.guarded hc)
  | gradient g, h => by
    refine (Gradient.specialize_mirrors h).bind fun route taken => ?_
    obtain ⟨rfl, width⟩ := taken
    exact .pure (.gradient width)
  | traced label function, h =>
    .record _ _ ((specialize_mirrors (f := function) h).bind fun _ hc => .pure (.traced hc))

end Node

theorem Mirrors.outcome {K α : Type} {m m' : Eval K α} {P : α → Prop} (h : Mirrors m m' P)
    (ctx : Context) : (m ctx).1 = (m' ctx).1.mapError Failure.ofDescriptor := by
  obtain ⟨-, ⟨a, ha, ha', -⟩ | ⟨failure, hf, hf'⟩⟩ := h ctx ctx rfl
  · rw [ha, ha']
    rfl
  · rw [hf, hf']
    rfl

/-- To a function a foreign descriptor is its position. Specialization for either raises the same and
ends in the same way, but that a descriptor of the wrong size is called incompatible; and whatever the
two closures are asked later, they do the same, at a sample and at its position. -/
theorem foreign_descriptor_as_position {f : Node V} {d : Sample Binary64 M} (foreign : f.Foreign d)
    (ctx : Context) :
    let x : Sample Binary64 M := .value d.position
    (f.specialize d ctx).1 = (f.specialize x ctx).1.mapError Failure.ofDescriptor ∧
      (f.specialize d ctx).2.flags = (f.specialize x ctx).2.flags ∧
      ∀ closure closure' c c', f.specialize d ctx = (.ok closure, c) →
        f.specialize x ctx = (.ok closure', c') →
          ∀ (calls : List (Sample Binary64 M × Context)) (s : Sample Binary64 M) (ctx' : Context),
            (closure.afterCalls calls).run s ctx' = (closure'.afterCalls calls).run s ctx' ∧
              (closure.afterCalls calls).run s ctx' =
                (closure'.afterCalls calls).run (.value s.position) ctx' := by
  intro x
  have mirrors := Node.specialize_mirrors foreign
  refine ⟨mirrors.outcome ctx, (mirrors ctx ctx rfl).1, ?_⟩
  intro closure closure' c c' specialized specialized' calls s ctx'
  obtain ⟨-, ⟨made, ha, ha', locates⟩ | ⟨failure, hf, -⟩⟩ := mirrors ctx ctx rfl
  · rw [specialized] at ha
    rw [specialized'] at ha'
    cases ha
    cases ha'
    exact ⟨rfl, congrFun ((locates.after_calls calls).run_position s) ctx'⟩
  · rw [specialized] at hf
    cases hf

/-- The derivative of a field on one grid, at a node of another grid and at nodes of a plane one. -/
theorem foreign_descriptor_as_position_node :
    let axis : Axis Binary64 := (Axis.make 2 (.ofRat 0) (.ofRat 1) (by decide)).value
    let g : Grid Binary64 := ⟨0, [axis], by decide, by decide⟩
    let field : NodalField Binary64 :=
      ⟨g, 1, NodalField.rowsOf [.ofRat 0, .ofRat 1, .ofRat 3] rfl, by decide, by decide⟩
    let f : Node (NodalField Binary64) :=
      .binary (.component (.gradient ⟨field⟩) 0) (.inputComponent 0) .multiply
    let line : NodePoint Binary64 (Grid Binary64) :=
      ⟨⟨1, [axis], by decide, by decide⟩, 1, .vector [.ofRat (1 / 2)]⟩
    let plane : NodePoint Binary64 (Grid Binary64) :=
      ⟨⟨2, [axis, axis], by decide, by decide⟩, 1, .vector [.ofRat (1 / 2), .ofRat 0]⟩
    f.Foreign (.node line) ∧ f.Foreign (.node plane) ∧
      (∃ closure closure' c c', f.specialize (.node line) {} = (.ok closure, c) ∧
        f.specialize (.value line.position) {} = (.ok closure', c') ∧
          closure.run (.node line) {} = closure'.run (.value line.position) {}) ∧
      (f.specialize (.value plane.position) {}).1 = .error (.error (.dimensionMismatch 1 2)) ∧
        (f.specialize (.node plane) {}).1 = .error (.error (.incompatibleInput Gradient.name)) := by
  intro axis g field f line plane
  have apart : f.Foreign (.node line) := ⟨show line.mesh ≠ g by decide +kernel, trivial⟩
  have apart' : f.Foreign (.node plane) := ⟨show plane.mesh ≠ g by decide +kernel, trivial⟩
  obtain ⟨closure, c, specialized⟩ : ∃ closure c, f.specialize (.node line) {} = (.ok closure, c) :=
    Eval.exists_of_isOk (show (f.specialize (.node line) {}).1.isOk = true by decide +kernel)
  obtain ⟨closure', c', specialized'⟩ :=
    Eval.exists_of_isOk (show (f.specialize (.value line.position) {}).1.isOk = true by decide +kernel)
  have mismatch : (f.specialize (.value plane.position) {}).1 =
      .error (.error (.dimensionMismatch 1 2)) := rfl
  refine ⟨apart, apart', ⟨closure, closure', c, c', specialized, specialized', ?_⟩, mismatch, ?_⟩
  · exact ((foreign_descriptor_as_position apart {}).2.2 _ _ _ _ specialized specialized' [] _ {}).2
  · exact (foreign_descriptor_as_position apart' {}).1.trans
      (congrArg (Except.mapError Failure.ofDescriptor) mismatch)

end
end FieldGraph
