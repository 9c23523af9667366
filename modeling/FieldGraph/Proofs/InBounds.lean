import FieldGraph.Proofs.Soundness

/-!
# Staying within bounds

Over nodal fields no function and no closure ever runs out of bounds, at samples
of whatever kind: descriptors name elements and nodes that exist, a descriptor of
another mesh or another form is turned away before its number is used, a point
that is found lies in an element of the grid, and sizes that were settled when a
closure was made are compared again on every call. What is computed for an output
always fills it exactly.
-/

namespace FieldGraph

/-- Every failure but running out of bounds is an error that is reported to the caller. -/
def Failure.IsError {K : Type} (failure : Failure K) : Prop := failure ≠ .outOfBounds

theorem Failure.isError_error {K : Type} (e : Error K) : (Failure.error e).IsError := nofun

theorem Failure.OfValue.isError {K : Type} {failure : Failure K} (h : failure.OfValue) :
    failure.IsError := by
  rintro rfl
  exact h

theorem Settles.ne_outOfBounds {K α : Type} {m : Eval K α} {P : α → Prop}
    (h : Settles Failure.IsError m P) (ctx : Context) : (m ctx).1 ≠ .error .outOfBounds := by
  obtain ⟨a, ha, -⟩ | ⟨failure, hf, isError⟩ := h ctx
  · rw [ha]
    nofun
  · rw [hf]
    exact fun same => isError (Except.error.inj same)

/-! ## Gradients -/

namespace Gradient
variable {K : Type} [Scalar K] [DecidableEq K] (g : Gradient (NodalField K)) {s : Sample K (Grid K)}

theorem evaluate_inBounds [LawfulScalar K] (hs : s.Made) (route : Route) :
    Settles Failure.IsError (g.evaluate route s) fun d => d.length = g.outputSize := by
  have value : ∀ failure : Failure K, failure.OfValue → failure.IsError := fun _ h => h.isError
  cases route with
  | element =>
    cases s with
    | value c => exact .fail (Failure.isError_error _)
    | node p => exact .fail (Failure.isError_error _)
    | element p =>
      by_cases same : p.mesh = g.field.grid
      · exact (g.evaluateElement_settles hs same).mono value
      · show Settles _ (if p.mesh = g.field.grid then _ else _) _
        rw [if_neg same]
        exact .fail (Failure.isError_error _)
  | node =>
    cases s with
    | value c => exact .fail (Failure.isError_error _)
    | element p => exact .fail (Failure.isError_error _)
    | node p =>
      by_cases same : p.mesh = g.field.grid
      · exact (g.evaluateNode_settles hs same).mono value
      · show Settles _ (if p.mesh = g.field.grid then _ else _) _
        rw [if_neg same]
        exact .fail (Failure.isError_error _)
  | global =>
    by_cases size : s.position.size = g.dim
    · exact (g.evaluateGlobal_settles size).mono value
    · show Settles _ (g.evaluateGlobal s) _
      unfold evaluateGlobal
      exact .require (fun _ => Failure.isError_error _) fun same =>
        absurd (Decidable.not_not.mp same) size

end Gradient

/-! ## Closures -/

section
variable {M V : Type} [Mesh Binary64 M] [FieldVariable Binary64 M V] [DecidableEq M]

/-- The body stays within bounds, and computes exactly as many components as the output has. -/
def Fills (output : Container Binary64) (body : Eval Binary64 (List Binary64)) : Prop :=
  Settles Failure.IsError body fun data => data.length = output.size

namespace Closure

/-- What a call at `s` computes for the outputs of the closure fills them, whatever the operands
deliver. -/
def Fits (s : Sample Binary64 M) : Closure V → Prop
  | input => True
  | constant _ => True
  | component function start stop output =>
    function.Fits s ∧ ∀ c, Fills output do return [← extract c start stop]
  | binary left right op mode output =>
    left.Fits s ∧ right.Fits s ∧ ∀ x y, Fills output (combine op mode output x y)
  | unary function op output => function.Fits s ∧ ∀ x, Fills output (transform op output x)
  | guarded function => function.Fits s
  | gradient g route output => Fills output (g.evaluate route s)
  | traced _ function => function.Fits s

variable {s : Sample Binary64 M}

/-- A call of a closure that fits stays within bounds. -/
theorem Fits.evaluate_inBounds : ∀ {c : Closure V}, c.Fits s →
    Settles Failure.IsError (c.evaluate s) fun _ => True
  | input, _ => .pure trivial
  | constant _, _ => .pure trivial
  | component function start stop output, h => by
    rw [evaluate_component]
    apply h.1.evaluate_inBounds.bind
    intro x _
    apply (extract_settles x start stop fun _ _ => Failure.isError_error _).bind
    intro y _
    exact .pure trivial
  | binary left right op mode output, h => by
    rw [evaluate_binary]
    apply h.1.evaluate_inBounds.bind
    intro x _
    apply h.2.1.evaluate_inBounds.bind
    intro y _
    exact (h.2.2 x y).bind fun _ _ => .pure trivial
  | unary function op output, h => by
    rw [evaluate_unary]
    apply h.1.evaluate_inBounds.bind
    intro x _
    exact (h.2 x).bind fun _ _ => .pure trivial
  | guarded function, h =>
    guarded_settles (evaluate_inBounds (c := function) h) fun _ => Failure.isError_error _
  | gradient g route output, h => by
    rw [evaluate_gradient]
    exact Settles.bind h fun _ _ => .pure trivial
  | traced label function, h => by
    rw [evaluate_traced]
    exact .record (evaluate_inBounds (c := function) h)

theorem Fits.probe_inBounds {c : Closure V} (h : c.Fits s) :
    Settles Failure.IsError (c.probe s) fun _ => True :=
  (probe_settles_of_evaluate (Q := fun _ => True) h.evaluate_inBounds fun _ => trivial).imp
    fun _ _ => trivial

end Closure
end

/-! ## Functions over nodal fields -/

section
variable {s : Sample Binary64 (Grid Binary64)}

namespace Closure
variable {s₀ : Sample Binary64 (Grid Binary64)} {f : Node (NodalField Binary64)}
  {c : Closure (NodalField Binary64)}

theorem component_fills (start stop : Nat) {output : Container Binary64} (size : output.size = 1)
    (x : Container Binary64) : Fills output do return [← extract x start stop] :=
  (extract_settles x start stop fun _ _ => Failure.isError_error _).bind fun _ _ => .pure size.symm

/-- A closure fits every sample, not only the one it was made for. -/
theorem Suits.fits (h : Suits s₀ f c) (hs : s.Made) : c.Fits s := by
  induction h with
  | input => trivial
  | constant value => trivial
  | component function hi size ih => exact ⟨ih, component_fills _ _ size⟩
  | inputComponent hi size => exact ⟨trivial, component_fills _ _ size⟩
  | binary left right sizes size ihl ihr =>
    exact ⟨ihl, ihr, fun x y => combine_settles _ _ _ x y fun _ _ => Failure.isError_error _⟩
  | unary function size ih =>
    exact ⟨ih, fun x => transform_settles _ _ x fun _ _ => Failure.isError_error _⟩
  | guarded function ih => exact ih
  | @gradient g route output routed size =>
    show Settles _ (g.evaluate route s) fun d => d.length = output.size
    rw [size]
    exact g.evaluate_inBounds hs route
  | traced function ih => exact ih

end Closure

namespace Node

theorem specializeComponent_inBounds {c : Closure (NodalField Binary64)} (h : c.Fits s) (i : Nat) :
    Settles Failure.IsError (specializeComponent s c i) fun _ => True := by
  apply h.probe_inBounds.bind
  intro probe _
  refine .require (fun _ => Failure.isError_error _) fun _ => .record <| .pure trivial

theorem binary_inBounds {left right : Node (NodalField Binary64)} (op : BinaryOp)
    (hs : s.Made)
    (ihl : Settles Failure.IsError (left.specialize s) (Closure.Suits s left))
    (ihr : Settles Failure.IsError (right.specialize s) (Closure.Suits s right)) :
    Settles Failure.IsError ((binary left right op).specialize s) fun _ => True := by
  apply ihl.bind
  intro l hl
  apply ihr.bind
  intro r hr
  apply (hl.fits hs).probe_inBounds.bind
  rintro ⟨x, l'⟩ -
  apply (hr.fits hs).probe_inBounds.bind
  rintro ⟨y, r'⟩ -
  dsimp only
  cases Broadcast.ofSizes? x.size y.size with
  | none => exact .fail (Failure.isError_error _)
  | some mode => exact .record (.pure trivial)

/-- Specialization stays within bounds at every sample. -/
theorem specialize_inBounds (f : Node (NodalField Binary64)) (hs : s.Made) :
    Settles Failure.IsError (f.specialize s) (Closure.Suits s f) := by
  -- that the closures suit is known, so that only the failures are left to the induction
  induction f with
  | input => exact .pure .input
  | constant value => exact .pure (.constant value)
  | component f i ih =>
    apply (specialize_settles (component f i) hs).knowing
    apply ih.bind
    intro c hc
    exact specializeComponent_inBounds (hc.fits hs) i
  | inputComponent i =>
    apply (specialize_settles (inputComponent i) hs).knowing
    exact specializeComponent_inBounds (show Closure.input.Fits s from trivial) i
  | binary left right op ihl ihr =>
    exact (specialize_settles (binary left right op) hs).knowing (binary_inBounds op hs ihl ihr)
  | unary f op ih =>
    apply (specialize_settles (unary f op) hs).knowing (Q := fun _ => True)
    apply ih.bind
    intro c hc
    exact (hc.fits hs).probe_inBounds.bind fun _ _ => .pure trivial
  | guarded f ih =>
    apply ih.bind
    intro c hc
    exact .pure (.guarded hc)
  | gradient g =>
    apply (specialize_settles (gradient g) hs).knowing (Q := fun _ => True)
    have errors (e : Error Binary64) : (Failure.error e).IsError := Failure.isError_error e
    exact (g.specialize_fails (errors _) (fun _ => errors _) s).bind fun _ _ => .pure trivial
  | traced label f ih =>
    apply Settles.record
    apply ih.bind
    intro c hc
    exact .pure (.traced hc)
  | refusing => exact .fail (Failure.isError_error _)

end Node

/-- A function never runs out of bounds, neither when it is specialized nor when the closure that it
was specialized to is called, after whatever calls and at a sample of whatever kind; and what a call
computes for an output is as long as the output. -/
theorem stays_in_bounds (f : Node (NodalField Binary64)) {s₀ : Sample Binary64 (Grid Binary64)}
    (hs₀ : s₀.Made) (ctx₀ : Context) :
    (f.specialize s₀ ctx₀).1 ≠ .error .outOfBounds ∧
      ∀ closure ctx₁, f.specialize s₀ ctx₀ = (.ok closure, ctx₁) →
        ∀ (calls : List (Sample Binary64 (Grid Binary64) × Context))
          (s : Sample Binary64 (Grid Binary64)), s.Made → ∀ ctx : Context,
          ((closure.afterCalls calls).run s ctx).1.outcome ≠ .error .outOfBounds ∧
            (closure.afterCalls calls).Fits s := by
  refine ⟨(f.specialize_inBounds hs₀).ne_outOfBounds ctx₀, ?_⟩
  intro closure ctx₁ specialized calls s hs ctx
  have suits := ((f.specialize_settles hs₀).of_ok specialized).after_calls calls
  have fits := suits.fits hs
  have call := fits.evaluate_inBounds.ne_outOfBounds ctx
  rw [Closure.evaluate_apply] at call
  exact ⟨call, fits⟩

/-- The component of a gradient that is prepared for a raw value, called at a value of no size and
then at a node of another mesh. -/
theorem stays_in_bounds_any_kind :
    let axis : Axis Binary64 := (Axis.make 2 (.ofRat 0) (.ofRat 1) (by decide)).value
    let g : Grid Binary64 := ⟨0, [axis], by decide, by decide⟩
    let field : NodalField Binary64 :=
      ⟨g, 1, NodalField.rowsOf [.ofRat 0, .ofRat 1, .ofRat 3] rfl, by decide, by decide⟩
    let f : Node (NodalField Binary64) := .component (.gradient ⟨field⟩) 0
    let half : Sample Binary64 (Grid Binary64) := .value (.vector [.ofRat (1 / 2)])
    let nothing : Sample Binary64 (Grid Binary64) := .value (.vector [])
    let foreign : Grid Binary64 := ⟨1, [axis, axis], by decide, by decide⟩
    ∃ closure ctx₁ p ctx, f.specialize half {} = (.ok closure, ctx₁) ∧
      NodePoint.create foreign 4 {} = (.ok p, ctx) ∧
      ((closure.afterCalls [(nothing, {})]).run (.node p) {}).1.outcome ≠ .error .outOfBounds := by
  intro axis g field f half nothing foreign
  obtain ⟨closure, ctx₁, specialized⟩ :=
    Eval.exists_of_isOk (show (f.specialize half {}).1.isOk = true by decide +kernel)
  obtain ⟨p, ctx, created⟩ :=
    Eval.exists_of_isOk (show (NodePoint.create foreign 4 {}).1.isOk = true by decide +kernel)
  refine ⟨closure, ctx₁, p, ctx, specialized, created, ?_⟩
  exact ((stays_in_bounds f (.value _) {}).2 closure ctx₁ specialized [(nothing, {})] (.node p)
    (.node created) {}).1

end
end FieldGraph
