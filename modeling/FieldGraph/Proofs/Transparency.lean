import FieldGraph.Proofs.Calls
import FieldGraph.Proofs.SharedKinds

/-!
# Transparency of the store

Over nodal fields a call of an evaluator answers what its root means at the sample if
a closure is made for it, and also if the closure is taken from the store and was made
for a position of the same size, whatever earlier calls left in it. A stored closure
that was made for a position of another size, on a mesh that had the address before,
answers this too if the root can be reused, and nothing otherwise.
-/

namespace FieldGraph

/-- The components that a call delivers, if it succeeds. -/
def answer (outcome : Except (Failure Binary64) (Container Binary64)) : Option (List Binary64) :=
  outcome.toOption.map (·.data)

section
variable {s₀ s : Sample Binary64 (Grid Binary64)} {f : Node (NodalField Binary64)}
  {c : Closure (NodalField Binary64)}

namespace Closure

theorem Suits.answer_run (h : Suits s f c) (hs : s.Made) (ctx : Context) :
    answer (c.run s ctx).1.outcome = (f.meaning s).result := by
  obtain ⟨agree, -⟩ := h.follows hs ctx
  rw [evaluate_apply] at agree
  generalize (c.run s ctx).1.outcome = o, (f.meaning s).result = r at agree ⊢
  cases agree with
  | ok related => exact congrArg some related.1
  | error hv => rfl

theorem Suits.answer_run_again (h : Suits s₀ f c) (again : f.MeetsAgain s₀ s) (ctx : Context) :
    (f.Reusable s₀.position.size s.position.size →
        answer (c.run s ctx).1.outcome = (f.meaning s).result) ∧
      (¬f.Reusable s₀.position.size s.position.size →
        answer (c.run s ctx).1.outcome = none) := by
  refine ⟨fun reuse => (h.of_reusable again reuse).answer_run again.now.made ctx, fun mismatch => ?_⟩
  cases outcome : (c.run s ctx).1.outcome with
  | error failure => rfl
  | ok v =>
    obtain ⟨_, _, returned⟩ := exists_returns outcome
    exact absurd (h.reusable_of_returns again returned) mismatch

end Closure

end

namespace GraphEvaluator

abbrev Suited (samples : Sample Binary64 (Grid Binary64) → Prop) (root : Node (NodalField Binary64))
    (settings : Settings) : GraphEvaluator (NodalField Binary64) → Prop :=
  Evaluator.KeepsMade samples root settings fun first c => Closure.Suits first root c

variable {root : Node (NodalField Binary64)} {settings : Settings}
  {samples : Sample Binary64 (Grid Binary64) → Prop} {ev : GraphEvaluator (NodalField Binary64)}

theorem suited_history (root : Node (NodalField Binary64)) (settings : Settings)
    (requests : List (Request (Sample Binary64 (Grid Binary64))))
    (met : ∀ s, .evaluate s ∈ requests → root.Meets s) (ctx : Context) :
    Suited (fun s => .evaluate s ∈ requests) root settings
      ((Evaluator.ofRoot root settings : GraphEvaluator _).history requests ctx).1.2 :=
  Evaluator.keepsMade_history root settings requests
    (fun requested specialized => (root.specialize_settles (met _ requested).made).of_ok specialized)
    (fun s ctx suits => suits.after_run s ctx) ctx

/-- A call answers what the root means at the sample, or nothing if the closure that it finds was made
for another size and cannot be reused. -/
theorem Suited.answer_evaluate (h : Suited samples root settings ev)
    (met : ∀ s, samples s → root.Meets s) {s : Sample Binary64 (Grid Binary64)} (hs : root.Meets s)
    (ctx : Context) :
    ∃ first, ev.MadeFor samples s first ∧
      (root.Reusable first.position.size s.position.size ∨ s.position.size = first.position.size →
        answer (ev.evaluate s ctx).1.outcome = (root.meaning s).result) ∧
      (¬root.Reusable first.position.size s.position.size →
        answer (ev.evaluate s ctx).1.outcome = none) := by
  have settles := root.specialize_settles hs.made
  rcases h.called settles.of_ok ctx with
    ⟨failure, c, c', self, specialized, refused⟩ | ⟨first, closure, c, use, suits, called⟩
  · have nothing := settles.of_error specialized
    rw [refused]
    exact ⟨s, self, fun _ => nothing.symm, fun _ => rfl⟩
  · have again : root.MeetsAgain first s := ⟨use.of_forall met hs, hs, use.kind.symm⟩
    obtain ⟨answered, nothing⟩ := suits.answer_run_again again c
    rw [← called]
    exact ⟨first, use, fun h => answered (h.elim id suits.reusable_of_size), nothing⟩

theorem Suited.answer_eq_some (h : Suited samples root settings ev)
    (met : ∀ s, samples s → root.Meets s) {s : Sample Binary64 (Grid Binary64)} (hs : root.Meets s)
    {ctx : Context} {xs : List Binary64} (hx : answer (ev.evaluate s ctx).1.outcome = some xs) :
    (root.meaning s).result = some xs := by
  obtain ⟨first, -, answered, nothing⟩ := h.answer_evaluate met hs ctx
  by_cases reuse : root.Reusable first.position.size s.position.size
  · exact (answered (.inl reuse)).symm.trans hx
  · cases (nothing reuse).symm.trans hx

end GraphEvaluator

/-- After any history an evaluator that keeps closures answers a call as one does that keeps none, if the
root can be reused from the size for which the closure in use was made. It can be if the sizes are
the same, as they are on one mesh. If it cannot, the call fails. -/
theorem caching_transparent (root : Node (NodalField Binary64)) (limit limit' : Nat)
    (guarding : Bool) (requests : List (Request (Sample Binary64 (Grid Binary64))))
    (met : ∀ s, .evaluate s ∈ requests → root.Meets s) (c c' : Context)
    {s : Sample Binary64 (Grid Binary64)} (hs : root.Meets s) (ctx ctx' : Context) :
    let keeping := ((GraphEvaluator.ofNode root ⟨limit, true, guarding⟩).history requests c).1.2
    let plain := ((GraphEvaluator.ofNode root ⟨limit', false, guarding⟩).history requests c').1.2
    let kept := answer (keeping.evaluate s ctx).1.outcome
    let fresh := answer (plain.evaluate s ctx').1.outcome
    ∃ first, ((keeping.stored? s).isSome → .evaluate first ∈ requests) ∧
      (keeping.stored? s = none → first = s) ∧ first.kind = s.kind ∧
      (root.Reusable first.position.size s.position.size ∨ s.position.size = first.position.size →
        kept = fresh) ∧
      (¬root.Reusable first.position.size s.position.size → kept = none) := by
  intro keeping plain kept fresh
  let f : Node (NodalField Binary64) := if guarding then .guarded root else root
  have met' : ∀ s, .evaluate s ∈ requests → f.Meets s := fun s hs => (met s hs).guarding
  have suited : GraphEvaluator.Suited _ f _ keeping := GraphEvaluator.suited_history f _ requests met' c
  have suited' : GraphEvaluator.Suited _ f _ plain := GraphEvaluator.suited_history f _ requests met' c'
  have reusable (n n' : Nat) : root.Reusable n n' = f.Reusable n n' := by cases guarding <;> rfl
  have meant : fresh = (f.meaning s).result := by
    obtain ⟨first, use, answered, -⟩ := suited'.answer_evaluate met' hs.guarding ctx'
    have missing : plain.stored? s = none := plain.stored?_eq_none s (by rw [suited'.settings_eq])
    exact answered (.inr (use.fresh missing ▸ rfl))
  simp only [meant, reusable]
  obtain ⟨first, use, answered, nothing⟩ := suited.answer_evaluate met' hs.guarding ctx
  exact ⟨first, use.requested, use.fresh, use.kind, answered, nothing⟩

/-- Two lines are kept at one address, one after the other. -/
theorem caching_transparent_abs :
    let line (upper : Rat) : Grid Binary64 :=
      ⟨0, [(Axis.make 1 (.ofRat 0) (.ofRat upper) Nat.one_pos).value], Nat.one_pos, (by decide : 1 ≤ 3)⟩
    let last (upper : Rat) : Sample Binary64 (Grid Binary64) :=
      .node ⟨line upper, 1, .vector [.ofRat upper]⟩
    let root : Node (NodalField Binary64) := .unary .input .abs
    let after (caching : Bool) :=
      ((GraphEvaluator.ofNode root ⟨1, caching, false⟩).history [.evaluate (last 1)] {}).1.2
    root.Meets (last 1) ∧ root.Meets (last 2) ∧ ((after true).stored? (last 2)).isSome ∧
      answer ((after true).evaluate (last 2) {}).1.outcome =
        answer ((after false).evaluate (last 2) {}).1.outcome := by
  intro line last root after
  have met : root.Meets (last 1) := ⟨.of_vertex (by decide) (by decide +kernel), nofun⟩
  have met' : root.Meets (last 2) := ⟨.of_vertex (by decide) (by decide +kernel), nofun⟩
  have requested {s} (h : .evaluate s ∈ [Request.evaluate (last 1)]) : s = last 1 :=
    Request.evaluate.inj (List.mem_singleton.mp h)
  have sizes (upper : Rat) : (last upper).position.size = 1 := rfl
  have hit : ((after true).stored? (last 2)).isSome := by decide +kernel
  refine ⟨met, met', hit, ?_⟩
  obtain ⟨first, requested', -, -, answered, -⟩ := caching_transparent root 1 1 false
    [.evaluate (last 1)] (fun s hs => requested hs ▸ met) {} {} met' {} {}
  rw [requested (requested' hit)] at answered
  exact answered (.inr ((sizes 2).trans (sizes 1).symm))

/-- A line and a square are kept at one address, one after the other. -/
theorem reused_address_unanswered :
    let axis : Axis Binary64 := (Axis.make 1 (.ofRat 0) (.ofRat 1) (by decide)).value
    let line : Grid Binary64 := ⟨0, [axis], by decide, by decide⟩
    let square : Grid Binary64 := ⟨0, [axis, axis], by decide, by decide⟩
    let first : Sample Binary64 (Grid Binary64) := .node ⟨line, 1, .vector [.ofRat 1]⟩
    let now : Sample Binary64 (Grid Binary64) := .node ⟨square, 1, .vector [.ofRat 1, .ofRat 0]⟩
    let root : Node (NodalField Binary64) := .unary .input .abs
    let after (caching : Bool) :=
      ((GraphEvaluator.ofNode root ⟨16, caching, false⟩).history [.evaluate first] {}).1.2
    root.Meets first ∧ root.Meets now ∧
      answer ((after true).evaluate now {}).1.outcome = none ∧
      answer ((after false).evaluate now {}).1.outcome = some [.ofRat 1, .ofRat 0] := by
  intro axis line square first now root after
  have met₀ : root.Meets first := ⟨.of_vertex (by decide) (by decide +kernel), nofun⟩
  have met : root.Meets now := ⟨.of_vertex (by decide) (by decide +kernel), nofun⟩
  exact ⟨met₀, met, by decide +kernel, by decide +kernel⟩

end FieldGraph
