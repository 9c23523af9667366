import FieldGraph.Proofs.Calls

/-!
# Ambient flags

Exceptions that are raised already when a function is specialized or a closure
is called have no influence on it, and it takes none of them back. A guarded
closure raises none itself. Specializing a guarded function is not guarded: what
its probes raise stays raised, so a guarded evaluator keeps the caller's flags
exactly on calls that find a closure or raise nothing new while making one.
-/

namespace FieldGraph

theorem Context.flags_written (c : Context) (w : List Entry) : (c.extend ∅ w).flags = c.flags :=
  Flags.union_empty _

section
variable {M V : Type} [Mesh Binary64 M] [FieldVariable Binary64 M V] [DecidableEq M]

/-! ## Guarded functions -/

namespace Closure

theorem guarded_apply (c : Closure V) (s : Sample Binary64 M) (ctx : Context) :
    (guarded c).run s ctx =
      (⟨Guard.judge (result (c.run s)).outcome (raises (c.run s)), guarded (result (c.run s)).after⟩,
        ctx.extend ∅ (writes (c.run s))) :=
  run_guarded s c (c.run_uniform s) ctx

theorem outcome_guarded (c : Closure V) (s : Sample Binary64 M) (ctx : Context) :
    ((guarded c).run s ctx).1.outcome =
      Guard.judge (result (c.run s)).outcome (raises (c.run s)) := by
  rw [guarded_apply]

theorem flags_guarded (c : Closure V) (s : Sample Binary64 M) (ctx : Context) :
    ((guarded c).run s ctx).2.flags = ctx.flags := by
  rw [guarded_apply, Context.flags_written]

def IsGuarded (c : Closure V) : Prop := ∃ inner : Closure V, c = guarded inner

theorem IsGuarded.flags_run {c : Closure V} (h : c.IsGuarded) (s : Sample Binary64 M)
    (ctx : Context) : (c.run s ctx).2.flags = ctx.flags := by
  obtain ⟨inner, rfl⟩ := h
  exact inner.flags_guarded s ctx

theorem IsGuarded.after_run {c : Closure V} (h : c.IsGuarded) (s : Sample Binary64 M)
    (ctx : Context) : (c.run s ctx).1.after.IsGuarded := by
  obtain ⟨inner, rfl⟩ := h
  rw [guarded_apply]
  exact ⟨_, rfl⟩

end Closure

namespace Node

theorem specialize_guarded (f : Node V) (s : Sample Binary64 M) (ctx : Context) :
    (guarded f).specialize s ctx =
      ((f.specialize s ctx).1.map Closure.guarded, (f.specialize s ctx).2) := by
  show (f.specialize s >>= fun c => pure (Closure.guarded c) : Eval Binary64 (Closure V)) ctx = _
  rw [Eval.bind_apply]
  rcases f.specialize s ctx with ⟨failure | c, ctx'⟩ <;> rfl

theorem isGuarded_of_specialize {f : Node V} {s : Sample Binary64 M} {c c' : Context}
    {closure : Closure V} (h : (guarded f).specialize s c = (.ok closure, c')) :
    closure.IsGuarded := by
  rw [specialize_guarded] at h
  cases hf : (f.specialize s c).1 with
  | error failure => rw [hf] at h; cases h
  | ok inner => rw [hf] at h; cases h; exact ⟨inner, rfl⟩

theorem flags_specialize_guarded (f : Node V) (s : Sample Binary64 M) (ctx : Context) :
    ((guarded f).specialize s ctx).2.flags = ctx.flags ∪ raises (f.specialize s) := by
  rw [specialize_guarded]
  exact (f.specialize_uniform s).flags_apply ctx

end Node

/-- Calling a closure and specializing a function do the same whatever is raised already, and add
exceptions of their own to it. A guarded closure adds none: it delivers what its argument does if
that raises nothing, and fails otherwise. -/
theorem ambient_flags_frame :
    (∀ (c : Closure V) (s : Sample Binary64 M) (ctx : Context),
      (c.run s ctx).1 = result (c.run s) ∧ (c.run s ctx).2.flags = ctx.flags ∪ raises (c.run s)) ∧
    (∀ (f : Node V) (s : Sample Binary64 M) (ctx : Context),
      (f.specialize s ctx).1 = result (f.specialize s) ∧
        (f.specialize s ctx).2.flags = ctx.flags ∪ raises (f.specialize s)) ∧
    (∀ (f : Node V) (s : Sample Binary64 M),
      result ((Node.guarded f).specialize s) = (result (f.specialize s)).map Closure.guarded) ∧
    (∀ (c : Closure V) (s : Sample Binary64 M) (ctx : Context),
      ((Closure.guarded c).run s ctx).2.flags = ctx.flags ∧
        ((Closure.guarded c).run s ctx).1.outcome =
          match (result (c.run s)).outcome with
          | .error failure => .error failure
          | .ok value =>
            if raises (c.run s) = ∅ then .ok value
            else .error (.error (.floatingPoint (raises (c.run s))))) := by
  refine ⟨fun c s ctx => ?_, fun f s ctx => ?_, fun f s => ?_, fun c s ctx => ?_⟩
  · exact ⟨(c.run_uniform s).fst_apply ctx, (c.run_uniform s).flags_apply ctx⟩
  · exact ⟨(f.specialize_uniform s).fst_apply ctx, (f.specialize_uniform s).flags_apply ctx⟩
  · rw [result, Node.specialize_guarded]
    rfl
  · refine ⟨c.flags_guarded s ctx, ?_⟩
    rw [c.outcome_guarded s ctx]
    cases (result (c.run s)).outcome <;> rfl

/-! ## Guarded evaluators -/

namespace GraphEvaluator

abbrev Guarded (root : Node V) (settings : Settings) : GraphEvaluator V → Prop :=
  Evaluator.Keeps (Node.guarded root) settings fun _ c => c.IsGuarded

theorem guarded_history (root : Node V) (limit : Nat) (caching : Bool)
    (requests : List (Request (Sample Binary64 M))) (c : Context) :
    Guarded root ⟨limit, caching, true⟩
      ((ofNode root ⟨limit, caching, true⟩).history requests c).1.2 := by
  have start : Guarded root ⟨limit, caching, true⟩ (ofNode root ⟨limit, caching, true⟩) :=
    .ofRoot ..
  exact start.history (Q := fun _ => True) (fun _ h => Node.isGuarded_of_specialize h)
    (fun s c h => h.after_run s c) requests (fun _ _ => trivial) c

/-- The guard covers a call of a closure, but not what is raised while the closure is made. -/
theorem Guarded.flags_evaluate {root : Node V} {settings : Settings} {ev : GraphEvaluator V}
    (h : Guarded root settings ev) (s : Sample Binary64 M) (ctx : Context) :
    (ev.evaluate s ctx).2.flags =
      if (ev.stored? s).isSome then ctx.flags else ctx.flags ∪ raises (root.specialize s) := by
  have specializing {w o c₁} (specialized : Specializable.specialize ev.root s (ctx.extend ∅ w) =
      ((o, c₁) : Except (Failure Binary64) (Closure V) × Context)) :
      c₁.flags = ctx.flags ∪ raises (root.specialize s) := by
    rw [h.root_eq] at specialized
    have flags := root.flags_specialize_guarded s (ctx.extend ∅ w)
    rwa [show Node.specialize s _ _ = _ from specialized, Context.flags_written] at flags
  -- the closure is guarded, whichever way the call has come by it
  have running {closure : Closure V} {c₁ w run c'} (guarded : closure.IsGuarded)
      (called : closure.run s (Context.extend c₁ ∅ w) = (run, c')) : c'.flags = c₁.flags := by
    have flags := guarded.flags_run s (c₁.extend ∅ w)
    rwa [called, Context.flags_written] at flags
  have served := ev.evaluate_served s ctx
  generalize (ev.evaluate s ctx).1 = call, (ev.evaluate s ctx).2 = ctx' at served ⊢
  cases served with
  | hit found w called =>
    rw [found]
    exact running (h.stored found) called
  | refused missing w specialized =>
    rw [missing]
    exact specializing specialized
  | made missing w specialized w' called =>
    rw [missing]
    have guarded := Node.isGuarded_of_specialize (h.root_eq ▸ specialized)
    exact (running guarded called).trans (specializing specialized)

end GraphEvaluator

/-- A call of a guarded evaluator leaves the caller's flags as they were, but for what is raised
while a closure is made. -/
theorem guarded_evaluator_flags (root : Node V) (limit : Nat) (caching : Bool)
    (requests : List (Request (Sample Binary64 M))) (c : Context) (s : Sample Binary64 M)
    (ctx : Context) :
    let ev := ((GraphEvaluator.ofNode root ⟨limit, caching, true⟩).history requests c).1.2
    (ev.evaluate s ctx).2.flags =
        (if (ev.stored? s).isSome then ctx.flags else ctx.flags ∪ raises (root.specialize s)) ∧
      ((ev.evaluate s ctx).2.flags = ctx.flags ↔
        (ev.stored? s).isSome ∨ raises (root.specialize s) ⊆ ctx.flags) := by
  intro ev
  have flags : (ev.evaluate s ctx).2.flags =
      if (ev.stored? s).isSome then ctx.flags else ctx.flags ∪ raises (root.specialize s) :=
    (GraphEvaluator.guarded_history root limit caching requests c).flags_evaluate s ctx
  refine ⟨flags, ?_⟩
  rw [flags]
  cases ev.stored? s with
  | some closure => simp
  | none =>
    simp only [Option.isSome_none, Bool.false_eq_true, if_false, false_or]
    rw [Flags.union_comm]
    rfl

end

/-- The root of a quotient leaks while it is specialized for a sample that is zero. -/
theorem guarded_evaluator_leaks :
    (((GraphEvaluator.ofNode (V := NodalField Binary64)
      (.unary (.binary (.constant (.scalar (.ofRat 1))) .input .divide) .sqrt) Settings.guarded).evaluate
        (.value (.scalar (.zero false))) {}).2.flags) = { divideByZero := true } := by
  decide +kernel

end FieldGraph
