import FieldGraph.Proofs.AmbientFlags
import Mathlib.Data.List.Induction

/-!
# Scopes of guards

A thread holds guards and releases them in reverse order. Between, it computes,
calls closures, which hold guards of their own, and looks at what is raised. What
happens on the thread is a sequence of events. In the scope of a guard the flags
are those that the events since its hold raise outside of scopes that have ended
since; its release brings back the flags that there were at its hold.
-/

namespace FieldGraph

/-! ## Events -/

inductive Event where
  | hold
  | raise (raised : Flags)
  | release
  deriving DecidableEq

namespace Event

/-- Every hold has its release, and every release its hold. -/
inductive Balanced : List Event → Prop where
  | nil : Balanced []
  | raise (r : Flags) {rest : List Event} (h : Balanced rest) : Balanced (raise r :: rest)
  | scope {inner rest : List Event} (within : Balanced inner) (after : Balanced rest) :
      Balanced (hold :: (inner ++ release :: rest))

/-- What is raised outside of `depth` scopes that are still to end and all that begin later. -/
def outside : Nat → List Event → Flags
  | _, [] => ∅
  | depth, hold :: rest => outside (depth + 1) rest
  | depth, release :: rest => outside (depth - 1) rest
  | 0, raise r :: rest => r ∪ outside 0 rest
  | depth + 1, raise _ :: rest => outside (depth + 1) rest

/-- What is raised outside of all scopes that the events begin and end. -/
def exposed (events : List Event) : Flags := outside 0 events

@[simp] theorem exposed_nil : exposed [] = ∅ := rfl

@[simp] theorem exposed_raise (r : Flags) : exposed [raise r] = r := Flags.union_empty r

namespace Balanced

theorem single (r : Flags) : Balanced [Event.raise r] := .raise r .nil

theorem scope_only {events : List Event} (h : Balanced events) :
    Balanced (hold :: (events ++ [release])) := .scope h .nil

theorem append {xs ys : List Event} (hx : Balanced xs) (hy : Balanced ys) : Balanced (xs ++ ys) := by
  induction hx with
  | nil => exact hy
  | raise r h ih => exact .raise r ih
  | @scope inner rest within after _ ih =>
    have joined := Balanced.scope within ih
    rwa [List.cons_append, List.append_assoc, List.cons_append]

/-- Within a scope balanced events do not show. -/
theorem outside_append {xs : List Event} (h : Balanced xs) (ys : List Event) (depth : Nat) :
    outside (depth + 1) (xs ++ ys) = outside (depth + 1) ys := by
  induction h generalizing depth ys with
  | nil => rfl
  | raise r h ih => exact ih ys depth
  | scope within after ihw iha =>
    rw [List.cons_append, outside, List.append_assoc, ihw, List.cons_append, outside]
    exact iha ys depth

theorem exposed_append {xs : List Event} (h : Balanced xs) (ys : List Event) :
    exposed (xs ++ ys) = exposed xs ∪ exposed ys := by
  induction h with
  | nil => exact (Flags.empty_union _).symm
  | @raise r rest h ih =>
    show r ∪ exposed (rest ++ ys) = (r ∪ exposed rest) ∪ exposed ys
    rw [ih, Flags.union_assoc]
  | @scope inner rest within after _ ih =>
    have skip (zs : List Event) : exposed (hold :: (inner ++ release :: zs)) = exposed zs := by
      rw [exposed, outside, within.outside_append, outside]
      rfl
    rw [List.cons_append, List.append_assoc, List.cons_append, skip, skip, ih]

theorem exposed_scope {events : List Event} (h : Balanced events) :
    exposed (hold :: (events ++ [release])) = ∅ := by
  rw [exposed, outside, h.outside_append]
  rfl

end Balanced
end Event

/-! ## What happens in a call -/

section
variable {K α β : Type}

theorem Eval.resume_ok_bind (a : α) (f : α → Eval K β) : (Eval.resume (.ok a) >>= f) = f a := rfl

theorem Eval.resume_error_bind (failure : Failure K) (f : α → Eval K β) :
    (Eval.resume (.error failure) >>= f) = Eval.resume (.error failure) := rfl

end

section
variable {M V : Type} [Mesh Binary64 M] [FieldVariable Binary64 M V] [DecidableEq M]

namespace Closure

/-- The events of a call, in order. What fails ends the call, but for the guards that are held. -/
def events (s : Sample Binary64 M) : Closure V → List Event
  | input => []
  | constant _ => []
  | component function .. => function.events s
  | binary left right op mode output =>
    left.events s ++ match (result (left.run s)).outcome with
      | .error _ => []
      | .ok x => right.events s ++ match (result (right.run s)).outcome with
        | .error _ => []
        | .ok y => [.raise (raises (combine op mode output x y))]
  | unary function op output =>
    function.events s ++ match (result (function.run s)).outcome with
      | .error _ => []
      | .ok x => [.raise (raises (transform op output x))]
  | guarded function => .hold :: (function.events s ++ [.release])
  | gradient g route _ => [.raise (raises (g.evaluate route s))]
  | traced _ function => function.events s

theorem events_balanced (s : Sample Binary64 M) : ∀ c : Closure V, Event.Balanced (c.events s)
  | input => .nil
  | constant _ => .nil
  | component function _ _ _ => events_balanced s function
  | binary left right op mode output => by
    refine (events_balanced s left).append ?_
    split
    · exact .nil
    · refine (events_balanced s right).append ?_
      split
      · exact .nil
      · exact .single _
  | unary function op output => by
    refine (events_balanced s function).append ?_
    split
    · exact .nil
    · exact .single _
  | guarded function => (events_balanced s function).scope_only
  | gradient _ _ _ => .single _
  | traced _ function => events_balanced s function

theorem flags_deliver (output : Container Binary64) (rebuild : Container Binary64 → Closure V)
    {body : Eval Binary64 (List Binary64)} (h : Uniform body) (ctx : Context) :
    (deliver output rebuild body ctx).2.flags = ctx.flags ∪ raises body := by
  rw [← h.flags_apply ctx]
  simp only [deliver, Context.bind_apply, Context.run_apply]
  rcases body ctx with ⟨failure | data, ctx'⟩ <;> rfl

/-- Where an operand has failed, nothing more is raised. -/
theorem flags_deliver_error (output : Container Binary64) (rebuild : Container Binary64 → Closure V)
    (failure : Failure Binary64) (ctx : Context) :
    (deliver output rebuild (Eval.resume (.error failure)) ctx).2.flags = ctx.flags :=
  (flags_deliver output rebuild (.resume _) ctx).trans (Flags.union_empty _)

theorem raises_extract (x : Container Binary64) (start stop : Nat) :
    raises (do return [← extract x start stop] : Eval Binary64 (List Binary64)) = ∅ := by
  unfold extract
  split <;> rfl

/-- What a call raises is what its events expose. -/
theorem raises_run (s : Sample Binary64 M) : ∀ c : Closure V,
    raises (c.run s) = Event.exposed (c.events s)
  | input => rfl
  | constant _ => rfl
  | component function start stop output => by
    rw [events, ← raises_run s function]
    simp only [raises, run, Context.bind_apply]
    cases (function.run s {}).1.outcome with
    | error failure =>
      rw [Eval.resume_error_bind, flags_deliver_error]
    | ok x =>
      have uniform := (extract_uniform x start stop).andThen fun y => .deliver [y]
      rw [Eval.resume_ok_bind, flags_deliver _ _ uniform, raises_extract, Flags.union_empty]
  | binary left right op mode output => by
    rw [events, (left.events_balanced s).exposed_append, ← raises_run s left]
    simp only [raises, result, run, Context.bind_apply]
    cases (left.run s {}).1.outcome with
    | error failure => exact (Flags.union_empty _).symm
    | ok x =>
      -- the right operand is called where the left one has left flags behind
      have answer := (right.run_uniform s).fst_apply (left.run s {}).2
      have flags := (right.run_uniform s).flags_apply (left.run s {}).2
      dsimp only
      rw [(right.events_balanced s).exposed_append, ← raises_run s right, Context.bind_apply,
        ← Flags.union_assoc, answer]
      refine Eq.trans ?_ (congrArg (· ∪ _) flags)
      rw [result]
      cases (right.run s {}).1.outcome with
      | error failure =>
        rw [Eval.resume_error_bind, flags_deliver_error]
        exact (Flags.union_empty _).symm
      | ok y =>
        rw [Eval.resume_ok_bind, flags_deliver _ _ (combine_uniform op mode output x y),
          Event.exposed_raise]
        rfl
  | unary function op output => by
    rw [events, (function.events_balanced s).exposed_append, ← raises_run s function]
    simp only [raises, result, run, Context.bind_apply]
    cases (function.run s {}).1.outcome with
    | error failure =>
      rw [Eval.resume_error_bind, flags_deliver_error, Event.exposed_nil, Flags.union_empty]
    | ok x =>
      rw [Eval.resume_ok_bind, flags_deliver _ _ (transform_uniform op output x),
        Event.exposed_raise]
      rfl
  | guarded function => by
    rw [events, (function.events_balanced s).exposed_scope]
    exact function.flags_guarded s {}
  | gradient g route output => by
    rw [events, Event.exposed_raise]
    exact (flags_deliver _ _ (g.evaluate_uniform route s) {}).trans (Flags.empty_union _)
  | traced label function => by
    rw [events, ← raises_run s function]
    exact ((function.run_uniform s).flags_apply _).trans (Flags.empty_union _)

end Closure

/-! ## Threads -/

/-- A thread of the program: its floating-point context, and the guards that it holds, the innermost
first. -/
structure Thread where
  context : Context
  held : List Guard := []

namespace Thread

inductive Step (M V : Type) where
  | hold
  | arithmetic (x : Flagged Binary64)
  | call (c : Closure V) (s : Sample Binary64 M)
  | raised
  | check
  | drop

/-- What the program gets to see of a step. -/
inductive Report where
  | nothing
  | answer (outcome : Except (Failure Binary64) (Container Binary64))
  | found (outcome : Except (Failure Binary64) Flags)
  | verdict (outcome : Except (Failure Binary64) Unit)

/-- Perform a step. Looking at flags and releasing need a guard, the innermost. -/
def perform (t : Thread) : Step M V → Option (Report × Thread)
  | .hold =>
    let (g, ctx) := Guard.take t.context
    some (.nothing, ⟨ctx, g :: t.held⟩)
  | .arithmetic x =>
    let (_, ctx) := (Eval.calculate (.ofFlagged x) : Eval Binary64 Binary64) t.context
    some (.nothing, ⟨ctx, t.held⟩)
  | .call c s =>
    let (run, ctx) := c.run s t.context
    some (.answer run.outcome, ⟨ctx, t.held⟩)
  | .raised =>
    match t.held with
    | [] => none
    | _ :: _ =>
      let (found, ctx) := (Guard.raised : Eval Binary64 Flags) t.context
      some (.found found, ⟨ctx, t.held⟩)
  | .check =>
    match t.held with
    | [] => none
    | g :: rest =>
      let (verdict, ctx) := g.check t.context
      some (.verdict verdict, ⟨ctx, rest⟩)
  | .drop =>
    match t.held with
    | [] => none
    | g :: rest =>
      let (_, ctx) := (g.release : Eval Binary64 Unit) t.context
      some (.nothing, ⟨ctx, rest⟩)

section
variable (t : Thread) {g : Guard} {rest : List Guard} (h : t.held = g :: rest)
include h

theorem perform_raised :
    t.perform (M := M) (V := V) .raised = some (.found (.ok t.context.flags), t) := by
  simp only [perform, h]
  exact congrArg (fun held => some (Report.found _, Thread.mk _ held)) h.symm

theorem perform_check :
    t.perform (M := M) (V := V) .check = some (.verdict (Guard.judge (.ok ()) t.context.flags),
      ⟨{ t.context with flags := g.saved }, rest⟩) := by
  simp only [perform, h, Guard.check_apply]

theorem perform_drop :
    t.perform (M := M) (V := V) .drop =
      some (.nothing, ⟨{ t.context with flags := g.saved }, rest⟩) := by
  simp only [perform, h]
  rfl

end

/-- The thread after a sequence of steps, if every guard that is released is held. -/
def run (t : Thread) (steps : List (Step M V)) : Option Thread :=
  steps.foldlM (fun t step => (t.perform step).map (·.2)) t

def Step.events : Step M V → List Event
  | hold => [.hold]
  | arithmetic x => [.raise x.raised]
  | call c s => c.events s
  | raised => []
  | check => [.release]
  | drop => [.release]

def events (steps : List (Step M V)) : List Event := steps.flatMap Step.events

theorem events_append (xs ys : List (Step M V)) : events (xs ++ ys) = events xs ++ events ys :=
  List.flatMap_append

theorem run_append (t : Thread) (xs ys : List (Step M V)) :
    t.run (xs ++ ys) = (t.run xs).bind fun t' => t'.run ys := List.foldlM_append

theorem run_single (t : Thread) (step : Step M V) : t.run [step] = (t.perform step).map (·.2) := by
  show ((t.perform step).map (·.2)).bind some = _
  cases t.perform step <;> rfl

/-! ## Runs -/

/-- What a run has come to: either all guards have been released, or the innermost one was held in the
middle of a run before which, and since which, they have been. -/
inductive Nested (start : Thread) : List (Step M V) → Thread → Prop where
  | outermost {steps : List (Step M V)} {t : Thread} (balanced : Event.Balanced (events steps))
      (held : t.held = [])
      (flags : t.context.flags = start.context.flags ∪ Event.exposed (events steps)) :
      Nested start steps t
  | inside {before since : List (Step M V)} {t₀ t : Thread} (reached : start.run before = some t₀)
      (outer : Nested start before t₀) (balanced : Event.Balanced (events since))
      (held : t.held = ⟨t₀.context.flags⟩ :: t₀.held)
      (flags : t.context.flags = Event.exposed (events since)) :
      Nested start (before ++ .hold :: since) t

namespace Nested
variable {start t t' : Thread} {steps more : List (Step M V)}

/-- Steps that release what they hold stay in the scope that they begin in. -/
theorem extend (h : Nested start steps t) (balanced : Event.Balanced (events more))
    (held : t'.held = t.held)
    (flags : t'.context.flags = t.context.flags ∪ Event.exposed (events more)) :
    Nested start (steps ++ more) t' := by
  cases h with
  | outermost balanced₀ held₀ flags₀ =>
    refine .outermost ?_ (held.trans held₀) ?_
    · rw [events_append]
      exact balanced₀.append balanced
    · rw [flags, flags₀, events_append, balanced₀.exposed_append, Flags.union_assoc]
  | @inside before since t₀ _ reached outer balanced₀ held₀ flags₀ =>
    rw [List.append_assoc, List.cons_append]
    refine .inside reached outer ?_ (held.trans held₀) ?_
    · rw [events_append]
      exact balanced₀.append balanced
    · rw [flags, flags₀, events_append, balanced₀.exposed_append]

theorem release (h : Nested start steps t) {g : Guard} {rest : List Guard}
    (held : t.held = g :: rest) {step : Step M V} (ends : step.events = [.release])
    (held' : t'.held = rest) (flags' : t'.context.flags = g.saved) :
    Nested start (steps ++ [step]) t' := by
  cases h with
  | outermost _ held₀ _ =>
    rw [held] at held₀
    cases held₀
  | @inside before since t₀ _ reached outer balanced held₀ flags =>
    rw [held₀] at held
    cases held
    have scope : events (.hold :: (since ++ [step])) = .hold :: (events since ++ [.release]) := by
      show Event.hold :: events (since ++ [step]) = _
      rw [events_append, ← ends]
      exact congrArg (fun es => Event.hold :: (events since ++ es)) (List.append_nil _)
    rw [List.append_assoc, List.cons_append]
    refine outer.extend ?_ held' ?_
    · rw [scope]
      exact balanced.scope_only
    · rw [scope, balanced.exposed_scope, Flags.union_empty]
      exact flags'

theorem perform (reached : start.run steps = some t) (h : Nested start steps t) {step : Step M V}
    {report : Report} (performed : t.perform step = some (report, t')) :
    Nested start (steps ++ [step]) t' := by
  have single : events [step] = step.events := List.append_nil _
  cases step with
  | hold =>
    cases performed
    exact .inside reached h .nil rfl rfl
  | arithmetic x =>
    cases performed
    refine h.extend (Event.Balanced.single x.raised) rfl ?_
    rw [single, Step.events, Event.exposed_raise]
    rfl
  | call c s =>
    cases performed
    refine h.extend ?_ rfl ?_
    · rw [single]
      exact c.events_balanced s
    · rw [single, Step.events, ← c.raises_run s]
      exact (c.run_uniform s).flags_apply t.context
  | raised =>
    simp only [Thread.perform] at performed
    split at performed
    · cases performed
    · cases performed
      exact h.extend .nil rfl (Flags.union_empty _).symm
  | check =>
    simp only [Thread.perform, Guard.check_apply] at performed
    split at performed
    · cases performed
    · next held =>
      cases performed
      exact h.release held rfl rfl rfl
  | drop =>
    simp only [Thread.perform] at performed
    split at performed
    · cases performed
    · next held =>
      cases performed
      exact h.release held rfl rfl rfl

theorem run (bare : start.held = []) (reached : start.run steps = some t) : Nested start steps t := by
  induction steps using List.reverseRecOn generalizing t with
  | nil =>
    cases reached
    exact .outermost .nil bare (Flags.union_empty _).symm
  | append_singleton steps step ih =>
    rw [run_append] at reached
    obtain ⟨t₁, before, last⟩ := Option.bind_eq_some_iff.mp reached
    rw [run_single] at last
    obtain ⟨⟨report, _⟩, performed, rfl⟩ := Option.map_eq_some_iff.mp last
    exact (ih before).perform before performed

end Nested
end Thread

/-- On a thread that began without a guard, the guard that is innermost after a run was held in the
middle of the run, and what was held since has been released. Raised and checked are the flags that
the run has raised since then outside of the scopes that have ended; with its release, be it checked
or dropped, the flags are those of the moment at which it was held, and so are the guards. -/
theorem guards_form_stack (start : Thread) (bare : start.held = []) (steps : List (Thread.Step M V))
    (t : Thread) (ran : start.run steps = some t) (innermost : Guard) (rest : List Guard)
    (held : t.held = innermost :: rest) :
    ∃ before since t₀, steps = before ++ .hold :: since ∧ start.run before = some t₀ ∧
      Event.Balanced (Thread.events since) ∧ innermost.saved = t₀.context.flags ∧ rest = t₀.held ∧
        let scope := Event.exposed (Thread.events since)
        t.perform (M := M) (V := V) .raised = some (.found (.ok scope), t) ∧
          (∃ t', t'.held = t₀.held ∧ t'.context.flags = t₀.context.flags ∧
            t.perform (M := M) (V := V) .check = some (.verdict (if scope = ∅ then .ok () else
              .error (.error (.floatingPoint scope))), t')) ∧
          ∃ t', t'.held = t₀.held ∧ t'.context.flags = t₀.context.flags ∧
            t.perform (M := M) (V := V) .drop = some (.nothing, t') := by
  cases Thread.Nested.run bare ran with
  | outermost _ none _ =>
    rw [none] at held
    cases held
  | @inside before since t₀ _ reached outer balanced held₀ flags =>
    rw [held₀] at held
    cases held
    let after : Thread := ⟨⟨t₀.context.flags, t.context.journal⟩, t₀.held⟩
    refine ⟨before, since, t₀, rfl, reached, balanced, rfl, rfl, ?_, ⟨after, rfl, rfl, ?_⟩,
      after, rfl, rfl, t.perform_drop held₀⟩
    · rw [t.perform_raised held₀, flags]
    · rw [t.perform_check held₀, flags]
      rfl

/-- A scope within which another one has ended and closures have been called, guarded and not. -/
theorem guards_form_stack_twice :
    let quotient : Closure (NodalField Binary64) :=
      .binary (.constant (.scalar (.ofRat 1))) .input .divide .matched (.scalar (.zero false))
    let zero : Sample Binary64 (Grid Binary64) := .value (.scalar (.zero false))
    let start : Thread := ⟨{ flags := { overflow := true } }, []⟩
    let steps : List (Thread.Step (Grid Binary64) (NodalField Binary64)) :=
      [.hold, .arithmetic ⟨.zero false, { underflow := true }⟩, .call (.guarded quotient) zero,
        .hold, .arithmetic ⟨.zero true, { invalid := true }⟩, .drop, .call quotient zero]
    start.held = [] ∧ ∃ t t' : Thread, start.run steps = some t ∧
      t.held = [⟨{ overflow := true }⟩] ∧
        t.perform (M := Grid Binary64) (V := NodalField Binary64) .check =
            some (.verdict (.error (.error (.floatingPoint
              { divideByZero := true, underflow := true }))), t') ∧
          t'.context.flags = { overflow := true } := by
  intro quotient zero start steps
  have final : (start.run steps).map (fun t => (t.held.map (·.saved), t.context.flags)) =
      some ([{ overflow := true }], { divideByZero := true, underflow := true }) := by
    decide +kernel
  obtain ⟨⟨ctx, held⟩, ran, seen⟩ := Option.map_eq_some_iff.mp final
  obtain ⟨guards, flags⟩ := Prod.mk.inj seen
  obtain ⟨g, rfl, saved⟩ := List.map_eq_singleton_iff.mp guards
  obtain ⟨before, since, t₀, -, -, -, hsaved, -, raised, ⟨t', -, back, checked⟩, -⟩ :=
    guards_form_stack start rfl steps ⟨ctx, [g]⟩ ran g [] rfl
  -- what the guard reports is what is raised at the moment
  have scope : ctx.flags = Event.exposed (Thread.events since) := by
    rw [Thread.perform_raised _ rfl] at raised
    exact Except.ok.inj (Thread.Report.found.inj (Prod.mk.inj (Option.some.inj raised)).1)
  rw [← scope, flags] at checked
  refine ⟨rfl, ⟨ctx, [g]⟩, t', ran, ?_, checked, ?_⟩
  · rw [← saved]
  · rw [back, ← hsaved, saved]

end
end FieldGraph
