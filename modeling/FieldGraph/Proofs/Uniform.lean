import FieldGraph.Evaluator.Graph

/-!
# Uniform computations

A computation is uniform if it does the same in every context: it delivers the
same, raises the same exceptions beside those that are raised already, and
writes the same entries after those that are written already. A guard looks at
the flags and takes them back, so holding and releasing it are not uniform; what
runs from the one to the other is.
-/

namespace FieldGraph

section
variable {α β : Type}

/-- What a computation delivers where nothing is raised and nothing is written yet. -/
def result (m : StateM Context α) : α := (m {}).1

/-- What it raises there, and so by itself. -/
def raises (m : StateM Context α) : Flags := (m {}).2.flags

def writes (m : StateM Context α) : List Entry := (m {}).2.journal

def Context.extend (c : Context) (raised : Flags) (written : List Entry) : Context :=
  ⟨c.flags ∪ raised, c.journal ++ written⟩

def Uniform (m : StateM Context α) : Prop :=
  ∀ c, m c = (result m, c.extend (raises m) (writes m))

theorem Context.bind_apply (m : StateM Context α) (f : α → StateM Context β) (c : Context) :
    (m >>= f) c = f (m c).1 (m c).2 := rfl

theorem Context.pure_apply (a : α) (c : Context) : (pure a : StateM Context α) c = (a, c) := rfl

theorem Context.run_apply {K : Type} (m : Eval K α) (c : Context) : m.run c = m c := rfl

theorem Context.extend_empty (c : Context) : c.extend ∅ [] = c := by
  simp only [extend, Flags.union_empty, List.append_nil]

theorem Context.empty_extend (r : Flags) (w : List Entry) : Context.extend {} r w = ⟨r, w⟩ := by
  simp only [extend, List.nil_append]
  rw [show (∅ : Flags) ∪ r = r from Flags.empty_union r]

theorem Context.extend_extend (c : Context) (r r' : Flags) (w w' : List Entry) :
    (c.extend r w).extend r' w' = c.extend (r ∪ r') (w ++ w') := by
  simp only [extend, Flags.union_assoc, List.append_assoc]

theorem Context.record_apply (e : Entry) (c : Context) :
    Context.record e c = ((), c.extend ∅ [e]) := by
  rw [extend, Flags.union_empty]
  rfl

theorem Context.notify_apply (n : Notice) (c : Context) :
    Context.notify n c = ((), c.extend ∅ [.notice n]) := record_apply _ c

theorem Uniform.of_effect {m : StateM Context α} (a : α) (r : Flags) (w : List Entry)
    (h : ∀ c, m c = (a, c.extend r w)) : Uniform m := by
  intro c
  simp only [result, raises, writes, h, Context.empty_extend]

end

namespace Uniform
variable {α β : Type}

theorem fst_apply {m : StateM Context α} (h : Uniform m) (c : Context) : (m c).1 = result m := by
  rw [h c]

theorem flags_apply {m : StateM Context α} (h : Uniform m) (c : Context) :
    (m c).2.flags = c.flags ∪ raises m := by
  rw [h c]
  rfl

theorem pure (a : α) : Uniform (Pure.pure a) :=
  .of_effect a ∅ [] fun c => by rw [c.extend_empty]; rfl

theorem bind {m : StateM Context α} {f : α → StateM Context β} (hm : Uniform m)
    (hf : ∀ a, Uniform (f a)) : Uniform (m >>= f) := by
  refine .of_effect (result (f (result m))) (raises m ∪ raises (f (result m)))
    (writes m ++ writes (f (result m))) fun c => ?_
  show f (m c).1 (m c).2 = _
  rw [hm c, hf, Context.extend_extend]

theorem record (e : Entry) : Uniform (Context.record e) :=
  .of_effect () ∅ [e] (Context.record_apply e)

theorem notify (n : Notice) : Uniform (Context.notify n) := record (.notice n)

end Uniform

/-! ## Evaluations -/

namespace Uniform
variable {K α β : Type}

theorem resume (o : Except (Failure K) α) : Uniform (Eval.resume o) := pure o

theorem deliver (a : α) : Uniform (Pure.pure a : Eval K α) :=
  pure (Except.ok a : Except (Failure K) α)

theorem fail (e : Error K) : Uniform (Eval.fail e : Eval K α) :=
  pure (Except.error (.error e) : Except (Failure K) α)

theorem calculate (x : Calc α) : Uniform (Eval.calculate x : Eval K α) :=
  .of_effect _ x.raised [] fun c => by rw [Context.extend, List.append_nil]; rfl

theorem andThen {m : Eval K α} {f : α → Eval K β} (hm : Uniform m)
    (hf : ∀ a, Uniform (f a)) : Uniform (m >>= f : Eval K β) := by
  show Uniform ((m : StateM Context (Except (Failure K) α)) >>= ExceptT.bindCont f)
  refine bind hm fun o => ?_
  cases o with
  | ok a => exact hf a
  | error failure => exact pure (Except.error failure : Except (Failure K) β)

theorem require {c : Prop} [Decidable c] {e : Error K} {m : Eval K α} (hm : Uniform m) :
    Uniform (if c then (do Eval.fail e; m) else m : Eval K α) := by
  split
  · exact (fail e).andThen fun _ => hm
  · exact hm

theorem notice (n : Notice) : Uniform (Eval.notify n : Eval K Unit) :=
  (notify n).bind fun _ => pure _

theorem entry (e : Entry) : Uniform (Eval.record e : Eval K Unit) :=
  (record e).bind fun _ => pure _

end Uniform

/-! ## Gradients -/

namespace Gradient
variable {K M V : Type} [Mesh K M] [FieldVariable K M V]

theorem take_uniform (g : Gradient V) (route : Route) (n : Notice) :
    Uniform (g.take route n : Eval K Route) :=
  (Uniform.notice n).andThen fun _ => (Uniform.calculate _).andThen fun _ => .deliver route

variable [DecidableEq M]

theorem specialize_uniform (g : Gradient V) (s : Sample K M) : Uniform (g.specialize s) := by
  unfold specialize
  cases s with
  | value c => exact .require (g.take_uniform _ _)
  | element p =>
    simp only
    split
    · exact g.take_uniform _ _
    · exact .require (g.take_uniform _ _)
  | node p =>
    simp only
    split
    · exact g.take_uniform _ _
    · exact .require (g.take_uniform _ _)

theorem evaluateElement_uniform (g : Gradient V) (s : Sample K M) :
    Uniform (g.evaluateElement s) := by
  unfold evaluateElement
  split
  · split
    · exact .calculate _
    · exact .fail _
  · exact .fail _

theorem evaluateNode_uniform (g : Gradient V) (s : Sample K M) : Uniform (g.evaluateNode s) := by
  unfold evaluateNode
  split
  · simp only
    split
    · refine (Uniform.calculate _).andThen fun elements => ?_
      split
      · exact .fail _
      · exact .calculate _
    · exact .fail _
  · exact .fail _

omit [DecidableEq M] in
theorem evaluateGlobal_uniform (g : Gradient V) (s : Sample K M) :
    Uniform (g.evaluateGlobal s) := by
  unfold evaluateGlobal
  refine .require ((Uniform.calculate _).andThen fun found => ?_)
  split
  · exact .deliver _
  · exact .fail _

theorem evaluate_uniform (g : Gradient V) (r : Route) (s : Sample K M) :
    Uniform (g.evaluate r s) := by
  cases r with
  | element => exact g.evaluateElement_uniform s
  | node => exact g.evaluateNode_uniform s
  | global => exact g.evaluateGlobal_uniform s

end Gradient

/-! ## Guards -/

section
variable {K α β : Type}

def Guard.judge (o : Except (Failure K) α) (raised : Flags) : Except (Failure K) α :=
  match o with
  | .error failure => .error failure
  | .ok a => if raised = ∅ then .ok a else .error (.error (.floatingPoint raised))

theorem Guard.check_apply (g : Guard) (c : Context) :
    (g.check : Eval K Unit) c =
      (judge (.ok ()) c.flags, { c with flags := g.saved }) := by
  show (if c.flags.isEmpty then pure () else Eval.fail (.floatingPoint c.flags) : Eval K Unit)
    { c with flags := g.saved } = _
  by_cases h : c.flags = ∅
  · rw [if_pos (Flags.isEmpty_iff.mpr h), judge, if_pos h]
    rfl
  · rw [if_neg (fun he => h (Flags.isEmpty_iff.mp he)), judge, if_neg h]
    rfl

theorem Guard.conclude_apply (g : Guard) (o : Except (Failure K) α) (c : Context) :
    g.conclude o c = (judge o c.flags, { c with flags := g.saved }) := by
  cases o with
  | error failure => rfl
  | ok a =>
    rw [conclude, Eval.bind_apply, check_apply]
    by_cases h : c.flags = ∅
    · simp only [judge, if_pos h]
      rfl
    · simp only [judge, if_neg h]

end

/-! ## Closures and functions -/

section
variable {M V : Type} [Mesh Binary64 M] [FieldVariable Binary64 M V] [DecidableEq M]

namespace Closure

theorem extract_uniform (c : Container Binary64) (start stop : Nat) :
    Uniform (extract c start stop) := by
  unfold extract
  split
  · exact .deliver _
  · exact .fail _

theorem combine_uniform (op : BinaryOp) (mode : Broadcast) (output l r : Container Binary64) :
    Uniform (combine op mode output l r) := .require (.calculate _)

theorem transform_uniform (op : UnaryOp) (output c : Container Binary64) :
    Uniform (transform op output c) := .require (.calculate _)

theorem deliver_uniform (output : Container Binary64) (rebuild : Container Binary64 → Closure V)
    {body : Eval Binary64 (List Binary64)} (h : Uniform body) :
    Uniform (deliver output rebuild body) := by
  refine Uniform.bind h fun o => ?_
  cases o with
  | ok data => exact .pure _
  | error failure => exact .pure _

/-- A guarded call leaves the flags alone and is judged by what its own body raises. -/
theorem run_guarded (s : Sample Binary64 M) (c : Closure V) (h : Uniform (c.run s)) (ctx : Context) :
    (guarded c).run s ctx =
      (⟨Guard.judge (result (c.run s)).outcome (raises (c.run s)), guarded (result (c.run s)).after⟩,
        ctx.extend ∅ (writes (c.run s))) := by
  let body := c.run s ⟨∅, ctx.journal⟩
  show (let o := Guard.conclude ⟨ctx.flags⟩ body.1.outcome body.2
    ((⟨o.1, guarded body.1.after⟩ : ClosureRun V), o.2)) = _
  simp only [Guard.conclude_apply, body]
  rw [h ⟨∅, ctx.journal⟩]
  simp only [Context.extend, Flags.empty_union, Flags.union_empty]

theorem run_uniform (s : Sample Binary64 M) : ∀ c : Closure V, Uniform (c.run s)
  | input => .pure _
  | constant _ => .pure _
  | component function start stop output => by
    refine (run_uniform s function).bind fun inner => ?_
    refine deliver_uniform output _ ?_
    refine (Uniform.resume inner.outcome).andThen fun c => ?_
    exact (extract_uniform c start stop).andThen fun x => .deliver [x]
  | binary left right op mode output => by
    refine (run_uniform s left).bind fun l => ?_
    cases l.outcome with
    | error failure => exact .pure _
    | ok x =>
      refine (run_uniform s right).bind fun r => ?_
      refine deliver_uniform output _ ?_
      exact (Uniform.resume r.outcome).andThen fun y => combine_uniform op mode output x y
  | unary function op output => by
    refine (run_uniform s function).bind fun inner => ?_
    refine deliver_uniform output _ ?_
    exact (Uniform.resume inner.outcome).andThen fun c => transform_uniform op output c
  | guarded function => by
    -- the guard itself is not uniform, but what is left of it after the call is
    have inner := run_uniform s function
    exact .of_effect _ _ _ (run_guarded s function inner)
  | gradient g route output => deliver_uniform output _ (g.evaluate_uniform route s)
  | traced label function => by
    refine (Uniform.record _).bind fun _ => ?_
    exact (run_uniform s function).bind fun _ => .pure _

theorem probe_uniform (s : Sample Binary64 M) (c : Closure V) : Uniform (c.probe s) := by
  have call : Uniform (do return .ok (← c.run s) :
      StateM Context (Except (Failure Binary64) (ClosureRun V))) :=
    (c.run_uniform s).bind fun _ => .pure _
  refine Uniform.andThen call fun call => ?_
  exact (Uniform.resume call.outcome).andThen fun _ => .deliver _

end Closure

namespace Node

theorem specializeComponent_uniform (s : Sample Binary64 M) (inner : Closure V) (i : Nat) :
    Uniform (specializeComponent s inner i) :=
  (inner.probe_uniform s).andThen fun _ =>
    .require <| (Uniform.notice _).andThen fun _ => .deliver _

theorem specialize_uniform (s : Sample Binary64 M) : ∀ f : Node V, Uniform (f.specialize s)
  | input => .deliver _
  | constant _ => .deliver _
  | component function i =>
    (specialize_uniform s function).andThen fun inner => specializeComponent_uniform s inner i
  | inputComponent i => specializeComponent_uniform s .input i
  | binary left right op => by
    refine (specialize_uniform s left).andThen fun l => ?_
    refine (specialize_uniform s right).andThen fun r => ?_
    refine (l.probe_uniform s).andThen fun (x, l') => ?_
    refine (r.probe_uniform s).andThen fun (y, r') => ?_
    dsimp only
    cases Broadcast.ofSizes? x.size y.size with
    | none => exact .fail _
    | some mode => exact (Uniform.notice _).andThen fun _ => .deliver _
  | unary function op =>
    (specialize_uniform s function).andThen fun inner =>
      (inner.probe_uniform s).andThen fun _ => .deliver _
  | guarded function => (specialize_uniform s function).andThen fun _ => .deliver _
  | gradient g => (g.specialize_uniform s).andThen fun _ => .deliver _
  | traced label function =>
    (Uniform.entry _).andThen fun _ => (specialize_uniform s function).andThen fun _ => .deliver _
  | refusing => .fail _

end Node
end
end FieldGraph
