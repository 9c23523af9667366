import FieldGraph.Proofs.AmbientFlags
import FieldGraph.Proofs.Bytes
import FieldGraph.Proofs.Kinds

/-!
# What functions mean

A function means a calculation on a sample, in which nothing is specialized,
stored or written to outputs. A closure that suits a function follows its
meaning: it delivers what the calculation does, raises the same exceptions, and
fails only at samples at which the calculation has no result.
-/

namespace FieldGraph

/-! ## The meaning of functions -/

section
variable {M V : Type} [Mesh Binary64 M] [FieldVariable Binary64 M V] [DecidableEq M]

def Gradient.meaning (g : Gradient V) (s : Sample Binary64 M) : Calc (List Binary64) :=
  match g.route? s with
  | some route => (g.evaluate route s).meaning
  | none => .read none

def Guard.meaning {α : Type} (x : Calc α) : Calc α :=
  .read (if x.raised = ∅ then x.result else none)

/-- What a function delivers and raises at a sample, read off the graph alone. -/
def Node.meaning (s : Sample Binary64 M) : Node V → Calc (List Binary64)
  | input => pure s.position.data
  | constant value => pure value.data
  | component function i => do
    let xs ← function.meaning s
    return [← .read xs[i]?]
  | inputComponent i => return [← .read s.position.data[i]?]
  | binary left right op => do
    let xs ← left.meaning s
    let ys ← right.meaning s
    let mode ← Calc.read (Broadcast.ofSizes? xs.length ys.length)
    Calc.ofFlagged ((mode.pairs xs ys).mapM fun (x, y) => op.apply x y)
  | unary function op => do
    let xs ← function.meaning s
    Calc.ofFlagged (xs.mapM op.apply)
  | guarded function => Guard.meaning (function.meaning s)
  | gradient g => g.meaning s
  | traced _ function => function.meaning s
  | refusing => .read none

/-- A closure is made for the sample and called at it. -/
def Node.evaluate (s : Sample Binary64 M) (f : Node V) : Eval Binary64 (Container Binary64) := do
  (← f.specialize s).evaluate s

/-! ## Calls as evaluations -/

namespace Closure

theorem evaluate_apply (c : Closure V) (s : Sample Binary64 M) (ctx : Context) :
    c.evaluate s ctx = ((c.run s ctx).1.outcome, (c.run s ctx).2) := rfl

theorem probe_apply (c : Closure V) (s : Sample Binary64 M) (ctx : Context) :
    c.probe s ctx = (match (c.run s ctx).1.outcome with
      | .ok v => .ok (v, (c.run s ctx).1.after)
      | .error failure => .error failure, (c.run s ctx).2) := by
  show (do return (← Eval.resume (c.run s ctx).1.outcome, (c.run s ctx).1.after) :
    Eval Binary64 (Container Binary64 × Closure V)) (c.run s ctx).2 = _
  cases (c.run s ctx).1.outcome <;> rfl

variable (s : Sample Binary64 M)

theorem probe_deliver (output : Container Binary64) (rebuild : Container Binary64 → Closure V)
    (body : Eval Binary64 (List Binary64)) (ctx : Context) :
    (match (deliver output rebuild body ctx).1.outcome with
      | .ok v => .ok (v, (deliver output rebuild body ctx).1.after)
      | .error failure => .error failure, (deliver output rebuild body ctx).2) =
      (do
        let data ← body
        return (output.write data, rebuild (output.write data)) :
          Eval Binary64 (Container Binary64 × Closure V)) ctx := by
  rw [Eval.bind_apply]
  simp only [deliver, Context.bind_apply, Context.run_apply]
  rcases body ctx with ⟨failure | data, ctx'⟩ <;> rfl

/-- A probe takes one step for each operand and one for the closure's own output. -/
theorem probe_component (c : Closure V) (start stop : Nat) (output : Container Binary64) :
    (component c start stop output).probe s = do
      let (x, c') ← c.probe s
      let y ← extract x start stop
      return (output.write [y], component c' start stop (output.write [y])) := by
  funext ctx
  rw [probe_apply]
  simp only [run, Context.bind_apply, probe_deliver, Eval.bind_apply, probe_apply, Eval.resume]
  rcases c.run s ctx with ⟨⟨failure | x, after⟩, ctx'⟩
  · rfl
  · dsimp only
    rcases extract x start stop ctx' with ⟨failure | y, ctx''⟩ <;> rfl

theorem probe_binary (l r : Closure V) (op : BinaryOp) (mode : Broadcast)
    (output : Container Binary64) :
    (binary l r op mode output).probe s = do
      let (x, l') ← l.probe s
      let (y, r') ← r.probe s
      let data ← combine op mode output x y
      return (output.write data, binary l' r' op mode (output.write data)) := by
  funext ctx
  rw [probe_apply]
  simp only [run, Context.bind_apply, Eval.bind_apply, probe_apply]
  rcases l.run s ctx with ⟨⟨failure | x, after⟩, ctx'⟩
  · rfl
  · simp only [Context.bind_apply, probe_deliver, Eval.bind_apply, Eval.resume]
    rcases r.run s ctx' with ⟨⟨failure | y, after⟩, ctx''⟩ <;> rfl

theorem probe_unary (c : Closure V) (op : UnaryOp) (output : Container Binary64) :
    (unary c op output).probe s = do
      let (x, c') ← c.probe s
      let data ← transform op output x
      return (output.write data, unary c' op (output.write data)) := by
  funext ctx
  rw [probe_apply]
  simp only [run, Context.bind_apply, probe_deliver, Eval.bind_apply, probe_apply, Eval.resume]
  rcases c.run s ctx with ⟨⟨failure | x, after⟩, ctx'⟩ <;> rfl

theorem probe_gradient (g : Gradient V) (route : Route) (output : Container Binary64) :
    (gradient g route output).probe s = do
      let data ← g.evaluate route s
      return (output.write data, gradient g route (output.write data)) := by
  funext ctx
  rw [probe_apply]
  exact probe_deliver output _ _ ctx

theorem probe_traced (label : String) (c : Closure V) :
    (traced label c).probe s = (do
      Eval.record (.passage .evaluate label)
      let (v, c') ← c.probe s
      return (v, traced label c')) := by
  funext ctx
  rw [probe_apply]
  show _ = (c.probe s >>= fun p => pure (p.1, traced label p.2))
    (Context.record (.passage .evaluate label) ctx).2
  simp only [run, Context.bind_apply, Context.pure_apply, Eval.bind_apply, probe_apply]
  rcases c.run s (Context.record (.passage .evaluate label) ctx).2
    with ⟨⟨failure | x, after⟩, ctx'⟩ <;> rfl

theorem evaluate_eq_probe (c : Closure V) :
    c.evaluate s = do return (← c.probe s).1 := by
  funext ctx
  rw [evaluate_apply, Eval.bind_apply, probe_apply]
  rcases c.run s ctx with ⟨⟨failure | x, after⟩, ctx'⟩ <;> rfl

theorem evaluate_component (c : Closure V) (start stop : Nat) (output : Container Binary64) :
    (component c start stop output).evaluate s = do
      let x ← extract (← c.evaluate s) start stop
      return output.write [x] := by
  simp only [evaluate_eq_probe, probe_component, bind_assoc, pure_bind]

theorem evaluate_binary (l r : Closure V) (op : BinaryOp) (mode : Broadcast)
    (output : Container Binary64) :
    (binary l r op mode output).evaluate s = do
      let x ← l.evaluate s
      let y ← r.evaluate s
      return output.write (← combine op mode output x y) := by
  simp only [evaluate_eq_probe, probe_binary, bind_assoc, pure_bind]

theorem evaluate_unary (c : Closure V) (op : UnaryOp) (output : Container Binary64) :
    (unary c op output).evaluate s = do
      let x ← c.evaluate s
      return output.write (← transform op output x) := by
  simp only [evaluate_eq_probe, probe_unary, bind_assoc, pure_bind]

theorem evaluate_gradient (g : Gradient V) (route : Route) (output : Container Binary64) :
    (gradient g route output).evaluate s = do return output.write (← g.evaluate route s) := by
  simp only [evaluate_eq_probe, probe_gradient, bind_assoc, pure_bind]

theorem evaluate_traced (label : String) (c : Closure V) :
    (traced label c).evaluate s =
      (Eval.record (.passage .evaluate label) >>= fun _ => c.evaluate s) := rfl

/-! ## What calls come to -/

section
variable {s : Sample Binary64 M} {c : Closure V} {E : Failure Binary64 → Prop}
  {P : Container Binary64 → Prop}

theorem extract_settles (x : Container Binary64) (start stop : Nat)
    (missing : ∀ i n, E (.error (.componentOutOfRange i n))) :
    Settles E (extract x start stop) fun _ => True := by
  unfold extract
  split
  · exact .pure trivial
  · exact .fail (missing _ _)

theorem combine_of_sizes (op : BinaryOp) {mode : Broadcast} {output x y : Container Binary64}
    (h : (x.size, y.size) = mode.operandSizes output.size) :
    combine op mode output x y =
      Eval.calculate (.ofFlagged ((mode.pairs x.data y.data).mapM fun (a, b) => op.apply a b)) :=
  if_neg (not_not_intro h)

theorem transform_of_size (op : UnaryOp) {output x : Container Binary64} (h : x.size = output.size) :
    transform op output x = Eval.calculate (.ofFlagged (x.data.mapM op.apply)) :=
  if_neg (not_not_intro h)

theorem combined_delivers (op : BinaryOp) {mode : Broadcast} {output x y : Container Binary64}
    (h : (x.size, y.size) = mode.operandSizes output.size) :
    (Calc.ofFlagged ((mode.pairs x.data y.data).mapM fun (a, b) => op.apply a b)).Delivers
      fun data => data.length = output.size := by
  refine .flagged ?_
  rw [Flagged.value_mapM, List.length_map]
  exact Broadcast.length_pairs h

theorem transformed_delivers (op : UnaryOp) {output x : Container Binary64}
    (h : x.size = output.size) :
    (Calc.ofFlagged (x.data.mapM op.apply)).Delivers fun data => data.length = output.size := by
  refine .flagged ?_
  rw [Flagged.value_mapM, List.length_map]
  exact h

theorem combine_settles (op : BinaryOp) (mode : Broadcast) (output x y : Container Binary64)
    (mismatch : ∀ l r, E (.error (.shapeMismatch l r))) :
    Settles E (combine op mode output x y) fun data => data.length = output.size :=
  .require (fun _ => mismatch _ _) fun sizes =>
    .calculate (combined_delivers op (Decidable.not_not.mp sizes))

theorem transform_settles (op : UnaryOp) (output x : Container Binary64)
    (mismatch : ∀ l r, E (.error (.shapeMismatch l r))) :
    Settles E (transform op output x) fun data => data.length = output.size :=
  .require (fun _ => mismatch _ _) fun size =>
    .calculate (transformed_delivers op (Decidable.not_not.mp size))

theorem probe_settles_of_evaluate {Q : Closure V → Prop} (h : Settles E (c.evaluate s) P)
    (after : ∀ ctx, Q (c.run s ctx).1.after) :
    Settles E (c.probe s) fun probe => P probe.1 ∧ Q probe.2 := by
  intro ctx
  have call := h ctx
  have left := after ctx
  rw [evaluate_apply] at call
  rw [probe_apply]
  generalize (c.run s ctx).1 = run at call left ⊢
  obtain ⟨o, c'⟩ := run
  rcases call with ⟨v, rfl, hv⟩ | ⟨failure, rfl, hE⟩
  · exact .inl ⟨_, rfl, hv, left⟩
  · exact .inr ⟨failure, rfl, hE⟩

/-- Under the guard the closure runs as if nothing had been raised before. -/
theorem guarded_settles (h : Settles E (c.evaluate s) P)
    (caught : ∀ raised, E (.error (.floatingPoint raised))) :
    Settles E ((guarded c).evaluate s) P := by
  intro ctx
  have inner := h {}
  rw [evaluate_apply] at inner ⊢
  rw [outcome_guarded]
  change (∃ v, (result (c.run s)).outcome = .ok v ∧ P v) ∨
    ∃ failure, (result (c.run s)).outcome = .error failure ∧ E failure at inner
  rcases inner with ⟨v, hv, hP⟩ | ⟨failure, hf, hE⟩
  · rw [hv, Guard.judge]
    split
    · exact .inl ⟨v, rfl, hP⟩
    · exact .inr ⟨_, rfl, caught _⟩
  · rw [hf, Guard.judge]
    exact .inr ⟨failure, rfl, hE⟩

end

end Closure

end
end FieldGraph
