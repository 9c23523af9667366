import FieldGraph.Proofs.AmbientFlags
import FieldGraph.Proofs.Gradients
import FieldGraph.Proofs.Meaning

/-!
# Soundness of specialization

Over nodal fields a function is specialized to a closure that suits the sample,
and a closure does what its function means at every sample that it suits: it
delivers as many components as the size of the position prescribes, or it fails
because the sample lies outside the domain or a guard caught an exception.
-/

namespace FieldGraph

/-! ## Closures -/

def Container.Holds (n : Nat) (c : Container Binary64) (xs : List Binary64) : Prop :=
  c.data = xs ∧ xs.length = n

theorem Container.Holds.size_eq {n : Nat} {c : Container Binary64} {xs : List Binary64}
    (h : c.Holds n xs) : c.size = n := (congrArg List.length h.1).trans h.2

namespace Closure

theorem extract_follows {n i : Nat} {c : Container Binary64} {xs : List Binary64}
    (h : c.Holds n xs) (hi : i < n) :
    Follows (extract c (Binary64.byteCount * i) (Binary64.byteCount * (i + 1))) (.read xs[i]?) Eq := by
  obtain ⟨rfl, rfl⟩ := h
  have hx : c.get? i = some c.data[i] := List.getElem?_eq_getElem hi
  rw [extract_component, hx, List.getElem?_eq_getElem hi]
  exact Follows.pure rfl

theorem combine_follows (op : BinaryOp) {mode : Broadcast} {output x y : Container Binary64}
    (h : (x.size, y.size) = mode.operandSizes output.size) :
    Follows (combine op mode output x y)
      (.ofFlagged ((mode.pairs x.data y.data).mapM fun (a, b) => op.apply a b))
      fun d zs => d = zs ∧ zs.length = output.size := by
  rw [combine_of_sizes op h]
  exact .calculate (combined_delivers op h)

theorem transform_follows (op : UnaryOp) {output x : Container Binary64} (h : x.size = output.size) :
    Follows (transform op output x) (.ofFlagged (x.data.mapM op.apply))
      fun d zs => d = zs ∧ zs.length = output.size := by
  rw [transform_of_size op h]
  exact .calculate (transformed_delivers op h)

theorem write_follows {body : Eval Binary64 (List Binary64)} {x : Calc (List Binary64)}
    {output : Container Binary64} (h : Follows body x fun d zs => d = zs ∧ zs.length = output.size) :
    Follows (do return output.write (← body)) x (Container.Holds output.size) := by
  rw [← bind_pure x]
  refine h.bind fun d zs ⟨hd, hlen⟩ => .pure ⟨?_, hlen⟩
  subst hd
  exact Container.data_write hlen

theorem guarded_follows {c : Closure (NodalField Binary64)} {s : Sample Binary64 (Grid Binary64)}
    {x : Calc (List Binary64)} {n : Nat} (h : Follows (c.evaluate s) x (Container.Holds n)) :
    Follows ((guarded c).evaluate s) (Guard.meaning x) (Container.Holds n) := by
  intro ctx
  -- under the guard the closure runs as if nothing had been raised before
  obtain ⟨agree, flags⟩ := h {}
  have raised : raises (c.run s) = x.raised := flags.trans (Flags.empty_union _)
  change Agree _ (result (c.run s)).outcome _ at agree
  rw [evaluate_apply, guarded_apply, Context.flags_written, raised]
  refine ⟨?_, (Flags.union_empty _).symm⟩
  show Agree _ (Guard.judge (result (c.run s)).outcome x.raised)
    (if x.raised = ∅ then x.result else none)
  generalize (result (c.run s)).outcome = o, x.result = r at agree ⊢
  cases agree with
  | ok related =>
    simp only [Guard.judge]
    split
    · exact .ok related
    · exact .error trivial
  | error hv =>
    rw [ite_self]
    exact .error hv

variable {s : Sample Binary64 (Grid Binary64)}

theorem component_follows {c : Closure (NodalField Binary64)} {x : Calc (List Binary64)} {n i : Nat}
    (h : Follows (c.evaluate s) x (Container.Holds n)) (hi : i < n) {output : Container Binary64}
    (size : output.size = 1) :
    Follows
      ((component c (Binary64.byteCount * i) (Binary64.byteCount * (i + 1)) output).evaluate s)
      (do let xs ← x; return [← .read xs[i]?]) (Container.Holds 1) := by
  rw [evaluate_component]
  refine h.bind fun v xs hv => (extract_follows hv hi).bind fun a b hab => .pure ?_
  exact ⟨by rw [hab]; exact Container.data_write size.symm, rfl⟩

/-- A closure follows the meaning of its function at every sample that it suits. -/
theorem Suits.follows {f : Node (NodalField Binary64)} {c : Closure (NodalField Binary64)}
    (h : Suits s f c) (hs : s.Made) :
    Follows (c.evaluate s) (f.meaning s) (Container.Holds (f.width s.position.size)) := by
  -- the outputs are arbitrary but for their sizes, so nothing of earlier calls enters
  induction h with
  | input => exact .pure ⟨rfl, rfl⟩
  | constant value => exact .pure ⟨rfl, rfl⟩
  | component function hi size ih => exact component_follows ih hi size
  | inputComponent hi size =>
    exact component_follows (x := pure s.position.data) (.pure ⟨rfl, rfl⟩) hi size
  | @binary l r lc rc op mode output left right sizes size ihl ihr =>
    rw [evaluate_binary, ← size]
    refine ihl.bind fun x xs ⟨hx, hxs⟩ => ihr.bind fun y ys ⟨hy, hys⟩ => ?_
    subst hx hy
    rw [hxs, hys, sizes]
    have operands : (x.size, y.size) = mode.operandSizes output.size := by
      rw [size, Node.width, Broadcast.operandSizes_of_ofSizes? sizes, ← hxs, ← hys]
      rfl
    exact write_follows (combine_follows op operands)
  | @unary f c op output function size ih =>
    rw [evaluate_unary, Node.width, ← size]
    refine ih.bind fun x xs ⟨hx, hxs⟩ => ?_
    subst hx
    exact write_follows (transform_follows op (hxs.trans size.symm))
  | guarded function ih => exact guarded_follows ih
  | @gradient g route output routed size =>
    rw [evaluate_gradient, Node.width, ← size]
    have follows := (g.evaluate_settles hs routed).follows (g.evaluate_uniform route s)
    rw [← size] at follows
    have meaning : (Node.gradient g).meaning s = (g.evaluate route s).meaning := by
      rw [Node.meaning, Gradient.meaning, routed]
    rw [meaning]
    exact write_follows follows
  | @traced f c label function ih =>
    rw [evaluate_traced]
    exact Follows.record _ ih

end Closure

/-! ## Specialization -/

section
variable {s : Sample Binary64 (Grid Binary64)}

namespace Closure
variable {f : Node (NodalField Binary64)} {c : Closure (NodalField Binary64)}

theorem Suits.probe_settles (h : Suits s f c) (hs : s.Made) :
    Settles (fun _ => (f.meaning s).result = none) (c.probe s) fun probe =>
      (f.meaning s).result = some probe.1.data ∧ probe.1.size = f.width s.position.size ∧
        Suits s f probe.2 := by
  have call := (h.follows hs).settles
  refine (probe_settles_of_evaluate call fun ctx => h.after_run s ctx).imp ?_
  rintro ⟨v, c'⟩ ⟨⟨xs, meant, holds⟩, suits⟩
  exact ⟨holds.1 ▸ meant, holds.size_eq, suits⟩

theorem Suits.specializeComponent_settles {P : Closure (NodalField Binary64) → Prop}
    (h : Suits s f c) (hs : s.Made) {i : Nat}
    (hP : ∀ inner output, Suits s f inner → i < f.width s.position.size →
      Container.size output = 1 → P (Closure.component inner (Binary64.byteCount * i) (Binary64.byteCount * (i + 1)) output)) :
    Settles (fun _ => (do return [← .read (← f.meaning s)[i]?] : Calc (List Binary64)).result = none)
      (Node.specializeComponent s c i) P := by
  refine ((h.probe_settles hs).mono fun _ hnone => ?_).bind fun (v, inner) ⟨hv, size, suits⟩ => ?_
  · rw [Calc.bind_of_none hnone]
  refine .require (fun hi => ?_) fun hi => .record <| .pure ?_
  · rw [Calc.bind_of_some hv, List.getElem?_eq_none hi]
    rfl
  · exact hP inner _ suits (size ▸ Nat.not_le.mp hi) rfl

end Closure

namespace Node

theorem binary_settles {left right : Node (NodalField Binary64)} (op : BinaryOp) (hs : s.Made)
    (ihl : Settles (fun _ => (left.meaning s).result = none) (left.specialize s)
      (Closure.Suits s left))
    (ihr : Settles (fun _ => (right.meaning s).result = none) (right.specialize s)
      (Closure.Suits s right)) :
    Settles (fun _ => ((binary left right op).meaning s).result = none)
      ((binary left right op).specialize s) (Closure.Suits s (binary left right op)) := by
  have nothingLeft (h : (left.meaning s).result = none) :
      ((binary left right op).meaning s).result = none := by
    rw [meaning, Calc.bind_of_none h]
  have nothingRight (h : (right.meaning s).result = none) :
      ((binary left right op).meaning s).result = none := by
    simp only [meaning, Calc.result_bind, h, Option.bind_none, Option.bind_fun_none]
  -- both operands are specialized before the first probe, so each may fail in two places
  apply (ihl.mono fun _ => nothingLeft).bind
  intro l hl
  apply (ihr.mono fun _ => nothingRight).bind
  intro r hr
  apply ((hl.probe_settles hs).mono fun _ => nothingLeft).bind
  rintro ⟨x, l'⟩ ⟨hx, hxs, hl'⟩
  apply ((hr.probe_settles hs).mono fun _ => nothingRight).bind
  rintro ⟨y, r'⟩ ⟨hy, hys, hr'⟩
  dsimp only
  cases hmode : Broadcast.ofSizes? x.size y.size with
  | none =>
    refine .fail ?_
    simp only [meaning, Calc.result_bind, hx, hy, Option.bind_some, Calc.result_read]
    rw [show Broadcast.ofSizes? x.data.length y.data.length = none from hmode]
    rfl
  | some mode =>
    have sizes :
        Broadcast.ofSizes? (left.width s.position.size) (right.width s.position.size) = some mode := by
      rw [← hxs, ← hys, hmode]
    refine .record (.pure (.binary hl' hr' sizes ?_))
    rw [Node.width, ← Broadcast.wider_of_ofSizes? sizes, Container.size_blank]
    split
    · exact hys
    · exact hxs

theorem unary_settles {f : Node (NodalField Binary64)} (op : UnaryOp) (hs : s.Made)
    (ih : Settles (fun _ => (f.meaning s).result = none) (f.specialize s)
      (Closure.Suits s f)) :
    Settles (fun _ => ((unary f op).meaning s).result = none) ((unary f op).specialize s)
      (Closure.Suits s (unary f op)) := by
  have nothing (h : (f.meaning s).result = none) : ((unary f op).meaning s).result = none := by
    rw [meaning, Calc.bind_of_none h]
  apply (ih.mono fun _ => nothing).bind
  intro c hc
  apply ((hc.probe_settles hs).mono fun _ => nothing).bind
  rintro ⟨v, inner⟩ ⟨-, size, suits⟩
  exact .pure (.unary suits (v.size_blank.trans size))

/-- A function is specialized to a closure that suits it, unless it means nothing at the sample. -/
theorem specialize_settles (f : Node (NodalField Binary64)) (hs : s.Made) :
    Settles (fun _ => (f.meaning s).result = none) (f.specialize s) (Closure.Suits s f) := by
  induction f with
  | input => exact .pure .input
  | constant value => exact .pure (.constant value)
  | component f i ih =>
    have nothing (h : (f.meaning s).result = none) : ((component f i).meaning s).result = none := by
      rw [meaning, Calc.bind_of_none h]
    apply (ih.mono fun _ => nothing).bind
    intro c hc
    exact hc.specializeComponent_settles hs fun _ _ suits hi size => .component suits hi size
  | inputComponent i =>
    apply Closure.Suits.input.specializeComponent_settles hs
    intro inner output suits hi size
    cases suits
    exact .inputComponent hi size
  | binary left right op ihl ihr => exact binary_settles op hs ihl ihr
  | unary f op ih => exact unary_settles op hs ih
  | guarded f ih =>
    have nothing (h : (f.meaning s).result = none) : ((guarded f).meaning s).result = none := by
      show (if _ then _ else none) = none
      rw [h, ite_self]
    apply (ih.mono fun _ => nothing).bind
    intro c hc
    exact .pure (.guarded hc)
  | gradient g =>
    have nothing (h : g.route? s = none) : ((gradient g).meaning s).result = none := by
      rw [meaning, Gradient.meaning, h]
      rfl
    apply ((g.specialize_settles s).mono fun _ => nothing).bind
    intro route routed
    exact .pure (.gradient routed List.length_replicate)
  | traced label f ih =>
    apply Settles.record
    apply Settles.bind ih
    intro c hc
    exact .pure (.traced hc)
  | refusing => exact .fail rfl

end Node

end
end FieldGraph
