import FieldGraph.Proofs.Transparency

/-!
# Shape tags

Where a function computes something new, its closure owns the container that it
delivers, and the container keeps the tag that it was made with. The tag of an
answer thus follows the sample, is the same for all samples, or is frozen: it
comes from the sample for which the closure was made. A kind of raw values says
nothing of their tags, so only frozen tags can differ from those of a fresh
closure, and they do for raw values whose tags differ.
-/

namespace FieldGraph

/-! ## Where tags come from -/

inductive ShapeRule where
  | fixed (shape : Shape)
  | following
  | frozen
  deriving DecidableEq

namespace ShapeRule

/-- A container that is made for the answers keeps the tag that the first of them would have. -/
def freeze : ShapeRule → ShapeRule
  | fixed shape => fixed shape
  | following => frozen
  | frozen => frozen

/-- The tag at a sample with tag `now` of a closure made for a sample with tag `first`. -/
def shape (first now : Shape) : ShapeRule → Shape
  | fixed shape => shape
  | following => now
  | frozen => first

theorem shape_freeze (r : ShapeRule) (first now : Shape) :
    r.freeze.shape first now = r.shape first first := by
  cases r <;> rfl

theorem shape_eq_iff (r : ShapeRule) (first now : Shape) :
    r.shape first now = r.shape now now ↔ (r = frozen → first = now) := by
  cases r <;> simp [shape]

end ShapeRule

section
variable {M V : Type} [Mesh Binary64 M] [FieldVariable Binary64 M V] [DecidableEq M]

/-- Where the tags of a function come from, at positions of a size. -/
def Node.shapeRule (size : Nat) : Node V → ShapeRule
  | input => .following
  | constant value => .fixed value.shape
  | component .. => .fixed .scalar
  | inputComponent _ => .fixed .scalar
  | binary left right _ =>
    (if left.width size = 1 ∧ right.width size ≠ 1 then right.shapeRule size
      else left.shapeRule size).freeze
  | unary function _ => (function.shapeRule size).freeze
  | guarded function => function.shapeRule size
  | gradient g => .fixed g.outputShape
  | traced _ function => function.shapeRule size
  | refusing => .following

/-! ## Tags of closures -/

namespace Closure

/-- The tag of what a closure delivers at a sample with tag `now`. -/
def shape (now : Shape) : Closure V → Shape
  | input => now
  | constant value => value.shape
  | component _ _ _ output => output.shape
  | binary _ _ _ _ output => output.shape
  | unary _ _ output => output.shape
  | guarded function => function.shape now
  | gradient _ _ output => output.shape
  | traced _ function => function.shape now

/-- The outputs carry the tags that were delivered at a sample with tag `first`. -/
inductive MadeWith (first : Shape) : Closure V → Prop where
  | input : MadeWith first .input
  | constant (value : Container Binary64) : MadeWith first (.constant value)
  | component {c : Closure V} {start stop : Nat} {output : Container Binary64}
      (function : MadeWith first c) (tag : output.shape = .scalar) :
      MadeWith first (.component c start stop output)
  | binary {l r : Closure V} {op : BinaryOp} {mode : Broadcast} {output : Container Binary64}
      (left : MadeWith first l) (right : MadeWith first r)
      (tag : output.shape = if mode = .leftScalar then r.shape first else l.shape first) :
      MadeWith first (.binary l r op mode output)
  | unary {c : Closure V} {op : UnaryOp} {output : Container Binary64}
      (function : MadeWith first c) (tag : output.shape = c.shape first) :
      MadeWith first (.unary c op output)
  | guarded {c : Closure V} (function : MadeWith first c) : MadeWith first (.guarded c)
  | gradient {g : Gradient V} {route : Route} {output : Container Binary64}
      (tag : output.shape = g.outputShape) : MadeWith first (.gradient g route output)
  | traced {c : Closure V} {label : String} (function : MadeWith first c) :
      MadeWith first (.traced label c)

theorem deliver_settles (output : Container Binary64) (body : Eval Binary64 (List Binary64)) :
    Settles (fun _ => True) (do return output.write (← body)) fun v => v.shape = output.shape :=
  (Settles.any body).bind fun data _ => .pure (output.shape_write data)

/-- A call that succeeds delivers the tag that the closure has for the tag of the sample. -/
theorem evaluate_shape (s : Sample Binary64 M) : ∀ c : Closure V,
    Settles (fun _ => True) (c.evaluate s) fun v => v.shape = c.shape s.position.shape
  | input => .pure rfl
  | constant value => .pure rfl
  | component function start stop output => by
    rw [evaluate_component]
    refine (Settles.any (function.evaluate s)).bind fun x _ => ?_
    refine (Settles.any (extract x start stop)).bind fun y _ => ?_
    exact .pure (output.shape_write [y])
  | binary left right op mode output => by
    rw [evaluate_binary]
    refine (Settles.any (left.evaluate s)).bind fun x _ => ?_
    refine (Settles.any (right.evaluate s)).bind fun y _ => ?_
    exact deliver_settles output _
  | unary function op output => by
    rw [evaluate_unary]
    exact (Settles.any (function.evaluate s)).bind fun x _ => deliver_settles output _
  | guarded function => guarded_settles (evaluate_shape s function) fun _ => trivial
  | gradient g route output => by
    rw [evaluate_gradient]
    exact deliver_settles output _
  | traced label function => by
    rw [evaluate_traced]
    exact Settles.record (evaluate_shape s function)

/-- Calls leave the tags of a closure as they are, at whatever sample and with whatever outcome. -/
theorem MadeWith.after_run {first : Shape} {c : Closure V} (h : MadeWith first c)
    (s : Sample Binary64 M) (ctx : Context) :
    MadeWith first (c.run s ctx).1.after ∧ ∀ now, (c.run s ctx).1.after.shape now = c.shape now := by
  induction h generalizing ctx with
  | input => exact ⟨.input, fun _ => rfl⟩
  | constant value => exact ⟨.constant value, fun _ => rfl⟩
  | @component c start stop output function tag ih =>
    refine after_deliver (P := fun c' => MadeWith first c' ∧ ∀ now, c'.shape now = _) ?_ _ _
    exact fun output' _ same => ⟨.component (ih ctx).1 (same.trans tag), fun _ => same⟩
  | @binary l r op mode output left right tag ihl ihr =>
    simp only [run, Context.bind_apply]
    have frozen {l' r' : Closure V} (hl : MadeWith first l' ∧ ∀ now, l'.shape now = l.shape now)
        (hr : MadeWith first r' ∧ ∀ now, r'.shape now = r.shape now)
        (output' : Container Binary64) (same : output'.shape = output.shape) :
        MadeWith first (.binary l' r' op mode output') := by
      refine .binary hl.1 hr.1 ?_
      rw [same, tag, hl.2, hr.2]
    cases (l.run s ctx).1.outcome with
    | error failure =>
      exact ⟨frozen (ihl ctx) ⟨right, fun _ => rfl⟩ output rfl, fun _ => rfl⟩
    | ok x =>
      refine after_deliver (P := fun c' => MadeWith first c' ∧ ∀ now, c'.shape now = _) ?_ _ _
      exact fun output' _ same => ⟨frozen (ihl ctx) (ihr _) output' same, fun _ => same⟩
  | @unary c op output function tag ih =>
    refine after_deliver (P := fun c' => MadeWith first c' ∧ ∀ now, c'.shape now = _) ?_ _ _
    intro output' _ same
    exact ⟨.unary (ih ctx).1 (by rw [same, tag, (ih ctx).2]), fun _ => same⟩
  | guarded function ih => exact ⟨.guarded (ih _).1, fun now => (ih _).2 now⟩
  | @gradient g route output tag =>
    refine after_deliver (P := fun c' => MadeWith first c' ∧ ∀ now, c'.shape now = _) ?_ _ _
    exact fun output' _ same => ⟨.gradient (same.trans tag), fun _ => same⟩
  | traced function ih => exact ⟨.traced (ih _).1, fun now => (ih _).2 now⟩

theorem MadeWith.probe_settles {s : Sample Binary64 M} {c : Closure V}
    (h : MadeWith s.position.shape c) :
    Settles (fun _ => True) (c.probe s) fun probe =>
      probe.1.shape = c.shape s.position.shape ∧ MadeWith s.position.shape probe.2 ∧
        ∀ now, probe.2.shape now = c.shape now :=
  probe_settles_of_evaluate
    (Q := fun c' => MadeWith s.position.shape c' ∧ ∀ now, c'.shape now = c.shape now)
    (evaluate_shape s c) fun ctx => h.after_run s ctx

end Closure

/-! ## Tags that closures are made with -/

namespace Node

theorem specializeComponent_madeWith {s : Sample Binary64 M} {c : Closure V}
    (h : c.MadeWith s.position.shape) (i : Nat) :
    Settles (fun _ => True) (specializeComponent s c i) (Closure.MadeWith s.position.shape) := by
  refine h.probe_settles.bind fun (v, inner) ⟨_, made, _⟩ => ?_
  exact .require (fun _ => trivial) fun _ => .record (.pure (.component made rfl))

theorem specialize_madeWith (s : Sample Binary64 M) : ∀ f : Node V,
    Settles (fun _ => True) (f.specialize s) (Closure.MadeWith s.position.shape)
  | input => .pure .input
  | constant value => .pure (.constant value)
  | component function i =>
    (specialize_madeWith s function).bind fun _ h => specializeComponent_madeWith h i
  | inputComponent i => specializeComponent_madeWith .input i
  | binary left right op => by
    refine (specialize_madeWith s left).bind fun l hl => ?_
    refine (specialize_madeWith s right).bind fun r hr => ?_
    refine hl.probe_settles.bind fun (x, l') ⟨hx, hl', left⟩ => ?_
    refine hr.probe_settles.bind fun (y, r') ⟨hy, hr', right⟩ => ?_
    dsimp only
    cases Broadcast.ofSizes? x.size y.size with
    | none => exact .fail trivial
    | some mode =>
      refine .record (.pure (.binary hl' hr' ?_))
      rw [left, right, ← hx, ← hy]
      split <;> rfl
  | unary function op => by
    refine (specialize_madeWith s function).bind fun c h => ?_
    refine h.probe_settles.bind fun (v, inner) ⟨tag, made, same⟩ => ?_
    exact .pure (.unary made (tag.trans (same _).symm))
  | guarded function => (specialize_madeWith s function).bind fun _ h => .pure (.guarded h)
  | gradient g => (Settles.any (g.specialize s)).bind fun _ _ => .pure (.gradient rfl)
  | traced _ function =>
    .record ((specialize_madeWith s function).bind fun _ h => .pure (.traced h))
  | refusing => .fail trivial

end Node

/-- The tag of a closure is the one that the rule of its function gives. -/
theorem Closure.Suits.shape_eq {s : Sample Binary64 M} {f : Node V} {c : Closure V} (h : Suits s f c)
    {first : Shape} (made : c.MadeWith first) (now : Shape) :
    c.shape now = (f.shapeRule s.position.size).shape first now := by
  induction h generalizing now with
  | input => rfl
  | constant value => rfl
  | component function hi size ih => cases made with | component _ tag => exact tag
  | inputComponent hi size => cases made with | component _ tag => exact tag
  | @binary l r lc rc op mode output left right sizes size ihl ihr =>
    cases made with
    | binary hl hr tag =>
      rw [Closure.shape, tag, ihl hl, ihr hr, Node.shapeRule, ShapeRule.shape_freeze]
      rw [if_congr (Broadcast.eq_leftScalar_iff sizes) rfl rfl]
      split <;> rfl
  | unary function size ih =>
    cases made with
    | unary h tag => rw [Closure.shape, tag, ih h, Node.shapeRule, ShapeRule.shape_freeze]
  | guarded function ih => cases made with | guarded h => exact ih h now
  | gradient routed size => cases made with | gradient tag => exact tag
  | traced function ih => cases made with | traced h => exact ih h now

end

/-! ## Samples and answers -/

theorem Sample.Made.shape_position {K M : Type} [Mesh K M] {s : Sample K M} (h : s.Made)
    (hk : ∀ size, s.kind ≠ .value size) : s.position.shape = .vector := by
  cases h with
  | value c => exact absurd rfl (hk c.size)
  | @element mesh e ξ c c' p h =>
    have tagged : Settles (fun _ => True) (ElementPoint.create mesh e ξ)
        fun p => p.position.shape = .vector := by
      refine .require (fun _ => trivial) fun _ => .require (fun _ => trivial) fun _ => ?_
      exact (Settles.any _).bind fun _ _ => .pure rfl
    exact tagged.of_ok h
  | @node mesh n c c' p h =>
    have tagged : Settles (fun _ => True) (NodePoint.create mesh n)
        fun p => p.position.shape = .vector := by
      refine .require (fun _ => trivial) fun _ => ?_
      exact (Settles.any _).bind fun _ _ => .pure rfl
    exact tagged.of_ok h

section
variable {s : Sample Binary64 (Grid Binary64)} {f : Node (NodalField Binary64)}

theorem Node.specialize_tagged (f : Node (NodalField Binary64)) (hs : s.Made) :
    Settles (fun _ => True) (f.specialize s) fun c =>
      Closure.Suits s f c ∧ c.MadeWith s.position.shape :=
  (f.specialize_settles hs).both (f.specialize_madeWith s)

theorem Node.evaluate_shape {v : Container Binary64} (hs : s.Made) {ctx : Context}
    (h : (f.evaluate s ctx).1 = .ok v) :
    v.shape = (f.shapeRule s.position.size).shape s.position.shape s.position.shape := by
  have tagged : Settles (fun _ => True) (f.evaluate s) fun v =>
      v.shape = (f.shapeRule s.position.size).shape s.position.shape s.position.shape := by
    refine (f.specialize_tagged hs).bind fun closure ⟨suits, made⟩ => ?_
    rw [← suits.shape_eq made]
    exact closure.evaluate_shape s
  exact tagged.of_ok (Prod.ext h rfl)

theorem Node.answer_evaluate (f : Node (NodalField Binary64)) (hs : s.Made) (ctx : Context) :
    answer (f.evaluate s ctx).1 = (f.meaning s).result := by
  rw [Node.evaluate, Eval.bind_apply]
  cases h : f.specialize s ctx with
  | mk o c =>
    cases o with
    | error failure => exact ((f.specialize_settles hs).of_error h).symm
    | ok closure => exact ((f.specialize_settles hs).of_ok h).answer_run hs c

end

theorem answer_eq_some {o : Except (Failure Binary64) (Container Binary64)} {xs : List Binary64} :
    answer o = some xs ↔ ∃ v, o = .ok v ∧ v.data = xs := by
  cases o <;> simp [answer, Except.toOption]

/-! ## Stored closures -/

namespace GraphEvaluator

abbrev Tagged (samples : Sample Binary64 (Grid Binary64) → Prop) (root : Node (NodalField Binary64))
    (settings : Settings) : GraphEvaluator (NodalField Binary64) → Prop :=
  Evaluator.KeepsMade samples root settings fun first c =>
    Closure.Suits first root c ∧ c.MadeWith first.position.shape

variable {root : Node (NodalField Binary64)} {settings : Settings}
  {samples : Sample Binary64 (Grid Binary64) → Prop} {ev : GraphEvaluator (NodalField Binary64)}

theorem Tagged.suited (h : Tagged samples root settings ev) : Suited samples root settings ev := by
  refine ⟨h.root_eq, h.settings_eq, fun e he => ?_⟩
  obtain ⟨first, requested, kind, suits, -⟩ := h.closures e he
  exact ⟨first, requested, kind, suits⟩

theorem tagged_history (root : Node (NodalField Binary64)) (settings : Settings)
    (requests : List (Request (Sample Binary64 (Grid Binary64))))
    (met : ∀ s, .evaluate s ∈ requests → root.Meets s) (ctx : Context) :
    Tagged (fun s => .evaluate s ∈ requests) root settings
      ((Evaluator.ofRoot root settings : GraphEvaluator _).history requests ctx).1.2 := by
  refine Evaluator.keepsMade_history root settings requests ?_ ?_ ctx
  · intro s closure c c' requested specialized
    exact (root.specialize_tagged (met s requested).made).of_ok specialized
  · rintro first closure s c ⟨suits, madeWith⟩
    exact ⟨suits.after_run s c, (madeWith.after_run s c).1⟩

/-- An answer has the tag that the rule of the root gives for the sample and for the one that the
closure was made for. -/
theorem Tagged.shape_answer (h : Tagged samples root settings ev)
    (met : ∀ s, samples s → root.Meets s) {s : Sample Binary64 (Grid Binary64)} (hs : root.Meets s)
    {ctx : Context} {v : Container Binary64} (hv : (ev.evaluate s ctx).1.outcome = .ok v) :
    ∃ first, ev.MadeFor samples s first ∧
      v.shape = (root.shapeRule s.position.size).shape first.position.shape s.position.shape := by
  rcases h.called (root.specialize_tagged hs.made).of_ok ctx with
    ⟨failure, _, _, -, -, refused⟩ | ⟨first, closure, c, use, ⟨suits, madeWith⟩, called⟩
  · cases refused.symm.trans hv
  have delivered : (closure.run s c).1.outcome = .ok v := called.trans hv
  have again : root.MeetsAgain first s := ⟨use.of_forall met hs, hs, use.kind.symm⟩
  -- a closure that answers suits the sample, whatever the address was used for before
  obtain ⟨_, _, returned⟩ := Closure.exists_returns delivered
  have reuse := suits.reusable_of_returns again returned
  have tag : v.shape = closure.shape s.position.shape :=
    (closure.evaluate_shape s).of_ok (Prod.ext delivered rfl)
  exact ⟨first, use, tag.trans ((suits.of_reusable again reuse).shape_eq madeWith _)⟩

end GraphEvaluator

/-- An answer is that of a fresh closure up to the tag, which is as the root says for the sample that
the closure in use was made for. It is the same tag unless the root freezes tags and those of the
two samples differ. Descriptors all have the same tag. -/
theorem shape_of_answer (root : Node (NodalField Binary64)) (limit : Nat) (caching guarding : Bool)
    (requests : List (Request (Sample Binary64 (Grid Binary64))))
    (met : ∀ s, .evaluate s ∈ requests → root.Meets s) (c : Context)
    {s : Sample Binary64 (Grid Binary64)} (hs : root.Meets s) (ctx ctx' : Context)
    {v : Container Binary64} :
    let f : Node (NodalField Binary64) := if guarding then .guarded root else root
    let ev := ((GraphEvaluator.ofNode root ⟨limit, caching, guarding⟩).history requests c).1.2
    (ev.evaluate s ctx).1.outcome = .ok v →
      ∃ first w, ((ev.stored? s).isSome → .evaluate first ∈ requests) ∧
        (ev.stored? s = none → first = s) ∧ first.kind = s.kind ∧
        (f.evaluate s ctx').1 = .ok w ∧ v.data = w.data ∧
        v.shape = (f.shapeRule s.position.size).shape first.position.shape s.position.shape ∧
        w.shape = (f.shapeRule s.position.size).shape s.position.shape s.position.shape ∧
        (v.shape = w.shape ↔
          (f.shapeRule s.position.size = .frozen → first.position.shape = s.position.shape)) ∧
        ((∀ size, s.kind ≠ .value size) → v = w) := by
  intro f ev hv
  have met' : ∀ s, .evaluate s ∈ requests → f.Meets s := fun s hs => (met s hs).guarding
  have tagged : GraphEvaluator.Tagged (fun s => .evaluate s ∈ requests) f
      ⟨limit, caching, guarding⟩ ev := GraphEvaluator.tagged_history f _ requests met' c
  obtain ⟨first, use, tag⟩ := tagged.shape_answer met' hs.guarding hv
  have meant := tagged.suited.answer_eq_some met' hs.guarding (congrArg answer hv)
  obtain ⟨w, hw, data⟩ := answer_eq_some.mp ((f.answer_evaluate hs.made ctx').trans meant)
  have fresh := Node.evaluate_shape hs.made hw
  refine ⟨first, w, use.requested, use.fresh, use.kind, hw, data.symm, tag, fresh, ?_,
    fun descriptor => ?_⟩
  · rw [tag, fresh]
    exact ShapeRule.shape_eq_iff _ _ _
  · have made : first.Made := (use.of_forall met' hs.guarding).made
    have descriptor' : ∀ size, first.kind ≠ .value size :=
      fun size same => descriptor size (use.kind.symm.trans same)
    have same : first.position.shape = s.position.shape := by
      rw [hs.made.shape_position descriptor, made.shape_position descriptor']
    have shape : v.shape = w.shape := by rw [tag, fresh, same]
    cases v
    cases w
    simp_all

theorem shape_of_answer_abs :
    let first : Sample Binary64 (Grid Binary64) := .value (.vector [.ofRat 1])
    let now : Sample Binary64 (Grid Binary64) := .value (.scalar (.ofRat (-1)))
    let root : Node (NodalField Binary64) := .unary .input .abs
    let ev := ((GraphEvaluator.ofNode root ⟨16, true, false⟩).history [.evaluate first] {}).1.2
    ∃ v, (ev.evaluate now {}).1.outcome = .ok v ∧
      ∃ first' w, .evaluate first' ∈ [Request.evaluate first] ∧ first'.kind = now.kind ∧
        (root.evaluate now {}).1 = .ok w ∧ v.data = w.data ∧
        v.shape = first'.position.shape ∧ w.shape = now.position.shape := by
  intro first now root ev
  have met : ∀ s, .evaluate s ∈ [Request.evaluate first] → root.Meets s := by
    intro s hs
    cases List.mem_singleton.mp hs
    exact ⟨.value _, nofun⟩
  have answered : (ev.evaluate now {}).1.outcome = .ok (.vector [.ofRat 1]) := by decide +kernel
  have found : (ev.stored? now).isSome := by decide +kernel
  have hnow : root.Meets now := ⟨.value _, nofun⟩
  subst ev
  obtain ⟨first', w, requested, -, kind, hw, data, tag, fresh, -⟩ :=
    shape_of_answer root 16 true false [.evaluate first] met {} hnow {} {} answered
  exact ⟨_, answered, first', w, requested found, kind, hw, data, tag, fresh⟩

/-- After a vector with one component, the absolute value of a scalar is tagged as a vector. -/
theorem abs_keeps_first_shape :
    let root : Node (NodalField Binary64) := .unary .input .abs
    let one : Sample Binary64 (Grid Binary64) := .value (.scalar (.ofRat 1))
    let ev := ((GraphEvaluator.ofNode root {}).history
      [.evaluate (.value (.vector [.ofRat 1]))] {}).1.2
    (ev.evaluate one {}).1.outcome = .ok (.vector [.ofRat 1]) ∧
      (root.evaluate one {}).1 = .ok (.scalar (.ofRat 1)) := by
  decide +kernel

end FieldGraph
