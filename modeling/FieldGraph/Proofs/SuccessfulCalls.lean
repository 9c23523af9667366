import FieldGraph.Proofs.Meaning

/-!
# Successful calls

What a call that succeeds delivers, leaves of the closure and raises, as a
relation with a rule for each closure, and what closures a function can be
specialized to, with a rule for each function. Both relations are the functions
that run. A call that succeeded can be made again at the same sample: it does the
same and leaves the closure as it is.
-/

namespace FieldGraph

/-! ## Calls -/

section
variable {M V : Type} [Mesh Binary64 M] [FieldVariable Binary64 M V] [DecidableEq M]

namespace Closure

/-- A call at `s` delivers `v`, leaves the closure `c'` and raises `r`. -/
inductive Returns (s : Sample Binary64 M) :
    Closure V → Container Binary64 → Closure V → Flags → Prop where
  | input : Returns s .input s.position .input ∅
  | constant (v : Container Binary64) : Returns s (.constant v) v (.constant v) ∅
  | component {c c' : Closure V} {start stop : Nat} {output x : Container Binary64} {y : Binary64}
      {r r' : Flags} (function : Returns s c x c' r) (extracted : Yields (extract x start stop) y r') :
      Returns s (.component c start stop output) (output.write [y])
        (.component c' start stop (output.write [y])) (r ∪ r')
  | binary {lc lc' rc rc' : Closure V} {op : BinaryOp} {mode : Broadcast}
      {output x y : Container Binary64} {data : List Binary64} {p q r : Flags}
      (left : Returns s lc x lc' p) (right : Returns s rc y rc' q)
      (combined : Yields (combine op mode output x y) data r) :
      Returns s (.binary lc rc op mode output) (output.write data)
        (.binary lc' rc' op mode (output.write data)) (p ∪ (q ∪ r))
  | unary {c c' : Closure V} {op : UnaryOp} {output x : Container Binary64} {data : List Binary64}
      {r r' : Flags} (function : Returns s c x c' r)
      (transformed : Yields (transform op output x) data r') :
      Returns s (.unary c op output) (output.write data) (.unary c' op (output.write data)) (r ∪ r')
  /-- A guard lets nothing pass that raised something. -/
  | guarded {c c' : Closure V} {v : Container Binary64} (function : Returns s c v c' ∅) :
      Returns s (.guarded c) v (.guarded c') ∅
  | gradient {g : Gradient V} {route : Route} {output : Container Binary64} {data : List Binary64}
      {r : Flags} (evaluated : Yields (g.evaluate route s) data r) :
      Returns s (.gradient g route output) (output.write data)
        (.gradient g route (output.write data)) r
  | traced {c c' : Closure V} {label : String} {v : Container Binary64} {r : Flags}
      (function : Returns s c v c' r) : Returns s (.traced label c) v (.traced label c') r

variable {s : Sample Binary64 M}

theorem yields_probe_iff {c c' : Closure V} {v : Container Binary64} {r : Flags} :
    Yields (c.probe s) (v, c') r ↔ result (c.run s) = ⟨.ok v, c'⟩ ∧ raises (c.run s) = r := by
  constructor
  · intro h
    obtain ⟨outcome, flags⟩ := h {}
    rw [probe_apply] at outcome flags
    refine ⟨?_, flags.trans (Flags.empty_union r)⟩
    show (c.run s {}).1 = _
    generalize (c.run s {}).1 = call at outcome ⊢
    obtain ⟨o, after⟩ := call
    cases o with
    | error failure => cases outcome
    | ok x =>
      cases outcome
      rfl
  · rintro ⟨returned, rfl⟩ ctx
    rw [probe_apply, c.run_uniform s ctx, returned]
    exact ⟨rfl, rfl⟩

theorem judge_eq_ok_iff {α : Type} {o : Except (Failure Binary64) α} {r : Flags} {a : α} :
    Guard.judge o r = .ok a ↔ o = .ok a ∧ r = ∅ := by
  cases o with
  | error failure => simp [Guard.judge]
  | ok b =>
    by_cases h : r = ∅ <;> simp [Guard.judge, h]

theorem yields_guarded_iff {c c' : Closure V} {v : Container Binary64} {r : Flags} :
    Yields ((guarded c).probe s) (v, c') r ↔
      ∃ inner, c' = guarded inner ∧ r = ∅ ∧ Yields (c.probe s) (v, inner) ∅ := by
  have left : result ((guarded c).run s) =
      ⟨Guard.judge (result (c.run s)).outcome (raises (c.run s)), guarded (result (c.run s)).after⟩ := by
    rw [result, guarded_apply]
  have silent : raises ((guarded c).run s) = ∅ := by
    rw [raises, flags_guarded]
  simp only [yields_probe_iff, left, silent, Run.mk.injEq, judge_eq_ok_iff]
  constructor
  · rintro ⟨⟨⟨outcome, raised⟩, rfl⟩, rfl⟩
    exact ⟨_, rfl, rfl, congrArg (Run.mk · _) outcome, raised⟩
  · rintro ⟨inner, rfl, rfl, returned, raised⟩
    rw [returned]
    exact ⟨⟨⟨rfl, raised⟩, rfl⟩, rfl⟩

theorem Returns.yields {c c' : Closure V} {v : Container Binary64} {r : Flags}
    (h : Returns s c v c' r) : Yields (c.probe s) (v, c') r := by
  induction h with
  | input => exact .pure
  | constant v => exact .pure
  | @component c c' start stop output x y r r' function extracted ih =>
    rw [probe_component, ← Flags.union_empty r']
    exact ih.bind (extracted.bind .pure)
  | @binary lc lc' rc rc' op mode output x y data p q r left right combined ihl ihr =>
    rw [probe_binary, ← Flags.union_empty r]
    exact ihl.bind (ihr.bind (combined.bind .pure))
  | @unary c c' op output x data r r' function transformed ih =>
    rw [probe_unary, ← Flags.union_empty r']
    exact ih.bind (transformed.bind .pure)
  | guarded function ih => exact yields_guarded_iff.mpr ⟨_, rfl, rfl, ih⟩
  | @gradient g route output data r evaluated =>
    rw [probe_gradient, ← Flags.union_empty r]
    exact evaluated.bind .pure
  | @traced c c' label v r function ih =>
    rw [probe_traced, ← Flags.empty_union r, ← Flags.union_empty r]
    exact Yields.record.bind (ih.bind .pure)

theorem returns_of_yields : ∀ {c c' : Closure V} {v : Container Binary64} {r : Flags},
    Yields (c.probe s) (v, c') r → Returns s c v c' r
  | input, _, _, _, h => by
    obtain ⟨same, rfl⟩ := h.eq_pure
    cases same
    exact .input
  | constant w, _, _, _, h => by
    obtain ⟨same, rfl⟩ := h.eq_pure
    cases same
    exact .constant w
  | component c start stop output, _, _, _, h => by
    rw [probe_component] at h
    obtain ⟨⟨x, inner⟩, p, q, hx, rest, rfl⟩ := h.of_bind (c.probe_uniform s) fun _ =>
      (extract_uniform _ _ _).andThen fun _ => .deliver _
    obtain ⟨y, same, hy⟩ := rest.of_map (extract_uniform x start stop)
    cases same
    exact .component (returns_of_yields hx) hy
  | binary lc rc op mode output, _, _, _, h => by
    rw [probe_binary] at h
    obtain ⟨⟨x, lc'⟩, p, q, hx, rest, rfl⟩ := h.of_bind (lc.probe_uniform s) fun _ =>
      (rc.probe_uniform s).andThen fun _ =>
        (combine_uniform op mode output _ _).andThen fun _ => .deliver _
    obtain ⟨⟨y, rc'⟩, p', q', hy, last, rfl⟩ := rest.of_bind (rc.probe_uniform s) fun _ =>
      (combine_uniform op mode output _ _).andThen fun _ => .deliver _
    obtain ⟨data, same, hd⟩ := last.of_map (combine_uniform op mode output x y)
    cases same
    exact .binary (returns_of_yields hx) (returns_of_yields hy) hd
  | unary c op output, _, _, _, h => by
    rw [probe_unary] at h
    obtain ⟨⟨x, inner⟩, p, q, hx, rest, rfl⟩ := h.of_bind (c.probe_uniform s) fun _ =>
      (transform_uniform op output _).andThen fun _ => .deliver _
    obtain ⟨data, same, hd⟩ := rest.of_map (transform_uniform op output x)
    cases same
    exact .unary (returns_of_yields hx) hd
  | guarded c, _, _, _, h => by
    obtain ⟨inner, rfl, rfl, hx⟩ := yields_guarded_iff.mp h
    exact .guarded (returns_of_yields hx)
  | gradient g route output, _, _, _, h => by
    rw [probe_gradient] at h
    obtain ⟨data, same, hd⟩ := h.of_map (g.evaluate_uniform route s)
    cases same
    exact .gradient hd
  | traced label c, _, _, _, h => by
    rw [probe_traced] at h
    have rest := h.of_record ((c.probe_uniform s).andThen fun _ => .deliver _)
    obtain ⟨⟨x, inner⟩, same, hx⟩ := rest.of_map (c.probe_uniform s)
    cases same
    exact .traced (returns_of_yields hx)

theorem evaluate_uniform (s : Sample Binary64 M) (c : Closure V) : Uniform (c.evaluate s) := by
  rw [evaluate_eq_probe]
  exact (c.probe_uniform s).andThen fun _ => .deliver _

theorem yields_evaluate_iff {c : Closure V} {v : Container Binary64} {r : Flags} :
    Yields (c.evaluate s) v r ↔ ∃ c', Returns s c v c' r := by
  rw [evaluate_eq_probe]
  constructor
  · intro h
    obtain ⟨⟨v, c'⟩, rfl, probed⟩ := Yields.of_map (c.probe_uniform s) h
    exact ⟨c', returns_of_yields probed⟩
  · rintro ⟨c', returned⟩
    rw [← Flags.union_empty r]
    exact returned.yields.bind .pure

theorem exists_returns {c : Closure V} {v : Container Binary64} {ctx : Context}
    (h : (c.run s ctx).1.outcome = .ok v) : ∃ c' r, Returns s c v c' r := by
  have delivered : result (c.evaluate s) = .ok v :=
    ((c.evaluate_uniform s).fst_apply ctx).symm.trans h
  obtain ⟨c', returned⟩ :=
    yields_evaluate_iff.mp (Yields.of_uniform (c.evaluate_uniform s) delivered)
  exact ⟨c', _, returned⟩

/-- Of an output the operands are compared with its size only, which writing leaves as it is. -/
theorem combine_write (op : BinaryOp) (mode : Broadcast) (output x y : Container Binary64)
    (data : List Binary64) : combine op mode (output.write data) x y = combine op mode output x y := by
  simp only [combine, Container.size_write]

theorem transform_write (op : UnaryOp) (output x : Container Binary64) (data : List Binary64) :
    transform op (output.write data) x = transform op output x := by
  simp only [transform, Container.size_write]

theorem Returns.again {c c' : Closure V} {v : Container Binary64} {r : Flags}
    (h : Returns s c v c' r) : Returns s c' v c' r := by
  induction h with
  | input => exact .input
  | constant v => exact .constant v
  | @component c c' start stop output x y r r' function extracted ih =>
    have again : Returns s (.component c' start stop (output.write [y])) _ _ _ := .component ih extracted
    rwa [Container.write_write] at again
  | @binary lc lc' rc rc' op mode output x y data p q r left right combined ihl ihr =>
    rw [← combine_write] at combined
    have again : Returns s (.binary lc' rc' op mode (output.write data)) _ _ _ :=
      .binary ihl ihr combined
    rwa [Container.write_write] at again
  | @unary c c' op output x data r r' function transformed ih =>
    rw [← transform_write] at transformed
    have again : Returns s (.unary c' op (output.write data)) _ _ _ := .unary ih transformed
    rwa [Container.write_write] at again
  | guarded function ih => exact .guarded ih
  | @gradient g route output data r evaluated =>
    have again : Returns s (.gradient g route (output.write data)) _ _ _ := .gradient evaluated
    rwa [Container.write_write] at again
  | traced function ih => exact .traced ih

end Closure

/-! ## Specialization -/

namespace Node

/-- The function can be specialized to `c` for `s`. -/
inductive Makes (s : Sample Binary64 M) : Node V → Closure V → Prop where
  | input : Makes s .input .input
  | constant (v : Container Binary64) : Makes s (.constant v) (.constant v)
  | component {f : Node V} {c c' : Closure V} {x : Container Binary64} {r : Flags} {i : Nat}
      (function : Makes s f c) (probed : c.Returns s x c' r) (hi : i < x.size) :
      Makes s (.component f i)
        (.component c' (Binary64.byteCount * i) (Binary64.byteCount * (i + 1))
          (.scalar (.zero false)))
  | inputComponent {i : Nat} (hi : i < s.position.size) :
      Makes s (.inputComponent i)
        (.component .input (Binary64.byteCount * i) (Binary64.byteCount * (i + 1))
          (.scalar (.zero false)))
  | binary {lf rf : Node V} {lc lc' rc rc' : Closure V} {x y : Container Binary64} {p q : Flags}
      {op : BinaryOp} {mode : Broadcast} (left : Makes s lf lc) (right : Makes s rf rc)
      (probedLeft : lc.Returns s x lc' p) (probedRight : rc.Returns s y rc' q)
      (sizes : Broadcast.ofSizes? x.size y.size = some mode) :
      Makes s (.binary lf rf op)
        (.binary lc' rc' op mode (if mode = .leftScalar then y else x).blank)
  | unary {f : Node V} {c c' : Closure V} {x : Container Binary64} {r : Flags} {op : UnaryOp}
      (function : Makes s f c) (probed : c.Returns s x c' r) :
      Makes s (.unary f op) (.unary c' op x.blank)
  | guarded {f : Node V} {c : Closure V} (function : Makes s f c) :
      Makes s (.guarded f) (.guarded c)
  | gradient {g : Gradient V} {route : Route} {r : Flags} (routed : Yields (g.specialize s) route r) :
      Makes s (.gradient g) (.gradient g route g.output)
  | traced {f : Node V} {c : Closure V} {label : String} (function : Makes s f c) :
      Makes s (.traced label f) (.traced label c)

variable {s : Sample Binary64 M}

/-- The last step of specializing a function of two operands, once they have been probed. -/
def join (left right : Node V) (op : BinaryOp) :
    Container Binary64 × Closure V → Container Binary64 × Closure V → Eval Binary64 (Closure V)
  | (x, l), (y, r) =>
    match Broadcast.ofSizes? x.size y.size with
    | none => Eval.fail (.shapeMismatch x.size y.size)
    | some mode => do
      let wider := if mode = .leftScalar then y else x
      Eval.notify (.broadcasting left.name op right.name wider.size mode)
      return .binary l r op mode wider.blank

theorem specialize_binary (left right : Node V) (op : BinaryOp) :
    (binary left right op).specialize s = (do
      let l ← left.specialize s
      let r ← right.specialize s
      join left right op (← l.probe s) (← r.probe s)) := rfl

theorem join_uniform (left right : Node V) (op : BinaryOp) (p q : Container Binary64 × Closure V) :
    Uniform (join left right op p q) := by
  simp only [join]
  cases Broadcast.ofSizes? p.1.size q.1.size with
  | none => exact .fail _
  | some mode => exact (Uniform.notice _).andThen fun _ => .deliver _

theorem join_yields {left right : Node V} {op : BinaryOp} {x y : Container Binary64}
    {l r : Closure V} {mode : Broadcast} (sizes : Broadcast.ofSizes? x.size y.size = some mode) :
    Yields (join left right op (x, l) (y, r))
      (.binary l r op mode (if mode = .leftScalar then y else x).blank) (∅ ∪ ∅) := by
  simp only [join, sizes]
  exact Yields.record.bind .pure

theorem of_join {left right : Node V} {op : BinaryOp} {x y : Container Binary64} {l r c : Closure V}
    {raised : Flags} (h : Yields (join left right op (x, l) (y, r)) c raised) :
    ∃ mode, Broadcast.ofSizes? x.size y.size = some mode ∧
      c = .binary l r op mode (if mode = .leftScalar then y else x).blank := by
  cases sizes : Broadcast.ofSizes? x.size y.size with
  | none =>
    simp only [join, sizes] at h
    exact h.not_fail.elim
  | some mode =>
    simp only [join, sizes] at h
    exact ⟨mode, rfl, (Yields.of_record (.deliver _) h).eq_pure.1⟩

theorem specializeComponent_yields {c c' : Closure V} {x : Container Binary64} {r : Flags} {i : Nat}
    (probed : c.Returns s x c' r) (hi : i < x.size) :
    ∃ r', Yields (specializeComponent s c i)
      (.component c' (Binary64.byteCount * i) (Binary64.byteCount * (i + 1))
        (.scalar (.zero false))) r' :=
  ⟨_, probed.yields.bind (.require (Nat.not_le.mpr hi) (Yields.record.bind .pure))⟩

theorem Makes.yields {f : Node V} {c : Closure V} (h : Makes s f c) :
    ∃ r, Yields (f.specialize s) c r := by
  induction h with
  | input => exact ⟨_, .pure⟩
  | constant v => exact ⟨_, .pure⟩
  | component function probed hi ih =>
    obtain ⟨p, made⟩ := ih
    obtain ⟨q, rest⟩ := specializeComponent_yields probed hi
    exact ⟨_, made.bind rest⟩
  | inputComponent hi => exact specializeComponent_yields .input hi
  | @binary lf rf lc lc' rc rc' x y p q op mode left right probedLeft probedRight sizes ihl ihr =>
    obtain ⟨p', madeLeft⟩ := ihl
    obtain ⟨q', madeRight⟩ := ihr
    rw [specialize_binary]
    exact ⟨_, madeLeft.bind (madeRight.bind
      (probedLeft.yields.bind (probedRight.yields.bind (join_yields sizes))))⟩
  | unary function probed ih =>
    obtain ⟨p, made⟩ := ih
    exact ⟨_, made.bind (probed.yields.bind .pure)⟩
  | guarded function ih =>
    obtain ⟨p, made⟩ := ih
    exact ⟨_, made.bind .pure⟩
  | gradient routed => exact ⟨_, routed.bind .pure⟩
  | traced function ih =>
    obtain ⟨p, made⟩ := ih
    exact ⟨_, Yields.record.bind (made.bind .pure)⟩

theorem of_specializeComponent {c c₁ : Closure V} {r : Flags} {i : Nat}
    (h : Yields (specializeComponent s c i) c₁ r) :
    ∃ x c' r', c.Returns s x c' r' ∧ i < x.size ∧ c₁ = .component c' (Binary64.byteCount * i)
      (Binary64.byteCount * (i + 1)) (.scalar (.zero false)) := by
  obtain ⟨⟨x, c'⟩, p, q, probed, rest, rfl⟩ := Yields.of_bind (c.probe_uniform s) (fun _ =>
    .require ((Uniform.notice _).andThen fun _ => .deliver _)) h
  obtain ⟨hi, rest⟩ := Yields.of_require ((Uniform.notice _).andThen fun _ => .deliver _) rest
  obtain ⟨rfl, -⟩ := (Yields.of_record (.deliver _) rest).eq_pure
  exact ⟨x, c', p, Closure.returns_of_yields probed, Nat.not_le.mp hi, rfl⟩

theorem makes_of_yields : ∀ {f : Node V} {c : Closure V} {r : Flags},
    Yields (f.specialize s) c r → Makes s f c
  | input, _, _, h => by
    obtain ⟨rfl, -⟩ := h.eq_pure
    exact .input
  | constant v, _, _, h => by
    obtain ⟨rfl, -⟩ := h.eq_pure
    exact .constant v
  | component f i, _, _, h => by
    obtain ⟨c, _, _, made, rest, -⟩ := h.of_bind (f.specialize_uniform s) fun c =>
      specializeComponent_uniform s c i
    obtain ⟨x, c', r', probed, hi, rfl⟩ := of_specializeComponent rest
    exact .component (makes_of_yields made) probed hi
  | inputComponent i, _, _, h => by
    obtain ⟨x, c', r', probed, hi, rfl⟩ := of_specializeComponent h
    cases probed
    exact .inputComponent hi
  | binary left right op, _, _, h => by
    rw [specialize_binary] at h
    obtain ⟨lc, _, _, madeLeft, afterLeft, -⟩ := h.of_bind (left.specialize_uniform s) fun lc =>
      (right.specialize_uniform s).andThen fun rc => (lc.probe_uniform s).andThen fun _ =>
        (rc.probe_uniform s).andThen fun _ => join_uniform left right op _ _
    obtain ⟨rc, _, _, madeRight, afterRight, -⟩ := afterLeft.of_bind (right.specialize_uniform s)
      fun rc => (lc.probe_uniform s).andThen fun _ =>
        (rc.probe_uniform s).andThen fun _ => join_uniform left right op _ _
    obtain ⟨⟨x, lc'⟩, _, _, probedLeft, afterProbe, -⟩ := afterRight.of_bind (lc.probe_uniform s)
      fun _ => (rc.probe_uniform s).andThen fun _ => join_uniform left right op _ _
    obtain ⟨⟨y, rc'⟩, _, _, probedRight, joined, -⟩ := afterProbe.of_bind (rc.probe_uniform s)
      fun _ => join_uniform left right op _ _
    obtain ⟨mode, sizes, rfl⟩ := of_join joined
    exact .binary (makes_of_yields madeLeft) (makes_of_yields madeRight)
      (Closure.returns_of_yields probedLeft) (Closure.returns_of_yields probedRight) sizes
  | unary f op, _, _, h => by
    obtain ⟨c, _, _, made, rest, -⟩ := h.of_bind (f.specialize_uniform s) fun c =>
      (c.probe_uniform s).andThen fun _ => .deliver _
    obtain ⟨⟨x, c'⟩, rfl, probed⟩ := Yields.of_map (c.probe_uniform s) rest
    exact .unary (makes_of_yields made) (Closure.returns_of_yields probed)
  | guarded f, _, _, h => by
    obtain ⟨c, rfl, made⟩ := Yields.of_map (f.specialize_uniform s) h
    exact .guarded (makes_of_yields made)
  | gradient g, _, _, h => by
    obtain ⟨route, rfl, routed⟩ := Yields.of_map (g.specialize_uniform s) h
    exact .gradient routed
  | traced label f, _, _, h => by
    have rest := h.of_record ((f.specialize_uniform s).andThen fun _ => .deliver _)
    obtain ⟨c, rfl, made⟩ := Yields.of_map (f.specialize_uniform s) rest
    exact .traced (makes_of_yields made)
  | refusing, _, _, h => h.not_fail.elim

/-- Evaluating a function succeeds where it can be specialized to a closure whose call succeeds. -/
theorem evaluate_eq_ok_iff {f : Node V} {ctx : Context} {v : Container Binary64} :
    (f.evaluate s ctx).1 = .ok v ↔ ∃ c c' r, Makes s f c ∧ c.Returns s v c' r := by
  have calling (c : Closure V) : Uniform (c.evaluate s) := c.evaluate_uniform s
  constructor
  · intro h
    have uniform : Uniform (f.evaluate s) := (f.specialize_uniform s).andThen calling
    have whole := Yields.of_uniform uniform ((uniform.fst_apply ctx).symm.trans h)
    obtain ⟨c, _, r, made, called, -⟩ := Yields.of_bind (f.specialize_uniform s) calling whole
    obtain ⟨c', returned⟩ := Closure.yields_evaluate_iff.mp called
    exact ⟨c, c', r, makes_of_yields made, returned⟩
  · rintro ⟨c, c', r, made, returned⟩
    obtain ⟨p, made⟩ := made.yields
    exact (made.bind (Closure.yields_evaluate_iff.mpr ⟨c', returned⟩) ctx).1

end Node
end
end FieldGraph
