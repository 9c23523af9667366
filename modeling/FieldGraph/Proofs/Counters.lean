import FieldGraph.Proofs.Meaning
import FieldGraph.Proofs.Occurrences

/-!
# Counters on occurrences

A traced function counts: the journal says when it is specialized and when it is
evaluated. With a counter on every occurrence a graph does what it does without
them, and the journal says how often each of its occurrences runs. Specializing
passes each of them once, in order, and tries each as often as it is probed from
above; evaluating passes each once, in order, or stops on the way where it fails.
-/

namespace FieldGraph

/-! ## What the journal says -/

/-- The labels that were passed in a phase. -/
def entered (phase : Phase) (written : List Entry) : List String :=
  written.filterMap fun entry =>
    match entry with
    | .passage found label => if found = phase then some label else none
    | .notice _ => none

theorem entered_append (phase : Phase) (w w' : List Entry) :
    entered phase (w ++ w') = entered phase w ++ entered phase w' := List.filterMap_append

/-- What is written says that the counters `made` were specialized and those of `tried` evaluated, in
order: all of them if the work is done, and the first ones otherwise. -/
structure Counts (made tried : List String) (done : Prop) (written : List Entry) : Prop where
  specialized : entered .specialize written <+: made
  evaluated : entered .evaluate written <+: tried
  all : done → entered .specialize written = made ∧ entered .evaluate written = tried

namespace Counts
variable {made made' tried tried' : List String} {done done' : Prop} {w w' : List Entry} {label : String}

theorem nil (done : Prop) : Counts [] [] done [] :=
  ⟨List.nil_prefix, List.nil_prefix, fun _ => ⟨rfl, rfl⟩⟩

theorem none (made tried : List String) : Counts made tried False [] :=
  ⟨List.nil_prefix, List.nil_prefix, False.elim⟩

theorem notice (n : Notice) (done : Prop) : Counts [] [] done [.notice n] :=
  ⟨List.nil_prefix, List.nil_prefix, fun _ => ⟨rfl, rfl⟩⟩

theorem mono (h : Counts made tried done w) (less : done' → done) : Counts made tried done' w :=
  ⟨h.specialized, h.evaluated, fun hd => h.all (less hd)⟩

theorem append (h : Counts made tried True w) (h' : Counts made' tried' done w') :
    Counts (made ++ made') (tried ++ tried') done (w ++ w') := by
  obtain ⟨specialized, evaluated⟩ := h.all trivial
  refine ⟨?_, ?_, fun hd => ?_⟩
  · rw [entered_append, specialized]
    exact (List.prefix_append_right_inj _).mpr h'.specialized
  · rw [entered_append, evaluated]
    exact (List.prefix_append_right_inj _).mpr h'.evaluated
  · obtain ⟨rest, rest'⟩ := h'.all hd
    rw [entered_append, entered_append, specialized, evaluated, rest, rest']
    exact ⟨rfl, rfl⟩

/-- Where the work stops, nothing that comes later is passed. -/
theorem stop (h : Counts made tried False w) (made' tried' : List String) :
    Counts (made ++ made') (tried ++ tried') False w :=
  ⟨h.specialized.trans (List.prefix_append _ _), h.evaluated.trans (List.prefix_append _ _), False.elim⟩

theorem specialize (h : Counts made tried done w) :
    Counts (label :: made) tried done (.passage .specialize label :: w) :=
  ⟨(List.prefix_cons_inj label).mpr h.specialized, h.evaluated,
    fun hd => ⟨congrArg (label :: ·) (h.all hd).1, (h.all hd).2⟩⟩

theorem evaluate (h : Counts made tried done w) :
    Counts made (label :: tried) done (.passage .evaluate label :: w) :=
  ⟨h.specialized, (List.prefix_cons_inj label).mpr h.evaluated,
    fun hd => ⟨(h.all hd).1, congrArg (label :: ·) (h.all hd).2⟩⟩

end Counts

/-! ## Two evaluations of which one counts -/

section
variable {K α β γ δ : Type}

/-- The second evaluation does what the first does, in other terms, and counts in the journal. -/
def Tracks (R : α → β → Prop) (made tried : List String) (m : Eval K α) (m' : Eval K β) : Prop :=
  ∀ c c', c.flags = c'.flags → (m c).2.flags = (m' c').2.flags ∧ Matched R (m c).1 (m' c').1 ∧
    ∃ written, (m' c').2.journal = c'.journal ++ written ∧
      Counts made tried ((m c).1.isOk = true) written

namespace Tracks
variable {R : α → β → Prop} {S : γ → δ → Prop} {made made' tried tried' : List String}

theorem pure {a : α} {b : β} (h : R a b) : Tracks (K := K) R [] [] (Pure.pure a) (Pure.pure b) :=
  fun _ _ flags => ⟨flags, .ok h, [], (List.append_nil _).symm, .nil _⟩

theorem fail (e : Error K) (made tried : List String) :
    Tracks R made tried (Eval.fail e) (Eval.fail e) :=
  fun _ _ flags => ⟨flags, .error (.error e), [], (List.append_nil _).symm,
    (Counts.none made tried).mono nofun⟩

theorem calculate (x : Calc α) :
    Tracks (K := K) Eq [] [] (Eval.calculate x) (Eval.calculate x) := by
  intro c c' flags
  refine ⟨congrArg (· ∪ x.raised) flags, ?_, [], (List.append_nil _).symm, .nil _⟩
  simp only [Eval.calculate]
  cases x.result with
  | none => exact .error .outOfBounds
  | some a => exact .ok rfl

theorem notify (n n' : Notice) :
    Tracks (K := K) Eq [] [] (Eval.notify n) (Eval.notify n') :=
  fun _ _ flags => ⟨flags, .ok rfl, [.notice n'], rfl, .notice n' _⟩

theorem bind {m : Eval K α} {m' : Eval K β} {f : α → Eval K γ} {f' : β → Eval K δ}
    (h : Tracks R made tried m m') (hf : ∀ a b, R a b → Tracks S made' tried' (f a) (f' b)) :
    Tracks S (made ++ made') (tried ++ tried') (m >>= f) (m' >>= f') := by
  intro c c' same
  obtain ⟨flags, outcome, w, journal, counts⟩ := h c c' same
  rw [Eval.bind_apply, Eval.bind_apply]
  generalize m c = out, m' c' = out' at flags outcome journal counts ⊢
  obtain ⟨o, c₁⟩ := out
  obtain ⟨o', c₁'⟩ := out'
  cases outcome with
  | error failure =>
    exact ⟨flags, .error failure, w, journal, ((counts.mono False.elim).stop _ _).mono nofun⟩
  | ok related =>
    obtain ⟨flags', outcome', w', journal', counts'⟩ := hf _ _ related c₁ c₁' flags
    refine ⟨flags', outcome', w ++ w', ?_, (counts.mono fun _ => rfl).append counts'⟩
    rw [journal', ← List.append_assoc]
    exact congrArg (· ++ w') journal

/-- What comes later may evaluate, but specializes nothing. -/
theorem trying {m : Eval K α} {m' : Eval K β} {f : α → Eval K γ} {f' : β → Eval K δ}
    (h : Tracks R made tried m m') (hf : ∀ a b, R a b → Tracks S [] tried' (f a) (f' b)) :
    Tracks S made (tried ++ tried') (m >>= f) (m' >>= f') := by
  have both := h.bind hf
  rwa [List.append_nil] at both

theorem andThen {m : Eval K α} {m' : Eval K β} {f : α → Eval K γ} {f' : β → Eval K δ}
    (h : Tracks R made tried m m') (hf : ∀ a b, R a b → Tracks S [] [] (f a) (f' b)) :
    Tracks S made tried (m >>= f) (m' >>= f') := by
  have both := h.trying hf
  rwa [List.append_nil] at both

theorem require {p : Prop} [Decidable p] {e : Error K} {m : Eval K α} {m' : Eval K β}
    (h : Tracks R made tried m m') :
    Tracks R made tried (if p then (do Eval.fail e; m) else m)
      (if p then (do Eval.fail e; m') else m') := by
  split
  · exact (fail (R := fun _ _ => True) e [] []).bind fun _ _ _ => h
  · exact h

/-- A passage that is written without counters is not counted. -/
theorem passed (e : Entry) {m : Eval K α} {m' : Eval K β} (h : Tracks R made tried m m') :
    Tracks R made tried (Eval.record e >>= fun _ => m) m' := fun _ _ same => h _ _ same

theorem record {m : Eval K α} {m' : Eval K β} (h : Tracks R made tried m m') (e : Entry)
    (counted : ∀ done w, Counts made tried done w → Counts made' tried' done (e :: w)) :
    Tracks R made' tried' m (Eval.record e >>= fun _ => m') := by
  intro c c' same
  obtain ⟨flags, outcome, w, journal, counts⟩ := h c { c' with journal := c'.journal ++ [e] } same
  exact ⟨flags, outcome, e :: w, journal.trans (List.append_cons _ _ _).symm, counted _ w counts⟩

theorem specialize (label : String) {m : Eval K α} {m' : Eval K β} (h : Tracks R made tried m m') :
    Tracks R (label :: made) tried m (Eval.record (.passage .specialize label) >>= fun _ => m') :=
  h.record _ fun _ _ counts => counts.specialize

theorem evaluate (label : String) {m : Eval K α} {m' : Eval K β} (h : Tracks R made tried m m') :
    Tracks R made (label :: tried) m (Eval.record (.passage .evaluate label) >>= fun _ => m') :=
  h.record _ fun _ _ counts => counts.evaluate

end Tracks
end

/-! ## What is not counted -/

namespace Gradient
variable {K M V : Type} [Mesh K M] [FieldVariable K M V]

theorem take_tracks (g : Gradient V) (route : Route) (n : Notice) :
    Tracks (K := K) Eq [] [] (g.take route n) (g.take route n) :=
  (Tracks.notify n n).andThen fun _ _ _ => (Tracks.calculate _).andThen fun _ _ _ => .pure rfl

variable [DecidableEq M]

theorem specialize_tracks (g : Gradient V) (s : Sample K M) :
    Tracks Eq [] [] (g.specialize s) (g.specialize s) := by
  unfold specialize
  cases s with
  | value c => exact .require (g.take_tracks _ _)
  | element p =>
    simp only
    split
    · exact g.take_tracks _ _
    · exact .require (g.take_tracks _ _)
  | node p =>
    simp only
    split
    · exact g.take_tracks _ _
    · exact .require (g.take_tracks _ _)

theorem evaluateElement_tracks (g : Gradient V) (s : Sample K M) :
    Tracks Eq [] [] (g.evaluateElement s) (g.evaluateElement s) := by
  unfold evaluateElement
  cases s with
  | element p =>
    simp only
    split
    · exact .calculate _
    · exact .fail _ _ _
  | _ => exact .fail _ _ _

theorem evaluateNode_tracks (g : Gradient V) (s : Sample K M) :
    Tracks Eq [] [] (g.evaluateNode s) (g.evaluateNode s) := by
  unfold evaluateNode
  cases s with
  | node p =>
    simp only
    split
    · refine (Tracks.calculate _).andThen ?_
      rintro elements _ rfl
      split
      · exact .fail _ _ _
      · exact .calculate _
    · exact .fail _ _ _
  | _ => exact .fail _ _ _

omit [DecidableEq M] in
theorem evaluateGlobal_tracks (g : Gradient V) (s : Sample K M) :
    Tracks Eq [] [] (g.evaluateGlobal s) (g.evaluateGlobal s) := by
  unfold evaluateGlobal
  refine .require ((Tracks.calculate _).andThen ?_)
  rintro found _ rfl
  split
  · exact .pure rfl
  · exact .fail _ _ _

theorem evaluate_tracks (g : Gradient V) (route : Route) (s : Sample K M) :
    Tracks Eq [] [] (g.evaluate route s) (g.evaluate route s) := by
  cases route with
  | element => exact g.evaluateElement_tracks s
  | node => exact g.evaluateNode_tracks s
  | global => exact g.evaluateGlobal_tracks s

end Gradient

section
variable {M V : Type} [Mesh Binary64 M] [FieldVariable Binary64 M V] [DecidableEq M]

namespace Closure

theorem extract_tracks (x : Container Binary64) (start stop : Nat) :
    Tracks Eq [] [] (extract x start stop) (extract x start stop) := by
  unfold extract
  split
  · exact .pure rfl
  · exact .fail _ _ _

theorem combine_tracks (op : BinaryOp) (mode : Broadcast) (output x y : Container Binary64) :
    Tracks Eq [] [] (combine op mode output x y) (combine op mode output x y) :=
  .require (.calculate _)

theorem transform_tracks (op : UnaryOp) (output x : Container Binary64) :
    Tracks Eq [] [] (transform op output x) (transform op output x) :=
  .require (.calculate _)

end Closure
end

/-! ## Graphs with counters -/

abbrev Naming := Place → String

def Naming.below (name : Naming) (side : Bool) : Naming := fun p => name (side :: p)

/-- The graph with a counter on every occurrence, named for its place. A traced function is a
counter itself. -/
def Node.counted {V : Type} (name : Naming) : Node V → Node V
  | input => .traced (name []) .input
  | constant value => .traced (name []) (.constant value)
  | component function i => .traced (name []) (.component (function.counted (name.below false)) i)
  | inputComponent i => .traced (name []) (.inputComponent i)
  | binary left right op =>
    .traced (name []) (.binary (left.counted (name.below false)) (right.counted (name.below true)) op)
  | unary function op => .traced (name []) (.unary (function.counted (name.below false)) op)
  | guarded function => .traced (name []) (.guarded (function.counted (name.below false)))
  | gradient g => .traced (name []) (.gradient g)
  | traced _ function => .traced (name []) (function.counted (name.below false))
  | refusing => .traced (name []) .refusing

/-- A closure of a function and the closure of the function with counters, which hold the same in
their outputs. -/
inductive Closure.Counted {V : Type} : Naming → Node V → Closure V → Closure V → Prop where
  | input {name : Naming} : Counted name .input .input (.traced (name []) .input)
  | constant {name : Naming} (value : Container Binary64) :
      Counted name (.constant value) (.constant value) (.traced (name []) (.constant value))
  | component {name : Naming} {f : Node V} {i start stop : Nat} {output : Container Binary64}
      {c c' : Closure V} (function : Counted (name.below false) f c c') :
      Counted name (.component f i) (.component c start stop output)
        (.traced (name []) (.component c' start stop output))
  | inputComponent {name : Naming} {i start stop : Nat} {output : Container Binary64} :
      Counted name (.inputComponent i) (.component .input start stop output)
        (.traced (name []) (.component .input start stop output))
  | binary {name : Naming} {f g : Node V} {op : BinaryOp} {mode : Broadcast}
      {output : Container Binary64} {l l' r r' : Closure V}
      (left : Counted (name.below false) f l l') (right : Counted (name.below true) g r r') :
      Counted name (.binary f g op) (.binary l r op mode output)
        (.traced (name []) (.binary l' r' op mode output))
  | unary {name : Naming} {f : Node V} {op : UnaryOp} {output : Container Binary64}
      {c c' : Closure V} (function : Counted (name.below false) f c c') :
      Counted name (.unary f op) (.unary c op output) (.traced (name []) (.unary c' op output))
  | guarded {name : Naming} {f : Node V} {c c' : Closure V}
      (function : Counted (name.below false) f c c') :
      Counted name (.guarded f) (.guarded c) (.traced (name []) (.guarded c'))
  | gradient {name : Naming} {g : Gradient V} {route : Route} {output : Container Binary64} :
      Counted name (.gradient g) (.gradient g route output)
        (.traced (name []) (.gradient g route output))
  | traced {name : Naming} {label : String} {f : Node V} {c c' : Closure V}
      (function : Counted (name.below false) f c c') :
      Counted name (.traced label f) (.traced label c) (.traced (name []) c')

section
variable {M V : Type} [Mesh Binary64 M] [FieldVariable Binary64 M V] [DecidableEq M]

/-! ## Calls -/

namespace Closure
variable {Q Q' : Closure V → Closure V → Prop} {made tried : List String} {s : Sample Binary64 M}

/-- Two probes deliver the same and leave related closures. -/
def Probed (Q : Closure V → Closure V → Prop) (p p' : Container Binary64 × Closure V) : Prop :=
  p.1 = p'.1 ∧ Q p.2 p'.2

theorem isOk_probe (c : Closure V) (s : Sample Binary64 M) (ctx : Context) :
    (c.probe s ctx).1.isOk = (c.run s ctx).1.outcome.isOk := by
  rw [probe_apply]
  cases (c.run s ctx).1.outcome <;> rfl

/-- Calls whose probes match fail alike, or deliver the same and leave related closures. -/
theorem run_of_probed {c c' : Closure V} {ctx ctx' : Context}
    (h : Matched (Probed Q) (c.probe s ctx).1 (c'.probe s ctx').1) :
    (∃ failure, (c.run s ctx).1.outcome = .error failure ∧
      (c'.run s ctx').1.outcome = .error failure) ∨
    ∃ v, (c.run s ctx).1.outcome = .ok v ∧ (c'.run s ctx').1.outcome = .ok v ∧
      Q (c.run s ctx).1.after (c'.run s ctx').1.after := by
  rw [probe_apply, probe_apply] at h
  generalize (c.run s ctx).1 = call, (c'.run s ctx').1 = call' at h ⊢
  obtain ⟨failure | v, d⟩ := call
  · obtain ⟨failure' | v', d'⟩ := call'
    · cases h
      exact .inl ⟨failure, rfl, rfl⟩
    · cases h
  · obtain ⟨failure' | v', d'⟩ := call'
    · cases h
    · obtain ⟨⟨rfl, related⟩⟩ := h
      exact .inr ⟨v, rfl, rfl, related⟩

theorem probe_guarded {c c' : Closure V} (h : Tracks (Probed Q) made tried (c.probe s) (c'.probe s))
    (guard : ∀ d d', Q d d' → Q' (guarded d) (guarded d')) :
    Tracks (Probed Q') made tried ((guarded c).probe s) ((guarded c').probe s) := by
  intro ctx ctx' same
  -- under the guard both run as if nothing had been raised before
  obtain ⟨flags, outcome, w, journal, counts⟩ := h {} {} rfl
  have inner := run_of_probed outcome
  rw [isOk_probe] at counts
  simp only [probe_apply] at flags journal ⊢
  rw [guarded_apply, guarded_apply, result, result, raises, raises, writes, writes, ← flags]
  refine ⟨?_, ?_, w, congrArg (ctx'.journal ++ ·) (journal.trans (List.nil_append w)),
    counts.mono ?_⟩
  · rw [Context.flags_written, Context.flags_written, same]
  · rcases inner with ⟨failure, failed, failed'⟩ | ⟨v, delivered, delivered', related⟩
    · rw [failed, failed']
      exact .error failure
    · rw [delivered, delivered']
      dsimp only [Guard.judge]
      split
      · exact .ok ⟨rfl, guard _ _ related⟩
      · exact .error _
  · cases (c.run s {}).1.outcome with
    | error failure => exact id
    | ok v => exact fun _ => rfl

theorem after_deliver_both {P : Closure V → Closure V → Prop} {output : Container Binary64}
    {rebuild rebuild' : Container Binary64 → Closure V}
    (h : ∀ output : Container Binary64, P (rebuild output) (rebuild' output))
    {body : Eval Binary64 (List Binary64)} (uniform : Uniform body) (ctx ctx' : Context) :
    P (deliver output rebuild body ctx).1.after (deliver output rebuild' body ctx').1.after := by
  simp only [deliver, Context.bind_apply, Context.run_apply, uniform.fst_apply]
  cases result body with
  | ok data => exact h _
  | error failure => exact h output

theorem probe_counter {name : Naming} {f : Node V} {c' : Closure V}
    {m : Eval Binary64 (Container Binary64 × Closure V)}
    (h : Tracks (Probed fun d d' => Counted name f d (.traced (name []) d')) made tried m (c'.probe s)) :
    Tracks (Probed (Counted name f)) made (name [] :: tried) m ((traced (name []) c').probe s) := by
  rw [probe_traced, ← bind_pure m]
  refine .evaluate (name []) (h.andThen ?_)
  rintro ⟨v, d⟩ ⟨_, d'⟩ ⟨rfl, counted⟩
  exact .pure ⟨rfl, counted⟩

namespace Counted
variable {name : Naming} {f : Node V} {c c' : Closure V}

/-- Evaluating passes every occurrence, or the first ones if it fails on the way. -/
theorem probe_tracks (h : Counted name f c c') (s : Sample Binary64 M) :
    Tracks (Probed (Counted name f)) [] (f.occurrences.map name) (c.probe s) (c'.probe s) := by
  induction h with
  | input => exact probe_counter (.pure ⟨rfl, .input⟩)
  | constant value => exact probe_counter (.pure ⟨rfl, .constant value⟩)
  | component function ih =>
    rw [Node.occurrences, List.map_cons, List.map_map]
    refine probe_counter ?_
    rw [probe_component, probe_component]
    refine ih.andThen ?_
    rintro ⟨x, d⟩ ⟨_, d'⟩ ⟨rfl, inner⟩
    refine (extract_tracks _ _ _).andThen ?_
    rintro y _ rfl
    exact .pure ⟨rfl, .component inner⟩
  | inputComponent =>
    refine probe_counter ?_
    rw [probe_component]
    refine Tracks.andThen (R := fun p p' => p = p' ∧ p.2 = .input) (.pure ⟨rfl, rfl⟩) ?_
    rintro ⟨x, _⟩ _ ⟨rfl, rfl⟩
    refine (extract_tracks _ _ _).andThen ?_
    rintro y _ rfl
    exact .pure ⟨rfl, .inputComponent⟩
  | binary left right ihl ihr =>
    rw [Node.occurrences, List.map_cons, List.map_append, List.map_map, List.map_map]
    refine probe_counter ?_
    rw [probe_binary, probe_binary]
    refine ihl.bind ?_
    rintro ⟨x, l⟩ ⟨_, l'⟩ ⟨rfl, left⟩
    refine ihr.andThen ?_
    rintro ⟨y, r⟩ ⟨_, r'⟩ ⟨rfl, right⟩
    refine (combine_tracks _ _ _ _ _).andThen ?_
    rintro data _ rfl
    exact .pure ⟨rfl, .binary left right⟩
  | unary function ih =>
    rw [Node.occurrences, List.map_cons, List.map_map]
    refine probe_counter ?_
    rw [probe_unary, probe_unary]
    refine ih.andThen ?_
    rintro ⟨x, d⟩ ⟨_, d'⟩ ⟨rfl, inner⟩
    refine (transform_tracks _ _ _).andThen ?_
    rintro data _ rfl
    exact .pure ⟨rfl, .unary inner⟩
  | guarded function ih =>
    rw [Node.occurrences, List.map_cons, List.map_map]
    exact probe_counter (probe_guarded ih fun _ _ => .guarded)
  | gradient =>
    refine probe_counter ?_
    rw [probe_gradient]
    refine (Gradient.evaluate_tracks _ _ _).andThen ?_
    rintro data _ rfl
    exact .pure ⟨rfl, .gradient⟩
  | @traced name label f c c' function ih =>
    rw [Node.occurrences, List.map_cons, List.map_map, Closure.probe_traced s label]
    refine .passed _ (probe_counter ?_)
    rw [← bind_pure (c'.probe s)]
    refine ih.andThen ?_
    rintro ⟨x, d⟩ ⟨_, d'⟩ ⟨rfl, inner⟩
    exact .pure ⟨rfl, .traced inner⟩

theorem outcome_eq (h : Counted name f c c') (s : Sample Binary64 M) (ctx ctx' : Context) :
    (c.run s ctx).1.outcome = (c'.run s ctx').1.outcome := by
  obtain ⟨-, outcome, -⟩ := h.probe_tracks s {} {} rfl
  rw [(c.run_uniform s).fst_apply ctx, (c'.run_uniform s).fst_apply ctx', result, result]
  rcases run_of_probed outcome with ⟨failure, failed, failed'⟩ | ⟨v, delivered, delivered', -⟩
  · rw [failed, failed']
  · rw [delivered, delivered']

theorem after_run (h : Counted name f c c') (s : Sample Binary64 M) (ctx ctx' : Context) :
    Counted name f (c.run s ctx).1.after (c'.run s ctx').1.after := by
  induction h generalizing ctx ctx' with
  | input => exact .input
  | constant value => exact .constant value
  | @component name f i start stop output c c' function ih =>
    let within := (Context.record (.passage .evaluate (name [])) ctx').2
    simp only [run, Context.bind_apply, Context.pure_apply, function.outcome_eq s ctx within]
    exact after_deliver_both
      (P := fun d d' => Counted name (.component f i) d (.traced (name []) d'))
      (fun _ => .component (ih ctx within))
      ((Uniform.resume _).andThen fun _ => (extract_uniform _ _ _).andThen fun _ => .deliver _) _ _
  | @inputComponent name i start stop output =>
    simp only [run, Context.bind_apply, Context.pure_apply]
    exact after_deliver_both
      (P := fun d d' => Counted name (.inputComponent i) d (.traced (name []) d'))
      (fun _ => .inputComponent)
      ((Uniform.resume _).andThen fun _ => (extract_uniform _ _ _).andThen fun _ => .deliver _) _ _
  | @binary name f g op mode output l l' r r' left right ihl ihr =>
    let within := (Context.record (.passage .evaluate (name [])) ctx').2
    simp only [run, Context.bind_apply, Context.pure_apply, left.outcome_eq s ctx within]
    cases (l'.run s within).1.outcome with
    | error failure => exact .binary (ihl ctx within) right
    | ok x =>
      simp only [Context.bind_apply, right.outcome_eq s (l.run s ctx).2 (l'.run s within).2]
      exact after_deliver_both
        (P := fun d d' => Counted name (.binary f g op) d (.traced (name []) d'))
        (fun _ => .binary (ihl ctx within) (ihr _ _))
        ((Uniform.resume _).andThen fun _ => combine_uniform _ _ _ _ _) _ _
  | @unary name f op output c c' function ih =>
    let within := (Context.record (.passage .evaluate (name [])) ctx').2
    simp only [run, Context.bind_apply, Context.pure_apply, function.outcome_eq s ctx within]
    exact after_deliver_both (P := fun d d' => Counted name (.unary f op) d (.traced (name []) d'))
      (fun _ => .unary (ih ctx within))
      ((Uniform.resume _).andThen fun _ => transform_uniform _ _ _) _ _
  | guarded function ih => exact .guarded (ih _ _)
  | @gradient name g route output =>
    exact after_deliver_both (P := fun d d' => Counted name (.gradient g) d (.traced (name []) d'))
      (fun _ => .gradient) (g.evaluate_uniform route s) _ _
  | traced function ih => exact .traced (ih _ _)

theorem after_calls (h : Counted name f c c') (calls : List (Sample Binary64 M × Context)) :
    Counted name f (c.afterCalls calls) (c'.afterCalls calls) := by
  induction calls generalizing c c' with
  | nil => exact h
  | cons call rest ih => exact ih (h.after_run call.1 call.2 call.2)

end Counted

end Closure

/-! ## Specialization -/

namespace Node
variable {name : Naming} {s : Sample Binary64 M}

theorem specialize_counter {f f' : Node V} {made tried : List String}
    {m : Eval Binary64 (Closure V)}
    (h : Tracks (fun d d' => Closure.Counted name f d (.traced (name []) d')) made tried m
      (f'.specialize s)) :
    Tracks (Closure.Counted name f) (name [] :: made) tried m
      ((traced (name []) f').specialize s) := by
  rw [← bind_pure m]
  exact .specialize (name []) (h.andThen fun _ _ counted => .pure counted)

theorem specializeComponent_tracks {Q R : Closure V → Closure V → Prop} {tried : List String}
    {c c' : Closure V} (h : Tracks (Closure.Probed Q) [] tried (c.probe s) (c'.probe s)) (i : Nat)
    (extracting : ∀ d d' start stop output, Q d d' →
      R (.component d start stop output) (.component d' start stop output)) :
    Tracks R [] tried (specializeComponent s c i) (specializeComponent s c' i) := by
  refine h.andThen ?_
  rintro ⟨v, d⟩ ⟨_, d'⟩ ⟨rfl, related⟩
  exact .require ((Tracks.notify _ _).andThen fun _ _ _ => .pure (extracting _ _ _ _ _ related))

/-- Specializing passes every occurrence, and tries those that are probed from above; or the first
ones of each if it fails on the way. -/
theorem specialize_tracks (f : Node V) (name : Naming) (s : Sample Binary64 M) :
    Tracks (Closure.Counted name f) (f.occurrences.map name) (f.trials.map name) (f.specialize s)
      ((f.counted name).specialize s) := by
  induction f generalizing name with
  | input => exact specialize_counter (.pure .input)
  | constant value => exact specialize_counter (.pure (.constant value))
  | component f i ih =>
    rw [occurrences, trials, List.map_cons, List.map_append, List.map_map, List.map_map]
    refine specialize_counter ((ih (name.below false)).trying fun c c' counted => ?_)
    exact specializeComponent_tracks (counted.probe_tracks s) i fun _ _ _ _ _ => .component
  | inputComponent i =>
    refine specialize_counter (specializeComponent_tracks (Q := fun d d' => d = .input ∧ d' = .input)
      (.pure ⟨rfl, rfl, rfl⟩) i ?_)
    rintro _ _ start stop output ⟨rfl, rfl⟩
    exact .inputComponent
  | binary left right op ihl ihr =>
    rw [occurrences, trials]
    simp only [List.map_cons, List.map_append, List.map_map]
    refine specialize_counter ((ihl (name.below false)).bind fun l l' left => ?_)
    refine (ihr (name.below true)).trying fun r r' right => ?_
    refine (left.probe_tracks s).trying ?_
    rintro ⟨x, l⟩ ⟨_, l'⟩ ⟨rfl, left⟩
    refine (right.probe_tracks s).andThen ?_
    rintro ⟨y, r⟩ ⟨_, r'⟩ ⟨rfl, right⟩
    dsimp only
    cases Broadcast.ofSizes? x.size y.size with
    | none => exact .fail _ _ _
    | some mode => exact (Tracks.notify _ _).andThen fun _ _ _ => .pure (.binary left right)
  | unary f op ih =>
    rw [occurrences, trials, List.map_cons, List.map_append, List.map_map, List.map_map]
    refine specialize_counter ((ih (name.below false)).trying fun c c' counted => ?_)
    refine (counted.probe_tracks s).andThen ?_
    rintro ⟨x, d⟩ ⟨_, d'⟩ ⟨rfl, inner⟩
    exact .pure (.unary inner)
  | guarded f ih =>
    rw [occurrences, trials, List.map_cons, List.map_map, List.map_map]
    exact specialize_counter ((ih (name.below false)).andThen fun _ _ inner => .pure (.guarded inner))
  | gradient g =>
    refine specialize_counter ((g.specialize_tracks s).andThen ?_)
    rintro route _ rfl
    exact .pure .gradient
  | traced label f ih =>
    rw [occurrences, trials, List.map_cons, List.map_map, List.map_map]
    refine .passed _ (specialize_counter ?_)
    rw [← bind_pure ((f.counted (name.below false)).specialize s)]
    exact (ih (name.below false)).andThen fun _ _ inner => .pure (.traced inner)
  | refusing => exact specialize_counter (.fail _ _ _)

end Node

/-- The occurrences of a graph, in order: what is above comes before what is below and a left operand
before a right one, each once. With a counter on every occurrence specializing and calling do what they
do without. Where specializing succeeds, every occurrence is specialized once, in order, and evaluated
once for each function above it that probes. A call evaluates every occurrence once, in order, or the
first ones of them if it fails. -/
theorem occurrences_counted (f : Node V) (name : Naming) (s₀ : Sample Binary64 M) (c₀ : Context) :
    let plain := f.specialize s₀ c₀
    let counted := (f.counted name).specialize s₀ c₀
    (f.occurrences.Pairwise (· < ·) ∧ (∀ p, p ∈ f.occurrences ↔ (f.at? p).isSome) ∧
      ∀ p, f.trials.count p = if (f.at? p).isSome then f.probesAbove p else 0) ∧
    (∃ written, counted.2.journal = c₀.journal ++ written ∧
      Counts (f.occurrences.map name) (f.trials.map name) (plain.1.isOk = true) written) ∧
    counted.2.flags = plain.2.flags ∧
    Matched (fun closure counters =>
      ∀ (calls : List (Sample Binary64 M × Context)) (s : Sample Binary64 M) (c : Context),
        let bare := (closure.afterCalls calls).run s c
        let own := (counters.afterCalls calls).run s c
        (∃ written, own.2.journal = c.journal ++ written ∧
          Counts [] (f.occurrences.map name) (own.1.outcome.isOk = true) written) ∧
        own.2.flags = bare.2.flags ∧ own.1.outcome = bare.1.outcome) plain.1 counted.1 := by
  intro plain counted
  obtain ⟨flags, outcome, written, journal, counts⟩ := f.specialize_tracks name s₀ c₀ c₀ rfl
  refine ⟨⟨f.occurrences_ascending, fun _ => Node.mem_occurrences, f.count_trials⟩,
    ⟨written, journal, counts⟩, flags.symm, outcome.mono ?_⟩
  intro closure counters start calls s c bare own
  have later := start.after_calls calls
  have same := later.outcome_eq s c c
  obtain ⟨flags, -, written, journal, counts⟩ := later.probe_tracks s c c rfl
  rw [Closure.probe_apply, Closure.probe_apply] at flags
  rw [Closure.probe_apply] at journal
  rw [Closure.isOk_probe, same] at counts
  exact ⟨⟨written, journal, counts⟩, flags.symm, same.symm⟩

end
/-- The absolute value of a sum, of the input under a guard and of a component of the input. Three
functions probe above the input of which the component is taken, so it is tried three times. -/
theorem occurrences_counted_sum :
    let name : Naming := fun p => String.ofList (p.map fun side => if side then 'r' else 'l')
    let f : Node (NodalField Binary64) :=
      .unary (.binary (.guarded .input) (.component .input 1) .add) .abs
    let s : Sample Binary64 (Grid Binary64) := .value (.vector [.ofRat 1, .ofRat 2])
    let journal := ((f.counted name).specialize s {}).2.journal
    (f.specialize s {}).1.isOk = true ∧ f.probesAbove [false, true, false] = 3 ∧
      entered .specialize journal = ["", "l", "ll", "lll", "lr", "lrl"] ∧
      entered .evaluate journal =
        ["lrl", "ll", "lll", "lr", "lrl", "l", "ll", "lll", "lr", "lrl"] := by
  intro name f s journal
  have ok : (f.specialize s {}).1.isOk = true := by decide +kernel
  obtain ⟨-, ⟨written, same, counts⟩, -⟩ := occurrences_counted f name s {}
  obtain ⟨specialized, evaluated⟩ := counts.all ok
  have whole : journal = written := same.trans (List.nil_append written)
  rw [whole, specialized, evaluated]
  exact ⟨ok, by decide, by decide +kernel, by decide +kernel⟩

end FieldGraph
