import FieldGraph.Proofs.SuccessfulCalls

/-!
# Inner guards

Guards inside a guarded function are redundant: it succeeds with a result exactly
where it does once they are taken out. An inner guard lets nothing pass that
raised something, so what succeeds with it succeeds without it, raising the same.
Conversely where the outer guard finds nothing raised no inner guard would have
found anything either: not in the call itself, and not while the function was
specialized, since what was probed then is called again and raises the same again.
-/

namespace FieldGraph

section
variable {M V : Type}

def Node.unguarded : Node V → Node V
  | input => .input
  | constant value => .constant value
  | component function i => .component function.unguarded i
  | inputComponent i => .inputComponent i
  | binary left right op => .binary left.unguarded right.unguarded op
  | unary function op => .unary function.unguarded op
  | guarded function => function.unguarded
  | gradient g => .gradient g
  | traced label function => .traced label function.unguarded
  | refusing => .refusing

def Closure.unguarded : Closure V → Closure V
  | input => .input
  | constant value => .constant value
  | component function start stop output => .component function.unguarded start stop output
  | binary left right op mode output => .binary left.unguarded right.unguarded op mode output
  | unary function op output => .unary function.unguarded op output
  | guarded function => function.unguarded
  | gradient g route output => .gradient g route output
  | traced label function => .traced label function.unguarded

variable [Mesh Binary64 M] [FieldVariable Binary64 M V] [DecidableEq M] {s : Sample Binary64 M}

/-! ## Calls -/

namespace Closure

/-- What succeeds with guards succeeds without them. -/
theorem Returns.unguarded {c c' : Closure V} {v : Container Binary64} {r : Flags}
    (h : Returns s c v c' r) : Returns s c.unguarded v c'.unguarded r := by
  induction h with
  | input => exact .input
  | constant v => exact .constant v
  | component function extracted ih => exact .component ih extracted
  | binary left right combined ihl ihr => exact .binary ihl ihr combined
  | unary function transformed ih => exact .unary ih transformed
  | guarded function ih => exact ih
  | gradient evaluated => exact .gradient evaluated
  | traced function ih => exact .traced ih

/-! A call that raises nothing is put together from calls that raise nothing. -/

theorem Returns.silent_component {c c' : Closure V} {start stop : Nat}
    {output v : Container Binary64} (h : Returns s (.component c start stop output) v c' ∅) :
    ∃ x y inner, Returns s c x inner ∅ ∧ Yields (extract x start stop) y ∅ ∧
      v = output.write [y] ∧ c' = .component inner start stop (output.write [y]) := by
  -- the rule raises a union, so the cases are split before the union is known to be empty
  generalize raised : (∅ : Flags) = r at h
  cases h with
  | component function extracted =>
    obtain ⟨rfl, rfl⟩ := Flags.union_eq_empty raised.symm
    exact ⟨_, _, _, function, extracted, rfl, rfl⟩

theorem Returns.silent_binary {lc rc c' : Closure V} {op : BinaryOp} {mode : Broadcast}
    {output v : Container Binary64} (h : Returns s (.binary lc rc op mode output) v c' ∅) :
    ∃ x y data lc' rc', Returns s lc x lc' ∅ ∧ Returns s rc y rc' ∅ ∧
      Yields (combine op mode output x y) data ∅ ∧
      v = output.write data ∧ c' = .binary lc' rc' op mode (output.write data) := by
  generalize raised : (∅ : Flags) = r at h
  cases h with
  | binary left right combined =>
    obtain ⟨rfl, silent⟩ := Flags.union_eq_empty raised.symm
    obtain ⟨rfl, rfl⟩ := Flags.union_eq_empty silent
    exact ⟨_, _, _, _, _, left, right, combined, rfl, rfl⟩

theorem Returns.silent_unary {c c' : Closure V} {op : UnaryOp} {output v : Container Binary64}
    (h : Returns s (.unary c op output) v c' ∅) :
    ∃ x data inner, Returns s c x inner ∅ ∧ Yields (transform op output x) data ∅ ∧
      v = output.write data ∧ c' = .unary inner op (output.write data) := by
  generalize raised : (∅ : Flags) = r at h
  cases h with
  | unary function transformed =>
    obtain ⟨rfl, rfl⟩ := Flags.union_eq_empty raised.symm
    exact ⟨_, _, _, function, transformed, rfl, rfl⟩

/-- What raises nothing without guards succeeds with them. -/
theorem returns_of_unguarded : ∀ {c c₀ : Closure V} {v : Container Binary64},
    Returns s c.unguarded v c₀ ∅ → ∃ c', Returns s c v c' ∅ ∧ c'.unguarded = c₀
  | input, _, _, h => by
    cases h
    exact ⟨_, .input, rfl⟩
  | constant v, _, _, h => by
    cases h
    exact ⟨_, .constant v, rfl⟩
  | component c start stop output, _, _, h => by
    obtain ⟨x, y, _, bare, extracted, rfl, rfl⟩ := Returns.silent_component h
    obtain ⟨c', function, rfl⟩ := returns_of_unguarded bare
    -- what this call raises is a union of empty sets, empty by evaluation
    have call : Returns s (.component c start stop output) _ _ _ := .component function extracted
    exact ⟨_, call, rfl⟩
  | binary lc rc op mode output, _, _, h => by
    obtain ⟨x, y, data, _, _, bareLeft, bareRight, combined, rfl, rfl⟩ := Returns.silent_binary h
    obtain ⟨lc', left, rfl⟩ := returns_of_unguarded bareLeft
    obtain ⟨rc', right, rfl⟩ := returns_of_unguarded bareRight
    have call := Returns.binary left right combined
    exact ⟨_, call, rfl⟩
  | unary c op output, _, _, h => by
    obtain ⟨x, data, _, bare, transformed, rfl, rfl⟩ := Returns.silent_unary h
    obtain ⟨c', function, rfl⟩ := returns_of_unguarded bare
    have call := Returns.unary function transformed
    exact ⟨_, call, rfl⟩
  | guarded c, _, _, h => by
    obtain ⟨c', function, rfl⟩ := returns_of_unguarded (c := c) h
    exact ⟨_, .guarded function, rfl⟩
  | gradient g route output, _, _, h => by
    cases h with
    | gradient evaluated => exact ⟨_, .gradient evaluated, rfl⟩
  | traced label c, _, _, h => by
    cases h with
    | traced bare =>
      obtain ⟨c', function, rfl⟩ := returns_of_unguarded bare
      exact ⟨_, .traced function, rfl⟩

/-- A closure that raises nothing when it is called again raised nothing before. -/
theorem Returns.silent_of_again {c c' c'' : Closure V} {v w : Container Binary64} {r : Flags}
    (h : Returns s c v c' r) (later : Returns s c' w c'' ∅) : r = ∅ :=
  (h.again.yields.unique later.yields).2

end Closure

/-! ## Specialization -/

namespace Node

theorem Makes.unguarded {f : Node V} {c : Closure V} (h : Makes s f c) :
    Makes s f.unguarded c.unguarded := by
  induction h with
  | input => exact .input
  | constant v => exact .constant v
  | component function probed hi ih => exact .component ih probed.unguarded hi
  | inputComponent hi => exact .inputComponent hi
  | binary left right probedLeft probedRight sizes ihl ihr =>
    exact .binary ihl ihr probedLeft.unguarded probedRight.unguarded sizes
  | unary function probed ih => exact .unary ih probed.unguarded
  | guarded function ih => exact ih
  | gradient routed => exact .gradient routed
  | traced function ih => exact .traced ih

/-- Where a call raises nothing the probes before it raised nothing, so that guards around what
was probed would have let it pass. -/
theorem makes_of_unguarded : ∀ {f : Node V} {c₀ c₀' : Closure V} {v : Container Binary64},
    Makes s f.unguarded c₀ → c₀.Returns s v c₀' ∅ → ∃ c, Makes s f c ∧ c.unguarded = c₀
  | input, _, _, _, made, _ => by
    cases made
    exact ⟨_, .input, rfl⟩
  | constant v, _, _, _, made, _ => by
    cases made
    exact ⟨_, .constant v, rfl⟩
  | component f i, _, _, _, made, returned => by
    cases made with
    | component bare probe hi =>
      obtain ⟨_, _, _, called, -⟩ := returned.silent_component
      obtain rfl := probe.silent_of_again called
      obtain ⟨c, made, rfl⟩ := makes_of_unguarded bare probe
      obtain ⟨c', probed, rfl⟩ := Closure.returns_of_unguarded probe
      exact ⟨_, .component made probed hi, rfl⟩
  | inputComponent i, _, _, _, made, _ => by
    cases made with
    | inputComponent hi => exact ⟨_, .inputComponent hi, rfl⟩
  | binary left right op, _, _, _, made, returned => by
    cases made with
    | binary bareLeft bareRight probeLeft probeRight sizes =>
      obtain ⟨_, _, _, _, _, calledLeft, calledRight, -⟩ := returned.silent_binary
      obtain rfl := probeLeft.silent_of_again calledLeft
      obtain rfl := probeRight.silent_of_again calledRight
      obtain ⟨lc, madeLeft, rfl⟩ := makes_of_unguarded bareLeft probeLeft
      obtain ⟨rc, madeRight, rfl⟩ := makes_of_unguarded bareRight probeRight
      obtain ⟨lc', probedLeft, rfl⟩ := Closure.returns_of_unguarded probeLeft
      obtain ⟨rc', probedRight, rfl⟩ := Closure.returns_of_unguarded probeRight
      exact ⟨_, .binary madeLeft madeRight probedLeft probedRight sizes, rfl⟩
  | unary f op, _, _, _, made, returned => by
    cases made with
    | unary bare probe =>
      obtain ⟨_, _, _, called, -⟩ := returned.silent_unary
      obtain rfl := probe.silent_of_again called
      obtain ⟨c, made, rfl⟩ := makes_of_unguarded bare probe
      obtain ⟨c', probed, rfl⟩ := Closure.returns_of_unguarded probe
      exact ⟨_, .unary made probed, rfl⟩
  | guarded f, _, _, _, bare, returned => by
    obtain ⟨c, made, rfl⟩ := makes_of_unguarded (f := f) bare returned
    exact ⟨_, .guarded made, rfl⟩
  | gradient g, _, _, _, made, _ => by
    cases made with
    | gradient routed => exact ⟨_, .gradient routed, rfl⟩
  | traced label f, _, _, _, made, returned => by
    cases made with
    | traced bare =>
      cases returned with
      | traced returned =>
        obtain ⟨c, made, rfl⟩ := makes_of_unguarded bare returned
        exact ⟨_, .traced made, rfl⟩
  | refusing, _, _, _, made, _ => nomatch made

theorem guarded_evaluate_eq_ok_iff {f : Node V} {ctx : Context} {v : Container Binary64} :
    ((guarded f).evaluate s ctx).1 = .ok v ↔ ∃ c c', Makes s f c ∧ c.Returns s v c' ∅ := by
  rw [evaluate_eq_ok_iff]
  constructor
  · rintro ⟨_, _, _, made, returned⟩
    cases made with
    | guarded made =>
      cases returned with
      | guarded returned => exact ⟨_, _, made, returned⟩
  · rintro ⟨c, c', made, returned⟩
    exact ⟨_, _, _, .guarded made, .guarded returned⟩

end Node

/-- A guarded function and the one without the guards inside it succeed with the same results,
whatever has been raised before. -/
theorem inner_guards_redundant (f : Node V) (s : Sample Binary64 M) (ctx : Context)
    (v : Container Binary64) :
    ((Node.guarded f).evaluate s ctx).1 = .ok v ↔
      ((Node.guarded f.unguarded).evaluate s ctx).1 = .ok v := by
  simp only [Node.guarded_evaluate_eq_ok_iff]
  constructor
  · rintro ⟨c, c', made, returned⟩
    exact ⟨c.unguarded, c'.unguarded, made.unguarded, returned.unguarded⟩
  · rintro ⟨c₀, c₀', bare, called⟩
    obtain ⟨c, made, rfl⟩ := Node.makes_of_unguarded bare called
    obtain ⟨c', returned, -⟩ := Closure.returns_of_unguarded called
    exact ⟨c, c', made, returned⟩

end
end FieldGraph
