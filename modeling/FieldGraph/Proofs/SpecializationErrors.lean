import FieldGraph.Proofs.ShapeTags

/-!
# Errors of specialization

Where specialization needs to know what a function delivers, it evaluates the
function at the sample. An error of this evaluation is reported as it is, also
when it is due to the sample's value and not to its kind. All other errors of
specialization are told by their class.
-/

namespace FieldGraph

section
variable {M V : Type} [Mesh Binary64 M] [FieldVariable Binary64 M V] [DecidableEq M]

/-! ## Probed functions -/

namespace Node

/-- No part of the function turns away samples of every kind. -/
def Accepting : Node V → Prop
  | input => True
  | constant _ => True
  | component function _ => function.Accepting
  | inputComponent _ => True
  | binary left right _ => left.Accepting ∧ right.Accepting
  | unary function _ => function.Accepting
  | guarded function => function.Accepting
  | gradient _ => True
  | traced _ function => function.Accepting
  | refusing => False

/-- The functions that are evaluated while a function is specialized. -/
def probed : Node V → List (Node V)
  | input => []
  | constant _ => []
  | component function _ => function.probed ++ [function]
  | inputComponent _ => [input]
  | binary left right _ => left.probed ++ right.probed ++ [left, right]
  | unary function _ => function.probed ++ [function]
  | guarded function => function.probed
  | gradient _ => []
  | traced _ function => function.probed
  | refusing => []

/-- Evaluating the function at the sample comes to this, in every context. -/
def ComesTo (s : Sample Binary64 M) (f : Node V)
    (outcome : Except (Failure Binary64) (Container Binary64)) : Prop :=
  ∀ ctx, (f.evaluate s ctx).1 = outcome

/-- Why specializing at `s` fails where `gs` are probed: because of the sample's kind, or because one
of them fails at the sample's value. -/
inductive Refused (s : Sample Binary64 M) (gs : List (Node V)) : Failure Binary64 → Prop where
  | kind {e : Error Binary64} (told : e.isSpecialization = true) : Refused s gs (.error e)
  | value {failure : Failure Binary64} {g : Node V} (mem : g ∈ gs) (ofValue : failure.OfValue)
      (fails : g.ComesTo s (.error failure)) : Refused s gs failure

theorem Refused.mono {s : Sample Binary64 M} {gs gs' : List (Node V)} {failure : Failure Binary64}
    (h : Refused s gs failure) (sub : gs ⊆ gs') : Refused s gs' failure := by
  cases h with
  | kind told => exact .kind told
  | value mem ofValue fails => exact .value (sub mem) ofValue fails

theorem comesTo_of_result {s : Sample Binary64 M} {f : Node V} {c : Closure V}
    (h : result (f.specialize s) = .ok c) : f.ComesTo s (result (c.run s)).outcome := by
  intro ctx
  have specialized := f.specialize_uniform s ctx
  rw [h] at specialized
  rw [evaluate, Eval.bind_apply, specialized]
  exact congrArg Run.outcome ((c.run_uniform s).fst_apply _)

end Node
end

/-! ## Specialization over nodal fields -/

section
variable {s : Sample Binary64 (Grid Binary64)}

namespace Closure
variable {f : Node (NodalField Binary64)} {c : Closure (NodalField Binary64)}

theorem Suits.probe_refused (h : Suits s f c) (hs : s.Made)
    (made : result (f.specialize s) = .ok c) {gs : List (Node (NodalField Binary64))} (mem : f ∈ gs) :
    Settles (Node.Refused s gs) (c.probe s) fun _ => ∃ v, f.ComesTo s (.ok v) := by
  intro ctx
  have outcome := Node.comesTo_of_result made
  obtain ⟨agree, -⟩ := h.follows hs {}
  rw [probe_apply, (c.run_uniform s).fst_apply]
  change Agree _ (result (c.run s)).outcome _ at agree
  generalize (result (c.run s)).outcome = o, (f.meaning s).result = r at outcome agree ⊢
  cases agree with
  | @ok v _ related => exact .inl ⟨_, rfl, v, outcome⟩
  | @error failure ofValue => exact .inr ⟨failure, rfl, .value mem ofValue outcome⟩

end Closure

namespace Node
variable {f : Node (NodalField Binary64)} {gs : List (Node (NodalField Binary64))}

/-- Every function that was probed on the way is defined at the sample. -/
def Passes (s : Sample Binary64 (Grid Binary64)) (gs : List (Node (NodalField Binary64))) : Prop :=
  ∀ g ∈ gs, ∃ v, g.ComesTo s (.ok v)

theorem Passes.append {gs' : List (Node (NodalField Binary64))} (h : Passes s gs)
    (h' : Passes s gs') : Passes s (gs ++ gs') :=
  fun g hg => (List.mem_append.mp hg).elim (h g) (h' g)

theorem Passes.single (h : ∃ v, f.ComesTo s (.ok v)) : Passes s [f] := by
  intro g hg
  rw [List.mem_singleton.mp hg]
  exact h

/-- All that is known of a closure that a function was specialized to. -/
theorem specialize_known (hs : s.Made)
    (h : Settles (Refused s f.probed) (f.specialize s) fun _ => Passes s f.probed)
    (sub : f.probed ⊆ gs) :
    Settles (Refused s gs) (f.specialize s) fun c =>
      (Closure.Suits s f c ∧ Passes s f.probed) ∧ result (f.specialize s) = .ok c :=
  (((specialize_settles f hs).both h).with_result (f.specialize_uniform s)).mono fun _ refused =>
    refused.mono sub

theorem specializeComponent_refused {c : Closure (NodalField Binary64)} (hs : s.Made)
    (suits : Closure.Suits s f c) (made : result (f.specialize s) = .ok c) (mem : f ∈ gs)
    (i : Nat) :
    Settles (Refused s gs) (specializeComponent s c i) fun _ => ∃ v, f.ComesTo s (.ok v) := by
  apply (suits.probe_refused hs made mem).bind
  intro probe delivered
  exact .require (fun _ => .kind rfl) fun _ => .record (.pure delivered)

theorem binary_refused {left right : Node (NodalField Binary64)} (op : BinaryOp) (hs : s.Made)
    (ihl : Settles (Refused s left.probed) (left.specialize s) fun _ => Passes s left.probed)
    (ihr : Settles (Refused s right.probed) (right.specialize s) fun _ => Passes s right.probed) :
    Settles (Refused s (binary left right op).probed) ((binary left right op).specialize s)
      fun _ => Passes s (binary left right op).probed := by
  apply (specialize_known hs ihl (by simp [probed])).bind
  rintro l ⟨⟨suitsl, passl⟩, madel⟩
  apply (specialize_known hs ihr (by simp [probed])).bind
  rintro r ⟨⟨suitsr, passr⟩, mader⟩
  apply (suitsl.probe_refused hs madel (by simp [probed])).bind
  rintro ⟨x, l'⟩ left
  apply (suitsr.probe_refused hs mader (by simp [probed])).bind
  rintro ⟨y, r'⟩ right
  dsimp only
  cases Broadcast.ofSizes? x.size y.size with
  | none => exact .fail (.kind rfl)
  | some mode =>
    exact .record (.pure ((passl.append passr).append ((Passes.single left).append (.single right))))

/-- Specialization fails as its kind says, or as a probed function does. -/
theorem specialize_refused (f : Node (NodalField Binary64)) (accepting : f.Accepting) (hs : s.Made) :
    Settles (Refused s f.probed) (f.specialize s) fun _ => Passes s f.probed := by
  induction f with
  | input => exact .pure nofun
  | constant value => exact .pure nofun
  | component f i ih =>
    apply (specialize_known hs (ih accepting) (List.subset_append_left _ [f])).bind
    rintro c ⟨⟨suits, passes⟩, made⟩
    exact (specializeComponent_refused hs suits made (by simp) i).imp fun _ delivered =>
      passes.append (.single delivered)
  | inputComponent i =>
    exact (specializeComponent_refused hs .input rfl (List.mem_singleton_self _) i).imp
      fun _ delivered => .single delivered
  | binary left right op ihl ihr => exact binary_refused op hs (ihl accepting.1) (ihr accepting.2)
  | unary f op ih =>
    apply (specialize_known hs (ih accepting) (List.subset_append_left _ [f])).bind
    rintro c ⟨⟨suits, passes⟩, made⟩
    exact (suits.probe_refused hs made (by simp)).bind fun _ delivered =>
      .pure (passes.append (.single delivered))
  | guarded f ih => exact (ih accepting).bind fun _ passes => .pure passes
  | gradient g =>
    exact (g.specialize_fails (.kind rfl) (fun _ => .kind rfl) s).bind fun _ _ => .pure nofun
  | traced label f ih => exact .record <| (ih accepting).bind fun _ passes => .pure passes
  | refusing => exact accepting.elim

end Node

/-- What specialization reports is classed as an error of specialization, or is the error that a
probed function has at the value of the sample: that the sample lies outside the domain, or that a guard
has caught exceptions. Where specialization succeeds, no probed function has such an error. -/
theorem specialization_errors (f : Node (NodalField Binary64)) (accepting : f.Accepting)
    (hs : s.Made) (ctx : Context) :
    (∀ failure, (f.specialize s ctx).1 = .error failure →
      ∃ e : Error Binary64, failure = .error e ∧
        (e.isSpecialization = true ∨
          ((∃ position, e = .outsideDomain position) ∨ ∃ raised, e = .floatingPoint raised) ∧
            ∃ g ∈ f.probed, ∀ ctx', (g.evaluate s ctx').1 = .error (.error e))) ∧
    ∀ closure, (f.specialize s ctx).1 = .ok closure →
      ∀ g ∈ f.probed, ∃ v, ∀ ctx', (g.evaluate s ctx').1 = .ok v := by
  have settled := f.specialize_refused accepting hs ctx
  generalize (f.specialize s ctx).1 = o at settled ⊢
  rcases settled with ⟨c, rfl, passes⟩ | ⟨failure, rfl, refused⟩
  · exact ⟨nofun, fun _ _ => passes⟩
  · refine ⟨?_, nofun⟩
    rintro _ ⟨⟩
    cases refused with
    | @kind e told => exact ⟨e, rfl, .inl told⟩
    | @value _ g mem ofValue fails =>
      match failure, ofValue with
      | .error (.outsideDomain position), _ =>
        exact ⟨_, rfl, .inr ⟨.inl ⟨position, rfl⟩, g, mem, fails⟩⟩
      | .error (.floatingPoint raised), _ =>
        exact ⟨_, rfl, .inr ⟨.inr ⟨raised, rfl⟩, g, mem, fails⟩⟩

/-- The absolute value of a gradient, prepared at a point beyond the grid. -/
theorem specialization_errors_outside :
    let axis : Axis Binary64 := (Axis.make 2 (.ofRat 0) (.ofRat 1) Nat.two_pos).value
    let g : Grid Binary64 := ⟨0, [axis], by decide, by decide⟩
    let field : NodalField Binary64 :=
      ⟨g, 1, NodalField.rowsOf [.ofRat 0, .ofRat 1, .ofRat 3] rfl, by decide, by decide⟩
    let f : Node (NodalField Binary64) := .unary (.gradient ⟨field⟩) .abs
    let far : Sample Binary64 (Grid Binary64) := .value (.vector [.ofRat 3])
    f.Accepting ∧ far.Made ∧ ∃ h ∈ f.probed, ∀ ctx,
      (h.evaluate far ctx).1 = .error (.error (.outsideDomain [.ofRat 3])) := by
  intro axis g field f far
  have fails : (f.specialize far {}).1.map (fun _ => ()) =
      .error (.error (.outsideDomain [.ofRat 3])) := by decide +kernel
  cases outcome : (f.specialize far {}).1 with
  | ok closure =>
    rw [outcome] at fails
    cases fails
  | error failure =>
    rw [outcome] at fails
    cases fails
    obtain ⟨e, same, told | ⟨-, probe⟩⟩ :=
      (specialization_errors f trivial (.value _ : far.Made) {}).1 _ outcome
    · cases same
      cases told
    · cases same
      exact ⟨trivial, .value _, probe⟩

/-- A guarded quotient within a function fails at zero while the function is specialized, and the
error is not classed as one of specialization. -/
theorem probe_error_unclassed :
    let f : Node (NodalField Binary64) :=
      .unary (.guarded (.binary (.constant (.scalar (.ofRat 1))) .input .divide)) .abs
    let zero : Sample Binary64 (Grid Binary64) := .value (.scalar (.zero false))
    f.Accepting ∧ zero.Made ∧ ∃ e : Error Binary64,
      (f.specialize zero {}).1 = .error (.error e) ∧ e.isSpecialization = false :=
  ⟨⟨trivial, trivial⟩, .value _, .floatingPoint { divideByZero := true }, by with_unfolding_all rfl, rfl⟩

end
end FieldGraph
