import FieldGraph.Proofs.Delivers
import FieldGraph.Proofs.Uniform

/-!
# Outcomes of evaluations

Three ways of saying what an evaluation comes to, each checked step by step. It
settles if what it delivers and how it fails are as two predicates say. It
follows a calculation if it delivers the same and raises the same, and fails
where the calculation has no result. It yields one result and certain flags if
it succeeds in every context and comes to these. Two outcomes match if both are
results, which are related, or both are the same failure.
-/

namespace FieldGraph

/-! ## Evaluations that settle -/

section
variable {K α β : Type}

/-- The evaluation delivers what is as `P` says, or fails as `E` says. -/
def Settles (E : Failure K → Prop) (m : Eval K α) (P : α → Prop) : Prop :=
  ∀ c, (∃ a, (m c).1 = .ok a ∧ P a) ∨ ∃ failure, (m c).1 = .error failure ∧ E failure

namespace Settles
variable {E : Failure K → Prop} {P : α → Prop} {Q : β → Prop}

theorem pure {a : α} (h : P a) : Settles E (Pure.pure a : Eval K α) P := fun _ => .inl ⟨a, rfl, h⟩

theorem fail {e : Error K} (h : E (.error e)) : Settles E (Eval.fail e : Eval K α) P :=
  fun _ => .inr ⟨.error e, rfl, h⟩

theorem calculate {x : Calc α} (h : x.Delivers P) : Settles E (Eval.calculate x : Eval K α) P := by
  intro c
  obtain ⟨a, ha, hP⟩ := h
  exact .inl ⟨a, by simp only [Eval.calculate, ha], hP⟩

theorem calculate_or {x : Calc α} (h : ∀ a, x.result = some a → P a) (hE : E .outOfBounds) :
    Settles E (Eval.calculate x : Eval K α) P := by
  intro c
  cases hx : x.result with
  | none => exact .inr ⟨.outOfBounds, by simp only [Eval.calculate, hx], hE⟩
  | some a => exact .inl ⟨a, by simp only [Eval.calculate, hx], h a hx⟩

theorem bind {m : Eval K α} {f : α → Eval K β} (h : Settles E m P)
    (hf : ∀ a, P a → Settles E (f a) Q) : Settles E (m >>= f) Q := by
  intro c
  have step := h c
  rw [Eval.bind_apply]
  generalize m c = out at step ⊢
  obtain ⟨o, c'⟩ := out
  rcases step with ⟨a, rfl, hP⟩ | ⟨failure, rfl, hE⟩
  · exact hf a hP c'
  · exact .inr ⟨failure, rfl, hE⟩

theorem record {e : Entry} {m : Eval K α} (h : Settles E m P) :
    Settles E (Eval.record e >>= fun _ => m) P := fun c => h { c with journal := c.journal ++ [e] }

theorem require {p : Prop} [Decidable p] {e : Error K} {m : Eval K α} (he : p → E (.error e))
    (hm : ¬p → Settles E m P) : Settles E (if p then (do Eval.fail e; m) else m) P := by
  split
  · exact bind (fail (P := fun _ => False) (he ‹_›)) fun _ h => h.elim
  · exact hm ‹_›

theorem mono {E' : Failure K → Prop} {m : Eval K α} (h : Settles E m P)
    (hE : ∀ failure, E failure → E' failure) : Settles E' m P := by
  intro c
  obtain ⟨a, ha, hP⟩ | ⟨failure, hf, hE'⟩ := h c
  · exact .inl ⟨a, ha, hP⟩
  · exact .inr ⟨failure, hf, hE failure hE'⟩

theorem imp {P' : α → Prop} {m : Eval K α} (h : Settles E m P) (hP : ∀ a, P a → P' a) :
    Settles E m P' := by
  intro c
  obtain ⟨a, ha, hPa⟩ | failed := h c
  · exact .inl ⟨a, ha, hP a hPa⟩
  · exact .inr failed

/-- What is known of the results may be learnt from one proof and the failures from another. -/
theorem both {E' : Failure K → Prop} {Q : α → Prop} {m : Eval K α} (known : Settles E' m P)
    (h : Settles E m Q) : Settles E m fun a => P a ∧ Q a := by
  intro c
  obtain ⟨a, ha, hQ⟩ | failed := h c
  · obtain ⟨b, hb, hP⟩ | ⟨failure, hf, -⟩ := known c
    · rw [ha] at hb
      cases hb
      exact .inl ⟨a, ha, hP, hQ⟩
    · rw [ha] at hf
      cases hf
  · exact .inr failed

theorem knowing {E' : Failure K → Prop} {Q : α → Prop} {m : Eval K α} (known : Settles E' m P)
    (h : Settles E m Q) : Settles E m P := (known.both h).imp fun _ both => both.1

theorem with_result {m : Eval K α} (hm : Uniform m) (h : Settles E m P) :
    Settles E m fun a => P a ∧ result m = .ok a := by
  intro c
  obtain ⟨a, ha, hP⟩ | failed := h c
  · exact .inl ⟨a, ha, hP, (hm.fst_apply c).symm.trans ha⟩
  · exact .inr failed

theorem any (m : Eval K α) : Settles (fun _ => True) m fun _ => True := by
  intro c
  cases h : (m c).1 with
  | ok a => exact .inl ⟨a, rfl, trivial⟩
  | error failure => exact .inr ⟨failure, rfl, trivial⟩

theorem eq_ok {m : Eval K α} {a : α} (h : Settles (fun _ => False) m (· = a)) (c : Context) :
    (m c).1 = .ok a := by
  obtain ⟨b, hb, rfl⟩ | ⟨_, _, no⟩ := h c
  · exact hb
  · exact no.elim

theorem of_ok {m : Eval K α} (h : Settles E m P) {a : α} {c c' : Context}
    (hm : m c = (.ok a, c')) : P a := by
  have step := h c
  rw [hm] at step
  rcases step with ⟨b, hb, hP⟩ | ⟨failure, hf, -⟩
  · cases hb
    exact hP
  · cases hf

theorem of_error {m : Eval K α} (h : Settles E m P) {failure : Failure K} {c c' : Context}
    (hm : m c = (.error failure, c')) : E failure := by
  have step := h c
  rw [hm] at step
  rcases step with ⟨b, hb, -⟩ | ⟨failure, hf, hE⟩
  · cases hb
  · cases hf
    exact hE

end Settles

theorem Eval.bind_eq_ok_iff {m : Eval K α} {f : α → Eval K β} {c : Context} {b : β} :
    ((m >>= f) c).1 = .ok b ↔ ∃ a, (m c).1 = .ok a ∧ (f a (m c).2).1 = .ok b := by
  rw [bind_apply]
  rcases m c with ⟨failure | a, c'⟩ <;> simp

theorem Eval.exists_of_isOk {m : Eval K α} {ctx : Context}
    (h : (m ctx).1.isOk = true) : ∃ a ctx', m ctx = (.ok a, ctx') := by
  generalize m ctx = out at h
  obtain ⟨o, ctx'⟩ := out
  cases o with
  | error failure => cases h
  | ok a => exact ⟨a, ctx', rfl⟩

end

/-! ## Evaluations that follow calculations -/

/-- A failure that is due to the value of a sample, not to its kind. -/
def Failure.OfValue {K : Type} : Failure K → Prop
  | .error (.outsideDomain _) | .error (.floatingPoint _) => True
  | _ => False

section
variable {K α β γ δ : Type}

inductive Agree (R : α → β → Prop) : Except (Failure K) α → Option β → Prop where
  | ok {a : α} {b : β} (related : R a b) : Agree R (.ok a) (some b)
  | error {failure : Failure K} (h : failure.OfValue) : Agree R (.error failure) none

/-- An evaluation delivers what a calculation does, up to `R`, and raises the same. -/
def Follows (m : Eval K α) (x : Calc β) (R : α → β → Prop) : Prop :=
  ∀ c, Agree R (m c).1 x.result ∧ (m c).2.flags = c.flags ∪ x.raised

namespace Follows
variable {R : α → β → Prop} {S : γ → δ → Prop}

theorem pure {a : α} {b : β} (h : R a b) : Follows (Pure.pure a : Eval K α) (Pure.pure b) R :=
  fun c => ⟨.ok h, (Flags.union_empty c.flags).symm⟩

theorem bind {m : Eval K α} {x : Calc β} {f : α → Eval K γ} {g : β → Calc δ} (h : Follows m x R)
    (hf : ∀ a b, R a b → Follows (f a) (g b) S) : Follows (m >>= f) (x >>= g) S := by
  intro c
  obtain ⟨agree, flags⟩ := h c
  rw [Eval.bind_apply]
  generalize m c = out at agree flags ⊢
  obtain ⟨o, c'⟩ := out
  cases hx : x.result with
  | none =>
    rw [hx] at agree
    cases agree with
    | error hv => exact ⟨Calc.bind_of_none hx g ▸ .error hv, Calc.bind_of_none hx g ▸ flags⟩
  | some b =>
    rw [hx] at agree
    cases agree with
    | @ok a _ related =>
      obtain ⟨agree', flags'⟩ := hf a b related c'
      rw [Calc.bind_of_some hx]
      exact ⟨agree', by rw [flags', flags, Flags.union_assoc]⟩

theorem record (e : Entry) {m : Eval K α} {x : Calc β} (h : Follows m x R) :
    Follows (Eval.record e >>= fun _ => m) x R :=
  fun c => h { c with journal := c.journal ++ [e] }

theorem calculate {x : Calc α} {P : α → Prop} (h : x.Delivers P) :
    Follows (Eval.calculate x : Eval K α) x fun a b => a = b ∧ P b := by
  intro c
  obtain ⟨a, ha, hP⟩ := h
  refine ⟨?_, rfl⟩
  simp only [Eval.calculate, ha]
  exact .ok ⟨rfl, hP⟩

theorem settles {m : Eval K α} {x : Calc β} (h : Follows m x R) :
    Settles (fun _ => x.result = none) m fun a => ∃ b, x.result = some b ∧ R a b := by
  intro c
  obtain ⟨agree, -⟩ := h c
  generalize (m c).1 = o, x.result = r at agree ⊢
  cases agree with
  | ok related => exact .inl ⟨_, rfl, _, rfl, related⟩
  | error hv => exact .inr ⟨_, rfl, rfl⟩

end Follows

def Eval.meaning (m : Eval K α) : Calc α := ⟨(result m).toOption, raises m⟩

theorem Settles.follows {P : α → Prop} {m : Eval K α} (h : Settles Failure.OfValue m P) (hm : Uniform m) :
    Follows m m.meaning fun a b => a = b ∧ P b := by
  intro c
  rw [hm c]
  refine ⟨?_, rfl⟩
  obtain ⟨a, ha, hP⟩ | ⟨failure, hf, hv⟩ := h {}
  · rw [show result m = .ok a from ha, Eval.meaning, show result m = .ok a from ha]
    exact .ok ⟨rfl, hP⟩
  · rw [show result m = .error failure from hf, Eval.meaning,
      show result m = .error failure from hf]
    exact .error hv

end

/-! ## Evaluations that succeed -/

section
variable {K α β : Type}

/-- In every context the evaluation delivers `a` and adds `r` to what is raised. -/
def Yields (m : Eval K α) (a : α) (r : Flags) : Prop :=
  ∀ c, (m c).1 = .ok a ∧ (m c).2.flags = c.flags ∪ r

namespace Yields
variable {m : Eval K α} {f : α → Eval K β} {a : α} {b : β} {r r' : Flags}

theorem pure : Yields (Pure.pure a : Eval K α) a ∅ :=
  fun c => ⟨rfl, (Flags.union_empty c.flags).symm⟩

theorem bind (h : Yields m a r) (hf : Yields (f a) b r') : Yields (m >>= f) b (r ∪ r') := by
  intro c
  obtain ⟨ha, hr⟩ := h c
  rw [Eval.bind_apply]
  generalize m c = out at ha hr ⊢
  obtain ⟨o, c'⟩ := out
  cases ha
  obtain ⟨hb, hr'⟩ := hf c'
  exact ⟨hb, by rw [hr', hr, Flags.union_assoc]⟩

theorem of_uniform (h : Uniform m) (ha : result m = .ok a) : Yields m a (raises m) :=
  fun c => ⟨(h.fst_apply c).trans ha, h.flags_apply c⟩

theorem calculate {x : Calc α} (h : x.result = some a) :
    Yields (Eval.calculate x : Eval K α) a x.raised := by
  intro c
  simp only [Eval.calculate, h, and_self]

theorem bind_settles {E : Failure K → Prop} {P : β → Prop} (h : Yields m a r)
    (hf : Settles E (f a) P) : Settles E (m >>= f) P := by
  have delivers : Settles E m (· = a) := fun c => .inl ⟨a, (h c).1, rfl⟩
  exact delivers.bind fun _ same => same ▸ hf

theorem unique {a' : α} (h : Yields m a r) (h' : Yields m a' r') : a = a' ∧ r = r' := by
  obtain ⟨ha, hr⟩ := h {}
  obtain ⟨ha', hr'⟩ := h' {}
  have same : (∅ : Flags) ∪ r = ∅ ∪ r' := hr.symm.trans hr'
  rw [ha] at ha'
  rw [Flags.empty_union, Flags.empty_union] at same
  exact ⟨Except.ok.inj ha', same⟩

theorem eq_pure {a' : α} (h : Yields (Pure.pure a' : Eval K α) a r) : a = a' ∧ r = ∅ :=
  h.unique pure

theorem not_fail {e : Error K} (h : Yields (Eval.fail e : Eval K α) a r) : False := by
  cases (h {}).1

/-- Where a sequence of two evaluations succeeds, both do. -/
theorem of_bind (hm : Uniform m) (hf : ∀ a, Uniform (f a)) (h : Yields (m >>= f) b r) :
    ∃ a p q, Yields m a p ∧ Yields (f a) b q ∧ r = p ∪ q := by
  have delivered := (h {}).1
  rw [Eval.bind_apply] at delivered
  cases ho : result m with
  | error failure =>
    rw [hm {}, ho] at delivered
    cases delivered
  | ok a =>
    rw [hm {}, ho] at delivered
    have first := of_uniform hm ho
    have second := of_uniform (hf a) (((hf a).fst_apply _).symm.trans delivered)
    exact ⟨a, _, _, first, second, (h.unique (first.bind second)).2⟩

theorem of_map {g : α → β} (hm : Uniform m) (h : Yields (do return g (← m)) b r) :
    ∃ a, b = g a ∧ Yields m a r := by
  obtain ⟨a, p, q, ha, hb, rfl⟩ := of_bind hm (fun _ => .deliver _) h
  obtain ⟨rfl, rfl⟩ := hb.eq_pure
  rw [Flags.union_empty]
  exact ⟨a, rfl, ha⟩

theorem record {e : Entry} : Yields (Eval.record e : Eval K Unit) () ∅ :=
  fun c => ⟨rfl, (Flags.union_empty c.flags).symm⟩

theorem of_record {e : Entry} {m : Eval K α} (hm : Uniform m)
    (h : Yields (Eval.record e >>= fun _ => m) a r) : Yields m a r := by
  obtain ⟨_, p, q, hp, hq, rfl⟩ := of_bind (.entry e) (fun _ => hm) h
  rw [(hp.unique record).2, Flags.empty_union]
  exact hq

theorem require {p : Prop} [Decidable p] {e : Error K} (hp : ¬p) (h : Yields m a r) :
    Yields (if p then (do Eval.fail e; m) else m) a r := by
  rwa [if_neg hp]

theorem of_require {p : Prop} [Decidable p] {e : Error K} (hm : Uniform m)
    (h : Yields (if p then (do Eval.fail e; m) else m) a r) : ¬p ∧ Yields m a r := by
  split at h
  · obtain ⟨_, _, _, no, -, -⟩ := of_bind (.fail e) (fun _ => hm) h
    exact no.not_fail.elim
  · exact ⟨‹_›, h⟩

end Yields
end

/-! ## Outcomes side by side -/

section
variable {K α β : Type} {R : α → β → Prop}

/-- Both succeed, with related results, or both fail, for the same reason. -/
inductive Matched (R : α → β → Prop) :
    Except (Failure K) α → Except (Failure K) β → Prop where
  | ok {a : α} {b : β} (related : R a b) : Matched R (.ok a) (.ok b)
  | error (failure : Failure K) : Matched R (.error failure) (.error failure)

theorem Matched.mono {R' : α → β → Prop} {o : Except (Failure K) α} {o' : Except (Failure K) β}
    (h : Matched R o o') (imp : ∀ a b, R a b → R' a b) : Matched R' o o' := by
  cases h with
  | ok related => exact .ok (imp _ _ related)
  | error failure => exact .error failure

end

end FieldGraph
