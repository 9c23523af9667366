import FieldGraph.Evaluator.History
import FieldGraph.Proofs.Uniform

/-!
# What a call of an evaluator does

Every call is served in one of three ways: from the store, by a specialization
that fails, or by one that succeeds and whose closure is then called. What is
claimed of all calls is shown for the three ways, and what every call keeps
holds after every history. A closure that is called was made for some sample: one
of an earlier request of the same kind, or the one that it is called at.
-/

namespace FieldGraph.Evaluator

variable {K σ κ γ F : Type} [Specializable K σ κ γ F] [DecidableEq κ]

/-- The closure that a call at `s` finds. -/
def stored? (ev : Evaluator κ γ F) (s : σ) : Option γ :=
  if ev.settings.caching then ev.closures.find? (Specializable.kind ev.root s) else none

theorem stored?_eq_none (ev : Evaluator κ γ F) (s : σ) (h : ev.settings.caching = false) :
    ev.stored? s = none := by
  simp only [stored?, h, Bool.false_eq_true, if_false]

def afterMiss (ev : Evaluator κ γ F) (k : κ) (closure : γ) : Evaluator κ γ F :=
  if ev.settings.caching then
    { ev with
      closures := ev.closures.insert k closure
      stats := if ev.closures.victim?.isSome then ev.stats.miss.evict else ev.stats.miss }
  else { ev with stats := ev.stats.miss }

/-- What is written before the root is specialized for `s`. -/
def announcement (ev : Evaluator κ γ F) (s : σ) : List Entry :=
  if ev.settings.caching then
    [.notice (.specializing (Specializable.name ev.root)
      (Specializable.form ev.root (Specializable.kind ev.root s)))]
  else []

/-- The ways in which a call at `s` in the context `c` can go. Before a closure is made or called,
notices may be written. -/
inductive Served (ev : Evaluator κ γ F) (s : σ) (c : Context) : Call K κ γ F → Context → Prop where
  | hit {closure : γ} (found : ev.stored? s = some closure) (w : List Entry)
      {run : Run K (Container K) γ} {c' : Context}
      (called : Specializable.run ev.root closure s (c.extend ∅ w) = (run, c')) :
      Served ev s c
        ⟨run.outcome,
          { ev with
            closures := ev.closures.refresh (Specializable.kind ev.root s) run.after
            stats := ev.stats.hit }⟩ c'
  | refused (missing : ev.stored? s = none) (w : List Entry) {failure : Failure K} {c' : Context}
      (specialized : Specializable.specialize ev.root s (c.extend ∅ w) = (.error failure, c'))
      (asked : w = ev.announcement s) :
      Served ev s c ⟨.error failure, { ev with stats := ev.stats.miss }⟩ c'
  | made (missing : ev.stored? s = none) (w : List Entry) {closure : γ} {c₁ : Context}
      (specialized : Specializable.specialize ev.root s (c.extend ∅ w) = (.ok closure, c₁))
      (w' : List Entry) {run : Run K (Container K) γ} {c' : Context}
      (called : Specializable.run ev.root closure s (c₁.extend ∅ w') = (run, c'))
      (asked : w = ev.announcement s) :
      Served ev s c ⟨run.outcome, ev.afterMiss (Specializable.kind ev.root s) run.after⟩ c'

theorem evaluateFresh_served (ev : Evaluator κ γ F) (s : σ) (c : Context)
    (h : ev.settings.caching = false) :
    Served ev s c (ev.evaluateFresh s c).1 (ev.evaluateFresh s c).2 := by
  have missing := ev.stored?_eq_none s h
  have silent : [] = ev.announcement s := by
    simp only [announcement, h, Bool.false_eq_true, if_false]
  have after (k : κ) (closure : γ) : { ev with stats := ev.stats.miss } = ev.afterMiss k closure := by
    simp only [afterMiss, h, Bool.false_eq_true, if_false]
  cases hs : Specializable.specialize ev.root s c with
  | mk o c₁ =>
    cases o with
    | error failure =>
      simp only [evaluateFresh, Context.bind_apply, Context.run_apply, hs]
      exact .refused missing [] (by rw [c.extend_empty, hs]; rfl) silent
    | ok closure =>
      simp only [evaluateFresh, Context.bind_apply, Context.run_apply, Context.pure_apply, hs]
      rw [after (Specializable.kind ev.root s) (Specializable.run ev.root closure s c₁).1.after]
      exact .made missing [] (by rw [c.extend_empty, hs]) [] (by rw [c₁.extend_empty]; rfl) silent

theorem evaluateCached_served (ev : Evaluator κ γ F) (s : σ) (c : Context)
    (h : ev.settings.caching = true) :
    Served ev s c (ev.evaluateCached s c).1 (ev.evaluateCached s c).2 := by
  let kind := Specializable.kind ev.root s
  have stored : ev.stored? s = ev.closures.find? kind := by simp only [stored?, h, if_true, kind]
  cases hf : ev.closures.find? kind with
  | some closure =>
    simp only [evaluateCached, hf, kind, Context.bind_apply, Context.pure_apply, Context.notify_apply]
    exact .hit (stored.trans hf) _ rfl
  | none =>
    have missing : ev.stored? s = none := stored.trans hf
    let w : List Entry :=
      [.notice (.specializing (Specializable.name ev.root) (Specializable.form ev.root kind))]
    have asked : w = ev.announcement s := by simp only [announcement, h, if_true, w, kind]
    cases hs : Specializable.specialize ev.root s (c.extend ∅ w) with
    | mk o c₁ =>
      cases o with
      | error failure =>
        simp only [evaluateCached, hf, kind, Context.bind_apply, Context.pure_apply,
          Context.notify_apply, Context.run_apply, hs, w]
        exact .refused missing w hs asked
      | ok closure =>
        -- an eviction shows in the statistics and in the journal only
        have after (e : Evaluator κ γ F) (v : γ)
            (he : e = { ev with
              closures := ev.closures.insert kind v
              stats := if ev.closures.victim?.isSome then ev.stats.miss.evict else ev.stats.miss }) :
            e = ev.afterMiss kind v := by
          simp only [afterMiss, h, if_true, he]
        cases hv : ev.closures.victim? with
        | none =>
          simp only [evaluateCached, hf, kind, Context.bind_apply, Context.pure_apply,
            Context.notify_apply, Context.run_apply, hs, hv, w]
          rw [after { ev with closures := _, stats := _ } _ (by simp only [hv, kind]; rfl)]
          exact .made missing w hs [] (by rw [c₁.extend_empty]; rfl) asked
        | some victim =>
          simp only [evaluateCached, hf, kind, Context.bind_apply, Context.pure_apply,
            Context.notify_apply, Context.run_apply, hs, hv, w]
          rw [after { ev with closures := _, stats := _ } _ (by simp only [hv, kind]; rfl)]
          exact .made missing w hs _ rfl asked

theorem evaluate_served (ev : Evaluator κ γ F) (s : σ) (c : Context) :
    Served ev s c (ev.evaluate s c).1 (ev.evaluate s c).2 := by
  unfold evaluate
  cases h : ev.settings.caching with
  | true => exact ev.evaluateCached_served s c h
  | false => exact ev.evaluateFresh_served s c h

/-! ## Invariants -/

structure Keeps (root : F) (settings : Settings) (P : κ → γ → Prop) (ev : Evaluator κ γ F) :
    Prop where
  root_eq : ev.root = root
  settings_eq : ev.settings = settings
  closures : ∀ e ∈ ev.closures.entries, P e.1 e.2

namespace Keeps
variable {root : F} {settings : Settings} {P : κ → γ → Prop} {ev : Evaluator κ γ F}

omit [Specializable K σ κ γ F] [DecidableEq κ] in
theorem ofRoot (root : F) (settings : Settings) (P : κ → γ → Prop) :
    Keeps root settings P (ofRoot root settings) :=
  ⟨rfl, rfl, fun _ he => nomatch he⟩

omit [Specializable K σ κ γ F] [DecidableEq κ] in
theorem clear (h : Keeps root settings P ev) : Keeps root settings P ev.clear :=
  ⟨h.root_eq, h.settings_eq, fun _ he => nomatch he⟩

theorem stored (h : Keeps root settings P ev) {s : σ} {closure : γ}
    (found : ev.stored? s = some closure) : P (Specializable.kind ev.root s) closure := by
  unfold stored? at found
  split at found
  · exact h.closures _ (Recency.mem_of_find? found)
  · cases found

omit [Specializable K σ κ γ F] in
theorem refresh (h : Keeps root settings P ev) {k : κ} {v : γ} (hv : P k v) (stats : Stats) :
    Keeps root settings P { ev with closures := ev.closures.refresh k v, stats } := by
  refine ⟨h.root_eq, h.settings_eq, fun e he => ?_⟩
  rcases List.mem_cons.mp he with rfl | he
  · exact hv
  · exact h.closures e (List.mem_filter.mp he).1

omit [Specializable K σ κ γ F] [DecidableEq κ] in
theorem afterMiss (h : Keeps root settings P ev) {k : κ} {v : γ} (hv : P k v) :
    Keeps root settings P (ev.afterMiss k v) := by
  unfold Evaluator.afterMiss
  split
  · refine ⟨h.root_eq, h.settings_eq, fun e he => ?_⟩
    rcases List.mem_cons.mp he with rfl | he
    · exact hv
    · exact h.closures e (List.mem_of_mem_take he)
  · exact ⟨h.root_eq, h.settings_eq, h.closures⟩

section
variable {Q : σ → Prop}
  (made : ∀ {s closure c c'}, Q s → Specializable.specialize root s c = (.ok closure, c') →
    P (Specializable.kind root s) closure)
  (kept : ∀ {k closure} s c, P k closure → P k (Specializable.run root closure s c).1.after)
include made kept

theorem evaluate (h : Keeps root settings P ev) {s : σ} (hs : Q s) (c : Context) :
    Keeps root settings P (ev.evaluate s c).1.evaluator := by
  obtain ⟨rfl, hset, hcl⟩ := id h
  have served := ev.evaluate_served s c
  generalize (ev.evaluate s c).1 = call, (ev.evaluate s c).2 = c' at served
  cases served with
  | hit found w called =>
    have after := kept s (c.extend ∅ w) (h.stored found)
    rw [called] at after
    exact h.refresh after _
  | refused missing w specialized => exact ⟨rfl, hset, hcl⟩
  | @made missing w closure c₁ specialized w' run c' called =>
    have after := kept s (c₁.extend ∅ w') (made hs specialized)
    rw [called] at after
    exact h.afterMiss after

theorem history (requests : List (Request σ)) (hQ : ∀ s, .evaluate s ∈ requests → Q s)
    (h : Keeps root settings P ev) (c : Context) :
    Keeps root settings P ((ev.history requests) c).1.2 := by
  induction requests generalizing ev c with
  | nil => exact h
  | cons r rest ih =>
    have hQ' : ∀ s, .evaluate s ∈ rest → Q s := fun s hs => hQ s (List.mem_cons_of_mem _ hs)
    cases r with
    | evaluate s =>
      have called := h.evaluate made kept (hQ s List.mem_cons_self) c
      exact ih hQ' called (ev.evaluate s c).2
    | clear => exact ih hQ' h.clear c
    | outside work => exact ih hQ' h (work c).2

end
end Keeps

/-! ## Samples that closures were made for -/

/-- Every stored closure was made for one of the samples, to which it is related. -/
abbrev KeepsMade (samples : σ → Prop) (root : F) (settings : Settings) (R : σ → γ → Prop) :
    Evaluator κ γ F → Prop :=
  Keeps root settings fun k closure =>
    ∃ first, samples first ∧ Specializable.kind root first = k ∧ R first closure

theorem keepsMade_history (root : F) (settings : Settings) {R : σ → γ → Prop}
    (requests : List (Request σ))
    (made : ∀ {s closure c c'}, .evaluate s ∈ requests →
      Specializable.specialize root s c = (.ok closure, c') → R s closure)
    (kept : ∀ {first closure} s c, R first closure →
      R first (Specializable.run root closure s c).1.after) (c : Context) :
    KeepsMade (fun s => .evaluate s ∈ requests) root settings R
      (((ofRoot root settings).history requests) c).1.2 := by
  refine Keeps.history (Q := fun s => .evaluate s ∈ requests) ?_ ?_ requests (fun _ h => h)
    (.ofRoot root settings _) c
  · intro s closure c c' requested specialized
    exact ⟨s, requested, rfl, made requested specialized⟩
  · rintro k closure s c ⟨first, requested, kind, related⟩
    exact ⟨first, requested, kind, kept s c related⟩

/-- The closure that a call at `s` finds or makes was made for `first`. -/
structure MadeFor (ev : Evaluator κ γ F) (samples : σ → Prop) (s first : σ) : Prop where
  requested : (ev.stored? s).isSome → samples first
  fresh : ev.stored? s = none → first = s
  kind : Specializable.kind ev.root first = Specializable.kind ev.root s

section
variable {root : F} {settings : Settings} {samples : σ → Prop} {R : σ → γ → Prop}
  {ev : Evaluator κ γ F} {s first : σ}

theorem MadeFor.of_stored {closure : γ} (found : ev.stored? s = some closure) (h : samples first)
    (kind : Specializable.kind ev.root first = Specializable.kind ev.root s) :
    ev.MadeFor samples s first :=
  ⟨fun _ => h, fun missing => (nomatch found.symm.trans missing), kind⟩

theorem MadeFor.self (missing : ev.stored? s = none) : ev.MadeFor samples s s := by
  refine ⟨fun found => ?_, fun _ => rfl, rfl⟩
  rw [missing] at found
  cases found

theorem MadeFor.of_forall {P : σ → Prop} (h : ev.MadeFor samples s first)
    (all : ∀ s, samples s → P s) (hs : P s) : P first := by
  cases found : ev.stored? s with
  | none => exact h.fresh found ▸ hs
  | some closure => exact all first (h.requested (Option.isSome_of_eq_some found))

/-- A call is refused, or is that of a closure with the sample for which it was made. -/
theorem KeepsMade.called (h : KeepsMade samples root settings R ev)
    (made : ∀ {closure c c'}, Specializable.specialize root s c = (.ok closure, c') → R s closure)
    (ctx : Context) :
    (∃ failure c c', ev.MadeFor samples s s ∧
        Specializable.specialize root s c = (.error failure, c') ∧
        (ev.evaluate s ctx).1.outcome = .error failure) ∨
      ∃ first closure c, ev.MadeFor samples s first ∧ R first closure ∧
        (Specializable.run root closure s c).1.outcome = (ev.evaluate s ctx).1.outcome := by
  obtain ⟨rfl, -, -⟩ := id h
  have served := ev.evaluate_served s ctx
  generalize (ev.evaluate s ctx).1 = call, (ev.evaluate s ctx).2 = ctx' at served ⊢
  cases served with
  | hit found w called =>
    obtain ⟨first, requested, kind, related⟩ := h.stored found
    exact .inr ⟨first, _, _, .of_stored found requested kind, related,
      congrArg (·.1.outcome) called⟩
  | refused missing w specialized => exact .inl ⟨_, _, _, .self missing, specialized, rfl⟩
  | made missing w specialized w' called =>
    exact .inr ⟨s, _, _, .self missing, made specialized, congrArg (·.1.outcome) called⟩

end
end FieldGraph.Evaluator
