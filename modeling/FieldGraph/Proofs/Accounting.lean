import FieldGraph.Evaluator.Graph
import FieldGraph.Proofs.Visits

/-!
# Statistics

The statistics of an evaluator account for its calls: every call is a hit or a
miss, and every miss is a closure that is still stored, one that was evicted, or
a specialization that failed. Closures are evicted only from a full store, which
then stays full.
-/

namespace FieldGraph.Evaluator
variable {K σ κ γ F : Type} [Specializable K σ κ γ F] [DecidableEq κ]

theorem Orderly.size_evaluate {root : F} {settings : Settings} {ev : Evaluator κ γ F}
    (h : Orderly root settings ev) (caching : settings.caching = true) (s : σ) (c : Context) :
    (ev.evaluate s c).1.evaluator.closures.size =
      match ev.service s c with
      | .hit => ev.closures.size
      | .refused => ev.closures.size
      | .made => min settings.capacity (ev.closures.size + 1) := by
  have keys := h.keys_evaluate s c
  have hit := h.service_eq_hit (s := s) (c := c)
  rw [← Recency.length_keys, ← Recency.length_keys, keys]
  cases served : ev.service s c with
  | hit =>
    obtain ⟨-, mem⟩ := hit.mp served
    rw [if_pos ⟨caching, by simp⟩, Recency.used_of_mem h.length_le mem, List.length_cons,
      List.length_erase_add_one mem]
  | refused => simp
  | made =>
    have absent : Specializable.kind root s ∉ ev.closures.keys := fun mem => by
      have found := hit.mpr ⟨caching, mem⟩
      rw [served] at found
      cases found
    rw [if_pos ⟨caching, by simp⟩, Recency.length_used, List.erase_of_not_mem absent]

/-- Where every miss since the last clearing has gone. -/
structure Balanced (settings : Settings) (ev : Evaluator κ γ F) (visits : List (Visit κ)) : Prop where
  misses_eq : ev.stats.misses =
    ev.closures.size + ev.stats.evictions + visits.countP (·.service = .refused)
  full : 0 < ev.stats.evictions → ev.closures.size = settings.capacity

theorem Balanced.evaluate {root : F} {settings : Settings} (caching : settings.caching = true)
    {ev : Evaluator κ γ F} {visits : List (Visit κ)} (h : Balanced settings ev visits)
    (orderly : Orderly root settings ev) (s : σ) (c : Context) :
    Balanced settings (ev.evaluate s c).1.evaluator
      (⟨Specializable.kind ev.root s, ev.service s c⟩ :: visits) := by
  obtain ⟨misses, full⟩ := h
  have room : ev.closures.size ≤ settings.capacity := by
    rw [← Recency.length_keys]
    exact orderly.length_le
  have size := orderly.size_evaluate caching s c
  have stats := orderly.stats_evaluate s c
  generalize (ev.evaluate s c).1.evaluator = next, ev.service s c = service at size stats ⊢
  cases service with
  | hit =>
    constructor
    · simp [size, stats, Stats.hit, misses]
    · simpa [size, stats, Stats.hit] using full
  | refused =>
    constructor
    · simp only [size, stats, Stats.miss, misses, List.countP_cons, decide_true, if_true]
      omega
    · simpa [size, stats, Stats.miss] using full
  | made =>
    have other : visits.countP (·.service = .refused) =
        List.countP (·.service = .refused) (⟨Specializable.kind ev.root s, .made⟩ :: visits) := by
      simp
    simp only [caching, true_and] at stats
    by_cases filled : ev.closures.size = settings.capacity
    · -- the new closure takes the place of the one that is evicted
      rw [if_pos filled] at stats
      refine ⟨?_, fun _ => ?_⟩
      · simp only [size, stats, Stats.miss, Stats.evict, misses, ← other]
        omega
      · simp only [size]
        omega
    · rw [if_neg filled] at stats
      refine ⟨?_, fun evicted => ?_⟩
      · simp only [size, stats, Stats.miss, misses, ← other]
        omega
      · simp only [stats, Stats.miss] at evicted
        exact absurd (full evicted) filled

/-- An evaluator that stores nothing counts every call as a miss. -/
structure Storeless (ev : Evaluator κ γ F) : Prop where
  caching_eq : ev.settings.caching = false
  hits_eq : ev.stats.hits = 0
  evictions_eq : ev.stats.evictions = 0
  size_eq : ev.closures.size = 0

theorem Storeless.evaluate {ev : Evaluator κ γ F} (h : Storeless ev) (s : σ) (c : Context) :
    Storeless (ev.evaluate s c).1.evaluator := by
  obtain ⟨caching, hits, evictions, size⟩ := h
  have nothing : ev.stored? s = none := by simp [stored?, caching]
  have advance := ev.evaluate_advance s c
  generalize (ev.evaluate s c).1.evaluator = next, ev.service s c = service at advance ⊢
  cases advance with
  | hit found v =>
    rw [nothing] at found
    cases found
  | refused missing => exact ⟨caching, hits, evictions, size⟩
  | made missing v =>
    unfold afterMiss
    rw [if_neg (by simp [caching])]
    exact ⟨caching, hits, evictions, size⟩

/-- Statistics account for every call since the store was last cleared, whatever fails. -/
theorem statistics_account (root : F) (settings : Settings) (requests : List (Request σ))
    (c : Context) :
    let start : Evaluator κ γ F := ofRoot root settings
    let ev := (start.history requests c).1.2
    let visits := start.visits [] requests c
    ev.stats.hits + ev.stats.misses = visits.length ∧
      (settings.caching = true →
        ev.stats.misses =
            ev.closures.size + ev.stats.evictions + visits.countP (·.service = .refused) ∧
          ev.closures.size ≤ settings.capacity ∧
          (0 < ev.stats.evictions → ev.closures.size = settings.capacity)) ∧
      (settings.caching = false →
        ev.stats.hits = 0 ∧ ev.stats.evictions = 0 ∧ ev.closures.size = 0 ∧
          ev.stats.misses = visits.length) := by
  intro start ev visits
  have total : ev.stats.hits + ev.stats.misses = visits.length :=
    (counted_history root settings requests c).total
  refine ⟨total, fun caching => ?_, fun caching => ?_⟩
  · have atStart : Orderly root settings start ∧ Balanced settings start [] :=
      ⟨.ofRoot root settings, rfl, fun evicted => nomatch evicted⟩
    obtain ⟨orderly, balanced⟩ := visits_induct
      (fun ev visits => Orderly root settings ev ∧ Balanced settings ev visits)
      (fun _ _ h => ⟨h.1.clear, rfl, fun evicted => nomatch evicted⟩)
      (fun _ _ s c h => ⟨h.1.evaluate s c, h.2.evaluate caching h.1 s c⟩) requests [] atStart c
    refine ⟨balanced.misses_eq, ?_, balanced.full⟩
    rw [← Recency.length_keys]
    exact orderly.length_le
  · have atStart : Storeless start := ⟨caching, rfl, rfl, rfl⟩
    have kept := visits_induct (fun ev _ => Storeless ev)
      (fun _ _ h => ⟨h.caching_eq, rfl, rfl, rfl⟩) (fun _ _ s c h => h.evaluate s c)
      requests [] atStart c
    have hits : ev.stats.hits = 0 := kept.hits_eq
    rw [hits, Nat.zero_add] at total
    exact ⟨hits, kept.evictions_eq, kept.size_eq, total⟩

/-- There is room for one kind: the second closure takes the place of the first, and the specialization
for a scalar fails. -/
theorem statistics_account_evicting :
    let sample (n : Nat) : Sample Binary64 (Grid Binary64) :=
      .value (.vector (List.replicate n (.ofRat 1)))
    let root : Node (NodalField Binary64) := .inputComponent 1
    let start : GraphEvaluator (NodalField Binary64) := ofRoot root ⟨0, true, false⟩
    let requests := [2, 3, 1, 3].map fun n => Request.evaluate (sample n)
    let ev := (start.history requests {}).1.2
    let visits := start.visits [] requests {}
    ev.stats = ⟨1, 3, 1⟩ ∧ visits.countP (·.service = .refused) = 1 ∧
      (⟨0, true, false⟩ : Settings).caching = true ∧
      ev.stats.misses =
          ev.closures.size + ev.stats.evictions + visits.countP (·.service = .refused) ∧
        ev.closures.size ≤ Settings.capacity ⟨0, true, false⟩ ∧
        (0 < ev.stats.evictions → ev.closures.size = Settings.capacity ⟨0, true, false⟩) := by
  refine ⟨by decide +kernel, by decide +kernel, rfl, ?_⟩
  exact (statistics_account _ ⟨0, true, false⟩ _ {}).2.1 rfl

end FieldGraph.Evaluator
