import FieldGraph.Proofs.Calls
import Mathlib.Data.List.Nodup

/-!
# Visits

Every call of an evaluator visits the store for a kind and is served in one of
three ways. A visit that is refused leaves the store as it was; any other brings
its kind to the front, and what there is no room for is given up. So the store
and the statistics can be told from the visits since the store was last cleared.
-/

namespace FieldGraph

/-! ## Keys in use -/

namespace Recency
variable {κ : Type} [DecidableEq κ] {capacity : Nat} {k : κ} {keys : List κ}

/-- The keys of a store after `k` has been used. -/
def used (capacity : Nat) (k : κ) (keys : List κ) : List κ := (k :: keys.erase k).take capacity

theorem nodup_used (capacity : Nat) (k : κ) (hn : keys.Nodup) : (used capacity k keys).Nodup :=
  (List.take_sublist _ _).nodup (List.nodup_cons.mpr ⟨hn.not_mem_erase, hn.erase k⟩)

theorem length_used : (used capacity k keys).length = min capacity ((keys.erase k).length + 1) := by
  rw [used, List.length_take, List.length_cons]

theorem used_of_mem (hlen : keys.length ≤ capacity) (hk : k ∈ keys) :
    used capacity k keys = k :: keys.erase k := by
  rw [used, List.take_of_length_le]
  rw [List.length_cons, List.length_erase_add_one hk]
  exact hlen

theorem used_of_not_mem (hc : 0 < capacity) (hk : k ∉ keys) :
    used capacity k keys = k :: keys.take (capacity - 1) := by
  rw [used, List.erase_of_not_mem hk]
  cases capacity with
  | zero => cases hc
  | succ n => rfl

theorem keys_refresh_eq_used {γ : Type} {r : Recency κ γ} (hn : r.keys.Nodup)
    (hlen : r.keys.length ≤ capacity) (hk : k ∈ r.keys) (v : γ) :
    (r.refresh k v).keys = used capacity k r.keys := by
  rw [keys_refresh, used_of_mem hlen hk, hn.erase_eq_filter]
  congr 1
  apply List.filter_congr
  intro j _
  by_cases h : j = k <;> simp [h]

theorem keys_insert_eq_used {γ : Type} {r : Recency κ γ} (hc : 0 < r.capacity)
    (hk : k ∉ r.keys) (v : γ) : (r.insert k v).keys = used r.capacity k r.keys := by
  rw [keys_insert, used_of_not_mem hc hk]

end Recency

/-! ## Services -/

inductive Service where
  | hit | made | refused
  deriving DecidableEq

structure Visit (κ : Type) where
  kind : κ
  service : Service

namespace Evaluator
variable {K σ κ γ F : Type} [Specializable K σ κ γ F] [DecidableEq κ]

/-- How a call at `s` in the context `c` is served. -/
def service (ev : Evaluator κ γ F) (s : σ) (c : Context) : Service :=
  match ev.stored? s with
  | some _ => .hit
  | none =>
    match (Specializable.specialize ev.root s (c.extend ∅ (ev.announcement s))).1 with
    | .ok _ => .made
    | .error _ => .refused

/-- The visits of a history since the store was last cleared, the latest first. -/
def visits (ev : Evaluator κ γ F) (earlier : List (Visit κ)) :
    List (Request σ) → Context → List (Visit κ)
  | [], _ => earlier
  | .evaluate s :: rest, c =>
    let visit := ⟨Specializable.kind ev.root s, ev.service s c⟩
    (ev.evaluate s c).1.evaluator.visits (visit :: earlier) rest (ev.evaluate s c).2
  | .clear :: rest, c => ev.clear.visits [] rest c
  | .outside work :: rest, c => ev.visits earlier rest (work c).2

/-- What a call leaves of the evaluator. -/
inductive Advance (ev : Evaluator κ γ F) (s : σ) : Service → Evaluator κ γ F → Prop where
  | hit {closure : γ} (found : ev.stored? s = some closure) (v : γ) :
      Advance ev s .hit
        { ev with
          closures := ev.closures.refresh (Specializable.kind ev.root s) v
          stats := ev.stats.hit }
  | made (missing : ev.stored? s = none) (v : γ) :
      Advance ev s .made (ev.afterMiss (Specializable.kind ev.root s) v)
  | refused (missing : ev.stored? s = none) :
      Advance ev s .refused { ev with stats := ev.stats.miss }

theorem evaluate_advance (ev : Evaluator κ γ F) (s : σ) (c : Context) :
    Advance ev s (ev.service s c) (ev.evaluate s c).1.evaluator := by
  have served := ev.evaluate_served s c
  generalize (ev.evaluate s c).1 = call, (ev.evaluate s c).2 = c' at served
  cases served with
  | hit found w called =>
    have service : ev.service s c = .hit := by simp [Evaluator.service, found]
    rw [service]
    exact .hit found _
  | refused missing w specialized asked =>
    subst asked
    have service : ev.service s c = .refused := by simp [Evaluator.service, missing, specialized]
    rw [service]
    exact .refused missing
  | made missing w specialized w' called asked =>
    subst asked
    have service : ev.service s c = .made := by simp [Evaluator.service, missing, specialized]
    rw [service]
    exact .made missing _

theorem Advance.frame {ev next : Evaluator κ γ F} {s : σ} {service : Service}
    (h : Advance ev s service next) :
    next.root = ev.root ∧ next.settings = ev.settings ∧
      next.closures.capacity = ev.closures.capacity := by
  cases h with
  | hit found v => exact ⟨rfl, rfl, rfl⟩
  | refused missing => exact ⟨rfl, rfl, rfl⟩
  | made missing v =>
    unfold afterMiss
    split <;> exact ⟨rfl, rfl, rfl⟩

theorem visits_induct (Inv : Evaluator κ γ F → List (Visit κ) → Prop)
    (clear : ∀ ev earlier, Inv ev earlier → Inv ev.clear [])
    (evaluate : ∀ ev earlier (s : σ) (c : Context), Inv ev earlier →
      Inv (ev.evaluate s c).1.evaluator (⟨Specializable.kind ev.root s, ev.service s c⟩ :: earlier))
    (requests : List (Request σ)) {ev : Evaluator κ γ F} (earlier : List (Visit κ))
    (h : Inv ev earlier) (c : Context) :
    Inv (ev.history requests c).1.2 (ev.visits earlier requests c) := by
  induction requests generalizing ev earlier c with
  | nil => exact h
  | cons r rest ih =>
    cases r with
    | evaluate s => exact ih _ (evaluate ev earlier s c h) (ev.evaluate s c).2
    | clear => exact ih [] (clear ev earlier h) c
    | outside work => exact ih earlier h (work c).2

/-! ## What visits do -/

/-- An evaluator with its store as it should be: no kind twice, and no more than there is room for. -/
structure Orderly (root : F) (settings : Settings) (ev : Evaluator κ γ F) : Prop where
  root_eq : ev.root = root
  settings_eq : ev.settings = settings
  capacity_eq : ev.closures.capacity = settings.capacity
  nodup : ev.closures.keys.Nodup
  length_le : ev.closures.keys.length ≤ settings.capacity

namespace Orderly
variable {root : F} {settings : Settings} {ev : Evaluator κ γ F}

omit [Specializable K σ κ γ F] [DecidableEq κ] in
theorem ofRoot (root : F) (settings : Settings) :
    Orderly root settings (ofRoot root settings : Evaluator κ γ F) :=
  ⟨rfl, rfl, rfl, List.nodup_nil, Nat.zero_le _⟩

omit [Specializable K σ κ γ F] [DecidableEq κ] in
theorem clear (h : Orderly root settings ev) : Orderly root settings ev.clear :=
  ⟨h.root_eq, h.settings_eq, h.capacity_eq, List.nodup_nil, Nat.zero_le _⟩

theorem stored?_isSome (h : Orderly root settings ev) {s : σ} :
    (ev.stored? s).isSome ↔ settings.caching = true ∧ Specializable.kind root s ∈ ev.closures.keys := by
  rw [← h.root_eq, ← h.settings_eq, ← Recency.find?_isSome]
  unfold stored?
  by_cases caching : ev.settings.caching = true <;> simp [caching]

theorem service_eq_hit (h : Orderly root settings ev) {s : σ} {c : Context} :
    ev.service s c = .hit ↔ settings.caching = true ∧ Specializable.kind root s ∈ ev.closures.keys := by
  rw [← h.stored?_isSome]
  unfold service
  cases ev.stored? s with
  | some closure => simp
  | none => cases (Specializable.specialize ev.root s (c.extend ∅ (ev.announcement s))).1 <;> simp

theorem service_ne_refused (h : Orderly root settings ev) (caching : settings.caching = true)
    {s : σ} {c : Context} :
    ev.service s c ≠ .refused ↔ Specializable.kind root s ∈ ev.closures.keys ∨
      (Specializable.specialize root s (c.extend ∅ (ev.announcement s))).1.isOk = true := by
  have stored := h.stored?_isSome (s := s)
  simp only [caching, true_and] at stored
  rw [← stored]
  unfold service
  rw [h.root_eq]
  cases ev.stored? s with
  | some closure => simp
  | none =>
    cases (Specializable.specialize root s (c.extend ∅ (ev.announcement s))).1 <;>
      simp [Except.isOk, Except.toBool]

omit [Specializable K σ κ γ F] [DecidableEq κ] in
theorem capacity_pos (h : Orderly root settings ev) : 0 < ev.closures.capacity := by
  rw [h.capacity_eq, Settings.capacity]
  omega

/-- A call that is not refused brings its kind to the front of the store. -/
theorem keys_evaluate (h : Orderly root settings ev) (s : σ) (c : Context) :
    (ev.evaluate s c).1.evaluator.closures.keys =
      if settings.caching = true ∧ ev.service s c ≠ .refused then
        Recency.used settings.capacity (Specializable.kind root s) ev.closures.keys
      else ev.closures.keys := by
  have advance := ev.evaluate_advance s c
  have hit := h.service_eq_hit (s := s) (c := c)
  have pos := h.capacity_pos
  obtain ⟨rfl, rfl, capacity, nodup, length⟩ := h
  generalize (ev.evaluate s c).1.evaluator = next, ev.service s c = service at advance hit ⊢
  cases advance with
  | hit found v =>
    obtain ⟨caching, mem⟩ := hit.mp rfl
    rw [if_pos ⟨caching, by simp⟩]
    exact Recency.keys_refresh_eq_used nodup length mem v
  | refused missing => simp
  | made missing v =>
    unfold afterMiss
    by_cases caching : ev.settings.caching = true
    · have absent : Specializable.kind ev.root s ∉ ev.closures.keys := fun mem =>
        nomatch hit.mpr ⟨caching, mem⟩
      have both : ev.settings.caching = true ∧ Service.made ≠ .refused := ⟨caching, by simp⟩
      rw [if_pos caching, if_pos both, ← capacity]
      exact Recency.keys_insert_eq_used pos absent v
    · rw [if_neg caching, if_neg fun both => caching both.1]

theorem stats_evaluate (h : Orderly root settings ev) (s : σ) (c : Context) :
    (ev.evaluate s c).1.evaluator.stats =
      match ev.service s c with
      | .hit => ev.stats.hit
      | .refused => ev.stats.miss
      | .made =>
        if settings.caching = true ∧ ev.closures.size = settings.capacity then ev.stats.miss.evict
        else ev.stats.miss := by
  have advance := ev.evaluate_advance s c
  have full := Recency.victim?_isSome h.capacity_pos
  obtain ⟨rfl, rfl, capacity, -, -⟩ := h
  rw [capacity] at full
  generalize (ev.evaluate s c).1.evaluator = next, ev.service s c = service at advance ⊢
  cases advance with
  | hit found v => rfl
  | refused missing => rfl
  | made missing v =>
    unfold afterMiss
    by_cases caching : ev.settings.caching = true
    · simp only [caching, full, if_true, true_and]
    · simp only [caching, false_and, if_false, Bool.false_eq_true]

theorem evaluate (h : Orderly root settings ev) (s : σ) (c : Context) :
    Orderly root settings (ev.evaluate s c).1.evaluator := by
  have keys := h.keys_evaluate s c
  obtain ⟨root_eq, settings_eq, capacity_eq⟩ := (ev.evaluate_advance s c).frame
  refine ⟨root_eq.trans h.root_eq, settings_eq.trans h.settings_eq,
    capacity_eq.trans h.capacity_eq, ?_, ?_⟩
  · rw [keys]
    split
    · exact Recency.nodup_used settings.capacity (Specializable.kind root s) h.nodup
    · exact h.nodup
  · rw [keys]
    split
    · exact List.length_take_le ..
    · exact h.length_le

end Orderly

/-! ## Hits and misses -/

structure Counted (ev : Evaluator κ γ F) (visits : List (Visit κ)) : Prop where
  hits_eq : ev.stats.hits = visits.countP (·.service = .hit)
  misses_eq : ev.stats.misses = visits.countP (·.service ≠ .hit)

theorem Counted.evaluate {ev : Evaluator κ γ F} {visits : List (Visit κ)} (h : Counted ev visits)
    (s : σ) (c : Context) :
    Counted (ev.evaluate s c).1.evaluator
      (⟨Specializable.kind ev.root s, ev.service s c⟩ :: visits) := by
  have advance := ev.evaluate_advance s c
  generalize (ev.evaluate s c).1.evaluator = next, ev.service s c = service at advance ⊢
  obtain ⟨hits, misses⟩ := h
  cases advance with
  | hit found v => constructor <;> simp [hits, misses, Stats.hit]
  | refused missing => constructor <;> simp [hits, misses, Stats.miss]
  | made missing v =>
    unfold afterMiss
    split
    · split <;> constructor <;> simp [hits, misses, Stats.miss, Stats.evict]
    · constructor <;> simp [hits, misses, Stats.miss]

theorem counted_history (root : F) (settings : Settings) (requests : List (Request σ)) (c : Context) :
    Counted ((ofRoot root settings : Evaluator κ γ F).history requests c).1.2
      ((ofRoot root settings : Evaluator κ γ F).visits [] requests c) :=
  visits_induct Counted (fun _ _ _ => ⟨rfl, rfl⟩) (fun _ _ s c h => h.evaluate s c) requests []
    ⟨rfl, rfl⟩ c

omit [DecidableEq κ] in
theorem Counted.total {ev : Evaluator κ γ F} {visits : List (Visit κ)} (h : Counted ev visits) :
    ev.stats.hits + ev.stats.misses = visits.length := by
  rw [h.hits_eq, h.misses_eq, visits.length_eq_countP_add_countP fun v => v.service = .hit]
  simp

end Evaluator
end FieldGraph
