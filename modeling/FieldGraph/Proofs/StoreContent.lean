import FieldGraph.Evaluator.Graph
import FieldGraph.Proofs.Visits

/-!
# What a store holds

A store of closures holds the kinds that were used last, as many of them as
there is room for. A kind counts as used when a closure was found for it or made
for it, whatever became of the call after that; a kind that was refused was not
used, and leaves everything stored as it was.
-/

namespace FieldGraph

/-! ## Distinct entries in order -/

section
variable {α : Type} [DecidableEq α]

theorem eraseDups_filter (p : α → Bool) :
    ∀ xs : List α, (xs.filter p).eraseDups = xs.eraseDups.filter p
  | [] => rfl
  | x :: xs => by
    have rest := eraseDups_filter p (xs.filter fun y => !y == x)
    by_cases hx : p x = true
    · rw [List.filter_cons_of_pos hx, List.eraseDups_cons, List.eraseDups_cons,
        List.filter_cons_of_pos hx, ← rest, List.filter_comm]
    · have same : (xs.filter fun y => !y == x).filter p = xs.filter p := by
        rw [List.filter_filter]
        apply List.filter_congr
        intro y _
        by_cases hy : y = x <;> simp [hy, hx]
      rw [List.filter_cons_of_neg hx, List.eraseDups_cons, List.filter_cons_of_neg hx, ← rest, same]
termination_by xs => xs.length
decreasing_by exact Nat.lt_succ_of_le (List.length_filter_le _ _)

theorem nodup_eraseDups : ∀ xs : List α, xs.eraseDups.Nodup
  | [] => List.nodup_nil
  | x :: xs => by
    rw [List.eraseDups_cons, eraseDups_filter]
    exact List.nodup_cons.mpr ⟨by simp, (nodup_eraseDups xs).filter _⟩

theorem eraseDups_cons_eq (x : α) (xs : List α) :
    (x :: xs).eraseDups = x :: xs.eraseDups.erase x := by
  rw [List.eraseDups_cons, eraseDups_filter, (nodup_eraseDups xs).erase_eq_filter]
  rfl

theorem take_erase_take (n : Nat) (x : α) (xs : List α) :
    ((xs.take (n + 1)).erase x).take n = (xs.erase x).take n := by
  induction xs generalizing n with
  | nil => rfl
  | cons y ys ih =>
    rw [List.take_succ_cons]
    by_cases hy : y = x
    · subst hy
      rw [List.erase_cons_head, List.erase_cons_head, List.take_take, Nat.min_self]
    · rw [List.erase_cons_tail (by simp [hy]), List.erase_cons_tail (by simp [hy])]
      cases n with
      | zero => rfl
      | succ m => rw [List.take_succ_cons, List.take_succ_cons, ih]

end

/-- What is given up for lack of room makes no difference to the use of a key. -/
theorem Recency.used_take {κ : Type} [DecidableEq κ] (capacity : Nat) (k : κ) (keys : List κ) :
    used capacity k (keys.take capacity) = used capacity k keys := by
  unfold used
  cases capacity with
  | zero => rfl
  | succ n => rw [List.take_succ_cons, List.take_succ_cons, take_erase_take]

/-! ## Kinds in use -/

namespace Visit
variable {κ : Type} [DecidableEq κ]

def effective (v : Visit κ) : Bool := v.service ≠ .refused

/-- The kinds of the effective visits, each where it comes first. -/
def recentKinds (visits : List (Visit κ)) : List κ :=
  ((visits.filter (·.effective)).map (·.kind)).eraseDups

theorem recentKinds_cons (v : Visit κ) (visits : List (Visit κ)) :
    recentKinds (v :: visits) =
      if v.effective then v.kind :: (recentKinds visits).erase v.kind else recentKinds visits := by
  unfold recentKinds
  by_cases h : v.effective = true
  · rw [if_pos h, List.filter_cons_of_pos h, List.map_cons, eraseDups_cons_eq]
  · rw [if_neg h, List.filter_cons_of_neg h]

end Visit

namespace Evaluator
variable {K σ κ γ F : Type} [Specializable K σ κ γ F] [DecidableEq κ]

structure HoldsRecent (root : F) (settings : Settings) (ev : Evaluator κ γ F)
    (visits : List (Visit κ)) : Prop where
  orderly : Orderly root settings ev
  keys_eq : ev.closures.keys = (Visit.recentKinds visits).take settings.capacity

theorem HoldsRecent.evaluate {root : F} {settings : Settings} (caching : settings.caching = true)
    {ev : Evaluator κ γ F} {visits : List (Visit κ)} (h : HoldsRecent root settings ev visits)
    (s : σ) (c : Context) :
    HoldsRecent root settings (ev.evaluate s c).1.evaluator
      (⟨Specializable.kind ev.root s, ev.service s c⟩ :: visits) := by
  refine ⟨h.orderly.evaluate s c, ?_⟩
  rw [h.orderly.keys_evaluate s c, h.keys_eq, Visit.recentKinds_cons, h.orderly.root_eq]
  by_cases used : ev.service s c = .refused
  · simp [Visit.effective, used]
  · simp only [Visit.effective, caching, used, ne_eq, not_false_eq_true, and_true, decide_true,
      if_true]
    rw [Recency.used_take]
    rfl

/-- After every history the store holds the kinds of the effective visits since it was last cleared,
read backwards, as far as there is room. A visit that is refused leaves it alone. -/
theorem store_content (root : F) (limit : Nat) (guarding : Bool) (requests : List (Request σ))
    (c : Context) :
    let start : Evaluator κ γ F := ofRoot root ⟨limit, true, guarding⟩
    let ev := (start.history requests c).1.2
    ev.closures.keys = (Visit.recentKinds (start.visits [] requests c)).take (max 1 limit) ∧
      ∀ (s : σ) (c' : Context), ev.service s c' = .refused →
        (ev.evaluate s c').1.evaluator.closures = ev.closures ∧
          (ev.evaluate s c').1.evaluator.stats.evictions = ev.stats.evictions := by
  intro start ev
  have nothing (n : Nat) : [] = (Visit.recentKinds ([] : List (Visit κ))).take n :=
    List.take_nil.symm
  have kept := visits_induct (HoldsRecent root ⟨limit, true, guarding⟩)
    (fun _ _ h => ⟨h.orderly.clear, nothing _⟩) (fun _ _ s c h => h.evaluate rfl s c)
    requests [] ⟨.ofRoot _ _, nothing _⟩ c
  refine ⟨kept.keys_eq, fun s c' refused => ?_⟩
  have advance := ev.evaluate_advance s c'
  rw [refused] at advance
  generalize (ev.evaluate s c').1.evaluator = next at advance
  cases advance
  exact ⟨rfl, rfl⟩

/-- There is room for two kinds; a scalar has no second component, so it is refused. -/
theorem store_content_full :
    let sample (n : Nat) : Sample Binary64 (Grid Binary64) :=
      .value (.vector (List.replicate n (.ofRat 1)))
    let root : Node (NodalField Binary64) := .guarded (.inputComponent 1)
    let start : GraphEvaluator (NodalField Binary64) := ofRoot root ⟨2, true, true⟩
    let requests := [2, 3, 1, 2, 4].map fun n => Request.evaluate (sample n)
    let ev := (start.history requests {}).1.2
    ev.closures.keys = [.value 4, .value 2] ∧
      ev.closures.keys = (Visit.recentKinds (start.visits [] requests {})).take (max 1 2) ∧
      ev.service (sample 1) {} = .refused ∧
        (ev.evaluate (sample 1) {}).1.evaluator.closures = ev.closures ∧
        (ev.evaluate (sample 1) {}).1.evaluator.stats.evictions = ev.stats.evictions := by
  refine ⟨by decide +kernel, (store_content _ 2 true _ {}).1, by decide +kernel, ?_⟩
  exact (store_content _ 2 true _ {}).2 _ _ (by decide +kernel)

end Evaluator
end FieldGraph
