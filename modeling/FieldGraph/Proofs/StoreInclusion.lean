import FieldGraph.Evaluator.Graph
import FieldGraph.Proofs.Visits

/-!
# Smaller and larger stores

Of two evaluators that differ only in the room of their stores, the larger store
always holds what the smaller one does, so the larger evaluator finds a closure
whenever the smaller one does. The stores need not agree otherwise: a kind that
only the larger one holds moves to its front even at a sample for which the
smaller evaluator cannot make a closure. What is kept is that the smaller store
lists its kinds in the order of the larger one, and that it is full as soon as
the two differ.
-/

namespace FieldGraph

/-! ## Keys of two stores -/

namespace Recency

/-- A sublist stays one if it loses as many entries at its end as the whole list, or more. -/
theorem take_sublist_take {α : Type} {xs ys : List α} (h : xs.Sublist ys) {m n : Nat}
    (lost : ys.length - n ≤ xs.length - m) : (xs.take m).Sublist (ys.take n) := by
  induction h generalizing m n with
  | slnil => simp
  | @cons xs ys y h ih =>
    have length := h.length_le
    cases n with
    | zero => simp only [List.length_cons] at lost; omega
    | succ n => exact (ih (by simpa using lost)).cons y
  | @cons_cons xs ys x h ih =>
    have length := h.length_le
    cases m with
    | zero => simp
    | succ m =>
      cases n with
      | zero => simp only [List.length_cons] at lost; omega
      | succ n => exact (ih (by simpa using lost)).cons_cons x

variable {κ : Type} [DecidableEq κ] {c₁ c₂ : Nat} {k : κ} {xs ys : List κ}

/-- The keys of a store with room for `c₁` beside those of a larger one. -/
structure Nested (c₁ : Nat) (xs ys : List κ) : Prop where
  sublist : xs.Sublist ys
  full_or_eq : xs.length = c₁ ∨ xs = ys

theorem Nested.used_both (h : Nested c₁ xs ys) (hc : c₁ ≤ c₂) (hy : ys.length ≤ c₂) :
    Nested c₁ (used c₁ k xs) (used c₂ k ys) := by
  have lx : (xs.erase k).length = if k ∈ xs then xs.length - 1 else xs.length := List.length_erase
  have ly : (ys.erase k).length = if k ∈ ys then ys.length - 1 else ys.length := List.length_erase
  refine ⟨take_sublist_take ((h.sublist.erase k).cons_cons k) ?_, ?_⟩
  · -- the larger store gives up a key only if it is full and `k` is new to both stores
    have hk : k ∈ xs → k ∈ ys := fun hk => h.sublist.subset hk
    rw [List.length_cons, List.length_cons, lx, ly]
    rcases h.full_or_eq with full | rfl <;> grind
  · by_cases room : (xs.erase k).length + 1 < c₁
    · have same : xs = ys := h.full_or_eq.resolve_left (by grind)
      subst same
      right
      unfold used
      rw [List.take_of_length_le (by simp; omega), List.take_of_length_le (by simp; omega)]
    · left
      rw [length_used]
      omega

theorem Nested.used_right (h : Nested c₁ xs ys) (hy : ys.length ≤ c₂) (hkx : k ∉ xs) (hky : k ∈ ys) :
    Nested c₁ xs (used c₂ k ys) := by
  rw [used_of_mem hy hky]
  constructor
  · have erased := h.sublist.erase k
    rw [List.erase_of_not_mem hkx] at erased
    exact erased.cons k
  · rcases h.full_or_eq with full | rfl
    · exact .inl full
    · exact absurd hky hkx

end Recency

/-! ## Two evaluators -/

/-- The visits of two evaluators at the same sample, where the second finds a closure if the first does. -/
def Visit.ServedBy {κ : Type} (v w : Visit κ) : Prop :=
  v.kind = w.kind ∧ (v.service = .hit → w.service = .hit)

theorem Visit.countP_hit_le {κ : Type} {vs ws : List (Visit κ)} (h : List.Forall₂ ServedBy vs ws) :
    vs.countP (·.service = .hit) ≤ ws.countP (·.service = .hit) := by
  induction h with
  | nil => exact Nat.le_refl _
  | @cons v w vs ws hvw _ ih =>
    obtain ⟨-, hit⟩ := hvw
    rw [List.countP_cons, List.countP_cons]
    by_cases hv : v.service = .hit
    · simp only [hv, hit hv, decide_true, if_true]
      omega
    · simp only [hv, decide_false, Bool.false_eq_true, if_false]
      omega

namespace Evaluator
variable {K σ κ γ F : Type} [Specializable K σ κ γ F] [DecidableEq κ]

/-- Evaluators of `root` with room for `limit` and `limit'` closures, the stores nested. -/
structure Nested (root : F) (guarding : Bool) (limit limit' : Nat) (small large : Evaluator κ γ F) :
    Prop where
  orderly : Orderly root ⟨limit, true, guarding⟩ small
  orderly' : Orderly root ⟨limit', true, guarding⟩ large
  keys : Recency.Nested (max 1 limit) small.closures.keys large.closures.keys

section
variable {root : F} {guarding : Bool} {limit limit' : Nat} {small large : Evaluator κ γ F}

theorem Nested.hit (h : Nested root guarding limit limit' small large) {s : σ} {c c' : Context}
    (hit : small.service s c = .hit) : large.service s c' = .hit := by
  obtain ⟨-, mem⟩ := h.orderly.service_eq_hit.mp hit
  exact h.orderly'.service_eq_hit.mpr ⟨rfl, h.keys.sublist.subset mem⟩

variable (same : ∀ (s : σ) (c c' : Context), (Specializable.specialize root s c).1.isOk =
  (Specializable.specialize root s c').1.isOk)
include same

theorem Nested.evaluate (h : Nested root guarding limit limit' small large) (hl : limit ≤ limit')
    (s : σ) (c c' : Context) :
    Nested root guarding limit limit' (small.evaluate s c).1.evaluator
      (large.evaluate s c').1.evaluator := by
  refine ⟨h.orderly.evaluate s c, h.orderly'.evaluate s c', ?_⟩
  rw [h.orderly.keys_evaluate s c, h.orderly'.keys_evaluate s c']
  have left := h.orderly.service_ne_refused rfl (s := s) (c := c)
  have right := h.orderly'.service_ne_refused rfl (s := s) (c := c')
  rw [same s _ (c'.extend ∅ (large.announcement s))] at left
  have hcap : max 1 limit ≤ max 1 limit' := by omega
  by_cases refused : small.service s c = .refused
  · rw [if_neg (by simp [refused])]
    obtain ⟨absent, fails⟩ := not_or.mp (left.not.mp (not_not_intro refused))
    by_cases refused' : large.service s c' = .refused
    · rw [if_neg (by simp [refused'])]
      exact h.keys
    · -- only the larger store holds the kind, and moves it to its front
      rw [if_pos ⟨rfl, refused'⟩]
      exact h.keys.used_right h.orderly'.length_le absent ((right.mp refused').resolve_right fails)
  · have served : large.service s c' ≠ .refused :=
      right.mpr ((left.mp refused).imp_left fun mem => h.keys.sublist.subset mem)
    rw [if_pos ⟨rfl, refused⟩, if_pos ⟨rfl, served⟩]
    exact h.keys.used_both hcap h.orderly'.length_le

theorem Nested.history (hl : limit ≤ limit') (requests : List (Request σ))
    (h : Nested root guarding limit limit' small large) {earlier earlier' : List (Visit κ)}
    (hv : List.Forall₂ Visit.ServedBy earlier earlier') (c c' : Context) :
    Nested root guarding limit limit' (small.history requests c).1.2 (large.history requests c').1.2 ∧
      List.Forall₂ Visit.ServedBy (small.visits earlier requests c)
        (large.visits earlier' requests c') := by
  induction requests generalizing small large earlier earlier' c c' with
  | nil => exact ⟨h, hv⟩
  | cons r rest ih =>
    cases r with
    | evaluate s =>
      have kinds : Specializable.kind small.root s = Specializable.kind large.root s := by
        rw [h.orderly.root_eq, h.orderly'.root_eq]
      exact ih (h.evaluate same hl s c c') (.cons ⟨kinds, h.hit⟩ hv) _ _
    | clear => exact ih ⟨h.orderly.clear, h.orderly'.clear, .slnil, .inr rfl⟩ .nil c c'
    | outside work => exact ih h hv (work c).2 (work c').2

end

/-- If it depends on the sample alone whether a closure can be made, an evaluator with more room
holds at every point of a history what one with less room holds, and finds a closure whenever that
does. -/
theorem larger_store_serves_more (root : F)
    (same : ∀ (s : σ) (c c' : Context), (Specializable.specialize root s c).1.isOk =
      (Specializable.specialize root s c').1.isOk)
    {limit limit' : Nat} (hl : limit ≤ limit') (guarding : Bool) (requests : List (Request σ))
    (c c' : Context) :
    let small : Evaluator κ γ F := ofRoot root ⟨limit, true, guarding⟩
    let large : Evaluator κ γ F := ofRoot root ⟨limit', true, guarding⟩
    let ev := (small.history requests c).1.2
    let ev' := (large.history requests c').1.2
    ev.closures.keys ⊆ ev'.closures.keys ∧
      List.Forall₂ Visit.ServedBy (small.visits [] requests c) (large.visits [] requests c') ∧
      ev.stats.hits ≤ ev'.stats.hits ∧ ev'.stats.misses ≤ ev.stats.misses := by
  intro small large ev ev'
  have start : Nested root guarding limit limit' small large :=
    ⟨.ofRoot _ _, .ofRoot _ _, .slnil, .inr rfl⟩
  obtain ⟨nested, visits⟩ := start.history same hl requests .nil c c'
  have counted := counted_history root ⟨limit, true, guarding⟩ requests c
  have counted' := counted_history root ⟨limit', true, guarding⟩ requests c'
  have hits : ev.stats.hits ≤ ev'.stats.hits := by
    rw [counted.hits_eq, counted'.hits_eq]
    exact Visit.countP_hit_le visits
  refine ⟨nested.keys.sublist.subset, visits, hits, ?_⟩
  have total : ev.stats.hits + ev.stats.misses = (small.visits [] requests c).length :=
    counted.total
  have total' : ev'.stats.hits + ev'.stats.misses = (large.visits [] requests c').length :=
    counted'.total
  have length := visits.length_eq
  omega

/-- Function graphs are such roots. -/
theorem isOk_specialize {M V : Type} [Mesh Binary64 M] [FieldVariable Binary64 M V] [DecidableEq M]
    (root : Node V) (s : Sample Binary64 M) (c c' : Context) :
    (Specializable.specialize root s c).1.isOk = (Specializable.specialize root s c').1.isOk := by
  show (root.specialize s c).1.isOk = (root.specialize s c').1.isOk
  rw [root.specialize_uniform s c, root.specialize_uniform s c']

/-- No closure can be made for a negative number, since the probe fails. The larger evaluator has one
for numbers, and moves it to the front of its store. -/
theorem larger_store_serves_more_sqrt :
    let number (x : Rat) : Sample Binary64 (Grid Binary64) := .value (.scalar (.ofRat x))
    let pair : Sample Binary64 (Grid Binary64) := .value (.vector [.ofRat 4, .ofRat 9])
    let root : Node (NodalField Binary64) := .component (.guarded (.unary .input .sqrt)) 0
    let requests := [number 4, pair, number (-1)].map Request.evaluate
    let small : GraphEvaluator (NodalField Binary64) := ofRoot root ⟨1, true, false⟩
    let large : GraphEvaluator (NodalField Binary64) := ofRoot root ⟨2, true, false⟩
    let ev := (small.history requests {}).1.2
    let ev' := (large.history requests {}).1.2
    (∀ (s : Sample Binary64 (Grid Binary64)) (c c' : Context),
        (Specializable.specialize root s c).1.isOk = (Specializable.specialize root s c').1.isOk) ∧
      1 ≤ 2 ∧ ev.closures.keys = [.value 2] ∧ ev'.closures.keys = [.value 1, .value 2] ∧
      ev.closures.keys ⊆ ev'.closures.keys ∧
      List.Forall₂ Visit.ServedBy (small.visits [] requests {}) (large.visits [] requests {}) ∧
      ev.stats.hits ≤ ev'.stats.hits ∧ ev'.stats.misses ≤ ev.stats.misses := by
  refine ⟨isOk_specialize _, by decide, by decide +kernel, by decide +kernel, ?_⟩
  exact larger_store_serves_more _ (isOk_specialize _) (by decide) false _ {} {}

end Evaluator
end FieldGraph
