import FieldGraph.Calc

/-!
# Stores ordered by recency

A bounded store of keyed values, the most recently used first. Using a value
moves it to the front; a new value is put in front, and a full store gives up
its last one for it.
-/

namespace FieldGraph

structure Recency (κ γ : Type) where
  capacity : Nat
  entries : List (κ × γ) := []

namespace Recency

variable {κ γ : Type}

/-- The largest capacity that can be set aside: a table has a power of two of slots, leaves one in
eight of them free, and has room for `2 ^ 58`. -/
def capacityLimit : Nat := 0x380000000000000

def reserve (capacity : Nat) : Calc Unit :=
  Calc.read (if capacity ≤ capacityLimit then some () else none)

def size (r : Recency κ γ) : Nat := r.entries.length

def keys (r : Recency κ γ) : List κ := r.entries.map (·.1)

def clear (r : Recency κ γ) : Recency κ γ := { r with entries := [] }

section
variable [DecidableEq κ]

def find? (r : Recency κ γ) (k : κ) : Option γ := (r.entries.find? (·.1 = k)).map (·.2)

theorem mem_of_find? {r : Recency κ γ} {k : κ} {v : γ} (h : r.find? k = some v) :
    (k, v) ∈ r.entries := by
  obtain ⟨e, he, rfl⟩ := Option.map_eq_some_iff.mp h
  have hk : e.1 = k := by simpa using List.find?_some he
  exact hk ▸ List.mem_of_find?_eq_some he

def refresh (r : Recency κ γ) (k : κ) (v : γ) : Recency κ γ :=
  { r with entries := (k, v) :: r.entries.filter (·.1 ≠ k) }

end

def victim? (r : Recency κ γ) : Option κ :=
  if r.size = r.capacity then r.keys.getLast? else none

def insert (r : Recency κ γ) (k : κ) (v : γ) : Recency κ γ :=
  { r with entries := (k, v) :: r.entries.take (r.capacity - 1) }

/-! ## Keys -/

theorem length_keys (r : Recency κ γ) : r.keys.length = r.size := List.length_map _

theorem keys_insert (r : Recency κ γ) (k : κ) (v : γ) :
    (r.insert k v).keys = k :: r.keys.take (r.capacity - 1) := by
  simp only [insert, keys, List.map_cons, List.map_take]

theorem keys_refresh [DecidableEq κ] (r : Recency κ γ) (k : κ) (v : γ) :
    (r.refresh k v).keys = k :: r.keys.filter (· ≠ k) := by
  simp only [refresh, keys, List.map_cons, List.filter_map]
  rfl

theorem find?_isSome [DecidableEq κ] {r : Recency κ γ} {k : κ} :
    (r.find? k).isSome ↔ k ∈ r.keys := by
  simp only [find?, Option.isSome_map, List.find?_isSome, keys, List.mem_map, decide_eq_true_eq]

theorem victim?_isSome {r : Recency κ γ} (h : 0 < r.capacity) :
    r.victim?.isSome ↔ r.size = r.capacity := by
  unfold victim?
  split
  · next full =>
    have keys : r.keys ≠ [] := by
      rw [← List.length_pos_iff, length_keys, full]
      exact h
    simp only [List.getLast?_eq_some_getLast keys, Option.isSome_some, full]
  · next room => simp only [Option.isSome_none, Bool.false_eq_true, room]

end Recency
end FieldGraph
