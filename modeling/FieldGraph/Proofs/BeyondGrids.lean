import FieldGraph.Field.Nodal
import FieldGraph.Proofs.Adjacency

/-!
# Numbers beyond a grid

The last index of a position has no bound. So every number stands for one
position whose other indices are on their axes, and every such position has one
number, which is beyond the grid exactly if the last index is. An element beyond
the grid has a corner beyond it, where a field has no value, and at a node beyond
the grid no element of it is listed.
-/

namespace FieldGraph

namespace Numbering

theorem position_cons {counts : List Nat} (h : counts ≠ []) (n i : Nat) :
    position (n :: counts) i = i % n :: position counts (i / n) := by
  cases counts with
  | nil => exact absurd rfl h
  | cons m counts => rfl

/-- All indices but the last are below the counts of their axes. -/
def Open {n : Nat} (count i : Fin n → Nat) : Prop := ∀ d : Fin n, d.val + 1 < n → i d < count d

theorem Open.tail {n : Nat} {count i : Fin (n + 1) → Nat} (h : Open count i) :
    Open (fun d => count d.succ) (fun d => i d.succ) :=
  fun d hd => h d.succ (Nat.succ_lt_succ hd)

theorem position_index_of_open : ∀ {n : Nat} {count i : Fin n → Nat}, Open count i →
    position (List.ofFn count) (index (List.ofFn count) (List.ofFn i)) = List.ofFn i
  | 0, _, _, _ => rfl
  | 1, _, _, _ => by simp [position, index]
  | n + 2, count, i, h => by
    have first : i 0 < count 0 := h 0 (Nat.succ_lt_succ n.succ_pos)
    have rest := position_index_of_open h.tail
    rw [List.ofFn_succ, List.ofFn_succ (f := i), index, position_cons (by simp),
      Nat.add_mul_mod_self_left, Nat.mod_eq_of_lt first,
      Nat.add_mul_div_left _ _ (Nat.zero_lt_of_lt first), Nat.div_eq_of_lt first, Nat.zero_add, rest]

theorem exists_open : ∀ {n : Nat} {count : Fin n → Nat}, (∀ d, 0 < count d) → ∀ number,
    ∃ i, position (List.ofFn count) number = List.ofFn i ∧ Open count i
  | 0, _, _, _ => ⟨Fin.elim0, rfl, fun d => d.elim0⟩
  | 1, _, _, number => ⟨fun _ => number, by simp [position], fun d hd => by omega⟩
  | n + 2, count, positive, number => by
    obtain ⟨i, rest, within⟩ := exists_open (fun d : Fin (n + 1) => positive d.succ) (number / count 0)
    refine ⟨Fin.cons (number % count 0) i, ?_, Fin.cases (fun _ => ?_) fun d hd => ?_⟩
    · rw [List.ofFn_succ, position_cons (by simp), rest, List.ofFn_cons]
    · exact Nat.mod_lt _ (positive 0)
    · exact within d (Nat.lt_of_succ_lt_succ hd)

/-- A last index beyond its axis outweighs all others. -/
theorem count_le_index : ∀ {n : Nat} {count i : Fin n → Nat} {d : Fin n}, d.val + 1 = n →
    count d ≤ i d → Numbering.count (List.ofFn count) ≤ index (List.ofFn count) (List.ofFn i)
  | 1, count, i, d, _, h => by
    obtain rfl : d = 0 := Subsingleton.elim d 0
    simpa [Numbering.count, index] using h
  | n + 2, count, i, d, last, h => by
    obtain ⟨k, rfl⟩ := Fin.exists_succ_eq.mpr (show d ≠ 0 by rintro rfl; simp at last)
    have rest : Numbering.count (List.ofFn fun d : Fin (n + 1) => count d.succ) ≤
        index (List.ofFn fun d => count d.succ) (List.ofFn fun d => i d.succ) :=
      count_le_index (d := k) (Nat.succ.inj last) h
    rw [List.ofFn_succ, List.ofFn_succ (f := i), Numbering.count, index]
    exact (Nat.mul_le_mul_left _ rest).trans (Nat.le_add_left _ _)

section
variable {n number : Nat} {count i : Fin n → Nat}

theorem lt_count_iff (axes : 0 < n) (position : position (List.ofFn count) number = List.ofFn i) :
    number < Numbering.count (List.ofFn count) ↔ ∀ d, i d < count d := by
  have nonempty : List.ofFn count ≠ [] := by
    simpa using axes.ne'
  rw [← onGrid_ofFn, ← position]
  refine ⟨position_onGrid, fun onGrid => ?_⟩
  have below := index_lt onGrid
  rwa [index_position nonempty] at below

/-- Beyond the grid it is the last index that is beyond its axis. -/
theorem exists_last (axes : 0 < n) (positive : ∀ d, 0 < count d)
    (position : position (List.ofFn count) number = List.ofFn i)
    (beyond : Numbering.count (List.ofFn count) ≤ number) :
    ∃ d : Fin n, d.val + 1 = n ∧ count d ≤ i d := by
  obtain ⟨j, same, within⟩ := exists_open positive number
  obtain rfl : i = j := List.ofFn_injective (position.symm.trans same)
  obtain ⟨d, outside⟩ := not_forall.mp (mt (lt_count_iff axes position).mpr beyond.not_gt)
  refine ⟨d, ?_, not_lt.mp outside⟩
  by_contra inner
  exact outside (within d (by omega))

end
end Numbering

theorem Calc.result_foldlM_eq_none {α β : Type} {f : β → α → Calc β} {xs : List α} {x : α}
    (hx : x ∈ xs) (h : ∀ b, (f b x).result = none) (b : β) : (xs.foldlM f b).result = none := by
  induction xs generalizing b with
  | nil => cases hx
  | cons y ys ih =>
    rw [List.foldlM_cons, result_bind]
    rcases List.mem_cons.mp hx with rfl | hx
    · rw [h, Option.bind_none]
    · rw [Option.bind_eq_none_iff]
      exact fun b' _ => ih hx b'

namespace Grid

section
variable {K : Type} (g : Grid K)

theorem position_cellOn (e : Nat) :
    Numbering.position (List.ofFn fun d => (g.axis d).cells) e = List.ofFn (g.cellOn e) := by
  rw [← g.cellCounts_eq_ofFn]
  exact g.elementPosition_eq e

theorem position_nodeOn (n : Nat) :
    Numbering.position (List.ofFn fun d => (g.axis d).cells + 1) n = List.ofFn (g.nodeOn n) := by
  rw [← g.nodeCounts_eq_ofFn]
  exact g.nodePosition_eq n

theorem lt_elementCount_iff (e : Nat) :
    e < g.elementCount ↔ ∀ d, g.cellOn e d < (g.axis d).cells := by
  rw [elementCount, g.cellCounts_eq_ofFn]
  exact Numbering.lt_count_iff g.dim_pos (g.position_cellOn e)

theorem lt_nodeCount_iff (n : Nat) :
    n < g.nodeCount ↔ ∀ d, g.nodeOn n d < (g.axis d).cells + 1 := by
  rw [nodeCount, g.nodeCounts_eq_ofFn]
  exact Numbering.lt_count_iff g.dim_pos (g.position_nodeOn n)

theorem elementPosition_elementIndex {p : Fin g.dim → Nat}
    (inner : ∀ d, d.val + 1 < g.dim → p d < (g.axis d).cells) :
    g.elementPosition (g.elementIndex (List.ofFn p)) = List.ofFn p := by
  rw [elementPosition, elementIndex, g.cellCounts_eq_ofFn]
  exact Numbering.position_index_of_open inner

theorem nodePosition_nodeIndex {p : Fin g.dim → Nat}
    (inner : ∀ d, d.val + 1 < g.dim → p d < (g.axis d).cells + 1) :
    g.nodePosition (g.nodeIndex (List.ofFn p)) = List.ofFn p := by
  rw [nodePosition, nodeIndex, g.nodeCounts_eq_ofFn]
  exact Numbering.position_index_of_open inner

/-! ## Elements and nodes -/

theorem exists_cornerNode_beyond {e : Nat} (beyond : g.elementCount ≤ e) :
    ∃ corner ∈ g.corners, g.nodeCount ≤ g.cornerNode e corner := by
  rw [elementCount, g.cellCounts_eq_ofFn] at beyond
  obtain ⟨d, last, outside⟩ :=
    Numbering.exists_last g.dim_pos (fun d => (g.axis d).cells_pos) (g.position_cellOn e) beyond
  -- the corner on the upper side of every axis, so also of the last one
  refine ⟨List.ofFn fun _ => true, Numbering.mem_corners _, ?_⟩
  rw [g.cornerNode_eq e, nodeCount, nodeIndex, g.nodeCounts_eq_ofFn]
  exact Numbering.count_le_index last (Nat.succ_le_succ outside)

theorem le_of_mem_nodeElements {n e : Nat} (beyond : g.nodeCount ≤ n) (he : e ∈ g.nodeElements n) :
    g.elementCount ≤ e := by
  rw [nodeCount, g.nodeCounts_eq_ofFn] at beyond
  obtain ⟨d, last, outside⟩ :=
    Numbering.exists_last g.dim_pos (fun _ => Nat.succ_pos _) (g.position_nodeOn n) beyond
  simp only [g.nodeElements_eq n, List.mem_map, Numbering.mem_choices_ofFn] at he
  obtain ⟨_, ⟨j, rfl, touching⟩, rfl⟩ := he
  have cell : (g.axis d).cells ≤ j d := by
    have side := touching d
    simp only [Numbering.touching, List.mem_append, List.mem_ite_nil_right, List.mem_singleton] at side
    omega
  rw [elementCount, elementIndex, g.cellCounts_eq_ofFn]
  exact Numbering.count_le_index last cell

theorem mem_gather_iff (n e : Nat) (buffer : List Nat) :
    e ∈ ((g.gather n).run buffer).2 ↔ e ∈ g.nodeElements n := by
  rw [run_gather_eq, List.mem_mergeSort, List.mem_reverse]

end

theorem derivativesIn_eq_none {K : Type} [Scalar K] (f : NodalField K) {e : Nat}
    (beyond : f.grid.elementCount ≤ e) (ξ : List K) : (f.derivativesIn e ξ).result = none := by
  obtain ⟨corner, hc, hn⟩ := f.grid.exists_cornerNode_beyond beyond
  have nothing : f.rows[f.grid.cornerNode e corner]? = none := Vector.getElem?_eq_none hn
  rw [NodalField.derivativesIn, Calc.result_bind, Calc.result_foldlM_eq_none hc, Option.bind_none]
  intro rows
  rw [Calc.result_bind, nothing]
  rfl

/-- Every node and every element has a position, and every position whose indices, but for the last,
are on their axes is that of one node and of one element; these are on the grid exactly if all
indices are. So nothing beyond the grid stands for something on it: an element beyond it has a node
beyond it, and derivatives cannot be had there, and at a node beyond it only such elements meet. -/
theorem numbering_bijective {K : Type} [Scalar K] (g : Grid K) :
    (∀ n, g.nodeIndex (g.nodePosition n) = n ∧ g.nodePosition n = List.ofFn (g.nodeOn n) ∧
      (n < g.nodeCount ↔ ∀ d, g.nodeOn n d < (g.axis d).cells + 1)) ∧
    (∀ e, g.elementIndex (g.elementPosition e) = e ∧ g.elementPosition e = List.ofFn (g.cellOn e) ∧
      (e < g.elementCount ↔ ∀ d, g.cellOn e d < (g.axis d).cells)) ∧
    (∀ p : Fin g.dim → Nat,
      ((∀ d, d.val + 1 < g.dim → p d < (g.axis d).cells + 1) →
        g.nodePosition (g.nodeIndex (List.ofFn p)) = List.ofFn p) ∧
      ((∀ d, d.val + 1 < g.dim → p d < (g.axis d).cells) →
        g.elementPosition (g.elementIndex (List.ofFn p)) = List.ofFn p)) ∧
    (∀ e, g.elementCount ≤ e → (∃ n ∈ g.elementNodes e, g.nodeCount ≤ n) ∧
      ∀ f : NodalField K, f.grid = g → ∀ ξ, (f.derivativesIn e ξ).result = none) ∧
    ∀ n, g.nodeCount ≤ n → ∀ buffer e,
      e ∈ g.nodeElements n ∨ e ∈ ((g.gather n).run buffer).2 → g.elementCount ≤ e := by
  refine ⟨fun n => ?_, fun e => ?_, fun p => ?_, fun e beyond => ?_, fun n beyond buffer e he => ?_⟩
  · exact ⟨g.nodeIndex_nodePosition n, g.nodePosition_eq n, g.lt_nodeCount_iff n⟩
  · exact ⟨g.elementIndex_elementPosition e, g.elementPosition_eq e, g.lt_elementCount_iff e⟩
  · exact ⟨g.nodePosition_nodeIndex, g.elementPosition_elementIndex⟩
  · obtain ⟨corner, hc, hn⟩ := g.exists_cornerNode_beyond beyond
    refine ⟨⟨_, List.mem_map_of_mem hc, hn⟩, ?_⟩
    rintro f rfl ξ
    exact derivativesIn_eq_none f beyond ξ
  · rw [g.mem_gather_iff, or_self] at he
    exact g.le_of_mem_nodeElements beyond he

/-- The first numbers beyond a grid of two by two cells, and a node far above its first column. -/
theorem numbering_bijective_beyond :
    let axis : Axis Rat := (Axis.make 2 0 1 Nat.two_pos).value
    let g : Grid Rat := ⟨0, [axis, axis], by decide, by decide⟩
    let p : Fin g.dim → Nat := fun d => if d.val = 0 then 0 else 7
    g.elementCount = 4 ∧ g.elementPosition 4 = [0, 2] ∧ (∃ n ∈ g.elementNodes 4, g.nodeCount ≤ n) ∧
      g.nodeCount = 9 ∧ g.nodePosition 9 = [0, 3] ∧ (∀ e ∈ g.nodeElements 9, g.elementCount ≤ e) ∧
      (∀ d, d.val + 1 < g.dim → p d < (g.axis d).cells + 1) ∧
      g.nodePosition (g.nodeIndex (List.ofFn p)) = List.ofFn p := by
  intro axis g p
  have elements : g.elementCount = 4 := by decide
  have nodes : g.nodeCount = 9 := by decide
  have inner : ∀ d, d.val + 1 < g.dim → p d < (g.axis d).cells + 1 := by decide
  obtain ⟨-, -, positions, element, node⟩ := numbering_bijective g
  exact ⟨elements, by decide, (element 4 elements.le).1, nodes, by decide,
    fun e he => node 9 nodes.le [] e (.inl he), inner, (positions p).1 inner⟩

end Grid
end FieldGraph
