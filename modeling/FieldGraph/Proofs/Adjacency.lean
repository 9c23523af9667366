import FieldGraph.Proofs.Positions
import Mathlib.Algebra.Group.Nat.Defs

/-!
# Elements at nodes

An element has the nodes at its corners, and at a node the elements meet that have
it as a corner. Both are told from positions, one axis at a time: on each axis the
node stands at the lower or the upper end of the element's cell. As choices are
made with the last axis slowest, the numbers of either come in ascending order,
and a search through the corners of a node, from above to below, finds the
elements in descending order.
-/

namespace FieldGraph

namespace Numbering

/-! ## Choices -/

theorem mem_choices_ofFn {α : Type} {n : Nat} {lists : Fin n → List α} {t : List α} :
    t ∈ choices (List.ofFn lists) ↔ ∃ x, t = List.ofFn x ∧ ∀ d, x d ∈ lists d := by
  rw [mem_choices]
  constructor
  · intro h
    obtain ⟨x, rfl⟩ := List.exists_eq_ofFn (h.length_eq.trans List.length_ofFn)
    refine ⟨x, rfl, fun d => ?_⟩
    simpa using h.get (i := d.val) (by simp) (by simp)
  · rintro ⟨x, rfl, h⟩
    exact List.forall₂_iff_get.mpr ⟨by simp, fun d _ _ => by simp [h]⟩

theorem choices_ascending {n : Nat} {count : Fin n → Nat} {lists : Fin n → List Nat}
    (ascending : ∀ d, (lists d).Pairwise (· < ·)) (digits : ∀ d, ∀ i ∈ lists d, i < count d) :
    ((choices (List.ofFn lists)).map (index (List.ofFn count))).Pairwise (· < ·) := by
  rw [List.pairwise_map]
  induction n with
  | zero => simp [choices]
  | succ n ih =>
    rw [List.ofFn_succ, List.ofFn_succ, choices, List.pairwise_flatMap]
    constructor
    · intro tail _
      rw [List.pairwise_map]
      exact (ascending 0).imp fun less => Nat.add_lt_add_right less _
    · refine (ih (fun d => ascending d.succ) fun d => digits d.succ).imp fun {p q} less => ?_
      simp only [List.forall_mem_map, index]
      intro i hi j _
      -- the first digit is below its count, so one step in the others outweighs it
      calc i + count 0 * index _ p
        _ < count 0 + count 0 * index _ p := Nat.add_lt_add_right (digits 0 i hi) _
        _ = count 0 * (index _ p + 1) := by rw [Nat.mul_add_one, Nat.add_comm]
        _ ≤ count 0 * index _ q := Nat.mul_le_mul_left _ less
        _ ≤ j + count 0 * index _ q := Nat.le_add_left _ _

/-! ## Corners -/

theorem length_corners (n : Nat) : (corners n).length = 2 ^ n := by
  induction n with
  | zero => rfl
  | succ n ih => simp [corners_succ, List.length_flatMap, ih, Nat.pow_succ]

theorem map_cornerPosition {n : Nat} (i : Fin n → Nat) :
    (corners n).map (cornerPosition (List.ofFn i)) =
      choices (List.ofFn fun d => [i d, i d + 1]) := by
  induction n with
  | zero => rfl
  | succ n ih =>
    rw [List.ofFn_succ, List.ofFn_succ, choices, ← ih, corners_succ]
    simp [cornerPosition, List.flatMap_map, List.map_flatMap]

/-! ## Cells at a node -/

theorem mem_touching {cells i j : Nat} (hi : i < cells + 1) :
    j ∈ touching cells i ↔ j < cells ∧ (i = j ∨ i = j + 1) := by
  simp only [touching, List.mem_append, List.mem_ite_nil_right, List.mem_singleton]
  omega

theorem touching_ascending (cells i : Nat) : (touching cells i).Pairwise (· < ·) := by
  rw [touching, List.pairwise_append]
  refine ⟨?_, ?_, ?_⟩
  · split <;> simp
  · split <;> simp
  · simp only [List.mem_ite_nil_right, List.mem_singleton]
    omega

/-! ## Search -/

/-- The cell below or above a node on an axis, if there is one. -/
def beside (cells i : Nat) (below : Bool) : Option Nat :=
  if below then if 0 < i then some (i - 1) else none
  else if i < cells then some i else none

/-- The cells on one side of a node, unless there is none on some axis. -/
def cellsBeside : List Nat → List Nat → List Bool → Option (List Nat)
  | n :: cells, i :: p, below :: corner =>
    (beside n i below).bind fun j => (cellsBeside cells p corner).map (j :: ·)
  | _, _, _ => some []

theorem filterMap_beside (cells i : Nat) :
    [false, true].filterMap (beside cells i) = (touching cells i).reverse := by
  by_cases below : 0 < i <;> by_cases above : i < cells <;> simp [beside, touching, below, above]

theorem filterMap_cellsBeside : ∀ {cells p : List Nat}, p.length = cells.length →
    (corners cells.length).filterMap (cellsBeside cells p) =
      (choices (cells.zipWith touching p)).reverse
  | [], [], _ => rfl
  | n :: cells, i :: p, h => by
    -- the upper side comes last among the corners and first among the cells
    have ends (tail : List Bool) : [false :: tail, true :: tail].filterMap
        (cellsBeside (n :: cells) (i :: p)) = (cellsBeside cells p tail).toList.flatMap
          fun rest => ((touching n i).map (· :: rest)).reverse := by
      change ([false, true].map (· :: tail)).filterMap _ = _
      simp only [List.filterMap_map, ← List.map_reverse, ← filterMap_beside]
      cases found : cellsBeside cells p tail with
      | none => simp [cellsBeside, found]
      | some rest =>
        have same : cellsBeside (n :: cells) (i :: p) ∘ (· :: tail) =
            fun below => (beside n i below).map (· :: rest) := by
          funext below
          simp [cellsBeside, found, Option.map_eq_bind]
        rw [same, ← List.map_filterMap]
        simp
    have others : ((corners cells.length).flatMap fun tail =>
        (cellsBeside cells p tail).toList) = (choices (cells.zipWith touching p)).reverse := by
      rw [← filterMap_cellsBeside (Nat.succ.inj h), List.filterMap_eq_flatMap_toList]
    rw [List.length_cons, corners_succ, List.filterMap_flatMap, funext ends,
      ← List.flatMap_assoc, others, List.zipWith_cons_cons, choices, List.reverse_flatMap]
    rfl

end Numbering

namespace Grid
variable {K : Type} (g : Grid K)

/-! ## A buffer -/

def push (n : Nat) (corner : List Bool) : StateM (List Nat) Unit :=
  match Numbering.cellsBeside g.cellCounts (g.nodePosition n) corner with
  | some cells => modify (· ++ [g.elementIndex cells])
  | none => pure ()

/-- Gathers the elements at a node in a buffer, which is cleared before and sorted afterwards. -/
def gather (n : Nat) : StateM (List Nat) Unit := do
  set ([] : List Nat)
  g.corners.forM (g.push n)
  modify (·.mergeSort)

theorem run_push (n : Nat) (corner : List Bool) (buffer : List Nat) :
    ((g.push n corner).run buffer).2 = buffer ++
      ((Numbering.cellsBeside g.cellCounts (g.nodePosition n) corner).map g.elementIndex).toList := by
  unfold push
  cases Numbering.cellsBeside g.cellCounts (g.nodePosition n) corner with
  | none => exact (List.append_nil buffer).symm
  | some cells => rfl

theorem run_forM_push (n : Nat) (corners : List (List Bool)) (buffer : List Nat) :
    ((corners.forM (g.push n)).run buffer).2 = buffer ++
      (corners.filterMap (Numbering.cellsBeside g.cellCounts (g.nodePosition n))).map
        g.elementIndex := by
  induction corners generalizing buffer with
  | nil => exact (List.append_nil buffer).symm
  | cons corner corners ih =>
    change ((corners.forM (g.push n)).run ((g.push n corner).run buffer).2).2 = _
    rw [ih, run_push]
    cases h : Numbering.cellsBeside g.cellCounts (g.nodePosition n) corner <;> simp [h]

/-! ## Elements and nodes -/

variable {n e : Nat}

theorem nodeElements_ascending (hn : n < g.nodeCount) : (g.nodeElements n).Pairwise (· < ·) := by
  rw [g.nodeElements_eq n]
  unfold elementIndex
  rw [g.cellCounts_eq_ofFn]
  exact Numbering.choices_ascending (fun d => Numbering.touching_ascending _ _)
    fun d i hi => Numbering.touching_lt (g.nodeOn_lt hn d) hi

theorem run_gather_eq (n : Nat) (buffer : List Nat) :
    ((g.gather n).run buffer).2 = (g.nodeElements n).reverse.mergeSort := by
  have positions : (g.nodePosition n).length = g.cellCounts.length := by
    rw [g.length_nodePosition, g.length_cellCounts]
  have found : ((g.corners.forM (g.push n)).run []).2 = (g.nodeElements n).reverse := by
    rw [run_forM_push, corners, ← g.length_cellCounts, Numbering.filterMap_cellsBeside positions,
      List.nil_append, List.map_reverse]
    rfl
  change (((g.corners.forM (g.push n)).run []).2).mergeSort = _
  rw [found]

theorem run_gather (hn : n < g.nodeCount) (buffer : List Nat) :
    ((g.gather n).run buffer).2 = g.nodeElements n := by
  -- sorting turns the list around, as there is only one ascending order
  rw [run_gather_eq]
  have sorted : (g.nodeElements n).reverse.mergeSort.Pairwise fun i j => decide (i ≤ j) = true :=
    List.pairwise_mergeSort (by simp; omega) (by simp; omega) _
  refine List.Perm.eq_of_pairwise (fun _ _ _ _ => Nat.le_antisymm)
    (sorted.imp of_decide_eq_true) ((g.nodeElements_ascending hn).imp Nat.le_of_lt) ?_
  exact (List.mergeSort_perm _ _).trans (List.reverse_perm _)

theorem elementNodes_eq (e : Nat) : g.elementNodes e =
    (Numbering.choices (List.ofFn fun d => [g.cellOn e d, g.cellOn e d + 1])).map g.nodeIndex := by
  rw [← Numbering.map_cornerPosition, ← g.elementPosition_eq e, List.map_map]
  rfl

theorem elementNodes_ascending (he : e < g.elementCount) :
    (g.elementNodes e).Pairwise (· < ·) := by
  rw [g.elementNodes_eq e]
  unfold nodeIndex
  rw [g.nodeCounts_eq_ofFn]
  refine Numbering.choices_ascending (fun d => by simp) fun d i hi => ?_
  have := g.cellOn_lt he d
  simp only [List.mem_cons, List.not_mem_nil, or_false] at hi
  omega

theorem mem_elementNodes_iff (hn : n < g.nodeCount) (he : e < g.elementCount) :
    n ∈ g.elementNodes e ↔
      ∀ d, g.nodeOn n d = g.cellOn e d ∨ g.nodeOn n d = g.cellOn e d + 1 := by
  simp only [g.elementNodes_eq e, List.mem_map, Numbering.mem_choices_ofFn]
  constructor
  · rintro ⟨_, ⟨i, rfl, hi⟩, rfl⟩
    have onGrid (d : Fin g.dim) : i d < (g.axis d).cells + 1 := by
      have := g.cellOn_lt he d
      have := hi d
      simp only [List.mem_cons, List.not_mem_nil, or_false] at this
      omega
    simpa [(g.nodeOn_nodeIndex onGrid).2] using hi
  · intro ends
    exact ⟨_, ⟨g.nodeOn n, rfl, by simpa using ends⟩, g.nodeIndex_nodeOn n⟩

theorem mem_nodeElements_iff (hn : n < g.nodeCount) :
    e ∈ g.nodeElements n ↔ e < g.elementCount ∧ n ∈ g.elementNodes e := by
  have touches (j : Fin g.dim → Nat) :
      (∀ d, j d ∈ Numbering.touching (g.axis d).cells (g.nodeOn n d)) ↔
        (∀ d, j d < (g.axis d).cells) ∧ ∀ d, g.nodeOn n d = j d ∨ g.nodeOn n d = j d + 1 := by
    simp only [Numbering.mem_touching (g.nodeOn_lt hn _), forall_and]
  simp only [g.nodeElements_eq n, List.mem_map, Numbering.mem_choices_ofFn]
  constructor
  · rintro ⟨_, ⟨j, rfl, hj⟩, rfl⟩
    obtain ⟨inside, ends⟩ := (touches j).mp hj
    obtain ⟨he, cells⟩ := g.cellOn_elementIndex inside
    refine ⟨he, (g.mem_elementNodes_iff hn he).mpr ?_⟩
    rwa [cells]
  · rintro ⟨he, corner⟩
    have ends := (g.mem_elementNodes_iff hn he).mp corner
    exact ⟨_, ⟨g.cellOn e, rfl, (touches _).mpr ⟨g.cellOn_lt he, ends⟩⟩, g.elementIndex_cellOn e⟩

/-- At a node meet exactly the elements that have it as a corner. They are listed in ascending order,
also where they are gathered in a buffer, whatever it held. The corners of an element are nodes, all
different, one for each choice of a side on every axis. -/
theorem adjacency_exact :
    (∀ n < g.nodeCount, ∀ buffer : List Nat, ((g.gather n).run buffer).2 = g.nodeElements n ∧
      g.nodeElements n ≠ [] ∧ (g.nodeElements n).Pairwise (· < ·) ∧
        ∀ e, e ∈ g.nodeElements n ↔ e < g.elementCount ∧ n ∈ g.elementNodes e) ∧
    ∀ e < g.elementCount, (g.elementNodes e).length = 2 ^ g.dim ∧ (g.elementNodes e).Nodup ∧
      ∀ n ∈ g.elementNodes e, n < g.nodeCount := by
  constructor
  · intro n hn buffer
    exact ⟨g.run_gather hn buffer, g.nodeElements_ne_nil n, g.nodeElements_ascending hn,
      fun e => g.mem_nodeElements_iff hn⟩
  · intro e he
    refine ⟨?_, (g.elementNodes_ascending he).imp Nat.ne_of_lt, ?_⟩
    · rw [elementNodes, List.length_map, corners, Numbering.length_corners]
    · intro n hn
      obtain ⟨corner, hc, rfl⟩ := List.mem_map.mp hn
      exact g.cornerNode_lt he hc

/-- A node on the upper side of the first axis, in the middle of the second. -/
theorem adjacency_exact_side :
    let axis (cells : Nat) (h : 0 < cells) : Axis Rat := (Axis.make cells 0 1 h).value
    let g : Grid Rat := ⟨0, [axis 1 (by decide), axis 2 (by decide)], by decide, by decide⟩
    3 < g.nodeCount ∧ 1 < g.elementCount ∧ ((g.gather 3).run [77, 88]).2 = [0, 1] ∧
      3 ∈ g.elementNodes 1 ∧ (g.elementNodes 1).length = 4 ∧ (g.elementNodes 1).Nodup := by
  intro axis g
  have hn : 3 < g.nodeCount := by decide
  have he : 1 < g.elementCount := by decide
  have listed : g.nodeElements 3 = [0, 1] := by decide
  obtain ⟨gathered, -, -, meets⟩ := (adjacency_exact g).1 3 hn [77, 88]
  obtain ⟨length, distinct, -⟩ := (adjacency_exact g).2 1 he
  exact ⟨hn, he, gathered.trans listed, ((meets 1).mp (by simp [listed])).2, length, distinct⟩

end Grid
end FieldGraph
