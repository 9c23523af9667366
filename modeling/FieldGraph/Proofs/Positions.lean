import FieldGraph.Proofs.GridBounds
import Mathlib.Data.List.OfFn

/-!
# Positions and their numbers

On a grid with at least one axis every number is the number of its position, and
a position on the grid is the position of its number: no two of them share one.
So elements and nodes can be taken apart into one index for each axis, and the
node at a corner of an element is where the element is, one step further on the
axes on whose upper side the corner lies.
-/

theorem List.exists_eq_ofFn {α : Type} {xs : List α} {n : Nat} (h : xs.length = n) :
    ∃ f : Fin n → α, xs = List.ofFn f := by
  subst h
  exact ⟨xs.get, (List.ofFn_get xs).symm⟩

namespace FieldGraph

namespace Numbering

theorem index_position : ∀ {counts : List Nat}, counts ≠ [] →
    ∀ i, index counts (position counts i) = i
  | [], h, _ => absurd rfl h
  | [n], _, i => by simp [position, index]
  | n :: m :: counts, _, i => by
    rw [position, index, index_position (List.cons_ne_nil m counts)]
    exact Nat.mod_add_div i n

theorem position_index : ∀ {counts p : List Nat}, OnGrid counts p →
    position counts (index counts p) = p
  | [], _, .nil => rfl
  | [n], _, .cons _ .nil => by simp [position, index]
  | n :: m :: counts, i :: p, .cons hi hp => by
    have hn : 0 < n := Nat.lt_of_le_of_lt (Nat.zero_le i) hi
    rw [index, position, Nat.add_mul_mod_self_left, Nat.mod_eq_of_lt hi,
      Nat.add_mul_div_left _ _ hn, Nat.div_eq_of_lt hi, Nat.zero_add, position_index hp]

theorem index_inj {counts p q : List Nat} (hp : OnGrid counts p) (hq : OnGrid counts q) :
    index counts p = index counts q ↔ p = q := by
  constructor
  · intro h
    rw [← position_index hp, h, position_index hq]
  · exact congrArg _

theorem index_mono {counts p q : List Nat} (h : List.Forall₂ (· ≤ ·) p q) :
    index counts p ≤ index counts q := by
  induction h generalizing counts with
  | nil => exact le_rfl
  | cons hi _ ih =>
    cases counts with
    | nil => exact le_rfl
    | cons n counts => exact Nat.add_le_add hi (Nat.mul_le_mul_left n ih)

theorem onGrid_ofFn {n : Nat} {count i : Fin n → Nat} :
    OnGrid (List.ofFn count) (List.ofFn i) ↔ ∀ d, i d < count d := by
  induction n with
  | zero => simp [OnGrid]
  | succ n ih =>
    rw [List.ofFn_succ, List.ofFn_succ, Fin.forall_fin_succ, ← ih]
    exact List.forall₂_cons

theorem cornerPosition_ofFn {n : Nat} (i : Fin n → Nat) (c : Fin n → Bool) :
    cornerPosition (List.ofFn i) (List.ofFn c) = List.ofFn fun d => i d + (c d).toNat := by
  apply List.ext_getElem <;> simp [cornerPosition]

theorem mem_corners {n : Nat} (c : Fin n → Bool) : List.ofFn c ∈ corners n := by
  induction n with
  | zero => simp [corners, choices]
  | succ n ih =>
    rw [List.ofFn_succ]
    refine mem_choices.mpr (.cons ?_ (mem_choices.mp (ih _)))
    cases c 0 <;> simp

end Numbering

namespace Grid
variable {K : Type} (g : Grid K)

theorem cellCounts_ne_nil : g.cellCounts ≠ [] := by
  have h := g.dim_pos
  intro nil
  rw [show g.axes.length = g.cellCounts.length from g.length_cellCounts.symm, nil] at h
  cases h

theorem elementIndex_elementPosition (e : Nat) : g.elementIndex (g.elementPosition e) = e :=
  Numbering.index_position g.cellCounts_ne_nil e

/-! ## One index for each axis -/

def axis (d : Fin g.dim) : Axis K := g.axes.get d

/-- Where an element is along an axis. -/
def cellOn (e : Nat) (d : Fin g.dim) : Nat := (g.elementPosition e).getD d 0

/-- Where a node is along an axis. -/
def nodeOn (n : Nat) (d : Fin g.dim) : Nat := (g.nodePosition n).getD d 0

theorem axes_eq_ofFn : g.axes = List.ofFn g.axis := (List.ofFn_get g.axes).symm

theorem cellCounts_eq_ofFn : g.cellCounts = List.ofFn fun d => (g.axis d).cells := by
  calc g.cellCounts
    _ = (List.ofFn g.axis).map (·.cells) := congrArg _ g.axes_eq_ofFn
    _ = List.ofFn fun d => (g.axis d).cells := List.map_ofFn ..

theorem nodeCounts_eq_ofFn : g.nodeCounts = List.ofFn fun d => (g.axis d).cells + 1 := by
  rw [nodeCounts_eq, cellCounts_eq_ofFn, List.map_ofFn]
  rfl

theorem elementPosition_eq (e : Nat) : g.elementPosition e = List.ofFn (g.cellOn e) := by
  obtain ⟨i, hi⟩ : ∃ i : Fin g.dim → Nat, g.elementPosition e = List.ofFn i :=
    List.exists_eq_ofFn (g.length_elementPosition e)
  have same : g.cellOn e = i := by
    funext d
    simp [cellOn, hi]
  rw [same, hi]

theorem cellOn_lt {e : Nat} (he : e < g.elementCount) (d : Fin g.dim) :
    g.cellOn e d < (g.axis d).cells := by
  have h := g.elementPosition_onGrid he
  rw [g.elementPosition_eq e, g.cellCounts_eq_ofFn] at h
  exact Numbering.onGrid_ofFn.mp h d

theorem nodePosition_onGrid {n : Nat} (hn : n < g.nodeCount) :
    Numbering.OnGrid g.nodeCounts (g.nodePosition n) := Numbering.position_onGrid hn

theorem nodePosition_eq (n : Nat) : g.nodePosition n = List.ofFn (g.nodeOn n) := by
  obtain ⟨i, hi⟩ := List.exists_eq_ofFn (g.length_nodePosition n)
  have same : g.nodeOn n = i := by
    funext d
    simp [nodeOn, hi]
  rw [same, hi]

theorem nodeOn_lt {n : Nat} (hn : n < g.nodeCount) (d : Fin g.dim) :
    g.nodeOn n d < (g.axis d).cells + 1 := by
  have h := g.nodePosition_onGrid hn
  rw [g.nodePosition_eq n, g.nodeCounts_eq_ofFn] at h
  exact Numbering.onGrid_ofFn.mp h d

theorem elementIndex_cellOn (e : Nat) : g.elementIndex (List.ofFn (g.cellOn e)) = e := by
  rw [← g.elementPosition_eq e, elementIndex_elementPosition]

theorem cellOn_elementIndex {i : Fin g.dim → Nat} (hi : ∀ d, i d < (g.axis d).cells) :
    g.elementIndex (List.ofFn i) < g.elementCount ∧ g.cellOn (g.elementIndex (List.ofFn i)) = i := by
  have onGrid : Numbering.OnGrid g.cellCounts (List.ofFn i) := by
    rw [g.cellCounts_eq_ofFn]
    exact Numbering.onGrid_ofFn.mpr hi
  refine ⟨Numbering.index_lt onGrid, ?_⟩
  funext d
  rw [cellOn, elementPosition, elementIndex, Numbering.position_index onGrid]
  simp

theorem nodeIndex_nodePosition (n : Nat) : g.nodeIndex (g.nodePosition n) = n := by
  have axes : g.nodeCounts ≠ [] := by
    rw [nodeCounts_eq]
    simpa using g.cellCounts_ne_nil
  exact Numbering.index_position axes n

theorem nodeIndex_nodeOn (n : Nat) : g.nodeIndex (List.ofFn (g.nodeOn n)) = n := by
  rw [← g.nodePosition_eq n, nodeIndex_nodePosition]

theorem nodeOn_nodeIndex {i : Fin g.dim → Nat} (hi : ∀ d, i d < (g.axis d).cells + 1) :
    g.nodeIndex (List.ofFn i) < g.nodeCount ∧ g.nodeOn (g.nodeIndex (List.ofFn i)) = i := by
  have onGrid : Numbering.OnGrid g.nodeCounts (List.ofFn i) := by
    rw [g.nodeCounts_eq_ofFn]
    exact Numbering.onGrid_ofFn.mpr hi
  refine ⟨Numbering.index_lt onGrid, ?_⟩
  funext d
  rw [nodeOn, nodePosition, nodeIndex, Numbering.position_index onGrid]
  simp

theorem cornerNode_eq (e : Nat) (c : Fin g.dim → Bool) :
    g.cornerNode e (List.ofFn c) = g.nodeIndex (List.ofFn fun d => g.cellOn e d + (c d).toNat) := by
  rw [cornerNode, g.elementPosition_eq e, Numbering.cornerPosition_ofFn]

theorem nodeOn_cornerNode {e : Nat} (he : e < g.elementCount) (c : Fin g.dim → Bool) :
    g.nodeOn (g.cornerNode e (List.ofFn c)) = fun d => g.cellOn e d + (c d).toNat := by
  rw [g.cornerNode_eq e]
  refine (g.nodeOn_nodeIndex fun d => ?_).2
  exact Nat.add_lt_add_of_lt_of_le (g.cellOn_lt he d) (c d).toNat_le

/-- The elements at a node, from the cells that touch it on each axis. -/
theorem nodeElements_eq (n : Nat) :
    g.nodeElements n = (Numbering.choices (List.ofFn fun d =>
      Numbering.touching (g.axis d).cells (g.nodeOn n d))).map g.elementIndex := by
  rw [nodeElements, g.cellCounts_eq_ofFn, g.nodePosition_eq n]
  congr 2
  apply List.ext_getElem <;> simp

end Grid
end FieldGraph
