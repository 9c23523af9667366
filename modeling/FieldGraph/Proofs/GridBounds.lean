import FieldGraph.Proofs.Delivers
import FieldGraph.Mesh.Grid
import Mathlib.Data.List.Forall2

/-!
# Bounds of grid numbers

Numbers below the count of a grid stand for positions on it, and positions on it
have numbers below the count. Hence the corners of an element are nodes of the
grid, the elements that meet at a node are elements of it and there is at least
one of them, and a point that is found lies in an element of the grid.
-/

namespace FieldGraph

namespace Numbering

def OnGrid (counts position : List Nat) : Prop := List.Forall₂ (fun i n => i < n) position counts

theorem length_position : ∀ (counts : List Nat) (i : Nat), (position counts i).length = counts.length
  | [], _ => rfl
  | [_], _ => rfl
  | _ :: m :: counts, _ => congrArg (· + 1) (length_position (m :: counts) _)

theorem position_onGrid : ∀ {counts : List Nat} {i : Nat}, i < count counts →
    OnGrid counts (position counts i)
  | [], _, _ => .nil
  | [n], i, h => .cons (by simpa [count] using h) .nil
  | n :: m :: counts, i, h => by
    have hn : 0 < n := Nat.pos_of_ne_zero fun h0 => by simp [count, h0] at h
    have hi : i / n < count (m :: counts) := Nat.div_lt_of_lt_mul h
    exact .cons (Nat.mod_lt i hn) (position_onGrid hi)

theorem index_lt {counts p : List Nat} (h : OnGrid counts p) : index counts p < count counts := by
  induction h with
  | nil => exact Nat.one_pos
  | @cons i n p counts hi _ ih =>
    calc i + n * index counts p
      _ < n + n * index counts p := Nat.add_lt_add_right hi _
      _ = n * (index counts p + 1) := by rw [Nat.mul_add_one, Nat.add_comm]
      _ ≤ n * count counts := Nat.mul_le_mul_left n ih

theorem length_lt_count {cells : List Nat} (h : ∀ n ∈ cells, 0 < n) :
    cells.length < count (cells.map (· + 1)) := by
  induction cells with
  | nil => exact Nat.one_pos
  | cons n cells ih =>
    have hn := h n List.mem_cons_self
    have hrest := ih fun m hm => h m (List.mem_cons_of_mem _ hm)
    calc cells.length + 1
      _ < 2 * count (cells.map (· + 1)) := by omega
      _ ≤ (n + 1) * count (cells.map (· + 1)) := Nat.mul_le_mul_right _ (by omega)

/-! ## Choices -/

theorem mem_choices {α : Type} {lists : List (List α)} {t : List α} :
    t ∈ choices lists ↔ List.Forall₂ (· ∈ ·) t lists := by
  induction lists generalizing t with
  | nil => simp [choices]
  | cons xs rest ih =>
    simp only [choices, List.mem_flatMap, List.mem_map, ih]
    constructor
    · rintro ⟨tail, htail, x, hx, rfl⟩
      exact .cons hx htail
    · rintro (_ | ⟨hx, htail⟩)
      exact ⟨_, htail, _, hx, rfl⟩

theorem choices_ne_nil {α : Type} {lists : List (List α)} (h : ∀ xs ∈ lists, xs ≠ []) :
    choices lists ≠ [] := by
  induction lists with
  | nil => exact List.cons_ne_nil _ _
  | cons xs rest ih =>
    obtain ⟨x, hx⟩ := List.exists_mem_of_ne_nil xs (h xs List.mem_cons_self)
    obtain ⟨tail, htail⟩ := List.exists_mem_of_ne_nil _ (ih fun ys hy => h ys (List.mem_cons_of_mem _ hy))
    exact List.ne_nil_of_mem (mem_choices.mpr (.cons hx (mem_choices.mp htail)))

theorem corners_succ (n : Nat) :
    corners (n + 1) = (corners n).flatMap fun tail => [false :: tail, true :: tail] := rfl

theorem length_of_mem_corners {dim : Nat} {corner : List Bool} (h : corner ∈ corners dim) :
    corner.length = dim := by
  rw [(mem_choices.mp h).length_eq, List.length_replicate]

theorem cornerPosition_onGrid {cells p : List Nat} (hp : OnGrid cells p) {corner : List Bool}
    (hc : corner.length = cells.length) :
    OnGrid (cells.map (· + 1)) (cornerPosition p corner) := by
  induction hp generalizing corner with
  | nil => exact .nil
  | cons hi _ ih =>
    cases corner with
    | nil => cases hc
    | cons upper corner =>
      refine .cons ?_ (ih (Nat.succ.inj hc))
      exact Nat.add_lt_add_of_lt_of_le hi upper.toNat_le

/-! ## Cells at a node -/

theorem touching_lt {cells i e : Nat} (hi : i < cells + 1) (he : e ∈ touching cells i) :
    e < cells := by
  simp only [touching, List.mem_append, List.mem_ite_nil_right, List.mem_singleton] at he
  omega

theorem touching_ne_nil {cells i : Nat} (hc : 0 < cells) : touching cells i ≠ [] := by
  simp only [touching, ne_eq, List.append_eq_nil_iff, ite_eq_right_iff, List.cons_ne_nil, imp_false]
  omega

theorem choice_onGrid {cells p : List Nat} (hp : OnGrid (cells.map (· + 1)) p) {t : List Nat}
    (ht : t ∈ choices (cells.zipWith touching p)) : OnGrid cells t := by
  replace ht := mem_choices.mp ht
  induction cells generalizing p t with
  | nil => cases ht; exact .nil
  | cons n cells ih =>
    obtain _ | ⟨hi, hp⟩ := hp
    obtain _ | ⟨he, ht⟩ := ht
    exact .cons (touching_lt hi he) (ih hp ht)

theorem touching_choices_ne_nil {cells : List Nat} (hc : ∀ n ∈ cells, 0 < n) (p : List Nat) :
    choices (cells.zipWith touching p) ≠ [] := by
  refine choices_ne_nil fun xs hxs => ?_
  obtain ⟨n, i, hn, rfl⟩ : ∃ n i, n ∈ cells ∧ touching n i = xs := by
    obtain ⟨k, hk, rfl⟩ := List.getElem_of_mem hxs
    rw [List.getElem_zipWith]
    exact ⟨_, _, List.getElem_mem _, rfl⟩
  exact touching_ne_nil (hc n hn)

end Numbering

/-- Scalars whose whole part is kept below the bound that is asked for. -/
class LawfulScalar (K : Type) [Scalar K] : Prop where
  floorWithin_le (last : Nat) (x : K) : (Scalar.floorWithin last x).value ≤ last

instance : LawfulScalar Binary64 := ⟨Binary64.floorWithin_le⟩

instance : LawfulScalar Rat := ⟨fun _ _ => Nat.min_le_right _ _⟩

namespace Axis
variable {K : Type} [Scalar K] [LawfulScalar K]

theorem cellOf_lt (a : Axis K) (x : K) : (a.cellOf x).value < a.cells := by
  have h : (a.cellOf x).value ≤ a.cells - 1 := LawfulScalar.floorWithin_le _ _
  have hpos := a.cells_pos
  omega

theorem lt_of_locate {a : Axis K} {x : K} {i : Nat} (h : (a.locate x).value = some i) :
    i < a.cells := by
  change (if (a.covers x).value then _ else _ : Flagged (Option Nat)).value = _ at h
  split at h
  · cases h
    exact cellOf_lt a x
  · cases h

end Axis

namespace Grid

section
variable {K : Type} (g : Grid K)

theorem nodeCounts_eq : g.nodeCounts = g.cellCounts.map (· + 1) := by
  simp only [nodeCounts, cellCounts, List.map_map]
  rfl

theorem cellCounts_pos : ∀ n ∈ g.cellCounts, 0 < n := by
  intro n hn
  obtain ⟨a, -, rfl⟩ := List.mem_map.mp hn
  exact a.cells_pos

theorem length_cellCounts : g.cellCounts.length = g.dim := List.length_map _

theorem elementPosition_onGrid {e : Nat} (he : e < g.elementCount) :
    Numbering.OnGrid g.cellCounts (g.elementPosition e) := Numbering.position_onGrid he

theorem length_elementPosition (e : Nat) : (g.elementPosition e).length = g.axes.length :=
  (Numbering.length_position _ e).trans g.length_cellCounts

theorem length_nodePosition (n : Nat) : (g.nodePosition n).length = g.dim :=
  (Numbering.length_position _ n).trans (List.length_map _)

theorem cornerNode_lt {e : Nat} (he : e < g.elementCount) {corner : List Bool}
    (hc : corner ∈ g.corners) : g.cornerNode e corner < g.nodeCount := by
  have hlen : corner.length = g.cellCounts.length := by
    rw [g.length_cellCounts]
    exact Numbering.length_of_mem_corners hc
  refine Numbering.index_lt ?_
  rw [nodeCounts_eq]
  exact Numbering.cornerPosition_onGrid (g.elementPosition_onGrid he) hlen

theorem nodeElements_lt {n : Nat} (hn : n < g.nodeCount) {e : Nat} (he : e ∈ g.nodeElements n) :
    e < g.elementCount := by
  obtain ⟨t, ht, rfl⟩ := List.mem_map.mp he
  have hp : Numbering.OnGrid (g.cellCounts.map (· + 1)) (g.nodePosition n) := by
    rw [← nodeCounts_eq]
    exact Numbering.position_onGrid hn
  exact Numbering.index_lt (Numbering.choice_onGrid hp ht)

theorem nodeElements_ne_nil (n : Nat) : g.nodeElements n ≠ [] := by
  intro h
  exact Numbering.touching_choices_ne_nil g.cellCounts_pos _ (List.map_eq_nil_iff.mp h)

theorem dim_lt_nodeCount : g.dim < g.nodeCount := by
  rw [nodeCount, nodeCounts_eq, ← g.length_cellCounts]
  exact Numbering.length_lt_count g.cellCounts_pos

end

/-! ## Points and vertices -/

theorem length_of_vertex {K : Type} {g : Grid K} {n : Nat} {x : List K}
    (h : g.vertex n = some x) : x.length = g.dim := by
  rw [Option.length_of_mapM h, List.length_zip, g.length_nodePosition]
  exact Nat.min_self _

theorem value_locateAxes_cons {K : Type} [Scalar K] (a : Axis K) (axes : List (Axis K)) (x : K)
    (p : List K) :
    (locateAxes (a :: axes) (x :: p)).value =
      (a.locate x).value.bind fun i => (locateAxes axes p).value.map (i :: ·) := by
  simp only [locateAxes, Flagged.value_bind]
  cases (a.locate x).value <;> rfl

section
variable {K : Type} [Scalar K] [LawfulScalar K]

theorem locateAxes_onGrid : ∀ {axes : List (Axis K)} {p : List K} {cells : List Nat},
    p.length = axes.length → (locateAxes axes p).value = some cells →
      Numbering.OnGrid (axes.map (·.cells)) cells
  | [], [], _, _, h => by cases h; exact .nil
  | a :: axes, x :: p, _, hlen, h => by
    rw [value_locateAxes_cons] at h
    obtain ⟨i, hi, h⟩ := Option.bind_eq_some_iff.mp h
    obtain ⟨cells, hcells, rfl⟩ := Option.map_eq_some_iff.mp h
    exact .cons (Axis.lt_of_locate hi) (locateAxes_onGrid (Nat.succ.inj hlen) hcells)

theorem locate_lt (g : Grid K) {p : List K} {e : Nat}
    (h : (g.locate p).value = some e) : e < g.elementCount := by
  unfold locate at h
  split at h
  · next hlen =>
    obtain ⟨cells, hcells, rfl⟩ := Option.map_eq_some_iff.mp h
    exact Numbering.index_lt (locateAxes_onGrid hlen hcells)
  · cases h

end

end Grid
end FieldGraph
