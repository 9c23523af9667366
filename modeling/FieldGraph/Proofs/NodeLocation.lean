import FieldGraph.Proofs.Doubles
import FieldGraph.Proofs.GradientRoutes

/-!
# Finding the nodes of a grid

The elements that meet at a node are known from its number; an element that
contains the node's position is found from a rounded coordinate. The last of the
former is the latter where, on every axis, the coordinate's distance from the
lower bound is not rounded below the node's cell or beyond it. On dyadic axes
nothing is rounded, so every node is found; on others some are missed.
-/

namespace FieldGraph

/-! ## The last element at a node -/

namespace Numbering

theorem getLast?_choices {α : Type} {n : Nat} {lists : Fin n → List α} {last : Fin n → α}
    (h : ∀ d, (lists d).getLast? = some (last d)) :
    (choices (List.ofFn lists)).getLast? = some (List.ofFn last) := by
  induction n with
  | zero => rfl
  | succ n ih =>
    obtain ⟨before, hbefore⟩ := List.getLast?_eq_some_iff.mp (ih fun d => h d.succ)
    obtain ⟨others, hothers⟩ := List.getLast?_eq_some_iff.mp (h 0)
    rw [List.ofFn_succ, List.ofFn_succ, choices, hbefore, hothers]
    simp

theorem getLast?_touching {cells i : Nat} (hc : 0 < cells) (hi : i ≤ cells) :
    (touching cells i).getLast? = some (min i (cells - 1)) := by
  unfold touching
  by_cases inside : i < cells
  · rw [if_pos inside, List.getLast?_append_of_ne_nil _ (List.cons_ne_nil _ _)]
    simp
    omega
  · rw [if_neg inside, if_pos (by omega)]
    simp
    omega

end Numbering

namespace Grid
variable {K : Type} (g : Grid K)

/-- The cell beyond a node on an axis, or the last one. -/
def cellAt (n : Nat) (d : Fin g.dim) : Nat := min (g.nodeOn n d) ((g.axis d).cells - 1)

theorem cellAt_lt (n : Nat) (d : Fin g.dim) : g.cellAt n d < (g.axis d).cells := by
  have := (g.axis d).cells_pos
  unfold cellAt
  omega

theorem getLast?_nodeElements {n : Nat} (hn : n < g.nodeCount) :
    (g.nodeElements n).getLast? = some (g.elementIndex (List.ofFn (g.cellAt n))) := by
  have last (d : Fin g.dim) :
      (Numbering.touching (g.axis d).cells (g.nodeOn n d)).getLast? = some (g.cellAt n d) :=
    Numbering.getLast?_touching (g.axis d).cells_pos (Nat.le_of_lt_succ (g.nodeOn_lt hn d))
  rw [g.nodeElements_eq n, List.getLast?_map, Numbering.getLast?_choices last]
  rfl

/-- A point is found in an element if each axis finds its coordinate in the element's cell. -/
theorem locate_eq_some_iff [Scalar K] [LawfulScalar K] {i : Fin g.dim → Nat}
    (hi : ∀ d, i d < (g.axis d).cells) (x : Fin g.dim → K) :
    (g.locate (List.ofFn x)).value = some (g.elementIndex (List.ofFn i)) ↔
      ∀ d, ((g.axis d).locate (x d)).value = some (i d) := by
  rw [value_locate]
  constructor
  · rintro ⟨j, same, hj⟩
    have onGrid {i : Fin g.dim → Nat} (hi : ∀ d, i d < (g.axis d).cells) :
        Numbering.OnGrid g.cellCounts (List.ofFn i) := by
      rw [g.cellCounts_eq_ofFn]
      exact Numbering.onGrid_ofFn.mpr hi
    have := (Numbering.index_inj (onGrid fun d => Axis.lt_of_locate (hj d)) (onGrid hi)).mp same
    rw [← List.ofFn_injective this]
    exact hj
  · intro hi
    exact ⟨i, rfl, hi⟩

end Grid

/-! ## Cells in double precision -/

namespace Binary64

/-- The number is at least `n`, or is infinite. -/
def Reaches (x : Binary64) (n : Nat) : Prop :=
  x.isInfinite ∧ x.isNegative = false ∨ x.isFinite ∧ (n : Rat) ≤ x.toRat

theorem value_floorWithin_eq_iff {x : Binary64} {last j : Nat} (hj : j ≤ last) :
    (floorWithin last x).value = j ↔ (0 < j → x.Reaches j) ∧ (j < last → ¬x.Reaches (j + 1)) := by
  cases finite : x.isFinite with
  | true =>
    have reaches (n : Nat) : x.Reaches n ↔ (n : Int) ≤ x.toRat.floor := by
      simp [Reaches, isInfinite_of_isFinite finite, finite, Rat.le_floor_iff]
    rw [floorWithin_eq finite, reaches, reaches]
    omega
  | false =>
    have reaches (n : Nat) : x.Reaches n ↔ x.isInfinite ∧ x.isNegative = false := by
      simp [Reaches, finite]
    rw [reaches, reaches, floorWithin]
    cases nan : x.isNaN with
    | true =>
      simp [isInfinite_of_isNaN nan]
      omega
    | false =>
      have infinite := isInfinite_of_number finite nan
      cases x.isNegative <;> simp [infinite] <;> omega

end Binary64

namespace Axis

/-- How many cells a coordinate is beyond the lower bound, as it is computed. -/
def progress (a : Axis Binary64) (x : Binary64) : Binary64 :=
  (Binary64.div (Binary64.sub x a.lower).value a.spacing).value

def tolerance (a : Axis Binary64) : Binary64 :=
  (Binary64.mul (Binary64.ofRat slack) (Binary64.sub a.upper a.lower).value).value

theorem value_covers (a : Axis Binary64) (x : Binary64) :
    (a.covers x).value = (x.isFinite && !x.lt (Binary64.sub a.lower a.tolerance).value &&
      !(Binary64.add a.upper a.tolerance).value.lt x) := by
  simp only [covers, Flagged.value_bind]
  rw [show Scalar.isFinite x = x.isFinite from rfl]
  cases x.isFinite
  · rfl
  · simp only [Bool.not_true, Bool.false_eq_true, if_false, Flagged.value_bind]
    change (if x.lt (Binary64.sub a.lower a.tolerance).value then _ else _ : Flagged Bool).value = _
    cases x.lt (Binary64.sub a.lower a.tolerance).value <;> rfl

/-- The axis finds its node in the cell beyond it, or in the last cell: the coordinate is covered,
and its distance from the lower bound in cells is rounded neither below the cell nor beyond it. -/
structure FindsNode (a : Axis Binary64) (i : Nat) : Prop where
  covers : (a.covers (a.node i)).value = true
  reaches : 0 < min i (a.cells - 1) → (a.progress (a.node i)).Reaches (min i (a.cells - 1))
  stays : i < a.cells - 1 → ¬(a.progress (a.node i)).Reaches (i + 1)

theorem findsNode_iff {a : Axis Binary64} {i : Nat} :
    a.FindsNode i ↔ (a.locate (a.node i)).value = some (min i (a.cells - 1)) := by
  have cell : (a.cellOf (a.node i)).value = min i (a.cells - 1) ↔ _ :=
    Binary64.value_floorWithin_eq_iff (Nat.min_le_right i (a.cells - 1))
  rw [locate_eq_some_iff, cell]
  constructor
  · rintro ⟨covers, reaches, stays⟩
    refine ⟨covers, reaches, fun below => ?_⟩
    rw [Nat.min_eq_left (by omega)]
    exact stays (by omega)
  · rintro ⟨covers, reaches, stays⟩
    refine ⟨covers, reaches, fun below => ?_⟩
    rw [Nat.min_eq_left below.le] at stays
    exact stays below

/-! ## Dyadic axes -/

/-- The bounds are whole multiples of a power of two, and so is the width of a cell, with few
enough digits for every number of cells to have a double. -/
structure Dyadic (a : Axis Binary64) (l : Int) (s : Nat) (k : Int) : Prop where
  lower : a.lower.HasValue (l * (2 : Rat) ^ k)
  upper : a.upper.HasValue ((l + a.cells * s : Int) * (2 : Rat) ^ k)
  steps_pos : 0 < s
  lower_fits : l.natAbs ≤ 2 ^ 53
  upper_fits : (l + a.cells * s).natAbs ≤ 2 ^ 53
  range_fits : a.cells * s ≤ 2 ^ 53
  scale : -1074 ≤ k ∧ k ≤ 970

namespace Dyadic
open Binary64 (IsValue HasValue)
variable {a : Axis Binary64} {l : Int} {s : Nat} {k : Int}

theorem steps_le (h : a.Dyadic l s k) {i : Nat} (hi : i ≤ a.cells) : i * s ≤ 2 ^ 53 :=
  (Nat.mul_le_mul_right s hi).trans h.range_fits

theorem isValue_steps (h : a.Dyadic l s k) {i : Nat} (hi : i ≤ a.cells) :
    IsValue (i * (s * (2 : Rat) ^ k)) := by
  have fits := Binary64.isValue_dyadic (z := (i * s : Nat)) (h.steps_le hi) h.scale
  push_cast at fits
  rwa [mul_assoc] at fits

theorem isValue_index (h : a.Dyadic l s k) {i : Nat} (hi : i ≤ a.cells) : IsValue i := by
  have few : i ≤ 2 ^ 53 := (Nat.le_mul_of_pos_right i h.steps_pos).trans (h.steps_le hi)
  exact Binary64.isValue_natCast few

theorem isValue_node (h : a.Dyadic l s k) {i : Nat} (hi : i ≤ a.cells) :
    IsValue (l * (2 : Rat) ^ k + i * (s * (2 : Rat) ^ k)) := by
  have between : i * s ≤ a.cells * s := Nat.mul_le_mul_right s hi
  have lower := h.lower_fits
  have upper := h.upper_fits
  have fits := Binary64.isValue_dyadic (z := l + (i * s : Nat)) (by omega) h.scale
  push_cast at fits
  rwa [add_mul, mul_assoc] at fits

theorem range (h : a.Dyadic l s k) :
    (Binary64.sub a.upper a.lower).value.HasValue (a.cells * (s * (2 : Rat) ^ k)) := by
  have range : ((l + a.cells * s : Int) * (2 : Rat) ^ k) - l * 2 ^ k = a.cells * (s * 2 ^ k) := by
    push_cast
    ring
  have rounded := h.upper.sub h.lower
  rw [range] at rounded
  exact rounded (h.isValue_steps le_rfl)

theorem spacing (h : a.Dyadic l s k) (made : a.Made) : a.spacing.HasValue (s * (2 : Rat) ^ k) := by
  have cells : (a.cells : Rat) ≠ 0 := Nat.cast_ne_zero.mpr a.cells_pos.ne'
  have width : a.cells * (s * (2 : Rat) ^ k) / a.cells = s * 2 ^ k := by
    field_simp
  have one := h.isValue_steps a.cells_pos
  rw [Nat.cast_one, one_mul] at one
  rw [made.spacing_eq, ← width]
  exact h.range.div (Binary64.hasValue_ofRat (h.isValue_index le_rfl)) cells (by rwa [width])

theorem node (h : a.Dyadic l s k) (made : a.Made) {i : Nat} (hi : i ≤ a.cells) :
    (a.node i).HasValue (l * (2 : Rat) ^ k + i * (s * (2 : Rat) ^ k)) := by
  rw [Axis.node, nodeCoordinate]
  by_cases last : i = a.cells
  · rw [if_pos last, last]
    have upper := h.upper
    push_cast at upper
    rwa [add_mul, mul_assoc] at upper
  · rw [if_neg last]
    refine h.lower.add ?_ (h.isValue_node hi)
    exact (Binary64.hasValue_ofRat (h.isValue_index hi)).mul (h.spacing made) (h.isValue_steps hi)

theorem width_pos (h : a.Dyadic l s k) : 0 < s * (2 : Rat) ^ k := by
  have := h.steps_pos
  positivity

/-- The distance of a node from the lower bound is computed without error. -/
theorem progress_node (h : a.Dyadic l s k) (made : a.Made) {i : Nat} (hi : i ≤ a.cells) :
    (a.progress (a.node i)).HasValue i := by
  have width := h.width_pos.ne'
  have cells : i * (s * (2 : Rat) ^ k) / (s * 2 ^ k) = i := mul_div_cancel_right₀ _ width
  have distance : (Binary64.sub (a.node i) a.lower).value.HasValue (i * (s * (2 : Rat) ^ k)) := by
    have rounded := (h.node made hi).sub h.lower
    rw [add_sub_cancel_left] at rounded
    exact rounded (h.isValue_steps hi)
  have quotient := distance.div (h.spacing made) width
  rw [cells] at quotient
  exact quotient (h.isValue_index hi)

theorem tolerance_nonneg (h : a.Dyadic l s k) : a.tolerance.isFinite ∧ 0 ≤ a.tolerance.toRat := by
  have small : (Binary64.ofRat slack).isFinite ∧ 0 ≤ (Binary64.ofRat slack).toRat ∧
      (Binary64.ofRat slack).toRat ≤ 1 := by decide +kernel
  have zero : (Binary64.zero false).HasValue 0 := by decide +kernel
  have range := h.range
  have nonneg : 0 ≤ (Binary64.sub a.upper a.lower).value.toRat := by
    rw [range.2]
    exact mul_nonneg (Nat.cast_nonneg _) h.width_pos.le
  obtain ⟨finite, lower, -⟩ := Binary64.roundWith_between zero.1 range.1
    (zero.2.trans_le (mul_nonneg small.2.1 nonneg)) (mul_le_of_le_one_left nonneg small.2.2) _
  rw [tolerance, Binary64.mul_eq small.1 range.1]
  exact ⟨finite, zero.2 ▸ lower⟩

theorem covers_node (h : a.Dyadic l s k) (made : a.Made) {i : Nat} (hi : i ≤ a.cells) :
    (a.covers (a.node i)).value = true := by
  have node := h.node made hi
  obtain ⟨finite, nonneg⟩ := h.tolerance_nonneg
  have width := h.width_pos
  have inside : (i : Rat) ≤ a.cells := by exact_mod_cast hi
  have below : a.lower.place ≤ (a.node i).place := by
    rw [Binary64.place_le_place, h.lower.2, node.2]
    have := mul_nonneg (Nat.cast_nonneg (α := Rat) i) width.le
    linarith
  have above : (a.node i).place ≤ a.upper.place := by
    rw [Binary64.place_le_place, h.upper.2, node.2]
    have := mul_le_mul_of_nonneg_right inside width.le
    push_cast
    linarith
  have notBelow : (a.node i).lt (Binary64.sub a.lower a.tolerance).value = false := by
    apply Binary64.lt_eq_false
    rw [Binary64.sub_eq h.lower.1 finite]
    exact (Binary64.roundWith_le h.lower.1 (by linarith) _).trans below
  have notAbove : (Binary64.add a.upper a.tolerance).value.lt (a.node i) = false := by
    apply Binary64.lt_eq_false
    rw [Binary64.add_eq h.upper.1 finite]
    exact above.trans (Binary64.roundWith_ge h.upper.1 (by linarith) _)
  rw [value_covers, node.1, notBelow, notAbove]
  rfl

theorem findsNode (h : a.Dyadic l s k) (made : a.Made) {i : Nat} (hi : i ≤ a.cells) :
    a.FindsNode i := by
  refine findsNode_iff.mpr (locate_eq_some_iff.mpr ⟨h.covers_node made hi, ?_⟩)
  obtain ⟨finite, value⟩ := h.progress_node made hi
  show (Binary64.floorWithin (a.cells - 1) (a.progress (a.node i))).value = _
  have floor : (i : Rat).floor = i := Int.floor_natCast (R := Rat) i
  rw [Binary64.floorWithin_eq finite, value, floor, Int.toNat_natCast]

end Dyadic
end Axis

/-! ## Nodes -/

theorem Grid.locate_node_iff {g : Grid Binary64} {n : Nat} :
    (g.locate (List.ofFn fun d => (g.axis d).node (g.nodeOn n d))).value =
        some (g.elementIndex (List.ofFn (g.cellAt n))) ↔
      ∀ d, (g.axis d).FindsNode (g.nodeOn n d) := by
  rw [g.locate_eq_some_iff (g.cellAt_lt n)]
  simp only [Axis.findsNode_iff]
  rfl

/-- Where a node is found in the last element that meets at it, a gradient delivers at the node what
it delivers at the node's position. -/
theorem Gradient.node_route_eq_global {f : NodalField Binary64}
    {p : NodePoint Binary64 (Grid Binary64)} (hp : (Sample.node p).Made) (same : p.mesh = f.grid)
    {e : Nat} (last : (f.grid.nodeElements p.node).getLast? = some e)
    (found : (f.grid.locate p.position.data).value = some e) :
    ∃ v, ∀ c c', ((Gradient.mk f).sampled (.node p) c).1 = .ok v ∧
      ((Gradient.mk f).sampled (.value p.position) c').1 = .ok v := by
  have size : p.position.size = f.grid.dim := same ▸ hp.node_bounds.2
  have he := f.grid.locate_lt found
  obtain ⟨ξ, hξ, length⟩ := f.grid.toLocal_delivers e size
  obtain ⟨ds, hds, hlen⟩ := f.derivativesIn_delivers he length
  have routed : (Gradient.mk f).route? (Sample.node p) = some .node := if_pos same
  have routed' : (Gradient.mk f).route? (Sample.value (M := Grid Binary64) p.position) =
      some .global := if_pos size
  refine ⟨⟨(Gradient.mk f).outputShape, ds⟩, fun c c' => ⟨?_, ?_⟩⟩
  · exact sampled_returns _ routed hlen (evaluate_node _ same last hξ hds) c
  · exact sampled_returns _ routed' hlen (evaluate_global _ size found hξ hds) c'

/-- A node is found in the last element that meets at it exactly if each axis finds its coordinate,
and so are all nodes of dyadic grids. Then gradients agree at the node and at its position. -/
theorem locate_vertex (g : Grid Binary64) (made : g.Made) {n : Nat} (hn : n < g.nodeCount) :
    ∃ x e, g.vertex n = some x ∧ (g.nodeElements n).getLast? = some e ∧
      ((g.locate x).value = some e ↔ ∀ d, (g.axis d).FindsNode (g.nodeOn n d)) ∧
      ((∀ d, ∃ l s k, (g.axis d).Dyadic l s k) → (g.locate x).value = some e) ∧
      ∀ f : NodalField Binary64, f.grid = g → (g.locate x).value = some e →
        ∀ p : NodePoint Binary64 (Grid Binary64), (Sample.node p).Made → p.mesh = g → p.node = n →
          ∃ v, ∀ c c', ((Gradient.mk f).sampled (.node p) c).1 = .ok v ∧
            ((Gradient.mk f).sampled (.value p.position) c').1 = .ok v := by
  refine ⟨_, _, made.vertex hn, g.getLast?_nodeElements hn, Grid.locate_node_iff, ?_, ?_⟩
  · intro dyadic
    rw [Grid.locate_node_iff]
    intro d
    obtain ⟨l, s, k, h⟩ := dyadic d
    exact h.findsNode (made.axis d) (Nat.le_of_lt_succ (g.nodeOn_lt hn d))
  · rintro f rfl found p hp same rfl
    have position : p.position.data =
        List.ofFn fun d => (f.grid.axis d).node (f.grid.nodeOn p.node d) := by
      have at_node := hp.node_position
      rw [same, made.vertex hn] at at_node
      exact (Option.some.inj at_node).symm
    rw [← position] at found
    exact Gradient.node_route_eq_global hp same (f.grid.getLast?_nodeElements hn) found

/-- Four cells between `0` and `3`. -/
theorem locate_vertex_quarters :
    let axis : Axis Binary64 := (Axis.make 4 (.ofRat 0) (.ofRat 3) (by decide)).value
    let g : Grid Binary64 := ⟨0, [axis], by decide, by decide⟩
    g.Made ∧ 2 < g.nodeCount ∧ axis.Dyadic 0 3 (-2) ∧
      ∃ x e, g.vertex 2 = some x ∧ (g.nodeElements 2).getLast? = some e ∧
        (g.locate x).value = some e := by
  intro axis g
  have created : (Grid.create 0 [4] [.ofRat 0] [.ofRat 3] {}).1 = .ok g := by decide +kernel
  have made : g.Made := .create (Prod.ext created rfl)
  have inside : 2 < g.nodeCount := by decide
  have quarters : axis.Dyadic 0 3 (-2) := by constructor <;> decide +kernel
  have dyadic (d : Fin g.dim) : ∃ l s k, (g.axis d).Dyadic l s k := by
    match d with
    | ⟨0, _⟩ => exact ⟨0, 3, -2, quarters⟩
  obtain ⟨x, e, vertex, last, -, found, -⟩ := locate_vertex g made inside
  exact ⟨made, inside, quarters, x, e, vertex, last, found dyadic⟩

/-- Three cells between `1` and `2`: node `1` is where elements `0` and `1` meet, but its coordinate
is less than one cell beyond the lower bound as that is computed, so it is found in element `0`, and
a gradient is not the same at the node and at its position. -/
theorem locate_vertex_thirds :
    let g : Grid Binary64 :=
      ⟨0, [(Axis.make 3 (.ofRat 1) (.ofRat 2) (by decide)).value], by decide, by decide⟩
    let x : List Binary64 := [⟨0x3ff5555555555555⟩]
    let f : NodalField Binary64 :=
      ⟨g, 1, NodalField.rowsOf [.ofRat 0, .ofRat 0, .ofRat 1, .ofRat 1] rfl, by decide, by decide⟩
    (Grid.create 0 [3] [.ofRat 1] [.ofRat 2] {}).1 = .ok g ∧ g.vertex 1 = some x ∧
      g.nodeElements 1 = [0, 1] ∧ (g.locate x).value = some 0 ∧
      ((Gradient.mk f).sampled (.node ⟨g, 1, .vector x⟩) {}).1 ≠
        ((Gradient.mk f).sampled (.value (.vector x)) {}).1 := by
  decide +kernel

end FieldGraph
