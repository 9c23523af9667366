import FieldGraph.Proofs.GridPoints
import FieldGraph.Proofs.InexactArithmetic

/-!
# Nondegenerate grids

Grids are created on all bounds that are in order. In double precision that does
not keep the nodes apart: the extent of an axis may overflow, which makes the
first node NaN, or its cells may be too narrow for the doubles around them. Since
rounding is monotone nothing else can happen: nodes that are apart increase from
the lower bound to the upper one, and the spacing is positive. They are apart
where cells are eight times as wide as the steps between doubles of the size of
the bounds.
-/

namespace FieldGraph

/-! ## Numbers of cells -/

namespace Numbering

theorem count_pos {counts : List Nat} (h : ∀ n ∈ counts, 0 < n) : 0 < count counts := by
  induction counts with
  | nil => exact Nat.one_pos
  | cons n counts ih =>
    exact Nat.mul_pos (h n List.mem_cons_self) (ih fun m hm => h m (List.mem_cons_of_mem n hm))

theorem le_count_of_mem {counts : List Nat} (h : ∀ n ∈ counts, 0 < n) {n : Nat} (hn : n ∈ counts) :
    n ≤ count counts := by
  induction counts with
  | nil => cases hn
  | cons m counts ih =>
    have rest : ∀ n ∈ counts, 0 < n := fun n hn => h n (List.mem_cons_of_mem m hn)
    rcases List.mem_cons.mp hn with rfl | hn
    · exact Nat.le_mul_of_pos_right n (count_pos rest)
    · exact (ih rest hn).trans (Nat.le_mul_of_pos_left _ (h m List.mem_cons_self))

end Numbering

/-- An axis of a grid that has room for its nodes. -/
structure Axis.Created {K : Type} [Scalar K] (a : Axis K) : Prop extends a.Made where
  small : a.cells < Calc.roomLimit

namespace Grid
variable {K : Type} [Scalar K]

theorem makeAxes_cells : ∀ {resolution : List Nat} {lower upper : List K},
    ∀ a ∈ (makeAxes resolution lower upper).value, a.cells ∈ resolution
  | [], _, _ => by simp [makeAxes]
  | _ :: _, [], _ => by simp [makeAxes]
  | _ :: _, _ :: _, [] => by simp [makeAxes]
  | n :: resolution, lo :: lower, hi :: upper => by
    rw [makeAxes]
    by_cases hn : 0 < n
    · rw [dif_pos hn]
      intro a ha
      rcases List.mem_cons.mp ha with rfl | ha
      · exact List.mem_cons_self
      · exact List.mem_cons_of_mem n (makeAxes_cells a ha)
    · simp [hn]

theorem small_of_reserve {resolution : List Nat} {lower upper : List K} {a : Unit}
    (h : (reserve resolution lower upper).result = some a) :
    ∀ n ∈ resolution, n < Calc.roomLimit := by
  intro n hn
  have next : n + 1 ≤ Numbering.count (resolution.map (· + 1)) := by
    refine Numbering.le_count_of_mem (fun m hm => ?_) (List.mem_map_of_mem hn)
    obtain ⟨k, -, rfl⟩ := List.mem_map.mp hm
    exact Nat.succ_pos k
  have room : Numbering.count (resolution.map (· + 1)) * resolution.length < Calc.roomLimit := by
    by_contra full
    rw [reserve, Calc.result_bind, Calc.reserve, if_neg full] at h
    cases h
  have := Nat.le_mul_of_pos_right (Numbering.count (resolution.map (· + 1)))
    (List.length_pos_of_mem hn)
  omega

theorem create_cells (address : Nat) (resolution : List Nat) (lower upper : List K) :
    Settles (fun _ => True) (create address resolution lower upper) fun g =>
      ∀ a ∈ g.axes, a.cells < Calc.roomLimit := by
  unfold create
  split
  · exact .fail trivial
  · refine (Settles.calculate_or (fun _ => small_of_reserve) trivial).bind fun _ small => ?_
    have made : ∀ a ∈ (makeAxes resolution lower upper).value, a.cells < Calc.roomLimit :=
      fun a ha => small _ (makeAxes_cells a ha)
    exact (Settles.calculate (P := fun g => ∀ a ∈ g.axes, a.cells < Calc.roomLimit)
      ⟨_, rfl, made⟩).bind fun g hg => .record (.pure hg)

theorem Made.created {g : Grid K} (h : g.Made) (d : Fin g.dim) : (g.axis d).Created := by
  refine ⟨h.axis d, ?_⟩
  cases h with
  | create h => exact (create_cells _ _ _ _).of_ok h _ (List.get_mem g.axes d)

end Grid

/-! ## Nodes as they are computed -/

namespace Axis
open Binary64 (ofRat hasValue_ofRat isValue_natCast)
variable {a : Axis Binary64}

/-- The length of an axis as it is computed. -/
def extent (a : Axis Binary64) : Binary64 := (Binary64.sub a.upper a.lower).value

theorem Made.extent_spec (h : a.Made) : a.extent.isNaN = false ∧ 0 < a.extent.place ∧
    (a.extent.isFinite → a.upper.isFinite ∧ a.lower.isFinite) := Binary64.sub_of_lt h.lower_lt

theorem Created.spacing_spec (h : a.Created) :
    a.spacing.isNaN = false ∧ 0 ≤ a.spacing.place ∧ a.spacing.isFinite = a.extent.isFinite := by
  obtain ⟨number, pos, -⟩ := h.extent_spec
  rw [h.spacing_eq]
  exact Binary64.div_of_count number pos (Binary64.isFinite_ofRat_natCast h.small)
    (Binary64.one_le_ofRat a.cells_pos)

theorem node_cells (a : Axis Binary64) : a.node a.cells = a.upper := by
  rw [node, nodeCoordinate, if_pos rfl]
  rfl

theorem node_of_lt {i : Nat} (hi : i < a.cells) :
    a.node i = (Binary64.add a.lower (Binary64.mul (ofRat i) a.spacing).value).value := by
  rw [node, nodeCoordinate, if_neg hi.ne]
  rfl

theorem place_node_of_no_step (lower : a.lower.isFinite) (spacing : a.spacing.isFinite) {i : Nat}
    (hi : i < a.cells) (few : i ≤ 2 ^ 53) (no_step : i * a.spacing.toRat = 0) :
    (a.node i).place = a.lower.place := by
  have zero : Binary64.IsValue 0 := isValue_natCast (n := 0) (by decide)
  have step : (Binary64.mul (ofRat i) a.spacing).value.HasValue (i * a.spacing.toRat) :=
    (hasValue_ofRat (isValue_natCast few)).mul ⟨spacing, rfl⟩ (no_step ▸ zero)
  have node : (a.node i).HasValue (a.lower.toRat + i * a.spacing.toRat) := by
    rw [node_of_lt hi]
    refine Binary64.HasValue.add ⟨lower, rfl⟩ step ⟨a.lower, lower, ?_⟩
    rw [no_step, add_zero]
  have same : (a.node i).toRat = a.lower.toRat := by rw [node.2, no_step, add_zero]
  exact le_antisymm (Binary64.place_le_place.mpr same.le) (Binary64.place_le_place.mpr same.ge)

theorem Created.isNaN_node_zero (h : a.Created) : (a.node 0).isNaN = !a.extent.isFinite := by
  obtain ⟨number, -, finite⟩ := h.spacing_spec
  rw [← finite]
  by_cases fs : a.spacing.isFinite
  · have lower := (h.extent_spec.2.2 (finite ▸ fs)).2
    have place := place_node_of_no_step lower fs a.cells_pos (by decide) (by simp)
    have least := Binary64.isFinite_iff.mp lower
    rw [fs, Bool.not_true, Binary64.isNaN_eq_false_iff, place]
    exact least.le
  · have infinite := Binary64.isInfinite_of_number (Bool.eq_false_iff.mpr fs) number
    have zero : ofRat ((0 : Nat) : Rat) = Binary64.zero false := by decide +kernel
    rw [node_of_lt a.cells_pos, zero, Binary64.mul_zero_infinite number infinite,
      Binary64.add_defaultNaN (Binary64.lt_iff.mp h.lower_lt).1, Bool.eq_false_iff.mpr fs]
    decide

theorem Created.node_le_node (h : a.Created) (finite : a.extent.isFinite) {i j : Nat} (hij : i ≤ j)
    (hj : j < a.cells) : (a.node i).isNaN = false ∧ (a.node i).place ≤ (a.node j).place := by
  obtain ⟨-, nonneg, spacing⟩ := h.spacing_spec
  have lower := (h.extent_spec.2.2 finite).2
  have fs : a.spacing.isFinite := spacing.trans finite
  have fi := Binary64.isFinite_ofRat_natCast ((hij.trans_lt hj).trans h.small)
  have fj := Binary64.isFinite_ofRat_natCast (hj.trans h.small)
  have order := Binary64.place_le_place.mp (Binary64.ofRat_mono (Nat.cast_le.mpr hij))
  have step := mul_le_mul_of_nonneg_right order (Binary64.toRat_nonneg_iff.mpr nonneg)
  rw [node_of_lt hj, node_of_lt (hij.trans_lt hj), Binary64.mul_eq fi fs, Binary64.mul_eq fj fs]
  refine ⟨Binary64.isNaN_add lower (Binary64.isNaN_roundWith _ _), ?_⟩
  apply Binary64.place_add_mono lower (Binary64.isNaN_roundWith _ _) (Binary64.isNaN_roundWith _ _)
  rw [Binary64.place_roundWith, Binary64.place_roundWith]
  exact Binary64.roundPlace_mono step

structure Nondegenerate (a : Axis Binary64) : Prop where
  spacing : a.spacing.isFinite ∧ 0 < a.spacing.place
  inside : ∀ i ≤ a.cells, (a.node i).isFinite ∧ a.lower.place ≤ (a.node i).place ∧
    (a.node i).place ≤ a.upper.place
  increasing : ∀ i < a.cells, (a.node i).lt (a.node (i + 1)) = true

/-- The extent is finite, no node coincides with the next one, and the last one that is computed
is below the upper bound. -/
structure Separated (a : Axis Binary64) : Prop where
  extent : a.extent.isFinite
  apart : ∀ i, i + 1 < a.cells → (a.node i).place ≠ (a.node (i + 1)).place
  below : (a.node (a.cells - 1)).place < a.upper.place

theorem Made.spacing_of_single (h : a.Made) (single : a.cells = 1) (finite : a.extent.isFinite) :
    a.spacing.toRat = a.extent.toRat := by
  have one : (ofRat a.cells).HasValue 1 := by
    rw [single, ← Nat.cast_one]
    exact hasValue_ofRat (isValue_natCast (by decide))
  have extent : a.extent.HasValue a.extent.toRat := ⟨finite, rfl⟩
  have whole := extent.div one one_ne_zero (by rw [div_one]; exact ⟨_, extent⟩)
  rw [h.spacing_eq]
  exact whole.2.trans (div_one _)

namespace Separated

theorem spacing_pos (h : a.Separated) (made : a.Created) :
    0 < a.spacing.place := by
  by_contra not
  obtain ⟨-, nonneg, spacing⟩ := made.spacing_spec
  obtain ⟨-, pos, bounds⟩ := made.extent_spec
  have fs : a.spacing.isFinite := spacing.trans h.extent
  have lower := (bounds h.extent).2
  have zero : a.spacing.toRat = 0 := by
    rw [Binary64.toRat_eq, le_antisymm (not_lt.mp not) nonneg]
    decide +kernel
  have no_step (i : Nat) : i * a.spacing.toRat = 0 := by rw [zero, mul_zero]
  rcases (show 1 ≤ a.cells from a.cells_pos).eq_or_lt with single | several
  · -- a single cell is as long as the axis
    have positive := Binary64.place_pos_iff.mp pos
    rw [← made.spacing_of_single single.symm h.extent, zero] at positive
    exact absurd positive (lt_irrefl 0)
  · have first := place_node_of_no_step lower fs a.cells_pos (by decide) (no_step 0)
    have second := place_node_of_no_step lower fs several (by decide) (no_step 1)
    exact h.apart 0 several (first.trans second.symm)

theorem increasing (h : a.Separated) (made : a.Created) {i : Nat}
    (hi : i < a.cells) : (a.node i).lt (a.node (i + 1)) = true := by
  rcases (Nat.succ_le_of_lt hi).lt_or_eq with inner | last
  · obtain ⟨number, order⟩ := made.node_le_node h.extent i.le_succ inner
    have number' := (made.node_le_node h.extent le_rfl inner).1
    exact Binary64.lt_iff.mpr ⟨number, number', lt_of_le_of_ne order (h.apart i inner)⟩
  · have number := (made.node_le_node h.extent le_rfl hi).1
    have number' := (Binary64.lt_iff.mp made.lower_lt).2.1
    have below := h.below
    rw [show i + 1 = a.cells from last, a.node_cells]
    rw [show a.cells - 1 = i by omega] at below
    exact Binary64.lt_iff.mpr ⟨number, number', below⟩

theorem inside (h : a.Separated) (made : a.Created) {i : Nat}
    (hi : i ≤ a.cells) : (a.node i).isFinite ∧ a.lower.place ≤ (a.node i).place ∧
      (a.node i).place ≤ a.upper.place := by
  obtain ⟨-, -, spacing⟩ := made.spacing_spec
  obtain ⟨upper, lower⟩ := made.extent_spec.2.2 h.extent
  have between : a.lower.place ≤ (a.node i).place ∧ (a.node i).place ≤ a.upper.place := by
    rcases hi.lt_or_eq with before | rfl
    · have first := place_node_of_no_step lower (spacing.trans h.extent) a.cells_pos (by decide) (by simp)
      have from_lower := (made.node_le_node h.extent i.zero_le before).2
      have to_upper := (made.node_le_node h.extent (show i ≤ a.cells - 1 by omega) (by omega)).2
      exact ⟨first ▸ from_lower, to_upper.trans h.below.le⟩
    · rw [a.node_cells]
      exact ⟨(Binary64.lt_iff.mp made.lower_lt).2.2.le, le_rfl⟩
  rw [Binary64.isFinite_iff] at upper lower ⊢
  exact ⟨by omega, between⟩

end Separated

theorem Created.nondegenerate_iff (h : a.Created) : a.Nondegenerate ↔ a.Separated := by
  constructor
  · intro fine
    have order {i : Nat} (hi : i < a.cells) := (Binary64.lt_iff.mp (fine.increasing i hi)).2.2
    refine ⟨(h.spacing_spec).2.2 ▸ fine.spacing.1, fun i hi => (order (by omega)).ne, ?_⟩
    have last := order (Nat.sub_lt a.cells_pos Nat.one_pos)
    rwa [Nat.sub_add_cancel a.cells_pos, a.node_cells] at last
  · intro separated
    have fs : a.spacing.isFinite := (h.spacing_spec).2.2.trans separated.extent
    exact ⟨⟨fs, separated.spacing_pos h⟩, fun i hi => separated.inside h hi,
      fun i hi => separated.increasing h hi⟩

end Axis

/-! ## Narrow cells -/

namespace Axis
open Binary64 (ofRat hasValue_ofRat isValue_natCast)

/-- Cells are eight units wide, where a unit is a step between doubles of the size of the
bounds, and the unit is large enough to be divided by the number of cells. -/
structure Resolved (a : Axis Binary64) (k : Int) : Prop where
  scale : -1074 ≤ k ∧ k ≤ 970
  lower : a.lower.isFinite ∧ |a.lower.toRat| ≤ 2 ^ 52 * (2 : Rat) ^ k
  upper : a.upper.isFinite ∧ |a.upper.toRat| ≤ 2 ^ 52 * (2 : Rat) ^ k
  divisible : (a.cells : Rat) ≤ 2 ^ (k + 1074)
  wide : 8 * a.cells * (2 : Rat) ^ k ≤ a.upper.toRat - a.lower.toRat

namespace Resolved
variable {a : Axis Binary64} {k : Int}

theorem cells_le (h : a.Resolved k) : a.cells ≤ 2 ^ 50 := by
  have unit : (0 : Rat) < 2 ^ k := by positivity
  have wide := h.wide
  have lower := (abs_le.mp h.lower.2).1
  have upper := (abs_le.mp h.upper.2).2
  have few : (a.cells : Rat) * 2 ^ k ≤ 2 ^ 50 * 2 ^ k := by linarith
  exact_mod_cast le_of_mul_le_mul_right few unit

theorem extent (h : a.Resolved k) : a.extent.Near (a.upper.toRat - a.lower.toRat) k := by
  refine Binary64.HasValue.sub_near ⟨h.upper.1, rfl⟩ ⟨h.lower.1, rfl⟩ h.scale ?_
  have := abs_sub a.upper.toRat a.lower.toRat
  have := h.lower.2
  have := h.upper.2
  linarith

/-- Dividing is done in smaller units, `2 ^ j` to one, so that the error of the quotient makes less
than two units for all cells together. -/
theorem exists_divisor (h : a.Resolved k) : ∃ j : Nat, (2 : Rat) ^ j ≤ a.cells ∧
    (a.cells : Rat) < 2 * 2 ^ j ∧ -1074 ≤ k - j ∧ k - j ≤ 970 := by
  have below : (2 : Rat) ^ Nat.log2 a.cells ≤ a.cells := by
    exact_mod_cast Nat.log2_self_le a.cells_pos.ne'
  have above : (a.cells : Rat) < 2 ^ (Nat.log2 a.cells + 1) := by exact_mod_cast Nat.lt_log2_self
  have divisible : (2 : Rat) ^ (Nat.log2 a.cells : Int) ≤ 2 ^ (k + 1074) := by
    rw [zpow_natCast]
    exact below.trans h.divisible
  have exponent := (zpow_le_zpow_iff_right₀ (by norm_num)).mp divisible
  have scale := h.scale
  exact ⟨Nat.log2 a.cells, below, pow_succ' (2 : Rat) _ ▸ above, by omega, by omega⟩

theorem unit_eq (k : Int) (j : Nat) : (2 : Rat) ^ k = 2 ^ j * 2 ^ (k - j) := by
  rw [← zpow_natCast, ← zpow_add₀ (by norm_num), add_sub_cancel]

theorem spacing_near (h : a.Resolved k) (made : a.Made) {j : Nat} (below : (2 : Rat) ^ j ≤ a.cells)
    (scale : -1074 ≤ k - j ∧ k - j ≤ 970) :
    a.spacing.Near (a.extent.toRat / a.cells) (k - j) := by
  have count : (0 : Rat) < a.cells := Nat.cast_pos.mpr a.cells_pos
  have cells := hasValue_ofRat (isValue_natCast (h.cells_le.trans (by decide)))
  have extent : a.extent.HasValue a.extent.toRat := ⟨h.extent.finite, rfl⟩
  rw [made.spacing_eq]
  refine extent.div_near cells count.ne' scale ?_
  rw [abs_div, abs_of_pos count, div_le_iff₀ count]
  calc |a.extent.toRat|
    _ ≤ 2 ^ 53 * (2 ^ j * 2 ^ (k - j)) := unit_eq k j ▸ h.extent.bound
    _ = 2 ^ 53 * 2 ^ (k - j) * 2 ^ j := by ring
    _ ≤ 2 ^ 53 * 2 ^ (k - j) * a.cells := mul_le_mul_of_nonneg_left below (by positivity)

theorem spacing (h : a.Resolved k) (made : a.Made) : a.spacing.isFinite ∧
    |a.cells * a.spacing.toRat - a.extent.toRat| < 2 * 2 ^ k := by
  obtain ⟨j, below, above, scale⟩ := h.exists_divisor
  have near := h.spacing_near made below scale
  have count : (0 : Rat) < a.cells := Nat.cast_pos.mpr a.cells_pos
  refine ⟨near.finite, ?_⟩
  calc |a.cells * a.spacing.toRat - a.extent.toRat|
    _ = a.cells * |a.spacing.toRat - a.extent.toRat / a.cells| := by
      rw [← abs_of_pos count, ← abs_mul, abs_of_pos count, mul_sub, mul_div_cancel₀ _ count.ne']
    _ ≤ a.cells * 2 ^ (k - j) := mul_le_mul_of_nonneg_left near.close.le count.le
    _ < 2 * 2 ^ j * 2 ^ (k - j) := mul_lt_mul_of_pos_right above (by positivity)
    _ = 2 * 2 ^ k := by rw [unit_eq k j, mul_assoc]

theorem spacing_wide (h : a.Resolved k) (made : a.Made) : 5 * (2 : Rat) ^ k < a.spacing.toRat := by
  have unit : (0 : Rat) < 2 ^ k := by positivity
  have count : (1 : Rat) ≤ a.cells := by exact_mod_cast a.cells_pos
  have least := (abs_lt.mp h.extent.close).1
  have close := (abs_lt.mp (h.spacing made).2).1
  have wide := h.wide
  have few : 3 * (2 : Rat) ^ k ≤ a.cells * (3 * 2 ^ k) := le_mul_of_one_le_left (by positivity) count
  have total : (a.cells : Rat) * (5 * 2 ^ k) < a.cells * a.spacing.toRat := by linarith
  exact lt_of_mul_lt_mul_left total (by positivity)

/-- The nodes before the last one are computed two units below the upper bound or lower. -/
theorem offset_lt (h : a.Resolved k) (made : a.Made) {i : Nat} (hi : i < a.cells) :
    i * a.spacing.toRat < a.upper.toRat - a.lower.toRat - 2 * 2 ^ k := by
  have unit : (0 : Rat) < 2 ^ k := by positivity
  have wide := h.spacing_wide made
  have most := (abs_lt.mp h.extent.close).2
  have close := (abs_lt.mp (h.spacing made).2).2
  have next : ((i : Rat) + 1) * a.spacing.toRat ≤ a.cells * a.spacing.toRat := by
    apply mul_le_mul_of_nonneg_right _ (by linarith)
    exact_mod_cast hi
  linarith

theorem node_near (h : a.Resolved k) (made : a.Made) {i : Nat} (hi : i < a.cells) :
    |(a.node i).toRat - (a.lower.toRat + i * a.spacing.toRat)| < 2 * 2 ^ k := by
  have unit : (0 : Rat) < 2 ^ k := by positivity
  obtain ⟨lower_ge, lower_le⟩ := abs_le.mp h.lower.2
  obtain ⟨upper_ge, upper_le⟩ := abs_le.mp h.upper.2
  have wide := h.spacing_wide made
  have below := h.offset_lt made hi
  have nonneg : 0 ≤ i * a.spacing.toRat := mul_nonneg (Nat.cast_nonneg i) (by linarith)
  have index := hasValue_ofRat (isValue_natCast (show i ≤ 2 ^ 53 by have := h.cells_le; omega))
  have lower : a.lower.HasValue a.lower.toRat := ⟨h.lower.1, rfl⟩
  have product := index.mul_near ⟨(h.spacing made).1, rfl⟩ h.scale
    (abs_le.mpr ⟨by linarith, by linarith⟩)
  obtain ⟨product_gt, product_lt⟩ := abs_lt.mp product.close
  have sum := lower.add_near ⟨product.finite, rfl⟩ h.scale (abs_le.mpr ⟨by linarith, by linarith⟩)
  obtain ⟨sum_gt, sum_lt⟩ := abs_lt.mp sum.close
  rw [node_of_lt hi]
  exact abs_lt.mpr ⟨by linarith, by linarith⟩

theorem separated (h : a.Resolved k) (made : a.Made) : a.Separated := by
  have unit : (0 : Rat) < 2 ^ k := by positivity
  have wide := h.spacing_wide made
  refine ⟨h.extent.finite, fun i hi => ?_, ?_⟩
  · have this := (abs_lt.mp (h.node_near made (i.lt_succ_self.trans hi))).2
    have next := (abs_lt.mp (h.node_near made hi)).1
    push_cast at next
    exact (Binary64.place_lt_place.mpr (by linarith)).ne
  · have last : a.cells - 1 < a.cells := Nat.sub_lt a.cells_pos Nat.one_pos
    have most := (abs_lt.mp (h.node_near made last)).2
    have below := h.offset_lt made last
    exact Binary64.place_lt_place.mpr (by linarith)

end Resolved
end Axis

/-! ## Grids -/

namespace Grid

/-- What the nodes of a grid should be like: on every axis the spacing is a positive number, the
coordinates are in the range, and they increase from each node to the next one. -/
structure Nondegenerate (g : Grid Binary64) : Prop where
  spacing (d : Fin g.dim) : (g.axis d).spacing.isFinite ∧ 0 < (g.axis d).spacing.place
  inside {n : Nat} (hn : n < g.nodeCount) : ∃ x : Fin g.dim → Binary64,
    g.vertex n = some (List.ofFn x) ∧ ∀ d, (x d).isFinite ∧
      (g.axis d).lower.place ≤ (x d).place ∧ (x d).place ≤ (g.axis d).upper.place
  increasing {m n : Nat} (hm : m < g.nodeCount) (hn : n < g.nodeCount) {x y : Fin g.dim → Binary64}
    (hx : g.vertex m = some (List.ofFn x)) (hy : g.vertex n = some (List.ofFn y)) {d : Fin g.dim}
    (next : g.nodeOn n d = g.nodeOn m d + 1) : (x d).lt (y d) = true

theorem exists_nodeOn {K : Type} (g : Grid K) {d : Fin g.dim} {i : Nat} (hi : i ≤ (g.axis d).cells) :
    ∃ n < g.nodeCount, g.nodeOn n d = i := by
  have onGrid (k : Fin g.dim) : Function.update (fun _ => 0) d i k < (g.axis k).cells + 1 := by
    by_cases hk : k = d
    · subst hk
      simpa using Nat.lt_succ_of_le hi
    · simp [hk]
  obtain ⟨inside, position⟩ := g.nodeOn_nodeIndex onGrid
  exact ⟨_, inside, by simp [position]⟩

theorem Made.vertex_eq_iff {g : Grid Binary64} (h : g.Made) {n : Nat} (hn : n < g.nodeCount)
    {x : Fin g.dim → Binary64} :
    g.vertex n = some (List.ofFn x) ↔ x = fun d => (g.axis d).node (g.nodeOn n d) := by
  rw [h.vertex hn, Option.some_inj, List.ofFn_inj, eq_comm]

theorem Made.nondegenerate_iff_axes {g : Grid Binary64} (h : g.Made) :
    g.Nondegenerate ↔ ∀ d, (g.axis d).Nondegenerate := by
  constructor
  · intro fine d
    refine ⟨fine.spacing d, fun i hi => ?_, fun i hi => ?_⟩
    · obtain ⟨n, hn, rfl⟩ := g.exists_nodeOn hi
      obtain ⟨x, vertex, inside⟩ := fine.inside hn
      obtain rfl := (h.vertex_eq_iff hn).mp vertex
      exact inside d
    · obtain ⟨m, hm, rfl⟩ := g.exists_nodeOn hi.le
      obtain ⟨n, hn, next⟩ := g.exists_nodeOn (show g.nodeOn m d + 1 ≤ (g.axis d).cells from hi)
      rw [← next]
      exact fine.increasing hm hn (h.vertex hm) (h.vertex hn) next
  · intro fine
    refine ⟨fun d => (fine d).spacing, fun hn => ⟨_, h.vertex hn, fun d => ?_⟩, ?_⟩
    · exact (fine d).inside _ (Nat.le_of_lt_succ (g.nodeOn_lt hn d))
    · intro m n hm hn x y hx hy d next
      obtain rfl := (h.vertex_eq_iff hm).mp hx
      obtain rfl := (h.vertex_eq_iff hn).mp hy
      have last := g.nodeOn_lt hn d
      have step := (fine d).increasing (g.nodeOn m d) (by omega)
      rwa [← next] at step

end Grid

/-- A spacing is never NaN or negative, but it is infinite where the extent of its axis overflows,
and the first node is then NaN. Otherwise the nodes before the last one do not decrease. Nothing is
wrong with a grid if moreover they are apart and below the last one, which is at the upper bound; and
this is so where the cells are wide enough for the doubles around the bounds. -/
theorem nondegenerate_grid {g : Grid Binary64} (made : g.Made) :
    (∀ d, (g.axis d).spacing.isNaN = false ∧ 0 ≤ (g.axis d).spacing.place ∧
      (g.axis d).spacing.isFinite = (g.axis d).extent.isFinite ∧
      ((g.axis d).node 0).isNaN = !(g.axis d).extent.isFinite) ∧
    (∀ d, (g.axis d).extent.isFinite → ∀ i j, i ≤ j → j < (g.axis d).cells →
      ((g.axis d).node i).isNaN = false ∧
        ((g.axis d).node i).place ≤ ((g.axis d).node j).place) ∧
    (g.Nondegenerate ↔ ∀ d, (g.axis d).Separated) ∧
    ((∀ d, ∃ k, (g.axis d).Resolved k) → g.Nondegenerate) := by
  have axes : g.Nondegenerate ↔ ∀ d, (g.axis d).Separated := by
    rw [made.nondegenerate_iff_axes]
    exact forall_congr' fun d => (made.created d).nondegenerate_iff
  refine ⟨fun d => ?_, fun d finite i j hij hj => ?_, axes, fun resolved => axes.mpr fun d => ?_⟩
  · obtain ⟨number, nonneg, finite⟩ := (made.created d).spacing_spec
    exact ⟨number, nonneg, finite, (made.created d).isNaN_node_zero⟩
  · exact (made.created d).node_le_node finite hij hj
  · obtain ⟨k, h⟩ := resolved d
    exact h.separated (made.axis d)

/-- Three cells between `1` and `2`. -/
theorem nondegenerate_grid_thirds :
    let axis : Axis Binary64 := (Axis.make 3 (.ofRat 1) (.ofRat 2) (by decide)).value
    let g : Grid Binary64 := ⟨0, [axis], by decide, by decide⟩
    g.Made ∧ axis.Resolved (-51) ∧ g.Nondegenerate := by
  intro axis g
  have created : (Grid.create 0 [3] [.ofRat 1] [.ofRat 2] {}).1 = .ok g := by decide +kernel
  have made : g.Made := .create (Prod.ext created rfl)
  have thirds : axis.Resolved (-51) := by constructor <;> decide +kernel
  have resolved (d : Fin g.dim) : ∃ k, (g.axis d).Resolved k := by
    match d with
    | ⟨0, _⟩ => exact ⟨-51, thirds⟩
  exact ⟨made, thirds, (nondegenerate_grid made).2.2.2 resolved⟩

/-- The bounds are the largest power of two and its negative: they are finite, their difference is
not, and the only node that is computed is NaN. -/
theorem overflowing_grid_degenerate :
    let lower : Binary64 := ⟨0xffe0000000000000⟩
    let upper : Binary64 := ⟨0x7fe0000000000000⟩
    let g : Grid Binary64 := ⟨0, [(Axis.make 1 lower upper Nat.one_pos).value], by decide, by decide⟩
    lower.isFinite ∧ upper.isFinite ∧ (Grid.create 0 [1] [lower] [upper] {}).1 = .ok g ∧
      g.vertex 0 = some [Binary64.defaultNaN] ∧ ¬g.Nondegenerate := by
  intro lower upper g
  have created : (Grid.create 0 [1] [lower] [upper] {}).1 = .ok g := by decide +kernel
  have vertex : g.vertex 0 = some [Binary64.defaultNaN] := by decide +kernel
  have infinite : (g.axis ⟨0, by decide⟩).spacing.isFinite = false := by decide +kernel
  refine ⟨by decide, by decide, created, vertex, fun fine => ?_⟩
  rw [(fine.spacing ⟨0, by decide⟩).1] at infinite
  cases infinite

/-- Steps between the least doubles are rounded as well: to nothing, or beyond the upper bound. -/
example :
    let least : Binary64 := ⟨1⟩
    let halves : Axis Binary64 := (Axis.make 2 (.ofRat 0) least Nat.two_pos).value
    let sevenths : Axis Binary64 := (Axis.make 7 (.ofRat 0) ⟨11⟩ (by decide)).value
    halves.spacing.isZero ∧ halves.node 1 = halves.node 0 ∧
      sevenths.upper.lt (sevenths.node 6) = true := by
  decide +kernel

end FieldGraph
