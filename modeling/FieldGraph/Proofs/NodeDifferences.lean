import FieldGraph.Proofs.NodeLocation

/-!
# Differences at nodes

At a corner of a box the slope of interpolation along an axis is the difference of
the two corners on the corner's edge in that direction. A gradient interpolates at
a node in the last element that meets there, of which the node is the lowest corner
except on the axes that it is last on. So in exact arithmetic a gradient at a node
is the difference from the node to the next one on each axis, or from the one
before on the upper boundary.
-/

namespace FieldGraph

/-! ## Slopes at a corner -/

section
variable {n : Nat} (corner : Fin n → Bool) (k : Fin n)

theorem slopeFactor_side {d : Fin n} (hd : d ≠ k) (upper : Bool) :
    slopeFactor (fun d => side (corner d)) k d upper = if upper = corner d then 1 else 0 := by
  rw [slopeFactor, if_neg hd]
  cases upper <;> cases corner d <;> norm_num [side]

theorem prod_slopeFactor_edge (upper : Bool) :
    ∏ d, slopeFactor (fun d => side (corner d)) k d (Function.update corner k upper d) =
      1 / 2 * side upper := by
  rw [Finset.prod_eq_single k]
  · simp [slopeFactor]
  · intro d _ hd
    rw [slopeFactor_side corner k hd, Function.update_of_ne hd, if_pos rfl]
  · intro absent
    exact absurd (Finset.mem_univ k) absent

theorem prod_slopeFactor_off_edge {c : Fin n → Bool}
    (off : ∀ upper, c ≠ Function.update corner k upper) :
    ∏ d, slopeFactor (fun d => side (corner d)) k d (c d) = 0 := by
  obtain ⟨d, hd, differ⟩ : ∃ d, d ≠ k ∧ c d ≠ corner d := by
    by_contra! same
    apply off (c k)
    rw [Function.eq_update_iff]
    exact ⟨rfl, same⟩
  apply Finset.prod_eq_zero (Finset.mem_univ d)
  rw [slopeFactor_side corner k hd, if_neg differ]

/-- Only the ends of the corner's edge along the axis matter. -/
theorem sum_slopes_at_corner (u : (Fin n → Bool) → Rat) (h : Rat) :
    ∑ c, u c * ((∏ d, slopeFactor (fun d => side (corner d)) k d (c d)) * 2 / h) =
      (u (Function.update corner k true) - u (Function.update corner k false)) / h := by
  have ends : Function.update corner k true ≠ Function.update corner k false := by
    intro same
    simpa using congrFun same k
  rw [Fintype.sum_eq_add _ _ ends]
  · rw [prod_slopeFactor_edge, prod_slopeFactor_edge]
    simp only [side, Bool.false_eq_true, if_true, if_false]
    ring
  · rintro c ⟨above, below⟩
    rw [prod_slopeFactor_off_edge corner k fun upper => by cases upper <;> assumption]
    ring

end

/-! ## The element of a node -/

namespace Grid

section
variable {K : Type} (g : Grid K)

/-- The element that a gradient interpolates in at a node. -/
def elementAt (n : Nat) : Nat := g.elementIndex (List.ofFn (g.cellAt n))

/-- On which axes a node is the last one, and so on the upper side of its element. -/
def lastOn (n : Nat) (d : Fin g.dim) : Bool := g.nodeOn n d = (g.axis d).cells

variable {n : Nat}

theorem elementAt_lt (n : Nat) : g.elementAt n < g.elementCount :=
  (g.cellOn_elementIndex (g.cellAt_lt n)).1

theorem cellOn_elementAt (n : Nat) : g.cellOn (g.elementAt n) = g.cellAt n :=
  (g.cellOn_elementIndex (g.cellAt_lt n)).2

theorem cellAt_add_lastOn (hn : n < g.nodeCount) (d : Fin g.dim) :
    g.cellAt n d + (g.lastOn n d).toNat = g.nodeOn n d := by
  have lt := g.nodeOn_lt hn d
  have pos := (g.axis d).cells_pos
  by_cases last : g.nodeOn n d = (g.axis d).cells
  · simp only [cellAt, lastOn, last, decide_true, Bool.toNat_true]
    omega
  · simp only [cellAt, lastOn, last, decide_false, Bool.toNat_false]
    omega

theorem cornerNode_edge (hn : n < g.nodeCount) (k : Fin g.dim) (upper : Bool) :
    g.cornerNode (g.elementAt n) (List.ofFn (Function.update (g.lastOn n) k upper)) =
      g.nodeIndex (List.ofFn (Function.update (g.nodeOn n) k (g.cellAt n k + upper.toNat))) := by
  rw [g.cornerNode_eq, g.cellOn_elementAt]
  congr 2
  funext d
  by_cases hd : d = k
  · subst hd
    simp
  · simp [hd, g.cellAt_add_lastOn hn]

end

theorem Made.toLocal_elementAt {g : Grid Rat} (h : g.Made) {n : Nat} (hn : n < g.nodeCount) :
    (g.toLocal (g.elementAt n) (List.ofFn fun d => (g.axis d).node (g.nodeOn n d))).result =
      some (List.ofFn fun d => side (g.lastOn n d)) := by
  rw [g.result_toLocal]
  congr 2
  funext d
  rw [g.cellOn_elementAt, ← g.cellAt_add_lastOn hn]
  exact (h.axis d).toLocal_node _ _

end Grid

/-! ## Gradients -/

namespace NodalField
variable (f : NodalField Rat)

/-- The value of a component at a position of the grid. -/
def at? (i : Fin f.grid.dim → Nat) (j : Nat) : Option Rat :=
  f.value? (f.grid.nodeIndex (List.ofFn i)) j

theorem at?_eq_some {i : Fin f.grid.dim → Nat} (hi : ∀ d, i d ≤ (f.grid.axis d).cells) {j : Nat}
    (hj : j < f.components) :
    f.at? i j = some (f.valueAt (f.grid.nodeIndex (List.ofFn i)) j) :=
  f.value?_eq_some (f.grid.nodeOn_nodeIndex fun d => Nat.lt_succ_of_le (hi d)).1 hj

/-- The slope of a component on the edge along an axis on which a node is. -/
def edgeSlope (n : Nat) (j : Fin f.components) (k : Fin f.grid.dim) : Rat :=
  let value (i : Nat) : Rat :=
    f.valueAt (f.grid.nodeIndex (List.ofFn (Function.update (f.grid.nodeOn n) k i))) j
  (value (f.grid.cellAt n k + 1) - value (f.grid.cellAt n k)) / f.grid.spacing k

theorem derivativesIn_elementAt {n : Nat} (hn : n < f.grid.nodeCount) :
    (f.derivativesIn (f.grid.elementAt n) (List.ofFn fun d => side (f.grid.lastOn n d))).result =
      some (table (f.edgeSlope n)).flatten := by
  rw [f.derivativesIn_eq (f.grid.elementAt_lt n)]
  congr 3
  funext j k
  rw [sum_slopes_at_corner (f.grid.lastOn n) k
    fun c => f.valueAt (f.grid.cornerNode (f.grid.elementAt n) (List.ofFn c)) j,
    f.grid.cornerNode_edge hn, f.grid.cornerNode_edge hn]
  rfl

theorem sampled_node (made : f.grid.Made) {n : Nat} (hn : n < f.grid.nodeCount) :
    ∃ p : NodePoint Rat (Grid Rat), (∀ c, (NodePoint.create f.grid n c).1 = .ok p) ∧
      ∀ c, ((Gradient.mk f).sampled (.node p) c).1 =
        .ok ⟨(Gradient.mk f).outputShape, (table (f.edgeSlope n)).flatten⟩ := by
  let x := List.ofFn fun d => (f.grid.axis d).node (f.grid.nodeOn n d)
  let p : NodePoint Rat (Grid Rat) := ⟨f.grid, n, .vector x⟩
  have create (c : Context) : (NodePoint.create f.grid n c).1 = .ok p :=
    (NodePoint.create_returns hn (made.vertex hn)).eq_ok c
  have routed : (Gradient.mk f).route? (Sample.node p) = some .node := if_pos rfl
  have evaluated := Gradient.evaluate_node (Gradient.mk f) (E := fun _ => False) (p := p) rfl
    (f.grid.getLast?_nodeElements hn) (made.toLocal_elementAt hn) (f.derivativesIn_elementAt hn)
  exact ⟨p, create, Gradient.sampled_returns _ routed (length_flatten_table _) evaluated⟩

end NodalField

/-- At a node a gradient delivers for each component and axis the difference of the values at the
next node along the axis and at the node, by the spacing; on the upper boundary of the axis, that of
the values at the node and at the one before. -/
theorem node_gradient_eq_difference (f : NodalField Rat) (made : f.grid.Made)
    (i : Fin f.grid.dim → Nat) (hi : ∀ d, i d ≤ (f.grid.axis d).cells) :
    ∃ (p : NodePoint Rat (Grid Rat)) (ds : List Rat),
      (∀ c, (NodePoint.create f.grid (f.grid.nodeIndex (List.ofFn i)) c).1 = .ok p) ∧
      (∀ c, ((Gradient.mk f).sampled (.node p) c).1 = .ok ⟨(Gradient.mk f).outputShape, ds⟩) ∧
      ds.length = f.components * f.grid.dim ∧
      ∀ j < f.components, ∀ k,
        (i k < (f.grid.axis k).cells → ∃ here above, f.at? i j = some here ∧
          f.at? (Function.update i k (i k + 1)) j = some above ∧
            ds[j * f.grid.dim + k]? = some ((above - here) / f.grid.spacing k)) ∧
        (i k = (f.grid.axis k).cells → ∃ below here,
          f.at? (Function.update i k (i k - 1)) j = some below ∧ f.at? i j = some here ∧
            ds[j * f.grid.dim + k]? = some ((here - below) / f.grid.spacing k)) := by
  obtain ⟨hn, on⟩ := f.grid.nodeOn_nodeIndex fun d => Nat.lt_succ_of_le (hi d)
  obtain ⟨p, create, delivered⟩ := f.sampled_node made hn
  refine ⟨p, _, create, delivered, NodalField.length_flatten_table _, ?_⟩
  intro j hj k
  have pos := (f.grid.axis k).cells_pos
  have neighbor {m : Nat} (hm : m ≤ (f.grid.axis k).cells) :
      f.at? (Function.update i k m) j = some _ :=
    f.at?_eq_some ((Function.forall_update_iff i fun d m => m ≤ (f.grid.axis d).cells).mpr
      ⟨hm, fun d _ => hi d⟩) hj
  rw [NodalField.getElem?_flatten_table _ ⟨j, hj⟩ k, NodalField.edgeSlope]
  simp only [on, Grid.cellAt]
  -- the edge goes up from the node, or on the upper boundary up to it
  constructor
  · intro inside
    refine ⟨_, _, f.at?_eq_some hi hj, neighbor inside, ?_⟩
    rw [Nat.min_eq_left (by omega), Function.update_eq_self]
  · intro last
    refine ⟨_, _, neighbor (by omega), f.at?_eq_some hi hj, ?_⟩
    rw [last, Nat.min_eq_right (by omega), Nat.sub_add_cancel pos, ← last, Function.update_eq_self]

/-- A node on the upper boundary of the first axis and inside the second, on which the slope jumps
there from `3` to `5`. -/
theorem node_gradient_eq_difference_jump :
    let g : Grid Rat := ⟨0, [(Axis.make 1 0 1 Nat.one_pos).value,
      (Axis.make 2 0 2 Nat.two_pos).value], by decide, by decide⟩
    let f : NodalField Rat :=
      ⟨g, 1, NodalField.rowsOf [0, 1, 2, 4, 5, 9] rfl, by decide, by decide⟩
    let i : Fin f.grid.dim → Nat := fun _ => 1
    f.grid.Made ∧ (∀ d, i d ≤ (f.grid.axis d).cells) ∧
      ∃ (p : NodePoint Rat (Grid Rat)) (ds : List Rat),
        (NodePoint.create f.grid 3 {}).1 = .ok p ∧
          ((Gradient.mk f).sampled (.node p) {}).1 = .ok ⟨.tensor, ds⟩ ∧
            ds[0]? = some 2 ∧ ds[1]? = some 5 := by
  intro g f i
  have created : (Grid.create 0 [1, 2] [0, 0] [1, 2] {}).1 = .ok g := by decide +kernel
  have made : f.grid.Made := .create (g := g) (Prod.ext created rfl)
  have hi : ∀ d, i d ≤ (f.grid.axis d).cells := by decide
  obtain ⟨p, ds, create, delivered, -, slopes⟩ := node_gradient_eq_difference f made i hi
  have at_node : f.at? i 0 = some 4 := by decide +kernel
  have before : f.at? (Function.update i ⟨0, by decide⟩ 0) 0 = some 2 := by decide +kernel
  have next : f.at? (Function.update i ⟨1, by decide⟩ 2) 0 = some 9 := by decide +kernel
  obtain ⟨below, here, hbelow, hhere, first⟩ := (slopes 0 (by decide) ⟨0, by decide⟩).2 rfl
  obtain rfl : below = 2 := Option.some.inj (hbelow.symm.trans before)
  obtain rfl : here = 4 := Option.some.inj (hhere.symm.trans at_node)
  obtain ⟨here, above, hhere, habove, second⟩ := (slopes 0 (by decide) ⟨1, by decide⟩).1 (by decide)
  obtain rfl : here = 4 := Option.some.inj (hhere.symm.trans at_node)
  obtain rfl : above = 9 := Option.some.inj (habove.symm.trans next)
  have along : (4 - 2) / f.grid.spacing ⟨0, by decide⟩ = 2 := by decide +kernel
  have across : (9 - 4) / f.grid.spacing ⟨1, by decide⟩ = 5 := by decide +kernel
  exact ⟨made, hi, p, ds, create {}, delivered {}, first.trans (congrArg some along),
    second.trans (congrArg some across)⟩

end FieldGraph
