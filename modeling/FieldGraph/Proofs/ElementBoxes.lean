import FieldGraph.Proofs.Adjacency
import FieldGraph.Proofs.NodalValues
import FieldGraph.Proofs.PointLocation

/-!
# Boxes of elements

In exact arithmetic the nodes of an element stand where its own coordinates put its
corners, although the former come from the numbers of nodes and the latter from the
number of the element. The coordinates of space and of an element undo each other,
and the closed boxes of the elements, which are what coordinates from `-1` to `1`
reach, tile the box of the grid.
-/

namespace FieldGraph

/-- Corners come in the order of their bit patterns, the bit of an axis being set on its upper
side. -/
theorem Numbering.getElem?_corners {n c : Nat} (hc : c < 2 ^ n) :
    (corners n)[c]? = some (List.ofFn fun d : Fin n => c.testBit d) := by
  induction n generalizing c with
  | zero =>
    obtain rfl : c = 0 := by simpa using hc
    rfl
  | succ n ih =>
    have half : c / 2 < 2 ^ n := by
      rw [Nat.pow_succ] at hc
      omega
    have pairs : ∀ row ∈ (corners n).map fun tail => [false :: tail, true :: tail],
        row.length = 2 := by simp
    have entry := List.getElem?_flatten_of_length pairs (c / 2) (Nat.mod_lt c Nat.two_pos)
    rw [Nat.mul_comm, Nat.div_add_mod, List.getElem?_map, ih half] at entry
    rw [corners_succ, List.flatMap_def, entry, List.ofFn_succ]
    simp only [Fin.val_succ, Nat.testBit_succ, Fin.val_zero, Nat.testBit_zero]
    obtain even | odd := Nat.mod_two_eq_zero_or_one c
    · simp [even]
    · simp [odd]

namespace Grid
variable {g : Grid Rat} {e e' : Nat} {x : Fin g.dim → Rat}

/-! ## Corners -/

theorem getElem?_elementNodes {c : Nat} (hc : c < 2 ^ g.dim) :
    (g.elementNodes e)[c]? = some (g.cornerNode e (List.ofFn fun d : Fin g.dim => c.testBit d)) := by
  rw [elementNodes, List.getElem?_map, corners, Numbering.getElem?_corners hc]
  rfl

theorem toGlobal_corner (c : Fin g.dim → Bool) :
    (g.toGlobal e (List.ofFn fun d => side (c d))).result =
      some (List.ofFn (boxCorner (g.origin e) g.spacing c)) := by
  rw [toGlobal_eq e, boxPoint_side]

theorem Made.boxCorner_last (h : g.Made) {c : Fin g.dim → Bool} {d : Fin g.dim}
    (last : g.cellOn e d + (c d).toNat = (g.axis d).cells) :
    boxCorner (g.origin e) g.spacing c d = (g.axis d).upper := by
  rw [← (h.axis d).node_cells, ← last, (h.axis d).node_eq, boxCorner, origin, spacing]
  push_cast
  ring

/-! ## Coordinates -/

theorem Made.toGlobal_toLocal (h : g.Made) (e : Nat) (x : Fin g.dim → Rat) :
    (g.toLocal e (List.ofFn x) >>= g.toGlobal e).result = some (List.ofFn x) := by
  obtain ⟨ξ, same, back⟩ := h.exists_boxPoint e x
  rw [Calc.result_bind, back, Option.bind_some, toGlobal_eq e, same]

theorem Made.toLocal_toGlobal (h : g.Made) (e : Nat) (ξ : Fin g.dim → Rat) :
    (g.toGlobal e (List.ofFn ξ) >>= g.toLocal e).result = some (List.ofFn ξ) := by
  rw [Calc.result_bind, toGlobal_eq e, Option.bind_some, h.toLocal_boxPoint e]

/-! ## Boxes -/

theorem Made.boxContains_boxPoint (h : g.Made) {ξ : Fin g.dim → Rat}
    (within : ∀ d, -1 ≤ ξ d ∧ ξ d ≤ 1) :
    g.BoxContains e (boxPoint (g.origin e) g.spacing ξ) := by
  intro d
  have pos := (h.axis d).spacing_pos
  obtain ⟨lower, upper⟩ := within d
  have low : 0 ≤ 1 / 2 * (ξ d + 1) * (g.axis d).spacing := by
    apply mul_nonneg _ pos.le
    linarith
  have high : 1 / 2 * (ξ d + 1) * (g.axis d).spacing ≤ (g.axis d).spacing := by
    apply mul_le_of_le_one_left pos.le
    linarith
  rw [Axis.Spans, (h.axis d).node_eq, (h.axis d).node_eq, boxPoint, origin, spacing]
  push_cast
  constructor <;> linarith

theorem Made.boxContains_iff (h : g.Made) :
    g.BoxContains e x ↔ ∃ ξ : Fin g.dim → Rat, (∀ d, -1 ≤ ξ d ∧ ξ d ≤ 1) ∧
      (g.toGlobal e (List.ofFn ξ)).result = some (List.ofFn x) := by
  constructor
  · intro contains
    obtain ⟨ξ, back, within⟩ := contains.toLocal_mem h
    have there := h.toGlobal_toLocal e x
    rw [Calc.result_bind, back, Option.bind_some] at there
    exact ⟨ξ, within, there⟩
  · rintro ⟨ξ, within, there⟩
    rw [toGlobal_eq e, Option.some.injEq, List.ofFn_inj] at there
    exact there ▸ h.boxContains_boxPoint within

theorem BoxContains.mem_range (h : g.Made) (he : e < g.elementCount) (contains : g.BoxContains e x)
    (d : Fin g.dim) : (g.axis d).lower ≤ x d ∧ x d ≤ (g.axis d).upper := by
  obtain ⟨lower, upper⟩ := contains d
  constructor
  · exact ((h.axis d).node_zero.symm.trans_le ((h.axis d).node_mono (Nat.zero_le _))).trans lower
  · exact upper.trans (((h.axis d).node_mono (g.cellOn_lt he d)).trans_eq (h.axis d).node_cells)

theorem Made.exists_boxContains_iff (h : g.Made) :
    (∃ e < g.elementCount, g.BoxContains e x) ↔
      ∀ d, (g.axis d).lower ≤ x d ∧ x d ≤ (g.axis d).upper := by
  constructor
  · rintro ⟨e, he, contains⟩
    exact contains.mem_range h he
  · intro inside
    have projected : g.project x = x :=
      funext fun d => Axis.project_of_mem (inside d).1 (inside d).2
    obtain ⟨lt, contains⟩ := (h.cellsOf_isGreatest x).1
    rw [projected] at contains
    exact ⟨_, lt, contains⟩

/-! ## Sides -/

/-- A point is on the lower or the upper side of a box. -/
def OnSide (g : Grid Rat) (e : Nat) (d : Fin g.dim) (upper : Bool) (x : Fin g.dim → Rat) : Prop :=
  x d = (g.axis d).node (g.cellOn e d + upper.toNat)

theorem Made.onSide_of_lt (h : g.Made) {d : Fin g.dim} (before : g.cellOn e d < g.cellOn e' d)
    (hx : g.BoxContains e x) (hx' : g.BoxContains e' x) :
    g.OnSide e d true x ∧ g.OnSide e' d false x := by
  have order : (g.axis d).node (g.cellOn e d + 1) ≤ (g.axis d).node (g.cellOn e' d) :=
    (h.axis d).node_mono before
  have upper := (hx d).2
  have lower := (hx' d).1
  exact ⟨le_antisymm upper (order.trans lower), le_antisymm (upper.trans order) lower⟩

theorem Made.onSide_of_ne (h : g.Made) (differ : e ≠ e') (hx : g.BoxContains e x)
    (hx' : g.BoxContains e' x) :
    ∃ d upper, g.OnSide e d upper x ∧ g.OnSide e' d (!upper) x := by
  -- elements differ in their cell on some axis, and the one before ends where the other begins
  obtain ⟨d, apart⟩ : ∃ d, g.cellOn e d ≠ g.cellOn e' d := by
    by_contra! same
    apply differ
    rw [← g.elementIndex_cellOn e, funext same, g.elementIndex_cellOn e']
  obtain before | after := Nat.lt_or_gt_of_ne apart
  · exact ⟨d, true, h.onSide_of_lt before hx hx'⟩
  · exact ⟨d, false, (h.onSide_of_lt after hx' hx).symm⟩

/-- The corners of an element, in the order of their bit patterns, are at its nodes, those on an
upper bound of the grid included. Coordinates of space and of an element undo each other. The closed
boxes of the elements cover the grid, and two of them have at most points in common that are on the
upper side of the one and the lower side of the other. -/
theorem geometry_consistent (g : Grid Rat) (made : g.Made) :
    (∀ e < g.elementCount,
      (∀ c < 2 ^ g.dim, ∃ (n : Nat) (x : Fin g.dim → Rat), (g.elementNodes e)[c]? = some n ∧
        g.vertex n = some (List.ofFn x) ∧
        (g.toGlobal e (List.ofFn fun d : Fin g.dim => side (c.testBit d))).result =
          some (List.ofFn x) ∧
        ∀ d, g.nodeOn n d = (g.axis d).cells → x d = (g.axis d).upper) ∧
      (∀ x : Fin g.dim → Rat,
        (g.toLocal e (List.ofFn x) >>= g.toGlobal e).result = some (List.ofFn x) ∧
        (g.toGlobal e (List.ofFn x) >>= g.toLocal e).result = some (List.ofFn x)) ∧
      ∀ x : Fin g.dim → Rat, g.BoxContains e x ↔
        ∃ ξ : Fin g.dim → Rat, (∀ d, -1 ≤ ξ d ∧ ξ d ≤ 1) ∧
          (g.toGlobal e (List.ofFn ξ)).result = some (List.ofFn x)) ∧
    (∀ x : Fin g.dim → Rat, (∃ e < g.elementCount, g.BoxContains e x) ↔
      ∀ d, (g.axis d).lower ≤ x d ∧ x d ≤ (g.axis d).upper) ∧
    ∀ e < g.elementCount, ∀ e' < g.elementCount, e ≠ e' → ∀ x : Fin g.dim → Rat,
      g.BoxContains e x → g.BoxContains e' x →
        ∃ d upper, g.OnSide e d upper x ∧ g.OnSide e' d (!upper) x := by
  refine ⟨fun e he => ⟨fun c hc => ?_, fun x => ?_, fun x => made.boxContains_iff⟩,
    fun x => made.exists_boxContains_iff, ?_⟩
  · refine ⟨_, _, getElem?_elementNodes hc, made.vertex_cornerNode he _, toGlobal_corner _, ?_⟩
    intro d last
    rw [g.nodeOn_cornerNode he] at last
    exact made.boxCorner_last last
  · exact ⟨made.toGlobal_toLocal e x, made.toLocal_toGlobal e x⟩
  · intro e he e' he' differ x hx hx'
    exact made.onSide_of_ne differ hx hx'

/-- Two elements beside each other, wider along the second axis, and a point between them. -/
theorem geometry_consistent_between :
    let g : Grid Rat := ⟨0, [(Axis.make 2 0 1 Nat.two_pos).value,
      (Axis.make 1 0 3 Nat.one_pos).value], by decide, by decide⟩
    let x : Fin g.dim → Rat := point [1 / 2, 2]
    g.Made ∧ g.BoxContains 0 x ∧ g.BoxContains 1 x ∧
      (∃ d upper, g.OnSide 0 d upper x ∧ g.OnSide 1 d (!upper) x) ∧
        ∃ y : Fin g.dim → Rat, g.vertex 5 = some (List.ofFn y) ∧
          (g.toGlobal 1 (List.ofFn fun d : Fin g.dim => side (Nat.testBit 3 d))).result =
            some (List.ofFn y) := by
  intro g x
  have created : (Grid.create 0 [2, 1] [0, 0] [1, 3] {}).1 = .ok g := by decide +kernel
  have made : g.Made := .create (Prod.ext created rfl)
  have first : ∀ d : Fin g.dim, (g.axis d).node (g.cellOn 0 d) ≤ x d ∧
      x d ≤ (g.axis d).node (g.cellOn 0 d + 1) := by decide +kernel
  have second : ∀ d : Fin g.dim, (g.axis d).node (g.cellOn 1 d) ≤ x d ∧
      x d ≤ (g.axis d).node (g.cellOn 1 d + 1) := by decide +kernel
  have last : (g.elementNodes 1)[3]? = some 5 := by decide
  obtain ⟨elements, -, apart⟩ := geometry_consistent g made
  have between := apart 0 (by decide) 1 (by decide) (by decide) x first second
  obtain ⟨n, y, node, vertex, corner, -⟩ := (elements 1 (by decide)).1 3 (by decide)
  obtain rfl : n = 5 := Option.some.inj (node.symm.trans last)
  exact ⟨made, first, second, between, y, vertex, corner⟩

end Grid
end FieldGraph
