import FieldGraph.Proofs.Outcomes
import FieldGraph.Proofs.Positions
import Mathlib.Data.Fin.Tuple.Basic

/-!
# Points of created grids

The axes of a grid that was created have ordered bounds, equal cells and the node
coordinates that the formulas of an axis give. So vertices, coordinates within an
element and the cells that points are found in come axis by axis: each entry is
what its axis makes of the entry of the position.
-/

namespace FieldGraph

variable {K : Type} [Scalar K]

/-! ## Creation -/

namespace Axis

/-- An axis as grids are created with. -/
structure Made (a : Axis K) : Prop where
  lower_lt : Scalar.lt a.lower a.upper = true
  spacing_eq : a.spacing = (cellWidth a.cells a.lower a.upper).value
  coordinates_eq : a.coordinates = Vector.ofFn fun i : Fin (a.cells + 1) =>
    (nodeCoordinate a.cells a.lower a.upper a.spacing i).value

/-- The coordinate of a node, by the formula that it is computed with. -/
def node (a : Axis K) (i : Nat) : K := (nodeCoordinate a.cells a.lower a.upper a.spacing i).value

theorem Made.coordinate {a : Axis K} (h : a.Made) {i : Nat} (hi : i < a.cells + 1) :
    a.coordinates[i]? = some (a.node i) := by
  rw [h.coordinates_eq, Vector.getElem?_eq_getElem hi, Vector.getElem_ofFn]
  rfl

theorem made_make {cells : Nat} {lower upper : K} (h : 0 < cells)
    (bounds : Scalar.lt lower upper = true) : (make cells lower upper h).value.Made :=
  ⟨bounds, rfl, rfl⟩

theorem locate_eq_some_iff {a : Axis K} {x : K} {i : Nat} :
    (a.locate x).value = some i ↔ (a.covers x).value = true ∧ (a.cellOf x).value = i := by
  rw [locate, Flagged.value_bind]
  cases (a.covers x).value <;> simp

end Axis

namespace Grid

/-- Grids as they can be had. -/
inductive Made : Grid K → Prop where
  | create {address : Nat} {resolution : List Nat} {lower upper : List K} {c c' : Context}
      {g : Grid K} (h : Grid.create address resolution lower upper c = (.ok g, c')) : Made g

theorem makeAxes_made : ∀ {resolution : List Nat} {lower upper : List K},
    (lower.zip upper).any (fun (lo, hi) => !Scalar.lt lo hi) = false →
      ∀ a ∈ (makeAxes resolution lower upper).value, a.Made
  | [], _, _, _ => by simp [makeAxes]
  | _ :: _, [], _, _ => by simp [makeAxes]
  | _ :: _, _ :: _, [], _ => by simp [makeAxes]
  | n :: resolution, lo :: lower, hi :: upper, h => by
    simp only [List.zip_cons_cons, List.any_cons, Bool.or_eq_false_iff, Bool.not_eq_false'] at h
    obtain ⟨bounds, rest⟩ := h
    rw [makeAxes]
    by_cases hn : 0 < n
    · rw [dif_pos hn]
      intro a ha
      rcases List.mem_cons.mp ha with rfl | ha
      · exact Axis.made_make hn bounds
      · exact makeAxes_made rest a ha
    · simp [hn]

theorem bounds_of_shapeFault {resolution : List Nat} {lower upper : List K}
    (h : shapeFault resolution lower upper = none) :
    (lower.zip upper).any (fun (lo, hi) => !Scalar.lt lo hi) = false := by
  simp only [shapeFault] at h
  grind

theorem create_settles (address : Nat) (resolution : List Nat) (lower upper : List K) :
    Settles (fun _ => True) (create address resolution lower upper) fun g => ∀ a ∈ g.axes, a.Made := by
  unfold create
  split
  · exact .fail trivial
  · next h =>
    have made : ∀ a ∈ (makeAxes resolution lower upper).value, a.Made :=
      makeAxes_made (bounds_of_shapeFault h)
    refine (Settles.any _).bind fun _ _ => ?_
    exact (Settles.calculate (P := fun g => ∀ a ∈ g.axes, a.Made) ⟨_, rfl, made⟩).bind
      fun g hg => .record (.pure hg)

theorem Made.axes {g : Grid K} (h : g.Made) : ∀ a ∈ g.axes, a.Made := by
  cases h with
  | create h => exact (create_settles _ _ _ _).of_ok h

/-! ## Axis by axis -/

theorem Made.axis {g : Grid K} (h : g.Made) (d : Fin g.dim) : (g.axis d).Made :=
  h.axes _ (List.get_mem g.axes d)

theorem mapM_coordinates : ∀ {axes : List (Axis K)} (i : Fin axes.length → Nat),
    (∀ a ∈ axes, a.Made) → (∀ d, i d < (axes.get d).cells + 1) →
      ((axes.zip (List.ofFn i)).mapM fun (a, i) => a.coordinates[i]?) =
        some (List.ofFn fun d => (axes.get d).node (i d))
  | [], _, _, _ => rfl
  | a :: axes, i, made, hi => by
    have first : a.coordinates[i 0]? = some (a.node (i 0)) :=
      (made a List.mem_cons_self).coordinate (hi 0)
    have rest := mapM_coordinates (fun d => i d.succ)
      (fun b hb => made b (List.mem_cons_of_mem _ hb)) (fun d => hi d.succ)
    simp only [List.length_cons, List.ofFn_succ, List.zip_cons_cons, List.mapM_cons, first, rest]
    rfl

theorem Made.vertex {g : Grid K} (h : g.Made) {n : Nat} (hn : n < g.nodeCount) :
    g.vertex n = some (List.ofFn fun d => (g.axis d).node (g.nodeOn n d)) := by
  rw [Grid.vertex, g.nodePosition_eq n]
  exact mapM_coordinates (g.nodeOn n) h.axes (g.nodeOn_lt hn)

theorem result_mapAxes (convert : Axis K → K → K → Flagged K) :
    ∀ {axes : List (Axis K)} (i : Fin axes.length → Nat) (x : Fin axes.length → K),
      (mapAxes convert axes (List.ofFn i) (List.ofFn x)).result = some (List.ofFn fun d =>
        (convert (axes.get d) ((axes.get d).origin (i d)).value (x d)).value)
  | [], _, _ => rfl
  | a :: axes, i, x => by
    have rest := result_mapAxes convert (fun d => i d.succ) (fun d => x d.succ)
    simp only [List.length_cons, List.ofFn_succ, mapAxes, Calc.result_bind, List.head?_cons,
      List.tail_cons, rest]
    rfl

theorem result_toLocal (g : Grid K) (e : Nat) (x : Fin g.dim → K) :
    (g.toLocal e (List.ofFn x)).result = some (List.ofFn fun d =>
      ((g.axis d).toLocal ((g.axis d).origin (g.cellOn e d)).value (x d)).value) := by
  rw [toLocal, g.elementPosition_eq e]
  exact result_mapAxes Axis.toLocal (g.cellOn e) x

theorem result_toGlobal (g : Grid K) (e : Nat) (ξ : Fin g.dim → K) :
    (g.toGlobal e (List.ofFn ξ)).result = some (List.ofFn fun d =>
      ((g.axis d).toGlobal ((g.axis d).origin (g.cellOn e d)).value (ξ d)).value) := by
  rw [toGlobal, g.elementPosition_eq e]
  exact result_mapAxes Axis.toGlobal (g.cellOn e) ξ

theorem value_locateAxes : ∀ {axes : List (Axis K)} (x : Fin axes.length → K) (cells : List Nat),
    (locateAxes axes (List.ofFn x)).value = some cells ↔
      ∃ i, cells = List.ofFn i ∧ ∀ d, ((axes.get d).locate (x d)).value = some (i d)
  | [], _, cells => by
    constructor
    · intro h
      cases h
      exact ⟨fun d => d.elim0, rfl, fun d => d.elim0⟩
    · rintro ⟨i, rfl, -⟩
      rfl
  | a :: axes, x, cells => by
    have rest := value_locateAxes fun d => x d.succ
    simp only [List.length_cons, List.ofFn_succ, value_locateAxes_cons, Option.bind_eq_some_iff,
      Option.map_eq_some_iff, rest]
    constructor
    · rintro ⟨j, hj, _, ⟨i, rfl, hi⟩, rfl⟩
      exact ⟨Fin.cons j i, by simp, Fin.cases hj hi⟩
    · rintro ⟨i, rfl, hi⟩
      exact ⟨i 0, hi 0, _, ⟨fun d => i d.succ, rfl, fun d => hi d.succ⟩, rfl⟩

theorem value_locate (g : Grid K) (x : Fin g.dim → K) (e : Nat) :
    (g.locate (List.ofFn x)).value = some e ↔
      ∃ i, g.elementIndex (List.ofFn i) = e ∧ ∀ d, ((g.axis d).locate (x d)).value = some (i d) := by
  rw [locate, if_pos (List.length_ofFn)]
  simp only [Flagged.value_bind, Flagged.value_pure, Option.map_eq_some_iff]
  constructor
  · rintro ⟨cells, h, rfl⟩
    obtain ⟨i, rfl, hi⟩ := (value_locateAxes x cells).mp h
    exact ⟨i, rfl, hi⟩
  · rintro ⟨i, rfl, hi⟩
    exact ⟨List.ofFn i, (value_locateAxes x _).mpr ⟨i, rfl, hi⟩, rfl⟩

end Grid
end FieldGraph
