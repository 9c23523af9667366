import FieldGraph.Field.Nodal
import FieldGraph.Proofs.Outcomes
import Mathlib.Data.List.Forall2

/-!
# Nodal values

The value of a component at a node is the entry of the node's row. A field that is
sampled from a function has at each node what the function gives at its vertex.
-/

theorem List.getElem?_flatten_of_length {α : Type} {rows : List (List α)} {m : Nat}
    (h : ∀ row ∈ rows, row.length = m) (n : Nat) {i : Nat} (hi : i < m) :
    rows.flatten[n * m + i]? = rows[n]?.bind (·[i]?) := by
  induction rows generalizing n with
  | nil => simp
  | cons row rows ih =>
    have first := h row List.mem_cons_self
    have rest := ih fun other ho => h other (List.mem_cons_of_mem _ ho)
    rw [List.flatten_cons]
    cases n with
    | zero => rw [List.getElem?_append_left (by omega)]; simp
    | succ n =>
      have beyond : (n + 1) * m + i - row.length = n * m + i := by
        rw [first, Nat.succ_mul]
        omega
      rw [List.getElem?_append_right (by rw [first, Nat.succ_mul]; omega), beyond, rest]
      simp

namespace FieldGraph

namespace Calc
variable {α β : Type} {f : α → Calc β}

theorem result_mapM_cons {x : α} {xs : List α} {ys : List β} :
    ((x :: xs).mapM f).result = some ys ↔
      ∃ y, (f x).result = some y ∧ ∃ tail, (xs.mapM f).result = some tail ∧ y :: tail = ys := by
  rw [List.mapM_cons]
  simp only [result_bind, Option.bind_eq_some_iff, result_pure, Option.some.injEq]

theorem getElem?_of_mapM {xs : List α} {ys : List β} (h : (xs.mapM f).result = some ys) (i : Nat) :
    ys[i]? = xs[i]?.bind fun x => (f x).result := by
  induction xs generalizing ys i with
  | nil => cases h; rfl
  | cons x xs ih =>
    obtain ⟨y, hy, tail, htail, rfl⟩ := result_mapM_cons.mp h
    cases i with
    | zero => exact hy.symm
    | succ i => exact ih htail i

theorem length_of_mapM {xs : List α} {ys : List β} (h : (xs.mapM f).result = some ys) :
    ys.length = xs.length := by
  induction xs generalizing ys with
  | nil => cases h; rfl
  | cons x xs ih =>
    obtain ⟨y, -, tail, htail, rfl⟩ := result_mapM_cons.mp h
    rw [List.length_cons, List.length_cons, ih htail]

end Calc

namespace NodalField
variable {K : Type}

/-- The value of a component at a node. -/
def value? (f : NodalField K) (n i : Nat) : Option K := f.rows[n]?.bind (·[i]?)

theorem getElem?_rowsOf {n c : Nat} {values : List K} (h : values.length = n * c) {i j : Nat}
    (hi : i < n) (hj : j < c) :
    (rowsOf values h)[i]?.bind (·[j]?) = values[i * c + j]? := by
  have inside : i * c + j < values.length := h ▸ row_entry_lt ⟨i, hi⟩ ⟨j, hj⟩
  simp only [rowsOf, Vector.getElem?_ofFn, hi, hj, dif_pos, Option.bind_some,
    List.getElem?_eq_getElem inside]
  rfl

theorem ofValues_settles (g : Grid K) (components : Nat) (values : List K) :
    Settles (fun _ => True) (ofValues g components values) fun f =>
      f.grid = g ∧ f.components = components ∧ ∀ n < g.nodeCount, ∀ i < components,
        f.value? n i = values[n * components + i]? := by
  unfold ofValues
  split
  · refine (Settles.any _).bind fun expected _ => ?_
    split
    · next hlen =>
      split
      · exact .pure ⟨rfl, rfl, fun n hn i hi => getElem?_rowsOf hlen hn hi⟩
      · exact fun _ => .inr ⟨_, rfl, trivial⟩
    · exact .fail trivial
  · exact .fail trivial

theorem sample_settles (g : Grid K) (components : Nat) (f : Nat → List K → Calc K) :
    Settles (fun _ => True) (sample g components f) fun field =>
      field.grid = g ∧ field.components = components ∧ ∀ n < g.nodeCount, ∀ i < components,
        ∀ x, g.vertex n = some x → field.value? n i = (f i x).result := by
  unfold sample
  refine (Settles.calculate_or (P := fun rows => (∀ row ∈ rows, row.length = components) ∧
    ∀ n < g.nodeCount, ∀ i < components, ∀ x, g.vertex n = some x →
      rows[n]?.bind (·[i]?) = (f i x).result) ?_ trivial).bind fun rows ⟨lengths, entries⟩ => ?_
  · intro rows h
    rw [Calc.result_bind, Option.bind_eq_some_iff] at h
    obtain ⟨-, -, h⟩ := h
    have row (n : Nat) (hn : n < g.nodeCount) : rows[n]? =
        (g.vertex n).bind fun x => ((List.range components).mapM fun i => f i x).result := by
      rw [Calc.getElem?_of_mapM h, List.getElem?_range hn, Option.bind_some, Calc.result_bind]
      rfl
    constructor
    · intro values hvalues
      obtain ⟨n, hn⟩ := List.mem_iff_getElem?.mp hvalues
      have inside : n < g.nodeCount := by
        rw [← List.length_range (n := g.nodeCount), ← Calc.length_of_mapM h]
        exact (List.getElem?_eq_some_iff.mp hn).1
      rw [row n inside] at hn
      obtain ⟨x, -, hx⟩ := Option.bind_eq_some_iff.mp hn
      rw [Calc.length_of_mapM hx, List.length_range]
    · intro n hn i hi x hx
      have inside : n < rows.length := by
        rwa [Calc.length_of_mapM h, List.length_range]
      have here := row n hn
      rw [List.getElem?_eq_getElem inside, hx, Option.bind_some] at here
      rw [List.getElem?_eq_getElem inside, Option.bind_some, Calc.getElem?_of_mapM here.symm,
        List.getElem?_range hi, Option.bind_some]
  · refine (ofValues_settles g components rows.flatten).imp fun field ⟨hg, hc, hv⟩ => ?_
    refine ⟨hg, hc, fun n hn i hi x hx => ?_⟩
    rw [hv n hn i hi, List.getElem?_flatten_of_length lengths n hi, entries n hn i hi x hx]

end NodalField
end FieldGraph
