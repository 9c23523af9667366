import FieldGraph.Graph.Node
import Mathlib.Data.Bool.Basic
import Mathlib.Data.List.Count
import Mathlib.Data.List.Infix

/-!
# Occurrences in a graph

A graph is a tree of occurrences, each named by the way to it from the root: at
every step down into the first operand (`false`) or the second one (`true`). The
occurrences in order are the places in lexicographic order, so that an occurrence
comes before what is below it and a left operand before a right one. While a graph
is specialized some functions probe their operands; an occurrence is tried as many
times as there are functions above it that do.
-/

namespace FieldGraph

abbrev Place := List Bool

namespace Node
variable {V : Type}

def operand? : Node V → Bool → Option (Node V)
  | component function _, false => some function
  | binary left _ _, false => some left
  | binary _ right _, true => some right
  | unary function _, false => some function
  | guarded function, false => some function
  | traced _ function, false => some function
  | _, _ => none

/-- What occurs at a place. -/
def at? (f : Node V) : Place → Option (Node V)
  | [] => some f
  | side :: p => (f.operand? side).bind fun g => g.at? p

/-- Whether specializing evaluates the operands. -/
def probes : Node V → Bool
  | component .. => true
  | binary .. => true
  | unary .. => true
  | _ => false

/-- How many functions above a place probe. -/
def probesAbove (f : Node V) (p : Place) : Nat :=
  p.inits.dropLast.countP fun q => (f.at? q).any probes

def occurrences : Node V → List Place
  | component function _ => [] :: function.occurrences.map (false :: ·)
  | binary left right _ =>
    [] :: (left.occurrences.map (false :: ·) ++ right.occurrences.map (true :: ·))
  | unary function _ => [] :: function.occurrences.map (false :: ·)
  | guarded function => [] :: function.occurrences.map (false :: ·)
  | traced _ function => [] :: function.occurrences.map (false :: ·)
  | _ => [[]]

/-- The occurrences that are evaluated while a graph is specialized, in order. -/
def trials : Node V → List Place
  | component function _ => function.trials.map (false :: ·) ++ function.occurrences.map (false :: ·)
  | binary left right _ =>
    left.trials.map (false :: ·) ++ (right.trials.map (true :: ·) ++
      (left.occurrences.map (false :: ·) ++ right.occurrences.map (true :: ·)))
  | unary function _ => function.trials.map (false :: ·) ++ function.occurrences.map (false :: ·)
  | guarded function => function.trials.map (false :: ·)
  | traced _ function => function.trials.map (false :: ·)
  | _ => []

/-! ## Order -/

theorem ascending_map (side : Bool) {places : List Place} (h : places.Pairwise (· < ·)) :
    (places.map (side :: ·)).Pairwise (· < ·) := by
  rw [List.pairwise_map]
  exact h.imp fun order => List.cons_lt_cons_self.mpr order

theorem root_lt_map (side : Bool) (places : List Place) :
    ∀ p ∈ places.map (side :: ·), ([] : Place) < p := by
  intro p hp
  obtain ⟨q, -, rfl⟩ := List.mem_map.mp hp
  exact List.nil_lt_cons side q

theorem ascending_single {places : List Place} (h : places.Pairwise (· < ·)) :
    ([] :: places.map (false :: ·) : List Place).Pairwise (· < ·) :=
  List.pairwise_cons.mpr ⟨root_lt_map false places, ascending_map false h⟩

theorem occurrences_ascending (f : Node V) : f.occurrences.Pairwise (· < ·) := by
  induction f with
  | component f i ih => exact ascending_single ih
  | unary f op ih => exact ascending_single ih
  | guarded f ih => exact ascending_single ih
  | traced label f ih => exact ascending_single ih
  | binary left right op ihl ihr =>
    refine List.pairwise_cons.mpr ⟨?_, List.pairwise_append.mpr ⟨ascending_map false ihl,
      ascending_map true ihr, ?_⟩⟩
    · simp only [List.mem_append]
      rintro p (hp | hp)
      · exact root_lt_map false _ p hp
      · exact root_lt_map true _ p hp
    · intro p hp q hq
      obtain ⟨p, -, rfl⟩ := List.mem_map.mp hp
      obtain ⟨q, -, rfl⟩ := List.mem_map.mp hq
      exact List.cons_lt_cons_iff.mpr (.inl (by decide))
  | _ => exact List.pairwise_singleton _ _

theorem occurrences_nodup (f : Node V) : f.occurrences.Nodup :=
  f.occurrences_ascending.imp fun order same => absurd (same ▸ order) (List.lt_irrefl _)

theorem root_mem_occurrences (f : Node V) : [] ∈ f.occurrences := by
  cases f <;> exact List.mem_cons_self

theorem cons_mem_occurrences {f : Node V} {side : Bool} {p : Place} :
    side :: p ∈ f.occurrences ↔ ∃ g, f.operand? side = some g ∧ p ∈ g.occurrences := by
  cases f <;> cases side <;> simp [occurrences, operand?]

theorem mem_occurrences {f : Node V} {p : Place} : p ∈ f.occurrences ↔ (f.at? p).isSome := by
  induction p generalizing f with
  | nil => exact iff_of_true f.root_mem_occurrences rfl
  | cons side p ih =>
    rw [cons_mem_occurrences, at?]
    cases f.operand? side with
    | none => simp
    | some g => simp [ih]

/-! ## Numbers of trials -/

theorem probesAbove_cons {f g : Node V} {side : Bool} (h : f.operand? side = some g) (p : Place) :
    f.probesAbove (side :: p) = f.probes.toNat + g.probesAbove p := by
  have inner (q : Place) : f.at? (side :: q) = g.at? q := by rw [at?, h, Option.bind_some]
  have some_init : p.inits.map (side :: ·) ≠ [] := by
    rw [Ne, List.map_eq_nil_iff]
    cases p <;> simp
  rw [probesAbove, probesAbove, List.inits_cons, List.dropLast_cons_of_ne_nil some_init,
    ← List.map_dropLast, List.countP_cons, List.countP_map, Nat.add_comm]
  congr 1
  · cases probing : f.probes <;> simp [at?, probing]
  · simp only [Function.comp_def, inner]

theorem count_map_root (side : Bool) (places : List Place) :
    (places.map (side :: ·)).count [] = 0 := by
  rw [List.count_eq_zero]
  simp

theorem count_map_cons (side side' : Bool) (p : Place) (places : List Place) :
    (places.map (side :: ·)).count (side' :: p) = if side = side' then places.count p else 0 := by
  by_cases same : side = side'
  · subst same
    rw [if_pos rfl]
    exact List.count_map_of_injective _ _ List.cons_injective p
  · rw [if_neg same, List.count_eq_zero]
    simp [same]

theorem count_occurrences (f : Node V) (p : Place) :
    f.occurrences.count p = if (f.at? p).isSome then 1 else 0 := by
  rw [f.occurrences_nodup.count, if_congr mem_occurrences rfl rfl]

theorem count_trials_root (f : Node V) : f.trials.count [] = 0 := by
  cases f <;> simp [trials, count_map_root]

theorem count_trials_cons {f g : Node V} {side : Bool} (h : f.operand? side = some g) (p : Place) :
    f.trials.count (side :: p) = g.trials.count p + f.probes.toNat * g.occurrences.count p := by
  cases f <;> cases side <;> cases h <;> simp [trials, probes, count_map_cons]

theorem count_trials_of_no_operand {f : Node V} {side : Bool} (h : f.operand? side = none)
    (p : Place) : f.trials.count (side :: p) = 0 := by
  cases f <;> cases side <;> cases h <;> simp [trials, count_map_cons]

/-- A function is evaluated once for each function above it that probes. -/
theorem count_trials (f : Node V) (p : Place) :
    f.trials.count p = if (f.at? p).isSome then f.probesAbove p else 0 := by
  induction p generalizing f with
  | nil => exact f.count_trials_root
  | cons side p ih =>
    cases h : f.operand? side with
    | none =>
      rw [count_trials_of_no_operand h, at?, h]
      rfl
    | some g =>
      rw [count_trials_cons h, ih, count_occurrences, probesAbove_cons h, at?, h, Option.bind_some]
      cases (g.at? p).isSome with
      | false => rfl
      | true => simp only [if_true, Nat.mul_one, Nat.add_comm]

end Node
end FieldGraph
