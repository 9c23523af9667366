import FieldGraph.Capacity

/-!
# Calculations that deliver

A calculation delivers if no index and no size runs out of its bounds. What is
known of the result of one step is what the next step may rely on, so that bounds
are checked along the structure of a formula.
-/

namespace FieldGraph.Calc

variable {α β : Type} {P : α → Prop} {Q : β → Prop}

/-- The calculation has a result, which is as `P` says. -/
def Delivers (x : Calc α) (P : α → Prop) : Prop := ∃ a, x.result = some a ∧ P a

namespace Delivers

theorem pure {a : α} (h : P a) : Delivers (Pure.pure a) P := ⟨a, rfl, h⟩

theorem flagged {x : Flagged α} (h : P x.value) : Delivers (ofFlagged x) P := ⟨x.value, rfl, h⟩

theorem read {x : Option α} {a : α} (hx : x = some a) (h : P a) : Delivers (Calc.read x) P :=
  ⟨a, hx, h⟩

theorem mono {P' : α → Prop} {x : Calc α} (h : x.Delivers P) (hP : ∀ a, P a → P' a) :
    x.Delivers P' := by
  obtain ⟨a, ha, hPa⟩ := h
  exact ⟨a, ha, hP a hPa⟩

theorem bind {x : Calc α} {f : α → Calc β} (hx : x.Delivers P) (hf : ∀ a, P a → (f a).Delivers Q) :
    (x >>= f).Delivers Q := by
  obtain ⟨a, ha, hPa⟩ := hx
  obtain ⟨b, hb, hQb⟩ := hf a hPa
  refine ⟨b, ?_, hQb⟩
  rw [result_bind, ha]
  exact hb

theorem bind_flagged {x : Flagged α} {f : α → Calc β} (hf : ∀ a, (f a).Delivers Q) :
    (ofFlagged x >>= f).Delivers Q :=
  bind (P := fun _ => True) (flagged trivial) fun a _ => hf a

theorem reserve {n : Nat} (h : n < roomLimit) : Delivers (Calc.reserve n) fun _ => True := by
  rw [reserve_of_lt h]
  exact pure trivial

/-! ## Lists -/

theorem mapM {f : α → Calc β} {xs : List α} (h : ∀ x ∈ xs, (f x).Delivers Q) :
    Delivers (xs.mapM f) fun ys => ys.length = xs.length ∧ ∀ y ∈ ys, Q y := by
  induction xs with
  | nil => exact pure ⟨rfl, fun _ hy => nomatch hy⟩
  | cons x xs ih =>
    rw [List.mapM_cons]
    refine (h x List.mem_cons_self).bind fun y hy => ?_
    refine (ih fun x hx => h x (List.mem_cons_of_mem _ hx)).bind fun ys ⟨hlen, hys⟩ => ?_
    refine pure ⟨by rw [List.length_cons, List.length_cons, hlen], fun z hz => ?_⟩
    rcases List.mem_cons.mp hz with rfl | hz
    · exact hy
    · exact hys z hz

theorem foldlM {f : β → α → Calc β} {xs : List α} {b : β} (hb : Q b)
    (h : ∀ b, Q b → ∀ x ∈ xs, (f b x).Delivers Q) : Delivers (xs.foldlM f b) Q := by
  induction xs generalizing b with
  | nil => exact pure hb
  | cons x xs ih =>
    rw [List.foldlM_cons]
    exact (h b hb x List.mem_cons_self).bind fun b' hb' =>
      ih hb' fun b hb x hx => h b hb x (List.mem_cons_of_mem _ hx)

end Delivers
end FieldGraph.Calc

namespace FieldGraph.Flagged

variable {α β : Type}

@[simp] theorem value_map (f : α → β) (x : Flagged α) : (f <$> x).value = f x.value := rfl

theorem value_mapM (f : α → Flagged β) (xs : List α) :
    (xs.mapM f).value = xs.map fun x => (f x).value := by
  induction xs with
  | nil => rfl
  | cons x xs ih =>
    rw [List.mapM_cons, value_bind, value_bind, value_pure, ih]
    rfl

end FieldGraph.Flagged

theorem Option.length_of_mapM {α β : Type} {f : α → Option β} {xs : List α} {ys : List β}
    (h : xs.mapM f = some ys) : ys.length = xs.length := by
  induction xs generalizing ys with
  | nil => cases h; rfl
  | cons x xs ih =>
    rw [List.mapM_cons] at h
    obtain ⟨y, -, h⟩ := Option.bind_eq_some_iff.mp h
    obtain ⟨tail, htail, h⟩ := Option.bind_eq_some_iff.mp h
    cases h
    exact congrArg (· + 1) (ih htail)
