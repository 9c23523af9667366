import FieldGraph.Proofs.ElementBoxes
import FieldGraph.Proofs.ExactDerivatives

/-!
# Derivatives on faces

Two elements that lie next to each other have the nodes of the face between them in
common. On the face, the shape functions of all other corners have no slope along
it, and those of a common node have the same slope in both elements. So whatever the
field, its derivatives along the face do not depend on the element that they are
computed in; only the derivative across the face may jump.
-/

namespace FieldGraph

/-! ## Mirrored corners -/

section
variable {n : Nat} {a k : Fin n} {ξ ξ' : Fin n → Rat}

/-- The corner on the other side of an axis. -/
def mirror (a : Fin n) (c : Fin n → Bool) : Fin n → Bool := Function.update c a (!c a)

theorem mirror_involutive (a : Fin n) : Function.Involutive (mirror a) := by
  intro c
  simp [mirror]

theorem slopeFactor_mirror (along : k ≠ a) (upper : ξ a = 1) (lower : ξ' a = -1)
    (same : ∀ d, d ≠ a → ξ' d = ξ d) (c : Fin n → Bool) (d : Fin n) :
    slopeFactor ξ' k d (mirror a c d) = slopeFactor ξ k d (c d) := by
  by_cases hd : d = a
  · subst hd
    rw [mirror, Function.update_self, slopeFactor, slopeFactor, if_neg along.symm,
      if_neg along.symm, upper, lower]
    cases c d <;> norm_num [side]
  · rw [mirror, Function.update_of_ne hd, slopeFactor, slopeFactor, same d hd]

theorem prod_slopeFactor_off_face (along : k ≠ a) (upper : ξ a = 1) {c : Fin n → Bool}
    (off : c a = false) : ∏ d, slopeFactor ξ k d (c d) = 0 := by
  apply Finset.prod_eq_zero (Finset.mem_univ a)
  rw [slopeFactor, if_neg along.symm, upper, off]
  norm_num [side]

/-- Interpolation in two boxes with a common face has the same slopes along the face. -/
theorem sum_slopes_on_face (along : k ≠ a) (upper : ξ a = 1) (lower : ξ' a = -1)
    (same : ∀ d, d ≠ a → ξ' d = ξ d) {u u' : (Fin n → Bool) → Rat}
    (common : ∀ c, c a = true → u' (mirror a c) = u c) (h : Rat) :
    ∑ c, u c * ((∏ d, slopeFactor ξ k d (c d)) * 2 / h) =
      ∑ c, u' c * ((∏ d, slopeFactor ξ' k d (c d)) * 2 / h) := by
  calc ∑ c, u c * ((∏ d, slopeFactor ξ k d (c d)) * 2 / h)
    _ = ∑ c, u' (mirror a c) * ((∏ d, slopeFactor ξ' k d (mirror a c d)) * 2 / h) := by
      apply Finset.sum_congr rfl
      intro c _
      simp only [slopeFactor_mirror along upper lower same]
      -- a corner is common to both boxes, or has no slope along the face
      cases on : c a with
      | true => rw [common c on]
      | false =>
        rw [prod_slopeFactor_off_face along upper on]
        ring
    _ = ∑ c, u' c * ((∏ d, slopeFactor ξ' k d (c d)) * 2 / h) :=
      Equiv.sum_comp (mirror_involutive a).toPerm fun c =>
        u' c * ((∏ d, slopeFactor ξ' k d (c d)) * 2 / h)

end

/-! ## Neighbors -/

namespace Grid

section
variable {K : Type} {g : Grid K} {a : Fin g.dim} {e e' : Nat}

/-- Along an axis, an element comes right after another one. -/
structure Adjoins (g : Grid K) (a : Fin g.dim) (e e' : Nat) : Prop where
  first_lt : e < g.elementCount
  second_lt : e' < g.elementCount
  next : g.cellOn e' = Function.update (g.cellOn e) a (g.cellOn e a + 1)

namespace Adjoins

theorem cellOn_axis (h : g.Adjoins a e e') : g.cellOn e' a = g.cellOn e a + 1 := by
  rw [h.next, Function.update_self]

theorem cellOn_of_ne (h : g.Adjoins a e e') {d : Fin g.dim} (hd : d ≠ a) :
    g.cellOn e' d = g.cellOn e d := by
  rw [h.next, Function.update_of_ne hd]

theorem cornerNode_mirror (h : g.Adjoins a e e') {c : Fin g.dim → Bool} (upper : c a = true) :
    g.cornerNode e' (List.ofFn (mirror a c)) = g.cornerNode e (List.ofFn c) := by
  rw [g.cornerNode_eq e', g.cornerNode_eq e]
  congr 2
  funext d
  by_cases hd : d = a
  · subst hd
    rw [h.cellOn_axis, mirror, Function.update_self, upper]
    rfl
  · rw [h.cellOn_of_ne hd, mirror, Function.update_of_ne hd]

end Adjoins
end

variable {g : Grid Rat} {a : Fin g.dim} {e e' : Nat} {x : Fin g.dim → Rat}

theorem Made.toLocal_face (made : g.Made) (h : g.Adjoins a e e') (hx : g.BoxContains e x)
    (hx' : g.BoxContains e' x) :
    ∃ ξ ξ' : Fin g.dim → Rat, (g.toLocal e (List.ofFn x)).result = some (List.ofFn ξ) ∧
      (g.toLocal e' (List.ofFn x)).result = some (List.ofFn ξ') ∧ ξ a = 1 ∧ ξ' a = -1 ∧
        ∀ d, d ≠ a → ξ' d = ξ d := by
  have before : g.cellOn e a < g.cellOn e' a := by
    rw [h.cellOn_axis]
    exact Nat.lt_succ_self _
  obtain ⟨upper, lower⟩ := made.onSide_of_lt before hx hx'
  refine ⟨_, _, g.result_toLocal e x, g.result_toLocal e' x, ?_, ?_, ?_⟩
  · rw [upper]
    exact (made.axis a).toLocal_node _ true
  · rw [lower]
    exact (made.axis a).toLocal_node _ false
  · intro d hd
    rw [h.cellOn_of_ne hd]

end Grid

/-- On the face between two elements a field has the same derivatives along the face in either of
them. -/
theorem tangential_derivatives_agree (f : NodalField Rat) (made : f.grid.Made)
    {a : Fin f.grid.dim} {e e' : Nat} (next : f.grid.Adjoins a e e') {x : Fin f.grid.dim → Rat}
    (hx : f.grid.BoxContains e x) (hx' : f.grid.BoxContains e' x) :
    ∃ ds ds', (f.grid.toLocal e (List.ofFn x) >>= f.derivativesIn e).result = some ds ∧
      (f.grid.toLocal e' (List.ofFn x) >>= f.derivativesIn e').result = some ds' ∧
        ∀ i < f.components, ∀ k, k ≠ a → ∃ slope, ds[i * f.grid.dim + k]? = some slope ∧
          ds'[i * f.grid.dim + k]? = some slope := by
  obtain ⟨ξ, ξ', first, second, upper, lower, same⟩ := made.toLocal_face next hx hx'
  simp only [Calc.result_bind, first, second, Option.bind_some, f.derivativesIn_eq next.first_lt,
    f.derivativesIn_eq next.second_lt]
  refine ⟨_, _, rfl, rfl, ?_⟩
  intro i hi k along
  refine ⟨_, NodalField.getElem?_flatten_table _ ⟨i, hi⟩ k, ?_⟩
  rw [NodalField.getElem?_flatten_table _ ⟨i, hi⟩ k, sum_slopes_on_face along upper lower same]
  intro c on
  rw [next.cornerNode_mirror on]

/-- Two elements beside each other: the derivatives across their face differ, those along it not. -/
theorem tangential_derivatives_agree_beside :
    let g : Grid Rat := ⟨0, [(Axis.make 2 0 2 Nat.two_pos).value,
      (Axis.make 1 0 1 Nat.one_pos).value], by decide, by decide⟩
    let f : NodalField Rat :=
      ⟨g, 1, NodalField.rowsOf [0, 1, 4, 0, 3, 9] rfl, by decide, by decide⟩
    let x : Fin f.grid.dim → Rat := point [1, 1 / 2]
    f.grid.Made ∧ f.grid.Adjoins ⟨0, by decide⟩ 0 1 ∧ f.grid.BoxContains 0 x ∧
      f.grid.BoxContains 1 x ∧
        ∃ ds ds', (f.grid.toLocal 0 (List.ofFn x) >>= f.derivativesIn 0).result = some ds ∧
          (f.grid.toLocal 1 (List.ofFn x) >>= f.derivativesIn 1).result = some ds' ∧
            ds[1]? = ds'[1]? ∧ ds[0]? ≠ ds'[0]? := by
  intro g f x
  have created : (Grid.create 0 [2, 1] [0, 0] [2, 1] {}).1 = .ok g := by decide +kernel
  have made : f.grid.Made := .create (g := g) (Prod.ext created rfl)
  have next : f.grid.Adjoins ⟨0, by decide⟩ 0 1 := ⟨by decide, by decide, by decide⟩
  have first : ∀ d : Fin f.grid.dim, (f.grid.axis d).node (f.grid.cellOn 0 d) ≤ x d ∧
      x d ≤ (f.grid.axis d).node (f.grid.cellOn 0 d + 1) := by decide +kernel
  have second : ∀ d : Fin f.grid.dim, (f.grid.axis d).node (f.grid.cellOn 1 d) ≤ x d ∧
      x d ≤ (f.grid.axis d).node (f.grid.cellOn 1 d + 1) := by decide +kernel
  obtain ⟨ds, ds', below, above, agree⟩ := tangential_derivatives_agree f made next first second
  have below_eq : (f.grid.toLocal 0 (List.ofFn x) >>= f.derivativesIn 0).result = some [2, 2] := by
    decide +kernel
  have above_eq : (f.grid.toLocal 1 (List.ofFn x) >>= f.derivativesIn 1).result =
      some [9 / 2, 2] := by decide +kernel
  obtain ⟨slope, along, along'⟩ := agree 0 (by decide) ⟨1, by decide⟩ (by decide)
  refine ⟨made, next, first, second, ds, ds', below, above, along.trans along'.symm, ?_⟩
  rw [Option.some.inj (below.symm.trans below_eq), Option.some.inj (above.symm.trans above_eq)]
  decide +kernel

end FieldGraph
