import FieldGraph.Proofs.GradientRoutes

/-!
# Components do not interfere

The loop over the corners of an element adds to one row for each component, and
a row is computed from the component's own nodal values there. So the derivatives
of a component are those of a field that has this component only, bit for bit,
and no value at a node elsewhere enters. The same holds of gradients at samples
of every kind: they take the same route and fail alike.
-/

namespace FieldGraph

/-! ## Two evaluations side by side -/

namespace Calc
variable {α β γ δ ι : Type} {R : α → β → Prop} {S : γ → δ → Prop}

/-- Two calculations deliver related results or none. What they raise may differ. -/
def Alike (R : α → β → Prop) (x : Calc α) (y : Calc β) : Prop := Option.Rel R x.result y.result

namespace Alike

theorem pure {a : α} {b : β} (h : R a b) : Alike R (Pure.pure a) (Pure.pure b) := .some h

theorem refl (x : Calc α) : Alike Eq x x := by
  unfold Alike
  cases x.result with
  | none => exact .none
  | some a => exact .some rfl

theorem mono {R' : α → β → Prop} {x : Calc α} {y : Calc β} (h : Alike R x y)
    (imp : ∀ a b, R a b → R' a b) : Alike R' x y := by
  unfold Alike at h ⊢
  generalize x.result = r, y.result = r' at h ⊢
  cases h with
  | none => exact .none
  | some related => exact .some (imp _ _ related)

theorem same {x : Calc α} {P : α → Prop} (h : ∀ a, x.result = some a → P a) :
    Alike (fun a b => a = b ∧ P b) x x := by
  unfold Alike
  cases hx : x.result with
  | none => exact .none
  | some a => exact .some ⟨rfl, h a hx⟩

theorem flagged {x : Flagged α} {y : Flagged β} (h : R x.value y.value) :
    Alike R (ofFlagged x) (ofFlagged y) := .some h

theorem bind {x : Calc α} {y : Calc β} {f : α → Calc γ} {g : β → Calc δ} (h : Alike R x y)
    (hf : ∀ a b, R a b → Alike S (f a) (g b)) : Alike S (x >>= f) (y >>= g) := by
  unfold Alike at h ⊢
  rw [result_bind, result_bind]
  generalize x.result = r, y.result = r' at h ⊢
  cases h with
  | none => exact .none
  | some related => exact hf _ _ related

theorem foldlM {f : α → ι → Calc α} {g : β → ι → Calc β} {xs : List ι} {a : α} {b : β}
    (start : R a b) (step : ∀ a b, R a b → ∀ x ∈ xs, Alike R (f a x) (g b x)) :
    Alike R (xs.foldlM f a) (xs.foldlM g b) := by
  induction xs generalizing a b with
  | nil => exact pure start
  | cons x xs ih =>
    rw [List.foldlM_cons, List.foldlM_cons]
    refine (step a b start x List.mem_cons_self).bind fun a' b' h => ?_
    exact ih h fun a b hab y hy => step a b hab y (List.mem_cons_of_mem _ hy)

end Alike
end Calc

section
variable {K α β γ δ : Type} {R : α → β → Prop} {S : γ → δ → Prop}

/-- Two evaluations are matched, each in whatever context. -/
def Eval.Alike (R : α → β → Prop) (m : Eval K α) (m' : Eval K β) : Prop :=
  ∀ c c', Matched R (m c).1 (m' c').1

namespace Eval.Alike

theorem pure {a : α} {b : β} (h : R a b) : Alike (K := K) R (Pure.pure a) (Pure.pure b) :=
  fun _ _ => .ok h

theorem fail (e : Error K) : Alike R (Eval.fail e) (Eval.fail e) := fun _ _ => .error (.error e)

theorem notify (n : Notice) : Alike (K := K) Eq (Eval.notify n) (Eval.notify n) :=
  fun _ _ => .ok rfl

theorem calculate {x : Calc α} {y : Calc β} (h : x.Alike R y) :
    Alike (K := K) R (Eval.calculate x) (Eval.calculate y) := by
  intro c c'
  simp only [Eval.calculate]
  unfold Calc.Alike at h
  generalize x.result = r, y.result = r' at h
  cases h with
  | none => exact .error .outOfBounds
  | some related => exact .ok related

theorem bind {m : Eval K α} {m' : Eval K β} {f : α → Eval K γ} {g : β → Eval K δ}
    (h : Alike R m m') (hf : ∀ a b, R a b → Alike S (f a) (g b)) :
    Alike S (m >>= f) (m' >>= g) := by
  intro c c'
  have step := h c c'
  rw [Eval.bind_apply, Eval.bind_apply]
  generalize m c = out, m' c' = out' at step ⊢
  obtain ⟨o, c₁⟩ := out
  obtain ⟨o', c₁'⟩ := out'
  cases step with
  | ok related => exact hf _ _ related c₁ c₁'
  | error failure => exact .error failure

theorem require {p : Prop} [Decidable p] {e : Error K} {m : Eval K α} {m' : Eval K β}
    (h : Alike R m m') :
    Alike R (if p then (do Eval.fail e; m) else m) (if p then (do Eval.fail e; m') else m') := by
  split
  · exact bind (R := fun _ _ => True) (fail e) fun _ _ _ => h
  · exact h

end Eval.Alike
end

/-! ## Derivatives of one component -/

/-- Of two lists with rows of `n` entries, one in its row `j` has what the other has in its row `i`. -/
def SameRow {α : Type} (n i j : Nat) (xs ys : List α) : Prop :=
  ∀ k < n, ys[j * n + k]? = xs[i * n + k]?

namespace NodalField

section
variable {K : Type}

/-- The field with one component of a field. -/
def component (f : NodalField K) (i : Nat) (hi : i < f.components) : NodalField K where
  grid := f.grid
  components := 1
  rows := f.rows.map fun row => #v[row[i]]
  components_pos := Nat.one_pos
  values_fit := Nat.lt_of_le_of_lt (Nat.mul_le_mul_left _ f.components_pos) f.values_fit

theorem value?_component (f : NodalField K) {i : Nat} (hi : i < f.components) (n : Nat) :
    (f.component i hi).value? n 0 = f.value? n i := by
  show ((f.rows.map fun row => #v[row[i]])[n]?).bind _ = _
  rw [Vector.getElem?_map, value?]
  cases f.rows[n]? with
  | none => rfl
  | some row => exact (Vector.getElem?_eq_getElem hi).symm

/-- Two tables with rows of `dim` entries have a row in common. -/
structure ShareRow (dim components components' i j : Nat) (rows rows' : List (List K)) : Prop where
  table : IsTable components dim rows
  table' : IsTable components' dim rows'
  row_eq : rows'[j]? = rows[i]?

theorem ShareRow.flatten {dim n n' i j : Nat} {rows rows' : List (List K)}
    (h : ShareRow dim n n' i j rows rows') : SameRow dim i j rows.flatten rows'.flatten := by
  intro k hk
  rw [List.getElem?_flatten_of_length h.table'.2 j hk, h.row_eq,
    List.getElem?_flatten_of_length h.table.2 i hk]

end

section
variable {K : Type} [Scalar K]

/-- What a corner adds to the row of a component. -/
def addToRow (slopes row : List K) (value : K) : List K :=
  (row.zip slopes).map fun (sum, slope) => (Scalar.add sum (Scalar.mul value slope).value).value

theorem getElem?_addCorner (rows : List (List K)) (nodal slopes : List K) (i : Nat) :
    (addCorner rows nodal slopes).value[i]? =
      rows[i]?.bind fun row => nodal[i]?.map (addToRow slopes row) := by
  have rowwise : (addCorner rows nodal slopes).value = rows.zipWith (addToRow slopes) nodal := by
    rw [addCorner, Flagged.value_mapM, List.zip_eq_zipWith, List.map_zipWith]
    congr
    funext row value
    exact Flagged.value_mapM _ _
  rw [rowwise, List.getElem?_zipWith]
  cases rows[i]? with
  | none => rfl
  | some row => cases nodal[i]? <;> rfl

theorem ShareRow.addCorner {dim i j : Nat} {f f' : NodalField K} {rows rows' : List (List K)}
    (h : ShareRow dim f.components f'.components i j rows rows')
    {nodal : Vector K f.components} {nodal' : Vector K f'.components}
    (same : nodal'[j]? = nodal[i]?) {slopes : List K} (hs : slopes.length = dim) :
    ShareRow dim f.components f'.components i j (NodalField.addCorner rows nodal.toList slopes).value
      (NodalField.addCorner rows' nodal'.toList slopes).value where
  table := addCorner_isTable h.table Vector.length_toList hs
  table' := addCorner_isTable h.table' Vector.length_toList hs
  row_eq := by
    simp only [getElem?_addCorner, h.row_eq, Vector.getElem?_toList, same]

theorem derivativesIn_alike {f f' : NodalField K} (grid : f'.grid = f.grid) {i j : Nat}
    (hi : i < f.components) (hj : j < f'.components) {e : Nat}
    (agree : ∀ n ∈ f.grid.elementNodes e, f'.value? n j = f.value? n i) (ξ : List K) :
    (f.derivativesIn e ξ).Alike
      (fun d d' => d.length = f.components * f.grid.dim ∧ d'.length = f'.components * f.grid.dim ∧
        SameRow f.grid.dim i j d d') (f'.derivativesIn e ξ) := by
  obtain ⟨grid', components', values', pos', fit'⟩ := f'
  cases grid
  refine Calc.Alike.bind (R := ShareRow f.grid.dim f.components components' i j) (.foldlM ?_ ?_)
    fun rows rows' h => .pure ⟨h.table.length_flatten, h.table'.length_flatten, h.flatten⟩
  · refine ⟨zeros_isTable _ _, zeros_isTable _ _, ?_⟩
    rw [List.getElem?_replicate_of_lt hi, List.getElem?_replicate_of_lt hj]
  · intro rows rows' h corner hcorner
    have values := agree _ (List.mem_map_of_mem hcorner)
    refine Calc.Alike.bind (R := fun row row' => row'[j]? = row[i]?) ?_ fun nodal nodal' same => ?_
    · unfold value? at values
      unfold Calc.Alike
      rw [Calc.result_read, Calc.result_read]
      by_cases hn : f.grid.cornerNode e corner < f.grid.nodeCount
      · rw [Vector.getElem?_eq_getElem hn, Vector.getElem?_eq_getElem hn] at values ⊢
        exact .some values
      · rw [Vector.getElem?_eq_none (Nat.not_lt.mp hn), Vector.getElem?_eq_none (Nat.not_lt.mp hn)]
        exact .none
    · have slopes : ∀ slopes, (shapeDerivatives f.grid.axes corner ξ).result = some slopes →
          slopes.length = f.grid.dim := fun slopes hslopes => by
        rw [Calc.length_of_mapM hslopes, List.length_zipIdx]
        rfl
      refine (Calc.Alike.same slopes).bind ?_
      rintro slopes _ ⟨rfl, length⟩
      exact .flagged (h.addCorner same length)

theorem derivativesIn_local (f : NodalField K) {f' : NodalField K} (grid : f'.grid = f.grid) {i : Nat}
    (hi : i < f.components) (hi' : i < f'.components) {e : Nat} (he : e < f.grid.elementCount)
    (agree : ∀ n ∈ f.grid.elementNodes e, f'.value? n i = f.value? n i) {ξ : List K}
    (hξ : ξ.length = f.grid.dim) :
    ∃ d d', (f.derivativesIn e ξ).result = some d ∧ (f'.derivativesIn e ξ).result = some d' ∧
      ∀ k < f.grid.dim, ∃ x, d[i * f.grid.dim + k]? = some x ∧ d'[i * f.grid.dim + k]? = some x := by
  obtain ⟨d, hd, length⟩ := f.derivativesIn_delivers he hξ
  obtain ⟨d', hd', -⟩ := f'.derivativesIn_delivers (grid ▸ he) (grid ▸ hξ)
  have alike := derivativesIn_alike grid hi hi' agree ξ
  unfold Calc.Alike at alike
  rw [hd, hd'] at alike
  cases alike with
  | some related =>
    refine ⟨d, d', hd, hd', fun k hk => ?_⟩
    have inside : i * f.grid.dim + k < d.length := by
      rw [length]
      exact row_entry_lt ⟨i, hi⟩ ⟨k, hk⟩
    have here := List.getElem?_eq_getElem inside
    exact ⟨_, here, (related.2.2 k hk).trans here⟩

/-! ## A field with one component only -/

variable (f : NodalField K) {i : Nat} (hi : i < f.components)

/-- Derivatives of a field, and of the field that has its component `i` only. -/
structure Isolates (i : Nat) (derivatives alone : List K) : Prop where
  length_eq : derivatives.length = f.components * f.grid.dim
  length_alone : alone.length = f.grid.dim
  same : SameRow f.grid.dim i 0 derivatives alone

theorem derivativesIn_component (e : Nat) (ξ : List K) :
    (f.derivativesIn e ξ).Alike (f.Isolates i) ((f.component i hi).derivativesIn e ξ) := by
  have agree := fun n (_ : n ∈ f.grid.elementNodes e) => f.value?_component hi n
  have alike := derivativesIn_alike (f := f) (rfl : (f.component i hi).grid = f.grid) hi Nat.one_pos
    agree ξ
  refine alike.mono ?_
  rintro d d' ⟨length, length', same⟩
  exact ⟨length, length'.trans (Nat.one_mul _), same⟩

/-- Interpolations that go out of the grid together. -/
inductive FoundAlike (R : List K → List K → Prop) : Interpolation K → Interpolation K → Prop where
  | outside : FoundAlike R ⟨.outside, none⟩ ⟨.outside, none⟩
  | owned {d d' : List K} (related : R d d') : FoundAlike R ⟨.owned, some d⟩ ⟨.owned, some d'⟩

theorem derivativesAt_component (p : List K) :
    (f.derivativesAt p).Alike (FoundAlike (f.Isolates i)) ((f.component i hi).derivativesAt p) := by
  refine (Calc.Alike.refl (Calc.ofFlagged (f.grid.locate p))).bind ?_
  rintro found _ rfl
  cases found with
  | none => exact .pure .outside
  | some e =>
    refine (Calc.Alike.refl (f.grid.toLocal e p)).bind ?_
    rintro ξ _ rfl
    exact (f.derivativesIn_component hi e ξ).bind fun d d' related => .pure (.owned related)

end
end NodalField

namespace Gradient
variable {K : Type} [Scalar K] (f : NodalField K) {i : Nat} (hi : i < f.components)

theorem take_component (route : Route) (n : Notice) :
    Eval.Alike Eq (take (K := K) ⟨f⟩ route n) (take ⟨f.component i hi⟩ route n) := by
  refine (Eval.Alike.notify n).bind fun _ _ _ => ?_
  rw [Calc.reserve_of_lt (outputSize_lt ⟨f⟩), Calc.reserve_of_lt (outputSize_lt ⟨f.component i hi⟩)]
  exact (Eval.Alike.calculate (.refl _)).bind fun _ _ _ => .pure rfl

theorem evaluateGlobal_component (s : Sample K (Grid K)) :
    Eval.Alike (f.Isolates i) (evaluateGlobal ⟨f⟩ s) (evaluateGlobal ⟨f.component i hi⟩ s) := by
  refine .require ((Eval.Alike.calculate (f.derivativesAt_component hi _)).bind ?_)
  rintro found found' (_ | related)
  · exact .fail _
  · exact .pure related

variable [DecidableEq K]

theorem specialize_component (s : Sample K (Grid K)) :
    Eval.Alike Eq (specialize ⟨f⟩ s) (specialize ⟨f.component i hi⟩ s) := by
  cases s with
  | value c => exact .require (take_component f hi _ _)
  | element p =>
    show Eval.Alike Eq (if p.mesh = f.grid then _ else _) (if p.mesh = f.grid then _ else _)
    split
    · exact take_component f hi _ _
    · exact .require (take_component f hi _ _)
  | node p =>
    show Eval.Alike Eq (if p.mesh = f.grid then _ else _) (if p.mesh = f.grid then _ else _)
    split
    · exact take_component f hi _ _
    · exact .require (take_component f hi _ _)

theorem evaluate_component (route : Route) (s : Sample K (Grid K)) :
    Eval.Alike (f.Isolates i) (evaluate ⟨f⟩ route s) (evaluate ⟨f.component i hi⟩ route s) := by
  cases route with
  | global => exact evaluateGlobal_component f hi s
  | element =>
    cases s with
    | value c => exact .fail _
    | node p => exact .fail _
    | element p =>
      show Eval.Alike _ (if p.mesh = f.grid then _ else _) (if p.mesh = f.grid then _ else _)
      split
      · exact .calculate (f.derivativesIn_component hi _ _)
      · exact .fail _
  | node =>
    cases s with
    | value c => exact .fail _
    | element p => exact .fail _
    | node p =>
      show Eval.Alike _ (if p.mesh = f.grid then _ else _) (if p.mesh = f.grid then _ else _)
      split
      · refine (Eval.Alike.calculate (.refl _)).bind ?_
        rintro elements _ rfl
        cases elements.getLast? with
        | none => exact .fail _
        | some e =>
          refine .calculate ((Calc.Alike.refl (f.grid.toLocal e p.position.data)).bind ?_)
          rintro ξ _ rfl
          exact f.derivativesIn_component hi e ξ
      · exact .fail _

end Gradient

/-! ## Closures of gradients -/

namespace Closure
variable {M V : Type} [Mesh Binary64 M] [FieldVariable Binary64 M V] [DecidableEq M]

theorem afterCalls_gradient (g : Gradient V) (route : Route) (output : Container Binary64)
    (calls : List (Sample Binary64 M × Context)) :
    ∃ output' : Container Binary64, (gradient g route output).afterCalls calls =
      gradient g route output' ∧ output'.size = output.size ∧ output'.shape = output.shape := by
  have call (_ : Unit) (output : Container Binary64) (call : Sample Binary64 M × Context) :
      ∃ output' : Container Binary64,
        ((gradient g route output).run call.1 call.2).1.after = gradient g route output' ∧
          output'.size = output.size ∧ output'.shape = output.shape :=
    exists_after_deliver output _ _ _
  exact exists_afterCalls (fun _ _ => ()) call () output calls

/-- Gradients that are evaluated alike have closures that answer alike, after whatever calls of each. -/
theorem gradient_matched {g g' : Gradient V} {route : Route} {R : List Binary64 → List Binary64 → Prop}
    {s : Sample Binary64 M} (alike : Eval.Alike R (g.evaluate route s) (g'.evaluate route s))
    (lengths : ∀ d d', R d d' → d.length = g.outputSize ∧ d'.length = g'.outputSize)
    (calls calls' : List (Sample Binary64 M × Context)) (c c' : Context) :
    Matched (fun v v' => v.shape = g.outputShape ∧ v'.shape = g'.outputShape ∧ R v.data v'.data)
      (((gradient g route g.output).afterCalls calls).run s c).1.outcome
      (((gradient g' route g'.output).afterCalls calls').run s c').1.outcome := by
  obtain ⟨output, after, size, shape⟩ := afterCalls_gradient g route g.output calls
  obtain ⟨output', after', size', shape'⟩ := afterCalls_gradient g' route g'.output calls'
  rw [after, after']
  have answers : Eval.Alike
      (fun v v' => v.shape = g.outputShape ∧ v'.shape = g'.outputShape ∧ R v.data v'.data)
      ((gradient g route output).evaluate s) ((gradient g' route output').evaluate s) := by
    rw [evaluate_gradient, evaluate_gradient]
    refine alike.bind fun d d' related => .pure ⟨shape, shape', ?_⟩
    obtain ⟨length, length'⟩ := lengths d d' related
    have full : g.output.size = g.outputSize := List.length_replicate
    have full' : g'.output.size = g'.outputSize := List.length_replicate
    rwa [Container.data_write (by rw [length, size, full]),
      Container.data_write (by rw [length', size', full'])]
  exact answers c c'

end Closure

namespace Node

theorem gradient_component (f : NodalField Binary64) {i : Nat} (hi : i < f.components)
    (s : Sample Binary64 (Grid Binary64)) :
    Eval.Alike (fun closure alone => ∃ route,
        closure = .gradient ⟨f⟩ route (Gradient.mk f).output ∧
          alone = .gradient ⟨f.component i hi⟩ route (Gradient.mk (f.component i hi)).output)
      ((gradient ⟨f⟩).specialize s) ((gradient ⟨f.component i hi⟩).specialize s) := by
  refine (Gradient.specialize_component f hi s).bind ?_
  rintro route _ rfl
  exact .pure ⟨route, rfl, rfl⟩

theorem gradient_element (f : NodalField Binary64) {p : ElementPoint Binary64 (Grid Binary64)}
    (made : (Sample.element p).Made) (hmesh : p.mesh = f.grid) {d : List Binary64}
    (hd : (f.derivativesIn p.element p.coordinates).result = some d) (c : Context) :
    ((gradient ⟨f⟩).evaluate (.element p) c).1 = .ok ⟨(Gradient.mk f).outputShape, d⟩ := by
  obtain ⟨he, hξ, -⟩ := made.element_bounds
  rw [hmesh] at he hξ
  obtain ⟨_, h, length⟩ := f.derivativesIn_delivers he hξ
  rw [hd] at h
  cases h
  have routed : (Gradient.mk f).route? (Sample.element p) = some .element := if_pos hmesh
  rw [Gradient.evaluate_node_eq_sampled]
  exact Gradient.sampled_returns ⟨f⟩ routed length (Gradient.evaluate_element _ hmesh hd) c

end Node

/-- A component of a gradient is the gradient of the field that has this component only: it is bound
to the same route or fails alike, and from then on answers every sample with the same numbers or the
same error. Within an element it depends on the component's values at the corners only. -/
theorem components_isolated (f : NodalField Binary64) {i : Nat} (hi : i < f.components) :
    (∀ (s₀ : Sample Binary64 (Grid Binary64)) (c₀ c₀' : Context),
      Matched (fun closure alone =>
          ∀ (calls calls' : List (Sample Binary64 (Grid Binary64) × Context))
            (s : Sample Binary64 (Grid Binary64)) (c c' : Context),
            Matched (fun v w => w.shape = v.shape ∧ v.size = f.components * f.grid.dim ∧
                w.size = f.grid.dim ∧ ∀ k < f.grid.dim, w.data[k]? = v.data[i * f.grid.dim + k]?)
              ((closure.afterCalls calls).run s c).1.outcome
              ((alone.afterCalls calls').run s c').1.outcome)
        ((Node.gradient ⟨f⟩).specialize s₀ c₀).1
        ((Node.gradient ⟨f.component i hi⟩).specialize s₀ c₀').1) ∧
    ∀ f' : NodalField Binary64, f'.grid = f.grid → i < f'.components →
      ∀ e < f.grid.elementCount, (∀ n ∈ f.grid.elementNodes e, f'.value? n i = f.value? n i) →
        ∀ ξ : List Binary64, ξ.length = f.grid.dim →
          ∃ d d', (f.derivativesIn e ξ).result = some d ∧ (f'.derivativesIn e ξ).result = some d' ∧
            (∀ k < f.grid.dim, ∃ x, d[i * f.grid.dim + k]? = some x ∧
              d'[i * f.grid.dim + k]? = some x) ∧
            ∀ p : ElementPoint Binary64 (Grid Binary64), (Sample.element p).Made →
              p.mesh = f.grid → p.element = e → p.coordinates = ξ → ∀ c,
                ((Node.gradient ⟨f⟩).evaluate (.element p) c).1 =
                    .ok ⟨(Gradient.mk f).outputShape, d⟩ ∧
                  ((Node.gradient ⟨f'⟩).evaluate (.element p) c).1 =
                    .ok ⟨(Gradient.mk f).outputShape, d'⟩ := by
  constructor
  · intro s₀ c₀ c₀'
    refine (Node.gradient_component f hi s₀ c₀ c₀').mono ?_
    rintro _ _ ⟨route, rfl, rfl⟩ calls calls' s c c'
    have answers := Closure.gradient_matched (Gradient.evaluate_component f hi route s)
      (fun d d' h => ⟨h.length_eq, h.length_alone.trans (Nat.one_mul _).symm⟩) calls calls' c c'
    refine answers.mono ?_
    rintro v w ⟨shape, shape', isolates⟩
    refine ⟨shape'.trans shape.symm, isolates.length_eq, isolates.length_alone, fun k hk => ?_⟩
    have same := isolates.same k hk
    rwa [Nat.zero_mul, Nat.zero_add] at same
  · intro f' grid hi' e he agree ξ hξ
    obtain ⟨d, d', hd, hd', same⟩ := f.derivativesIn_local grid hi hi' he agree hξ
    refine ⟨d, d', hd, hd', same, ?_⟩
    rintro p made hmesh rfl rfl c
    have shape : (Gradient.mk f').outputShape = (Gradient.mk f).outputShape := by
      show (if f'.grid.dim = 1 then _ else _) = if f.grid.dim = 1 then _ else _
      rw [grid]
    rw [← shape]
    exact ⟨shape ▸ Node.gradient_element f made hmesh hd c,
      Node.gradient_element f' made (hmesh.trans grid.symm) hd' c⟩

/-- Beside a component with a NaN and an infinity, and with a NaN at a node beyond the element. -/
theorem components_isolated_nan :
    let g : Grid Binary64 :=
      ⟨0, [(Axis.make 2 (.ofRat 0) (.ofRat 2) Nat.two_pos).value], by decide, by decide⟩
    let f : NodalField Binary64 := ⟨g, 2, NodalField.rowsOf [⟨0x7ff8000000000000⟩, .ofRat 0,
      .ofRat 1, .ofRat 1, ⟨0x7ff0000000000000⟩, .ofRat 3] rfl, by decide, by decide⟩
    let f' : NodalField Binary64 := ⟨g, 2, NodalField.rowsOf [.ofRat 5, ⟨0x7ff8000000000000⟩,
      .ofRat 5, .ofRat 1, .ofRat 5, .ofRat 3] rfl, by decide, by decide⟩
    ∃ d d', 1 < f.components ∧ f'.grid = f.grid ∧
      (∀ n ∈ f.grid.elementNodes 1, f'.value? n 1 = f.value? n 1) ∧
      (f.derivativesIn 1 [.ofRat 0]).result = some d ∧
        (f'.derivativesIn 1 [.ofRat 0]).result = some d' ∧
          ∃ x, d[1]? = some x ∧ d'[1]? = some x := by
  intro g f f'
  have agree : ∀ n ∈ f.grid.elementNodes 1, f'.value? n 1 = f.value? n 1 := by decide +kernel
  obtain ⟨d, d', hd, hd', same, -⟩ := (components_isolated f (i := 1) (by decide)).2 f' rfl
    (by decide) 1 (by decide) agree [.ofRat 0] rfl
  exact ⟨d, d', by decide, rfl, agree, hd, hd', same 0 (by decide)⟩

end FieldGraph
