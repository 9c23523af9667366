import FieldGraph.Proofs.Kinds

/-!
# Gradients of nodal fields

Over a nodal field the kind of a sample settles how specializing its gradient
ends: with the route for the kind, or with an error if there is none. On its
route the gradient delivers an entry for each component and axis, unless the
sample lies outside the domain.
-/

namespace FieldGraph.Gradient

variable {K : Type} [Scalar K] (g : Gradient (NodalField K)) {s : Sample K (Grid K)}

/-! ## Evaluation -/

theorem evaluateGlobal_settles [LawfulScalar K] (h : s.position.size = g.dim) :
    Settles Failure.OfValue (g.evaluateGlobal s) fun d => d.length = g.outputSize := by
  unfold evaluateGlobal
  rw [if_neg (not_not_intro h)]
  refine (Settles.calculate (g.field.derivativesAt_delivers h)).bind fun found hfound => ?_
  split
  · next usable =>
    obtain ⟨d, hd, hlen⟩ := hfound usable
    rw [hd]
    exact .pure hlen
  · exact .fail trivial

section
variable [DecidableEq K] {E : Failure K → Prop} {ds : List K}

theorem evaluate_element {p : ElementPoint K (Grid K)} (hmesh : p.mesh = g.field.grid)
    (h : (g.field.derivativesIn p.element p.coordinates).result = some ds) :
    Settles E (g.evaluate .element (.element p)) (· = ds) := by
  show Settles _ (if p.mesh = g.field.grid then _ else _) _
  rw [if_pos hmesh]
  exact .calculate ⟨ds, h, rfl⟩

theorem evaluate_node {p : NodePoint K (Grid K)} (hmesh : p.mesh = g.field.grid) {e : Nat}
    {ξ : List K} (last : (g.field.grid.nodeElements p.node).getLast? = some e)
    (hξ : (g.field.grid.toLocal e p.position.data).result = some ξ)
    (h : (g.field.derivativesIn e ξ).result = some ds) :
    Settles E (g.evaluate .node (.node p)) (· = ds) := by
  show Settles _ (if p.mesh = g.field.grid then _ else _) _
  rw [if_pos hmesh]
  refine (Settles.calculate (.read (P := (· = g.field.grid.nodeElements p.node)) rfl rfl)).bind ?_
  rintro elements rfl
  rw [last]
  refine .calculate ⟨ds, ?_, rfl⟩
  rw [Calc.result_bind]
  exact Option.bind_eq_some_iff.mpr ⟨ξ, hξ, h⟩

theorem evaluate_global (size : s.position.size = g.dim) {e : Nat}
    {ξ : List K} (found : (g.field.grid.locate s.position.data).value = some e)
    (hξ : (g.field.grid.toLocal e s.position.data).result = some ξ)
    (h : (g.field.derivativesIn e ξ).result = some ds) :
    Settles E (g.evaluate .global s) (· = ds) := by
  have there : (g.field.derivativesAt s.position.data).result = some ⟨.owned, some ds⟩ := by
    rw [NodalField.derivativesAt, Calc.result_bind]
    refine Option.bind_eq_some_iff.mpr ⟨some e, congrArg some found, ?_⟩
    simp only [Calc.result_bind, hξ, Option.bind_some, h]
    rfl
  show Settles _ (g.evaluateGlobal s) _
  unfold evaluateGlobal
  rw [if_neg (not_not_intro size)]
  refine (Settles.calculate (P := (· = ⟨.owned, some ds⟩)) ⟨_, there, rfl⟩).bind ?_
  rintro _ rfl
  exact .pure rfl

theorem evaluateElement_settles {p : ElementPoint K (Grid K)}
    (h : (Sample.element p).Made) (hmesh : p.mesh = g.field.grid) :
    Settles Failure.OfValue (g.evaluate .element (.element p)) fun d => d.length = g.outputSize := by
  obtain ⟨he, hξ, -⟩ := h.element_bounds
  rw [hmesh] at he hξ
  obtain ⟨ds, hds, hlen⟩ := g.field.derivativesIn_delivers he hξ
  exact (g.evaluate_element hmesh hds).imp fun _ same => same ▸ hlen

theorem evaluateNode_settles {p : NodePoint K (Grid K)}
    (h : (Sample.node p).Made) (hmesh : p.mesh = g.field.grid) :
    Settles Failure.OfValue (g.evaluate .node (.node p)) fun d => d.length = g.outputSize := by
  obtain ⟨hn, hp⟩ := h.node_bounds
  rw [hmesh] at hn hp
  -- some element meets every node, the last of them is the one to interpolate in
  have meet := g.field.grid.nodeElements_ne_nil p.node
  have he := g.field.grid.nodeElements_lt hn (List.getLast_mem meet)
  obtain ⟨ξ, hξ, width⟩ := g.field.grid.toLocal_delivers _ hp
  obtain ⟨ds, hds, hlen⟩ := g.field.derivativesIn_delivers he width
  have last := List.getLast?_eq_some_getLast meet
  exact (g.evaluate_node hmesh last hξ hds).imp fun _ same => same ▸ hlen

/-- The samples for which there is a route, with the route. -/
inductive Routed : Sample K (Grid K) → Route → Prop where
  | element {p : ElementPoint K (Grid K)} (same : p.mesh = g.field.grid) :
      Routed (.element p) .element
  | node {p : NodePoint K (Grid K)} (same : p.mesh = g.field.grid) : Routed (.node p) .node
  | global {s : Sample K (Grid K)} (size : s.position.size = g.dim) : Routed s .global

variable {g} in
theorem Routed.of_route? {route : Route} (h : g.route? s = some route) : g.Routed s route := by
  have elsewhere (h : (if s.position.size = g.dim then some Route.global else none) = some route) :
      g.Routed s route := by
    split at h
    · next size =>
      cases h
      exact .global size
    · cases h
  cases s with
  | value c => exact elsewhere h
  | element p =>
    change (if p.mesh = g.field.grid then _ else _) = _ at h
    by_cases same : p.mesh = g.field.grid
    · rw [if_pos same] at h
      cases h
      exact .element same
    · rw [if_neg same] at h
      exact elsewhere h
  | node p =>
    change (if p.mesh = g.field.grid then _ else _) = _ at h
    by_cases same : p.mesh = g.field.grid
    · rw [if_pos same] at h
      cases h
      exact .node same
    · rw [if_neg same] at h
      exact elsewhere h

theorem evaluate_settles [LawfulScalar K] (hs : s.Made) {route : Route}
    (h : g.route? s = some route) :
    Settles Failure.OfValue (g.evaluate route s) fun d => d.length = g.outputSize := by
  cases Routed.of_route? h with
  | element same => exact g.evaluateElement_settles hs same
  | node same => exact g.evaluateNode_settles hs same
  | global size => exact g.evaluateGlobal_settles size

end

/-! ## Specialization -/

theorem outputSize_lt : g.outputSize < Calc.roomLimit := by
  refine Nat.lt_of_le_of_lt ?_ g.field.values_fit
  calc g.field.components * g.field.grid.dim
    _ ≤ g.field.components * g.field.grid.nodeCount :=
      Nat.mul_le_mul_left _ (Nat.le_of_lt g.field.grid.dim_lt_nodeCount)
    _ = g.field.grid.nodeCount * g.field.components := Nat.mul_comm ..

section
variable [DecidableEq K]

theorem take_settles {E : Failure K → Prop} {route : Route} (n : Notice)
    (h : g.route? s = some route) :
    Settles E (g.take route n) fun route => g.route? s = some route := by
  apply Settles.record
  apply (Settles.calculate (.reserve g.outputSize_lt)).bind
  intro _ _
  exact .pure h

theorem takeGlobal_settles {e : Error K} (n : Notice)
    (h : g.route? s = if s.position.size = g.dim then some .global else none) :
    Settles (fun _ => g.route? s = none)
      (if s.position.size ≠ g.dim then (do Eval.fail e; g.take .global n) else g.take .global n)
      fun route => g.route? s = some route := by
  apply Settles.require
  · intro hw
    rw [h, if_neg hw]
  · intro hw
    exact g.take_settles n (by rw [h, if_pos (Decidable.not_not.mp hw)])

theorem specialize_settles (s : Sample K (Grid K)) :
    Settles (fun _ => g.route? s = none) (g.specialize s)
      fun route => g.route? s = some route := by
  cases s with
  | value c => exact g.takeGlobal_settles _ rfl
  | element p =>
    show Settles _ (if p.mesh = g.field.grid then _ else _) _
    split
    · next hmesh => exact g.take_settles _ (if_pos hmesh)
    · next hmesh => exact g.takeGlobal_settles _ (if_neg hmesh)
  | node p =>
    show Settles _ (if p.mesh = g.field.grid then _ else _) _
    split
    · next hmesh => exact g.take_settles _ (if_pos hmesh)
    · next hmesh => exact g.takeGlobal_settles _ (if_neg hmesh)

/-- Only the size of a position can make specialization fail. -/
theorem specialize_fails {E : Failure K → Prop} (incompatible : E (.error (.incompatibleInput name)))
    (mismatch : ∀ size, E (.error (.dimensionMismatch g.dim size))) (s : Sample K (Grid K)) :
    Settles E (g.specialize s) fun _ => True := by
  have taken (route : Route) (n : Notice) : Settles E (g.take route n) fun _ => True :=
    .record <| (Settles.calculate (.reserve g.outputSize_lt)).bind fun _ _ => .pure trivial
  unfold specialize
  cases s with
  | value c => exact .require (fun _ => mismatch _) fun _ => taken _ _
  | element p =>
    dsimp only
    split
    · exact taken _ _
    · exact .require (fun _ => incompatible) fun _ => taken _ _
  | node p =>
    dsimp only
    split
    · exact taken _ _
    · exact .require (fun _ => incompatible) fun _ => taken _ _

end
end FieldGraph.Gradient
