import FieldGraph.Proofs.Soundness
import FieldGraph.Proofs.SuccessfulCalls

/-!
# Samples of one kind

Of a mesh a kind keeps no more than the address. Meshes that exist at the same time
have different addresses, but where one was kept another may be kept later, and its
positions may have another size. A closure that was made for a sample suits another
sample of the kind if and only if the function can be reused from the one size to the
other. Otherwise a call fails: it compares the sizes that it meets with those that the
closure was made for.
-/

namespace FieldGraph

/-- A failure that is due to the size of a position, or of what was made from it. -/
def Failure.OfSize {K : Type} : Failure K → Prop
  | .error (.shapeMismatch ..) | .error (.componentOutOfRange ..) | .error (.dimensionMismatch ..) => True
  | _ => False

/-! ## Meshes that exist together -/

/-- The mesh of a descriptor. -/
def Sample.mesh? {K M : Type} : Sample K M → Option M
  | value _ => none
  | element p => some p.mesh
  | node p => some p.mesh

/-- The grid exists together with the mesh of the sample: at one address they are the same. -/
def Sample.Coexists {K : Type} (s : Sample K (Grid K)) (g : Grid K) : Prop :=
  ∀ m, s.mesh? = some m → m.address = g.address → m = g

/-- Samples as a function can meet them. It keeps its fields, and these keep their grids. -/
structure Node.Meets (f : Node (NodalField Binary64)) (s : Sample Binary64 (Grid Binary64)) :
    Prop where
  made : s.Made
  coexists : ∀ v ∈ f.fields, s.Coexists v.grid

/-- The function meets two samples of one kind, one after the other. -/
structure Node.MeetsAgain (f : Node (NodalField Binary64)) (s₀ s : Sample Binary64 (Grid Binary64)) :
    Prop where
  first : f.Meets s₀
  now : f.Meets s
  kinds : s.kind = s₀.kind

variable {s₀ s : Sample Binary64 (Grid Binary64)} {f g : Node (NodalField Binary64)}

theorem Node.Meets.mono (h : f.Meets s) (sub : g.fields ⊆ f.fields) : g.Meets s :=
  ⟨h.made, fun v hv => h.coexists v (sub hv)⟩

theorem Node.Meets.guarding {guarding : Bool} (h : f.Meets s) :
    (if guarding then Node.guarded f else f).Meets s := by
  cases guarding <;> exact h.mono fun _ hv => hv

theorem Node.MeetsAgain.mono (h : f.MeetsAgain s₀ s) (sub : g.fields ⊆ f.fields) :
    g.MeetsAgain s₀ s :=
  ⟨h.first.mono sub, h.now.mono sub, h.kinds⟩

/-! ## Routes -/

namespace Gradient

/-- The route for a descriptor depends on whether it is on the field's mesh, and if not on the size of
its position. -/
theorem route_of_same {m₀ m grid : Grid Binary64} (same : m = grid ↔ m₀ = grid) {own route : Route}
    {n₀ n dim : Nat}
    (routed : (if m₀ = grid then some own else if n₀ = dim then some .global else none) = some route)
    (size : route = .global → n = dim) :
    (if m = grid then some own else if n = dim then some .global else none) = some route := by
  by_cases h : m₀ = grid
  · rw [if_pos h] at routed
    rw [if_pos (same.mpr h), routed]
  · rw [if_neg h] at routed
    obtain ⟨-, taken⟩ := Option.ite_none_right_eq_some.mp routed
    rw [if_neg (mt same.mp h), if_pos (size (Option.some.inj taken).symm), taken]

theorem route?_again {g : Gradient (NodalField Binary64)} (again : (Node.gradient g).MeetsAgain s₀ s)
    {route : Route} (routed : g.route? s₀ = some route)
    (size : route = .global → s.position.size = g.dim) : g.route? s = some route := by
  obtain ⟨⟨-, apart₀⟩, ⟨-, apart⟩, kinds⟩ := again
  have mem : g.field ∈ (Node.gradient g).fields := List.mem_singleton_self _
  have same {m₀ m : Grid Binary64} (h₀ : s₀.mesh? = some m₀) (h : s.mesh? = some m)
      (address : m.address = m₀.address) : m = g.field.grid ↔ m₀ = g.field.grid :=
    ⟨fun e => apart₀ _ mem m₀ h₀ (address.symm.trans (congrArg Grid.address e)),
      fun e => apart _ mem m h (address.trans (congrArg Grid.address e))⟩
  cases s₀ with
  | value c₀ =>
    cases s with
    | value c =>
      obtain ⟨-, taken⟩ := Option.ite_none_right_eq_some.mp routed
      exact (if_pos (size (Option.some.inj taken).symm)).trans taken
    | _ => cases kinds
  | element p₀ =>
    cases s with
    | element p => exact route_of_same (same rfl rfl (SampleKind.element.inj kinds)) routed size
    | _ => cases kinds
  | node p₀ =>
    cases s with
    | node p => exact route_of_same (same rfl rfl (SampleKind.node.inj kinds)) routed size
    | _ => cases kinds

theorem size_of_route? {g : Gradient (NodalField Binary64)} (made : s.Made) {route : Route}
    (routed : g.route? s = some route) : s.position.size = g.dim := by
  cases Routed.of_route? routed with
  | element same => exact made.element_bounds.2.2.trans (congrArg Grid.dim same)
  | node same => exact made.node_bounds.2.trans (congrArg Grid.dim same)
  | global size => exact size

theorem evaluateGlobal_mismatch {g : Gradient (NodalField Binary64)} (size : s.position.size ≠ g.dim) :
    Settles Failure.OfSize (g.evaluateGlobal s) fun _ => False := by
  unfold evaluateGlobal
  exact .require (fun _ => trivial) fun same => absurd size same

end Gradient

/-! ## Sizes -/

/-- What is made of the function at positions of one size can be used at positions of another. -/
def Node.Reusable (first now : Nat) : Node (NodalField Binary64) → Prop
  | input => True
  | constant _ => True
  | component function i => function.Reusable first now ∧ i < function.width now
  | inputComponent i => i < now
  | binary left right _ => (left.Reusable first now ∧ right.Reusable first now) ∧
      left.width now = left.width first ∧ right.width now = right.width first
  | unary function _ => function.Reusable first now ∧ function.width now = function.width first
  | guarded function => function.Reusable first now
  | gradient _ => now = first
  | traced _ function => function.Reusable first now
  | refusing => True

/-! ## Closures -/

namespace Closure
variable {c c' : Closure (NodalField Binary64)} {v : Container Binary64} {r : Flags}

theorem Suits.of_reusable (suits : Suits s₀ f c) (again : f.MeetsAgain s₀ s)
    (reusable : f.Reusable s₀.position.size s.position.size) : Suits s f c := by
  induction suits with
  | input => exact .input
  | constant value => exact .constant value
  | component function hi single ih =>
    exact .component (ih (again.mono fun _ h => h) reusable.1) reusable.2 single
  | inputComponent hi single => exact .inputComponent reusable single
  | @binary lf rf lc rc op mode output left right sizes whole ihl ihr =>
    obtain ⟨⟨reuseLeft, reuseRight⟩, sameLeft, sameRight⟩ := reusable
    have left := ihl (again.mono (List.subset_append_left _ _)) reuseLeft
    have right := ihr (again.mono (List.subset_append_right _ _)) reuseRight
    refine .binary left right ?_ ?_
    · rw [sameLeft, sameRight, sizes]
    · rw [whole, Node.width, Node.width, sameLeft, sameRight]
  | unary function whole ih =>
    obtain ⟨reuse, same⟩ := reusable
    exact .unary (ih (again.mono fun _ h => h) reuse) (whole.trans same.symm)
  | guarded function ih => exact .guarded (ih (again.mono fun _ h => h) reusable)
  | gradient routed whole =>
    have size := Gradient.size_of_route? again.first.made routed
    exact .gradient (Gradient.route?_again again routed fun _ => reusable.trans size) whole
  | traced function ih => exact .traced (ih (again.mono fun _ h => h) reusable)

theorem Suits.reusable_of_size (suits : Suits s₀ f c)
    (size : s.position.size = s₀.position.size) :
    f.Reusable s₀.position.size s.position.size := by
  rw [size]
  induction suits with
  | input => trivial
  | constant value => trivial
  | component function hi single ih => exact ⟨ih, hi⟩
  | inputComponent hi single => exact hi
  | binary left right sizes whole ihl ihr => exact ⟨⟨ihl, ihr⟩, rfl, rfl⟩
  | unary function whole ih => exact ⟨ih, rfl⟩
  | guarded function ih => exact ih
  | gradient routed whole => rfl
  | traced function ih => exact ih

theorem Suits.size_of_returns (suits : Suits s f c) (hs : s.Made) (returned : c.Returns s v c' r) :
    v.size = f.width s.position.size := by
  obtain ⟨agree, -⟩ := suits.follows hs {}
  have delivered := (yields_evaluate_iff.mpr ⟨c', returned⟩ {}).1
  generalize (c.evaluate s {}).1 = o, (f.meaning s).result = meant at agree delivered
  cases agree with
  | ok related =>
    cases delivered
    exact related.size_eq
  | error ofValue => cases delivered

theorem lt_size_of_extract {x : Container Binary64} {i : Nat} {y : Binary64}
    (h : Yields (extract x (Binary64.byteCount * i) (Binary64.byteCount * (i + 1))) y r) :
    i < x.size := by
  rw [extract_component] at h
  cases there : x.get? i with
  | none =>
    rw [there] at h
    exact h.not_fail.elim
  | some y => exact (List.getElem?_eq_some_iff.mp there).1

theorem sizes_of_combine {op : BinaryOp} {mode : Broadcast} {output x y : Container Binary64}
    {data : List Binary64} (h : Yields (combine op mode output x y) data r) :
    (x.size, y.size) = mode.operandSizes output.size :=
  Decidable.not_not.mp (Yields.of_require (.calculate _) h).1

theorem size_of_transform {op : UnaryOp} {output x : Container Binary64} {data : List Binary64}
    (h : Yields (transform op output x) data r) : x.size = output.size :=
  Decidable.not_not.mp (Yields.of_require (.calculate _) h).1

/-- A closure returns only at samples of the kind for which the function can be reused. -/
theorem Suits.reusable_of_returns (suits : Suits s₀ f c) (again : f.MeetsAgain s₀ s)
    (returned : c.Returns s v c' r) : f.Reusable s₀.position.size s.position.size := by
  have made := again.now.made
  induction suits generalizing v c' r with
  | input => trivial
  | constant value => trivial
  | @component g _ _ _ function hi single ih =>
    cases returned with
    | component inner extracted =>
      have operand : g.MeetsAgain s₀ s := again.mono fun _ h => h
      have reuse := ih operand inner
      have there := lt_size_of_extract extracted
      rw [(function.of_reusable operand reuse).size_of_returns made inner] at there
      exact ⟨reuse, there⟩
  | inputComponent hi single =>
    cases returned with
    | component inner extracted =>
      cases inner
      exact lt_size_of_extract extracted
  | @binary lf rf lc rc op mode output left right sizes whole ihl ihr =>
    cases returned with
    | @binary _ _ _ _ _ _ _ x y _ _ _ _ inner inner' combined =>
      have leftOperand : lf.MeetsAgain s₀ s := again.mono (List.subset_append_left _ _)
      have rightOperand : rf.MeetsAgain s₀ s := again.mono (List.subset_append_right _ _)
      have reuseLeft := ihl leftOperand inner
      have reuseRight := ihr rightOperand inner'
      -- the operands have the sizes that they had at the first sample
      have operands := sizes_of_combine combined
      rw [whole, Node.width, Broadcast.operandSizes_of_ofSizes? sizes,
        (left.of_reusable leftOperand reuseLeft).size_of_returns made inner,
        (right.of_reusable rightOperand reuseRight).size_of_returns made inner'] at operands
      exact ⟨⟨reuseLeft, reuseRight⟩, Prod.mk.inj operands⟩
  | @unary g _ _ _ function whole ih =>
    cases returned with
    | unary inner transformed =>
      have operand : g.MeetsAgain s₀ s := again.mono fun _ h => h
      have reuse := ih operand inner
      have size := size_of_transform transformed
      rw [(function.of_reusable operand reuse).size_of_returns made inner, whole] at size
      exact ⟨reuse, size⟩
  | guarded function ih =>
    cases returned with
    | guarded inner => exact ih (again.mono fun _ h => h) inner
  | @gradient g route output routed whole =>
    cases returned with
    | gradient evaluated =>
      have routed' : g.route? s = some route := by
        refine Gradient.route?_again again routed ?_
        rintro rfl
        by_contra mismatch
        obtain ⟨_, _, no⟩ | ⟨_, failed, -⟩ := Gradient.evaluateGlobal_mismatch mismatch {}
        · exact no
        · cases (evaluated {}).1.symm.trans failed
      have size := Gradient.size_of_route? made routed'
      exact size.trans (Gradient.size_of_route? again.first.made routed).symm
  | traced function ih =>
    cases returned with
    | traced inner => exact ih (again.mono fun _ h => h) inner

/-- At a sample of the kind a closure fails for no other reason than values and sizes. -/
theorem Suits.evaluate_again (suits : Suits s₀ f c) (again : f.MeetsAgain s₀ s) :
    Settles (fun failure => failure.OfValue ∨ failure.OfSize) (c.evaluate s) fun _ => True := by
  induction suits with
  | input => exact .pure trivial
  | constant value => exact .pure trivial
  | component function hi single ih =>
    rw [evaluate_component]
    refine (ih (again.mono fun _ h => h)).bind fun x _ => ?_
    exact (extract_settles x _ _ fun _ _ => .inr trivial).bind fun _ _ => .pure trivial
  | inputComponent hi single =>
    rw [evaluate_component]
    refine Settles.bind (P := fun _ => True) (.pure trivial) fun x _ => ?_
    exact (extract_settles x _ _ fun _ _ => .inr trivial).bind fun _ _ => .pure trivial
  | @binary _ _ lc rc op mode output left right sizes whole ihl ihr =>
    rw [evaluate_binary]
    refine (ihl (again.mono (List.subset_append_left _ _))).bind fun x _ => ?_
    refine (ihr (again.mono (List.subset_append_right _ _))).bind fun y _ => ?_
    exact (combine_settles op mode output x y fun _ _ => .inr trivial).bind fun _ _ => .pure trivial
  | @unary _ c op output function whole ih =>
    rw [evaluate_unary]
    refine (ih (again.mono fun _ h => h)).bind fun x _ => ?_
    exact (transform_settles op output x fun _ _ => .inr trivial).bind fun _ _ => .pure trivial
  | guarded function ih => exact guarded_settles (ih (again.mono fun _ h => h)) fun _ => .inl trivial
  | @gradient g route output routed whole =>
    rw [evaluate_gradient]
    by_cases size : route = .global → s.position.size = g.dim
    · have settles := g.evaluate_settles again.now.made (Gradient.route?_again again routed size)
      exact (settles.mono fun _ => .inl).bind fun _ _ => .pure trivial
    · obtain ⟨rfl, mismatch⟩ := Classical.not_imp.mp size
      have settles := Gradient.evaluateGlobal_mismatch mismatch
      exact (settles.mono fun _ => .inr).bind fun _ no => no.elim
  | traced function ih =>
    rw [evaluate_traced]
    exact .record (ih (again.mono fun _ h => h))

end Closure

/-! ## Soundness -/

/-- A closure made for one sample serves every sample of the kind, after whatever calls, if the
function can be reused: it delivers as many components as the function has for the size, or the
sample lies outside the domain, or a guard caught an exception. The function can be reused if the
positions have the same size, as they have on one mesh. If it cannot, the closure fails. -/
theorem specialization_sound (met₀ : f.Meets s₀) (met : f.Meets s) (hk : s.kind = s₀.kind)
    {ctx₀ ctx₁ : Context} {closure : Closure (NodalField Binary64)}
    (h : f.specialize s₀ ctx₀ = (.ok closure, ctx₁))
    (calls : List (Sample Binary64 (Grid Binary64) × Context)) (ctx : Context) :
    let outcome := ((closure.afterCalls calls).run s ctx).1.outcome
    let reusable := f.Reusable s₀.position.size s.position.size
    (s.position.size = s₀.position.size → reusable) ∧
      (reusable → (∃ value, outcome = .ok value ∧ value.size = f.width s.position.size) ∨
        (∃ position, outcome = .error (.error (.outsideDomain position))) ∨
        ∃ raised, outcome = .error (.error (.floatingPoint raised))) ∧
      (¬reusable → ∃ failure, outcome = .error failure ∧ (failure.OfValue ∨ failure.OfSize)) := by
  intro outcome reusable
  have again : f.MeetsAgain s₀ s := ⟨met₀, met, hk⟩
  have suits := ((f.specialize_settles met₀.made).of_ok h).after_calls calls
  refine ⟨suits.reusable_of_size, fun reuse => ?_, fun mismatch => ?_⟩
  · obtain ⟨agree, -⟩ := (suits.of_reusable again reuse).follows met.made ctx
    rw [Closure.evaluate_apply] at agree
    change Agree _ outcome _ at agree
    generalize outcome = o, (f.meaning s).result = meant at agree
    cases agree with
    | ok related => exact .inl ⟨_, rfl, related.size_eq⟩
    | @error failure hv =>
      match failure, hv with
      | .error (.outsideDomain position), _ => exact .inr (.inl ⟨position, rfl⟩)
      | .error (.floatingPoint raised), _ => exact .inr (.inr ⟨raised, rfl⟩)
  · obtain ⟨value, delivered, -⟩ | failed := suits.evaluate_again again ctx
    · obtain ⟨_, _, returned⟩ := Closure.exists_returns delivered
      exact absurd (suits.reusable_of_returns again returned) mismatch
    · exact failed

theorem specialization_sound_sqrt :
    let four : Sample Binary64 (Grid Binary64) := .value (.scalar (.ofRat 4))
    let minusOne : Sample Binary64 (Grid Binary64) := .value (.scalar (.ofRat (-1)))
    let f : Node (NodalField Binary64) := .guarded (.unary .input .sqrt)
    let closure : Closure (NodalField Binary64) := .guarded (.unary .input .sqrt four.position.blank)
    let outcome := ((closure.afterCalls [(four, {})]).run minusOne {}).1.outcome
    f.specialize four {} = (.ok closure, {}) ∧ f.Reusable 1 1 ∧
      ((∃ value, outcome = .ok value ∧ value.size = 1) ∨
        (∃ position, outcome = .error (.error (.outsideDomain position))) ∨
        ∃ raised, outcome = .error (.error (.floatingPoint raised))) := by
  intro four minusOne f closure outcome
  have specialized : f.specialize four {} = (.ok closure, {}) := rfl
  have kinds : minusOne.kind = four.kind := (rfl : SampleKind.value 1 = SampleKind.value 1)
  have met (x : Rat) : f.Meets (.value (.scalar (.ofRat x))) := ⟨.value _, nofun⟩
  obtain ⟨same, sound, -⟩ :=
    specialization_sound (met 4) (met (-1)) kinds specialized [(four, {})] {}
  have reuse := same (show 1 = 1 from rfl)
  exact ⟨specialized, reuse, sound reuse⟩

/-- A line and a square are kept at one address, one after the other. -/
theorem reused_address_mismatch :
    let axis : Axis Binary64 := (Axis.make 1 (.ofRat 0) (.ofRat 1) (by decide)).value
    let line : Grid Binary64 := ⟨0, [axis], by decide, by decide⟩
    let square : Grid Binary64 := ⟨0, [axis, axis], by decide, by decide⟩
    let first : Sample Binary64 (Grid Binary64) := .node ⟨line, 1, .vector [.ofRat 1]⟩
    let now : Sample Binary64 (Grid Binary64) := .node ⟨square, 1, .vector [.ofRat 1, .ofRat 0]⟩
    let f : Node (NodalField Binary64) := .unary .input .abs
    let closure : Closure (NodalField Binary64) := .unary .input .abs first.position.blank
    f.MeetsAgain first now ∧ f.specialize first {} = (.ok closure, {}) ∧
      (closure.run now {}).1.outcome = .error (.error (.shapeMismatch 2 1)) := by
  intro axis line square first now f closure
  have made₀ : first.Made := .of_vertex (by decide) (by decide +kernel)
  have made : now.Made := .of_vertex (by decide) (by decide +kernel)
  exact ⟨⟨⟨made₀, nofun⟩, ⟨made, nofun⟩, rfl⟩, rfl, by decide +kernel⟩

end FieldGraph
