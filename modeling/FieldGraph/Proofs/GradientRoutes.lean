import FieldGraph.Proofs.ExactDerivatives
import FieldGraph.Proofs.ShapeTags

/-!
# Routes of gradients

Whichever route a gradient takes, it interpolates in some element at a point that
has the sample's position. In exact arithmetic the point is recovered without
error: the routes deliver the derivatives of every multilinear function that the
field was sampled from, and at a point given by its element the global route finds
that very element again, whatever the field.
-/

namespace FieldGraph

open MvPolynomial (eval pderiv X)

namespace Gradient

section
variable {K M V : Type} [Scalar K] [Mesh K M] [FieldVariable K M V] [DecidableEq M]

/-- A gradient is specialized for a sample and evaluated at it. -/
def sampled (g : Gradient V) (s : Sample K M) : Eval K (Container K) := do
  let route ← g.specialize s
  return g.output.write (← g.evaluate route s)

end

/-- In double precision this is what the closure of a gradient node does. -/
theorem evaluate_node_eq_sampled {M V : Type} [Mesh Binary64 M] [FieldVariable Binary64 M V]
    [DecidableEq M] (g : Gradient V) (s : Sample Binary64 M) :
    (Node.gradient g).evaluate s = g.sampled s := by
  simp only [Node.evaluate, Node.specialize, bind_assoc, pure_bind, Closure.evaluate_gradient,
    sampled]

section
variable {K : Type} [Scalar K] [DecidableEq K] (g : Gradient (NodalField K)) {ds : List K}

theorem sampled_returns {s : Sample K (Grid K)} {route : Route}
    (routed : g.route? s = some route) (hlen : ds.length = g.outputSize)
    (h : Settles (fun _ => False) (g.evaluate route s) (· = ds)) (c : Context) :
    (g.sampled s c).1 = .ok ⟨g.outputShape, ds⟩ := by
  have settled : Settles (fun _ => False) (g.specialize s) (· = route) := by
    refine ((g.specialize_settles s).imp fun r hr => ?_).mono fun _ hr => ?_
    · rw [routed] at hr
      exact (Option.some.inj hr).symm
    · rw [routed] at hr
      cases hr
  have written : Settles (fun _ => False) (g.sampled s) (· = ⟨g.outputShape, ds⟩) := by
    refine settled.bind ?_
    rintro _ rfl
    refine h.bind ?_
    rintro data rfl
    have full : data.length = g.output.size := by
      rw [hlen, output, Container.size, List.length_replicate]
    exact .pure (congrArg (Container.mk g.outputShape) (Container.data_write full))
  exact written.eq_ok c

end

section
variable {f : NodalField Rat} {s : Sample Rat (Grid Rat)}

/-- A gradient in exact arithmetic interpolates at a point of some element that has the sample's
position. -/
theorem exists_point (made : f.grid.Made) (hs : s.Made) {route : Route}
    (routed : (Gradient.mk f).route? s = some route)
    (found : route = .global → ∃ e, (f.grid.locate s.position.data).value = some e) :
    ∃ e < f.grid.elementCount, ∃ ξ : Fin f.grid.dim → Rat,
      s.position.data = List.ofFn (boxPoint (f.grid.origin e) f.grid.spacing ξ) ∧
        ∀ ds, (f.derivativesIn e (List.ofFn ξ)).result = some ds →
          Settles (fun _ => False) ((Gradient.mk f).evaluate route s) (· = ds) := by
  cases Routed.of_route? routed with
  | @element p same =>
    obtain ⟨he, hξ, -⟩ := hs.element_bounds
    have position := hs.element_position
    rw [same] at he hξ position
    obtain ⟨ξ, coordinates⟩ := List.exists_eq_ofFn hξ
    rw [coordinates, Grid.toGlobal_eq p.element] at position
    refine ⟨p.element, he, ξ, (Option.some.inj position).symm, fun ds hds => ?_⟩
    rw [← coordinates] at hds
    exact evaluate_element _ same hds
  | @node p same =>
    obtain ⟨hn, hx⟩ := hs.node_bounds
    rw [same] at hn hx
    obtain ⟨e, last⟩ : ∃ e, (f.grid.nodeElements p.node).getLast? = some e :=
      ⟨_, List.getLast?_eq_some_getLast (f.grid.nodeElements_ne_nil p.node)⟩
    have he := f.grid.nodeElements_lt hn (List.mem_of_getLast? last)
    obtain ⟨x, position⟩ := List.exists_eq_ofFn hx
    obtain ⟨ξ, rfl, back⟩ := made.exists_boxPoint e x
    rw [← position] at back
    exact ⟨_, he, ξ, position, fun ds hds => evaluate_node _ same last back hds⟩
  | global size =>
    replace size : s.position.data.length = f.grid.dim := size
    obtain ⟨e, located⟩ := found rfl
    have he := f.grid.locate_lt located
    obtain ⟨x, position⟩ := List.exists_eq_ofFn size
    obtain ⟨ξ, rfl, back⟩ := made.exists_boxPoint e x
    rw [← position] at back
    exact ⟨e, he, ξ, position, fun ds hds => evaluate_global _ size located back hds⟩

end

end Gradient

/-! ## Multilinear functions -/

section
variable {f : NodalField Rat} {p : Nat → MvPolynomial (Fin f.grid.dim) Rat} {c c' : Context}

theorem NodalField.agreesWith_of_sample
    (h : NodalField.sample f.grid f.components (fun i x => pure (eval (point x) (p i))) c =
      (.ok f, c'))
    {e : Nat} (he : e < f.grid.elementCount) {i : Nat} (hi : i < f.components) :
    f.AgreesWith e i (p i) := by
  obtain ⟨-, -, values⟩ := (NodalField.sample_settles _ _ _).of_ok h
  intro n hn x hx
  obtain ⟨corner, hc, rfl⟩ := List.mem_map.mp hn
  rw [values _ (f.grid.cornerNode_lt he hc) i hi _ hx, point_ofFn]
  rfl

end

/-- In every element the derivatives of a field are those of the multilinear polynomials that take
its values at the element's corners, inside the element and beyond it. For a field that was sampled
from multilinear functions, a gradient delivers their derivatives at the sample's position,
whichever route it takes. -/
theorem gradient_exact (f : NodalField Rat) (made : f.grid.Made) :
    (∀ e < f.grid.elementCount, ∀ ξ : Fin f.grid.dim → Rat,
      ∃ (x : Fin f.grid.dim → Rat) (ds : List Rat),
      (f.grid.toGlobal e (List.ofFn ξ)).result = some (List.ofFn x) ∧
        (f.derivativesIn e (List.ofFn ξ)).result = some ds ∧
          ds.length = f.components * f.grid.dim ∧
            ∀ i < f.components, ∀ p : MvPolynomial (Fin f.grid.dim) Rat, IsMultilinear p →
              f.AgreesWith e i p →
                ∀ k : Fin f.grid.dim, ds[i * f.grid.dim + k]? = some (eval x (pderiv k p))) ∧
    ∀ p : Nat → MvPolynomial (Fin f.grid.dim) Rat, (∀ i < f.components, IsMultilinear (p i)) →
      ∀ c c', NodalField.sample f.grid f.components (fun i x => pure (eval (point x) (p i))) c =
        (.ok f, c') →
      ∀ s : Sample Rat (Grid Rat), s.Made →
        ∀ route, (Gradient.mk f).route? s = some route →
          (route = .global → ∃ e, (f.grid.locate s.position.data).value = some e) →
            ∀ ctx, ((Gradient.mk f).sampled s ctx).1 = .ok ⟨(Gradient.mk f).outputShape,
              (NodalField.table fun (i : Fin f.components) k =>
                eval (point s.position.data) (pderiv k (p i))).flatten⟩ := by
  constructor
  · intro e he ξ
    obtain ⟨t, ht, slopes⟩ := f.derivativesIn_exact made he ξ
    refine ⟨_, _, Grid.toGlobal_eq e ξ, ht, NodalField.length_flatten_table t, ?_⟩
    intro i hi p hp agrees k
    rw [NodalField.getElem?_flatten_table t ⟨i, hi⟩ k, slopes ⟨i, hi⟩ p hp agrees k]
  · intro p hp c c' sampled s hs route routed found ctx
    obtain ⟨e, he, ξ, position, there⟩ := Gradient.exists_point made hs routed found
    obtain ⟨t, ht, slopes⟩ := f.derivativesIn_exact made he ξ
    have derivatives :
        t = fun (i : Fin f.components) k => eval (point s.position.data) (pderiv k (p i)) := by
      funext i k
      rw [slopes i (p i) (hp i i.isLt) (NodalField.agreesWith_of_sample sampled he i.isLt) k,
        position, point_ofFn]
    rw [← derivatives]
    exact (Gradient.mk f).sampled_returns routed (NodalField.length_flatten_table t)
      (there _ ht) ctx

/-- The product of the two coordinates, sampled on a grid with one element. -/
theorem gradient_exact_bilinear :
    let axis : Axis Rat := (Axis.make 1 0 1 Nat.one_pos).value
    let g : Grid Rat := ⟨0, [axis, axis], by decide, by decide⟩
    ∃ f c, NodalField.sample g 1 (fun _ x => pure (x.getD 0 0 * x.getD 1 0)) {} = (.ok f, c) ∧
      f.grid.Made ∧ ((Gradient.mk f).sampled (.value (.vector [1 / 2, 1 / 4])) {}).1 =
        .ok ⟨.tensor, [1 / 4, 1 / 2]⟩ := by
  intro axis g
  have created : (Grid.create 0 [1, 1] [0, 0] [1, 1] {}).1 = .ok g := by decide +kernel
  have made : g.Made := .create (Prod.ext created rfl)
  let p (_ : Nat) : MvPolynomial (Fin g.dim) Rat := (X 0 * X 1 : MvPolynomial (Fin 2) Rat)
  have multilinear (i : Nat) : IsMultilinear (p i) := isMultilinear_mul_X (n := 2) (by decide)
  have values : (fun i (x : List Rat) => (pure (eval (point x) (p i)) : Calc Rat)) =
      fun _ x => pure (x.getD 0 0 * x.getD 1 0) := by
    funext i x
    show pure (eval (point x) (X 0 * X 1 : MvPolynomial (Fin 2) Rat)) = _
    simp [point]
  have succeeds : (NodalField.sample g 1 (fun _ x => pure (x.getD 0 0 * x.getD 1 0)) {}).1.isOk := by
    decide +kernel
  have located : (g.locate [1 / 2, 1 / 4]).value = some 0 := by decide +kernel
  have slopes : (NodalField.table fun (_ : Fin 1) (k : Fin 2) =>
      eval (point [1 / 2, 1 / 4]) (pderiv k (X 0 * X 1))).flatten = [1 / 4, 1 / 2] := by
    simp [NodalField.table, point, MvPolynomial.pderiv_X]
  rcases h : NodalField.sample g 1 (fun _ x => pure (x.getD 0 0 * x.getD 1 0)) {}
    with ⟨failure | f, c⟩
  · rw [h] at succeeds
    cases succeeds
  obtain ⟨hgrid, hcomponents, -⟩ := (NodalField.sample_settles _ _ _).of_ok h
  obtain ⟨grid, components, rows, hc, hf⟩ := f
  subst hgrid hcomponents
  rw [← values] at h
  have delivered := (gradient_exact ⟨g, 1, rows, hc, hf⟩ made).2 p (fun i _ => multilinear i) {} c h
    (.value (.vector [1 / 2, 1 / 4])) (.value _) .global rfl (fun _ => ⟨0, located⟩) {}
  rw [← slopes]
  exact ⟨_, c, rfl, made, delivered⟩

/-! ## Points of elements -/

theorem ElementPoint.create_returns {K : Type} [Scalar K] {E : Failure K → Prop} {g : Grid K}
    {e : Nat} (he : e < g.elementCount) {ξ x : List K} (hξ : ξ.length = g.dim)
    (hx : (g.toGlobal e ξ).result = some x) :
    Settles E (create g e ξ) (· = ⟨g, e, ξ, .vector x⟩) := by
  refine .require (fun h => absurd hξ h) fun _ => ?_
  refine .require (fun h => absurd he (Nat.not_lt.mpr h)) fun _ => ?_
  refine (Settles.calculate (P := (· = x)) ⟨x, hx, rfl⟩).bind ?_
  rintro _ rfl
  exact .pure rfl

/-- At a point given by its element, a gradient delivers what it delivers at the same point given by
its position. -/
theorem element_route_eq_global (f : NodalField Rat) (made : f.grid.Made) {e : Nat}
    (he : e < f.grid.elementCount) (ξ : Fin f.grid.dim → Rat)
    (inside : ∀ d, (f.grid.axis d).InCell (f.grid.cellOn e d) (ξ d)) :
    ∃ (p : ElementPoint Rat (Grid Rat)) (v : Container Rat),
      (∀ c, (ElementPoint.create f.grid e (List.ofFn ξ) c).1 = .ok p) ∧
        ∀ c c', ((Gradient.mk f).sampled (.element p) c).1 = .ok v ∧
          ((Gradient.mk f).sampled (.value p.position) c').1 = .ok v := by
  let x := boxPoint (f.grid.origin e) f.grid.spacing ξ
  let p : ElementPoint Rat (Grid Rat) := ⟨f.grid, e, List.ofFn ξ, .vector (List.ofFn x)⟩
  have create (c : Context) : (ElementPoint.create f.grid e (List.ofFn ξ) c).1 = .ok p :=
    (ElementPoint.create_returns he List.length_ofFn (Grid.toGlobal_eq e ξ)).eq_ok c
  obtain ⟨ds, hds, hlen⟩ := f.derivativesIn_delivers he (List.length_ofFn (f := ξ))
  refine ⟨p, ⟨(Gradient.mk f).outputShape, ds⟩, create, fun c c' => ⟨?_, ?_⟩⟩
  · have routed : (Gradient.mk f).route? (Sample.element p) = some .element := if_pos rfl
    exact Gradient.sampled_returns _ routed hlen (Gradient.evaluate_element _ rfl hds) c
  · have size : p.position.size = (Gradient.mk f).dim := List.length_ofFn
    have routed : (Gradient.mk f).route? (Sample.value (M := Grid Rat) p.position) =
        some .global := if_pos size
    have evaluated := Gradient.evaluate_global (Gradient.mk f) (E := fun _ => False)
      (s := .value p.position) size (made.locate_boxPoint he inside) (made.toLocal_boxPoint e ξ)
      hds
    exact Gradient.sampled_returns _ routed hlen evaluated c'

/-- Where the slope jumps, both routes take the element beyond the node. -/
theorem element_route_eq_global_kink :
    let g : Grid Rat := ⟨0, [(Axis.make 2 0 2 Nat.two_pos).value], by decide, by decide⟩
    let f : NodalField Rat := ⟨g, 1, NodalField.rowsOf [0, 1, 3] rfl, by decide, by decide⟩
    let ξ (_ : Fin f.grid.dim) : Rat := -1
    f.grid.Made ∧ (∀ d, (f.grid.axis d).InCell (f.grid.cellOn 1 d) (ξ d)) ∧
      ∃ (p : ElementPoint Rat (Grid Rat)) (v : Container Rat),
        (ElementPoint.create f.grid 1 (List.ofFn ξ) {}).1 = .ok p ∧
          ((Gradient.mk f).sampled (.element p) {}).1 = .ok v ∧
            ((Gradient.mk f).sampled (.value p.position) {}).1 = .ok v := by
  intro g f ξ
  have created : (Grid.create 0 [2] [0] [2] {}).1 = .ok g := by decide +kernel
  have made : g.Made := .create (Prod.ext created rfl)
  have inside (d : Fin f.grid.dim) : (f.grid.axis d).InCell (f.grid.cellOn 1 d) (ξ d) :=
    ⟨le_rfl, .inl (by norm_num [ξ])⟩
  obtain ⟨p, v, created, same⟩ := element_route_eq_global f made (e := 1) (by decide) ξ inside
  exact ⟨made, inside, p, v, created {}, same {} {}⟩

end FieldGraph
