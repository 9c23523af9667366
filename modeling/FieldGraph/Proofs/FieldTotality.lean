import FieldGraph.Field.Nodal
import FieldGraph.Proofs.Delivers
import FieldGraph.Proofs.GridBounds

/-!
# Derivatives of nodal fields

In every element of its grid a nodal field delivers its derivatives, one for each
component and axis. Hence it has derivatives at every point that it finds.
-/

namespace FieldGraph

namespace Grid

section
variable {K : Type} [Scalar K]

theorem mapAxes_delivers (convert : Axis K → K → K → Flagged K) :
    ∀ {axes : List (Axis K)} {cells : List Nat} {p : List K}, cells.length = axes.length →
      axes.length ≤ p.length →
        (mapAxes convert axes cells p).Delivers fun q => q.length = axes.length
  | [], _, _, _, _ => by
    unfold mapAxes
    exact .pure rfl
  | a :: axes, i :: cells, x :: p, hc, hp => by
    unfold mapAxes
    refine .bind_flagged fun origin => ?_
    refine Calc.Delivers.bind (P := fun _ => True) (.read rfl trivial) fun x _ => ?_
    refine .bind_flagged fun y => ?_
    have rest := mapAxes_delivers convert (Nat.succ.inj hc) (Nat.le_of_succ_le_succ hp)
    exact rest.bind fun q hq => .pure (congrArg (· + 1) hq)

variable (g : Grid K)

theorem toLocal_delivers (e : Nat) {p : List K}
    (hp : p.length = g.dim) : (g.toLocal e p).Delivers fun ξ => ξ.length = g.dim :=
  mapAxes_delivers Axis.toLocal (g.length_elementPosition e) (Nat.le_of_eq hp.symm)

theorem toGlobal_delivers (e : Nat) {ξ : List K}
    (hξ : ξ.length = g.dim) : (g.toGlobal e ξ).Delivers fun x => x.length = g.dim :=
  mapAxes_delivers Axis.toGlobal (g.length_elementPosition e) (Nat.le_of_eq hξ.symm)

end
end Grid

namespace NodalField
variable {K : Type} [Scalar K]

theorem shapeSlope_delivers {corner : List Bool} {ξ : List K} (h : corner.length ≤ ξ.length)
    (k : Nat) : (shapeSlope corner ξ k).Delivers fun _ => True := by
  refine .foldlM trivial fun product _ (upper, d) hd => ?_
  have hd : d < ξ.length := Nat.lt_of_lt_of_le (List.snd_lt_of_mem_zipIdx hd) h
  dsimp only
  split
  · exact .bind_flagged fun factor => .flagged trivial
  · refine Calc.Delivers.bind (P := fun _ => True) (.read (List.getElem?_eq_getElem hd) trivial) ?_
    intro x _
    exact .bind_flagged fun _ => .bind_flagged fun _ => .bind_flagged fun _ => .flagged trivial

theorem shapeDerivatives_delivers (axes : List (Axis K)) {corner : List Bool} {ξ : List K}
    (h : corner.length ≤ ξ.length) :
    (shapeDerivatives axes corner ξ).Delivers fun slopes => slopes.length = axes.length := by
  have each : ∀ a ∈ axes.zipIdx, Calc.Delivers (do
      let slope ← shapeSlope corner ξ a.2
      Scalar.div (← Scalar.mul slope (Scalar.ofRat 2)) a.1.spacing) fun _ => True :=
    fun a _ => (shapeSlope_delivers h a.2).bind fun slope _ => .bind_flagged fun _ => .flagged trivial
  refine (Calc.Delivers.mapM each).mono fun slopes hs => ?_
  rw [hs.1, List.length_zipIdx]

def IsTable (components dim : Nat) (rows : List (List K)) : Prop :=
  rows.length = components ∧ ∀ row ∈ rows, row.length = dim

omit [Scalar K] in
theorem IsTable.length_flatten {components dim : Nat} {rows : List (List K)}
    (h : IsTable components dim rows) : rows.flatten.length = components * dim := by
  have lengths : rows.map List.length = List.replicate components dim := by
    rw [List.eq_replicate_iff, List.length_map]
    exact ⟨h.1, List.forall_mem_map.mpr h.2⟩
  rw [List.length_flatten, lengths, List.sum_replicate_nat]

theorem zeros_isTable (components dim : Nat) :
    IsTable components dim (List.replicate components (List.replicate dim (Scalar.ofRat 0 : K))) := by
  refine ⟨List.length_replicate, fun row hrow => ?_⟩
  rw [List.eq_of_mem_replicate hrow, List.length_replicate]

theorem addCorner_isTable {components dim : Nat} {rows : List (List K)} {nodal slopes : List K}
    (h : IsTable components dim rows) (hn : nodal.length = components) (hs : slopes.length = dim) :
    IsTable components dim (addCorner rows nodal slopes).value := by
  unfold addCorner
  rw [Flagged.value_mapM]
  refine ⟨by rw [List.length_map, List.length_zip, h.1, hn, Nat.min_self], fun row hrow => ?_⟩
  obtain ⟨⟨old, value⟩, hold, rfl⟩ := List.mem_map.mp hrow
  dsimp only
  rw [Flagged.value_mapM, List.length_map, List.length_zip, h.2 old (List.of_mem_zip hold).1, hs,
    Nat.min_self]

variable (f : NodalField K)

theorem derivativesIn_delivers {e : Nat} (he : e < f.grid.elementCount) {ξ : List K}
    (hξ : ξ.length = f.grid.dim) :
    (f.derivativesIn e ξ).Delivers fun d => d.length = f.components * f.grid.dim := by
  refine Calc.Delivers.bind (.foldlM (zeros_isTable _ _) ?_) fun rows hrows =>
    .pure hrows.length_flatten
  intro rows hrows corner hcorner
  have hnode := f.grid.cornerNode_lt he hcorner
  have hlen : corner.length ≤ ξ.length :=
    Nat.le_of_eq ((Numbering.length_of_mem_corners hcorner).trans hξ.symm)
  refine Calc.Delivers.bind (.read (Vector.getElem?_eq_getElem hnode) rfl) fun nodal _ => ?_
  refine (shapeDerivatives_delivers f.grid.axes hlen).bind fun slopes hslopes => ?_
  exact .flagged (addCorner_isTable hrows Vector.length_toList hslopes)

theorem derivativesAt_delivers [LawfulScalar K] {p : List K} (hp : p.length = f.grid.dim) :
    (f.derivativesAt p).Delivers fun found => found.whereabouts.isUsable →
      ∃ d, found.derivatives = some d ∧ d.length = f.components * f.grid.dim := by
  refine Calc.Delivers.bind (P := fun cell => ∀ e, cell = some e → e < f.grid.elementCount)
    (.flagged fun e he => Grid.locate_lt f.grid he) fun cell hcell => ?_
  cases cell with
  | none => exact .pure fun h => nomatch h
  | some e =>
    refine (f.grid.toLocal_delivers e hp).bind fun ξ hξ => ?_
    refine (f.derivativesIn_delivers (hcell e rfl) hξ).bind fun d hd => ?_
    exact .pure fun _ => ⟨d, rfl, hd⟩

end NodalField
end FieldGraph
