import FieldGraph.Proofs.Meaning

/-!
# Extracted components

A component is extracted by a range of bytes that is fixed when the function is
specialized, by a container of the child that is known then. Applied to whatever
the child delivers later, of whatever size, the range still holds the component of
the same number, bit for bit, if there is one.
-/

namespace FieldGraph

/-! ## Bytes of an output -/

namespace Container

/-- Written over the bytes of an output for one number, the bytes of a number make it that number. -/
theorem setBytes_scalar (x y : Binary64) : (scalar y).setBytes 0 x.toBytes = scalar x := by
  have all : (scalar y).bytes.take 0 ++ x.toBytes ++ (scalar y).bytes.drop (0 + x.toBytes.length) =
      x.toBytes := List.append_nil x.toBytes
  have number : Binary64.ofBytes ((x.toBytes.drop (Binary64.byteCount * 0)).take Binary64.byteCount) =
      x := Binary64.ofBytes_toBytes x
  show Container.mk Shape.scalar [Binary64.ofBytes _] = Container.mk Shape.scalar [x]
  rw [all, number]

theorem setBytes_byteRange? {v : Container Binary64} {i : Nat} (h : i < v.size) (y : Binary64) :
    (v.byteRange? (Binary64.byteCount * i) (Binary64.byteCount * (i + 1))).map
      ((scalar y).setBytes 0) = some (scalar (v.data.get ⟨i, h⟩)) := by
  have there : v.get? i = some (v.data.get ⟨i, h⟩) := List.getElem?_eq_getElem h
  rw [byteRange?_component, there]
  exact congrArg some (setBytes_scalar _ y)

end Container

/-! ## Calls -/

section
variable {M V : Type} [Mesh Binary64 M] [FieldVariable Binary64 M V] [DecidableEq M]

namespace Closure

theorem afterCalls_component (c : Closure V) (start stop : Nat) (output : Container Binary64)
    (calls : List (Sample Binary64 M × Context)) :
    ∃ output' : Container Binary64, (component c start stop output).afterCalls calls =
      component (c.afterCalls calls) start stop output' ∧
        output'.size = output.size ∧ output'.shape = output.shape := by
  have call (c : Closure V) (output : Container Binary64) (call : Sample Binary64 M × Context) :
      ∃ output' : Container Binary64,
        ((component c start stop output).run call.1 call.2).1.after =
            component (c.run call.1 call.2).1.after start stop output' ∧
          output'.size = output.size ∧ output'.shape = output.shape :=
    exists_after_deliver output _ _ _
  exact exists_afterCalls (fun c call => (c.run call.1 call.2).1.after) call c output calls

/-- What becomes of a container from which a component is extracted. -/
def pick (i : Nat) (v : Container Binary64) : Except (Failure Binary64) (Container Binary64) :=
  if h : i < v.size then .ok (.scalar (v.data.get ⟨i, h⟩))
  else .error (.error (.componentOutOfRange i v.size))

theorem pick_of_lt {i : Nat} {v : Container Binary64} (h : i < v.size) :
    pick i v = .ok (.scalar (v.data.get ⟨i, h⟩)) := dif_pos h

theorem pick_of_le {i : Nat} {v : Container Binary64} (h : v.size ≤ i) :
    pick i v = .error (.error (.componentOutOfRange i v.size)) := dif_neg (Nat.not_lt.mpr h)

theorem extract_eq_pick {output : Container Binary64} (size : output.size = 1)
    (shape : output.shape = .scalar) (i : Nat) (v : Container Binary64) :
    (do
      let x ← extract v (Binary64.byteCount * i) (Binary64.byteCount * (i + 1))
      return output.write [x] : Eval Binary64 (Container Binary64)) = Eval.resume (pick i v) := by
  rw [extract_component, pick]
  by_cases h : i < v.size
  · have there : v.get? i = some (v.data.get ⟨i, h⟩) := List.getElem?_eq_getElem h
    have data : (output.write [v.data.get ⟨i, h⟩]).data = [v.data.get ⟨i, h⟩] :=
      Container.data_write size.symm
    have written : output.write [v.data.get ⟨i, h⟩] = .scalar (v.data.get ⟨i, h⟩) := by
      show Container.mk output.shape (output.write [v.data.get ⟨i, h⟩]).data = _
      rw [data, shape]
      rfl
    rw [there, dif_pos h, ← written]
    rfl
  · have missing : v.get? i = none := List.getElem?_eq_none (Nat.not_lt.mp h)
    rw [missing, dif_neg h]
    rfl

theorem run_component {output : Container Binary64} (size : output.size = 1)
    (shape : output.shape = .scalar) (c : Closure V) (i : Nat) (s : Sample Binary64 M)
    (ctx : Context) :
    let own := (component c (Binary64.byteCount * i) (Binary64.byteCount * (i + 1)) output).run s ctx
    own.1.outcome = (c.run s ctx).1.outcome.bind (pick i) ∧ own.2 = (c.run s ctx).2 := by
  intro own
  have call : (own.1.outcome, own.2) = ((c.run s ctx).1.outcome.bind (pick i), (c.run s ctx).2) := by
    rw [← evaluate_apply, evaluate_component, Eval.bind_apply, evaluate_apply]
    cases (c.run s ctx).1.outcome with
    | error failure => rfl
    | ok v =>
      dsimp only
      rw [extract_eq_pick size shape]
      rfl
  exact Prod.mk.inj call

end Closure

/-! ## Functions -/

namespace Node

/-- The component `i` of what a function delivers, or of the sample's position. -/
def extraction (child : Option (Node V)) (i : Nat) : Node V :=
  match child with
  | some f => component f i
  | none => inputComponent i

theorem specialize_extraction (child : Option (Node V)) (i : Nat) (s : Sample Binary64 M) :
    (extraction child i).specialize s =
      (child.getD input).specialize s >>= fun c => specializeComponent s c i := by
  cases child with
  | none => exact (pure_bind _ _).symm
  | some f => rfl

theorem specializeComponent_eq_ok_iff {s : Sample Binary64 M} {c closure : Closure V} {i : Nat}
    {ctx : Context} :
    (specializeComponent s c i ctx).1 = .ok closure ↔
      ∃ v, (c.run s ctx).1.outcome = .ok v ∧ i < v.size ∧
        closure = .component (c.run s ctx).1.after (Binary64.byteCount * i)
          (Binary64.byteCount * (i + 1)) (.scalar (.zero false)) := by
  rw [specializeComponent, Eval.bind_apply, Closure.probe_apply]
  cases (c.run s ctx).1.outcome with
  | error failure => simp
  | ok v =>
    dsimp only
    by_cases h : v.size ≤ i
    · rw [if_pos h]
      constructor
      · intro refused
        cases refused
      · rintro ⟨w, same, hi, -⟩
        cases same
        exact absurd h (Nat.not_le.mpr hi)
    · rw [if_neg h]
      constructor
      · intro made
        cases made
        exact ⟨v, rfl, Nat.not_le.mp h, rfl⟩
      · rintro ⟨-, -, -, rfl⟩
        rfl

theorem specialize_extraction_eq_ok_iff {child : Option (Node V)} {i : Nat} {s : Sample Binary64 M}
    {ctx : Context} {closure : Closure V} :
    ((extraction child i).specialize s ctx).1 = .ok closure ↔
      ∃ c, ((child.getD input).specialize s ctx).1 = .ok c ∧
        (specializeComponent s c i ((child.getD input).specialize s ctx).2).1 = .ok closure := by
  rw [specialize_extraction, Eval.bind_eq_ok_iff]

end Node

/-- A component can be extracted at a sample exactly if the child can be specialized there and what it
delivers then has the component. At every later sample the call does what the child's does and raises
nothing beside it; where the child delivers the component, the answer is a scalar with the same bits,
which are those that the range of bytes copies, and where it delivers too few, the error says so. -/
theorem extraction_exact (child : Option (Node V)) (i : Nat) (s₀ : Sample Binary64 M)
    (ctx₀ : Context) :
    let made := (child.getD .input).specialize s₀ ctx₀
    let extracting := (Node.extraction child i).specialize s₀ ctx₀
    ((∃ closure, extracting.1 = .ok closure) ↔
      ∃ c, made.1 = .ok c ∧ ∃ v, (c.run s₀ made.2).1.outcome = .ok v ∧ i < v.size) ∧
    ∀ closure c, extracting.1 = .ok closure → made.1 = .ok c →
      ∀ (calls : List (Sample Binary64 M × Context)) (s : Sample Binary64 M) (ctx : Context),
        let inner := ((c.run s₀ made.2).1.after.afterCalls calls).run s ctx
        let own := (closure.afterCalls calls).run s ctx
        own.2 = inner.2 ∧
          (∀ failure, inner.1.outcome = .error failure → own.1.outcome = .error failure) ∧
          ∀ v, inner.1.outcome = .ok v →
            (∀ h : i < v.size, own.1.outcome = .ok (.scalar (v.data.get ⟨i, h⟩)) ∧
              ∀ y, (v.byteRange? (Binary64.byteCount * i) (Binary64.byteCount * (i + 1))).map
                ((Container.scalar y).setBytes 0) = some (.scalar (v.data.get ⟨i, h⟩))) ∧
            (v.size ≤ i → own.1.outcome = .error (.error (.componentOutOfRange i v.size))) := by
  intro made extracting
  have success {closure : Closure V} : extracting.1 = .ok closure ↔ _ :=
    Node.specialize_extraction_eq_ok_iff
  simp only [Node.specializeComponent_eq_ok_iff] at success
  refine ⟨⟨?_, ?_⟩, ?_⟩
  · rintro ⟨closure, made⟩
    obtain ⟨c, hc, v, hv, hi, -⟩ := success.mp made
    exact ⟨c, hc, v, hv, hi⟩
  · rintro ⟨c, hc, v, hv, hi⟩
    exact ⟨_, success.mpr ⟨c, hc, v, hv, hi, rfl⟩⟩
  · intro closure c extracted hc calls s ctx inner own
    obtain ⟨c', hc', -, -, -, rfl⟩ := success.mp extracted
    cases hc.symm.trans hc'
    obtain ⟨output, after, size, shape⟩ := Closure.afterCalls_component (c.run s₀ made.2).1.after
      (Binary64.byteCount * i) (Binary64.byteCount * (i + 1)) (.scalar (.zero false)) calls
    obtain ⟨outcome, left⟩ := Closure.run_component size shape
      ((c.run s₀ made.2).1.after.afterCalls calls) i s ctx
    rw [← after] at outcome left
    refine ⟨left, fun failure hf => outcome.trans ?_, fun v hv => ⟨fun h => ⟨outcome.trans ?_, ?_⟩,
      fun h => outcome.trans ?_⟩⟩
    · exact congrArg (Except.bind · (Closure.pick i)) hf
    · exact (congrArg (Except.bind · (Closure.pick i)) hv).trans (Closure.pick_of_lt h)
    · exact Container.setBytes_byteRange? h
    · exact (congrArg (Except.bind · (Closure.pick i)) hv).trans (Closure.pick_of_le h)

end

/-- A signalling NaN beside a number, extracted from a constant; and the second component of the
samples themselves, of which a later one has no second component. -/
theorem extraction_exact_signalling :
    let signalling : Binary64 := ⟨0x7ff4000000000001⟩
    let pair : Container Binary64 := .vector [.ofRat 1, signalling]
    let fixed : Option (Node (NodalField Binary64)) := some (.constant pair)
    let s₀ : Sample Binary64 (Grid Binary64) := .value pair
    let s : Sample Binary64 (Grid Binary64) := .value (.vector [signalling])
    ∃ closure own : Closure (NodalField Binary64),
      ((Node.extraction fixed 1).specialize s₀ {}).1 = .ok closure ∧
      (closure.run s {}).1.outcome = .ok (.scalar signalling) ∧
      ((Node.extraction none 1).specialize s₀ {}).1 = .ok own ∧
      (own.run s₀ {}).1.outcome = .ok (.scalar signalling) ∧
      (own.run s {}).1.outcome = .error (.error (.componentOutOfRange 1 1)) := by
  intro signalling pair fixed s₀ s
  obtain ⟨made, calls⟩ := extraction_exact fixed 1 s₀ {}
  obtain ⟨made', calls'⟩ :=
    extraction_exact (M := Grid Binary64) (V := NodalField Binary64) none 1 s₀ {}
  obtain ⟨closure, hc⟩ := made.mpr ⟨.constant pair, rfl, pair, rfl, by decide⟩
  obtain ⟨own, ho⟩ := made'.mpr ⟨.input, rfl, pair, rfl, by decide⟩
  obtain ⟨-, -, later⟩ := calls closure _ hc rfl [] s {}
  obtain ⟨-, -, again⟩ := calls' own _ ho rfl [] s₀ {}
  obtain ⟨-, -, short⟩ := calls' own _ ho rfl [] s {}
  exact ⟨closure, own, hc, ((later pair rfl).1 (by decide)).1, ho,
    ((again pair rfl).1 (by decide)).1, (short _ rfl).2 (by decide)⟩

end FieldGraph
