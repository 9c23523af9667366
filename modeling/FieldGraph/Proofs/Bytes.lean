import FieldGraph.Graph.Closure

/-!
# Components as bytes

Eight bytes of a container, from a multiple of eight on, are one component: the
bytes of a number put together again are the number, with all of its bits.
-/

namespace FieldGraph

namespace Binary64

theorem join_byte (x : UInt64) : (x >>> 8) <<< 8 ||| x.toUInt8.toUInt64 = x := by
  apply UInt64.toNat.inj
  have hx := x.toNat_lt
  have hlow : x.toNat % 2 ^ 8 < 2 ^ 8 := Nat.mod_lt _ (by decide)
  have hhigh : (x.toNat >>> 8) <<< 8 < 2 ^ 64 := by
    rw [Nat.shiftRight_eq_div_pow, Nat.shiftLeft_eq]
    omega
  have join := Nat.shiftLeft_add_eq_or_of_lt hlow (x.toNat >>> 8)
  simp only [UInt64.toNat_or, UInt64.toNat_shiftLeft, UInt64.toNat_shiftRight, UInt8.toNat_toUInt64,
    UInt64.toNat_toUInt8]
  rw [show UInt64.toNat 8 % 64 = 8 from rfl, Nat.mod_eq_of_lt hhigh, ← join,
    Nat.shiftRight_eq_div_pow, Nat.shiftLeft_eq]
  omega

theorem shift_byte (x : UInt64) {a b : UInt64} (h : b.toNat = a.toNat + 8) (hb : b.toNat < 64) :
    x >>> b = x >>> a >>> 8 := by
  apply UInt64.toNat.inj
  simp only [UInt64.toNat_shiftRight]
  rw [← Nat.shiftRight_add, Nat.mod_eq_of_lt hb, Nat.mod_eq_of_lt (show a.toNat < 64 by omega), h]
  rfl

theorem ofBytes_toBytes (x : Binary64) : ofBytes x.toBytes = x := by
  obtain ⟨w⟩ := x
  have top : (0 : UInt64) = w >>> 56 >>> 8 := by
    apply UInt64.toNat.inj
    have := w.toNat_lt
    simp only [UInt64.toNat_shiftRight, Nat.shiftRight_eq_div_pow]
    show 0 = w.toNat / 2 ^ 56 / 2 ^ 8
    omega
  simp only [ofBytes, toBytes, List.map_cons, List.map_nil, List.foldr_cons, List.foldr_nil]
  -- from the high byte down, what is put together so far is the number without its low bytes
  rw [top, join_byte, shift_byte w (a := 48) rfl (by decide), join_byte,
    shift_byte w (a := 40) rfl (by decide), join_byte, shift_byte w (a := 32) rfl (by decide),
    join_byte, shift_byte w (a := 24) rfl (by decide), join_byte,
    shift_byte w (a := 16) rfl (by decide), join_byte, shift_byte w (a := 8) rfl (by decide),
    join_byte, join_byte]

theorem length_toBytes (x : Binary64) : x.toBytes.length = byteCount := rfl

end Binary64

namespace Container

theorem length_bytes (c : Container Binary64) : c.bytes.length = Binary64.byteCount * c.size := by
  unfold bytes size
  induction c.data with
  | nil => rfl
  | cons x xs ih =>
    rw [List.flatMap_cons, List.length_append, ih, Binary64.length_toBytes, List.length_cons,
      Nat.mul_add_one, Nat.add_comm]

theorem slice_flatMap {xs : List Binary64} {i : Nat} {x : Binary64} (h : xs[i]? = some x) :
    ((xs.flatMap Binary64.toBytes).drop (Binary64.byteCount * i)).take Binary64.byteCount =
      x.toBytes := by
  induction xs generalizing i with
  | nil => cases h
  | cons y ys ih =>
    rw [List.flatMap_cons]
    cases i with
    | zero =>
      cases h
      exact List.take_left' (Binary64.length_toBytes _)
    | succ i =>
      rw [Nat.mul_add_one, Nat.add_comm, ← List.drop_drop,
        List.drop_left' (Binary64.length_toBytes y)]
      exact ih (by simpa using h)

theorem byteRange?_component (c : Container Binary64) (i : Nat) :
    c.byteRange? (Binary64.byteCount * i) (Binary64.byteCount * (i + 1)) =
      (c.get? i).map Binary64.toBytes := by
  have width : Binary64.byteCount * (i + 1) - Binary64.byteCount * i = Binary64.byteCount := by
    rw [Nat.mul_add_one, Nat.add_sub_cancel_left]
  have fits : Binary64.byteCount * (i + 1) ≤ c.bytes.length ↔ i < c.size := by
    rw [length_bytes]
    exact Nat.mul_le_mul_left_iff (by decide)
  cases h : c.get? i with
  | none =>
    have hi : ¬ i < c.size := Nat.not_lt.mpr (List.getElem?_eq_none_iff.mp h)
    rw [byteRange?, if_neg fun hr => hi (fits.mp hr.2), Option.map_none]
  | some x =>
    have hi : i < c.size := (List.getElem?_eq_some_iff.mp h).1
    rw [byteRange?, if_pos ⟨Nat.mul_le_mul_left _ (Nat.le_succ i), fits.mpr hi⟩, width]
    exact congrArg some (slice_flatMap h)

end Container

/-- The byte range of a component gives the component, if there is one. -/
theorem Closure.extract_component (c : Container Binary64) (i : Nat) :
    extract c (Binary64.byteCount * i) (Binary64.byteCount * (i + 1)) =
      match c.get? i with
      | some x => pure x
      | none => Eval.fail (.componentOutOfRange i c.size) := by
  rw [extract, Container.byteRange?_component, Container.length_bytes,
    Nat.mul_div_cancel_left i (by decide : 0 < Binary64.byteCount),
    Nat.mul_div_cancel_left c.size (by decide : 0 < Binary64.byteCount)]
  cases c.get? i with
  | none => rfl
  | some x =>
    show pure (Binary64.ofBytes x.toBytes) = _
    rw [Binary64.ofBytes_toBytes]

end FieldGraph
