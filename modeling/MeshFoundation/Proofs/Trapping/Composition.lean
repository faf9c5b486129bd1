import MeshFoundation.Proofs.Composition.Grammar
import MeshFoundation.Proofs.Trapping.Parameters

/-!
# Composition data are read without a trap

Two checks stand before everything that is taken from composition data: that the header is there,
and for each element that its record is there, whose length is calculated from two counts that the
sender chose. Neither the calculation nor what is taken after it can trap (`element_eq`). Every
record takes four bytes at least, which bounds the rounds of the loop over the elements
(`elements_eq`).
-/

set_option autoImplicit false

namespace MeshFoundation

/-- A record takes four bytes at least. -/
theorem Element.four_le_of_read? {bytes rest : Bytes} {e : Element}
    (h : read? bytes = some (e, rest)) : rest.length + 4 ≤ bytes.length := by
  obtain ⟨-, rfl⟩ := of_read? h
  simp only [bytes_eq, List.length_append, List.length_cons]
  omega

namespace Trapping

/-! ## Models -/

theorem takeSigModel_cons_cons (low high : UInt8) (rest : Bytes) :
    takeSigModel (low :: high :: rest) = .ok ((Bytes.word low high).toUInt32, rest) :=
  rfl

theorem takeVendorModel_cons (b0 b1 b2 b3 : UInt8) (rest : Bytes) :
    takeVendorModel (b0 :: b1 :: b2 :: b3 :: rest) =
      .ok ((Bytes.word b0 b1).toUInt32 <<< 16 ||| (Bytes.word b2 b3).toUInt32, rest) := by
  have hupper : UInt32.ofNat ((Bytes.word b0 b1).toNat <<< 16 % 2 ^ 32) =
      (Bytes.word b0 b1).toUInt32 <<< 16 := by
    apply UInt32.toNat_inj.mp
    simp
  simp only [takeVendorModel, takeWord_cons_cons, ok_bind,
    shiftLeft_of_lt (show 16 < 32 by omega), hupper, pure_eq_ok]

theorem takeMany_takeSigModel {count : Nat} {bytes : Bytes} (h : 2 * count ≤ bytes.length) :
    takeMany takeSigModel count bytes =
      .ok (Bytes.words (bytes.take (2 * count)), bytes.drop (2 * count)) := by
  induction count generalizing bytes with
  | zero => rfl
  | succ count ih =>
    match bytes, h with
    | low :: high :: rest, h =>
      have hrest : 2 * count ≤ rest.length := by
        simp only [List.length_cons] at h
        omega
      simp [takeMany, takeSigModel_cons_cons, ih hrest, Nat.mul_add, Bytes.words]

theorem takeMany_takeVendorModel {count : Nat} {bytes : Bytes} (h : 4 * count ≤ bytes.length) :
    takeMany takeVendorModel count bytes =
      .ok (Bytes.wordPairs (bytes.take (4 * count)), bytes.drop (4 * count)) := by
  induction count generalizing bytes with
  | zero => rfl
  | succ count ih =>
    match bytes, h with
    | b0 :: b1 :: b2 :: b3 :: rest, h =>
      have hrest : 4 * count ≤ rest.length := by
        simp only [List.length_cons] at h
        omega
      simp [takeMany, takeVendorModel_cons, ih hrest, Nat.mul_add, Bytes.wordPairs]

/-! ## Elements -/

variable (m : Machine)

/-- The length of a record is calculated without a trap, and once it was compared with what is
there, so is all that the record holds. -/
theorem element_eq (bytes : Bytes) : element m bytes = .ok (Element.read? bytes) := by
  unfold Element.read?
  split
  next low high sigCount vendorCount rest =>
    have hwide := m.le_two_pow
    have hsig : sigCount.toNat < 256 := sigCount.toNat_lt
    have hvendor : vendorCount.toNat < 256 := vendorCount.toNat_lt
    simp only [element, List.length_cons, takeWord_cons_cons, takeByte_cons, ok_bind, pure_eq_ok]
    rw [if_neg (by omega), mul_of_lt (by omega), ok_bind, mul_of_lt (by omega), ok_bind,
      add_of_lt (by omega), ok_bind, Nat.mul_comm sigCount.toNat, Nat.mul_comm vendorCount.toNat,
      List.length_take]
    by_cases henough : 2 * sigCount.toNat + 4 * vendorCount.toNat ≤ rest.length
    · have hvendors : 4 * vendorCount.toNat ≤ (rest.drop (2 * sigCount.toNat)).length := by
        rw [List.length_drop]
        omega
      have hsigBytes : (rest.take (2 * sigCount.toNat + 4 * vendorCount.toNat)).take
          (2 * sigCount.toNat) = rest.take (2 * sigCount.toNat) := by
        rw [List.take_take, Nat.min_eq_left (Nat.le_add_right _ _)]
      have hvendorBytes : (rest.take (2 * sigCount.toNat + 4 * vendorCount.toNat)).drop
          (2 * sigCount.toNat) = (rest.drop (2 * sigCount.toNat)).take (4 * vendorCount.toNat) := by
        rw [List.drop_take, Nat.add_sub_cancel_left]
      rw [if_neg (by omega), if_neg (by omega), takeMany_takeSigModel (by omega), ok_bind]
      simp only
      rw [takeMany_takeVendorModel hvendors, ok_bind, hsigBytes, hvendorBytes, List.drop_drop]
    · rw [if_pos (by omega), if_pos (by omega)]
  next hshort =>
    have hlength : bytes.length < 4 := by
      match bytes, hshort with
      | [], _ | [_], _ | [_, _], _ | [_, _, _], _ => simp
      | b0 :: b1 :: b2 :: b3 :: rest, hshort => exact absurd rfl (hshort b0 b1 b2 b3 rest)
    rw [element, if_pos hlength]
    rfl

/-- The loop over the elements ends: every round takes four bytes at least, so that there are no
more rounds to go on with than a quarter of the bytes. -/
theorem elements_eq {rounds : Nat} {bytes : Bytes} (h : bytes.length / 4 < rounds) :
    elements m rounds bytes = .ok (Element.readAll bytes) := by
  induction rounds generalizing bytes with
  | zero => cases h
  | succ rounds ih =>
    rw [elements, element_eq, ok_bind]
    cases hread : Element.read? bytes with
    | none =>
      rw [Element.readAll_of_none hread]
      rfl
    | some result =>
      obtain ⟨first, rest⟩ := result
      have hfour := Element.four_le_of_read? hread
      have hrest : rest.length / 4 < rounds := by omega
      simp only
      rw [ih hrest, Element.readAll_of_some hread]
      rfl

/-- A round fewer would not do. -/
example : elements ⟨16, Nat.le_refl 16⟩ 1 [0, 0, 0, 0] = .error .unfinished := rfl

/-- Composition data are read to their end, whatever they are. -/
theorem composition_eq {rounds : Nat} {bytes : Bytes} (h : bytes.length / 4 < rounds) :
    composition m rounds bytes = .ok (Composition.read bytes) := by
  by_cases hlong : 11 ≤ bytes.length
  · obtain ⟨page, c0, c1, p0, p1, v0, v1, r0, r1, f0, f1, records, rfl⟩ :=
      Composition.exists_header_of_length hlong
    have hrecords : records.length / 4 < rounds := by
      simp only [List.length_cons] at h
      omega
    simp only [composition, Composition.headerLength, takeByte_cons, takeWord_cons_cons, ok_bind,
      elements_eq m hrecords]
    rw [if_neg (by omega)]
    rfl
  · have hshort : bytes.length < 11 := by omega
    rw [composition, Composition.headerLength, if_pos hshort,
      Composition.read_eq_error_iff.mpr ⟨hshort, rfl⟩]
    rfl

end Trapping

end MeshFoundation
