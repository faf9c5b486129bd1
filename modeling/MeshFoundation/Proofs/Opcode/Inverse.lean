import MeshFoundation.Proofs.Opcode.RoundTrip

/-!
# Writing an opcode that was read

Reading tells the width of an opcode by the first byte, and writing tells it by the size of the
number. Both come to the same: the bytes that an opcode was read from are the very bytes that are
written for it (`Opcode.decode_cons_cases`). Together with the other direction this makes reading
the inverse of writing wherever it goes through (`Opcode.decode_eq_ok_iff`), and what is left over
on either side is refused for the one reason that there is for it (`Opcode.decode_eq_error_iff`,
`Opcode.encode_eq_error_iff`).
-/

set_option autoImplicit false

namespace MeshFoundation

namespace Bytes

theorem ofTripleNetwork_triple (high middle low : UInt8) :
    ofTripleNetwork (triple high middle low) = [high, middle, low] := by
  have hm : middle.toNat < 256 := middle.toNat_lt
  have hl : low.toNat < 256 := low.toNat_lt
  have hbyte : ∀ (n : Nat) (b : UInt8), n % 256 = b.toNat → lowByte n = b := by
    intro n b h
    apply UInt8.toNat_inj.mp
    rw [toNat_lowByte, h]
  have hh : high.toNat < 256 := high.toNat_lt
  rw [ofTripleNetwork, toNat_triple, hbyte _ high (by omega), hbyte _ middle (by omega),
    hbyte _ low (by omega)]

theorem ofWordNetwork_word (low high : UInt8) : ofWordNetwork (word low high) = [high, low] := by
  have hbytes := ofWord_word low high
  simp only [ofWord, List.cons.injEq, and_true] at hbytes
  rw [ofWordNetwork, hbytes.1, hbytes.2]

end Bytes

namespace Opcode

variable {op : Opcode} {bytes : Bytes} {n : Nat}

/-! ## Writing -/

/-- An opcode can be written if it lies in one of the three ranges, of one, two and three bytes. -/
def IsWritable (op : Opcode) : Prop :=
  op.value.toNat ≤ 0x7E ∨ (0x8000 ≤ op.value.toNat ∧ op.value.toNat ≤ 0xBFFF) ∨
    (0xC00000 ≤ op.value.toNat ∧ op.value.toNat ≤ 0xFFFFFF)

/-- Every opcode is in one of four classes, each with its own width and its own bytes. -/
theorem classes (op : Opcode) :
    (op.value.toNat ≤ 0x7E ∧ op.width? = some 1 ∧
        op.encode = .ok [Bytes.lowByte op.value.toNat]) ∨
      (0x8000 ≤ op.value.toNat ∧ op.value.toNat ≤ 0xBFFF ∧ op.width? = some 2 ∧
        op.encode = .ok (Bytes.ofWordNetwork op.value.toUInt16)) ∨
      (0xC00000 ≤ op.value.toNat ∧ op.value.toNat ≤ 0xFFFFFF ∧ op.width? = some 3 ∧
        op.encode = .ok (Bytes.ofTripleNetwork op.value)) ∨
      (¬ op.IsWritable ∧ op.width? = none ∧ op.encode = .error (.outOfRange op)) := by
  unfold encode width? IsWritable
  simp only [UInt32.le_iff_toNat_le, UInt32.reduceToNat]
  by_cases hone : op.value.toNat ≤ 0x7E
  · exact .inl ⟨hone, by simp [hone]⟩
  by_cases htwo : 0x8000 ≤ op.value.toNat ∧ op.value.toNat ≤ 0xBFFF
  · exact .inr (.inl ⟨htwo.1, htwo.2, by simp [hone, htwo]⟩)
  by_cases hthree : 0xC00000 ≤ op.value.toNat ∧ op.value.toNat ≤ 0xFFFFFF
  · exact .inr (.inr (.inl ⟨hthree.1, hthree.2, by simp [hone, htwo, hthree]⟩))
  · exact .inr (.inr (.inr ⟨by simp only [hone, htwo, hthree, or_self, not_false_eq_true],
      by simp [hone, htwo, hthree]⟩))

theorem encode_of_width? (h : op.width? = some n) :
    ∃ encoded, op.encode = .ok encoded ∧ encoded.length = n := by
  rcases op.classes with ⟨-, hwidth, hencode⟩ | ⟨-, -, hwidth, hencode⟩ | ⟨-, -, hwidth, hencode⟩ |
    ⟨-, hwidth, -⟩
  · exact ⟨_, hencode, Option.some.inj (hwidth.symm.trans h)⟩
  · exact ⟨_, hencode, Option.some.inj (hwidth.symm.trans h)⟩
  · exact ⟨_, hencode, Option.some.inj (hwidth.symm.trans h)⟩
  · rw [hwidth] at h
    cases h

theorem width?_of_encode (h : op.encode = .ok bytes) : op.width? = some bytes.length := by
  cases hwidth : op.width? with
  | none =>
    rw [encode, hwidth] at h
    cases h
  | some n =>
    obtain ⟨encoded, hencoded, hlength⟩ := encode_of_width? hwidth
    rw [hencoded] at h
    cases h
    rw [hlength]

/-- An opcode that cannot be written is refused for lying in none of the ranges. -/
theorem encode_eq_error_iff {fault : Fault} :
    op.encode = .error fault ↔ fault = .outOfRange op ∧ ¬ op.IsWritable := by
  rcases op.classes with ⟨hone, -, hencode⟩ | ⟨hlow, hhigh, -, hencode⟩ |
    ⟨hlow, hhigh, -, hencode⟩ | ⟨hnone, -, hencode⟩
  · simp [hencode, IsWritable, hone]
  · simp [hencode, IsWritable, hlow, hhigh]
  · simp [hencode, IsWritable, hlow, hhigh]
  · simp [hencode, hnone, eq_comm]

/-! ## Reading -/

section

variable {first second third : UInt8}

theorem encode_narrow (h : first.toNat < 0x7F) : encode ⟨first.toUInt32⟩ = .ok [first] := by
  have hvalue : first.toUInt32.toNat = first.toNat := UInt8.toNat_toUInt32 first
  rcases classes ⟨first.toUInt32⟩ with ⟨-, -, hencode⟩ | ⟨hlow, -⟩ | ⟨hlow, -⟩ | ⟨hnone, -⟩
  · rw [hencode, hvalue, Bytes.lowByte_toNat]
  all_goals
    simp only [IsWritable, hvalue] at *
    omega

theorem encode_pair (hlow : 0x80 ≤ first.toNat) (hhigh : first.toNat < 0xC0) :
    encode ⟨(Bytes.word second first).toUInt32⟩ = .ok [first, second] := by
  have hsecond : second.toNat < 256 := second.toNat_lt
  have hvalue : (Bytes.word second first).toUInt32.toNat = second.toNat + 256 * first.toNat := by
    rw [UInt16.toNat_toUInt32, Bytes.toNat_word]
  rcases classes ⟨(Bytes.word second first).toUInt32⟩ with
    ⟨hone, -⟩ | ⟨-, -, -, hencode⟩ | ⟨hthree, -⟩ | ⟨hnone, -⟩
  case inr.inl => rw [hencode, UInt16.toUInt16_toUInt32, Bytes.ofWordNetwork_word]
  all_goals
    simp only [IsWritable, hvalue] at *
    omega

theorem encode_triple (h : 0xC0 ≤ first.toNat) :
    encode ⟨Bytes.triple first second third⟩ = .ok [first, second, third] := by
  have hfirst : first.toNat < 256 := first.toNat_lt
  have hsecond : second.toNat < 256 := second.toNat_lt
  have hthird : third.toNat < 256 := third.toNat_lt
  have hvalue := Bytes.toNat_triple first second third
  rcases classes ⟨Bytes.triple first second third⟩ with
    ⟨hone, -⟩ | ⟨-, htwo, -⟩ | ⟨-, -, -, hencode⟩ | ⟨hnone, -⟩
  case inr.inr.inl => rw [hencode, Bytes.ofTripleNetwork_triple]
  all_goals
    simp only [IsWritable, hvalue] at *
    omega

theorem announcedWidth_cases (first : UInt8) :
    announcedWidth first = 1 ∨ announcedWidth first = 2 ∨ announcedWidth first = 3 := by
  unfold announcedWidth
  split
  · exact .inl rfl
  · split
    · exact .inr (.inl rfl)
    · exact .inr (.inr rfl)

/-- A payload that is not empty begins with the reserved byte, or ends before the width that its
first byte announces, or begins with the bytes of an opcode of this width. -/
theorem decode_cons_cases (first : UInt8) (rest : Bytes) :
    (first = 0x7F ∧ decode (first :: rest) = .error .reserved) ∨
      (rest.length + 1 < announcedWidth first ∧
        decode (first :: rest) = .error (.truncated (rest.length + 1) (announcedWidth first))) ∨
      ∃ op encoded later, first :: rest = encoded ++ later ∧
        encoded.length = announcedWidth first ∧ op.encode = .ok encoded ∧
        decode (first :: rest) = .ok (op, encoded.length) := by
  by_cases hreserved : first = 0x7F
  · exact .inl ⟨hreserved, by simp [decode, hreserved]⟩
  have hne : first.toNat ≠ 0x7F := fun heq => hreserved (UInt8.toNat_inj.mp heq)
  have hlt : ∀ bound : UInt8, first < bound ↔ first.toNat < bound.toNat :=
    fun bound => UInt8.lt_iff_toNat_lt
  simp only [announcedWidth, hlt, UInt8.reduceToNat]
  by_cases hnarrow : first.toNat < 0x80
  · exact .inr (.inr ⟨_, [first], rest, rfl, by simp [hnarrow], encode_narrow (by omega),
      decode_narrow (by omega)⟩)
  by_cases hpair : first.toNat < 0xC0
  · simp only [hnarrow, hpair, if_true, if_false]
    cases rest with
    | nil => exact .inr (.inl ⟨by simp, by simp [decode, hreserved, hlt, hnarrow, hpair]⟩)
    | cons second later =>
      exact .inr (.inr ⟨_, [first, second], later, rfl, rfl, encode_pair (by omega) hpair,
        decode_pair (by omega) hpair⟩)
  · simp only [hnarrow, hpair, if_false]
    rcases rest with _ | ⟨second, _ | ⟨third, later⟩⟩
    · exact .inr (.inl ⟨by simp, by simp [decode, hreserved, hlt, hnarrow, hpair]⟩)
    · exact .inr (.inl ⟨by simp, by simp [decode, hreserved, hlt, hnarrow, hpair]⟩)
    · exact .inr (.inr ⟨_, [first, second, third], later, rfl, rfl, encode_triple (by omega),
        decode_triple (by omega)⟩)

end

/-- An opcode is read from the front of a payload exactly if its bytes stand there. -/
theorem decode_eq_ok_iff :
    decode bytes = .ok (op, n) ↔ n ≤ bytes.length ∧ op.encode = .ok (bytes.take n) := by
  constructor
  · intro h
    cases bytes with
    | nil => cases h
    | cons first rest =>
      rcases decode_cons_cases first rest with ⟨-, hfault⟩ | ⟨-, hfault⟩ |
        ⟨own, encoded, later, hsplit, -, hencode, hdecode⟩
      · rw [hfault] at h
        cases h
      · rw [hfault] at h
        cases h
      · rw [hdecode] at h
        cases h
        rw [hsplit, List.take_left, List.length_append]
        exact ⟨Nat.le_add_right _ _, hencode⟩
  · rintro ⟨hle, hencode⟩
    have hdecode := decode_append_of_encode hencode (bytes.drop n)
    rwa [List.take_append_drop, List.length_take_of_le hle] at hdecode

/-- There are three reasons why a payload has no opcode that can be read. -/
theorem decode_eq_error_iff {fault : Fault} :
    decode bytes = .error fault ↔
      (bytes = [] ∧ fault = .empty) ∨ (bytes.head? = some 0x7F ∧ fault = .reserved) ∨
        ∃ first, bytes.head? = some first ∧ bytes.length < announcedWidth first ∧
          fault = .truncated bytes.length (announcedWidth first) := by
  cases bytes with
  | nil => simp [decode, eq_comm]
  | cons first rest =>
    simp only [reduceCtorEq, false_and, false_or, List.head?_cons, Option.some.injEq,
      exists_eq_left', List.length_cons]
    rcases decode_cons_cases first rest with ⟨rfl, hfault⟩ | ⟨hshort, hfault⟩ |
      ⟨own, encoded, later, hsplit, hlength, hencode, hdecode⟩
    · have hwide : ¬ rest.length + 1 < announcedWidth 0x7F := by simp [announcedWidth]
      simp [hfault, hwide, eq_comm]
    · have hne : first ≠ 0x7F := by
        rintro rfl
        simp [announcedWidth] at hshort
      simp [hfault, hshort, hne, eq_comm]
    · have hlong : ¬ rest.length + 1 < announcedWidth first := by
        have hsplit := congrArg List.length hsplit
        rw [List.length_append, List.length_cons] at hsplit
        omega
      have hne : first ≠ 0x7F := by
        rintro rfl
        simp [decode] at hdecode
      simp [hdecode, hlong, hne]

/-- Reading is the inverse of writing. An opcode is read from a payload exactly if the payload
begins with the bytes that are written for it; it takes as many of them as its width says, and
what follows does not matter. An opcode that has a width is read back from its bytes, whatever
follows them. Whatever is left is refused: a payload for being empty, for its reserved first byte
or for ending before the width that its first byte announces, and an opcode for lying in none of
the three ranges. -/
theorem decode_inverts_encode (bytes : Bytes) (op : Opcode) :
    (∀ n, decode bytes = .ok (op, n) ↔ n ≤ bytes.length ∧ op.encode = .ok (bytes.take n)) ∧
      (∀ n, decode bytes = .ok (op, n) →
        op.width? = some n ∧ ∀ suffix, decode (bytes ++ suffix) = .ok (op, n)) ∧
      (∀ n, op.width? = some n →
        ∃ encoded, op.encode = .ok encoded ∧ encoded.length = n ∧
          ∀ suffix, decode (encoded ++ suffix) = .ok (op, n)) ∧
      (decode bytes = .error .empty ↔ bytes = []) ∧
      (decode bytes = .error .reserved ↔ bytes.head? = some 0x7F) ∧
      (∀ available needed, decode bytes = .error (.truncated available needed) ↔
        (∃ first, bytes.head? = some first ∧ announcedWidth first = needed) ∧
          (needed = 2 ∨ needed = 3) ∧ available = bytes.length ∧ available < needed) ∧
      (∀ other, decode bytes ≠ .error (.outOfRange other)) ∧
      ((∃ fault, op.encode = .error fault) ↔
        ¬ (op.value.toNat ≤ 0x7E ∨ (0x8000 ≤ op.value.toNat ∧ op.value.toNat ≤ 0xBFFF) ∨
          (0xC00000 ≤ op.value.toNat ∧ op.value.toNat ≤ 0xFFFFFF))) := by
  refine ⟨fun n => decode_eq_ok_iff, ?_, ?_, ?_, ?_, ?_, ?_, ?_⟩
  · intro n h
    obtain ⟨hle, hencode⟩ := decode_eq_ok_iff.mp h
    have hlength : (bytes.take n).length = n := List.length_take_of_le hle
    refine ⟨?_, ?_⟩
    · rw [width?_of_encode hencode, hlength]
    · intro suffix
      have hdecode := decode_append_of_encode hencode (bytes.drop n ++ suffix)
      rwa [← List.append_assoc, List.take_append_drop, hlength] at hdecode
  · intro n h
    obtain ⟨encoded, hencode, hlength⟩ := encode_of_width? h
    refine ⟨encoded, hencode, hlength, ?_⟩
    intro suffix
    rw [← hlength]
    exact decode_append_of_encode hencode suffix
  · simp [decode_eq_error_iff]
  · simp [decode_eq_error_iff]
  · intro available needed
    rw [decode_eq_error_iff]
    constructor
    · rintro (⟨-, hfault⟩ | ⟨-, hfault⟩ | ⟨first, hfirst, hshort, hfault⟩)
      · cases hfault
      · cases hfault
      · cases hfault
        refine ⟨⟨first, hfirst, rfl⟩, ?_, rfl, hshort⟩
        have hpos : 0 < bytes.length := by
          rw [List.length_pos_iff]
          rintro rfl
          cases hfirst
        rcases announcedWidth_cases first with hone | htwo
        · omega
        · exact htwo
    · rintro ⟨⟨first, hfirst, rfl⟩, -, rfl, hshort⟩
      exact .inr (.inr ⟨first, hfirst, hshort, rfl⟩)
  · intro other
    simp [decode_eq_error_iff]
  · simp only [encode_eq_error_iff]
    simp [IsWritable]

/-- The opcode `0xC10203` of a vendor, with one byte after it. -/
theorem vendorOpcode_inverts_encode :
    decode [0xC1, 0x02, 0x03, 0xFF] = .ok (⟨0xC10203⟩, 3) ∧
      encode ⟨0xC10203⟩ = .ok [0xC1, 0x02, 0x03] ∧
      decode [0xC1, 0x02, 0x03, 0xFF, 0x7F] = .ok (⟨0xC10203⟩, 3) := by
  obtain ⟨hiff, hkept, -⟩ := decode_inverts_encode [0xC1, 0x02, 0x03, 0xFF] ⟨0xC10203⟩
  have hdecode : decode [0xC1, 0x02, 0x03, 0xFF] = .ok (⟨0xC10203⟩, 3) := rfl
  exact ⟨hdecode, ((hiff 3).mp hdecode).2, (hkept 3 hdecode).2 [0x7F]⟩

end Opcode

end MeshFoundation
