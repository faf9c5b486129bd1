import MeshFoundation.Proofs.Composition.Record

/-!
# The grammar of composition data

Composition data consist of a header of eleven bytes, of records of elements, and of a tail
that is cut short. Only the four lowest bits of the mask in the header mean something, and the
page means nothing, so both are parts of their own beside what is said about the node.

Bytes have such parts exactly if they are long enough for a header, they have them in one way
only (`Composition.Parts.Make.unique`), and what is read are these parts
(`Composition.read_eq_ok_iff`). The main statement puts this together with its consequence for
data that were written: they are read back, and nothing is left over
(`Composition.read_exactly_grammar`).
-/

set_option autoImplicit false

namespace MeshFoundation

/-! ## Features -/

namespace Features

theorem toNat_toBits_ofBits (bits : UInt16) : (ofBits bits).toBits.toNat = bits.toNat % 16 := by
  have hbit : ∀ i, (bits.toNat.testBit i).toNat = bits.toNat / 2 ^ i % 2 := by
    intro i
    rw [Nat.testBit_eq_decide_div_mod_eq]
    rcases Nat.mod_two_eq_zero_or_one (bits.toNat / 2 ^ i) with h | h <;> simp [h]
  simp only [ofBits, toBits, hbit]
  rw [UInt16.toNat_ofNat_of_lt']
  · omega
  · simp only [UInt16.size]
    omega

/-- A mask holds the features that its four lowest bits name. -/
theorem ofBits_eq_iff {bits : UInt16} {f : Features} :
    ofBits bits = f ↔ bits.toNat % 16 = f.toBits.toNat := by
  rw [← toNat_toBits_ofBits]
  constructor
  · rintro rfl
    rfl
  · intro h
    rw [← ofBits_toBits (ofBits bits), UInt16.toNat_inj.mp h, ofBits_toBits]

end Features

namespace Composition

/-! ## The parts of composition data -/

/-- What composition data are made of. -/
structure Parts where
  page : UInt8
  /-- The mask of the features, of which only the four lowest bits mean something. -/
  mask : UInt16
  composition : Composition
  /-- What stands behind the last complete record. -/
  tail : Bytes
  deriving DecidableEq, Repr

/-- The eleven bytes before the records. -/
def Parts.header (p : Parts) : Bytes :=
  p.page :: (Bytes.ofWord p.composition.company ++ Bytes.ofWord p.composition.product ++
    Bytes.ofWord p.composition.version ++ Bytes.ofWord p.composition.replayCache ++
    Bytes.ofWord p.mask)

/-- The parts make up the given bytes. -/
structure Parts.Make (p : Parts) (bytes : Bytes) : Prop where
  layout : bytes = p.header ++ p.composition.elements.flatMap Element.bytes ++ p.tail
  features : p.mask.toNat % 16 = p.composition.features.toBits.toNat
  /-- Every element has a record. -/
  recordable : ∀ e ∈ p.composition.elements, e.Recordable
  /-- No record is left in the tail. -/
  cutShort : Element.CutShort p.tail

/-- What should be read from bytes that are made up of the parts. -/
def Parts.reading (p : Parts) : Reading := ⟨p.page, p.composition, p.tail.length⟩

variable {p q : Parts} {bytes : Bytes} {reading : Reading}

theorem exists_header_of_length (h : 11 ≤ bytes.length) :
    ∃ page c0 c1 p0 p1 v0 v1 r0 r1 f0 f1 records,
      bytes = page :: c0 :: c1 :: p0 :: p1 :: v0 :: v1 :: r0 :: r1 :: f0 :: f1 :: records := by
  match bytes, h with
  | page :: c0 :: c1 :: p0 :: p1 :: v0 :: v1 :: r0 :: r1 :: f0 :: f1 :: records, _ =>
    exact ⟨page, c0, c1, p0, p1, v0, v1, r0, r1, f0, f1, records, rfl⟩

/-- What is made up of parts is read as these parts. -/
theorem Parts.Make.read_eq (h : p.Make bytes) : read bytes = .ok p.reading := by
  have hfeatures := Features.ofBits_eq_iff.mpr h.features
  have hrecords := Element.readAll_eq_iff.mpr ⟨h.recordable, rfl, h.cutShort⟩
  rw [h.layout]
  simp only [Parts.header, Bytes.ofWord, List.cons_append, List.nil_append, read, hrecords,
    Bytes.word_of_ofWord, hfeatures, Parts.reading]

theorem length_of_make (h : p.Make bytes) : 11 ≤ bytes.length := by
  rw [h.layout]
  simp only [Parts.header, List.length_append, List.length_cons, Bytes.length_ofWord]
  omega

theorem exists_make (h : 11 ≤ bytes.length) : ∃ p : Parts, p.Make bytes := by
  obtain ⟨page, c0, c1, p0, p1, v0, v1, r0, r1, f0, f1, records, rfl⟩ :=
    exists_header_of_length h
  have hrecords : Element.readAll records =
      ((Element.readAll records).1, (Element.readAll records).2) := rfl
  obtain ⟨hrecordable, hlayout, hcut⟩ := Element.readAll_eq_iff.mp hrecords
  have hheader : ∀ c : Composition, c.company = Bytes.word c0 c1 →
      c.product = Bytes.word p0 p1 → c.version = Bytes.word v0 v1 →
      c.replayCache = Bytes.word r0 r1 → ∀ tail,
      (⟨page, Bytes.word f0 f1, c, tail⟩ : Parts).header =
        [page, c0, c1, p0, p1, v0, v1, r0, r1, f0, f1] := by
    rintro c hc hp hv hr tail
    simp [Parts.header, hc, hp, hv, hr, Bytes.ofWord_word]
  refine ⟨⟨page, Bytes.word f0 f1, ⟨Bytes.word c0 c1, Bytes.word p0 p1, Bytes.word v0 v1,
    Bytes.word r0 r1, Features.ofBits (Bytes.word f0 f1), (Element.readAll records).1⟩,
    (Element.readAll records).2⟩, ?_, Features.ofBits_eq_iff.mp rfl, hrecordable, hcut⟩
  rw [hheader _ rfl rfl rfl rfl, List.append_assoc, ← hlayout]
  rfl

/-- Bytes are made up of parts in one way only. -/
theorem Parts.Make.unique (hp : p.Make bytes) (hq : q.Make bytes) : p = q := by
  have hreading : p.reading = q.reading := Except.ok.inj (hp.read_eq.symm.trans hq.read_eq)
  have hlayout := hp.layout.symm.trans hq.layout
  obtain ⟨page, mask, composition, tail⟩ := p
  obtain ⟨page', mask', composition', tail'⟩ := q
  simp only [Parts.reading, Reading.mk.injEq] at hreading
  obtain ⟨rfl, rfl, -⟩ := hreading
  simp only [Parts.header, List.cons_append, List.append_assoc, List.cons.injEq, true_and,
    List.append_cancel_left_eq] at hlayout
  obtain ⟨hmask, hrest⟩ := List.append_inj hlayout rfl
  rw [Bytes.ofWord_injective hmask, List.append_cancel_left hrest]

/-! ## Reading -/

theorem read_eq_error_iff {fault : Truncated} :
    read bytes = .error fault ↔ bytes.length < 11 ∧ fault = ⟨bytes.length⟩ := by
  by_cases h : 11 ≤ bytes.length
  · obtain ⟨p, hp⟩ := exists_make h
    simp only [hp.read_eq, reduceCtorEq, false_iff]
    omega
  · have hshort : read bytes = .error ⟨bytes.length⟩ := by
      unfold read
      split
      · simp only [List.length_cons] at h
        omega
      · rfl
    rw [hshort, Except.error.injEq]
    constructor
    · rintro rfl
      exact ⟨by omega, rfl⟩
    · rintro ⟨-, rfl⟩
      rfl

/-- What is read from bytes are the parts that they are made up of. -/
theorem read_eq_ok_iff :
    read bytes = .ok reading ↔ ∃ p : Parts, p.Make bytes ∧ p.reading = reading := by
  constructor
  · intro h
    have hlong : 11 ≤ bytes.length := by
      apply Nat.le_of_not_lt
      intro hshort
      rw [read_eq_error_iff.mpr ⟨hshort, rfl⟩] at h
      cases h
    obtain ⟨p, hp⟩ := exists_make hlong
    exact ⟨p, hp, Except.ok.inj (hp.read_eq.symm.trans h)⟩
  · rintro ⟨p, hp, rfl⟩
    exact hp.read_eq

theorem decode_eq_ok_iff {c : Composition} :
    decode bytes = .ok c ↔ ∃ p : Parts, p.Make bytes ∧ p.composition = c := by
  unfold decode
  cases hread : read bytes with
  | error fault =>
    simp only [reduceCtorEq, false_iff]
    rintro ⟨p, hp, -⟩
    rw [hp.read_eq] at hread
    cases hread
  | ok reading =>
    obtain ⟨p, hp, rfl⟩ := read_eq_ok_iff.mp hread
    simp only [Except.ok.injEq]
    constructor
    · rintro rfl
      exact ⟨p, hp, rfl⟩
    · rintro ⟨q, hq, rfl⟩
      rw [hq.unique hp, Parts.reading]

/-- Composition data that were written are made up of what was to be written. -/
theorem make_bytes {c : Composition} (page : UInt8) (h : ∀ e ∈ c.elements, e.Recordable) :
    (⟨page, c.features.toBits, c, []⟩ : Parts).Make (c.bytes page) := by
  refine ⟨?_, ?_, h, trivial⟩
  · simp only [Composition.bytes, Parts.header, List.cons_append, List.append_assoc,
      List.append_nil]
  · rw [← Features.toNat_toBits_ofBits, Features.ofBits_toBits]

/-- Composition data are read exactly as their grammar says. Bytes that are shorter than a
header make a fault, and no other bytes do. All other bytes are made up of parts in one way, and
these are what is read, with the length of the tail as the remainder. Data of elements that have
records are read back from the bytes in which they were written. -/
theorem read_exactly_grammar (bytes : Bytes) (page : UInt8) (c : Composition) :
    (∀ fault, read bytes = .error fault ↔ bytes.length < 11 ∧ fault = ⟨bytes.length⟩) ∧
      (∀ available, Truncated.message ⟨available⟩ =
        "composition data truncated: have " ++ Text.decimal available ++ " bytes, need 11") ∧
      (11 ≤ bytes.length → ∃ p : Parts, p.Make bytes ∧ (∀ q : Parts, q.Make bytes → q = p) ∧
        read bytes = .ok ⟨p.page, p.composition, p.tail.length⟩) ∧
      ((∀ e ∈ c.elements, e.Recordable) → read (c.bytes page) = .ok ⟨page, c, 0⟩) := by
  refine ⟨fun fault => read_eq_error_iff, ?_, ?_, ?_⟩
  · intro available
    have hneed : " bytes, need " ++ Text.decimal headerLength = " bytes, need 11" := by rfl
    unfold Truncated.message
    rw [String.append_assoc, hneed]
  · intro hlong
    obtain ⟨p, hp⟩ := exists_make hlong
    exact ⟨p, hp, fun q hq => hq.unique hp, hp.read_eq⟩
  · intro hrecords
    exact (make_bytes page hrecords).read_eq

/-- A node with one element, whose mask has reserved bits set, and the first part of a record. -/
def cutParts : Parts where
  page := 1
  mask := 0xFFF5
  composition :=
    { company := 0x0059
      product := 2
      version := 3
      replayCache := 10
      features := ⟨true, false, true, false⟩
      elements := [⟨0x0102, [0x1000], [0x00590001]⟩] }
  tail := [1, 2, 0, 1, 9]

/-- The tail announces a model of which only the first byte is there. -/
theorem grammar_of_cutParts :
    let bytes := cutParts.header ++ [2, 1, 1, 1, 0, 16, 0x59, 0, 1, 0] ++ cutParts.tail
    11 ≤ bytes.length ∧ read bytes = .ok ⟨1, cutParts.composition, 5⟩ ∧
      (∀ e ∈ cutParts.composition.elements, e.Recordable) ∧
      read (cutParts.composition.bytes 0) = .ok ⟨0, cutParts.composition, 0⟩ := by
  intro bytes
  have hlong : 11 ≤ bytes.length := by decide
  have hrecords : ∀ e ∈ cutParts.composition.elements, e.Recordable := by
    intro e he
    obtain rfl := List.mem_singleton.mp he
    exact ⟨by decide, by decide, by simp⟩
  have hmake : cutParts.Make bytes := by
    refine ⟨by decide, by decide, hrecords, ?_⟩
    show 1 < 4
    decide
  obtain ⟨-, -, hparts, hwritten⟩ := read_exactly_grammar bytes 0 cutParts.composition
  obtain ⟨p, -, hunique, hread⟩ := hparts hlong
  rw [← hunique cutParts hmake] at hread
  exact ⟨hlong, hread, hrecords, hwritten hrecords⟩

end Composition

end MeshFoundation
