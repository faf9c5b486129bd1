import MeshFoundation.Proofs.Composition.Grammar

/-!
# Composition data that were cut off

Composition data do not say how long they are, and a message may end anywhere, also within a
record or within one of its fields. What is read from the first part of some data is then a first
part of what is read from all of them: a record that was cut off is not read, and the records
before it are read as they would have been (`Element.readAll_append`). If more bytes come, reading
goes on in front of the record that was cut off, with the bytes that were left over.

The header and the records are read apart from each other (`Composition.exists_read_append`), so
that the same holds of composition data as a whole (`Composition.read_goes_on`). Nothing is left
over exactly of a header and whole records (`Composition.complete_iff`).
-/

set_option autoImplicit false

namespace MeshFoundation

namespace Element

variable {bytes rest : Bytes} {e : Element}

/-- A record that is complete is read alike whatever comes after it. -/
theorem read?_append (h : read? bytes = some (e, rest)) (more : Bytes) :
    read? (bytes ++ more) = some (e, rest ++ more) := by
  obtain ⟨hrecord, rfl⟩ := of_read? h
  rw [List.append_assoc]
  exact read?_bytes_append hrecord (rest ++ more)

/-- Reading goes on where it stopped: with the bytes that were left over, and those that came
after them. -/
theorem readAll_append (bytes more : Bytes) :
    readAll (bytes ++ more) =
      ((readAll bytes).1 ++ (readAll ((readAll bytes).2 ++ more)).1,
        (readAll ((readAll bytes).2 ++ more)).2) := by
  fun_induction readAll bytes with
  | case1 bytes hnone => rfl
  | case2 bytes e rest hsome es tail hrest ih =>
    rw [hrest] at ih
    rw [readAll_of_some (read?_append hsome more), ih]
    rfl

/-- What is left over is the end of the bytes. -/
theorem readAll_suffix (bytes : Bytes) : (readAll bytes).2 <:+ bytes :=
  ⟨_, (of_readAll bytes).2.1.symm⟩

end Element

namespace Composition

/-- The whole is read like a part of it, but for elements that come after those of the part. -/
structure Reading.Extends (whole part : Reading) : Prop where
  page : whole.page = part.page
  header : whole.composition =
    { part.composition with elements := whole.composition.elements }
  elements : part.composition.elements <+: whole.composition.elements

/-- The whole is read as a part of it, and then as what comes later. -/
structure Reading.Joins (whole part later : Reading) : Prop where
  elements : whole.composition.elements =
    part.composition.elements ++ later.composition.elements
  remainder : whole.remainder = later.remainder

/-- What is read from the given records behind a header that says the given things. -/
def Reading.ofRecords (page : UInt8) (c : Composition) (records : Bytes) : Reading :=
  ⟨page, { c with elements := (Element.readAll records).1 }, (Element.readAll records).2.length⟩

variable {page : UInt8} {c : Composition} {header : Bytes}

/-- The header says all but the elements, and these are read from the records alone. -/
theorem exists_read_append (h : header.length = 11) :
    ∃ page c, ∀ records, read (header ++ records) = .ok (.ofRecords page c records) := by
  obtain ⟨page, c0, c1, p0, p1, v0, v1, r0, r1, f0, f1, rest, rfl⟩ :=
    exists_header_of_length (Nat.le_of_eq h.symm)
  obtain rfl : rest = [] := List.eq_nil_of_length_eq_zero (by simpa using h)
  exact ⟨page, ⟨Bytes.word c0 c1, Bytes.word p0 p1, Bytes.word v0 v1, Bytes.word r0 r1,
    Features.ofBits (Bytes.word f0 f1), []⟩, fun records => rfl⟩

theorem Reading.extends_ofRecords (records more : Bytes) :
    (ofRecords page c (records ++ more)).Extends (ofRecords page c records) where
  page := rfl
  header := rfl
  elements := by
    rw [ofRecords, ofRecords, Element.readAll_append records more]
    exact List.prefix_append _ _

/-- What was left over of some records is read together with what comes after them. -/
theorem Reading.joins_ofRecords (records more : Bytes) :
    (ofRecords page c (records ++ more)).Joins (ofRecords page c records)
      (ofRecords page c ((Element.readAll records).2 ++ more)) where
  elements := congrArg Prod.fst (Element.readAll_append records more)
  remainder := congrArg (fun read => read.2.length) (Element.readAll_append records more)

/-- The bytes are a header and whole records, with nothing behind them. -/
def Complete (bytes : Bytes) : Prop :=
  ∃ (header : Bytes) (records : List Bytes), header.length = 11 ∧
    (∀ record ∈ records, Element.IsRecord record) ∧ bytes = header ++ records.flatten

/-- Nothing is left over exactly of data that are complete. -/
theorem complete_iff {bytes : Bytes} :
    Complete bytes ↔ ∃ reading, read bytes = .ok reading ∧ reading.remainder = 0 := by
  constructor
  · rintro ⟨header, records, hheader, hrecords, rfl⟩
    obtain ⟨page, c, hread⟩ := exists_read_append hheader
    obtain ⟨es, hes, hbytes⟩ := Element.exists_of_records hrecords
    have hall : Element.readAll (es.flatMap Element.bytes ++ []) = (es, []) :=
      Element.readAll_eq_iff.mpr ⟨hes, rfl, trivial⟩
    rw [List.append_nil, hbytes] at hall
    refine ⟨_, hread records.flatten, ?_⟩
    rw [Reading.ofRecords, hall]
    rfl
  · rintro ⟨reading, hread, hnone⟩
    obtain ⟨p, hp, rfl⟩ := read_eq_ok_iff.mp hread
    have htail : p.tail = [] := List.eq_nil_of_length_eq_zero hnone
    refine ⟨p.header, p.composition.elements.map Element.bytes, rfl, ?_, ?_⟩
    · intro record hrecord
      obtain ⟨e, he, rfl⟩ := List.mem_map.mp hrecord
      exact (hp.recordable e he).isRecord
    · rw [hp.layout, htail, List.append_nil, List.flatMap_def]

/-- Composition data that are cut off at any byte behind the header are read like the whole data,
without the elements that are not complete yet. What is left over of them is read together with
the rest of the data, as if it stood right behind the header; and if nothing is left over, then the
rest of the data is read so. -/
theorem read_goes_on (bytes more : Bytes) (hlong : 11 ≤ bytes.length) :
    ∃ part whole, read bytes = .ok part ∧ read (bytes ++ more) = .ok whole ∧
      whole.Extends part ∧
      (∃ later, read (bytes.take 11 ++ bytes.drop (bytes.length - part.remainder) ++ more) =
        .ok later ∧ whole.Joins part later) ∧
      (part.remainder = 0 → ∃ later, read (bytes.take 11 ++ more) = .ok later ∧
        whole.Joins part later) := by
  obtain ⟨page, c, hread⟩ := exists_read_append (List.length_take_of_le hlong)
  obtain ⟨records, hrecords⟩ : ∃ records, records = bytes.drop 11 := ⟨_, rfl⟩
  have hsplit : bytes.take 11 ++ records = bytes := hrecords ▸ List.take_append_drop 11 bytes
  have hpart : read bytes = .ok (.ofRecords page c records) := by rw [← hread, hsplit]
  have hwhole : read (bytes ++ more) = .ok (.ofRecords page c (records ++ more)) := by
    rw [← hread, ← List.append_assoc, hsplit]
  refine ⟨_, _, hpart, hwhole, Reading.extends_ofRecords records more, ?_, ?_⟩
  · -- What is left over of the records is the end of all bytes.
    have hsuffix : (Element.readAll records).2 <:+ bytes :=
      (Element.readAll_suffix records).trans (hrecords ▸ List.drop_suffix 11 bytes)
    have htail : bytes.drop (bytes.length - (Reading.ofRecords page c records).remainder) =
        (Element.readAll records).2 := (List.suffix_iff_eq_drop.mp hsuffix).symm
    refine ⟨_, ?_, Reading.joins_ofRecords records more⟩
    rw [htail, List.append_assoc, hread]
  · intro hnone
    have hempty : (Element.readAll records).2 = [] := List.eq_nil_of_length_eq_zero hnone
    refine ⟨_, ?_, Reading.joins_ofRecords records more⟩
    rw [hempty, List.nil_append, hread]

/-- A node with two elements, whose data are cut off behind the first record. -/
theorem read_goes_on_behind_record :
    let node (elements : List Element) (remainder : Nat) : Reading :=
      ⟨1, ⟨0x59, 2, 3, 10, ⟨true, false, true, false⟩, elements⟩, remainder⟩
    let header : Bytes := [1, 0x59, 0, 2, 0, 3, 0, 10, 0, 0xF5, 0xFF]
    let first : Bytes := [1, 0, 1, 0, 0x00, 0x10]
    let second : Bytes := [2, 0, 0, 1, 0x59, 0, 1, 0, 9]
    11 ≤ (header ++ first).length ∧
      read (header ++ first) = .ok (node [⟨1, [0x1000], []⟩] 0) ∧
      read (header ++ second) = .ok (node [⟨2, [], [0x00590001]⟩] 1) ∧
      ∃ whole, read (header ++ first ++ second) = .ok whole ∧
        whole.Extends (node [⟨1, [0x1000], []⟩] 0) ∧
        whole.Joins (node [⟨1, [0x1000], []⟩] 0) (node [⟨2, [], [0x00590001]⟩] 1) := by
  intro node header first second
  have hlong : 11 ≤ (header ++ first).length := by decide
  have hfirst : read (header ++ first) = .ok (node [⟨1, [0x1000], []⟩] 0) := by cbv
  have hsecond : read (header ++ second) = .ok (node [⟨2, [], [0x00590001]⟩] 1) := by cbv
  obtain ⟨part, whole, hpart, hwhole, hextends, -, hbehind⟩ :=
    read_goes_on (header ++ first) second hlong
  obtain rfl : node _ 0 = part := Except.ok.inj (hfirst.symm.trans hpart)
  obtain ⟨later, hlater, hjoins⟩ := hbehind rfl
  obtain rfl : node _ 1 = later := Except.ok.inj (hsecond.symm.trans hlater)
  exact ⟨hlong, hfirst, hsecond, whole, hwhole, hextends, hjoins⟩

end Composition

end MeshFoundation
