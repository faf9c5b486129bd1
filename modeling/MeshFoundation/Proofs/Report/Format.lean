import MeshFoundation.Proofs.Composition.Grammar
import MeshFoundation.Report.Decode

/-!
# The format of status messages

Each status message has a format of its own: the lengths that its parameters can have, the
values that a state in them can have (`Report.Formed`), and for each field the place where it
stands (`Report.Tells`). Both are said here on positions in the parameters, as numbers, without
the ways in which the parameters are read.

Parameters make a report exactly if they have the format of their message, and then the report
is of that message and says what stands in the parameters (`Report.decode?_exactly_format`).
-/

set_option autoImplicit false

namespace MeshFoundation

/-! ## Numbers at positions -/

namespace Bytes

/-- The byte at a position, as a number. -/
def numberAt (bytes : Bytes) (i : Nat) : Nat := (bytes.getD i 0).toNat

/-- The little-endian word that starts at a position, as a number. -/
def wordNumberAt (bytes : Bytes) (i : Nat) : Nat := bytes.numberAt i + 256 * bytes.numberAt (i + 1)

@[simp] theorem numberAt_cons_zero (b : UInt8) (rest : Bytes) : numberAt (b :: rest) 0 = b.toNat :=
  rfl

@[simp] theorem numberAt_cons_succ (b : UInt8) (rest : Bytes) (i : Nat) :
    numberAt (b :: rest) (i + 1) = numberAt rest i :=
  rfl

@[simp] theorem wordNumberAt_cons_succ (b : UInt8) (rest : Bytes) (i : Nat) :
    wordNumberAt (b :: rest) (i + 1) = wordNumberAt rest i :=
  rfl

@[simp] theorem wordNumberAt_cons_cons_zero (low high : UInt8) (rest : Bytes) :
    wordNumberAt (low :: high :: rest) 0 = (word low high).toNat :=
  (toNat_word low high).symm

end Bytes

/-! ## Fields -/

namespace FeatureState

def number : FeatureState → Nat
  | .disabled => 0
  | .enabled => 1
  | .notSupported => 2

theorem ofByte?_eq_some_iff {byte : UInt8} {state : FeatureState} :
    ofByte? byte = some state ↔ state.number = byte.toNat := by
  have hzero : byte = 0 ↔ byte.toNat = 0 := UInt8.toNat_inj.symm
  have hone : byte = 1 ↔ byte.toNat = 1 := UInt8.toNat_inj.symm
  have htwo : byte = 2 ↔ byte.toNat = 2 := UInt8.toNat_inj.symm
  unfold ofByte?
  simp only [hzero, hone, htwo]
  cases state <;> simp only [number] <;> grind

theorem isSome_ofByte?_iff {byte : UInt8} : (ofByte? byte).isSome ↔ byte.toNat ≤ 2 := by
  rw [Option.isSome_iff_exists]
  constructor
  · rintro ⟨state, hstate⟩
    rw [← ofByte?_eq_some_iff.mp hstate]
    cases state <;> decide
  · intro h
    obtain h | h | h : byte.toNat = 0 ∨ byte.toNat = 1 ∨ byte.toNat = 2 := by omega
    · exact ⟨.disabled, ofByte?_eq_some_iff.mpr h.symm⟩
    · exact ⟨.enabled, ofByte?_eq_some_iff.mpr h.symm⟩
    · exact ⟨.notSupported, ofByte?_eq_some_iff.mpr h.symm⟩

end FeatureState

namespace Retransmit

theorem toNat_count_decode (byte : UInt8) : (decode byte).count.toNat = byte.toNat % 8 := by
  have hbyte : byte.toNat < 256 := byte.toNat_lt
  rw [decode, UInt8.toNat_ofNat_of_lt']
  simp only [UInt8.size]
  omega

theorem toNat_interval_decode (byte : UInt8) :
    (decode byte).interval.toNat = 10 * (byte.toNat / 8 + 1) := by
  have hbyte : byte.toNat < 256 := byte.toNat_lt
  rw [decode, UInt16.toNat_ofNat_of_lt', Nat.mul_comm]
  simp only [UInt16.size]
  omega

end Retransmit

namespace KeyIndex

/-- The index at a position of a list of packed indices: two of them share three bytes, of which
the first one has the lower twelve bits, and an odd last one stands in the same place as any
other first one. -/
def numberAt (packed : Bytes) (i : Nat) : Nat :=
  if i % 2 = 0 then packed.wordNumberAt (3 * (i / 2)) % 4096
  else packed.wordNumberAt (3 * (i / 2) + 1) / 16

theorem toNat_low12 (w : UInt16) : (low12 w).toNat = w.toNat % 4096 := by
  rw [low12, UInt16.toNat_ofNat_of_lt']
  simp only [UInt16.size]
  omega

theorem toNat_unpack (first second third : UInt8) :
    (unpack first second third).1.toNat = (Bytes.word first second).toNat % 4096 ∧
      (unpack first second third).2.toNat = (Bytes.word second third).toNat / 16 := by
  have hword : (Bytes.word second third).toNat < 65536 := (Bytes.word second third).toNat_lt
  refine ⟨toNat_low12 _, ?_⟩
  rw [unpack, UInt16.toNat_ofNat_of_lt']
  simp only [UInt16.size]
  omega

theorem numberAt_add_two (first second third : UInt8) (rest : Bytes) (i : Nat) :
    numberAt (first :: second :: third :: rest) (i + 2) = numberAt rest i := by
  have hhalf : 3 * ((i + 2) / 2) = 3 * (i / 2) + 3 := by omega
  simp only [numberAt, Nat.add_mod_right, hhalf]
  rfl

end KeyIndex

namespace Model

/-- The words of an identifier stand one after another, and its length tells its kind. -/
theorem of_ofBytes? {bytes : Bytes} {m : Model} (h : ofBytes? bytes = some m) :
    (bytes.length = 2 ∧ ∃ id, m = .sig id ∧ id.toNat = bytes.wordNumberAt 0) ∨
      (bytes.length = 4 ∧ ∃ company id, m = .vendor company id ∧
        company.toNat = bytes.wordNumberAt 0 ∧ id.toNat = bytes.wordNumberAt 2) := by
  unfold ofBytes? at h
  split at h
  · cases h
    exact .inl ⟨rfl, _, rfl, by simp⟩
  · cases h
    exact .inr ⟨rfl, _, _, rfl, by simp, by simp⟩
  · cases h

theorem isSome_ofBytes?_iff {bytes : Bytes} :
    (ofBytes? bytes).isSome ↔ bytes.length = 2 ∨ bytes.length = 4 := by
  constructor
  · intro h
    obtain ⟨m, hm⟩ := Option.isSome_iff_exists.mp h
    rcases of_ofBytes? hm with ⟨hlength, -⟩ | ⟨hlength, -⟩
    · exact .inl hlength
    · exact .inr hlength
  · rintro (h | h)
    · match bytes, h with
      | [_, _], _ => rfl
    · match bytes, h with
      | [_, _, _, _], _ => rfl

end Model

namespace Report

/-! ## Lists of indices -/

theorem isSome_readIndices?_iff (packed : Bytes) :
    (readIndices? packed).isSome ↔ packed.length % 3 ≠ 1 := by
  fun_induction readIndices? packed with
  | case1 => simp
  | case2 => simp
  | case3 => simp
  | case4 first second third rest indices hrest pair ih =>
    simp only [hrest, Option.isSome_some, true_iff] at ih
    simp only [Option.isSome_some, List.length_cons, true_iff]
    omega
  | case5 first second third rest hrest ih =>
    simp only [hrest, Option.isSome_none, Bool.false_eq_true, false_iff] at ih
    simp only [Option.isSome_none, Bool.false_eq_true, List.length_cons, false_iff]
    omega

theorem of_readIndices? {packed : Bytes} {indices : List UInt16}
    (h : readIndices? packed = some indices) :
    indices.length = 2 * (packed.length / 3) + (if packed.length % 3 = 2 then 1 else 0) ∧
      ∀ i (hi : i < indices.length), (indices[i]).toNat = KeyIndex.numberAt packed i := by
  fun_induction readIndices? packed generalizing indices with
  | case1 =>
    cases h
    exact ⟨rfl, fun i hi => by cases hi⟩
  | case2 => cases h
  | case3 low high =>
    cases h
    refine ⟨by simp, ?_⟩
    intro i hi
    obtain rfl : i = 0 := by simpa using hi
    simp [KeyIndex.toNat_low12, KeyIndex.numberAt]
  | case4 first second third rest later hrest pair =>
    rename_i ih
    cases h
    obtain ⟨hlength, hlater⟩ := ih hrest
    obtain ⟨hfirst, hsecond⟩ := KeyIndex.toNat_unpack first second third
    refine ⟨?_, ?_⟩
    · have hdiv : (rest.length + 3) / 3 = rest.length / 3 + 1 := by omega
      simp only [List.length_cons, hlength, Nat.add_assoc, Nat.reduceAdd, Nat.add_mod_right, hdiv]
      omega
    · intro i hi
      match i, hi with
      | 0, _ => simpa [KeyIndex.numberAt] using hfirst
      | 1, _ => simpa [KeyIndex.numberAt] using hsecond
      | i + 2, hi =>
        rw [KeyIndex.numberAt_add_two]
        exact hlater i (by simpa using hi)
  | case5 => cases h

/-! ## The format -/

/-- The parameters have a length that the parameters of the message can have, and a state in
them is one that there is. -/
def Formed (params : Bytes) : Status → Prop
  | .compositionData => 11 ≤ params.length
  | .defaultTtl => params.length = 1
  | .gattProxy | .friend => params.length = 1 ∧ params.numberAt 0 ≤ 2
  | .relay => params.length = 2 ∧ params.numberAt 0 ≤ 2
  | .beacon => params.length = 1 ∧ params.numberAt 0 ≤ 1
  | .appKey => params.length = 4
  | .appKeyList => 3 ≤ params.length ∧ (params.length - 3) % 3 ≠ 1
  | .modelApp => params.length = 7 ∨ params.length = 9
  | .nodeReset => params.length = 0

/-- Every field of the report has the value that stands in its place in the parameters. -/
def Tells (params : Bytes) : Report → Prop
  | .compositionData data =>
    ∃ parts : Composition.Parts, parts.Make params ∧ parts.composition = data
  | .defaultTtl ttl => ttl.toNat = params.numberAt 0
  | .gattProxy state | .friend state => state.number = params.numberAt 0
  | .relay state retransmit =>
    state.number = params.numberAt 0 ∧ retransmit.count.toNat = params.numberAt 1 % 8 ∧
      retransmit.interval.toNat = 10 * (params.numberAt 1 / 8 + 1)
  | .beacon on => on.toNat = params.numberAt 0
  | .appKey code net app =>
    code = StatusCode.ofByte (params.getD 0 0) ∧ net.toNat = params.wordNumberAt 1 % 4096 ∧
      app.toNat = params.wordNumberAt 2 / 16
  | .appKeyList code net apps =>
    code = StatusCode.ofByte (params.getD 0 0) ∧ net.toNat = params.wordNumberAt 1 ∧
      apps.length = 2 * ((params.length - 3) / 3) +
        (if (params.length - 3) % 3 = 2 then 1 else 0) ∧
      ∀ i (hi : i < apps.length), (apps[i]).toNat = KeyIndex.numberAt (params.drop 3) i
  | .modelApp code element app model =>
    code = StatusCode.ofByte (params.getD 0 0) ∧ element.toNat = params.wordNumberAt 1 ∧
      app.toNat = params.wordNumberAt 3 ∧
      ((params.length = 7 ∧ ∃ id, model = .sig id ∧ id.toNat = params.wordNumberAt 5) ∨
        (params.length = 9 ∧ ∃ company id, model = .vendor company id ∧
          company.toNat = params.wordNumberAt 5 ∧ id.toNat = params.wordNumberAt 7))
  | .nodeReset => True

theorem isSome_decode?_iff (status : Status) (params : Bytes) :
    (decode? status params).isSome ↔ Formed params status := by
  cases status with
  | compositionData =>
    simp only [decode?, Formed]
    cases hdecode : Composition.decode params with
    | error fault =>
      simp only [Option.isSome_none, Bool.false_eq_true, false_iff]
      intro hlong
      obtain ⟨p, hp⟩ := Composition.exists_make hlong
      rw [Composition.decode_eq_ok_iff.mpr ⟨p, hp, rfl⟩] at hdecode
      cases hdecode
    | ok data =>
      obtain ⟨p, hp, -⟩ := Composition.decode_eq_ok_iff.mp hdecode
      simpa using Composition.length_of_make hp
  | defaultTtl => rcases params with _ | ⟨ttl, _ | ⟨b, rest⟩⟩ <;> simp [decode?, Formed]
  | gattProxy =>
    rcases params with _ | ⟨state, _ | ⟨b, rest⟩⟩ <;>
      simp [decode?, Formed, FeatureState.isSome_ofByte?_iff]
  | friend =>
    rcases params with _ | ⟨state, _ | ⟨b, rest⟩⟩ <;>
      simp [decode?, Formed, FeatureState.isSome_ofByte?_iff]
  | relay =>
    rcases params with _ | ⟨state, _ | ⟨retransmit, _ | ⟨b, rest⟩⟩⟩ <;>
      simp [decode?, Formed, FeatureState.isSome_ofByte?_iff]
  | beacon =>
    rcases params with _ | ⟨on, _ | ⟨b, rest⟩⟩
    · simp [decode?, Formed]
    · have hzero : on = 0 ↔ on.toNat = 0 := UInt8.toNat_inj.symm
      have hone : on = 1 ↔ on.toNat = 1 := UInt8.toNat_inj.symm
      simp only [decode?, Formed, hzero, hone, Bytes.numberAt_cons_zero, List.length_singleton,
        true_and]
      grind
    · simp [decode?, Formed]
  | appKey =>
    rcases params with _ | ⟨code, _ | ⟨b0, _ | ⟨b1, _ | ⟨b2, _ | ⟨b3, rest⟩⟩⟩⟩⟩ <;>
      simp [decode?, Formed]
  | appKeyList =>
    rcases params with _ | ⟨code, _ | ⟨low, _ | ⟨high, packed⟩⟩⟩ <;>
      simp [decode?, Formed, isSome_readIndices?_iff]
  | modelApp =>
    rcases params with _ | ⟨code, _ | ⟨e0, _ | ⟨e1, _ | ⟨a0, _ | ⟨a1, model⟩⟩⟩⟩⟩ <;>
      simp [decode?, Formed, Model.isSome_ofBytes?_iff]
  | nodeReset => rcases params with _ | ⟨b, rest⟩ <;> simp [decode?, Formed]

theorem tells_of_decode? {status : Status} {params : Bytes} {report : Report}
    (h : decode? status params = some report) : Tells params report := by
  cases status with
  | compositionData =>
    simp only [decode?] at h
    cases hdecode : Composition.decode params with
    | error fault => simp [hdecode] at h
    | ok data =>
      simp only [hdecode, Option.some.injEq] at h
      subst h
      exact Composition.decode_eq_ok_iff.mp hdecode
  | defaultTtl =>
    simp only [decode?] at h
    split at h <;> cases h
    exact rfl
  | gattProxy =>
    simp only [decode?] at h
    split at h
    · obtain ⟨state, hstate, rfl⟩ := Option.map_eq_some_iff.mp h
      exact FeatureState.ofByte?_eq_some_iff.mp hstate
    · cases h
  | friend =>
    simp only [decode?] at h
    split at h
    · obtain ⟨state, hstate, rfl⟩ := Option.map_eq_some_iff.mp h
      exact FeatureState.ofByte?_eq_some_iff.mp hstate
    · cases h
  | relay =>
    simp only [decode?] at h
    split at h
    · obtain ⟨state, hstate, rfl⟩ := Option.map_eq_some_iff.mp h
      exact ⟨FeatureState.ofByte?_eq_some_iff.mp hstate, Retransmit.toNat_count_decode _,
        Retransmit.toNat_interval_decode _⟩
    · cases h
  | beacon =>
    simp only [decode?] at h
    split at h
    next on =>
      by_cases hzero : on = 0
      · obtain rfl : report = .beacon false := by simpa [hzero] using h.symm
        simp [Tells, hzero]
      by_cases hone : on = 1
      · obtain rfl : report = .beacon true := by simpa [hone] using h.symm
        simp [Tells, hone]
      · simp [hzero, hone] at h
    next => cases h
  | appKey =>
    simp only [decode?] at h
    split at h
    · cases h
      exact ⟨rfl, by simp [KeyIndex.toNat_unpack]⟩
    · cases h
  | appKeyList =>
    simp only [decode?] at h
    split at h
    · obtain ⟨apps, happs, rfl⟩ := Option.map_eq_some_iff.mp h
      obtain ⟨hlength, hindices⟩ := of_readIndices? happs
      exact ⟨rfl, by simp, hlength, hindices⟩
    · cases h
  | modelApp =>
    simp only [decode?] at h
    split at h
    · obtain ⟨model, hmodel, rfl⟩ := Option.map_eq_some_iff.mp h
      have hkind := Model.of_ofBytes? hmodel
      refine ⟨rfl, by simp, by simp, ?_⟩
      simpa using hkind
    · cases h
  | nodeReset =>
    simp only [decode?] at h
    split at h <;> cases h
    trivial

/-- Parameters are read exactly if they have the format of their message, and then the report is
of that message and each of its fields has the value in its place, whatever its code says. -/
theorem decode?_exactly_format (status : Status) (params : Bytes) :
    ((decode? status params).isSome ↔ Formed params status) ∧
      ∀ report, decode? status params = some report →
        report.status = status ∧ Tells params report :=
  ⟨isSome_decode?_iff status params,
    fun _ hreport => ⟨status_of_decode? hreport, tells_of_decode? hreport⟩⟩

/-- A refusal with an odd number of indices: the reserved code `0x42`, the network key `0x0123`,
and the application keys `0x345`, `0x678` and `0x9ab`. -/
theorem format_of_refusedKeyList :
    ((decode? .appKeyList [0x42, 0x23, 0x01, 0x45, 0x83, 0x67, 0xab, 0x09]).isSome ↔
        Formed [0x42, 0x23, 0x01, 0x45, 0x83, 0x67, 0xab, 0x09] .appKeyList) ∧
      (decode? .appKeyList [0x42, 0x23, 0x01, 0x45, 0x83, 0x67, 0xab, 0x09] =
          some (.appKeyList (.reserved 0x42) 0x0123 [0x345, 0x678, 0x9ab]) ∧
        Tells [0x42, 0x23, 0x01, 0x45, 0x83, 0x67, 0xab, 0x09]
          (.appKeyList (.reserved 0x42) 0x0123 [0x345, 0x678, 0x9ab])) := by
  have hformat := decode?_exactly_format .appKeyList
    [0x42, 0x23, 0x01, 0x45, 0x83, 0x67, 0xab, 0x09]
  have hread : decode? .appKeyList [0x42, 0x23, 0x01, 0x45, 0x83, 0x67, 0xab, 0x09] =
      some (.appKeyList (.reserved 0x42) 0x0123 [0x345, 0x678, 0x9ab]) := by decide
  exact ⟨hformat.1, hread, (hformat.2 _ hread).2⟩

end Report

end MeshFoundation
