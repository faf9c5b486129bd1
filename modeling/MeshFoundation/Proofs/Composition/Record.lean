import MeshFoundation.Composition.Decode
import MeshFoundation.Composition.Encode

/-!
# Records of elements

A record tells everything about an element that has no more models of a kind than one byte
can count, and whose models of the standard have identifiers of one word: such an element is
read back from the front of any bytes (`Element.read?_bytes_append`). Conversely, whatever is
read is such an element, and the bytes that were taken are its record
(`Element.of_read?`). Nothing is read exactly if the bytes are cut short, which means that they
end before the counts do or before the models that the counts announce.

From one record follow all of them: the elements that are read from a list of bytes are those
whose records it is made of, up to a tail that is cut short (`Element.readAll_eq_iff`).
-/

set_option autoImplicit false

namespace MeshFoundation

namespace Bytes

/-- The bytes of a model of the standard. -/
def ofSigModel (model : UInt32) : Bytes := ofWord (UInt16.ofNat model.toNat)

/-- The bytes of a vendor's model, the company first. -/
def ofVendorModel (model : UInt32) : Bytes :=
  ofWord (UInt16.ofNat (model.toNat / 65536)) ++ ofWord (UInt16.ofNat (model.toNat % 65536))

theorem lowByte_of_length {α : Type} {xs : List α} (h : xs.length ≤ 255) :
    (lowByte xs.length).toNat = xs.length := by
  rw [toNat_lowByte]
  omega

theorem ofWord_injective {v w : UInt16} (h : ofWord v = ofWord w) : v = w := by
  simp only [ofWord, List.cons.injEq, and_true] at h
  rw [← word_of_ofWord v, h.1, h.2, word_of_ofWord]

/-! ## Models of the standard -/

theorem toUInt32_word {model : UInt32} (h : model.toNat < 65536) :
    (UInt16.ofNat model.toNat).toUInt32 = model := by
  apply UInt32.toNat_inj.mp
  rw [UInt16.toNat_toUInt32, UInt16.toNat_ofNat_of_lt' h]

theorem words_ofSigModel (model : UInt32) (h : model.toNat < 65536) (rest : Bytes) :
    words (ofSigModel model ++ rest) = model :: words rest := by
  simp only [ofSigModel, ofWord, List.cons_append, List.nil_append, words, word_of_ofWord,
    toUInt32_word h]

theorem words_flatMap {models : List UInt32} (h : ∀ model ∈ models, model.toNat < 65536) :
    words (models.flatMap ofSigModel) = models := by
  induction models with
  | nil => rfl
  | cons model rest ih =>
    rw [List.flatMap_cons, words_ofSigModel model (h model List.mem_cons_self),
      ih fun m hm => h m (List.mem_cons_of_mem model hm)]

/-- As many models as there are words are read, and they are the words. -/
theorem flatMap_words {count : Nat} {bytes : Bytes} (h : bytes.length = 2 * count) :
    (words bytes).flatMap ofSigModel = bytes ∧ (words bytes).length = count ∧
      ∀ model ∈ words bytes, model.toNat < 65536 := by
  induction count generalizing bytes with
  | zero =>
    obtain rfl : bytes = [] := List.eq_nil_of_length_eq_zero h
    exact ⟨rfl, rfl, by simp [words]⟩
  | succ count ih =>
    match bytes, h with
    | low :: high :: rest, h =>
      have hrest : rest.length = 2 * count := by
        simp only [List.length_cons] at h
        omega
      obtain ⟨hbytes, hlength, hsmall⟩ := ih hrest
      have hmodel : ofSigModel (word low high).toUInt32 = [low, high] := by
        simp [ofSigModel, ofWord_word]
      refine ⟨?_, by simp [words, hlength], ?_⟩
      · simp [words, hmodel, hbytes]
      · intro model hmem
        rcases List.mem_cons.mp hmem with rfl | hmem
        · simpa using (word low high).toNat_lt
        · exact hsmall model hmem

/-! ## Models of vendors -/

theorem toNat_pair (company id : UInt16) :
    (company.toUInt32 <<< 16 ||| id.toUInt32).toNat = 65536 * company.toNat + id.toNat := by
  have hcompany : company.toNat < 65536 := company.toNat_lt
  have hid : id.toNat < 2 ^ 16 := id.toNat_lt
  have hshift : company.toNat <<< 16 % 2 ^ 32 = 2 ^ 16 * company.toNat := by
    rw [Nat.shiftLeft_eq]
    omega
  simp only [UInt32.toNat_or, UInt32.toNat_shiftLeft, UInt16.toNat_toUInt32]
  rw [show (16 : UInt32).toNat % 32 = 16 from rfl, hshift, ← Nat.two_pow_add_eq_or_of_lt hid]

/-- A number made of a company and an identifier has their bytes. -/
theorem ofVendorModel_pair (company id : UInt16) :
    ofVendorModel (company.toUInt32 <<< 16 ||| id.toUInt32) = ofWord company ++ ofWord id := by
  have hid : id.toNat < 65536 := id.toNat_lt
  have hupper : (65536 * company.toNat + id.toNat) / 65536 = company.toNat := by omega
  have hlower : (65536 * company.toNat + id.toNat) % 65536 = id.toNat := by omega
  rw [ofVendorModel, toNat_pair, hupper, hlower, UInt16.ofNat_toNat, UInt16.ofNat_toNat]

/-- A number is made of the word in its upper half and the one in its lower half. -/
theorem toNat_halves (model : UInt32) : 65536 * (UInt16.ofNat (model.toNat / 65536)).toNat +
    (UInt16.ofNat (model.toNat % 65536)).toNat = model.toNat := by
  have hmodel : model.toNat < 4294967296 := model.toNat_lt
  have hcompany : model.toNat / 65536 < UInt16.size := by
    simp only [UInt16.size]
    omega
  have hid : model.toNat % 65536 < UInt16.size := by
    simp only [UInt16.size]
    omega
  rw [UInt16.toNat_ofNat_of_lt' hcompany, UInt16.toNat_ofNat_of_lt' hid, Nat.div_add_mod]

theorem wordPairs_ofVendorModel (model : UInt32) (rest : Bytes) :
    wordPairs (ofVendorModel model ++ rest) = model :: wordPairs rest := by
  have hpair : (UInt16.ofNat (model.toNat / 65536)).toUInt32 <<< 16 |||
      (UInt16.ofNat (model.toNat % 65536)).toUInt32 = model := by
    apply UInt32.toNat_inj.mp
    rw [toNat_pair, toNat_halves]
  simp only [ofVendorModel, ofWord, List.cons_append, List.nil_append, wordPairs, word_of_ofWord,
    hpair]

theorem wordPairs_flatMap (models : List UInt32) :
    wordPairs (models.flatMap ofVendorModel) = models := by
  induction models with
  | nil => rfl
  | cons model rest ih => rw [List.flatMap_cons, wordPairs_ofVendorModel, ih]

theorem flatMap_wordPairs {count : Nat} {bytes : Bytes} (h : bytes.length = 4 * count) :
    (wordPairs bytes).flatMap ofVendorModel = bytes ∧ (wordPairs bytes).length = count := by
  induction count generalizing bytes with
  | zero =>
    obtain rfl : bytes = [] := List.eq_nil_of_length_eq_zero h
    exact ⟨rfl, rfl⟩
  | succ count ih =>
    match bytes, h with
    | b0 :: b1 :: b2 :: b3 :: rest, h =>
      have hrest : rest.length = 4 * count := by
        simp only [List.length_cons] at h
        omega
      obtain ⟨hbytes, hlength⟩ := ih hrest
      refine ⟨?_, by simp [wordPairs, hlength]⟩
      rw [wordPairs, List.flatMap_cons, ofVendorModel_pair, hbytes, ofWord_word, ofWord_word]
      rfl

end Bytes

namespace Element

/-- An element of which a record tells everything. -/
structure Recordable (e : Element) : Prop where
  sigCount : e.sigModels.length ≤ 255
  vendorCount : e.vendorModels.length ≤ 255
  sigWords : ∀ model ∈ e.sigModels, model.toNat < 65536

/-- No complete record stands at the front: the bytes end before the two counts do, or before
the models that the counts announce. -/
def CutShort : Bytes → Prop
  | _ :: _ :: sigCount :: vendorCount :: rest =>
    rest.length < 2 * sigCount.toNat + 4 * vendorCount.toNat
  | _ => True

variable {e : Element} {es : List Element} {bytes rest tail : Bytes}

/-! ## One record -/

theorem bytes_eq (e : Element) :
    e.bytes = Bytes.lowByte e.location.toNat :: Bytes.lowByte (e.location.toNat / 256) ::
      Bytes.lowByte e.sigModels.length :: Bytes.lowByte e.vendorModels.length ::
        (e.sigModels.flatMap Bytes.ofSigModel ++ e.vendorModels.flatMap Bytes.ofVendorModel) :=
  rfl

theorem length_sigBytes (models : List UInt32) :
    (models.flatMap Bytes.ofSigModel).length = 2 * models.length := by
  induction models with
  | nil => rfl
  | cons model rest ih =>
    simp only [List.flatMap_cons, List.length_append, ih, Bytes.ofSigModel, Bytes.length_ofWord,
      List.length_cons]
    omega

theorem length_vendorBytes (models : List UInt32) :
    (models.flatMap Bytes.ofVendorModel).length = 4 * models.length := by
  induction models with
  | nil => rfl
  | cons model rest ih =>
    simp only [List.flatMap_cons, List.length_append, ih, Bytes.ofVendorModel,
      Bytes.length_ofWord, List.length_cons]
    omega

theorem read?_bytes_append (h : e.Recordable) (rest : Bytes) :
    read? (e.bytes ++ rest) = some (e, rest) := by
  have hsigs := length_sigBytes e.sigModels
  have hvendors := length_vendorBytes e.vendorModels
  have hlength : (e.sigModels.flatMap Bytes.ofSigModel ++
      e.vendorModels.flatMap Bytes.ofVendorModel).length =
        2 * e.sigModels.length + 4 * e.vendorModels.length := by
    rw [List.length_append, hsigs, hvendors]
  rw [bytes_eq]
  simp only [List.cons_append, read?, Bytes.lowByte_of_length h.sigCount,
    Bytes.lowByte_of_length h.vendorCount]
  rw [← hlength, List.take_left, List.drop_left, if_neg (Nat.lt_irrefl _), ← hsigs,
    List.take_left, List.drop_left, Bytes.words_flatMap h.sigWords, Bytes.wordPairs_flatMap,
    Bytes.word_of_ofWord]

/-- What is read is an element of which the bytes that were taken tell everything. -/
theorem of_read? (h : read? bytes = some (e, rest)) :
    e.Recordable ∧ bytes = e.bytes ++ rest := by
  unfold read? at h
  split at h
  · rename_i low high sigCount vendorCount body
    simp only at h
    split at h
    · cases h
    · rename_i henough
      have hsigLength : ((body.take (2 * sigCount.toNat + 4 * vendorCount.toNat)).take
          (2 * sigCount.toNat)).length = 2 * sigCount.toNat := by
        simp only [List.length_take] at henough ⊢
        omega
      have hvendorLength : ((body.take (2 * sigCount.toNat + 4 * vendorCount.toNat)).drop
          (2 * sigCount.toNat)).length = 4 * vendorCount.toNat := by
        simp only [List.length_take, List.length_drop] at henough ⊢
        omega
      obtain ⟨hsigs, hsigCount, hsmall⟩ := Bytes.flatMap_words hsigLength
      obtain ⟨hvendors, hvendorCount⟩ := Bytes.flatMap_wordPairs hvendorLength
      have hsigByte : sigCount.toNat < 256 := sigCount.toNat_lt
      have hvendorByte : vendorCount.toNat < 256 := vendorCount.toNat_lt
      cases h
      refine ⟨⟨?_, ?_, hsmall⟩, ?_⟩
      · show (Bytes.words _).length ≤ 255
        omega
      · show (Bytes.wordPairs _).length ≤ 255
        omega
      · have hlocation : [Bytes.lowByte (Bytes.word low high).toNat,
            Bytes.lowByte ((Bytes.word low high).toNat / 256)] = [low, high] :=
          Bytes.ofWord_word low high
        simp only [List.cons.injEq, and_true] at hlocation
        simp only [bytes_eq, hsigs, hvendors, hsigCount, hvendorCount, Bytes.lowByte_toNat,
          hlocation.1, hlocation.2, List.take_append_drop, List.cons_append]
  · cases h

theorem read?_eq_none_iff : read? bytes = none ↔ CutShort bytes := by
  unfold read? CutShort
  split
  · simp only [List.length_take]
    split
    · rename_i hshort
      simp only [true_iff]
      omega
    · rename_i henough
      simp only [reduceCtorEq, false_iff]
      omega
  · simp

/-- The bytes are a whole record: they end with the models that the counts announce. -/
def IsRecord : Bytes → Prop
  | _ :: _ :: sigCount :: vendorCount :: models =>
    models.length = 2 * sigCount.toNat + 4 * vendorCount.toNat
  | _ => False

theorem Recordable.isRecord (h : e.Recordable) : IsRecord e.bytes := by
  rw [bytes_eq, IsRecord, List.length_append, length_sigBytes, length_vendorBytes,
    Bytes.lowByte_of_length h.sigCount, Bytes.lowByte_of_length h.vendorCount]

/-- A whole record is that of an element. -/
theorem exists_of_isRecord (h : IsRecord bytes) :
    ∃ e : Element, e.Recordable ∧ e.bytes = bytes := by
  unfold IsRecord at h
  split at h
  · rename_i low high sigCount vendorCount models
    have hread : ∃ e, read? (low :: high :: sigCount :: vendorCount :: models) = some (e, []) := by
      simp [read?, ← h]
    obtain ⟨e, he⟩ := hread
    obtain ⟨hrecord, hbytes⟩ := of_read? he
    rw [List.append_nil] at hbytes
    exact ⟨e, hrecord, hbytes.symm⟩
  · cases h

/-! ## All records -/

/-- Whole records one after the other are those of some elements. -/
theorem exists_of_records {records : List Bytes} (h : ∀ record ∈ records, IsRecord record) :
    ∃ es : List Element, (∀ e ∈ es, e.Recordable) ∧ es.flatMap Element.bytes = records.flatten := by
  induction records with
  | nil => exact ⟨[], by simp, rfl⟩
  | cons record rest ih =>
    obtain ⟨e, he, rfl⟩ := exists_of_isRecord (h record List.mem_cons_self)
    obtain ⟨es, hes, hrest⟩ := ih fun r hr => h r (List.mem_cons_of_mem _ hr)
    refine ⟨e :: es, List.forall_mem_cons.mpr ⟨he, hes⟩, ?_⟩
    rw [List.flatMap_cons, List.flatten_cons, hrest]

theorem readAll_of_none (h : read? bytes = none) : readAll bytes = ([], bytes) := by
  rw [readAll]
  split
  · rfl
  · rename_i heq
    rw [h] at heq
    cases heq

theorem readAll_of_some (h : read? bytes = some (e, rest)) :
    readAll bytes = (e :: (readAll rest).1, (readAll rest).2) := by
  rw [readAll]
  split
  · rename_i heq
    rw [h] at heq
    cases heq
  · rename_i heq
    rw [h] at heq
    cases heq
    rfl

theorem readAll_bytes_append (h : ∀ e ∈ es, e.Recordable) (htail : CutShort tail) :
    readAll (es.flatMap Element.bytes ++ tail) = (es, tail) := by
  induction es with
  | nil => exact readAll_of_none (read?_eq_none_iff.mpr htail)
  | cons e rest ih =>
    rw [List.flatMap_cons, List.append_assoc,
      readAll_of_some (read?_bytes_append (h e List.mem_cons_self) _),
      ih fun f hf => h f (List.mem_cons_of_mem e hf)]

/-- The bytes are the records of the elements that are read, and a tail that is cut short. -/
theorem of_readAll (bytes : Bytes) :
    (∀ e ∈ (readAll bytes).1, e.Recordable) ∧
      bytes = (readAll bytes).1.flatMap Element.bytes ++ (readAll bytes).2 ∧
      CutShort (readAll bytes).2 := by
  fun_induction readAll bytes with
  | case1 bytes hnone => exact ⟨by simp, rfl, read?_eq_none_iff.mp hnone⟩
  | case2 bytes e rest hsome es tail hrest ih =>
    obtain ⟨hrecord, hbytes⟩ := of_read? hsome
    simp only [hrest] at ih
    obtain ⟨hrecords, htail, hcut⟩ := ih
    refine ⟨?_, ?_, hcut⟩
    · intro f hf
      rcases List.mem_cons.mp hf with rfl | hf
      · exact hrecord
      · exact hrecords f hf
    · rw [List.flatMap_cons, List.append_assoc, ← htail]
      exact hbytes

/-- Exactly those elements are read whose records the bytes are made of, as far as the tail
that is cut short. -/
theorem readAll_eq_iff :
    readAll bytes = (es, tail) ↔
      (∀ e ∈ es, e.Recordable) ∧ bytes = es.flatMap Element.bytes ++ tail ∧ CutShort tail := by
  constructor
  · intro h
    have hall := of_readAll bytes
    rw [h] at hall
    exact hall
  · rintro ⟨hrecords, rfl, htail⟩
    exact readAll_bytes_append hrecords htail

end Element

end MeshFoundation
