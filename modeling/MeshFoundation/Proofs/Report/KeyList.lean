import MeshFoundation.Proofs.Report.KeyIndices

/-!
# Lists of application keys

A list of application keys comes in three bytes for every two indices, and an odd last index in
a word. Two neighbours share the middle byte of their three, and the word of an odd last one has
four bits more than the index.

Packing a list and reading it back gives the list, for every length. Reading and packing again
gives the bytes, but for those four bits, which no packed list sets
(`Report.keyLists_read_as_packed`). Both ways follow the list two indices at a time, and the
bytes three at a time.
-/

set_option autoImplicit false

namespace MeshFoundation

namespace KeyIndex

theorem low12_of_le {index : UInt16} (h : index ≤ maximum) : low12 index = index := by
  have hsmall := le_maximum_iff.mp h
  apply UInt16.toNat_inj.mp
  rw [toNat_low12]
  omega

/-- Three bytes are packed again from the two indices that were read from them. -/
theorem pack_unpack (first second third : UInt8) :
    pack (unpack first second third).1 (unpack first second third).2 =
      [first, second, third] := by
  have hfirst : first.toNat < 256 := first.toNat_lt
  have hsecond : second.toNat < 256 := second.toNat_lt
  have hthird : third.toNat < 256 := third.toNat_lt
  obtain ⟨hnet, happ⟩ := toNat_unpack first second third
  rw [Bytes.toNat_word] at hnet happ
  have hbyte : ∀ (n : Nat) (b : UInt8), n % 256 = b.toNat → Bytes.lowByte n = b := by
    intro n b h
    apply UInt8.toNat_inj.mp
    rw [Bytes.toNat_lowByte, h]
  rw [pack, hnet, happ, hbyte _ first, hbyte _ second, hbyte _ third] <;> omega

/-- A word is written again from the index that was read from it, without its reserved bits. -/
theorem ofWord_low12 (low high : UInt8) :
    Bytes.ofWord (low12 (Bytes.word low high)) = [low, high &&& 0x0F] := by
  have hlow : low.toNat < 256 := low.toNat_lt
  have hhigh : high.toNat < 256 := high.toNat_lt
  have hmask : (high &&& 0x0F).toNat = high.toNat % 16 := by
    rw [UInt8.toNat_and]
    exact Nat.and_two_pow_sub_one_eq_mod high.toNat 4
  rw [Bytes.ofWord, toNat_low12, Bytes.toNat_word]
  congr 1
  · apply UInt8.toNat_inj.mp
    rw [Bytes.toNat_lowByte]
    omega
  · congr 1
    apply UInt8.toNat_inj.mp
    rw [Bytes.toNat_lowByte, hmask]
    omega

/-- The bytes of a list of indices without the reserved bits of an odd last index, which are the
upper four of its second byte. -/
def clearReserved (packed : Bytes) : Bytes :=
  if packed.length % 3 = 2 then packed.modify (packed.length - 1) (· &&& 0x0F) else packed

theorem clearReserved_cons (first second third : UInt8) (rest : Bytes) :
    clearReserved (first :: second :: third :: rest) =
      first :: second :: third :: clearReserved rest := by
  unfold clearReserved
  simp only [List.length_cons, Nat.add_assoc, Nat.reduceAdd, Nat.add_mod_right]
  split
  · rename_i hodd
    obtain ⟨n, hn⟩ : ∃ n, rest.length = n + 1 := ⟨rest.length - 1, by omega⟩
    simp [hn]
  · rfl

end KeyIndex

namespace Report

variable {packed params : Bytes} {apps : List UInt16} {report : Report}

/-- What was packed is read back. -/
theorem readIndices?_packAll (h : ∀ app ∈ apps, app ≤ KeyIndex.maximum) :
    readIndices? (KeyIndex.packAll apps) = some apps := by
  fun_induction KeyIndex.packAll apps with
  | case1 => rfl
  | case2 last =>
    have hlast := KeyIndex.low12_of_le (h last List.mem_cons_self)
    simp [Bytes.ofWord, readIndices?, Bytes.word_of_ofWord, hlast]
  | case3 first second rest ih =>
    have hfirst := KeyIndex.le_maximum_iff.mp (h first List.mem_cons_self)
    have hsecond := KeyIndex.le_maximum_iff.mp (h second (by simp))
    have hrest := ih fun app happ => h app (by simp [happ])
    have hpair := KeyIndex.unpack_pack first second hfirst hsecond
    simp [KeyIndex.pack, readIndices?, hrest, hpair]

/-- What was read is packed again, and an odd last index without its reserved bits. -/
theorem packAll_of_readIndices? (h : readIndices? packed = some apps) :
    KeyIndex.packAll apps = KeyIndex.clearReserved packed := by
  fun_induction readIndices? packed generalizing apps with
  | case1 =>
    cases h
    rfl
  | case2 => cases h
  | case3 low high =>
    cases h
    exact KeyIndex.ofWord_low12 low high
  | case4 first second third rest later hrest pair =>
    rename_i ih
    cases h
    rw [KeyIndex.packAll, KeyIndex.pack_unpack, ih hrest, KeyIndex.clearReserved_cons]
    rfl
  | case5 => cases h

/-- The parameters of a list of application keys. -/
def keyListParameters (code : UInt8) (net : UInt16) (apps : List UInt16) : Bytes :=
  code :: (Bytes.ofWord net ++ KeyIndex.packAll apps)

/-- Parameters that are read as a list of application keys have a code, a network index and the
packed list. -/
theorem keyList_of_decode? (h : decode? .appKeyList params = some report) :
    ∃ code low high packed apps, params = code :: low :: high :: packed ∧
      readIndices? packed = some apps ∧
      report = .appKeyList (StatusCode.ofByte code) (Bytes.word low high) apps := by
  simp only [decode?] at h
  split at h
  · obtain ⟨apps, happs, rfl⟩ := Option.map_eq_some_iff.mp h
    exact ⟨_, _, _, _, apps, rfl, happs, rfl⟩
  · cases h

/-- Parameters that were made of a code, a network index and any list of application key indices
are read as just these. Whatever parameters are read, the list that they were read as makes the
same bytes again, but for the reserved bits of an odd last index, which are clear then. It has
two indices for every three bytes behind the network index, and one more for two bytes that are
left over. -/
theorem keyLists_read_as_packed :
    (∀ (code : UInt8) (net : UInt16) (apps : List UInt16),
      (∀ app ∈ apps, app ≤ KeyIndex.maximum) →
        decode? .appKeyList (keyListParameters code net apps) =
          some (.appKeyList (StatusCode.ofByte code) net apps)) ∧
    ∀ (params : Bytes) (report : Report), decode? .appKeyList params = some report →
      ∃ code net apps, report = .appKeyList (StatusCode.ofByte code) net apps ∧
        keyListParameters code net apps =
          params.take 3 ++ KeyIndex.clearReserved (params.drop 3) ∧
        apps.length = 2 * ((params.drop 3).length / 3) +
          (if (params.drop 3).length % 3 = 2 then 1 else 0) := by
  constructor
  · intro code net apps hsmall
    simp [keyListParameters, decode?, Bytes.ofWord, Bytes.word_of_ofWord,
      readIndices?_packAll hsmall]
  · intro params report h
    obtain ⟨code, low, high, packed, apps, rfl, happs, rfl⟩ := keyList_of_decode? h
    refine ⟨code, Bytes.word low high, apps, rfl, ?_, (of_readIndices? happs).1⟩
    rw [keyListParameters, Bytes.ofWord_word, packAll_of_readIndices? happs]
    rfl

/-- Three application keys, the last of which comes with all reserved bits set. -/
theorem packed_of_markedTail :
    decode? .appKeyList (keyListParameters 0x42 0x0123 [0x345, 0xfff, 0x9ab]) =
        some (.appKeyList (.reserved 0x42) 0x0123 [0x345, 0xfff, 0x9ab]) ∧
      keyListParameters 0x42 0x0123 [0x345, 0xfff, 0x9ab] =
        [0x42, 0x23, 0x01, 0x45, 0xf3, 0xff, 0xab, 0x09] ∧
      ∃ code net apps,
        decode? .appKeyList [0x42, 0x23, 0x01, 0x45, 0xf3, 0xff, 0xab, 0xf9] =
          some (.appKeyList (StatusCode.ofByte code) net apps) ∧
        keyListParameters code net apps = [0x42, 0x23, 0x01, 0x45, 0xf3, 0xff, 0xab, 0x09] ∧
        apps.length = 3 := by
  obtain ⟨hpacked, hread⟩ := keyLists_read_as_packed
  have hmarked : decode? .appKeyList [0x42, 0x23, 0x01, 0x45, 0xf3, 0xff, 0xab, 0xf9] =
      some (.appKeyList (.reserved 0x42) 0x0123 [0x345, 0xfff, 0x9ab]) := by decide
  obtain ⟨code, net, apps, hreport, hbytes, hlength⟩ := hread _ _ hmarked
  have hsmall : ∀ app ∈ [(0x345 : UInt16), 0xfff, 0x9ab], app ≤ KeyIndex.maximum := by
    simp only [List.forall_mem_cons, List.not_mem_nil, false_imp_iff, implies_true, and_true]
    decide
  refine ⟨hpacked 0x42 0x0123 _ hsmall, by decide, code, net, apps, ?_, hbytes.trans (by decide),
    hlength⟩
  rw [hmarked, hreport]

end Report

end MeshFoundation
