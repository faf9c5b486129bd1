import Mathlib.Data.List.TakeWhile
import MeshFoundation.CommandLine.Listing

/-!
# Payloads on the command line

A payload is written with two hexadecimal digits a byte. Every byte string has such a text, from
which it is read back (`payloadBytes_encode`). A text from which bytes can be read is never taken
for an option, for it has no dash in it (`read_opcode_of_payloadBytes`).
-/

set_option autoImplicit false

namespace MeshFoundation

/-! ## Digits -/

namespace Hex

variable {text bytes : Bytes} {n : Nat}

/-- The character code of the digit for a value below sixteen. -/
def digitCode (n : Nat) : UInt8 := if n < 10 then UInt8.ofNat (48 + n) else UInt8.ofNat (87 + n)

/-- The character codes of the two digits of a byte. -/
def digitCodes (b : UInt8) : Bytes := [digitCode (b.toNat / 16), digitCode (b.toNat % 16)]

theorem digits_spec : ∀ n ∈ List.range 16, String.utf8EncodeChar (digitChar n) = [digitCode n] ∧
    digit? (digitCode n) = some n ∧ Text.isBlank (digitChar n) = false := by
  decide

theorem utf8EncodeChar_digitChar (h : n < 16) :
    String.utf8EncodeChar (digitChar n) = [digitCode n] :=
  (digits_spec n (List.mem_range.mpr h)).1

theorem digit?_digitCode (h : n < 16) : digit? (digitCode n) = some n :=
  (digits_spec n (List.mem_range.mpr h)).2.1

theorem isBlank_digitChar (h : n < 16) : Text.isBlank (digitChar n) = false :=
  (digits_spec n (List.mem_range.mpr h)).2.2

/-- The digits of a byte string are read back as the byte string. -/
theorem readPairs_digitCodes (position : Nat) (bytes : Bytes) :
    readPairs position (bytes.flatMap digitCodes) = .ok bytes := by
  induction bytes generalizing position with
  | nil => rfl
  | cons b rest ih =>
    have hb : b.toNat < 256 := b.toNat_lt
    have hhigh : digit? (digitCode (b.toNat / 16)) = some _ := digit?_digitCode (by omega)
    have hlow : digit? (digitCode (b.toNat % 16)) = some _ := digit?_digitCode (by omega)
    have hbyte : 16 * (b.toNat / 16) + b.toNat % 16 = b.toNat := by omega
    have hcons : (b :: rest).flatMap digitCodes =
        digitCode (b.toNat / 16) :: digitCode (b.toNat % 16) :: rest.flatMap digitCodes := rfl
    rw [hcons]
    simp only [readPairs, hhigh, hlow, ih, hbyte, UInt8.ofNat_toNat]

theorem decode_digitCodes (bytes : Bytes) : decode (bytes.flatMap digitCodes) = .ok bytes := by
  have hlength : (bytes.flatMap digitCodes).length % 2 = 0 := by
    simp [List.length_flatMap, digitCodes, List.map_const']
  rw [decode, hlength, if_neg (by decide), readPairs_digitCodes]

/-- The character codes of the text of a byte string. -/
theorem utf8_encode (bytes : Bytes) :
    (encode bytes).toList.flatMap String.utf8EncodeChar = bytes.flatMap digitCodes := by
  rw [encode, String.toList_ofList, List.flatMap_assoc]
  congr 1
  funext b
  have hb : b.toNat < 256 := b.toNat_lt
  have hhigh := utf8EncodeChar_digitChar (n := b.toNat / 16) (by omega)
  have hlow := utf8EncodeChar_digitChar (n := b.toNat % 16) (by omega)
  simp [digitCodes, hhigh, hlow]

theorem isBlank_of_mem_encode {c : Char} (hc : c ∈ (encode bytes).toList) :
    Text.isBlank c = false := by
  rw [encode, String.toList_ofList, List.mem_flatMap] at hc
  obtain ⟨b, -, hc⟩ := hc
  have hb : b.toNat < 256 := b.toNat_lt
  obtain rfl | rfl : c = digitChar (b.toNat / 16) ∨ c = digitChar (b.toNat % 16) := by
    simpa using hc
  · exact isBlank_digitChar (by omega)
  · exact isBlank_digitChar (by omega)

/-- A text from which pairs can be read has no other characters than digits. -/
theorem isSome_digit?_of_readPairs {position : Nat} (h : readPairs position text = .ok bytes) :
    ∀ code ∈ text, (digit? code).isSome = true := by
  fun_induction readPairs position text generalizing bytes with
  | case1 => simp
  | case2 => cases h
  | case3 => cases h
  | case4 => cases h
  | case5 position high low rest h l hlow hhigh later hrest ih =>
    intro code hcode
    obtain rfl | rfl | hcode : code = high ∨ code = low ∨ code ∈ rest := by simpa using hcode
    · rw [hhigh]
      rfl
    · rw [hlow]
      rfl
    · exact ih hrest code hcode
  | case6 => cases h

theorem isSome_digit?_of_decode (h : decode text = .ok bytes) :
    ∀ code ∈ text, (digit? code).isSome = true := by
  unfold decode at h
  split at h
  · cases h
  · exact isSome_digit?_of_readPairs h

end Hex

/-! ## Blanks -/

namespace Text

variable {cs : List Char} {c : Char}

theorem trim_eq_self (h : ∀ c ∈ cs, isBlank c = false) : trim cs = cs := by
  have hdrop : ∀ cs : List Char, (∀ c ∈ cs, isBlank c = false) → cs.dropWhile isBlank = cs := by
    intro cs h
    cases cs with
    | nil => rfl
    | cons c rest => rw [List.dropWhile_cons_of_neg (by simp [h c List.mem_cons_self])]
  rw [trim, hdrop cs h, hdrop cs.reverse fun c hc => h c (List.mem_reverse.mp hc),
    List.reverse_reverse]

theorem mem_dropWhile_of_mem (hc : c ∈ cs) (hplain : isBlank c = false) :
    c ∈ cs.dropWhile isBlank := by
  rw [← List.takeWhile_append_dropWhile (p := isBlank) (l := cs), List.mem_append] at hc
  obtain hblank | hkept := hc
  · rw [List.mem_takeWhile_imp hblank] at hplain
    cases hplain
  · exact hkept

/-- Trimming takes nothing away but blanks. -/
theorem mem_trim_of_mem (hc : c ∈ cs) (hplain : isBlank c = false) : c ∈ trim cs := by
  have hfront : c ∈ (cs.dropWhile isBlank).reverse :=
    List.mem_reverse.mpr (mem_dropWhile_of_mem hc hplain)
  exact List.mem_reverse.mpr (mem_dropWhile_of_mem hfront hplain)

end Text

/-! ## Payloads -/

namespace CommandLine

variable {payload : String} {bytes : Bytes}

/-- Every byte string has a text from which it is read. -/
theorem payloadBytes_encode (bytes : Bytes) : payloadBytes (Hex.encode bytes) = .ok bytes := by
  rw [payloadBytes, Text.trim_eq_self fun c hc => Hex.isBlank_of_mem_encode hc, Hex.utf8_encode,
    Hex.decode_digitCodes]

theorem dash_not_mem_of_payloadBytes (h : payloadBytes payload = .ok bytes) :
    '-' ∉ payload.toList := by
  intro hdash
  have hkept : '-' ∈ Text.trim payload.toList := Text.mem_trim_of_mem hdash (by decide)
  have hcode : (45 : UInt8) ∈ (Text.trim payload.toList).flatMap String.utf8EncodeChar :=
    List.mem_flatMap.mpr ⟨'-', hkept, by decide⟩
  exact absurd (Hex.isSome_digit?_of_decode h 45 hcode) (by decide)

theorem Argument.ofString_of_dash_not_mem (h : '-' ∉ payload.toList) :
    Argument.ofString payload = .plain payload := by
  unfold Argument.ofString
  split
  · rename_i heq
    simp [heq] at h
  · rename_i heq
    simp [heq] at h
  · rename_i heq
    simp [heq] at h
  · rfl

/-- The command that names an opcode is understood with every payload that stands for bytes. -/
theorem read_opcode_of_payloadBytes (h : payloadBytes payload = .ok bytes) :
    read ["opcode", payload] = some (.opcode payload) := by
  have hplain := Argument.ofString_of_dash_not_mem (dash_not_mem_of_payloadBytes h)
  have hname : Argument.ofString "opcode" = .plain "opcode" := by decide
  have hcommand : Command.ofName? "opcode" = some .opcode := by decide
  have hother : ¬ "opcode" = helpWord := by decide
  simp [read, hname, hcommand, hother, readCommand, hplain, Command.task]

end CommandLine

end MeshFoundation
