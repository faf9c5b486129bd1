/-!
# Numerals

Numbers as they stand in messages: plain decimal, and hexadecimal in lower case
after the mark `0x`, with zeros in front up to a least number of digits. Either form
is read back by the value of its digits, so that no two numbers look the same.
-/

set_option autoImplicit false

namespace MeshFoundation.Text

def decimal (n : Nat) : String := String.ofList (Nat.toDigits 10 n)

/-- Zeros in front of the given digits, so that there are at least `least` of them. -/
def padded (least : Nat) (digits : List Char) : List Char :=
  List.replicate (least - digits.length) '0' ++ digits

/-- A number in hexadecimal after the mark `0x`, with at least `least` digits. -/
def hexadecimal (least : Nat) (n : Nat) : String :=
  "0x" ++ String.ofList (padded least (Nat.toDigits 16 n))

/-- The value of a digit; the letters from `a` stand for the values from ten. -/
def digitValue (c : Char) : Nat := if c.toNat ≤ 57 then c.toNat - 48 else c.toNat - 87

/-- The number that has the given digits, the most significant one first. -/
def value (base : Nat) (digits : List Char) : Nat :=
  digits.foldl (fun n c => base * n + digitValue c) 0

/-- A numeral has no other characters than the digits of its base. -/
theorem mem_toDigits {base n : Nat} (hbase : 1 < base) {c : Char} (hc : c ∈ Nat.toDigits base n) :
    ∃ d < base, c = Nat.digitChar d := by
  induction n using Nat.strongRecOn with
  | ind n ih =>
    rw [Nat.toDigits_eq_if hbase] at hc
    split at hc
    · rename_i hsmall
      exact ⟨n, hsmall, List.mem_singleton.mp hc⟩
    · rename_i hlarge
      obtain hfront | hlast := List.mem_append.mp hc
      · exact ih (n / base) (Nat.div_lt_self (by omega) hbase) hfront
      · exact ⟨n % base, Nat.mod_lt n (by omega), List.mem_singleton.mp hlast⟩

theorem not_mem_toDigits {base n : Nat} (hbase : 1 < base) {c : Char}
    (hother : ∀ d < base, Nat.digitChar d ≠ c) : c ∉ Nat.toDigits base n := by
  intro hmem
  obtain ⟨d, hd, hchar⟩ := mem_toDigits hbase hmem
  exact hother d hd hchar.symm

theorem digitValue_digitChar {d : Nat} (h : d < 16) : digitValue (Nat.digitChar d) = d := by
  have hall : ∀ d ∈ List.range 16, digitValue (Nat.digitChar d) = d := by decide
  exact hall d (List.mem_range.mpr h)

theorem value_concat (base : Nat) (digits : List Char) (c : Char) :
    value base (digits ++ [c]) = base * value base digits + digitValue c := by
  rw [value, List.foldl_append]
  rfl

/-- A numeral is read back. -/
theorem value_toDigits {base : Nat} (hbase : 1 < base) (hdigits : base ≤ 16) (n : Nat) :
    value base (Nat.toDigits base n) = n := by
  induction n using Nat.strongRecOn with
  | ind n ih =>
    rw [Nat.toDigits_eq_if hbase]
    split
    · rename_i hsmall
      simpa [value] using digitValue_digitChar (Nat.lt_of_lt_of_le hsmall hdigits)
    · rename_i hlarge
      have hfront : n / base < n := Nat.div_lt_self (by omega) hbase
      have hlast : n % base < 16 := Nat.lt_of_lt_of_le (Nat.mod_lt n (by omega)) hdigits
      rw [value_concat, ih (n / base) hfront, digitValue_digitChar hlast, Nat.div_add_mod]

/-- Zeros in front do not change what is read. -/
theorem value_padded (base least : Nat) (digits : List Char) :
    value base (padded least digits) = value base digits := by
  have hzeros : ∀ count, (List.replicate count '0').foldl (fun n c => base * n + digitValue c) 0 =
      0 := by
    intro count
    induction count with
    | zero => rfl
    | succ count ih => simpa [List.replicate_succ, digitValue] using ih
  rw [value, padded, List.foldl_append, hzeros, value]

theorem decimal_injective {m n : Nat} (h : decimal m = decimal n) : m = n := by
  have hdigits : Nat.toDigits 10 m = Nat.toDigits 10 n := String.ofList_inj.mp h
  have hread : ∀ k, value 10 (Nat.toDigits 10 k) = k := value_toDigits (by decide) (by decide)
  rw [← hread m, hdigits, hread]

theorem hexadecimal_injective {least m n : Nat} (h : hexadecimal least m = hexadecimal least n) :
    m = n := by
  have hdigits : padded least (Nat.toDigits 16 m) = padded least (Nat.toDigits 16 n) :=
    String.ofList_inj.mp ((String.append_right_inj "0x").mp h)
  have hread : ∀ k, value 16 (padded least (Nat.toDigits 16 k)) = k := fun k => by
    rw [value_padded, value_toDigits (by decide) (by decide)]
  rw [← hread m, hdigits, hread]

/-- A decimal numeral has only digits in it. -/
theorem not_mem_decimal {c : Char} (hc : ∀ d < 10, Nat.digitChar d ≠ c) (n : Nat) :
    c ∉ (decimal n).toList := by
  rw [decimal, String.toList_ofList]
  exact not_mem_toDigits (by decide) hc

theorem not_mem_hexadecimal {c : Char} (hmark : c ≠ 'x') (hc : ∀ d < 16, Nat.digitChar d ≠ c)
    (least n : Nat) : c ∉ (hexadecimal least n).toList := by
  have hdigits : c ∉ Nat.toDigits 16 n := not_mem_toDigits (by decide) hc
  have hzero : c ≠ '0' := fun h => hc 0 (by decide) h.symm
  simp [hexadecimal, padded, hdigits, hmark, hzero]

theorem blank_not_mem_decimal (n : Nat) : ' ' ∉ (decimal n).toList :=
  not_mem_decimal (by decide) n

theorem blank_not_mem_hexadecimal (least n : Nat) : ' ' ∉ (hexadecimal least n).toList :=
  not_mem_hexadecimal (by decide) (by decide) least n

end MeshFoundation.Text
