import MeshFoundation.Proofs.CommandLine.Line
import MeshFoundation.Proofs.CommandLine.Payload
import MeshFoundation.Proofs.Composition.Continuation

/-!
# Strict listings

A user who asks for the listing of composition data can ask the program to be strict. The option
may be added to every command line that asks for such a listing (`exists_strict_of_read`). It
changes nothing but this: where bytes are left over at the end, there is no listing, and the
program says how many bytes these are. So there is a strict listing exactly if the data are
complete, that is, a header and whole records (`exists_strict_listing_iff`).

Together with the lines of a listing, which tell all about the data, this makes the listing a
faithful report of the payload (`composition_listed_faithfully`).
-/

set_option autoImplicit false

namespace MeshFoundation

namespace CommandLine

variable {arguments : List String} {payload other : String} {lines lines' : List String}
  {fault : Fault}

/-! ## Command lines -/

theorem Command.of_task {command : Command} {isStrict isStrict' : Bool} {text : String}
    (h : command.task isStrict text = .composition payload isStrict') :
    command = .composition ∧ text = payload ∧ isStrict = isStrict' := by
  cases command with
  | opcode => cases h
  | composition =>
    cases h
    exact ⟨rfl, rfl, rfl⟩

theorem Argument.eq_of_plain {text name : String} (h : ofString text = .plain name) :
    text = name := by
  unfold ofString at h
  split at h
  · cases h
  · cases h
  · cases h
  · exact Argument.plain.inj h

/-- Arguments that ask for a listing without the option ask for a strict one behind the option. -/
theorem strict_of_readCommand {command : Command} {payload? : Option String} {isStrict : Bool}
    (h : readCommand command payload? isStrict arguments = some (.composition payload false)) :
    command = .composition ∧ isStrict = false ∧
      readCommand .composition payload? true arguments = some (.composition payload true) := by
  fun_induction readCommand command payload? isStrict arguments with
  | case1 payload? isStrict =>
    obtain ⟨text, hpayload, htask⟩ := Option.map_eq_some_iff.mp h
    obtain ⟨rfl, rfl, rfl⟩ := Command.of_task htask
    exact ⟨rfl, rfl, by rw [hpayload]; rfl⟩
  | case2 payload? isStrict first rest hfirst text hpayload =>
    obtain ⟨rfl, rfl, rfl⟩ := Command.of_task (Option.some.inj h)
    exact ⟨rfl, rfl, by simp only [readCommand, hfirst, hpayload, Command.task]⟩
  | case5 payload? isStrict first rest text hfirst hnone ih =>
    obtain ⟨rfl, rfl, hrest⟩ := ih h
    exact ⟨rfl, rfl, by simp only [readCommand, hfirst, hnone, hrest]; rfl⟩
  | case7 payload? isStrict first rest hseparator hplain hhelp hstrict ih =>
    -- The option among the arguments would have made the listing strict.
    obtain ⟨-, hfalse, -⟩ := ih h
    cases hfalse
  | case3 | case4 | case6 | case8 => cases h

theorem Command.eq_of_ofName? {name : String} (h : ofName? name = some .composition) :
    name = "composition" := by
  unfold ofName? at h
  split at h
  · cases h
  · split at h
    · assumption
    · cases h

theorem read_composition (rest : List String) :
    read ("composition" :: rest) = readCommand .composition none false rest := by
  have hplain : Argument.ofString "composition" = .plain "composition" := by decide
  have hname : Command.ofName? "composition" = some .composition := by decide
  have hother : ¬ "composition" = helpWord := by decide
  simp only [read, hplain, hname, hother, if_false, Option.bind_some]

theorem readCommand_strict (rest : List String) :
    readCommand .composition none false ("--strict" :: rest) =
      readCommand .composition none true rest := by
  have hoption : Argument.ofString "--strict" = .long "strict" := by decide
  have hhelp : (Argument.long "strict").asksHelp = false := by decide
  simp [readCommand, hoption, hhelp]

/-- The option can be added to every command line that asks for a listing without it. -/
theorem exists_strict_of_read (h : read arguments = some (.composition payload false)) :
    ∃ rest, arguments = "composition" :: rest ∧
      read ("composition" :: "--strict" :: rest) = some (.composition payload true) := by
  revert h
  fun_cases read arguments with
  | case5 first rest name hfirst hother =>
    intro h
    obtain ⟨command, hcommand, hread⟩ := Option.bind_eq_some_iff.mp h
    obtain ⟨rfl, -, hstrict⟩ := strict_of_readCommand hread
    obtain rfl := Command.eq_of_ofName? hcommand
    obtain rfl := Argument.eq_of_plain hfirst
    refine ⟨rest, rfl, ?_⟩
    rw [read_composition, readCommand_strict, hstrict]
  | case1 | case2 | case3 | case4 | case6 | case7 | case8 =>
    intro h
    cases h

/-- Every payload can be given to the program, also one that looks like an option. -/
theorem read_separated (payload : String) :
    read ["composition", "--", payload] = some (.composition payload false) := by
  have hseparator : Argument.ofString "--" = .separator := by decide
  simp only [read_composition, readCommand, hseparator, Option.toList_none, List.nil_append,
    Command.task]

/-! ## What is listed -/

/-- The data that a payload stands for. -/
def Describes (payload : String) (c : Composition) : Prop :=
  ∃ bytes, payloadBytes payload = .ok bytes ∧ Composition.decode bytes = .ok c

/-- A payload either cannot be read, and is refused alike with the option and without it, or
stands for bytes from which data are read. -/
theorem refused_or_read (payload : String) :
    (∃ fault, ∀ isStrict, listing (.composition payload isStrict) = .error fault) ∨
      ∃ bytes reading, payloadBytes payload = .ok bytes ∧ Composition.read bytes = .ok reading := by
  cases hbytes : payloadBytes payload with
  | error fault => exact .inl ⟨.hex fault, fun isStrict => by simp only [listing, hbytes]⟩
  | ok bytes =>
    cases hread : Composition.read bytes with
    | error fault =>
      refine .inl ⟨.composition fault, fun isStrict => ?_⟩
      simp only [listing, hbytes, compositionListing, hread]
    | ok reading => exact .inr ⟨bytes, reading, rfl, hread⟩

section Reading

variable {bytes : Bytes} {reading : Composition.Reading}

theorem describes_of_read (hbytes : payloadBytes payload = .ok bytes)
    (hread : Composition.read bytes = .ok reading) : Describes payload reading.composition :=
  ⟨bytes, hbytes, by simp only [Composition.decode, hread]⟩

/-- Without the option the data are listed, whatever is left over. -/
theorem listing_of_read (hbytes : payloadBytes payload = .ok bytes)
    (hread : Composition.read bytes = .ok reading) :
    listing (.composition payload false) = .ok reading.composition.listing := by
  simp [listing, hbytes, compositionListing, hread]

theorem strict_listing_of_complete (hbytes : payloadBytes payload = .ok bytes)
    (hread : Composition.read bytes = .ok reading) (hnone : reading.remainder = 0) :
    listing (.composition payload true) = .ok reading.composition.listing := by
  simp [listing, hbytes, compositionListing, hread, hnone]

theorem strict_listing_of_remainder (hbytes : payloadBytes payload = .ok bytes)
    (hread : Composition.read bytes = .ok reading) (hleft : 0 < reading.remainder) :
    listing (.composition payload true) = .error (.trailing reading.remainder) := by
  simp [listing, hbytes, compositionListing, hread, hleft]

end Reading

/-- A payload that is listed without the option has been read, and the data are listed. -/
theorem exists_read_of_listing (h : listing (.composition payload false) = .ok lines) :
    ∃ bytes reading, payloadBytes payload = .ok bytes ∧ Composition.read bytes = .ok reading ∧
      lines = reading.composition.listing := by
  obtain ⟨fault, hrefused⟩ | ⟨bytes, reading, hbytes, hread⟩ := refused_or_read payload
  · rw [hrefused] at h
    cases h
  · rw [listing_of_read hbytes hread] at h
    exact ⟨bytes, reading, hbytes, hread, (Except.ok.inj h).symm⟩

/-- Without the option there is a listing exactly if there are bytes enough for a header. -/
theorem exists_listing_iff :
    (∃ lines, listing (.composition payload false) = .ok lines) ↔
      ∃ bytes, payloadBytes payload = .ok bytes ∧ 11 ≤ bytes.length := by
  constructor
  · rintro ⟨lines, hlines⟩
    obtain ⟨bytes, reading, hbytes, hread, -⟩ := exists_read_of_listing hlines
    obtain ⟨p, hp, -⟩ := Composition.read_eq_ok_iff.mp hread
    exact ⟨bytes, hbytes, Composition.length_of_make hp⟩
  · rintro ⟨bytes, hbytes, hlong⟩
    obtain ⟨p, hp⟩ := Composition.exists_make hlong
    exact ⟨_, listing_of_read hbytes hp.read_eq⟩

/-- There is a strict listing exactly of complete data. -/
theorem exists_strict_listing_iff :
    (∃ lines, listing (.composition payload true) = .ok lines) ↔
      ∃ bytes, payloadBytes payload = .ok bytes ∧ Composition.Complete bytes := by
  constructor
  · rintro ⟨lines, hlines⟩
    obtain ⟨fault, hrefused⟩ | ⟨bytes, reading, hbytes, hread⟩ := refused_or_read payload
    · rw [hrefused] at hlines
      cases hlines
    · obtain hnone | hleft := Nat.eq_zero_or_pos reading.remainder
      · exact ⟨bytes, hbytes, Composition.complete_iff.mpr ⟨reading, hread, hnone⟩⟩
      · rw [strict_listing_of_remainder hbytes hread hleft] at hlines
        cases hlines
  · rintro ⟨bytes, hbytes, hcomplete⟩
    obtain ⟨reading, hread, hnone⟩ := Composition.complete_iff.mp hcomplete
    exact ⟨_, strict_listing_of_complete hbytes hread hnone⟩

/-- All that the option to be strict does is to refuse data of which bytes are left over. -/
structure OnlyRefuses (payload : String) : Prop where
  /-- The program can be asked to list the payload. -/
  given : read ["composition", "--", payload] = some (.composition payload false)
  /-- The option can be added wherever the program is asked to list the payload without it. -/
  added : ∀ arguments, read arguments = some (.composition payload false) →
    ∃ rest, arguments = "composition" :: rest ∧
      read ("composition" :: "--strict" :: rest) = some (.composition payload true)
  /-- Without the option, all data are listed that have a whole header. -/
  accepted : (∃ lines, listing (.composition payload false) = .ok lines) ↔
    ∃ bytes, payloadBytes payload = .ok bytes ∧ 11 ≤ bytes.length
  /-- What fails without the option fails with it in the same way. -/
  failed : ∀ fault, listing (.composition payload false) = .error fault →
    listing (.composition payload true) = .error fault
  /-- What is listed without the option is listed with it, unless bytes are left over. -/
  listed : ∀ lines, listing (.composition payload false) = .ok lines →
    ∃ bytes reading, payloadBytes payload = .ok bytes ∧ Composition.read bytes = .ok reading ∧
      (reading.remainder = 0 → listing (.composition payload true) = .ok lines) ∧
      (0 < reading.remainder → ∃ fault, listing (.composition payload true) = .error fault ∧
        fault.message = Text.decimal reading.remainder ++ " trailing bytes after the last element")
  /-- With the option, exactly the data are listed that are a header and whole records. -/
  complete : (∃ lines, listing (.composition payload true) = .ok lines) ↔
    ∃ bytes, payloadBytes payload = .ok bytes ∧ Composition.Complete bytes

/-- The listing of composition data is faithful, and the option to be strict does nothing but
refuse data that are not complete. Two payloads of which there are listings have the same listing
exactly if they stand for the same data, both as a list of lines and in print. -/
theorem composition_listed_faithfully (payload other : String) :
    OnlyRefuses payload ∧
      ∀ lines lines', listing (.composition payload false) = .ok lines →
        listing (.composition other false) = .ok lines' →
        ∃ c c', Describes payload c ∧ Describes other c' ∧ (lines = lines' ↔ c = c') ∧
          (Text.printed lines = Text.printed lines' ↔ c = c') := by
  refine ⟨⟨read_separated payload, fun _ => exists_strict_of_read, exists_listing_iff, ?_, ?_,
    exists_strict_listing_iff⟩, ?_⟩
  · intro fault hfault
    obtain ⟨reason, hrefused⟩ | ⟨bytes, reading, hbytes, hread⟩ := refused_or_read payload
    · rw [hrefused, ← hfault, hrefused]
    · rw [listing_of_read hbytes hread] at hfault
      cases hfault
  · intro lines hlines
    obtain ⟨bytes, reading, hbytes, hread, rfl⟩ := exists_read_of_listing hlines
    refine ⟨bytes, reading, hbytes, hread, strict_listing_of_complete hbytes hread, ?_⟩
    intro hleft
    refine ⟨.trailing reading.remainder, strict_listing_of_remainder hbytes hread hleft, ?_⟩
    rw [Fault.message]
  · intro lines lines' hlines hlines'
    obtain ⟨bytes, reading, hbytes, hread, rfl⟩ := exists_read_of_listing hlines
    obtain ⟨bytes', reading', hbytes', hread', rfl⟩ := exists_read_of_listing hlines'
    refine ⟨_, _, describes_of_read hbytes hread, describes_of_read hbytes' hread', ?_, ?_⟩
    · exact ⟨Composition.listing_injective, fun hsame => by rw [hsame]⟩
    · exact ⟨Composition.printed_listing_injective, fun hsame => by rw [hsame]⟩

/-- A node with one element. -/
def reportedNode : Composition where
  company := 0x0059
  product := 2
  version := 3
  replayCache := 10
  features := ⟨true, false, true, false⟩
  elements := [⟨0x0102, [0x1000], [0x00590001]⟩]

/-- What the node reports of itself on another page, with reserved bits in the mask and with one
byte left over. -/
def cutPayload : String := " 015900020003000A00F5FF0201010100105900010009"

/-- The same without any of these. -/
def wholePayload : String := "005900020003000a00050002010101001059000100"

theorem listed_faithfully_of_reportedNode :
    reportedNode.listing =
        ["company 0x0059 product 0x0002 version 0x0003 replay cache 10",
          "features Features \x7b relay: true, proxy: false, friend: true, low_power: false \x7d",
          "element 0 location 0x0102", "  sig model 0x1000", "  vendor model 0x00590001"] ∧
      listing (.composition cutPayload false) = .ok reportedNode.listing ∧
      listing (.composition wholePayload false) = .ok reportedNode.listing ∧
      (∃ fault, listing (.composition cutPayload true) = .error fault ∧
        fault.message = "1 trailing bytes after the last element") ∧
      listing (.composition wholePayload true) = .ok reportedNode.listing ∧
      ∃ c, Describes cutPayload c ∧ Describes wholePayload c := by
  have hcut : payloadBytes cutPayload = .ok [1, 0x59, 0, 2, 0, 3, 0, 10, 0, 0xF5, 0xFF, 2, 1, 1,
      1, 0, 0x10, 0x59, 0, 1, 0, 9] := by rfl
  have hwhole : payloadBytes wholePayload = .ok [0, 0x59, 0, 2, 0, 3, 0, 10, 0, 5, 0, 2, 1, 1,
      1, 0, 0x10, 0x59, 0, 1, 0] := by rfl
  have hcutRead : Composition.read [1, 0x59, 0, 2, 0, 3, 0, 10, 0, 0xF5, 0xFF, 2, 1, 1,
      1, 0, 0x10, 0x59, 0, 1, 0, 9] = .ok ⟨1, reportedNode, 1⟩ := by cbv
  have hwholeRead : Composition.read [0, 0x59, 0, 2, 0, 3, 0, 10, 0, 5, 0, 2, 1, 1,
      1, 0, 0x10, 0x59, 0, 1, 0] = .ok ⟨0, reportedNode, 0⟩ := by cbv
  have hcutListing := listing_of_read hcut hcutRead
  have hwholeListing := listing_of_read hwhole hwholeRead
  obtain ⟨honly, hsame⟩ := composition_listed_faithfully cutPayload wholePayload
  obtain ⟨bytes, reading, hbytes, hread, -, hleft⟩ := honly.listed _ hcutListing
  obtain rfl := Except.ok.inj (hcut.symm.trans hbytes)
  obtain rfl := Except.ok.inj (hcutRead.symm.trans hread)
  obtain ⟨fault, hfault, hmessage⟩ := hleft (by decide)
  obtain ⟨bytes', reading', hbytes', hread', hnone, -⟩ :=
    (composition_listed_faithfully wholePayload cutPayload).1.listed _ hwholeListing
  obtain rfl := Except.ok.inj (hwhole.symm.trans hbytes')
  obtain rfl := Except.ok.inj (hwholeRead.symm.trans hread')
  obtain ⟨c, c', hc, hc', hdata, -⟩ := hsame _ _ hcutListing hwholeListing
  obtain rfl : c = c' := hdata.mp rfl
  exact ⟨by rfl, hcutListing, hwholeListing, ⟨fault, hfault, hmessage⟩, hnone rfl, c, hc, hc'⟩

end CommandLine

end MeshFoundation
