import MeshFoundation.Opcode.Stream
import MeshFoundation.Proofs.Client.Turn
import MeshFoundation.Proofs.Client.Reply
import MeshFoundation.Proofs.CommandLine.Payload
import MeshFoundation.Proofs.Operation.Reading
import MeshFoundation.Proofs.Pending.Query

/-!
# One classification of messages

The program on the command line says of a message which kind it is, and a client that gets the
message treats it as one of three kinds. The program asks first whether the opcode is that of a
status message and then whether it is that of a request, and each of the two questions leaves the
unreliable flag out of account. The client clears the flag itself, and asks its table.

The two agree on every byte string: what the program cannot read no client reads; what the
program names as a status message is what a client takes for the answer to any request that
waits for this status; and what the program names as a request, or does not know, no client
takes for an answer (`opcode_classified_alike`).

What the program prints is read here as a user would: the name is the last word of the first
line (`Listing.lastWord`), and the length is the word behind the parenthesis
(`Listing.bracketWord`).
-/

set_option autoImplicit false

namespace MeshFoundation

open Pending

/-! ## Reading a listing -/

namespace Listing

/-- What stands behind the last blank of a line. -/
def lastWord (line : String) : String :=
  String.ofList (line.toList.reverse.takeWhile fun c => c != ' ').reverse

/-- The word behind the first opening parenthesis of a line. -/
def bracketWord (line : String) : String :=
  String.ofList (((line.toList.dropWhile fun c => c != '(').drop 1).takeWhile fun c => c != ' ')

/-- The first line ends in the given name. -/
def Names (lines : List String) (name : String) : Prop := lines.head?.map lastWord = some name

/-- The first line gives the given length. -/
def Measures (lines : List String) (length : Nat) : Prop :=
  lines.head?.map bracketWord = some (Text.decimal length)

/-- There is a line that tells of the unreliable flag. -/
def Flags (lines : List String) : Prop := "unreliable flag set" ∈ lines

theorem bne_of_not_mem {cs : List Char} {stop : Char} (h : stop ∉ cs) :
    ∀ c ∈ cs, (c != stop) = true := by
  intro c hc
  rw [bne_iff_ne]
  rintro rfl
  exact h hc

theorem lastWord_append {front name : String} (hname : ' ' ∉ name.toList) :
    lastWord (front ++ " " ++ name) = name := by
  have hword := bne_of_not_mem (fun hblank => hname (List.mem_reverse.mp hblank))
  have hline : (front ++ " " ++ name).toList.reverse =
      name.toList.reverse ++ ' ' :: front.toList.reverse := by
    simp
  rw [lastWord, hline, List.takeWhile_append_of_pos hword]
  simp

theorem bracketWord_append {front word back : String} (hfront : '(' ∉ front.toList)
    (hword : ' ' ∉ word.toList) :
    bracketWord (front ++ "(" ++ word ++ " " ++ back) = word := by
  have hline : (front ++ "(" ++ word ++ " " ++ back).toList =
      front.toList ++ '(' :: (word.toList ++ ' ' :: back.toList) := by
    simp
  rw [bracketWord, hline, List.dropWhile_append_of_pos (bne_of_not_mem hfront),
    List.dropWhile_cons_of_neg (by decide), List.drop_succ_cons, List.drop_zero,
    List.takeWhile_append_of_pos (bne_of_not_mem hword)]
  simp

end Listing

namespace Opcode

variable {op : Opcode} {width : Nat} {status : Status}

/-- All kinds of messages. -/
def Meaning.all : List Meaning :=
  Status.all.map .status ++ Request.all.map .request ++ [.unknown]

theorem Meaning.mem_all (m : Meaning) : m ∈ all := by
  cases m with
  | status s => simp [all, Status.mem_all s]
  | request r => simp [all, Request.mem_all r]
  | unknown => simp [all]

/-- No two kinds of messages have the same name. -/
theorem Meaning.name_injective {a b : Meaning} (h : a.name = b.name) : a = b := by
  have hall : ∀ a ∈ all, ∀ b ∈ all, a.name = b.name → a = b := by decide +kernel
  exact hall a (mem_all a) b (mem_all b) h

theorem Meaning.blank_not_mem_name (m : Meaning) : ' ' ∉ m.name.toList := by
  have hall : ∀ m ∈ all, ' ' ∉ m.name.toList := by decide +kernel
  exact hall m (mem_all m)

/-- An opcode names a status message exactly if it is the opcode of that message, its flag
left aside. -/
theorem meaning_eq_status_iff : op.meaning = .status status ↔ status.opcode = op.reliable := by
  rw [← Status.ofOpcode?_eq_some_iff, meaning]
  cases Status.ofOpcode? op <;> cases Request.ofOpcode? op <;> simp

/-- The name in a listing is that of the kind of message. -/
theorem names_listing (op : Opcode) (width : Nat) (name : String) :
    Listing.Names (op.listing width) name ↔ op.meaning.name = name := by
  have hblank : " bytes): " = " bytes):" ++ " " := by decide
  have hword : Listing.lastWord ("opcode " ++ op.text ++ " (" ++ Text.decimal width ++
      " bytes): " ++ op.meaning.name) = op.meaning.name := by
    rw [hblank, ← String.append_assoc]
    exact Listing.lastWord_append (Meaning.blank_not_mem_name op.meaning)
  simp [Listing.Names, listing, hword]

theorem bracket_not_mem_text (op : Opcode) : '(' ∉ op.text.toList :=
  Text.not_mem_hexadecimal (by decide) (by decide) 4 op.value.toNat

/-- The length in a listing is the number of bytes that the opcode took. -/
theorem measures_listing (op : Opcode) (width : Nat) :
    Listing.Measures (op.listing width) width := by
  have hline : "opcode " ++ op.text ++ " (" ++ Text.decimal width ++ " bytes): " ++
      op.meaning.name = "opcode " ++ op.text ++ " " ++ "(" ++ Text.decimal width ++ " " ++
        ("bytes): " ++ op.meaning.name) := by
    have hopen : " (" = " " ++ "(" := by decide
    have hclose : " bytes): " = " " ++ "bytes): " := by decide
    rw [hopen, hclose]
    simp only [String.append_assoc]
  have hfront : '(' ∉ ("opcode " ++ op.text ++ " ").toList := by
    simp [bracket_not_mem_text op]
  simp only [Listing.Measures, listing, List.head?_cons, Option.map_some, hline,
    Listing.bracketWord_append hfront (Text.blank_not_mem_decimal width)]

/-- The flag is mentioned in a listing exactly if clearing it changes the opcode. -/
theorem flags_listing (op : Opcode) (width : Nat) :
    Listing.Flags (op.listing width) ↔ op ≠ op.reliable := by
  have hfirst : ∀ rest : String, "unreliable flag set" ≠ "opcode " ++ rest := by
    intro rest heq
    have hflag : "unreliable flag set".toList = 'u' :: "nreliable flag set".toList := by decide
    have hopcode : "opcode ".toList = 'o' :: "pcode ".toList := by decide
    have hline := congrArg String.toList heq
    rw [String.toList_append, hflag, hopcode, List.cons_append] at hline
    exact absurd (List.head_eq_of_cons_eq hline) (by decide)
  simp only [Listing.Flags, listing, List.mem_cons, String.append_assoc, hfirst, false_or]
  split
  · rename_i hplain
    exact iff_of_false List.not_mem_nil fun hdiffers => hdiffers hplain
  · rename_i hdiffers
    exact iff_of_true (List.mem_singleton_self _) hdiffers

end Opcode

/-! ## What a client does with a message -/

namespace Client

variable {c : Client} {source : UInt16} {bytes : Bytes} {e : Entry} {op : Opcode} {width : Nat}

/-- A message is dropped because its opcode cannot be read. -/
def DropsUnreadable (c : Client) (source : UInt16) (bytes : Bytes) : Prop :=
  ∃ fault, c.receive source bytes =
    ([.noted (.undecodable source fault), .counted (.dropped .opcode)], c)

/-- A message is dropped because it answers nothing, and is noted with the given opcode. -/
def DropsUnasked (c : Client) (source : UInt16) (bytes : Bytes) (op : Opcode) : Prop :=
  c.receive source bytes =
    ([.noted (.unsolicited op source), .counted (.dropped .unsolicited)], c)

/-- A message takes a pending request out of the table. -/
def Takes (c : Client) (source : UInt16) (bytes : Bytes) (e : Entry) : Prop :=
  e ∈ c.table.entries ∧ e ∉ (c.receive source bytes).2.table.entries

/-- The opcode by which a client connects a message with what is pending: that of the status
that is awaited, or that with which the message is noted as unasked for. -/
def Correlates (c : Client) (source : UInt16) (bytes : Bytes) (op : Opcode) : Prop :=
  c.DropsUnasked source bytes op ∨
    ∃ e, c.Takes source bytes e ∧ e.awaited.request.status.opcode = op

/-- What a message answers whose opcode was read. -/
theorem answers_iff :
    Key.ofOpcode? op.reliable source = some e.awaited.key ↔
      e.awaited.request.status.opcode = op.reliable ∧ e.awaited.node = source :=
  Key.ofOpcode?_reliable

theorem receive_of_unreadable {fault : Opcode.Fault} (hdecode : Opcode.decode bytes = .error fault)
    (c : Client) (source : UInt16) :
    c.receive source bytes =
      ([.noted (.undecodable source fault), .counted (.dropped .opcode)], c) := by
  simp only [receive_eq, hdecode]

/-- A message that answers nothing is dropped with its opcode, the flag of which is cleared. -/
theorem receive_of_free (h : c.table.Shaped) (hdecode : Opcode.decode bytes = .ok (op, width))
    (hfree : ∀ e ∈ c.table.entries, Key.ofOpcode? op.reliable source ≠ some e.awaited.key) :
    c.receive source bytes =
      ([.noted (.unsolicited op.reliable source), .counted (.dropped .unsolicited)], c) := by
  simp only [receive_eq, hdecode, h.remove_of_free hfree]

/-- A message takes out the request that waits for its status from its source. -/
theorem takes_iff (h : c.table.Shaped) (he : e ∈ c.table.entries) :
    c.Takes source bytes e ↔ ∃ op width, Opcode.decode bytes = .ok (op, width) ∧
      e.awaited.request.status.opcode = op.reliable ∧ e.awaited.node = source := by
  constructor
  · rintro ⟨-, hgone⟩
    cases hdecode : Opcode.decode bytes with
    | error fault =>
      rw [receive_of_unreadable hdecode] at hgone
      exact absurd he hgone
    | ok reading =>
      obtain ⟨op, width⟩ := reading
      refine ⟨op, width, rfl, answers_iff.mp ?_⟩
      by_cases hfree : ∀ f ∈ c.table.entries, Key.ofOpcode? op.reliable source ≠ some f.awaited.key
      · rw [receive_of_free h hdecode hfree] at hgone
        exact absurd he hgone
      · push Not at hfree
        obtain ⟨f, hf, hkey⟩ := hfree
        -- The message takes out one request, so that this is the one which is gone.
        rw [receive_of_answered h hdecode hf hkey, h.entries_without, List.mem_filter] at hgone
        have hticket : e.ticket = f.ticket := by simpa [he] using hgone
        rw [h.eq_of_ticket he hf hticket]
        exact hkey
  · rintro ⟨op, width, hdecode, hanswers⟩
    refine ⟨he, ?_⟩
    rw [receive_of_answered h hdecode he (answers_iff.mpr hanswers), h.entries_without]
    simp

/-- A message is dropped as unasked for exactly if its opcode can be read and it answers
nothing. -/
theorem dropsUnasked_iff (h : c.table.Shaped) {noted : Opcode} :
    c.DropsUnasked source bytes noted ↔ ∃ op width, Opcode.decode bytes = .ok (op, width) ∧
      noted = op.reliable ∧
        ∀ e ∈ c.table.entries, Key.ofOpcode? op.reliable source ≠ some e.awaited.key := by
  constructor
  · intro hdrops
    cases hdecode : Opcode.decode bytes with
    | error fault => simp [DropsUnasked, receive_of_unreadable hdecode] at hdrops
    | ok reading =>
      obtain ⟨op, width⟩ := reading
      have hfree : ∀ e ∈ c.table.entries,
          Key.ofOpcode? op.reliable source ≠ some e.awaited.key := by
        intro e he hkey
        have htakes := (takes_iff h he).mpr ⟨op, width, hdecode, answers_iff.mp hkey⟩
        rw [Takes, hdrops] at htakes
        exact htakes.2 he
      have hnoted : op.reliable = noted := by
        simpa [DropsUnasked, receive_of_free h hdecode hfree] using hdrops
      exact ⟨op, width, rfl, hnoted.symm, hfree⟩
  · rintro ⟨op, width, hdecode, rfl, hfree⟩
    exact receive_of_free h hdecode hfree

/-- For each key there is a client with a request pending under it. -/
theorem exists_pending (key : Key) :
    ∃ c : Client, c.Reachable ∧ ∃ e ∈ c.table.entries, e.awaited.key = key := by
  obtain ⟨request, hstatus⟩ := Request.exists_of_status key.status
  have hop : Awaited.ofOpcode? request.opcode key.node = some ⟨request, key.node⟩ := by
    rw [Awaited.ofOpcode?, Request.ofOpcode?_opcode]
    rfl
  have hshaped : (Client.new .standard).table.Shaped := Table.Shaped.empty 2000
  obtain ⟨table, hadd, -, hentries⟩ := hshaped.add_of_free hop rfl 0
  refine ⟨_, (reachable_new .standard).turns [.act [] ⟨0, .add request.opcode key.node⟩],
    (Client.new .standard).table.nextEntry 0 ⟨request, key.node⟩, ?_, ?_⟩
  · simp [turns, turn, Action.perform, hadd, hentries]
  · simp [Table.nextEntry, Awaited.key, hstatus]

end Client

/-! ## The program and the clients -/

namespace CommandLine

variable {payload : String} {bytes : Bytes} {lines : List String}

/-- What the program prints about the opcode of a payload agrees with what clients do with the
bytes that the payload stands for, from wherever these come and whatever is pending. -/
structure Classifies (payload : String) (bytes : Bytes) : Prop where
  /-- The program knows what it is asked for. -/
  asked : read ["opcode", payload] = some (.opcode payload)
  /-- The program fails exactly if no client can read the opcode of the message. -/
  unreadable : (∃ fault, listing (.opcode payload) = .error fault) ↔
    ∀ c : Client, c.Reachable → ∀ source, c.DropsUnreadable source bytes
  /-- The program names a status message exactly if every client takes the message for the
  answer to any request that waits for this status from its source. -/
  answer : ∀ status : Status,
    (∃ lines, listing (.opcode payload) = .ok lines ∧ Listing.Names lines status.name) ↔
      ∀ c : Client, c.Reachable → ∀ source, ∀ e ∈ c.table.entries,
        e.awaited.key = ⟨status, source⟩ → c.Takes source bytes e
  /-- The program names a request, or nothing that it knows, exactly if no client has asked for
  the message. -/
  unasked :
    (∃ lines, listing (.opcode payload) = .ok lines ∧
      ((∃ request : Request, Listing.Names lines request.name) ∨
        Listing.Names lines "unknown")) ↔
      ∀ c : Client, c.Reachable → ∀ source, ∃ noted, c.DropsUnasked source bytes noted
  /-- The printed length is that of the bytes which a client skips to get at the parameters. -/
  length : ∀ lines, listing (.opcode payload) = .ok lines →
    ∀ c : Client, c.Reachable → ∀ source e, c.Takes source bytes e →
      ∃ skipped params, bytes = skipped ++ params ∧ Listing.Measures lines skipped.length ∧
        c.Resolves source bytes params e
  /-- The flag is mentioned exactly if the opcode of the message is another one than that by
  which a client connects it with what is pending. -/
  flag : ∀ lines, listing (.opcode payload) = .ok lines →
    ∃ op width, Opcode.decode bytes = .ok (op, width) ∧
      ∀ c : Client, c.Reachable → ∀ source correlated, c.Correlates source bytes correlated →
        (Listing.Flags lines ↔ op ≠ correlated)

theorem listing_eq_ok_iff (h : payloadBytes payload = .ok bytes) :
    listing (.opcode payload) = .ok lines ↔
      ∃ op width, Opcode.decode bytes = .ok (op, width) ∧ lines = op.listing width := by
  simp only [listing, h, opcodeListing]
  cases Opcode.decode bytes with
  | error fault => simp
  | ok reading =>
    obtain ⟨op, width⟩ := reading
    simp [eq_comm]

theorem listing_eq_error_iff (h : payloadBytes payload = .ok bytes) :
    (∃ fault, listing (.opcode payload) = .error fault) ↔
      ∃ fault, Opcode.decode bytes = .error fault := by
  simp only [listing, h, opcodeListing]
  cases Opcode.decode bytes with
  | error fault => simp
  | ok reading => simp

/-- The name that is printed tells which kind of message the opcode names. -/
theorem names_iff (h : payloadBytes payload = .ok bytes) (m : Opcode.Meaning) :
    (∃ lines, listing (.opcode payload) = .ok lines ∧ Listing.Names lines m.name) ↔
      ∃ op width, Opcode.decode bytes = .ok (op, width) ∧ op.meaning = m := by
  constructor
  · rintro ⟨lines, hlines, hname⟩
    obtain ⟨op, width, hdecode, rfl⟩ := (listing_eq_ok_iff h).mp hlines
    rw [Opcode.names_listing] at hname
    exact ⟨op, width, hdecode, Opcode.Meaning.name_injective hname⟩
  · rintro ⟨op, width, hdecode, rfl⟩
    exact ⟨op.listing width, (listing_eq_ok_iff h).mpr ⟨op, width, hdecode, rfl⟩,
      (op.names_listing width _).mpr rfl⟩

/-- An opcode that can be read is either that of a status message, or it is printed as that of
a request or as unknown. -/
theorem names_other_iff (h : payloadBytes payload = .ok bytes) :
    (∃ lines, listing (.opcode payload) = .ok lines ∧
      ((∃ request : Request, Listing.Names lines request.name) ∨
        Listing.Names lines "unknown")) ↔
      ∃ op width, Opcode.decode bytes = .ok (op, width) ∧
        ∀ status : Status, status.opcode ≠ op.reliable := by
  constructor
  · rintro ⟨lines, hlines, hother⟩
    obtain ⟨op, width, hdecode, rfl⟩ := (listing_eq_ok_iff h).mp hlines
    refine ⟨op, width, hdecode, fun status hstatus => ?_⟩
    have hmeaning := Opcode.meaning_eq_status_iff.mpr hstatus
    have hname : ∀ m : Opcode.Meaning, Listing.Names (op.listing width) m.name →
        op.meaning = m := by
      intro m hm
      exact Opcode.Meaning.name_injective ((op.names_listing width _).mp hm)
    rw [hmeaning] at hname
    obtain ⟨request, hrequest⟩ | hunknown := hother
    · cases hname (.request request) hrequest
    · cases hname .unknown hunknown
  · rintro ⟨op, width, hdecode, hother⟩
    refine ⟨op.listing width, (listing_eq_ok_iff h).mpr ⟨op, width, hdecode, rfl⟩, ?_⟩
    cases hmeaning : op.meaning with
    | status status => exact absurd (Opcode.meaning_eq_status_iff.mp hmeaning) (hother status)
    | request request => exact .inl ⟨request, by rw [Opcode.names_listing, hmeaning]; rfl⟩
    | unknown => exact .inr (by rw [Opcode.names_listing, hmeaning]; rfl)

theorem unreadable_iff :
    (∃ fault, Opcode.decode bytes = .error fault) ↔
      ∀ c : Client, c.Reachable → ∀ source, c.DropsUnreadable source bytes := by
  constructor
  · rintro ⟨fault, hdecode⟩ c - source
    exact ⟨fault, Client.receive_of_unreadable hdecode c source⟩
  · intro hall
    cases hdecode : Opcode.decode bytes with
    | error fault => exact ⟨fault, rfl⟩
    | ok reading =>
      -- A client without requests drops such a message as unasked for.
      obtain ⟨fault, hdrops⟩ := hall _ (Client.reachable_new .standard) 0
      have hshaped : (Client.new .standard).table.Shaped := Table.Shaped.empty 2000
      have hfree : ∀ e ∈ (Client.new .standard).table.entries,
          Key.ofOpcode? reading.1.reliable 0 ≠ some e.awaited.key :=
        fun e he => absurd he List.not_mem_nil
      rw [Client.receive_of_free hshaped hdecode hfree] at hdrops
      cases hdrops

theorem answer_iff (status : Status) :
    (∃ op width, Opcode.decode bytes = .ok (op, width) ∧ op.meaning = .status status) ↔
      ∀ c : Client, c.Reachable → ∀ source, ∀ e ∈ c.table.entries,
        e.awaited.key = ⟨status, source⟩ → c.Takes source bytes e := by
  constructor
  · rintro ⟨op, width, hdecode, hmeaning⟩ c hc source e he hkey
    have hstatus : e.awaited.request.status = status := congrArg Key.status hkey
    have hnode : e.awaited.node = source := congrArg Key.node hkey
    refine (Client.takes_iff hc.orderly.shaped he).mpr ⟨op, width, hdecode, ?_, hnode⟩
    rw [hstatus]
    exact Opcode.meaning_eq_status_iff.mp hmeaning
  · intro hall
    obtain ⟨c, hc, e, he, hkey⟩ := Client.exists_pending ⟨status, 0⟩
    have htakes := hall c hc 0 e he hkey
    obtain ⟨op, width, hdecode, hanswers, -⟩ := (Client.takes_iff hc.orderly.shaped he).mp htakes
    have hstatus : e.awaited.request.status = status := congrArg Key.status hkey
    exact ⟨op, width, hdecode, Opcode.meaning_eq_status_iff.mpr (hstatus ▸ hanswers)⟩

theorem unasked_iff :
    (∃ op width, Opcode.decode bytes = .ok (op, width) ∧
      ∀ status : Status, status.opcode ≠ op.reliable) ↔
      ∀ c : Client, c.Reachable → ∀ source, ∃ noted, c.DropsUnasked source bytes noted := by
  constructor
  · rintro ⟨op, width, hdecode, hother⟩ c hc source
    refine ⟨op.reliable, (Client.dropsUnasked_iff hc.orderly.shaped).mpr
      ⟨op, width, hdecode, rfl, fun e _ hkey => ?_⟩⟩
    exact hother _ (Client.answers_iff.mp hkey).1
  · intro hall
    obtain ⟨noted, hdrops⟩ := hall _ (Client.reachable_new .standard) 0
    obtain ⟨op, width, hdecode, -, -⟩ :=
      (Client.dropsUnasked_iff (Client.reachable_new .standard).orderly.shaped).mp hdrops
    refine ⟨op, width, hdecode, fun status hstatus => ?_⟩
    -- A client that waits for the status takes the message and does not drop it.
    obtain ⟨c, hc, e, he, hkey⟩ := Client.exists_pending ⟨status, 0⟩
    obtain ⟨noted, hdrops⟩ := hall c hc 0
    have htakes := (answer_iff status).mp
      ⟨op, width, hdecode, Opcode.meaning_eq_status_iff.mpr hstatus⟩ c hc 0 e he hkey
    rw [Client.Takes, hdrops] at htakes
    exact htakes.2 he

/-- A client that connects a message with what is pending does so by its opcode, the flag of
which is cleared. -/
theorem eq_reliable_of_correlates {c : Client} (h : c.table.Shaped) {source : UInt16}
    {op correlated : Opcode} {width : Nat} (hdecode : Opcode.decode bytes = .ok (op, width))
    (hcorrelates : c.Correlates source bytes correlated) : correlated = op.reliable := by
  obtain hdrops | ⟨e, htakes, rfl⟩ := hcorrelates
  · obtain ⟨op', width', hdecode', hnoted, -⟩ := (Client.dropsUnasked_iff h).mp hdrops
    rw [hdecode] at hdecode'
    cases hdecode'
    exact hnoted
  · obtain ⟨op', width', hdecode', hanswers, -⟩ := (Client.takes_iff h htakes.1).mp htakes
    rw [hdecode] at hdecode'
    cases hdecode'
    exact hanswers

/-- Every byte string has a text that can be given to the program, and with every such text the
program and the clients agree on the message: whether its opcode can be read, which status it
is, whether it answers anything at all, where its parameters begin, and whether the flag had to
be cleared. -/
theorem opcode_classified_alike (bytes : Bytes) :
    payloadBytes (Hex.encode bytes) = .ok bytes ∧
      ∀ payload, payloadBytes payload = .ok bytes → Classifies payload bytes := by
  refine ⟨payloadBytes_encode bytes, fun payload hpayload => ?_⟩
  refine ⟨read_opcode_of_payloadBytes hpayload, ?_, ?_, ?_, ?_, ?_⟩
  · rw [listing_eq_error_iff hpayload, unreadable_iff]
  · intro status
    rw [← answer_iff status, ← names_iff hpayload]
    rfl
  · rw [names_other_iff hpayload, unasked_iff]
  · intro lines hlines c hc source e htakes
    obtain ⟨op, width, hdecode, rfl⟩ := (listing_eq_ok_iff hpayload).mp hlines
    obtain ⟨op', width', hdecode', hanswers⟩ :=
      (Client.takes_iff hc.orderly.shaped htakes.1).mp htakes
    rw [hdecode] at hdecode'
    cases hdecode'
    have hlength : (bytes.take width).length = width := by
      rw [List.length_take, Nat.min_eq_left (Opcode.width_of_decode hdecode).2]
    refine ⟨bytes.take width, bytes.drop width, (List.take_append_drop width bytes).symm, ?_, ?_⟩
    · rw [hlength]
      exact op.measures_listing width
    · exact Client.resolves_of_answered hc.orderly.shaped hdecode htakes.1
        (Client.answers_iff.mpr hanswers)
  · intro lines hlines
    obtain ⟨op, width, hdecode, rfl⟩ := (listing_eq_ok_iff hpayload).mp hlines
    refine ⟨op, width, hdecode, fun c hc source correlated hcorrelates => ?_⟩
    rw [eq_reliable_of_correlates hc.orderly.shaped hdecode hcorrelates, Opcode.flags_listing]

/-- The answer to a question about the relay, with the unreliable flag in its opcode. -/
theorem classified_alike_of_flaggedAnswer :
    payloadBytes " 81280125 " = .ok [0x81, 0x28, 0x01, 0x25] ∧
      listing (.opcode " 81280125 ") =
        .ok ["opcode 0x8128 (2 bytes): RelayStatus", "unreliable flag set"] ∧
      ∀ c : Client, c.Reachable → ∀ source, ∀ e ∈ c.table.entries,
        e.awaited.key = ⟨.relay, source⟩ → c.Takes source [0x81, 0x28, 0x01, 0x25] e := by
  have hpayload : payloadBytes " 81280125 " = .ok [0x81, 0x28, 0x01, 0x25] := by rfl
  have hlisting : listing (.opcode " 81280125 ") =
      .ok ["opcode 0x8128 (2 bytes): RelayStatus", "unreliable flag set"] := by rfl
  have halike := (opcode_classified_alike [0x81, 0x28, 0x01, 0x25]).2 _ hpayload
  exact ⟨hpayload, hlisting, (halike.answer .relay).mp ⟨_, hlisting, rfl⟩⟩

end CommandLine

end MeshFoundation
