import MeshFoundation.Proofs.Client.Reply
import MeshFoundation.Proofs.Opcode.Flag
import MeshFoundation.Proofs.Pending.Query

/-!
# Messages that differ in the unreliable flag

The unreliable flag of an opcode is left out of account wherever a message is connected with what
is pending: the client clears it before it asks its table, and the table leaves it aside when it
looks for the request or for the status message that has the opcode. So a table answers alike to an
opcode with the flag and without it, and a client does the very same, down to its counters and
notices, with two messages that differ in the flag alone.

The other bits all count. What a message finds in the table, or takes out of it, stood under the key
of one status message, and the opcode of this is the opcode of the message without the flag, so that
two messages which find the same request have all other bits of their opcodes in common. Both
directions make up the main statement (`Client.flag_makes_no_difference`).
-/

set_option autoImplicit false

namespace MeshFoundation

namespace Pending

variable {a b op op' : Opcode} {node node' : UInt16}

/-! ## Keys -/

theorem Awaited.ofOpcode?_congr (h : a.reliable = b.reliable) (node : UInt16) :
    ofOpcode? a node = ofOpcode? b node := by
  simp only [ofOpcode?, Request.ofOpcode?, h]

theorem Key.ofOpcode?_congr (h : a.reliable = b.reliable) (node : UInt16) :
    ofOpcode? a node = ofOpcode? b node := by
  simp only [ofOpcode?, Status.ofOpcode?, h]

/-- Opcodes of messages with the same key are the same without the flag. -/
theorem Key.reliable_eq_of_ofOpcode? {key : Key} (h : ofOpcode? op node = some key)
    (h' : ofOpcode? op' node' = some key) : op.reliable = op'.reliable := by
  obtain ⟨status, hstatus, rfl⟩ := Option.map_eq_some_iff.mp h
  obtain ⟨status', hstatus', hkey⟩ := Option.map_eq_some_iff.mp h'
  obtain rfl : status' = status := congrArg Key.status hkey
  rw [← Status.ofOpcode?_eq_some_iff.mp hstatus, Status.ofOpcode?_eq_some_iff.mp hstatus']

namespace Table

variable {t : Table} {e : Entry}

/-! ## Tables -/

/-- A table deals alike with an opcode in either state of the flag. -/
structure FlagBlind (t : Table) (now : Nat) (op : Opcode) (node : UInt16) : Prop where
  add : t.add now op.toggled node = t.add now op node
  isBusy : t.isBusy op.toggled node = t.isBusy op node
  find? : t.find? op.toggled node = t.find? op node
  remove : t.remove op.toggled node = t.remove op node

/-- A status message with the given opcode from a node takes a request out of the table. -/
def Resolves (t : Table) (op : Opcode) (node : UInt16) (e : Entry) : Prop :=
  e ∈ t.entries ∧ e ∉ (t.remove op node).2.entries

theorem remove_congr (h : a.reliable = b.reliable) (node : UInt16) :
    t.remove a node = t.remove b node := by
  simp only [remove, Key.ofOpcode?_congr h]

theorem flagBlind (t : Table) (now : Nat) (op : Opcode) (node : UInt16) :
    t.FlagBlind now op node where
  add := by simp only [add, Awaited.ofOpcode?_congr op.reliable_toggled]
  isBusy := by simp only [isBusy, Awaited.ofOpcode?_congr op.reliable_toggled]
  find? := by simp only [find?, Key.ofOpcode?_congr op.reliable_toggled]
  remove := remove_congr op.reliable_toggled node

/-- What is taken out stood in a slot under the key of the message. -/
theorem Resolves.key (h : t.Resolves op node e) {slot : Key × List Entry} (hslot : slot ∈ t.slots)
    (he : e ∈ slot.2) : Key.ofOpcode? op node = some slot.1 := by
  obtain ⟨hpending, hgone⟩ := h
  cases hkey : Key.ofOpcode? op node with
  | none =>
    simp only [remove, hkey] at hgone
    exact absurd hpending hgone
  | some key =>
    simp only [remove, hkey, takeSlot, entries, List.mem_flatMap, List.mem_filter,
      decide_eq_true_eq, not_exists, not_and, and_imp] at hgone
    by_cases hsame : slot.1 = key
    · rw [hsame]
    · exact absurd he (hgone slot hslot hsame)

/-- Messages that take out the same request differ in nothing but the flag of their opcodes. -/
theorem Resolves.sameButFlag (h : t.Resolves op node e) (h' : t.Resolves op' node' e) :
    op.SameButFlag op' := by
  obtain ⟨slot, hslot, he⟩ := List.mem_flatMap.mp h.1
  exact Opcode.reliable_eq_iff.mp
    (Key.reliable_eq_of_ofOpcode? (h.key hslot he) (h'.key hslot he))

/-- What is found in a table stands in it under the key of the message. -/
theorem Shaped.key_of_find? (h : t.Shaped) {awaited : Awaited}
    (hfind : t.find? op node = some awaited) : Key.ofOpcode? op node = some awaited.key := by
  cases hkey : Key.ofOpcode? op node with
  | none =>
    rw [find?, hkey] at hfind
    cases hfind
  | some key =>
    cases hentry : t.entries.find? fun e => e.awaited.key = key with
    | none => simp [find?, hkey, h.slot?_eq, hentry] at hfind
    | some e =>
      have hsame : e.awaited.key = key := by simpa using List.find?_some hentry
      have hfound : e.awaited = awaited := by
        simpa [find?, hkey, h.slot?_eq, hentry] using hfind
      rw [← hsame, hfound]

/-- Messages that find the same request differ in nothing but the flag of their opcodes. -/
theorem Shaped.sameButFlag_of_find? (h : t.Shaped) {awaited : Awaited}
    (hfind : t.find? op node = some awaited) (hfind' : t.find? op' node' = some awaited) :
    op.SameButFlag op' :=
  Opcode.reliable_eq_iff.mp
    (Key.reliable_eq_of_ofOpcode? (h.key_of_find? hfind) (h.key_of_find? hfind'))

end Table

end Pending

namespace Client

open Pending

variable {c : Client} {source : UInt16} {bytes : Bytes} {op : Opcode} {width : Nat} {e : Entry}

/-! ## Clients -/

/-- A client does the same with a message in either state of the flag. -/
theorem receive_toggleFlag (hdecode : Opcode.decode bytes = .ok (op, width)) (hwide : 2 ≤ width)
    (c : Client) (source : UInt16) :
    c.receive source (Opcode.toggleFlag width bytes) = c.receive source bytes := by
  simp only [receive_eq, hdecode, Opcode.decode_toggleFlag hdecode hwide, Opcode.reliable_toggled,
    Opcode.drop_toggleFlag bytes hwide]

/-- A message takes out what a status message with its opcode takes out of the table. -/
theorem resolves_of_receive (he : e ∈ c.table.entries)
    (hgone : e ∉ (c.receive source bytes).2.table.entries) :
    ∃ op width, Opcode.decode bytes = .ok (op, width) ∧ c.table.Resolves op source e := by
  rw [receive_eq] at hgone
  split at hgone
  · exact absurd he hgone
  · rename_i op width hdecode
    refine ⟨op, width, hdecode, he, ?_⟩
    rw [Table.remove_congr op.reliable_reliable.symm source]
    split at hgone
    · exact absurd he hgone
    · rename_i hremove
      rw [hremove]
      exact hgone

/-- A message whose opcode has more than one byte can be read just as well in the other state of
the flag, and every client does exactly the same with it: it gets into the same state, tells the
same, and counts the same. A table deals alike with every opcode and the one in the other state of
the flag. And no two opcodes with a difference elsewhere find the same request in a table or take it
out, nor do messages that have such opcodes take it out of the table of a client. -/
theorem flag_makes_no_difference :
    (∀ (bytes : Bytes) (op : Opcode) (width : Nat), Opcode.decode bytes = .ok (op, width) →
      2 ≤ width →
        Opcode.decode (Opcode.toggleFlag width bytes) = .ok (op.toggled, width) ∧
          ∀ (c : Client) (source : UInt16),
            c.receive source (Opcode.toggleFlag width bytes) = c.receive source bytes) ∧
    (∀ (t : Table) (now : Nat) (op : Opcode) (node : UInt16), t.FlagBlind now op node) ∧
    (∀ (t : Table) (op op' : Opcode) (node node' : UInt16) (e : Entry),
      t.Resolves op node e → t.Resolves op' node' e → op.SameButFlag op') ∧
    (∀ (t : Table) (op op' : Opcode) (node node' : UInt16) (awaited : Awaited), t.Shaped →
      t.find? op node = some awaited → t.find? op' node' = some awaited → op.SameButFlag op') ∧
    ∀ (c : Client) (source source' : UInt16) (bytes bytes' : Bytes), ∀ e ∈ c.table.entries,
      e ∉ (c.receive source bytes).2.table.entries →
      e ∉ (c.receive source' bytes').2.table.entries →
        ∃ op width op' width', Opcode.decode bytes = .ok (op, width) ∧
          Opcode.decode bytes' = .ok (op', width') ∧ op.SameButFlag op' := by
  refine ⟨?_, Table.flagBlind, ?_, ?_, ?_⟩
  · intro bytes op width hdecode hwide
    exact ⟨Opcode.decode_toggleFlag hdecode hwide, receive_toggleFlag hdecode hwide⟩
  · intro t op op' node node' e h h'
    exact h.sameButFlag h'
  · intro t op op' node node' awaited h hfind hfind'
    exact h.sameButFlag_of_find? hfind hfind'
  · intro c source source' bytes bytes' e he hgone hgone'
    obtain ⟨op, width, hdecode, hresolves⟩ := resolves_of_receive he hgone
    obtain ⟨op', width', hdecode', hresolves'⟩ := resolves_of_receive he hgone'
    exact ⟨op, width, op', width', hdecode, hdecode', hresolves.sameButFlag hresolves'⟩

/-- The answer to a question about the relay in both states of the flag. -/
theorem no_difference_of_flaggedAnswer :
    let c := ((Client.new .standard).run twoQuestions).2
    let e : Entry := ⟨1, ⟨.relayGet, 2⟩, 2000⟩
    Opcode.decode [0x80, 0x28, 1, 0x25] = .ok (⟨0x8028⟩, 2) ∧
      Opcode.decode [0x81, 0x28, 1, 0x25] = .ok (⟨0x8128⟩, 2) ∧
      c.receive 2 [0x81, 0x28, 1, 0x25] = c.receive 2 [0x80, 0x28, 1, 0x25] ∧
      e ∈ c.table.entries ∧ e ∉ (c.receive 2 [0x80, 0x28, 1, 0x25]).2.table.entries ∧
      c.table.Resolves ⟨0x8028⟩ 2 e ∧ c.table.Resolves ⟨0x8128⟩ 2 e ∧
      c.table.find? ⟨0x8028⟩ 2 = some e.awaited ∧ c.table.find? ⟨0x8128⟩ 2 = some e.awaited ∧
      Opcode.SameButFlag ⟨0x8028⟩ ⟨0x8128⟩ := by
  intro c e
  have hshaped : c.table.Shaped := (balanced_new_run .standard twoQuestions).table.shaped
  have hdecode : Opcode.decode [0x80, 0x28, 1, 0x25] = .ok (⟨0x8028⟩, 2) := rfl
  have he : e ∈ c.table.entries := by decide
  have hgone : e ∉ (c.receive 2 [0x80, 0x28, 1, 0x25]).2.table.entries := by decide
  have hplain : c.table.Resolves ⟨0x8028⟩ 2 e := ⟨he, by decide⟩
  have hflagged : c.table.Resolves ⟨0x8128⟩ 2 e := ⟨he, by decide⟩
  have hfind : c.table.find? ⟨0x8028⟩ 2 = some e.awaited := hshaped.find?_of_mem he rfl
  obtain ⟨htoggle, hblind, -, hfound, -⟩ := flag_makes_no_difference
  have hfind' : c.table.find? ⟨0x8128⟩ 2 = some e.awaited :=
    (hblind c.table 0 ⟨0x8028⟩ 2).find?.trans hfind
  obtain ⟨hdecode', hreceive⟩ := htoggle _ _ _ hdecode (Nat.le_refl 2)
  exact ⟨hdecode, hdecode', hreceive c 2, he, hgone, hplain, hflagged, hfind, hfind',
    hfound c.table _ _ 2 2 _ hshaped hfind hfind'⟩

end Client

end MeshFoundation
