import MeshFoundation.Proofs.Pending.Wakeup

/-!
# Asking a table beforehand

Whoever holds a table can ask it whether a request would be refused as busy, and which
request an answer would take out. A question gets to the key on a way of its own, from a
request to the status message that answers it or from the status message itself, and looks
no further than it has to: at whether the key has a slot, or at the first request in that
slot. The operation takes in the whole slot. The two agree in the tables that a run
reaches, for there a slot holds one request and never none.

Main statement:

* `queries_foretell`: in every state that a run reaches, each question to the table has
  the answer that the operation would have.
-/

set_option autoImplicit false

namespace MeshFoundation.Pending

variable {op : Opcode} {node : UInt16} {request : Request} {awaited : Awaited} {status : Status}

theorem Awaited.ofOpcode?_eq_some_iff :
    Awaited.ofOpcode? op node = some awaited ↔
      awaited.request.opcode = op.reliable ∧ awaited.node = node := by
  rw [Awaited.ofOpcode?, Option.map_eq_some_iff]
  constructor
  · rintro ⟨request, hrequest, rfl⟩
    exact ⟨Request.ofOpcode?_eq_some_iff.mp hrequest, rfl⟩
  · rintro ⟨hrequest, rfl⟩
    exact ⟨awaited.request, Request.ofOpcode?_eq_some_iff.mpr hrequest, rfl⟩

theorem Awaited.ofOpcode?_eq_none_iff :
    Awaited.ofOpcode? op node = none ↔ ∀ request : Request, request.opcode ≠ op.reliable := by
  rw [Awaited.ofOpcode?, Option.map_eq_none_iff, Request.ofOpcode?_eq_none_iff]

theorem Key.ofOpcode?_of_opcode (hstatus : status.opcode = op.reliable) (node : UInt16) :
    Key.ofOpcode? op node = some ⟨status, node⟩ := by
  rw [Key.ofOpcode?, Status.ofOpcode?_eq_some_iff.mpr hstatus]
  rfl

namespace Table

variable {t t' : Table} {now : Nat}

/-! ## Recording -/

/-- A message that nothing answers is not recorded. -/
theorem add_of_none (hop : Awaited.ofOpcode? op node = none) :
    t.add now op node = (.untracked, t) := by
  simp only [add, hop]

/-- A request is refused if its key has a slot. -/
theorem add_of_taken (hop : Awaited.ofOpcode? op node = some awaited)
    (htaken : (t.slot? awaited.key).isSome = true) :
    t.add now op node = (.busy awaited, t) := by
  obtain ⟨slot, hslot⟩ := Option.isSome_iff_exists.mp htaken
  simp only [add, hop, record?, hslot]

/-- A request whose key has no slot is recorded. -/
theorem Shaped.add_of_free (h : t.Shaped) (hop : Awaited.ofOpcode? op node = some awaited)
    (hfree : t.slot? awaited.key = none) (now : Nat) :
    ∃ t', t.add now op node = (.admitted (t.nextEntry now awaited).ticket, t') ∧ t'.Shaped ∧
      t'.entries = t.nextEntry now awaited :: t.entries := by
  have hrecord : t.record? now awaited = some _ :=
    h.record?_eq_some_iff.mpr ⟨h.slot?_eq_none_iff.mp hfree, rfl, rfl⟩
  refine ⟨_, ?_, h.record hrecord⟩
  simp only [add, hop, hrecord]

/-- A table answers that a request is busy exactly if its key has a slot. -/
theorem isBusy_of_some (hop : Awaited.ofOpcode? op node = some awaited) :
    t.isBusy op node = (t.slot? awaited.key).isSome := by
  simp only [isBusy, hop]

/-- A request is said to be busy exactly if it would be refused. -/
theorem isBusy_iff_add (t : Table) (now : Nat) (op : Opcode) (node : UInt16) :
    t.isBusy op node = true ↔ ∃ refused, (t.add now op node).1 = .busy refused := by
  cases hop : Awaited.ofOpcode? op node with
  | none => simp [isBusy, add, hop]
  | some awaited =>
    rw [isBusy_of_some hop]
    constructor
    · intro htaken
      exact ⟨awaited, by rw [add_of_taken hop htaken]⟩
    · rintro ⟨refused, hbusy⟩
      cases hslot : t.slot? awaited.key with
      | none => simp [add, hop, record?, hslot] at hbusy
      | some slot => rfl

/-- Recording does nothing exactly if the opcode is that of no request. -/
theorem add_untracked_iff (t : Table) (now : Nat) (op : Opcode) (node : UInt16) :
    t.add now op node = (.untracked, t) ↔
      ∀ request : Request, request.opcode ≠ op.reliable := by
  have hnone : Awaited.ofOpcode? op node = none ↔ _ := Awaited.ofOpcode?_eq_none_iff
  rw [← hnone]
  constructor
  · intro hadd
    cases hop : Awaited.ofOpcode? op node with
    | none => rfl
    | some awaited =>
      cases hslot : t.slot? awaited.key <;> simp [add, hop, record?, hslot] at hadd
  · exact add_of_none

/-! ## Taking out -/

/-- What an answer takes out is the request that it was said to be for, if there is one,
and nothing else. -/
theorem Shaped.remove_eq_toList (h : t.Shaped) (op : Opcode) (node : UInt16) :
    (t.remove op node).1 = (t.find? op node).toList := by
  cases hkey : Key.ofOpcode? op node with
  | none => simp [remove, find?, hkey]
  | some key =>
    have hslot := h.slot?_eq key
    cases hentry : t.entries.find? fun e => e.awaited.key = key with
    | none =>
      rw [hentry] at hslot
      simp [remove, find?, takeSlot, hkey, hslot]
    | some e =>
      rw [hentry] at hslot
      simp [remove, find?, takeSlot, hkey, hslot]

/-- An answer that is for no request takes out none. -/
theorem Shaped.remove_of_free (h : t.Shaped)
    (hfree : ∀ e ∈ t.entries, Key.ofOpcode? op node ≠ some e.awaited.key) :
    t.remove op node = ([], t) := by
  cases hkey : Key.ofOpcode? op node with
  | none => simp only [remove, hkey]
  | some key =>
    have hother : ∀ e ∈ t.entries, e.awaited.key ≠ key := by
      rintro e he rfl
      exact hfree e he hkey
    simp only [remove, hkey, h.takeSlot_of_free hother, List.map_nil]

/-- The request under a key is found by every opcode of the status message that answers
it. -/
theorem Shaped.find?_of_mem (h : t.Shaped) {e : Entry} (he : e ∈ t.entries)
    (hstatus : e.awaited.request.status.opcode = op.reliable) :
    t.find? op e.awaited.node = some e.awaited := by
  have hslot : t.slot? ⟨e.awaited.request.status, e.awaited.node⟩ = some [e] := h.slot?_of_mem he
  simp [find?, Key.ofOpcode?_of_opcode hstatus, hslot]

theorem slot?_takeSlot (t : Table) (key : Key) : (t.takeSlot key).2.slot? key = none := by
  simp [takeSlot, slot?]

/-- Once an answer has come, no request is busy that it could have been for. -/
theorem isBusy_remove (t : Table) {asked : Opcode}
    (hstatus : request.status.opcode = op.reliable) (hasked : request.opcode = asked.reliable) :
    (t.remove op node).2.isBusy asked node = false := by
  have hremove : (t.remove op node).2 = (t.takeSlot ⟨request.status, node⟩).2 := by
    simp only [remove, Key.ofOpcode?_of_opcode hstatus]
  have hop : Awaited.ofOpcode? asked node = some ⟨request, node⟩ :=
    Awaited.ofOpcode?_eq_some_iff.mpr ⟨hasked, rfl⟩
  have hfree : (t.takeSlot ⟨request.status, node⟩).2.slot? (Awaited.key ⟨request, node⟩) = none :=
    t.slot?_takeSlot _
  rw [isBusy_of_some hop, hremove, hfree]
  rfl

/-- A request that was recorded is found by its answer. -/
theorem Shaped.find?_of_add (h : t.Shaped) {ticket : Ticket}
    (hadd : t.add now op node = (.admitted ticket, t')) :
    ∃ request : Request, request.opcode = op.reliable ∧
      ∀ answer : Opcode, answer.reliable = request.status.opcode →
        t'.find? answer node = some ⟨request, node⟩ := by
  cases hop : Awaited.ofOpcode? op node with
  | none => simp [add, hop] at hadd
  | some awaited =>
    obtain ⟨hrequest, hnode⟩ := Awaited.ofOpcode?_eq_some_iff.mp hop
    cases hslot : t.slot? awaited.key with
    | some slot => simp [add, hop, record?, hslot] at hadd
    | none =>
      obtain ⟨recorded, hrecorded, hshaped, hentries⟩ := h.add_of_free hop hslot now
      obtain rfl : recorded = t' := congrArg Prod.snd (hrecorded.symm.trans hadd)
      have hmem : t.nextEntry now awaited ∈ recorded.entries := by
        rw [hentries]
        exact List.mem_cons_self
      refine ⟨awaited.request, hrequest, fun answer hanswer => ?_⟩
      subst hnode
      exact hshaped.find?_of_mem hmem hanswer.symm

/-! ## Questions and operations -/

/-- The questions to a table, asked with an opcode and a node, have the answers that the
operations would have at the given time. -/
structure Foretells (t : Table) (now : Nat) (op : Opcode) (node : UInt16) : Prop where
  /-- A request is said to be busy exactly if it would be refused. -/
  busy : t.isBusy op node = true ↔ ∃ refused, (t.add now op node).1 = .busy refused
  /-- Nothing is recorded and nothing changed exactly if the opcode without its flag is that
  of no request. -/
  untracked : t.add now op node = (.untracked, t) ↔
    ∀ request : Request, request.opcode ≠ op.reliable
  /-- The request that an answer is said to be for is what it would take out. -/
  found : ∀ awaited, t.find? op node = some awaited ↔ (t.remove op node).1 = [awaited]
  /-- An answer is said to be for no request exactly if it would take out none. -/
  notFound : t.find? op node = none ↔ (t.remove op node).1 = []
  /-- After an answer, no request is busy that the same status message answers. -/
  freed : ∀ request : Request, request.status.opcode = op.reliable →
    ∀ asked : Opcode, asked.reliable = request.opcode →
      (t.remove op node).2.isBusy asked node = false
  /-- After a request was recorded, its answer is said to be for it. -/
  recorded : ∀ ticket t', t.add now op node = (.admitted ticket, t') →
    ∃ request : Request, request.opcode = op.reliable ∧
      ∀ answer : Opcode, answer.reliable = request.status.opcode →
        t'.find? answer node = some ⟨request, node⟩

theorem Shaped.foretells (h : t.Shaped) (now : Nat) (op : Opcode) (node : UInt16) :
    t.Foretells now op node where
  busy := t.isBusy_iff_add now op node
  untracked := t.add_untracked_iff now op node
  found awaited := by
    rw [h.remove_eq_toList]
    cases t.find? op node <;> simp
  notFound := by
    rw [h.remove_eq_toList, Option.toList_eq_nil_iff]
  freed _ hstatus _ hasked := t.isBusy_remove hstatus hasked.symm
  recorded _ _ hadd := h.find?_of_add hadd

end Table

namespace Watch

/-- In every state that a run reaches, with every opcode, flagged or not and tracked or not,
and every node, the questions to the table have the answers that the operations would
have. -/
theorem queries_foretell (timeout : Nat) (moves : List Move) (now : Nat) (op : Opcode)
    (node : UInt16) : ((start timeout).run moves).2.table.Foretells now op node :=
  (balanced_start_run timeout moves).shaped.foretells now op node

/-- A run with two requests under one key, the second of which is made by the hook when the
time of the first has run out. Both opcodes have the unreliable flag. -/
def flaggedRequests : List Move :=
  [.act ⟨0, .add ⟨0x810C⟩ 2⟩, .wake 2000 0 [⟨2000, .add ⟨0x810D⟩ 2⟩]]

theorem queries_foretell_after_flaggedRequests :
    let t := ((start 2000).run flaggedRequests).2.table
    (∃ refused, (t.add 2100 ⟨0x800C⟩ 2).1 = .busy refused) ∧
      (t.remove ⟨0x810E⟩ 2).1 = [⟨.defaultTtlSet, 2⟩] ∧
      (t.remove ⟨0x800E⟩ 2).2.isBusy ⟨0x810C⟩ 2 = false := by
  intro t
  have hasked := queries_foretell 2000 flaggedRequests 2100 ⟨0x800C⟩ 2
  have hanswer := queries_foretell 2000 flaggedRequests 2100 ⟨0x810E⟩ 2
  have hplain := queries_foretell 2000 flaggedRequests 2100 ⟨0x800E⟩ 2
  exact ⟨hasked.busy.mp (by decide), (hanswer.found _).mp (by decide),
    hplain.freed .defaultTtlGet (by decide) ⟨0x810C⟩ (by decide)⟩

end Watch

end MeshFoundation.Pending
