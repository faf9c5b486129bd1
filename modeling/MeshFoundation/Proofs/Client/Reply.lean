import MeshFoundation.Proofs.Client.Balance

/-!
# What a message does

A message answers a pending request if its opcode can be read and is, apart from the
unreliable flag, that of the status message which answers the request, and if it comes from
the node that the request went to. Any other message is ignored. A message that answers a
request takes this request out of the table and leaves everything else as it was. After that, and
not before, the observer is told of the report that the parameters make, if they make one
(`message_resolves_or_ignored`). Once a message has done so, it means nothing any more.
-/

set_option autoImplicit false

namespace MeshFoundation

open Pending

/-- The key that a message answers, read off the opcode without its flag. -/
theorem Pending.Key.ofOpcode?_reliable {opcode : Opcode} {source : UInt16} {key : Key} :
    Key.ofOpcode? opcode.reliable source = some key ↔
      key.status.opcode = opcode.reliable ∧ key.node = source := by
  rw [Key.ofOpcode?, Option.map_eq_some_iff]
  constructor
  · rintro ⟨status, hstatus, rfl⟩
    rw [Status.ofOpcode?_eq_some_iff, Opcode.reliable_reliable] at hstatus
    exact ⟨hstatus, rfl⟩
  · rintro ⟨hstatus, rfl⟩
    rw [← Opcode.reliable_reliable opcode] at hstatus
    exact ⟨key.status, Status.ofOpcode?_eq_some_iff.mpr hstatus, rfl⟩

namespace Client

variable {c : Client} {source : UInt16} {bytes : Bytes}

/-! ## The two things that a message can do -/

/-- A message changes nothing, and the observer hears nothing of it. -/
structure Ignores (c : Client) (source : UInt16) (bytes : Bytes) : Prop where
  same : (c.receive source bytes).2 = c
  silent : (c.receive source bytes).1.filterMap Effect.event? = []

/-- A message with the given parameters ends the waiting for a request. -/
structure Resolves (c : Client) (source : UInt16) (bytes params : Bytes) (e : Entry) : Prop where
  /-- All other requests stay as they are. -/
  entries : (c.receive source bytes).2.table.entries = c.table.entries.filter fun f => f ≠ e
  /-- Nothing changes but the requests that are pending. -/
  rest : (c.receive source bytes).2 =
    { c with table := { c.table with slots := (c.receive source bytes).2.table.slots } }
  /-- Whoever hears anything of the message finds the client as the message leaves it, so that
  the request is gone by then. -/
  after : (c.takeIn source bytes).1 =
    (c.receive source bytes).2.meanwhile
      ((c.receive source bytes).2.resolve e.awaited.request source params)
  /-- The observer is told once if the parameters make a report, and else not at all. -/
  told : (c.receive source bytes).1.filterMap Effect.event? =
    if c.isObserved then
      ((Report.decode? e.awaited.request.status params).map fun report =>
        (⟨⟨e.awaited.request, source⟩, .reported report⟩ : Event)).toList
    else []
  /-- A report is of the kind that belongs to the request. -/
  kind : ∀ report, Report.decode? e.awaited.request.status params = some report →
    report.status = e.awaited.request.status

theorem ignores_of_unanswered (h : c.table.Shaped)
    (hnone : ∀ opcode width, Opcode.decode bytes = .ok (opcode, width) →
      ∀ e ∈ c.table.entries, Key.ofOpcode? opcode.reliable source ≠ some e.awaited.key) :
    c.Ignores source bytes := by
  have ht := Transition.of_receive h source bytes
  have hboth : (c.receive source bytes).2 = c ∧
      (c.receive source bytes).1.filterMap Effect.event? = [] := by
    generalize (c.receive source bytes).1 = effects at ht ⊢
    generalize (c.receive source bytes).2 = c' at ht ⊢
    cases ht with
    | undecodable => exact ⟨rfl, rfl⟩
    | unsolicited => exact ⟨rfl, rfl⟩
    | answered hdecode hpending hkey => exact absurd hkey (hnone _ _ hdecode _ hpending)
  exact ⟨hboth.1, hboth.2⟩

/-- A message that answers a request takes it out of the table, and then does what its
parameters say. -/
theorem takeIn_of_answered (h : c.table.Shaped) {opcode : Opcode} {width : Nat} {e : Entry}
    (hdecode : Opcode.decode bytes = .ok (opcode, width)) (he : e ∈ c.table.entries)
    (hkey : Key.ofOpcode? opcode.reliable source = some e.awaited.key) :
    let c' := { c with table := c.table.without e.ticket }
    c.takeIn source bytes =
      (c'.meanwhile (c'.resolve e.awaited.request source (bytes.drop width)), c') := by
  simp only [takeIn, hdecode, Table.remove, hkey, h.takeSlot_of_mem he, List.map_cons]

theorem receive_of_answered (h : c.table.Shaped) {opcode : Opcode} {width : Nat} {e : Entry}
    (hdecode : Opcode.decode bytes = .ok (opcode, width)) (he : e ∈ c.table.entries)
    (hkey : Key.ofOpcode? opcode.reliable source = some e.awaited.key) :
    c.receive source bytes =
      (c.resolve e.awaited.request source (bytes.drop width),
        { c with table := c.table.without e.ticket }) := by
  rw [receive, takeIn_of_answered h hdecode he hkey]
  simp only [map_effect_meanwhile]
  rfl

theorem resolves_of_answered (h : c.table.Shaped) {opcode : Opcode} {width : Nat} {e : Entry}
    (hdecode : Opcode.decode bytes = .ok (opcode, width)) (he : e ∈ c.table.entries)
    (hkey : Key.ofOpcode? opcode.reliable source = some e.awaited.key) :
    c.Resolves source bytes (bytes.drop width) e := by
  have hreceive := receive_of_answered h hdecode he hkey
  refine ⟨?_, ?_, ?_, ?_, fun report => Report.status_of_decode?⟩
  · rw [hreceive, h.entries_without]
    apply List.filter_congr
    intro f hf
    have hiff : f.ticket = e.ticket ↔ f = e :=
      ⟨h.eq_of_ticket hf he, fun heq => congrArg Entry.ticket heq⟩
    simp [hiff]
  · rw [hreceive]
    rfl
  · rw [hreceive, takeIn_of_answered h hdecode he hkey]
  · rw [hreceive, events_resolve]

/-- Whoever hears anything of the message finds the table without the request. -/
theorem Resolves.entries_of_mem {params : Bytes} {e : Entry} {m : Moment}
    (hr : c.Resolves source bytes params e) (hm : m ∈ (c.takeIn source bytes).1) :
    m.client.table.entries = c.table.entries.filter fun f => f ≠ e := by
  rw [hr.after] at hm
  obtain ⟨effect, -, rfl⟩ := List.mem_map.mp hm
  exact hr.entries

/-- Once a request is answered, no other one stands under its key. -/
theorem Resolves.key_free {params : Bytes} {e : Entry} (hr : c.Resolves source bytes params e)
    (h : c.table.Shaped) (he : e ∈ c.table.entries) :
    ∀ f ∈ (c.receive source bytes).2.table.entries, f.awaited.key ≠ e.awaited.key := by
  intro f hf hkey
  rw [hr.entries, List.mem_filter] at hf
  exact of_decide_eq_true hf.2 (h.eq_of_key hf.1 he hkey)

/-! ## Messages to a client that went through a run -/

/-- A message whose opcode cannot be read, is that of no status message, or answers no
pending request, is ignored. Any other message ends the waiting for the one request that it
answers. Whatever it did, the same message does nothing right after it. -/
theorem message_resolves_or_ignored (settings : Settings) (hs : List Happening)
    (source : UInt16) (bytes : Bytes) :
    let c := ((Client.new settings).run hs).2
    (∀ fault, Opcode.decode bytes = .error fault → c.Ignores source bytes) ∧
      (∀ opcode width, Opcode.decode bytes = .ok (opcode, width) →
        ((∀ status : Status, status.opcode ≠ opcode.reliable) → c.Ignores source bytes) ∧
        ∀ status : Status, status.opcode = opcode.reliable →
          ((∀ e ∈ c.table.entries, e.awaited.key ≠ ⟨status, source⟩) →
            c.Ignores source bytes) ∧
          ∀ e ∈ c.table.entries, e.awaited.key = ⟨status, source⟩ →
            c.Resolves source bytes (bytes.drop width) e) ∧
      (c.receive source bytes).2.Ignores source bytes := by
  intro c
  have h : c.table.Shaped := (balanced_new_run settings hs).table.shaped
  have hagain : ((Client.new settings).run (hs ++ [.received source bytes])).2 =
      (c.receive source bytes).2 := by
    rw [run_append]
    rfl
  have hafter : (c.receive source bytes).2.table.Shaped := by
    rw [← hagain]
    exact (balanced_new_run settings _).table.shaped
  refine ⟨?_, ?_, ?_⟩
  · intro fault hfault
    apply ignores_of_unanswered h
    intro opcode width hdecode
    rw [hfault] at hdecode
    cases hdecode
  · intro opcode width hdecode
    -- The key that a message answers is the only one that its opcode gives.
    have hopcode : ∀ op w, Opcode.decode bytes = .ok (op, w) → op = opcode := by
      intro op w hop
      rw [hdecode] at hop
      cases hop
      rfl
    refine ⟨?_, ?_⟩
    · intro hunknown
      apply ignores_of_unanswered h
      intro op w hop e _ hkey
      obtain rfl := hopcode op w hop
      exact hunknown _ (Key.ofOpcode?_reliable.mp hkey).1
    · intro status hstatus
      have hkey : Key.ofOpcode? opcode.reliable source = some ⟨status, source⟩ :=
        Key.ofOpcode?_reliable.mpr ⟨hstatus, rfl⟩
      refine ⟨?_, ?_⟩
      · intro hfree
        apply ignores_of_unanswered h
        intro op w hop e he heq
        obtain rfl := hopcode op w hop
        rw [hkey] at heq
        exact hfree e he (Option.some.inj heq).symm
      · intro e he heq
        rw [← heq] at hkey
        exact resolves_of_answered h hdecode he hkey
  · apply ignores_of_unanswered hafter
    intro opcode width hdecode f hf hkey
    -- Either the message answered a request under this key, or there was none before.
    by_cases hanswered : ∃ e ∈ c.table.entries, e.awaited.key = f.awaited.key
    · obtain ⟨e, he, heq⟩ := hanswered
      have hr := resolves_of_answered h hdecode he (by rw [hkey, heq])
      exact hr.key_free h he f hf heq.symm
    · push Not at hanswered
      have hignored : c.Ignores source bytes := by
        apply ignores_of_unanswered h
        intro op w hop e he heq
        rw [hdecode] at hop
        cases hop
        rw [hkey] at heq
        exact hanswered e he (Option.some.inj heq).symm
      rw [hignored.same] at hf
      exact hanswered f hf rfl

/-- Two requests to one node that await different answers. -/
def twoQuestions : List Happening := [.called 0 .getRelay 2, .called 5 .getBeacon 2]

/-- The unreliable flag is set in the opcode of the answer to the first of them. When the observer
is told of it, only the second one is pending. -/
theorem flagged_answer_resolves :
    let c := ((Client.new .standard).run twoQuestions).2
    let answer : Bytes := [0x81, 0x28, 1, 0x25]
    Opcode.decode answer = .ok (⟨0x8128⟩, 2) ∧
      Status.relay.opcode = (⟨0x8128⟩ : Opcode).reliable ∧
      c.Resolves 2 answer [1, 0x25] ⟨1, ⟨.relayGet, 2⟩, 2000⟩ ∧
      (c.receive 2 answer).2.table.entries = [⟨2, ⟨.beaconGet, 2⟩, 2005⟩] ∧
      (∀ m ∈ (c.takeIn 2 answer).1, m.client.table.entries = [⟨2, ⟨.beaconGet, 2⟩, 2005⟩]) ∧
      (c.receive 2 answer).1.filterMap Effect.event? =
        [⟨⟨.relayGet, 2⟩, .reported (.relay .enabled ⟨5, 50⟩)⟩] ∧
      (c.receive 2 answer).2.Ignores 2 answer := by
  intro c answer
  have hdecode : Opcode.decode answer = .ok (⟨0x8128⟩, 2) := by decide
  have hstatus : Status.relay.opcode = (⟨0x8128⟩ : Opcode).reliable := by decide
  obtain ⟨-, hreadable, hagain⟩ := message_resolves_or_ignored .standard twoQuestions 2 answer
  have hr := ((hreadable _ _ hdecode).2 _ hstatus).2 ⟨1, ⟨.relayGet, 2⟩, 2000⟩ (by decide) rfl
  refine ⟨hdecode, hstatus, hr, hr.entries.trans (by decide), ?_, hr.told.trans (by decide), hagain⟩
  intro m hm
  exact (hr.entries_of_mem hm).trans (by decide)

end Client

end MeshFoundation
