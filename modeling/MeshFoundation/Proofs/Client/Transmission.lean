import Mathlib.Data.List.Pairwise
import MeshFoundation.Proofs.Client.SendFailure
import MeshFoundation.Proofs.Client.Standing

/-!
# What goes out

The transport gets a message in one kind of step alone, in which the request of the message
is recorded. The table is thus a gate for everything that goes out: a call that is refused
sends nothing, and a request whose answer is awaited already has to leave the table before
another one goes out that awaits the same answer.

A request that was sent is unresolved as long as it did not depart. The unresolved requests
are those that the table holds (`unresolved_perm`), so no two of them await the same status
message from the same node.
-/

set_option autoImplicit false

namespace MeshFoundation

open Pending

/-- What the transport should get of a call that is admitted. -/
def Call.handOver (call : Call) : Nat × Message := (call.number, call.message)

namespace Client

/-- The messages that the transport gets in a stage. -/
def Stage.handOvers (s : Stage) : List (Nat × Message) := s.effects.filterMap Effect.handOver?

/-- A call is made in a stage, under a key that is free, its request is recorded, and its message
goes out, to the node and with the payload that was asked for. -/
structure Stage.Admits (s : Stage) (call : Call) : Prop where
  asked : ∃ now op, s.happening = .called now op call.message.destination ∧
    call.request = op.request ∧ op.payload call.message.destination = .ok call.message.payload
  number : call.number = s.before.next
  key : call.ticket.key = ⟨call.request.status, call.message.destination⟩
  free : ∀ e ∈ s.before.table.entries, e.awaited.key ≠ call.ticket.key
  recorded : ∃ e, e.ticket = call.ticket ∧ e.awaited = ⟨call.request, call.message.destination⟩ ∧
    s.after.table.entries = e :: s.before.table.entries
  sent : s.effects = [.handedOver call.number call.message]

/-- The calls of a run that were admitted and whose requests did not depart after that. -/
def unresolved (c : Client) : List Happening → List Call
  | [] => []
  | first :: rest =>
    let s : Stage := ⟨c, first, (c.step first).1, (c.step first).2⟩
    (s.admitted.filter fun call => call.ticket ∉ (s.after.departures rest).map Departure.ticket) ++
      s.after.unresolved rest

variable {c c' : Client} {s : Stage} {happening : Happening} {effects : List Effect}
  {hs : List Happening} {admitted : List Call} {left : List Ticket}

/-! ## What goes out in one step -/

theorem handOvers_tell (c : Client) (event : Event) :
    (c.tell event).filterMap Effect.handOver? = [] := by
  unfold tell
  split <;> rfl

theorem handOvers_resolve (c : Client) (request : Request) (source : UInt16) (params : Bytes) :
    (c.resolve request source params).filterMap Effect.handOver? = [] := by
  unfold resolve
  rw [List.filterMap_append, filterMap_noted fun _ => rfl, List.nil_append]
  cases Report.decode? request.status params with
  | none => rfl
  | some report => exact handOvers_tell c ⟨⟨request, source⟩, .reported report⟩

/-- In a step nothing goes out and no call is admitted, or one call is. -/
theorem Balanced.handOvers_cases (h : c.Balanced admitted left)
    (ht : c.Transition happening effects c') :
    let s : Stage := ⟨c, happening, effects, c'⟩
    (s.handOvers = [] ∧ s.admitted = []) ∨ ∃ call, s.admitted = [call] ∧ s.Admits call := by
  intro s
  have hkept (hcalls : c'.calls.Sublist c.calls) : s.admitted = [] :=
    Stage.admitted_of_sublist hcalls
  have hrefl := List.Sublist.refl c.calls
  cases ht with
  | rejected => exact .inl ⟨rfl, hkept hrefl⟩
  | busy => exact .inl ⟨rfl, hkept hrefl⟩
  | @admitted now op node payload ticket table hpayload hrecord =>
    obtain ⟨hfree, hticket, -⟩ := h.table.shaped.record?_eq_some_iff.mp hrecord
    refine .inr ⟨_, h.admitted_of_entered rfl rfl, ?_⟩
    exact
      { asked := ⟨now, op, rfl, rfl, hpayload⟩
        number := rfl
        key := by rw [hticket]; rfl
        free := by rw [hticket]; exact hfree
        recorded := ⟨_, hticket.symm, rfl, (h.table.shaped.record hrecord).2⟩
        sent := rfl }
  | sent => exact .inl ⟨rfl, hkept List.filter_sublist⟩
  | failed => exact .inl ⟨rfl, hkept List.filter_sublist⟩
  | unawaited => exact .inl ⟨rfl, hkept hrefl⟩
  | aborted => exact .inl ⟨rfl, hkept List.filter_sublist⟩
  | undecodable => exact .inl ⟨rfl, hkept hrefl⟩
  | unsolicited => exact .inl ⟨rfl, hkept hrefl⟩
  | answered => exact .inl ⟨handOvers_resolve _ _ _ _, hkept hrefl⟩
  | timedOut => exact .inl ⟨handOvers_tell _ _, hkept hrefl⟩
  | stale => exact .inl ⟨rfl, hkept hrefl⟩
  | unobserved => exact .inl ⟨rfl, hkept hrefl⟩
  | closed => exact .inl ⟨rfl, hkept hrefl⟩

/-! ## Refused calls send nothing -/

/-- A call that comes back with any failure but one of the transport comes back in the step
in which it is made, and nothing goes out in that step. -/
theorem Transition.refused_of_returned (ht : c.Transition happening effects c') {number : Nat}
    {failure : Failure} (hreturned : .returned number (some failure) ∈ effects)
    (hrefused : ∀ error, failure ≠ .transport error) :
    number = c.next ∧ (∃ now op node, happening = .called now op node) ∧
      effects.filterMap Effect.handOver? = [] := by
  cases ht with
  | rejected =>
    simp only [List.mem_singleton, Effect.returned.injEq] at hreturned
    exact ⟨hreturned.1, ⟨_, _, _, rfl⟩, rfl⟩
  | busy =>
    simp only [List.mem_cons, reduceCtorEq, List.not_mem_nil, or_false, false_or,
      Effect.returned.injEq] at hreturned
    exact ⟨hreturned.1, ⟨_, _, _, rfl⟩, rfl⟩
  | @failed call error hwaiting =>
    simp only [List.mem_cons, reduceCtorEq, List.not_mem_nil, or_false, false_or,
      Effect.returned.injEq, Option.some.injEq] at hreturned
    exact absurd hreturned.2 (hrefused error)
  | answered => exact absurd hreturned (returned_not_mem_resolve _ _ _)
  | timedOut =>
    unfold tell at hreturned
    cases hobserved : c.isObserved <;> simp [hobserved] at hreturned
  | _ => simp at hreturned

theorem Transition.next_of_called {now : Nat} {op : Operation} {node : UInt16}
    (ht : c.Transition (.called now op node) effects c') : c'.next = c.next + 1 := by
  cases ht <;> rfl

/-- The numbers of calls only go up in a run. -/
theorem Balanced.stages_ordered (h : c.Balanced admitted left) :
    (∀ s ∈ c.stages hs, c.next ≤ s.before.next) ∧
      (c.stages hs).Pairwise fun s s' => s.after.next ≤ s'.before.next := by
  induction hs generalizing c admitted left with
  | nil => exact ⟨nofun, List.Pairwise.nil⟩
  | cons first rest ih =>
    have hp := (transition_of_step h.table.shaped first).passage h.table.shaped
    have hle : c.next ≤ (c.step first).2.next := by
      cases hp with
      | quiet _ _ hnext => exact hnext
      | entered _ _ _ _ hnext => exact hnext ▸ Nat.le_succ _
      | left _ _ hnext => exact hnext
    obtain ⟨hlater, hordered⟩ := ih (Balanced.stage h hp)
    refine ⟨?_, List.pairwise_cons.mpr ⟨hlater, hordered⟩⟩
    intro s hs'
    rcases List.mem_cons.mp hs' with rfl | hrest
    · exact Nat.le_refl _
    · exact Nat.le_trans hle (hlater s hrest)

/-- Of two stages of a run one comes before the other. -/
theorem Balanced.stages_apart (h : c.Balanced admitted left) {r : Stage}
    (hs' : s ∈ c.stages hs) (hr' : r ∈ c.stages hs) (hne : s ≠ r) :
    s.after.next ≤ r.before.next ∨ r.after.next ≤ s.before.next := by
  have hsymm : Std.Symm fun s r : Stage =>
      s.after.next ≤ r.before.next ∨ r.after.next ≤ s.before.next := ⟨fun _ _ => Or.symm⟩
  have hordered : (c.stages hs).Pairwise fun s r =>
      s.after.next ≤ r.before.next ∨ r.after.next ≤ s.before.next :=
    h.stages_ordered.2.imp Or.inl
  exact hordered.forall hs' hr' hne

/-- No message of a refused call goes out, neither when it is made nor at any other time. -/
theorem not_handedOver_of_refused {settings : Settings} {number : Nat} {failure : Failure}
    (hreturned : .returned number (some failure) ∈ ((Client.new settings).run hs).1)
    (hrefused : ∀ error, failure ≠ .transport error) (message : Message) :
    .handedOver number message ∉ ((Client.new settings).run hs).1 := by
  intro hsent
  rw [effects_run] at hreturned hsent
  obtain ⟨s, hs', hreturned⟩ := List.mem_flatMap.mp hreturned
  obtain ⟨r, hr', hsent⟩ := List.mem_flatMap.mp hsent
  obtain ⟨hts, -⟩ := balanced_of_mem_stages hs'
  obtain ⟨htr, _, _, _, hbalanced⟩ := balanced_of_mem_stages hr'
  obtain ⟨hnumber, ⟨_, _, _, hcalled⟩, hnothing⟩ := hts.refused_of_returned hreturned hrefused
  have hnexts : s.after.next = s.before.next + 1 := (hcalled ▸ hts).next_of_called
  -- The call whose message went out was made in a stage of its own, with the same number.
  have hmem : (number, message) ∈ r.handOvers := List.mem_filterMap.mpr ⟨_, hsent, rfl⟩
  rcases hbalanced.handOvers_cases htr with ⟨hnone, -⟩ | ⟨call, -, hcall⟩
  · rw [hnone] at hmem
    cases hmem
  · obtain ⟨_, _, hcalled', -⟩ := hcall.asked
    have hnextr : r.after.next = r.before.next + 1 := (hcalled' ▸ htr).next_of_called
    have hsame : number = r.before.next := by
      rw [hcall.sent, List.mem_singleton] at hsent
      cases hsent
      exact hcall.number
    have hne : s ≠ r := by
      rintro rfl
      rw [Stage.handOvers, hnothing] at hmem
      cases hmem
    have heither := (Balanced.new settings).stages_apart hs' hr' hne
    omega

/-! ## A key is free before it is used again -/

theorem exists_of_stages_eq_append {xs ys : List Stage} (hstages : c.stages hs = xs ++ ys) :
    ∃ earlier later, hs = earlier ++ later ∧ c.stages earlier = xs ∧
      (c.run earlier).2.stages later = ys := by
  induction xs generalizing c hs with
  | nil => exact ⟨[], hs, rfl, rfl, hstages⟩
  | cons x xs ih =>
    cases hs with
    | nil => cases hstages
    | cons first rest =>
      obtain ⟨hfirst, hrest⟩ := List.cons.inj hstages
      obtain ⟨earlier, later, rfl, hxs, hys⟩ := ih hrest
      exact ⟨first :: earlier, later, rfl, by rw [← hfirst, ← hxs]; rfl, hys⟩

/-- Before a request goes out under the key of a pending one, the pending one departs. -/
theorem Balanced.departed_before_admission (h : c.Balanced admitted left) {e : Entry}
    (he : e ∈ c.table.entries) {between later : List Stage}
    (hstages : c.stages hs = between ++ s :: later) {call : Call} (hcall : s.Admits call)
    (hkey : call.ticket.key = e.awaited.key) :
    ∃ d ∈ between.flatMap Stage.departures, d.ticket = e.ticket := by
  induction between generalizing c hs admitted left with
  | nil =>
    cases hs with
    | nil => cases hstages
    | cons first rest =>
      obtain ⟨rfl, -⟩ := List.cons.inj hstages
      exact absurd hkey.symm (hcall.free e he)
  | cons stage between ih =>
    cases hs with
    | nil => cases hstages
    | cons first rest =>
      obtain ⟨rfl, hrest⟩ := List.cons.inj hstages
      have hp := (transition_of_step h.table.shaped first).passage h.table.shaped
      by_cases hstays : e ∈ (c.step first).2.table.entries
      · obtain ⟨d, hd, hticket⟩ := ih (h.stage hp) hstays hrest
        exact ⟨d, List.mem_append_right _ hd, hticket⟩
      · have hgone : e ∈ Stage.gone ⟨c, first, (c.step first).1, (c.step first).2⟩ :=
          List.mem_filter.mpr ⟨he, decide_eq_true hstays⟩
        rw [← hp.entries_departures h.table.shaped] at hgone
        obtain ⟨d, hd, rfl⟩ := List.mem_map.mp hgone
        exact ⟨d, List.mem_append_left _ hd, rfl⟩

/-! ## The table holds the unresolved requests -/

theorem Balanced.tickets_stage (h : s.before.Balanced admitted left) (hp : s.Passage) :
    s.after.table.tickets.Perm
      ((s.before.table.tickets.filter fun t => t ∉ s.departures.map Departure.ticket) ++
        s.admitted.map Call.ticket) := by
  have hshaped := h.table.shaped
  have hkept (p : Key × List Entry → Bool) (htable : s.after.table = s.before.table.keep p) :
      s.after.table.tickets =
        s.before.table.tickets.filter fun t => t ∉ s.gone.map Entry.ticket := by
    rw [Table.tickets, Table.tickets, List.filter_map, htable, hshaped.entries_keep]
    congr 1
    apply List.filter_congr
    intro e he
    have hiff : e.ticket ∈ s.gone.map Entry.ticket ↔ p e.slot = false := by
      rw [Stage.gone, htable, hshaped.missing_keep, List.mem_map]
      constructor
      · rintro ⟨f, hf, hticket⟩
        rw [List.mem_filter] at hf
        rw [← hshaped.eq_of_ticket hf.1 he hticket]
        simpa using hf.2
      · intro hp
        exact ⟨e, List.mem_filter.mpr ⟨he, by simp [hp]⟩, rfl⟩
    simp only [Function.comp_apply, hiff]
    simp
  rw [hp.tickets_departures hshaped]
  cases hp with
  | quiet htable hcalls =>
    rw [Stage.admitted_of_sublist hcalls, List.map_nil, List.append_nil,
      hkept _ (htable.trans s.before.table.keep_true.symm)]
  | entered call hrecord hcalls hnumber =>
    obtain ⟨-, hticket, -⟩ := hshaped.record?_eq_some_iff.mp hrecord
    rw [h.admitted_of_entered hcalls hnumber, Stage.gone, hshaped.missing_record hrecord,
      Table.tickets, (hshaped.record hrecord).2, List.map_cons, ← hticket, ← Table.tickets]
    simpa using (List.perm_append_singleton call.ticket s.before.table.tickets).symm
  | left htable hcalls =>
    rw [Stage.admitted_of_sublist hcalls, List.map_nil, List.append_nil, hkept _ htable]

/-- After a run the table holds what it held before and did not depart, and the requests
that are unresolved. -/
theorem Balanced.tickets_run (h : c.Balanced admitted left) (hs : List Happening) :
    (c.run hs).2.table.tickets.Perm
      ((c.table.tickets.filter fun t => t ∉ (c.departures hs).map Departure.ticket) ++
        (c.unresolved hs).map Call.ticket) := by
  induction hs generalizing c admitted left with
  | nil => simp [Client.run, departures, stages, unresolved]
  | cons first rest ih =>
    have hp := (transition_of_step h.table.shaped first).passage h.table.shaped
    have hrest := ih (Balanced.stage h hp)
    refine hrest.trans ?_
    have hstage := (Balanced.tickets_stage h hp).filter fun t =>
      t ∉ ((c.step first).2.departures rest).map Departure.ticket
    refine (hstage.append_right _).trans ?_
    simp only [unresolved, departures, stages, List.flatMap_cons, List.map_append,
      List.filter_append, List.filter_filter, List.filter_map, List.mem_append, not_or,
      Function.comp_def, List.append_assoc, Bool.decide_and, Bool.and_comm]
    exact List.Perm.refl _

theorem unresolved_perm (settings : Settings) (hs : List Happening) :
    (((Client.new settings).unresolved hs).map Call.ticket).Perm
      ((Client.new settings).run hs).2.table.tickets :=
  ((Balanced.new settings).tickets_run hs).symm

/-! ## The table gates the transport -/

/-- What leaves the table while the client is open was answered or timed out, or the
transport failed to send its own message. -/
theorem fate_of_departed {settings : Settings} {call : Call}
    (hcall : call ∈ (Client.new settings).admissions hs) {d : Departure}
    (hd : d ∈ (Client.new settings).departures hs) (hticket : d.ticket = call.ticket) :
    (d.fate = .discarded → .closed ∈ hs) ∧
      (((Client.new settings).admissions hs).length < 2 ^ 64 →
        ∀ number error, d.fate = .withdrawn number error → number = call.number) := by
  refine ⟨?_, ?_⟩
  · intro hdiscarded
    obtain ⟨s, hs', hstage⟩ := List.mem_flatMap.mp hd
    have hfate := (Stage.fate_of_mem_departures hstage).2
    obtain ⟨earlier, later, rfl, -⟩ := exists_of_mem_stages hs'
    rw [hdiscarded] at hfate
    have hclosed : s.happening = .closed := by
      cases hhappening : s.happening with
      | closed => rfl
      | finished number error? =>
        rw [hhappening] at hfate
        cases error? <;> cases hfate
      | _ =>
        rw [hhappening] at hfate
        cases hfate
    simp [hclosed]
  · intro hfew number error hwithdrawn
    have hstanding : .departed (.withdrawn number error) ∈
        (Client.new settings).standings hs call.ticket :=
      departed_mem_standings_iff.mpr ⟨d, hd, hticket, hwithdrawn⟩
    obtain ⟨own, hown, hnumber, hsame⟩ := own_of_withdrawn_standing hstanding
    have hnodup : (((Client.new settings).admissions hs).map Call.ticket).Nodup :=
      (balanced_new_run settings hs).table.issued_nodup (by simpa using hfew)
    rw [← hnumber, List.inj_on_of_nodup_map hnodup hown hcall hsame]

/-- The transport gets the messages of admitted calls and no others, each in the step in
which its own call is admitted, and each once. A call that is refused for any reason but a
failure of the transport sends nothing. Between two messages that await the same answer the
request of the first one leaves the table: by an answer, because its time runs out, or
because its own sending fails. At no time do two unresolved requests await the same answer. -/
theorem transport_gated_by_table (settings : Settings) (hs : List Happening) :
    let c := Client.new settings
    (∀ s ∈ c.stages hs, s.handOvers = s.admitted.map Call.handOver ∧
      ∀ call ∈ s.admitted, s.Admits call) ∧
    ((c.run hs).1.filterMap Effect.handOver? = (c.admissions hs).map Call.handOver ∧
      ((c.admissions hs).map Call.number).Nodup) ∧
    (∀ number failure, .returned number (some failure) ∈ (c.run hs).1 →
      (∀ error, failure ≠ .transport error) →
      ∀ message, .handedOver number message ∉ (c.run hs).1) ∧
    (∀ earlier s between s' later, c.stages hs = earlier ++ s :: (between ++ s' :: later) →
      ∀ first ∈ s.admitted, ∀ second ∈ s'.admitted, first.ticket.key = second.ticket.key →
        ∃ d ∈ between.flatMap Stage.departures, d.ticket = first.ticket ∧
          (d.fate = .discarded → .closed ∈ hs) ∧
          ((c.admissions hs).length < 2 ^ 64 →
            ∀ number error, d.fate = .withdrawn number error → number = first.number)) ∧
    ((c.unresolved hs).map Call.ticket).Perm (c.run hs).2.table.tickets ∧
    ((c.unresolved hs).map fun call => call.ticket.key).Nodup := by
  intro c
  have hstages : ∀ s ∈ c.stages hs, s.handOvers = s.admitted.map Call.handOver ∧
      ∀ call ∈ s.admitted, s.Admits call := by
    intro s hs'
    obtain ⟨ht, _, _, _, h⟩ := balanced_of_mem_stages hs'
    rcases h.handOvers_cases ht with ⟨hsent, hnone⟩ | ⟨call, hone, hcall⟩
    · change s.handOvers = [] at hsent
      change s.admitted = [] at hnone
      rw [hsent, hnone]
      exact ⟨rfl, nofun⟩
    · change s.admitted = [call] at hone
      rw [Stage.handOvers, hone, hcall.sent]
      refine ⟨rfl, ?_⟩
      intro other hother
      rw [List.mem_singleton.mp hother]
      exact hcall
  refine ⟨hstages, ⟨?_, (balanced_new_run settings hs).numbered⟩, ?_, ?_,
    unresolved_perm settings hs, ?_⟩
  · rw [effects_run, admissions, List.filterMap_flatMap, List.map_flatMap]
    apply List.flatMap_congr
    intro s hs'
    exact (hstages s hs').1
  · intro number failure hreturned hrefused message
    exact not_handedOver_of_refused hreturned hrefused message
  · intro earlier s between s' later hsplit first hfirst second hsecond hkey
    have hs' : s ∈ c.stages hs := hsplit ▸ (by simp)
    have hs'' : s' ∈ c.stages hs := hsplit ▸ (by simp)
    obtain ⟨e, hticket, -, hentries⟩ := ((hstages s hs').2 first hfirst).recorded
    -- The second admission lies in the part of the run that follows the first one.
    obtain ⟨before, rest, rfl, -, hrest⟩ := exists_of_stages_eq_append hsplit
    cases rest with
    | nil => cases hrest
    | cons happening rest =>
      obtain ⟨rfl, htail⟩ := List.cons.inj hrest
      have h := balanced_new_run settings (before ++ [happening])
      rw [run_append] at h
      obtain ⟨d, hd, hd'⟩ := h.departed_before_admission (e := e)
        (hentries ▸ List.mem_cons_self) htail ((hstages s' hs'').2 second hsecond)
        (hkey.symm.trans (congrArg Ticket.key hticket.symm))
      have hmem : d ∈ c.departures (before ++ happening :: rest) := by
        rw [departures, hsplit]
        simp only [List.flatMap_append, List.flatMap_cons, List.mem_append]
        exact .inr (.inr (.inl hd))
      have hcall : first ∈ c.admissions (before ++ happening :: rest) :=
        List.mem_flatMap.mpr ⟨_, hs', hfirst⟩
      exact ⟨d, hd, hd'.trans hticket, fate_of_departed hcall hmem (hd'.trans hticket)⟩
  · have hkeys : ((c.unresolved hs).map fun call => call.ticket.key).Perm
        ((c.run hs).2.table.entries.map fun e => e.awaited.key) := by
      have hmap := (unresolved_perm settings hs).map Ticket.key
      rw [Table.tickets, List.map_map, List.map_map] at hmap
      exact hmap
    exact hkeys.nodup_iff.mpr (balanced_new_run settings hs).table.shaped.entry_keys

/-- A request, another one that is refused as long as the first one is pending, and after
the answer one more under the same key. -/
def askedAgain : List Happening :=
  [.called 0 .getRelay 2, .called 1 (.setRelay .enabled ⟨2, 20⟩) 2,
    .received 2 [0x80, 0x28, 1, 0x25], .called 9 (.setRelay .enabled ⟨2, 20⟩) 2]

/-- The first of these calls. -/
def answeredCall : Call := ⟨0, .relayGet, ⟨2, 0, [0x80, 0x26]⟩, ⟨⟨.relay, 2⟩, 1⟩⟩

/-- The last of these calls. -/
def lastCall : Call := ⟨2, .relaySet, ⟨2, 0, [0x80, 0x27, 1, 0x0A]⟩, ⟨⟨.relay, 2⟩, 2⟩⟩

theorem gate_of_askedAgain :
    let c := Client.new .standard
    (.returned 1 (some (.busy .relaySet 2)) ∈ (c.run askedAgain).1 ∧
      ∀ message, .handedOver 1 message ∉ (c.run askedAgain).1) ∧
    answeredCall.ticket.key = lastCall.ticket.key ∧
    (∃ d ∈ (((c.stages askedAgain).drop 1).take 2).flatMap Stage.departures,
      d.ticket = answeredCall.ticket) ∧
    c.unresolved askedAgain = [lastCall] := by
  intro c
  obtain ⟨-, -, hrefused, hseparate, -, -⟩ := transport_gated_by_table .standard askedAgain
  have hreturned : .returned 1 (some (.busy .relaySet 2)) ∈ (c.run askedAgain).1 := by decide
  obtain ⟨d, hd, hticket, -⟩ := hseparate [] _ [_, _] _ [] rfl answeredCall (by decide) lastCall
    (by decide) rfl
  exact ⟨⟨hreturned, hrefused 1 _ hreturned (by simp)⟩, rfl, ⟨d, hd, hticket⟩, by decide⟩

end Client

end MeshFoundation
