import MeshFoundation.Client.Rehearsal
import MeshFoundation.Proofs.Client.Transmission
import MeshFoundation.Proofs.Pending.Clock

/-!
# Moves of a client under a clock

Whoever has a client under a clock can make a call, whose delivery is fixed from the start,
let a message arrive, or let the clock move on. Whatever falls due by the end of such a move
belongs to it.

What a deed or a stop of the clock can do is said once each (`Sound.call_cases`,
`Sound.receive_cases`, `Sound.happen_sending`, `Sound.happen_timer`). All of them keep
`Sound`: the transport is busy with the messages of exactly the calls that wait, in the order
of their tickets, and no message under the key of a pending request is newer than this
request. Only the numbers of the table must not run over.
-/

set_option autoImplicit false

namespace MeshFoundation

open Pending

/-- Whether an effect is a mere note: nothing goes out, nobody is told, and no call comes
back. -/
def Effect.isAside : Effect → Bool
  | .accepted _ _ | .noted _ | .counted _ => true
  | .handedOver _ _ | .told _ | .returned _ _ => false

namespace Client

/-- Something that is done with a client under a clock. -/
inductive Move where
  | call (delivery : Delivery) (op : Operation) (node : UInt16)
  | receive (source : UInt16) (bytes : Bytes)
  | advance (milliseconds : Nat)
  deriving DecidableEq, Repr

namespace Move

/-- How far the clock moves on. -/
def span : Move → Nat
  | .advance milliseconds => milliseconds
  | .call _ _ _ | .receive _ _ => 0

/-- The key of the call that is made. -/
def asked? : Move → Option Key
  | .call _ op node => some (⟨op.request, node⟩ : Awaited).key
  | .receive _ _ | .advance _ => none

end Move

namespace Timeline

/-- What is done in a move before anything falls due. -/
def deed (tl : Timeline) : Move → List Dated × Timeline
  | .call delivery op node => tl.call delivery op node
  | .receive source bytes => tl.receive source bytes
  | .advance _ => ([], tl)

/-- Makes a move. -/
def move (tl : Timeline) (m : Move) : List Dated × Timeline :=
  let (effects, after) := tl.deed m
  let (more, final) := after.advanceTo (tl.now + m.span)
  (effects ++ more, final)

/-- Makes the moves of a list, one after another. -/
def moves (tl : Timeline) : List Move → List Dated × Timeline
  | [] => ([], tl)
  | first :: rest =>
    let (effects, after) := tl.move first
    let (more, final) := after.moves rest
    (effects ++ more, final)

/-- The messages that the transport gets by the given effects. -/
def handOvers (effects : List Dated) : List (Nat × Message) :=
  effects.filterMap fun d => d.effect.handOver?

/-- What holds of a client after any moves in which so many requests were recorded. The keys
are those of all calls that are ever made, in their order. -/
structure Sound (tl : Timeline) (asked : List Key) (issued : Nat) : Prop where
  balanced : ∃ admitted left, tl.client.Balanced admitted left ∧ admitted.length = issued
  /-- The transport is busy with the messages of the calls that wait. -/
  waiting : tl.sendings.map (fun s => (s.call, s.ticket)) =
    tl.client.calls.map fun call => (call.number, call.ticket)
  keys : ∀ s ∈ tl.sendings, asked[s.call]? = some s.ticket.key
  ordered : tl.sendings.Pairwise fun s r => s.ticket.number < r.ticket.number
  newest : ∀ s ∈ tl.sendings, ∀ e ∈ tl.client.table.entries, s.ticket.key = e.awaited.key →
    s.ticket.number ≤ e.number
  held : tl.isClosing = false
  observed : tl.client.isObserved = true

variable {tl : Timeline} {asked : List Key} {issued : Nat} {s : Sending} {e : Entry} {due : Due}
  {delivery : Delivery} {op : Operation} {node source : UInt16} {bytes : Bytes}

theorem Sound.start (settings : Settings) (asked : List Key) :
    (Timeline.start settings).Sound asked 0 where
  balanced := ⟨[], [], Balanced.new settings, rfl⟩
  waiting := rfl
  keys := nofun
  ordered := List.Pairwise.nil
  newest := nofun
  held := rfl
  observed := rfl

theorem Sound.shaped (h : tl.Sound asked issued) : tl.client.table.Shaped := by
  obtain ⟨_, _, hbalanced, -⟩ := h.balanced
  exact hbalanced.table.shaped

/-! ## What a deed does -/

/-- A call is refused for its arguments or because its answer is awaited already, or its
request is recorded and its message is on its way. -/
theorem Sound.call_cases (h : tl.Sound asked issued) (delivery : Delivery) (op : Operation)
    (node : UInt16) :
    let counted : Client := { tl.client with next := tl.client.next + 1 }
    (∃ failure, op.payload node = .error failure ∧
      tl.call delivery op node =
        (tl.dated [.returned tl.client.next (some failure)], { tl with client := counted })) ∨
    (∃ payload, ∃ e ∈ tl.client.table.entries, op.payload node = .ok payload ∧
      e.awaited.key = (⟨op.request, node⟩ : Awaited).key ∧
      tl.call delivery op node =
        (tl.dated [.noted (.busyRefused op.request node), .counted (.busy op.request),
            .returned tl.client.next (some (.busy op.request node))],
          { tl with client := counted })) ∨
    ∃ payload ticket table, op.payload node = .ok payload ∧
      tl.client.table.record? tl.now ⟨op.request, node⟩ = some (ticket, table) ∧
      let message : Message := ⟨node, tl.client.settings.netKey, payload⟩
      tl.call delivery op node =
        (tl.dated [.handedOver tl.client.next message],
          { tl with
            client :=
              { counted with
                table
                calls := tl.client.calls ++ [⟨tl.client.next, op.request, message, ticket⟩] }
            sendings := tl.sendings ++
              [⟨tl.client.next, ticket, tl.now + delivery.delay, delivery.error?⟩] }) := by
  intro counted
  obtain ⟨admitted, left, hbalanced, -⟩ := h.balanced
  have hnone : (tl.client.calls.filter fun call => call.number = tl.client.next) = [] := by
    apply List.filter_eq_nil_iff.mpr
    intro call hcall
    have hlt := hbalanced.next call (hbalanced.waiting call hcall)
    simpa using Nat.ne_of_lt hlt
  have ht := Transition.of_call h.shaped tl.now op node
  unfold Timeline.call
  generalize tl.client.call tl.now op node = result at ht
  obtain ⟨effects, client⟩ := result
  cases ht with
  | rejected hpayload => exact .inl ⟨_, hpayload, by simp [hnone, counted]⟩
  | busy hpayload hpending hkey =>
    exact .inr (.inl ⟨_, _, hpending, hpayload, hkey, by simp [hnone, counted]⟩)
  | admitted hpayload hrecord =>
    refine .inr (.inr ⟨_, _, _, hpayload, hrecord, ?_⟩)
    simp [List.filter_append, hnone, counted]

/-- A message means nothing, or it answers a pending request. -/
theorem Sound.receive_cases (h : tl.Sound asked issued) (source : UInt16) (bytes : Bytes) :
    (∃ notice counter, tl.receive source bytes = (tl.dated [.noted notice, .counted counter], tl) ∧
      ∀ opcode width, Opcode.decode bytes = .ok (opcode, width) →
        ∀ e ∈ tl.client.table.entries,
          Key.ofOpcode? opcode.reliable source ≠ some e.awaited.key) ∨
    ∃ opcode width, ∃ e ∈ tl.client.table.entries,
      Opcode.decode bytes = .ok (opcode, width) ∧
      Key.ofOpcode? opcode.reliable source = some e.awaited.key ∧
      tl.receive source bytes =
        (tl.dated (tl.client.resolve e.awaited.request source (bytes.drop width)),
          { tl with client := { tl.client with table := tl.client.table.without e.ticket } }) := by
  have ht := Transition.of_receive h.shaped source bytes
  unfold Timeline.receive
  generalize tl.client.receive source bytes = result at ht
  obtain ⟨effects, client⟩ := result
  cases ht with
  | undecodable hdecode =>
    refine .inl ⟨_, _, rfl, ?_⟩
    intro opcode width hok
    rw [hdecode] at hok
    cases hok
  | unsolicited hdecode hfree =>
    refine .inl ⟨_, _, rfl, ?_⟩
    intro opcode width hok
    rw [hdecode] at hok
    cases hok
    exact hfree
  | answered hdecode hpending hkey =>
    exact .inr ⟨_, _, _, hpending, hdecode, hkey, rfl⟩

/-! ## What a stop of the clock does -/

theorem Sound.mem_dues_iff (h : tl.Sound asked issued) :
    due ∈ tl.dues ↔ (∃ s ∈ tl.sendings, due = .sending s) ∨
      ∃ e ∈ tl.client.table.entries, due = .timer e.timer := by
  rw [dues, h.shaped.timers_eq, List.map_map, List.mem_append, List.mem_map, List.mem_map]
  simp only [Function.comp_apply, eq_comm]

/-- The call that waits for a message on its way. -/
theorem Sound.exists_call (h : tl.Sound asked issued) (hs : s ∈ tl.sendings) :
    ∃ call ∈ tl.client.calls, call.number = s.call ∧ call.ticket = s.ticket := by
  have hmem : (s.call, s.ticket) ∈ tl.client.calls.map fun call => (call.number, call.ticket) := by
    rw [← h.waiting]
    exact List.mem_map_of_mem hs
  obtain ⟨call, hcall, heq⟩ := List.mem_map.mp hmem
  exact ⟨call, hcall, (Prod.mk.inj heq).1, (Prod.mk.inj heq).2⟩

/-- The transport is done with a message: its call comes back, and if the transport failed,
the request of the call is pending no longer. -/
theorem Sound.happen_sending (h : tl.Sound asked issued) (hs : s ∈ tl.sendings) :
    ∃ quiet : List Effect, (∀ effect ∈ quiet, effect.isAside = true) ∧
      tl.happen (.sending s) =
        ((quiet ++ [Effect.returned s.call (s.error?.map .transport)]).map (Dated.mk s.ends),
          { tl with
            now := s.ends
            client :=
              { tl.client with
                table :=
                  if s.error?.isSome then tl.client.table.without s.ticket else tl.client.table
                calls := tl.client.callsWithout s.call }
            sendings := tl.sendingsWithout s.call }) := by
  obtain ⟨own, hown, hnumber, hticket⟩ := h.exists_call hs
  obtain ⟨admitted, left, hbalanced, -⟩ := h.balanced
  -- The client looks its call up by number, so the ticket is only known if numbers are unique.
  have hsame : ∀ call ∈ tl.client.calls, call.number = s.call → call = own := by
    intro call hcall heq
    exact List.inj_on_of_nodup_map hbalanced.numbered (hbalanced.waiting call hcall)
      (hbalanced.waiting own hown) (heq.trans hnumber.symm)
  obtain ⟨number, ticket, ends, error?⟩ := s
  have ht := Transition.of_finish h.shaped number error?
  unfold happen
  simp only [Due.timing, settleClosing, h.held, Bool.false_and, Bool.false_eq_true, if_false]
  generalize tl.client.finish number error? = result at ht
  obtain ⟨effects, client⟩ := result
  simp only at hnumber hticket hsame
  cases ht with
  | @sent call hwaiting => exact ⟨[_, _, _], by simp [Effect.isAside], rfl⟩
  | @failed call error hwaiting =>
    obtain rfl := hsame call hwaiting rfl
    subst hticket
    exact ⟨[_], by simp [Effect.isAside], rfl⟩
  | unawaited hnone => exact absurd hnumber (hnone own hown)

/-- The time of a pending request runs out. -/
theorem Sound.happen_timer (h : tl.Sound asked issued) (he : e ∈ tl.client.table.entries) :
    ∃ quiet : List Effect, (∀ effect ∈ quiet, effect.isAside = true) ∧
      tl.happen (.timer e.timer) =
        ((quiet ++ [Effect.told ⟨e.awaited, .unanswered⟩]).map (Dated.mk e.deadline),
          { tl with
            now := e.deadline
            client := { tl.client with table := tl.client.table.without e.ticket } }) := by
  have ht := Transition.of_expire h.shaped e.ticket
  unfold happen
  simp only [Due.timing, Entry.timer]
  generalize tl.client.expire e.ticket = result at ht
  obtain ⟨effects, client⟩ := result
  generalize hticket : e.ticket = ticket at ht
  cases ht with
  | @timedOut f hpending =>
    obtain rfl := h.shaped.eq_of_ticket he hpending hticket
    have htell : tl.client.tell ⟨e.awaited, .unanswered⟩ = [.told ⟨e.awaited, .unanswered⟩] := by
      rw [tell, if_pos h.observed]
    rw [htell]
    exact ⟨[_, _, _], by simp [Effect.isAside], rfl⟩
  | stale hgone => exact absurd (List.mem_map.mpr ⟨e, he, hticket⟩) hgone

/-! ## Everything keeps the client sound -/

/-- Requests may leave the table, and calls may come back together with their messages. -/
theorem Sound.leave (h : tl.Sound asked issued) {after : Timeline} {p : Key × List Entry → Bool}
    (q : Nat → Bool) (htable : after.client.table = tl.client.table.keep p)
    (hcalls : after.client.calls = tl.client.calls.filter fun call => q call.number)
    (hsendings : after.sendings = tl.sendings.filter fun s => q s.call)
    (hnext : tl.client.next ≤ after.client.next) (hheld : after.isClosing = tl.isClosing)
    (hobserved : after.client.isObserved = tl.client.isObserved) :
    after.Sound asked issued := by
  have hshaped := h.shaped
  obtain ⟨admitted, left, hbalanced, hissued⟩ := h.balanced
  have hsubset : ∀ s ∈ after.sendings, s ∈ tl.sendings := by
    intro s hs
    rw [hsendings] at hs
    exact List.mem_of_mem_filter hs
  refine ⟨⟨admitted, _, hbalanced.leave htable ?_ hnext, hissued⟩, ?_, ?_, ?_, ?_, ?_, ?_⟩
  · rw [hcalls]
    exact List.filter_sublist
  · have hfilter := congrArg (List.filter fun pair => q pair.1) h.waiting
    rw [List.filter_map, List.filter_map] at hfilter
    rw [hsendings, hcalls]
    exact hfilter
  · exact fun s hs => h.keys s (hsubset s hs)
  · rw [hsendings]
    exact h.ordered.filter _
  · intro s hs e he
    rw [htable, hshaped.entries_keep] at he
    exact h.newest s (hsubset s hs) e (List.mem_of_mem_filter he)
  · rw [hheld, h.held]
  · rw [hobserved, h.observed]

/-- The tickets of messages on their way are older than the next one, if this one does not
run over. -/
theorem Sound.number_lt_next (h : tl.Sound asked issued) (hfew : issued + 1 < 2 ^ 64)
    (hs : s ∈ tl.sendings) : s.ticket.number < tl.client.table.next := by
  obtain ⟨admitted, left, hbalanced, hissued⟩ := h.balanced
  obtain ⟨call, hcall, -, hticket⟩ := h.exists_call hs
  apply hbalanced.table.number_lt_next
  · rw [List.length_map]
    omega
  · rw [← hticket]
    exact List.mem_map_of_mem (hbalanced.waiting call hcall)

/-- A request is recorded, and its message is on its way. -/
theorem Sound.enter (h : tl.Sound asked issued) (hfew : issued + 1 < 2 ^ 64) {after : Timeline}
    {awaited : Awaited} {call : Call} {sent : Sending}
    (hrecord : tl.client.table.record? tl.now awaited = some (sent.ticket, after.client.table))
    (hcalls : after.client.calls = tl.client.calls ++ [call])
    (hsendings : after.sendings = tl.sendings ++ [sent])
    (hsent : sent.call = call.number ∧ sent.ticket = call.ticket)
    (hnumber : call.number = tl.client.next) (hnext : after.client.next = tl.client.next + 1)
    (hasked : asked[tl.client.next]? = some awaited.key)
    (hheld : after.isClosing = tl.isClosing)
    (hobserved : after.client.isObserved = tl.client.isObserved) :
    after.Sound asked (issued + 1) := by
  have hshaped := h.shaped
  obtain ⟨hsame, hticket⟩ := hsent
  obtain ⟨hfree, hnew, -⟩ := hshaped.record?_eq_some_iff.mp hrecord
  obtain ⟨admitted, left, hbalanced, hissued⟩ := h.balanced
  have hentered := hbalanced.enter (hticket ▸ hrecord) hcalls hnumber hnext
  have hlt : ∀ s ∈ tl.sendings, s.ticket.number < sent.ticket.number := by
    intro s hs
    rw [hnew]
    exact h.number_lt_next hfew hs
  refine ⟨⟨_, _, hentered, by simp [hissued]⟩, ?_, ?_, ?_, ?_, ?_, ?_⟩
  · rw [hsendings, hcalls, List.map_append, List.map_append, h.waiting, List.map_singleton,
      List.map_singleton, hsame, hticket]
  · intro s hs
    rw [hsendings] at hs
    rcases List.mem_append.mp hs with hold | hsent
    · exact h.keys s hold
    · rw [List.mem_singleton.mp hsent, hsame, hnumber, hasked, hnew]
      rfl
  · rw [hsendings, List.pairwise_append]
    refine ⟨h.ordered, List.pairwise_singleton _ _, ?_⟩
    intro s hs r hr
    rw [List.mem_singleton.mp hr]
    exact hlt s hs
  · intro s hs e he hkey
    rw [hsendings] at hs
    rw [(hshaped.record hrecord).2] at he
    rcases List.mem_cons.mp he with rfl | he
    · -- The new request has the newest ticket of all.
      have hle : s.ticket.number ≤ sent.ticket.number := by
        rcases List.mem_append.mp hs with hold | hsent
        · exact UInt64.le_of_lt (hlt s hold)
        · rw [List.mem_singleton.mp hsent]
          exact UInt64.le_refl _
      rwa [hnew] at hle
    · rcases List.mem_append.mp hs with hold | hsent
      · exact h.newest s hold e he hkey
      · -- Nothing was pending under the key of the new request.
        rw [List.mem_singleton.mp hsent, hnew] at hkey
        exact absurd hkey.symm (hfree e he)
  · rw [hheld, h.held]
  · rw [hobserved, h.observed]

theorem Sound.call (h : tl.Sound asked issued)
    (hasked : asked[tl.client.next]? = some (⟨op.request, node⟩ : Awaited).key)
    (hfew : issued + (handOvers (tl.call delivery op node).1).length < 2 ^ 64) :
    (tl.call delivery op node).2.Sound asked
      (issued + (handOvers (tl.call delivery op node).1).length) := by
  have hsame := tl.client.table.keep_true.symm
  have hcounted : { tl with client := { tl.client with next := tl.client.next + 1 } }.Sound
      asked issued := by
    exact h.leave (fun _ => true) hsame (List.filter_true _).symm (List.filter_true _).symm
      (Nat.le_succ _) rfl rfl
  rcases h.call_cases delivery op node with
    ⟨failure, -, hcall⟩ | ⟨payload, e, -, -, -, hcall⟩ | ⟨payload, ticket, table, -, hrecord, hcall⟩
  · rw [hcall]
    exact hcounted
  · rw [hcall]
    exact hcounted
  · rw [hcall] at hfew ⊢
    exact h.enter hfew hrecord rfl rfl ⟨rfl, rfl⟩ rfl rfl hasked rfl rfl

theorem Sound.receive (h : tl.Sound asked issued) :
    (tl.receive source bytes).2.Sound asked issued := by
  rcases h.receive_cases source bytes with
    ⟨_, _, hreceive, -⟩ | ⟨_, _, e, -, -, -, hreceive⟩
  · rw [hreceive]
    exact h
  · rw [hreceive]
    exact h.leave (fun _ => true) rfl (List.filter_true _).symm (List.filter_true _).symm
      (Nat.le_refl _) rfl rfl

theorem Sound.happen (h : tl.Sound asked issued) (hdue : due ∈ tl.dues) :
    (tl.happen due).2.Sound asked issued := by
  rcases h.mem_dues_iff.mp hdue with ⟨s, hs, rfl⟩ | ⟨e, he, rfl⟩
  · obtain ⟨_, -, hhappen⟩ := h.happen_sending hs
    rw [hhappen]
    have htable : ∃ p, (if s.error?.isSome then tl.client.table.without s.ticket
        else tl.client.table) = tl.client.table.keep p := by
      split
      · exact ⟨_, rfl⟩
      · exact ⟨_, tl.client.table.keep_true.symm⟩
    obtain ⟨p, htable⟩ := htable
    exact h.leave (fun number => number ≠ s.call) htable rfl rfl (Nat.le_refl _) rfl rfl
  · obtain ⟨_, -, hhappen⟩ := h.happen_timer he
    rw [hhappen]
    exact h.leave (fun _ => true) rfl (List.filter_true _).symm (List.filter_true _).symm
      (Nat.le_refl _) rfl rfl

theorem mem_dues_of_nextDue? {limit : Nat} (hnext : tl.nextDue? limit = some due) :
    due ∈ tl.dues ∧ due.timing.deadline ≤ limit := by
  obtain ⟨hfirst, hlimit⟩ := Option.filter_eq_some_iff.mp hnext
  exact ⟨Timer.mem_of_first? hfirst, of_decide_eq_true hlimit⟩

/-- No stop of the clock makes a call. -/
theorem Sound.next_happen (h : tl.Sound asked issued) (hdue : due ∈ tl.dues) :
    (tl.happen due).2.client.next = tl.client.next := by
  rcases h.mem_dues_iff.mp hdue with ⟨s, hs, rfl⟩ | ⟨e, he, rfl⟩
  · obtain ⟨_, -, hhappen⟩ := h.happen_sending hs
    rw [hhappen]
  · obtain ⟨_, -, hhappen⟩ := h.happen_timer he
    rw [hhappen]

theorem Sound.run (h : tl.Sound asked issued) (limit : Nat) :
    (tl.run limit).2.Sound asked issued ∧
      (tl.run limit).2.client.next = tl.client.next ∧
      (tl.run limit).2.nextDue? limit = none := by
  fun_induction Timeline.run limit tl with
  | case1 tl hnone => exact ⟨h, rfl, hnone⟩
  | case2 tl due hnext more final hrun ih =>
    have hdue := (mem_dues_of_nextDue? hnext).1
    have hrest := ih (h.happen hdue)
    rwa [hrun, h.next_happen hdue] at hrest

theorem now_deed (tl : Timeline) (m : Move) : (tl.deed m).2.now = tl.now := by
  cases m <;> rfl

theorem move_eq (tl : Timeline) (m : Move) :
    tl.move m = ((tl.deed m).1 ++ ((tl.deed m).2.run (tl.now + m.span)).1,
      { ((tl.deed m).2.run (tl.now + m.span)).2 with now := tl.now + m.span }) := by
  have hlimit : max (tl.deed m).2.now (tl.now + m.span) = tl.now + m.span := by
    rw [now_deed]
    omega
  simp only [move, advanceTo, hlimit]

theorem now_move (tl : Timeline) (m : Move) : (tl.move m).2.now = tl.now + m.span := by
  rw [move_eq]

/-- No message that arrives makes another one go out. -/
theorem Sound.quiet_receive (h : tl.Sound asked issued) (source : UInt16) (bytes : Bytes) :
    handOvers (tl.receive source bytes).1 = [] ∧
      (tl.receive source bytes).2.client.next = tl.client.next := by
  rcases h.receive_cases source bytes with ⟨_, _, hreceive, -⟩ | ⟨_, _, e, -, -, -, hreceive⟩
  · rw [hreceive]
    exact ⟨rfl, rfl⟩
  · have hresolve := handOvers_resolve tl.client e.awaited.request source
    rw [hreceive]
    exact ⟨by simp [handOvers, dated, hresolve], rfl⟩

/-- What holds of the keys of all calls when a move is to be made, if those that are left
begin with the key of this move. -/
theorem asked_of_drop {asked : List Key} {made : Nat} {m : Move} {rest : List Move}
    (hdrop : asked.drop made = (m :: rest).filterMap Move.asked?) :
    (∀ key, m.asked? = some key → asked[made]? = some key) ∧
      asked.drop (made + m.asked?.toList.length) = rest.filterMap Move.asked? := by
  cases hasked : m.asked? with
  | none =>
    rw [List.filterMap_cons_none hasked] at hdrop
    exact ⟨nofun, hdrop⟩
  | some key =>
    rw [List.filterMap_cons_some hasked] at hdrop
    refine ⟨?_, ?_⟩
    · intro other hother
      rw [← List.head?_drop, hdrop, List.head?_cons, hother]
    · rw [Option.toList_some, List.length_singleton, ← List.tail_drop, hdrop, List.tail_cons]

theorem Sound.deed (h : tl.Sound asked issued) (m : Move)
    (hasked : ∀ key, m.asked? = some key → asked[tl.client.next]? = some key)
    (hfew : issued + (handOvers (tl.deed m).1).length < 2 ^ 64) :
    (tl.deed m).2.Sound asked (issued + (handOvers (tl.deed m).1).length) ∧
      (tl.deed m).2.client.next = tl.client.next + m.asked?.toList.length := by
  cases m with
  | call delivery op node =>
    refine ⟨h.call (hasked _ rfl) hfew, ?_⟩
    rw [Timeline.deed]
    rcases h.call_cases delivery op node with
      ⟨_, -, hcall⟩ | ⟨_, _, -, -, -, hcall⟩ | ⟨_, _, _, -, -, hcall⟩ <;> rw [hcall] <;> rfl
  | receive source bytes =>
    obtain ⟨hsent, hnext⟩ := h.quiet_receive source bytes
    rw [Timeline.deed, hsent]
    exact ⟨h.receive, hnext⟩
  | advance milliseconds => exact ⟨h, rfl⟩

/-- A move makes the call that it is for, and nothing is left that is due after it. -/
theorem Sound.move (h : tl.Sound asked issued) (m : Move)
    (hasked : ∀ key, m.asked? = some key → asked[tl.client.next]? = some key)
    (hfew : issued + (handOvers (tl.deed m).1).length < 2 ^ 64) :
    (tl.move m).2.Sound asked (issued + (handOvers (tl.deed m).1).length) ∧
      (tl.move m).2.client.next = tl.client.next + m.asked?.toList.length ∧
      (tl.move m).2.nextDue? (tl.move m).2.now = none := by
  obtain ⟨hdeed, hnext⟩ := h.deed m hasked hfew
  obtain ⟨hrun, hsame, hnone⟩ := hdeed.run (tl.now + m.span)
  rw [move_eq]
  refine ⟨?_, hsame.trans hnext, hnone⟩
  exact { hrun with }

end Timeline

/-! ## Moves in rehearsals -/

namespace Rehearsal

/-- The move that a step of a rehearsal makes. Only the calls that are left to tasks are
moves, for a call that is waited for moves the clock. -/
def Step.move? (delivery : Delivery) : Step → Option Move
  | .request true op node => some (.call delivery op node)
  | .receive source bytes => some (.receive source bytes)
  | .advance milliseconds => some (.advance milliseconds)
  | _ => none

theorem step_of_move? {r : Rehearsal} {s : Step} {m : Move} (hmove : s.move? r.delivery = some m) :
    (r.step s).2.timeline = (r.timeline.move m).2 ∧
      (r.step s).1.now = (r.timeline.move m).2.now ∧
      (r.step s).1.sent = (r.timeline.move m).1.filterMap (fun d => d.effect.accepted?) ∧
      (r.step s).1.events = (told (r.timeline.move m).1).mergeSort Told.standsBefore := by
  unfold Step.move? at hmove
  split at hmove <;> cases hmove <;> exact ⟨rfl, rfl, rfl, rfl⟩

end Rehearsal

end Client

end MeshFoundation
