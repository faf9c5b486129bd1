import MeshFoundation.Proofs.Client.Balance

/-!
# Where every ticket stands

The standings of a ticket are all places where a run left its request: it may be pending,
and it may have departed, in any stage and in any way. The main statement is that a ticket
that was given out has exactly one standing, that the standing of a request that departed is
never another one later, and that the observer is told of each request that was answered
by a report or ran out of time, once, and of nothing else (`accounts_of_run`).
-/

set_option autoImplicit false

namespace MeshFoundation

open Pending

/-- Where a ticket stands. -/
inductive Standing where
  | pending
  | departed (fate : Fate)
  deriving DecidableEq, Repr

namespace Client

/-- All standings of a ticket after a run. -/
def standings (c : Client) (hs : List Happening) (ticket : Ticket) : List Standing :=
  ((c.run hs).2.table.tickets.filter fun other => other = ticket).map (fun _ => .pending) ++
    ((c.departures hs).filter fun d => d.ticket = ticket).map fun d => .departed d.fate

/-- A run accounts for every request that it admitted. -/
structure Accounts (c : Client) (hs : List Happening) : Prop where
  /-- The admitted calls have the tickets that the table gave out, in their order. -/
  issued : (c.admissions hs).map (fun call => call.ticket.number) =
      (List.range (c.admissions hs).length).map numberAfter ∧
    (c.run hs).2.table.next = numberAfter (c.admissions hs).length
  distinct : ((c.admissions hs).map Call.ticket).Nodup
  /-- Each of them stands in one place. -/
  single : ∀ call ∈ c.admissions hs, ∃ standing, c.standings hs call.ticket = [standing]
  /-- How a request departed is never changed. -/
  final : ∀ earlier later, hs = earlier ++ later → ∀ ticket fate,
    c.standings earlier ticket = [.departed fate] → c.standings hs ticket = [.departed fate]
  /-- No call withdraws the request of another one. -/
  own : ∀ call ∈ c.admissions hs, ∀ number error,
    c.standings hs call.ticket = [.departed (.withdrawn number error)] → number = call.number
  /-- The requests that departed are admitted ones, and none of them departed twice. -/
  departed : ((c.departures hs).map Departure.ticket).Nodup ∧
    ∀ d ∈ c.departures hs, d.ticket ∈ (c.admissions hs).map Call.ticket
  /-- The observer is told when a request departs, and at no other time. -/
  prompt : ∀ s ∈ c.stages hs, s.events = s.expectedEvents
  /-- An observer that stays is told of all requests that departed. -/
  told : .unobserved ∉ hs →
    (c.run hs).1.filterMap Effect.event? = (c.departures hs).filterMap Departure.event?

variable {c c' : Client} {s : Stage} {hs : List Happening}

/-! ## Standings -/

/-- A ticket has as many standings as it is pending and as it departed. -/
theorem length_standings (c : Client) (hs : List Happening) (ticket : Ticket) :
    (c.standings hs ticket).length =
      ((c.run hs).2.table.tickets ++ (c.departures hs).map Departure.ticket).count ticket := by
  have hcount : ∀ tickets : List Ticket,
      (tickets.filter fun other => other = ticket).length = tickets.count ticket := by
    intro tickets
    rw [List.count_eq_length_filter]
    congr 1
  have hmap : ((c.departures hs).filter fun d => d.ticket = ticket).length =
      ((c.departures hs).map Departure.ticket).count ticket := by
    rw [← hcount, List.filter_map, List.length_map]
    rfl
  rw [standings, List.length_append, List.length_map, List.length_map, hcount, hmap,
    List.count_append]

theorem departed_mem_standings_iff {ticket : Ticket} {fate : Fate} :
    .departed fate ∈ c.standings hs ticket ↔
      ∃ d ∈ c.departures hs, d.ticket = ticket ∧ d.fate = fate := by
  simp [standings, and_assoc]

/-- What departed in a part of a run departed in the whole run in the same way. -/
theorem departed_mem_standings {earlier : List Happening} {ticket : Ticket} {fate : Fate}
    (later : List Happening) (hmem : .departed fate ∈ c.standings earlier ticket) :
    .departed fate ∈ c.standings (earlier ++ later) ticket := by
  obtain ⟨d, hd, hdeparted⟩ := departed_mem_standings_iff.mp hmem
  refine departed_mem_standings_iff.mpr ⟨d, ?_, hdeparted⟩
  rw [departures_append]
  exact List.mem_append_left _ hd

/-! ## The observer stays -/

theorem isObserved_of_run {admitted : List Call} {left : List Ticket}
    (h : c.Balanced admitted left) (hobserved : .unobserved ∉ hs) :
    ∀ s ∈ c.stages hs, s.before.isObserved = c.isObserved := by
  induction hs generalizing c admitted left with
  | nil =>
    intro s hs'
    cases hs'
  | cons first rest ih =>
    rw [List.mem_cons, not_or] at hobserved
    have ht := transition_of_step h.table.shaped first
    have hsame : (c.step first).2.isObserved = c.isObserved := by
      generalize (c.step first).1 = effects at ht
      generalize (c.step first).2 = c' at ht
      cases ht with
      | unobserved => exact absurd rfl hobserved.1
      | _ => rfl
    intro s hs'
    rcases List.mem_cons.mp hs' with rfl | hrest
    · rfl
    · rw [← hsame]
      exact ih (h.stage (ht.passage h.table.shaped)) hobserved.2 s hrest

/-! ## Every request is accounted for -/

/-- A request is withdrawn by the call that it was admitted with. -/
theorem Transition.own_of_withdrawn {happening : Happening} {effects : List Effect}
    (ht : c.Transition happening effects c') (h : c.table.Shaped) {d : Departure}
    (hd : d ∈ (Stage.mk c happening effects c').departures) {number : Nat}
    {error : TransportError} (hfate : d.fate = .withdrawn number error) :
    ∃ call ∈ c.calls, call.number = number ∧ call.ticket = d.ticket := by
  obtain ⟨hgone, hd⟩ := Stage.fate_of_mem_departures hd
  rw [hfate] at hd
  cases ht with
  | @failed call _ hwaiting =>
    cases hd
    have hmissing : d.entry ∈ c.table.missing (c.table.without call.ticket) := hgone
    rw [Table.without, h.missing_keep, List.mem_filter] at hmissing
    refine ⟨call, hwaiting, rfl, ?_⟩
    simpa [Entry.slot, Departure.ticket, eq_comm] using hmissing.2
  | unawaited hnone =>
    rw [Stage.gone_of_same rfl] at hgone
    cases hgone
  | _ => cases hd

/-- Every ticket that was given out stands in one place. -/
theorem Balanced.single_standing {admitted : List Call}
    (h : (c.run hs).2.Balanced admitted ((c.departures hs).map Departure.ticket))
    (hfew : admitted.length < 2 ^ 64) {call : Call} (hcall : call ∈ admitted) :
    ∃ standing, c.standings hs call.ticket = [standing] := by
  rw [← List.length_eq_one_iff, length_standings]
  apply List.count_eq_one_of_mem (h.table.nodup (by simpa using hfew))
  exact h.table.conserved.symm.subset (List.mem_map_of_mem hcall)

theorem Balanced.admitted_of_departed {admitted : List Call}
    (h : (c.run hs).2.Balanced admitted ((c.departures hs).map Departure.ticket))
    {d : Departure} (hd : d ∈ c.departures hs) : ∃ call ∈ admitted, call.ticket = d.ticket :=
  List.mem_map.mp (h.table.mem_issued_of_left (List.mem_map_of_mem hd))

/-- A request that departed in a part of a run stands nowhere else after the whole run. -/
theorem Balanced.departed_for_good {admitted : List Call} {earlier later : List Happening}
    (h : (c.run (earlier ++ later)).2.Balanced admitted
      ((c.departures (earlier ++ later)).map Departure.ticket))
    (hfew : admitted.length < 2 ^ 64) {ticket : Ticket} {fate : Fate}
    (hbefore : c.standings earlier ticket = [.departed fate]) :
    c.standings (earlier ++ later) ticket = [.departed fate] := by
  have hmem : .departed fate ∈ c.standings (earlier ++ later) ticket :=
    departed_mem_standings later (hbefore ▸ List.mem_singleton_self _)
  obtain ⟨d, hd, rfl, -⟩ := departed_mem_standings_iff.mp hmem
  obtain ⟨call, hcall, hticket⟩ := h.admitted_of_departed hd
  obtain ⟨standing, hstanding⟩ := h.single_standing hfew hcall
  rw [hticket] at hstanding
  rw [hstanding, List.mem_singleton] at hmem
  rw [hstanding, hmem]

/-- The call that withdraws a request in a run was admitted with the request. -/
theorem own_of_withdrawn_standing {settings : Settings} {ticket : Ticket} {number : Nat}
    {error : TransportError}
    (hmem : .departed (.withdrawn number error) ∈ (Client.new settings).standings hs ticket) :
    ∃ call ∈ (Client.new settings).admissions hs, call.number = number ∧ call.ticket = ticket := by
  obtain ⟨d, hd, rfl, hfate⟩ := departed_mem_standings_iff.mp hmem
  obtain ⟨s, hs', hd⟩ := List.mem_flatMap.mp hd
  obtain ⟨ht, earlier, later, hsplit, h⟩ := balanced_of_mem_stages hs'
  obtain ⟨call, hcall, hown⟩ := ht.own_of_withdrawn h.table.shaped hd hfate
  refine ⟨call, ?_, hown⟩
  rw [hsplit, admissions_append]
  exact List.mem_append_left _ (h.waiting call hcall)

/-- Every run accounts for all requests that it admitted, whatever happens in it and in
whatever order, as long as the numbers of the table do not run over. -/
theorem accounts_of_run (settings : Settings) (hs : List Happening)
    (hfew : ((Client.new settings).admissions hs).length < 2 ^ 64) :
    (Client.new settings).Accounts hs := by
  have h := balanced_new_run settings hs
  have hissued : (((Client.new settings).admissions hs).map Call.ticket).length < 2 ^ 64 := by
    simpa using hfew
  have hdistinct := h.table.issued_nodup hissued
  refine ⟨⟨?_, ?_⟩, hdistinct, fun call => h.single_standing hfew, ?_, ?_, ⟨?_, ?_⟩,
    fun s => events_of_mem_stages, ?_⟩
  · simpa [Function.comp_def] using h.table.numbered
  · rw [h.table.next, List.length_map]
  · rintro earlier later rfl ticket fate hbefore
    exact h.departed_for_good hfew hbefore
  · intro call hcall number error hstanding
    obtain ⟨own, hown, hnumber, hsame⟩ :=
      own_of_withdrawn_standing (hstanding ▸ List.mem_singleton_self _)
    have heq : own = call := List.inj_on_of_nodup_map hdistinct hown hcall hsame
    rw [← hnumber, heq]
  · exact (List.nodup_append.mp (h.table.nodup hissued)).2.1
  · intro d hd
    exact List.mem_map.mpr (h.admitted_of_departed hd)
  · intro hobserved
    have hkept := isObserved_of_run (Balanced.new settings) hobserved
    rw [effects_run, departures, List.filterMap_flatMap, List.filterMap_flatMap]
    apply List.flatMap_congr
    intro s hs'
    have hevents := events_of_mem_stages hs'
    rw [Stage.expectedEvents, hkept s hs'] at hevents
    exact hevents

/-- A run in which requests depart in every way, one of them after another one under the
same key. -/
def mixedFates : List Happening :=
  [.called 0 .getRelay 2, .called 0 .getBeacon 3, .called 1 .getFriend 4,
    .called 1 .getDefaultTtl 5, .finished 3 (some .unavailable),
    .received 2 [0x80, 0x28, 1, 0x25], .received 3 [0x80, 0x0B],
    .expired ⟨⟨.friend, 4⟩, 3⟩, .called 2500 .getFriend 4, .closed]

theorem accounts_of_mixedFates :
    ((Client.new .standard).admissions mixedFates).length < 2 ^ 64 ∧
      (Client.new .standard).Accounts mixedFates ∧
      ((Client.new .standard).departures mixedFates).map (fun d => (d.ticket.number, d.fate)) =
        [(4, .withdrawn 3 .unavailable),
          (1, .answered 2 [0x80, 0x28, 1, 0x25] (some (.relay .enabled ⟨5, 50⟩))),
          (2, .answered 3 [0x80, 0x0B] none), (3, .timedOut), (5, .discarded)] := by
  have hfew : ((Client.new .standard).admissions mixedFates).length < 2 ^ 64 := by decide
  exact ⟨hfew, accounts_of_run .standard mixedFates hfew, by decide⟩

end Client

end MeshFoundation
