import MeshFoundation.Proofs.Client.Balance

/-!
# When the transport fails

Between the time when a call hands its message over and the time when the transport fails,
the request of the call may have been answered or timed out, and a later call may await the
same answer from the same node. What the failure takes out of the table is the request of
the failed call, if that is still pending, and never one of another call
(`failure_spares_others`). Whatever happens afterwards, the observer hears nothing of
the request of the failed call.
-/

set_option autoImplicit false

namespace MeshFoundation

open Pending

/-- No operation is refused by the transport before its message is handed over. -/
theorem Operation.payload_ne_transport (op : Operation) (node : UInt16)
    (error : TransportError) : op.payload node ≠ .error (.transport error) := by
  unfold payload
  split
  · exact nofun
  · split
    · split
      · exact nofun
      · exact nofun
    · exact nofun

namespace Client

variable {c c' : Client} {happening : Happening} {effects : List Effect}

/-! ## Which calls come back from a failed transport -/

/-- What comes of an answer brings no call back. -/
theorem returned_not_mem_resolve {number : Nat} {failure? : Option Failure} (request : Request)
    (source : UInt16) (params : Bytes) :
    .returned number failure? ∉ c.resolve request source params := by
  unfold resolve tell
  cases Report.decode? request.status params with
  | none => simp
  | some report => cases c.isObserved <;> simp

/-- A call that comes back with the failure of the transport waited for it until now. -/
theorem Transition.failed_of_returned (ht : c.Transition happening effects c') {number : Nat}
    {error : TransportError} (hreturned : .returned number (some (.transport error)) ∈ effects) :
    ∃ call ∈ c.calls, call.number = number ∧ happening = .finished number (some error) ∧
      c'.table = c.table.without call.ticket ∧ effects.filterMap Effect.event? = [] := by
  cases ht with
  | rejected hpayload =>
    simp only [List.mem_singleton, Effect.returned.injEq, Option.some.injEq] at hreturned
    rw [← hreturned.2] at hpayload
    exact absurd hpayload (Operation.payload_ne_transport _ _ _)
  | @failed call _ hwaiting =>
    simp only [List.mem_cons, reduceCtorEq, List.not_mem_nil, or_false, false_or,
      Effect.returned.injEq, Option.some.injEq, Failure.transport.injEq] at hreturned
    obtain ⟨rfl, rfl⟩ := hreturned
    exact ⟨call, hwaiting, rfl, rfl, rfl, rfl⟩
  | answered => exact absurd hreturned (returned_not_mem_resolve _ _ _)
  | timedOut =>
    unfold tell at hreturned
    cases hobserved : c.isObserved <;> simp [hobserved] at hreturned
  | _ => simp at hreturned

/-- A call that waits comes back with the failure of the transport. -/
theorem Transition.returned_of_failure {number : Nat} {error : TransportError}
    (ht : c.Transition (.finished number (some error)) effects c') {call : Call}
    (hcall : call ∈ c.calls) (hnumber : call.number = number) :
    .returned number (some (.transport error)) ∈ effects := by
  cases ht with
  | failed hwaiting => simp
  | unawaited hnone => exact absurd hnumber (hnone call hcall)

/-- The number of a call that comes back tells which one it is. -/
theorem Balanced.own_of_returned {admitted : List Call} {left : List Ticket}
    (h : c.Balanced admitted left) (ht : c.Transition happening effects c') {own : Call}
    (hown : own ∈ admitted) {error : TransportError}
    (hreturned : .returned own.number (some (.transport error)) ∈ effects) :
    own ∈ c.calls ∧ happening = .finished own.number (some error) ∧
      c'.table = c.table.without own.ticket ∧ effects.filterMap Effect.event? = [] := by
  obtain ⟨call, hcall, hnumber, hfailed⟩ := ht.failed_of_returned hreturned
  obtain rfl : call = own :=
    List.inj_on_of_nodup_map h.numbered (h.waiting call hcall) hown hnumber
  exact ⟨hcall, hfailed⟩

/-! ## What a failed call leaves behind -/

/-- The requests of other calls stay as they are. -/
theorem Balanced.mem_without {admitted : List Call} {left : List Ticket}
    (h : c.Balanced admitted left) (hfew : admitted.length < 2 ^ 64) {own other : Call}
    (hown : own ∈ admitted) (hother : other ∈ admitted) (hne : other ≠ own) {e : Entry}
    (he : e ∈ c.table.entries) (hticket : e.ticket = other.ticket) :
    e ∈ (c.table.without own.ticket).entries := by
  have hnodup : (admitted.map Call.ticket).Nodup := h.table.issued_nodup (by simpa using hfew)
  have hdifferent : e.ticket ≠ own.ticket := by
    rw [hticket]
    intro heq
    exact hne (List.inj_on_of_nodup_map hnodup hother hown heq)
  rw [h.table.shaped.entries_without]
  exact List.mem_filter.mpr ⟨he, decide_eq_true hdifferent⟩

/-- A ticket that is pending no longer in the middle of a run does not depart after it. -/
theorem not_departed_of_not_pending {settings : Settings} {earlier later : List Happening}
    (hfew : ((Client.new settings).admissions (earlier ++ later)).length < 2 ^ 64) {call : Call}
    (hcall : call ∈ (Client.new settings).admissions earlier)
    (hgone : call.ticket ∉ ((Client.new settings).run earlier).2.table.tickets) {s : Stage}
    (hs : s ∈ ((Client.new settings).run earlier).2.stages later) {d : Departure}
    (hd : d ∈ s.departures) : d.ticket ≠ call.ticket := by
  intro heq
  have hleft : call.ticket ∈ ((Client.new settings).departures earlier).map Departure.ticket :=
    ((balanced_new_run settings earlier).table.pending_or_left
      (List.mem_map_of_mem hcall)).resolve_left hgone
  have hagain : d ∈ ((Client.new settings).run earlier).2.departures later :=
    List.mem_flatMap.mpr ⟨s, hs, hd⟩
  have hnodup := (balanced_new_run settings (earlier ++ later)).table.nodup (by simpa using hfew)
  -- The ticket departed before, and once more after it.
  rw [departures_append, List.map_append] at hnodup
  have hdisjoint := (List.nodup_append.mp (List.nodup_append.mp hnodup).2.1).2.2
  exact hdisjoint _ hleft _ (List.mem_map_of_mem hagain) heq.symm

/-- An admitted call comes back with the failure of the transport exactly if it still waits
and the transport fails to send its message. The table is then what it was before without
the request of this very call, so that the requests of all other calls stay as they are,
and from then on the observer is told of other requests alone. -/
theorem failure_spares_others (settings : Settings) (earlier later : List Happening)
    (happening : Happening) (error : TransportError) {own : Call}
    (hown : own ∈ (Client.new settings).admissions earlier)
    (hfew : ((Client.new settings).admissions (earlier ++ happening :: later)).length < 2 ^ 64) :
    let c := ((Client.new settings).run earlier).2
    let effects := (c.step happening).1
    let c' := (c.step happening).2
    let returned := Effect.returned own.number (some (.transport error))
    (returned ∈ effects ↔ own ∈ c.calls ∧ happening = .finished own.number (some error)) ∧
      (returned ∈ effects →
        effects.filterMap Effect.event? = [] ∧
        c'.table = c.table.without own.ticket ∧
        c'.table.entries = (c.table.entries.filter fun e => e.ticket ≠ own.ticket) ∧
        (∀ other ∈ (Client.new settings).admissions earlier, other ≠ own →
          ∀ e ∈ c.table.entries, e.ticket = other.ticket → e ∈ c'.table.entries) ∧
        ∀ s ∈ c'.stages later, s.events = s.expectedEvents ∧
          ∀ d ∈ s.departures, d.ticket ≠ own.ticket) := by
  intro c effects c' returned
  have h : c.Balanced _ _ := balanced_new_run settings earlier
  have ht : c.Transition happening effects c' := transition_of_step h.table.shaped happening
  have hsplit : earlier ++ happening :: later = (earlier ++ [happening]) ++ later := by simp
  have hafter : ((Client.new settings).run (earlier ++ [happening])).2 = c' := by
    rw [run_append]
    rfl
  have hissued : ((Client.new settings).admissions earlier).length < 2 ^ 64 := by
    rw [admissions_append, List.length_append] at hfew
    omega
  refine ⟨⟨?_, ?_⟩, ?_⟩
  · intro hreturned
    obtain ⟨hwaiting, hhappening, -⟩ := h.own_of_returned ht hown hreturned
    exact ⟨hwaiting, hhappening⟩
  · rintro ⟨hwaiting, rfl⟩
    exact ht.returned_of_failure hwaiting rfl
  · intro hreturned
    obtain ⟨-, -, htable, hevents⟩ := h.own_of_returned ht hown hreturned
    have hentries : c'.table.entries = c.table.entries.filter fun e => e.ticket ≠ own.ticket := by
      rw [htable, h.table.shaped.entries_without]
    refine ⟨hevents, htable, hentries, ?_, ?_⟩
    · intro other hother hne e he hticket
      rw [htable]
      exact h.mem_without hissued hown hother hne he hticket
    · intro s hs
      rw [hsplit] at hfew
      rw [← hafter] at hs
      have hmem : s ∈ (Client.new settings).stages (earlier ++ [happening] ++ later) := by
        rw [stages_append]
        exact List.mem_append_right _ hs
      have hadmitted : own ∈ (Client.new settings).admissions (earlier ++ [happening]) := by
        rw [admissions_append]
        exact List.mem_append_left _ hown
      have hgone : own.ticket ∉
          ((Client.new settings).run (earlier ++ [happening])).2.table.tickets := by
        rw [hafter, Table.tickets, hentries]
        intro hpending
        obtain ⟨e, he, heq⟩ := List.mem_map.mp hpending
        simp [heq] at he
      exact ⟨events_of_mem_stages hmem,
        fun d => not_departed_of_not_pending hfew hadmitted hgone hs⟩

/-- A call whose request timed out while the transport was busy with its message. -/
def slowCall : Call := ⟨0, .relayGet, ⟨2, 0, [0x80, 0x26]⟩, ⟨⟨.relay, 2⟩, 1⟩⟩

/-- A later call awaits the same answer as the slow one from the same node. -/
def repeatedCall : List Happening :=
  [.called 0 .getRelay 2, .expired slowCall.ticket, .called 2500 .getRelay 2]

theorem failure_spares_repeatedCall :
    let c := ((Client.new .standard).run repeatedCall).2
    slowCall ∈ (Client.new .standard).admissions repeatedCall ∧
      ((Client.new .standard).admissions (repeatedCall ++ [.finished 0 (some .unavailable)])).length
        < 2 ^ 64 ∧
      c.table.entries = [⟨2, ⟨.relayGet, 2⟩, 4500⟩] ∧
      (c.step (.finished 0 (some .unavailable))).2.table.entries = c.table.entries := by
  intro c
  have hown : slowCall ∈ (Client.new .standard).admissions repeatedCall := by decide
  have hfew : ((Client.new .standard).admissions
      (repeatedCall ++ [.finished 0 (some .unavailable)])).length < 2 ^ 64 := by decide
  obtain ⟨hreturned, hrest⟩ := failure_spares_others .standard repeatedCall []
    (.finished 0 (some .unavailable)) .unavailable hown hfew
  obtain ⟨-, -, hentries, -⟩ := hrest (hreturned.mpr ⟨by decide, rfl⟩)
  refine ⟨hown, hfew, by decide, hentries.trans ?_⟩
  decide

end Client

end MeshFoundation
