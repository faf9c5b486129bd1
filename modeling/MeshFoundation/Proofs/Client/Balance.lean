import MeshFoundation.Proofs.Client.History
import MeshFoundation.Proofs.Pending.Balance

/-!
# The balance of a client

A client is balanced against its history if the pending requests and those that departed
are the requests of all calls that were admitted, each as often as it was admitted. Every
stage keeps the balance (`Balanced.stage`), and with it every run (`Balanced.run`).
-/

set_option autoImplicit false

namespace MeshFoundation.Client

open Pending

/-- The pending requests and those that left are the requests of all calls that were
admitted, the calls that wait are among these, and no two calls have the same number. -/
structure Balanced (c : Client) (admitted : List Call) (left : List Ticket) : Prop where
  table : c.table.Balanced (admitted.map Call.ticket) left
  waiting : ∀ call ∈ c.calls, call ∈ admitted
  numbered : (admitted.map Call.number).Nodup
  next : ∀ call ∈ admitted, call.number < c.next

variable {c c' : Client} {s : Stage} {admitted : List Call} {left : List Ticket}

theorem Balanced.new (settings : Settings) : (Client.new settings).Balanced [] [] where
  table := Table.Balanced.empty settings.timeout
  waiting := by
    intro call hcall
    cases hcall
  numbered := List.nodup_nil
  next := by
    intro call hcall
    cases hcall

/-- A call that is admitted is new, and its request is pending. -/
theorem Balanced.enter (h : c.Balanced admitted left) {now : Nat} {awaited : Awaited}
    {call : Call} (hrecord : c.table.record? now awaited = some (call.ticket, c'.table))
    (hcalls : c'.calls = c.calls ++ [call]) (hnumber : call.number = c.next)
    (hnext : c'.next = c.next + 1) : c'.Balanced (admitted ++ [call]) left := by
  refine ⟨?_, ?_, ?_, ?_⟩
  · rw [List.map_append]
    exact h.table.record hrecord
  · intro waiting hwaiting
    rw [hcalls] at hwaiting
    rcases List.mem_append.mp hwaiting with hold | hnew
    · exact List.mem_append_left _ (h.waiting waiting hold)
    · exact List.mem_append_right _ hnew
  · rw [List.map_append, List.nodup_append]
    refine ⟨h.numbered, List.nodup_singleton _, ?_⟩
    intro a ha b hb heq
    obtain ⟨old, hold, rfl⟩ := List.mem_map.mp ha
    obtain rfl : b = call.number := by simpa using hb
    have hlt := h.next old hold
    omega
  · intro other hother
    rcases List.mem_append.mp hother with hold | hnew
    · have hlt := h.next other hold
      omega
    · obtain rfl : other = call := by simpa using hnew
      omega

theorem Balanced.leave (h : c.Balanced admitted left) {p : Key × List Entry → Bool}
    (htable : c'.table = c.table.keep p) (hcalls : c'.calls.Sublist c.calls)
    (hnext : c.next ≤ c'.next) :
    c'.Balanced admitted (left ++ (c.table.missing c'.table).map Entry.ticket) := by
  refine ⟨?_, ?_, h.numbered, ?_⟩
  · rw [htable]
    exact h.table.keep p
  · intro call hcall
    exact h.waiting call (hcalls.subset hcall)
  · intro call hcall
    exact Nat.lt_of_lt_of_le (h.next call hcall) hnext

/-- No call is admitted in a stage after which no new one waits. -/
theorem Stage.admitted_of_sublist (hcalls : s.after.calls.Sublist s.before.calls) :
    s.admitted = [] := by
  apply List.filter_eq_nil_iff.mpr
  intro call hcall
  simpa using hcalls.subset hcall

/-- A call that waits from a stage on, under the next number, is admitted in it. -/
theorem Balanced.admitted_of_entered (h : s.before.Balanced admitted left) {call : Call}
    (hcalls : s.after.calls = s.before.calls ++ [call]) (hnumber : call.number = s.before.next) :
    s.admitted = [call] := by
  have hfresh : call ∉ s.before.calls := by
    intro hcall
    have hlt := h.next call (h.waiting call hcall)
    omega
  simp [Stage.admitted, hcalls, List.filter_append, hfresh]

theorem Stage.Passage.tickets_departures (hp : s.Passage) (h : s.before.table.Shaped) :
    s.departures.map Departure.ticket = s.gone.map Entry.ticket := by
  rw [← hp.entries_departures h, List.map_map]
  rfl

/-- Every stage keeps the balance. -/
theorem Balanced.stage (h : s.before.Balanced admitted left) (hp : s.Passage) :
    s.after.Balanced (admitted ++ s.admitted) (left ++ s.departures.map Departure.ticket) := by
  rw [hp.tickets_departures h.table.shaped]
  cases hp with
  | quiet htable hcalls hnext =>
    rw [Stage.admitted_of_sublist hcalls, List.append_nil]
    exact h.leave (htable.trans s.before.table.keep_true.symm) hcalls hnext
  | entered call hrecord hcalls hnumber hnext =>
    rw [h.admitted_of_entered hcalls hnumber, Stage.gone, h.table.shaped.missing_record hrecord,
      List.map_nil, List.append_nil]
    exact h.enter hrecord hcalls hnumber hnext
  | left htable hcalls hnext =>
    rw [Stage.admitted_of_sublist hcalls, List.append_nil]
    exact h.leave htable hcalls hnext

/-- Every run keeps the balance, whatever happens in it. -/
theorem Balanced.run (h : c.Balanced admitted left) (hs : List Happening) :
    (c.run hs).2.Balanced (admitted ++ c.admissions hs)
      (left ++ (c.departures hs).map Departure.ticket) := by
  induction hs generalizing c admitted left with
  | nil => simpa [Client.run, admissions, departures, stages] using h
  | cons first rest ih =>
    have hp := (transition_of_step h.table.shaped first).passage h.table.shaped
    have hrest := ih (Balanced.stage h hp)
    simpa [Client.run, admissions, departures, stages] using hrest

theorem balanced_new_run (settings : Settings) (hs : List Happening) :
    ((Client.new settings).run hs).2.Balanced ((Client.new settings).admissions hs)
      (((Client.new settings).departures hs).map Departure.ticket) :=
  (Balanced.new settings).run hs

/-- Every stage of a run is a transition of a client that is balanced against the part of
the run before it. -/
theorem balanced_of_mem_stages {settings : Settings} {hs : List Happening}
    (hs' : s ∈ (Client.new settings).stages hs) :
    s.before.Transition s.happening s.effects s.after ∧
      ∃ earlier later, hs = earlier ++ s.happening :: later ∧
        s.before.Balanced ((Client.new settings).admissions earlier)
          (((Client.new settings).departures earlier).map Departure.ticket) := by
  obtain ⟨earlier, later, hsplit, hbefore, heffects, hafter⟩ := exists_of_mem_stages hs'
  have h := balanced_new_run settings earlier
  rw [← hbefore] at h
  refine ⟨?_, earlier, later, hsplit, h⟩
  rw [heffects, hafter]
  exact transition_of_step h.table.shaped s.happening

/-- In every stage of a run the observer, if there is one, is told of what departs in it,
and of nothing else. -/
theorem events_of_mem_stages {settings : Settings} {hs : List Happening}
    (hs' : s ∈ (Client.new settings).stages hs) : s.events = s.expectedEvents := by
  obtain ⟨ht, _, _, _, h⟩ := balanced_of_mem_stages hs'
  exact (ht.passage h.table.shaped).events_eq h.table.shaped

end MeshFoundation.Client
