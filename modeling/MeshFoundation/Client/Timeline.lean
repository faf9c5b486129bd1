import MeshFoundation.Client.Step
import MeshFoundation.Pending.Timers

/-!
# A client under a clock

The clock only moves when it is told to, and on its way it stops wherever something
falls due: the transport is done with a message, or the time of a pending request runs
out. What falls due at the same moment happens in the order in which the requests were
recorded, and for one request the transport comes first.

Every stop uses up a message that is on its way or a pending request, and no stop makes
new ones, so every move of the clock ends.
-/

set_option autoImplicit false

namespace MeshFoundation.Client

open Pending

/-- A message that the transport is busy with. -/
structure Sending where
  call : Nat
  /-- Of the pending request. -/
  ticket : Ticket
  /-- When the transport will be done with it, in milliseconds. -/
  ends : Nat
  /-- What it will say. -/
  error? : Option TransportError
  deriving DecidableEq, Repr

/-- Something that falls due. -/
inductive Due where
  | sending (sending : Sending)
  | timer (timer : Timer)
  deriving DecidableEq, Repr

/-- When something falls due, and for which request. -/
def Due.timing : Due → Timer
  | .sending s => ⟨s.ticket, s.ends⟩
  | .timer t => t

/-- An effect and when it happened. -/
structure Dated where
  /-- In milliseconds. -/
  time : Nat
  effect : Effect
  deriving DecidableEq, Repr

/-- A client with a clock and a transport. -/
structure Timeline where
  /-- The time of the clock, in milliseconds. -/
  now : Nat
  client : Client
  /-- The messages that the transport is busy with. -/
  sendings : List Sending
  /-- Whether the client will be closed as soon as no call waits. -/
  isClosing : Bool
  deriving DecidableEq, Repr

namespace Timeline

def start (settings : Settings) : Timeline := ⟨0, Client.new settings, [], false⟩

def dated (tl : Timeline) (effects : List Effect) : List Dated := effects.map fun e => ⟨tl.now, e⟩

/-- Makes a call. If its message is handed over, the transport is busy with it from now
on, and deals with it as the given delivery says. -/
def call (tl : Timeline) (delivery : Delivery) (op : Operation) (node : UInt16) :
    List Dated × Timeline :=
  let (effects, client) := tl.client.call tl.now op node
  let sendings := (client.calls.filter fun call => call.number = tl.client.next).map fun call =>
    ⟨call.number, call.ticket, tl.now + delivery.delay, delivery.error?⟩
  (tl.dated effects, { tl with client, sendings := tl.sendings ++ sendings })

def receive (tl : Timeline) (source : UInt16) (bytes : Bytes) : List Dated × Timeline :=
  let (effects, client) := tl.client.receive source bytes
  (tl.dated effects, { tl with client })

/-- Closes the client if nobody holds on to it any more, not even a call that waits. -/
def settleClosing (tl : Timeline) : Timeline :=
  if tl.isClosing && tl.sendings.isEmpty then { tl with client := tl.client.close } else tl

/-- The messages on their way without that of one call. -/
def sendingsWithout (tl : Timeline) (call : Nat) : List Sending :=
  tl.sendings.filter fun sending => sending.call ≠ call

/-- Gives a call up that waits for the transport. -/
def abort (tl : Timeline) (call : Nat) : Timeline :=
  { tl with client := tl.client.abort call, sendings := tl.sendingsWithout call }.settleClosing

/-- Lets go of the client. A call that waits still holds on to it. -/
def close (tl : Timeline) : Timeline := { tl with isClosing := true }.settleClosing

def dues (tl : Timeline) : List Due :=
  tl.sendings.map Due.sending ++ tl.client.table.timers.map Due.timer

/-- The clock stops, and what falls due happens. -/
def happen (tl : Timeline) (due : Due) : List Dated × Timeline :=
  let tl := { tl with now := due.timing.deadline }
  match due with
  | .sending sending =>
    let (effects, client) := tl.client.finish sending.call sending.error?
    (tl.dated effects,
      { tl with client, sendings := tl.sendingsWithout sending.call }.settleClosing)
  | .timer timer =>
    let (effects, client) := tl.client.expire timer.ticket
    (tl.dated effects, { tl with client })

/-- What falls due next, if it does so up to the given time. -/
def nextDue? (tl : Timeline) (limit : Nat) : Option Due :=
  (Timer.first? Due.timing tl.dues).filter fun due => due.timing.deadline ≤ limit

/-- How many times at most something can fall due. -/
def potential (tl : Timeline) : Nat := tl.sendings.length + tl.client.table.length

/-- Closing the client makes nothing fall due. -/
theorem potential_settleClosing_le (tl : Timeline) : tl.settleClosing.potential ≤ tl.potential := by
  unfold settleClosing
  split
  · simp [potential, Client.close, Table.clear, Table.length, Table.entries]
  · exact Nat.le_refl _

/-- When the transport is done with a message, no more requests are pending than before. -/
theorem length_finish_le (c : Client) (call : Nat) (error? : Option TransportError) :
    (c.finish call error?).2.table.length ≤ c.table.length := by
  unfold Client.finish
  split
  · exact Nat.le_refl _
  · split
    · exact Nat.le_refl _
    · simp only
      split
      · rename_i htake
        have hlength := Table.length_of_take? htake
        omega
      · exact Nat.le_refl _

/-- Whatever falls due lowers the number of times that this can happen. -/
theorem potential_lt_of_nextDue? {tl : Timeline} {limit : Nat} {due : Due}
    (h : tl.nextDue? limit = some due) : (tl.happen due).2.potential < tl.potential := by
  obtain ⟨hfirst, -⟩ := Option.filter_eq_some_iff.mp h
  have hmem := Timer.mem_of_first? hfirst
  unfold happen
  rcases List.mem_append.mp hmem with hmem | hmem
  · obtain ⟨sending, hsending, rfl⟩ := List.mem_map.mp hmem
    refine Nat.lt_of_le_of_lt (potential_settleClosing_le _) ?_
    have hfinish := length_finish_le tl.client sending.call sending.error?
    have hfilter : (tl.sendings.filter fun s => s.call ≠ sending.call).length
        < tl.sendings.length := by
      rw [List.length_filter_lt_length_iff_exists]
      exact ⟨sending, hsending, by simp⟩
    simp only [potential, sendingsWithout]
    omega
  · obtain ⟨timer, htimer, rfl⟩ := List.mem_map.mp hmem
    obtain ⟨⟨taken, left⟩, htake⟩ :=
      Option.isSome_iff_exists.mp (Table.take?_isSome_of_mem_timers htimer)
    have hlength := Table.length_of_take? htake
    simp only [potential, Client.expire, htake]
    omega

/-- Lets everything happen that falls due up to the given time. -/
def run (limit : Nat) (tl : Timeline) : List Dated × Timeline :=
  match _h : tl.nextDue? limit with
  | none => ([], tl)
  | some due =>
    let (more, final) := run limit (tl.happen due).2
    ((tl.happen due).1 ++ more, final)
termination_by tl.potential
decreasing_by exact potential_lt_of_nextDue? _h

/-- Moves the clock to the given time, if it is not past it. -/
def advanceTo (tl : Timeline) (time : Nat) : List Dated × Timeline :=
  let limit := max tl.now time
  let (effects, final) := tl.run limit
  (effects, { final with now := limit })

end Timeline

end MeshFoundation.Client
