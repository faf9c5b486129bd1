import MeshFoundation.Notice
import MeshFoundation.Pending.Timers

/-!
# A table under a clock

The clock only moves when it is told to, and on its way it stops at every timer that
goes off, in the order of the times. Requests whose time runs out may be made again at
that very moment, for each key as often as the table's owner wants; such a request can
run out of time within the same move of the clock, or at once if the timeout is zero.
Each request has only so many repetitions left, so every move of the clock ends.
-/

set_option autoImplicit false

namespace MeshFoundation.Pending

/-- A request whose time ran out, and when it did. -/
structure Expiry where
  ticket : Ticket
  awaited : Awaited
  /-- In milliseconds. -/
  time : Nat
  deriving DecidableEq, Repr

/-- A table of pending requests with a clock. -/
structure Timeline where
  /-- The time of the clock, in milliseconds. -/
  now : Nat
  table : Table
  /-- For each key, how many of the requests whose time runs out are made again. -/
  retries : Nat
  /-- The keys of the requests whose time ran out, the last one first. -/
  expired : List Key
  deriving DecidableEq, Repr

namespace Timeline

def start (timeout retries : Nat) : Timeline := ⟨0, Table.empty timeout, retries, []⟩

/-- How many more times the requests under a key are made again. -/
def retriesLeft (tl : Timeline) (key : Key) : Nat := tl.retries - tl.expired.count key

/-- Makes a request again whose time has just run out, if there are retries left. -/
def retry (tl : Timeline) (awaited : Awaited) : Table :=
  if tl.retriesLeft awaited.key = 0 then tl.table
  else
    match tl.table.record? tl.now awaited with
    | some (_, table) => table
    | none => tl.table

/-- Lets the time of a pending request run out. -/
def expire? (tl : Timeline) (timer : Timer) : Option (Expiry × Timeline) :=
  (tl.table.take? timer.ticket).map fun (entry, table) =>
    let left := { tl with now := timer.deadline, table }
    (⟨timer.ticket, entry.awaited, timer.deadline⟩,
      { left with table := left.retry entry.awaited, expired := entry.awaited.key :: tl.expired })

/-- Lets the time of the next pending request run out, if it does so up to the given time. -/
def next? (tl : Timeline) (limit : Nat) : Option (Expiry × Timeline) :=
  (tl.table.nextTimer? limit).bind tl.expire?

/-- How many times at most a timer can go off: once for each pending request, and once
more for each retry that it has left. -/
def potential (tl : Timeline) : Nat :=
  total (fun entry => 1 + tl.retriesLeft entry.awaited.key) tl.table.entries

/-- Making a request again adds the share of that request alone. -/
theorem total_retry_le (tl : Timeline) (awaited : Awaited) (share : Awaited → Nat) :
    total (fun entry => share entry.awaited) (tl.retry awaited).entries ≤
      total (fun entry => share entry.awaited) tl.table.entries +
        if tl.retriesLeft awaited.key = 0 then 0 else share awaited := by
  unfold retry
  split
  · omega
  · split
    · rename_i hrecord
      rw [Table.total_of_record? share hrecord]
      omega
    · omega

/-- Each timer that goes off lowers the number of times that this can happen. -/
theorem potential_lt_of_next? {tl tl' : Timeline} {limit : Nat} {expiry : Expiry}
    (h : tl.next? limit = some (expiry, tl')) : tl'.potential < tl.potential := by
  obtain ⟨timer, -, hexpire⟩ := Option.bind_eq_some_iff.mp h
  obtain ⟨⟨entry, left⟩, htake, heq⟩ := Option.map_eq_some_iff.mp hexpire
  cases heq
  have htotal := Table.total_of_take? (fun e => 1 + tl.retriesLeft e.awaited.key) htake
  have hretry := total_retry_le { tl with now := timer.deadline, table := left } entry.awaited
    (fun a => 1 + (tl.retries - (entry.awaited.key :: tl.expired).count a.key))
  have hle : total (fun e =>
      1 + (tl.retries - (entry.awaited.key :: tl.expired).count e.awaited.key)) left.entries ≤
      total (fun e => 1 + tl.retriesLeft e.awaited.key) left.entries := by
    apply total_le_total
    intro e
    have hcount : tl.expired.count e.awaited.key ≤
        (entry.awaited.key :: tl.expired).count e.awaited.key := List.count_le_count_cons
    simp only [retriesLeft]
    omega
  simp only [potential]
  simp only [retriesLeft, List.count_cons_self] at *
  split at hretry <;> omega

/-- Lets the time run out of every pending request for which it does so up to the given
time, one after another. -/
def run (limit : Nat) (tl : Timeline) : List Expiry × Timeline :=
  match _h : tl.next? limit with
  | none => ([], tl)
  | some (expiry, tl') =>
    let (expiries, final) := run limit tl'
    (expiry :: expiries, final)
termination_by tl.potential
decreasing_by exact potential_lt_of_next? _h

def advance (tl : Timeline) (milliseconds : Nat) : List Expiry × Timeline :=
  let limit := tl.now + milliseconds
  let (expiries, final) := tl.run limit
  (expiries, { final with now := limit })

end Timeline

end MeshFoundation.Pending
