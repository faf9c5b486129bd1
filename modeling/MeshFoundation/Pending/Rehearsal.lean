import MeshFoundation.Pending.Action
import MeshFoundation.Pending.Timeline

/-!
# Rehearsals of a table

A rehearsal leads a table under a clock through a list of steps and keeps, for each
step, what its owner gets to see: the answer, the time, what is pending, which requests
ran out of time on the way, and the notices. Requests that ran out of time are listed by
time, at the same time by node, and for the same node by opcode, so that the order in
which timers of one moment go off does not show.
-/

set_option autoImplicit false

namespace MeshFoundation.Pending

/-- Whether an expiry may stand before another one in a list. -/
def Expiry.standsBefore (a b : Expiry) : Bool :=
  ((compare a.time b.time).then (a.awaited.order b.awaited)).isLE

def Expiry.notice (e : Expiry) : Notice := .timedOut e.awaited.request e.awaited.node

namespace Rehearsal

inductive Step where
  | act (action : Action)
  | advance (milliseconds : Nat)
  deriving DecidableEq, Repr

/-- What the owner of a table sees of a step. -/
structure Observation where
  answer : Answer
  now : Nat
  length : Nat
  isEmpty : Bool
  expiries : List Expiry
  notices : List Notice
  deriving DecidableEq, Repr

end Rehearsal

/-- A table under a clock, with the tickets that it has given out. -/
structure Rehearsal where
  timeline : Timeline
  tickets : List Ticket
  deriving DecidableEq, Repr

namespace Rehearsal

def start (timeout retries : Nat) : Rehearsal := ⟨Timeline.start timeout retries, []⟩

/-- Does a step. A request whose timeout is zero runs out of time within the step that
records it, but only after its ticket was given out. -/
def step (r : Rehearsal) : Step → Observation × Rehearsal
  | .act action =>
    let (answer, table) := action.perform r.timeline.now r.tickets r.timeline.table
    let (expiries, timeline) := { r.timeline with table }.advance 0
    (observe answer (action.notices answer) expiries timeline,
      ⟨timeline, r.tickets ++ answer.tickets⟩)
  | .advance milliseconds =>
    let (expiries, timeline) := r.timeline.advance milliseconds
    (observe .done [] expiries timeline, ⟨timeline, r.tickets⟩)
where
  /-- What is seen of a step that ends with the given timeline. -/
  observe (answer : Answer) (notices : List Notice) (expiries : List Expiry)
      (tl : Timeline) : Observation :=
    { answer
      now := tl.now
      length := tl.table.length
      isEmpty := tl.table.isEmpty
      expiries := expiries.mergeSort Expiry.standsBefore
      notices := notices ++ expiries.map Expiry.notice }

def steps (r : Rehearsal) : List Step → List Observation × Rehearsal
  | [] => ([], r)
  | first :: rest =>
    let (observation, r') := r.step first
    let (observations, final) := steps r' rest
    (observation :: observations, final)

end Rehearsal

end MeshFoundation.Pending
