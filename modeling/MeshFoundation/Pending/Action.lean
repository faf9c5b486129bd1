import MeshFoundation.Notice
import MeshFoundation.Pending.Table

/-!
# Actions on a table

What the owner of a table can do with it and what the table answers. Tickets are
numbered in the order in which they were given out, and an action names a ticket by its
number.
-/

set_option autoImplicit false

namespace MeshFoundation.Pending

inductive Action where
  | add (opcode : Opcode) (node : UInt16)
  | isBusy (opcode : Opcode) (node : UInt16)
  | find (opcode : Opcode) (node : UInt16)
  | remove (opcode : Opcode) (node : UInt16)
  | withdraw (ticket : Nat)
  | clear
  | timeout
  | text
  deriving DecidableEq, Repr

inductive Answer where
  /-- To a request for a record. -/
  | admission (admission : Admission)
  /-- To the question whether something is so. -/
  | truth (value : Bool)
  /-- To an action that concerns one request at most. -/
  | request (awaited? : Option Awaited)
  /-- To an action that may concern several requests. -/
  | requests (awaited : List Awaited)
  /-- In milliseconds. -/
  | span (milliseconds : Nat)
  | text (content : String)
  /-- To an action that leaves nothing to be said. -/
  | done
  deriving DecidableEq, Repr

/-- The notices that recording the message with an opcode gives rise to. -/
def Admission.notices (op : Opcode) (node : UInt16) : Admission → List Notice
  | .untracked => [.untracked op node]
  | .busy refused => [.busyRefused refused.request refused.node]
  | .admitted _ => []

namespace Action

/-- Does something with a table at the given time. The list holds the tickets that were
given out before. -/
def perform (now : Nat) (tickets : List Ticket) (t : Table) : Action → Answer × Table
  | .add op node =>
    let (admission, t') := t.add now op node
    (.admission admission, t')
  | .isBusy op node => (.truth (t.isBusy op node), t)
  | .find op node => (.request (t.find? op node), t)
  | .remove op node =>
    let (removed, t') := t.remove op node
    (.requests removed, t')
  | .withdraw ticket =>
    match (tickets[ticket]?).bind t.take? with
    | some (entry, t') => (.request (some entry.awaited), t')
    | none => (.request none, t)
  | .clear => (.done, t.clear)
  | .timeout => (.span t.timeout, t)
  | .text => (.text t.text, t)

/-- The notices that an action with the given answer gives rise to. -/
def notices : Action → Answer → List Notice
  | .add op node, .admission admission => admission.notices op node
  | _, _ => []

end Action

def Answer.tickets : Answer → List Ticket
  | .admission (.admitted ticket) => [ticket]
  | _ => []

end MeshFoundation.Pending
