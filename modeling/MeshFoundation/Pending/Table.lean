import MeshFoundation.Failure
import MeshFoundation.Pending.Entry
import MeshFoundation.Text.Span

/-!
# The table of pending requests

The table has a slot for every key under which something is awaited, and a request is
refused as busy when the slot of its key is there already. A request leaves the table in
one of four ways: its answer empties the slot, its ticket withdraws it, its time runs
out, or the table is cleared. The first way goes by key; the second and third go by
ticket and leave alone whatever else stands under the same key.

A slot is a list, and looking for a key, looking for a request and counting requests
look at different layers of the table. They agree as long as no slot is empty and none
holds two requests, which `record?` and `take?` see to.
-/

set_option autoImplicit false

namespace MeshFoundation.Pending

structure Table where
  /-- How long a request may be pending, in milliseconds. -/
  timeout : Nat
  /-- The number of the next request. -/
  next : UInt64
  /-- The requests that await an answer, by what answers them. -/
  slots : List (Key × List Entry)
  deriving DecidableEq, Repr

/-- What became of a request that was to be recorded. -/
inductive Admission where
  /-- Nothing answers the message, so there was nothing to record. -/
  | untracked
  /-- The key of the request is taken. -/
  | busy (refused : Awaited)
  | admitted (ticket : Ticket)
  deriving DecidableEq, Repr

/-- When the time of a ticket runs out. -/
structure Timer where
  ticket : Ticket
  deadline : Nat
  deriving DecidableEq, Repr

namespace Timer

/-- Whether a timer comes before another one: by time, and at the same time by number. -/
def precedes (a b : Timer) : Bool :=
  a.deadline < b.deadline || (a.deadline == b.deadline && a.ticket.number < b.ticket.number)

/-- The thing in a list whose timer comes first. If two timers come at the same time for
the same number, the thing that stands first in the list wins. -/
def first? {α : Type} (timer : α → Timer) : List α → Option α
  | [] => none
  | x :: rest =>
    match first? timer rest with
    | none => some x
    | some y => if (timer y).precedes (timer x) then some y else some x

end Timer

namespace Table

def empty (timeout : Nat) : Table := ⟨timeout, 1, []⟩

def slot? (t : Table) (key : Key) : Option (List Entry) :=
  (t.slots.find? fun slot => slot.1 = key).map Prod.snd

def entries (t : Table) : List Entry := t.slots.flatMap fun slot => slot.2

def length (t : Table) : Nat := t.entries.length

/-- Whether the table has no slot. -/
def isEmpty (t : Table) : Bool := t.slots.isEmpty

/-- The table as a text for inspection. -/
def text (t : Table) : String :=
  "PendingRequestTable \x7b timeout: " ++ Text.span t.timeout ++ ", len: " ++
    Text.decimal t.length ++ ", .. \x7d"

/-- Records a request at the given time, unless its key is taken. -/
def record? (t : Table) (now : Nat) (awaited : Awaited) : Option (Ticket × Table) :=
  match t.slot? awaited.key with
  | some _ => none
  | none =>
    some (⟨awaited.key, t.next⟩,
      { t with
        next := t.next + 1
        slots := (awaited.key, [⟨t.next, awaited, now + t.timeout⟩]) :: t.slots })

/-- Records the request with the given opcode. -/
def add (t : Table) (now : Nat) (op : Opcode) (node : UInt16) : Admission × Table :=
  match Awaited.ofOpcode? op node with
  | none => (.untracked, t)
  | some awaited =>
    match t.record? now awaited with
    | none => (.busy awaited, t)
    | some (ticket, t') => (.admitted ticket, t')

/-- Whether the request with the given opcode would be refused as busy. -/
def isBusy (t : Table) (op : Opcode) (node : UInt16) : Bool :=
  match Awaited.ofOpcode? op node with
  | none => false
  | some awaited => (t.slot? awaited.key).isSome

/-- The request that a status message with the given opcode from a node would answer. -/
def find? (t : Table) (op : Opcode) (node : UInt16) : Option Awaited := do
  let key ← Key.ofOpcode? op node
  let slot ← t.slot? key
  let entry ← slot.head?
  return entry.awaited

/-- Empties the slot of a key, and gives what stood in it. -/
def takeSlot (t : Table) (key : Key) : List Entry × Table :=
  ((t.slot? key).getD [], { t with slots := t.slots.filter fun slot => slot.1 ≠ key })

/-- Takes out every request that a status message with the given opcode from a node
answers. -/
def remove (t : Table) (op : Opcode) (node : UInt16) : List Awaited × Table :=
  match Key.ofOpcode? op node with
  | none => ([], t)
  | some key =>
    let (taken, t') := t.takeSlot key
    (taken.map Entry.awaited, t')

/-- Takes the request with the given number out of a list, if it is in there. -/
def takeNumber? (number : UInt64) : List Entry → Option (Entry × List Entry)
  | [] => none
  | entry :: rest =>
    if entry.number = number then some (entry, rest)
    else (takeNumber? number rest).map fun (taken, left) => (taken, entry :: left)

/-- Takes the request of a ticket out of a list of slots, if it is in there. A slot that
is left without requests goes with it. -/
def takeTicket? (ticket : Ticket) :
    List (Key × List Entry) → Option (Entry × List (Key × List Entry))
  | [] => none
  | (key, slot) :: rest =>
    match if key = ticket.key then takeNumber? ticket.number slot else none with
    | some (taken, []) => some (taken, rest)
    | some (taken, left) => some (taken, (key, left) :: rest)
    | none => (takeTicket? ticket rest).map fun (taken, left) => (taken, (key, slot) :: left)

/-- Takes out the request of a ticket, if it is still pending. -/
def take? (t : Table) (ticket : Ticket) : Option (Entry × Table) :=
  (takeTicket? ticket t.slots).map fun (taken, slots) => (taken, { t with slots })

def clear (t : Table) : Table := { t with slots := [] }

/-- The timers that run, one for each pending request. -/
def timers (t : Table) : List Timer :=
  t.slots.flatMap fun slot =>
    slot.2.map fun entry => ⟨⟨slot.1, entry.number⟩, entry.deadline⟩

/-- The timer that goes off next, if one does so up to the given time. -/
def nextTimer? (t : Table) (limit : Nat) : Option Timer :=
  (Timer.first? id t.timers).filter fun timer => timer.deadline ≤ limit

end Table

end MeshFoundation.Pending
