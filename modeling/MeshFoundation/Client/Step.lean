import MeshFoundation.Client.Basic

/-!
# Steps of a client

What can happen to a client: a call is made, the transport is done with the message of
a call, a call is given up, a message arrives, the time of a pending request runs out,
the observer goes away, the client is closed. Each of these is one step, which nothing
interrupts; a step gives the effects that it has on the outside, in their order. Where a
message is taken in, each effect is first kept with the client as it stands then, for an
observer may look at the client when it is told of an event.

A call waits for the transport between its first and its last step, and anything may
happen meanwhile. Its request is pending all that time, so that an answer which is
faster than the transport finds it.
-/

set_option autoImplicit false

namespace MeshFoundation

open Pending

namespace Client

/-- Makes a call. A request that passes all checks is pending from here on, and its
message is handed to the transport. -/
def call (c : Client) (now : Nat) (op : Operation) (node : UInt16) : List Effect × Client :=
  let c' := { c with next := c.next + 1 }
  match op.payload node with
  | .error failure => ([.returned c.next (some failure)], c')
  | .ok payload =>
    match c.table.record? now ⟨op.request, node⟩ with
    | none =>
      ([.noted (.busyRefused op.request node), .counted (.busy op.request),
        .returned c.next (some (.busy op.request node))], c')
    | some (ticket, table) =>
      let message : Message := ⟨node, c.settings.netKey, payload⟩
      ([.handedOver c.next message],
        { c' with table, calls := c.calls ++ [⟨c.next, op.request, message, ticket⟩] })

/-- The calls without the one with the given number. -/
def callsWithout (c : Client) (number : Nat) : List Call :=
  c.calls.filter fun call => call.number ≠ number

/-- Lets the transport be done with the message of a call. If it did not accept the
message, the request of this very call is pending no longer; it may have left the table
before, and another request may stand in its place. -/
def finish (c : Client) (number : Nat) (error? : Option TransportError) :
    List Effect × Client :=
  match c.calls.find? fun call => call.number = number with
  | none => ([], c)
  | some call =>
    let c' := { c with calls := c.callsWithout number }
    match error? with
    | none =>
      ([.accepted number call.message, .counted (.sent call.request),
        .noted (.sent call.request call.message.destination call.message.netKey),
        .returned number none], c')
    | some error =>
      let table :=
        match c.table.take? call.ticket with
        | some (_, table) => table
        | none => c.table
      ([.noted (.sendFailed call.request call.message.destination error),
        .returned number (some (.transport error))], { c' with table })

/-- Gives a call up while it waits for the transport. Its request stays pending. -/
def abort (c : Client) (number : Nat) : Client := { c with calls := c.callsWithout number }

/-- Tells the observer of an event, if there is one. -/
def tell (c : Client) (event : Event) : List Effect :=
  if c.isObserved then [.told event]
  else [.noted (.unheard event.awaited.request event.awaited.node)]

/-- What the parameters of a message do that answers a pending request. -/
def resolve (c : Client) (request : Request) (source : UInt16) (params : Bytes) : List Effect :=
  let readNotices :=
    if request.status = .compositionData then Composition.readNotices params else []
  readNotices.map .noted ++
    match Report.decode? request.status params with
    | none =>
      [.noted (.malformed request source params.length), .counted (.dropped .malformed)]
    | some report =>
      [.counted (.matched request), .noted (.resolved request source)] ++
        c.tell ⟨⟨request, source⟩, .reported report⟩

/-- Effects that come one after another while the client stays as it is. -/
def meanwhile (c : Client) (effects : List Effect) : List Moment :=
  effects.map fun effect => ⟨c, effect⟩

/-- Takes a message in. Whatever its parameters are, a message that answers a pending
request ends the waiting: the request leaves the table first, and all that comes of the
message comes of the client without it. -/
def takeIn (c : Client) (source : UInt16) (bytes : Bytes) : List Moment × Client :=
  match Opcode.decode bytes with
  | .error fault =>
    (c.meanwhile [.noted (.undecodable source fault), .counted (.dropped .opcode)], c)
  | .ok (opcode, width) =>
    match c.table.remove opcode.reliable source with
    | ([], _) =>
      (c.meanwhile
        [.noted (.unsolicited opcode.reliable source), .counted (.dropped .unsolicited)], c)
    | (awaited :: _, table) =>
      let c' := { c with table }
      (c'.meanwhile (c'.resolve awaited.request source (bytes.drop width)), c')

/-- What comes of a message that is taken in. -/
def receive (c : Client) (source : UInt16) (bytes : Bytes) : List Effect × Client :=
  let (moments, c') := c.takeIn source bytes
  (moments.map Moment.effect, c')

@[simp] theorem map_effect_meanwhile (c : Client) (effects : List Effect) :
    (c.meanwhile effects).map Moment.effect = effects := by
  rw [meanwhile, List.map_map]
  exact List.map_id effects

/-- What comes of a message, apart from how the client stands meanwhile. -/
theorem receive_eq (c : Client) (source : UInt16) (bytes : Bytes) :
    c.receive source bytes =
      match Opcode.decode bytes with
      | .error fault => ([.noted (.undecodable source fault), .counted (.dropped .opcode)], c)
      | .ok (opcode, width) =>
        match c.table.remove opcode.reliable source with
        | ([], _) =>
          ([.noted (.unsolicited opcode.reliable source), .counted (.dropped .unsolicited)], c)
        | (awaited :: _, table) =>
          (c.resolve awaited.request source (bytes.drop width), { c with table }) := by
  unfold receive takeIn
  cases Opcode.decode bytes with
  | error fault => simp
  | ok result =>
    obtain ⟨opcode, width⟩ := result
    cases hremove : c.table.remove opcode.reliable source with
    | mk taken table => cases taken <;> simp [hremove, resolve, tell]

/-- Lets the time of a ticket run out, which means nothing if the request of the ticket
is not pending any more. -/
def expire (c : Client) (ticket : Ticket) : List Effect × Client :=
  match c.table.take? ticket with
  | none => ([], c)
  | some (entry, table) =>
    let awaited := entry.awaited
    ([.noted (.timedOut awaited.request awaited.node),
        .noted (.unanswered awaited.request awaited.node),
        .counted (.timedOut awaited.request)] ++
      c.tell ⟨awaited, .unanswered⟩, { c with table })

def closeObserver (c : Client) : Client := { c with isObserved := false }

/-- Closes the client. Nobody hears of the requests that are pending. -/
def close (c : Client) : Client := { c with table := c.table.clear }

end Client

/-- Something that happens to a client. -/
inductive Happening where
  /-- A call is made at the given time. -/
  | called (now : Nat) (op : Operation) (node : UInt16)
  /-- The transport is done with the message of a call. -/
  | finished (call : Nat) (error? : Option TransportError)
  | aborted (call : Nat)
  | received (source : UInt16) (bytes : Bytes)
  /-- A timer goes off, be it on time, late, or after its request was taken out. -/
  | expired (ticket : Ticket)
  | unobserved
  | closed
  deriving DecidableEq, Repr

namespace Client

/-- What a happening does to a client. -/
def step (c : Client) : Happening → List Effect × Client
  | .called now op node => c.call now op node
  | .finished call error? => c.finish call error?
  | .aborted call => ([], c.abort call)
  | .received source bytes => c.receive source bytes
  | .expired ticket => c.expire ticket
  | .unobserved => ([], c.closeObserver)
  | .closed => ([], c.close)

/-- What a list of happenings does to a client, one after another. -/
def run (c : Client) : List Happening → List Effect × Client
  | [] => ([], c)
  | first :: rest =>
    let (effects, c') := c.step first
    let (more, final) := run c' rest
    (effects ++ more, final)

end Client

end MeshFoundation
