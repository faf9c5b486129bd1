import MeshFoundation.Client.Step
import MeshFoundation.Proofs.Pending.Slots

/-!
# What a step of a client can do

`Transition` says once and for all what one step can do: for each happening, under which
condition which effects come of it, and what the client is afterwards. A request enters the
table of pending requests in one way, when a call is admitted, and leaves it in four: a
message answers it, its time runs out, the transport fails to send its message, or the
client is closed.

`transition_of_step` is the one place where the steps of a client are unfolded. Whatever
all steps keep is shown by the cases of `Transition`.
-/

set_option autoImplicit false

namespace MeshFoundation

open Pending

namespace Client

/-- What comes of a happening: the effects, and the client after them. -/
inductive Transition (c : Client) : Happening → List Effect → Client → Prop where
  /-- A call comes back at once, because its arguments or its destination are refused. -/
  | rejected {now : Nat} {op : Operation} {node : UInt16} {failure : Failure}
      (hpayload : op.payload node = .error failure) :
      Transition c (.called now op node) [.returned c.next (some failure)]
        { c with next := c.next + 1 }
  /-- A call comes back at once, because its answer is awaited already. -/
  | busy {now : Nat} {op : Operation} {node : UInt16} {payload : Bytes} {e : Entry}
      (hpayload : op.payload node = .ok payload) (hpending : e ∈ c.table.entries)
      (hkey : e.awaited.key = (⟨op.request, node⟩ : Awaited).key) :
      Transition c (.called now op node)
        [.noted (.busyRefused op.request node), .counted (.busy op.request),
          .returned c.next (some (.busy op.request node))]
        { c with next := c.next + 1 }
  /-- The request of a call is recorded, and the call waits for the transport. -/
  | admitted {now : Nat} {op : Operation} {node : UInt16} {payload : Bytes} {ticket : Ticket}
      {table : Table} (hpayload : op.payload node = .ok payload)
      (hrecord : c.table.record? now ⟨op.request, node⟩ = some (ticket, table)) :
      Transition c (.called now op node)
        [.handedOver c.next ⟨node, c.settings.netKey, payload⟩]
        { c with
          table
          next := c.next + 1
          calls := c.calls ++ [⟨c.next, op.request, ⟨node, c.settings.netKey, payload⟩, ticket⟩] }
  /-- The transport accepts the message of a call. -/
  | sent {call : Call} (hwaiting : call ∈ c.calls) :
      Transition c (.finished call.number none)
        [.accepted call.number call.message, .counted (.sent call.request),
          .noted (.sent call.request call.message.destination call.message.netKey),
          .returned call.number none]
        { c with calls := c.callsWithout call.number }
  /-- The transport fails to send the message of a call, whose own request is pending no
  longer. -/
  | failed {call : Call} {error : TransportError} (hwaiting : call ∈ c.calls) :
      Transition c (.finished call.number (some error))
        [.noted (.sendFailed call.request call.message.destination error),
          .returned call.number (some (.transport error))]
        { c with
          table := c.table.without call.ticket
          calls := c.callsWithout call.number }
  /-- The transport is done with the message of a call that does not wait. -/
  | unawaited {number : Nat} {error? : Option TransportError}
      (hnone : ∀ call ∈ c.calls, call.number ≠ number) :
      Transition c (.finished number error?) [] c
  | aborted {number : Nat} :
      Transition c (.aborted number) [] { c with calls := c.callsWithout number }
  /-- A message has no opcode that can be read. -/
  | undecodable {source : UInt16} {bytes : Bytes} {fault : Opcode.Fault}
      (hdecode : Opcode.decode bytes = .error fault) :
      Transition c (.received source bytes)
        [.noted (.undecodable source fault), .counted (.dropped .opcode)] c
  /-- A message answers no request. -/
  | unsolicited {source : UInt16} {bytes : Bytes} {opcode : Opcode} {width : Nat}
      (hdecode : Opcode.decode bytes = .ok (opcode, width))
      (hfree : ∀ e ∈ c.table.entries, Key.ofOpcode? opcode.reliable source ≠ some e.awaited.key) :
      Transition c (.received source bytes)
        [.noted (.unsolicited opcode.reliable source), .counted (.dropped .unsolicited)] c
  /-- A message answers a request, whether or not it makes a report. -/
  | answered {source : UInt16} {bytes : Bytes} {opcode : Opcode} {width : Nat} {e : Entry}
      (hdecode : Opcode.decode bytes = .ok (opcode, width)) (hpending : e ∈ c.table.entries)
      (hkey : Key.ofOpcode? opcode.reliable source = some e.awaited.key) :
      Transition c (.received source bytes)
        (c.resolve e.awaited.request source (bytes.drop width))
        { c with table := c.table.without e.ticket }
  /-- The time of a request runs out. -/
  | timedOut {e : Entry} (hpending : e ∈ c.table.entries) :
      Transition c (.expired e.ticket)
        ([.noted (.timedOut e.awaited.request e.awaited.node),
            .noted (.unanswered e.awaited.request e.awaited.node),
            .counted (.timedOut e.awaited.request)] ++ c.tell ⟨e.awaited, .unanswered⟩)
        { c with table := c.table.without e.ticket }
  /-- A timer goes off whose request is pending no longer. -/
  | stale {ticket : Ticket} (hgone : ticket ∉ c.table.tickets) :
      Transition c (.expired ticket) [] c
  | unobserved : Transition c .unobserved [] { c with isObserved := false }
  | closed : Transition c .closed [] { c with table := c.table.clear }

variable {c : Client}

theorem Transition.of_call (h : c.table.Shaped) (now : Nat) (op : Operation) (node : UInt16) :
    c.Transition (.called now op node) (c.call now op node).1 (c.call now op node).2 := by
  unfold call
  cases hpayload : op.payload node with
  | error failure => exact .rejected hpayload
  | ok payload =>
    cases hrecord : c.table.record? now ⟨op.request, node⟩ with
    | none =>
      obtain ⟨e, he, hkey⟩ := h.record?_eq_none_iff.mp hrecord
      exact .busy hpayload he hkey
    | some result => exact .admitted hpayload hrecord

theorem Transition.of_finish (h : c.table.Shaped) (number : Nat)
    (error? : Option TransportError) :
    c.Transition (.finished number error?) (c.finish number error?).1
      (c.finish number error?).2 := by
  unfold finish
  cases hfind : c.calls.find? fun call => call.number = number with
  | none =>
    apply Transition.unawaited
    simpa using List.find?_eq_none.mp hfind
  | some call =>
    have hwaiting : call ∈ c.calls := List.mem_of_find?_eq_some hfind
    have hnumber : call.number = number := by simpa using List.find?_some hfind
    subst hnumber
    cases error? with
    | none => exact .sent hwaiting
    | some error =>
      have hfailed : c.Transition (.finished call.number (some error)) _ _ := .failed hwaiting
      -- Whether or not the request is still there, the table goes without it from here on.
      cases htake : c.table.take? call.ticket with
      | none =>
        rw [Table.without_of_not_mem (h.take?_eq_none_iff.mp htake)] at hfailed
        simp only [htake]
        exact hfailed
      | some result =>
        obtain ⟨e, table⟩ := result
        rw [← (h.take?_eq_some_iff.mp htake).2.2] at hfailed
        simp only [htake]
        exact hfailed

theorem Transition.of_receive (h : c.table.Shaped) (source : UInt16) (bytes : Bytes) :
    c.Transition (.received source bytes) (c.receive source bytes).1
      (c.receive source bytes).2 := by
  rw [receive_eq]
  cases hdecode : Opcode.decode bytes with
  | error fault => exact .undecodable hdecode
  | ok result =>
    obtain ⟨opcode, width⟩ := result
    simp only [Table.remove]
    cases hkey : Key.ofOpcode? opcode.reliable source with
    | none =>
      apply Transition.unsolicited hdecode
      intro e _
      simp [hkey]
    | some key =>
      simp only
      by_cases hfree : ∀ e ∈ c.table.entries, e.awaited.key ≠ key
      · rw [h.takeSlot_of_free hfree]
        apply Transition.unsolicited hdecode
        intro e he
        rw [hkey]
        exact fun heq => hfree e he (Option.some.inj heq).symm
      · push Not at hfree
        obtain ⟨e, he, rfl⟩ := hfree
        rw [h.takeSlot_of_mem he]
        exact .answered hdecode he hkey

theorem Transition.of_expire (h : c.table.Shaped) (ticket : Ticket) :
    c.Transition (.expired ticket) (c.expire ticket).1 (c.expire ticket).2 := by
  unfold expire
  cases htake : c.table.take? ticket with
  | none => exact .stale (h.take?_eq_none_iff.mp htake)
  | some result =>
    obtain ⟨e, table⟩ := result
    obtain ⟨he, rfl, rfl⟩ := h.take?_eq_some_iff.mp htake
    exact .timedOut he

/-- Every step of a client whose table is shaped as it should be is a transition. -/
theorem transition_of_step (h : c.table.Shaped) (happening : Happening) :
    c.Transition happening (c.step happening).1 (c.step happening).2 := by
  cases happening with
  | called now op node => exact .of_call h now op node
  | finished call error? => exact .of_finish h call error?
  | aborted call => exact .aborted
  | received source bytes => exact .of_receive h source bytes
  | expired ticket => exact .of_expire h ticket
  | unobserved => exact .unobserved
  | closed => exact .closed

end Client

end MeshFoundation
