import MeshFoundation.Proofs.Client.Turn
import MeshFoundation.Proofs.Operation.Objection
import MeshFoundation.Proofs.Operation.Reading
import MeshFoundation.Proofs.Settings.Setters

/-!
# What outgoing messages say

A message goes out in the step in which its call is made, and it is made of the operation, the
node and the settings of the client alone (`Transition.asked_of_handedOver`). It is addressed to a
node, is secured with the network key that the client was set up with, and a node can read from
it which operation was asked for: the opcode is that of the request, what follows are the
parameters, and no other operation has the same payload (`outbound_carries_operation`).
-/

set_option autoImplicit false

namespace MeshFoundation

open Pending

/-- A message is well formed for an operation and for the network key of a client. -/
structure Message.Carries (message : Message) (op : Operation) (netKey : UInt16) : Prop where
  destination : 0x0001 ≤ message.destination.toNat ∧ message.destination.toNat ≤ 0x7FFF
  secured : message.netKey = netKey ∧ message.netKey.toNat ≤ 0x0FFF
  /-- The payload can be read, and holds the request and its parameters. -/
  readable : ∃ opcode width, Opcode.decode message.payload = .ok (opcode, width) ∧
    Request.ofOpcode? opcode = some op.request ∧
    op.parameters = .ok (message.payload.drop width)

namespace Client

variable {c c' : Client} {happening : Happening} {effects : List Effect} {number : Nat}
  {message : Message}

/-- A message that goes out is that of the call that is just being made. -/
theorem Transition.asked_of_handedOver (ht : c.Transition happening effects c')
    (hsent : .handedOver number message ∈ effects) :
    (∃ now op, happening = .called now op message.destination ∧
        op.payload message.destination = .ok message.payload) ∧
      message.netKey = c.settings.netKey := by
  have hnone (hnothing : effects.filterMap Effect.handOver? = []) : False := by
    have hsome := List.filterMap_eq_nil_iff.mp hnothing _ hsent
    cases hsome
  cases ht with
  | admitted hpayload =>
    simp only [List.mem_singleton, Effect.handedOver.injEq] at hsent
    obtain ⟨-, rfl⟩ := hsent
    exact ⟨⟨_, _, rfl, hpayload⟩, rfl⟩
  | answered => exact (hnone (handOvers_resolve _ _ _ _)).elim
  | timedOut => exact (hnone (handOvers_tell _ _)).elim
  | _ => simp at hsent

/-- A message goes out in a turn in which a call is made, and in no other. -/
theorem Orderly.asked_of_handedOver (h : c.Orderly) {t : Turn}
    (hsent : .handedOver number message ∈ (c.turn t).1) :
    (∃ now op, t = .happen (.called now op message.destination) ∧
        op.payload message.destination = .ok message.payload) ∧
      message.netKey = c.settings.netKey := by
  cases t with
  | happen happening =>
    obtain ⟨⟨now, op, rfl, hpayload⟩, hkey⟩ :=
      (transition_of_step h.shaped happening).asked_of_handedOver hsent
    exact ⟨⟨now, op, rfl, hpayload⟩, hkey⟩
  | act tickets deed => simp [Client.turn] at hsent

/-- Whatever setters a client was built with and whatever happened to it before, a message that it
hands to the transport carries the operation of the call that is made in this very turn. Two
operations whose arguments are accepted have the same payload exactly if they are the same, down
to the last argument. -/
theorem outbound_carries_operation (steps : List Settings.BuilderStep) (earlier : List Turn)
    (t : Turn) :
    let settings := Settings.ofSteps steps
    let c := ((Client.new settings).turns earlier).2
    (∀ number message, .handedOver number message ∈ (c.turn t).1 →
      ∃ now op, t = .happen (.called now op message.destination) ∧
        message.Carries op settings.netKey) ∧
    ∀ (op op' : Operation) (node node' : UInt16) (payload payload' : Bytes),
      op.payload node = .ok payload → op'.payload node' = .ok payload' →
      (payload = payload' ↔ op = op') := by
  intro settings c
  refine ⟨?_, fun op op' node node' payload payload' => Operation.payload_eq_iff⟩
  intro number message hsent
  have h : c.Orderly := orderly_new_turns settings earlier
  have hsettings : c.settings = settings := settings_turns (Orderly.new settings) earlier
  obtain ⟨⟨now, op, ht, hpayload⟩, hkey⟩ := h.asked_of_handedOver hsent
  obtain ⟨hnode, -⟩ := Operation.of_payload hpayload
  obtain ⟨width, hdecode, hparams⟩ := Operation.decode_payload hpayload
  have hsame : message.netKey = settings.netKey := hkey.trans (congrArg Settings.netKey hsettings)
  refine ⟨now, op, ht, ?_⟩
  exact
    { destination := (Operation.isUnicast_iff message.destination).mp hnode
      secured := ⟨hsame, hsame ▸ Settings.netKey_ofSteps_le steps⟩
      readable := ⟨_, width, hdecode, Request.ofOpcode?_opcode op.request, hparams⟩ }

/-- A builder that refuses one network key and is given settings with another one. -/
def replacedKey : List Settings.BuilderStep :=
  [.set (.netKey 0x1000), .set (.netKey 3), .replace [.netKey 0x0FFF, .netKey 0xFFFF],
    .set (.timeout 500)]

/-- The owner takes a request out whose call waits, and the same is asked for once more. -/
theorem carries_of_replacedKey :
    let op : Operation := .bindModelApp 0x0003 0x0FFF (.vendor 0x1234 0x5678)
    let payload : Bytes := [0x80, 0x3D, 3, 0, 0xFF, 0x0F, 0x34, 0x12, 0x78, 0x56]
    let earlier : List Turn :=
      [.happen (.called 0 op 7), .act [] ⟨1, .remove ⟨0x803E⟩ 7⟩]
    let c := ((Client.new (Settings.ofSteps replacedKey)).turns earlier).2
    .handedOver 1 ⟨7, 0x0FFF, payload⟩ ∈ (c.turn (.happen (.called 2 op 7))).1 ∧
      Message.Carries ⟨7, 0x0FFF, payload⟩ op 0x0FFF ∧
      op.payload 7 = .ok payload ∧
      ∀ op' node, op'.payload node = .ok payload → op = op' := by
  intro op payload earlier c
  have hsent : .handedOver 1 ⟨7, 0x0FFF, payload⟩ ∈
      (c.turn (.happen (.called 2 op 7))).1 := by decide
  have hpayload : op.payload 7 = .ok payload := by decide
  obtain ⟨hcarries, hunique⟩ :=
    outbound_carries_operation replacedKey earlier (.happen (.called 2 op 7))
  obtain ⟨now, _, hturn, hcarried⟩ := hcarries 1 _ hsent
  cases hturn
  exact ⟨hsent, hcarried, hpayload,
    fun op' node h => (hunique op op' 7 node payload payload hpayload h).mp rfl⟩

end Client

end MeshFoundation
