import MeshFoundation.Proofs.Client.Outbound
import MeshFoundation.Proofs.Client.Outcome
import MeshFoundation.Proofs.Composition.Models

/-!
# Binding the models that a node reports

A client that wants an application key bound to a model names the model in its request. A node
names its models in its composition data. Both use the same bytes: whatever model of whatever
element is bound, the message that goes out ends in the very chunk by which the node reported the
model (`Client.models_bound_as_reported`). The number that the client shows for the model in
between is the same on both ways, so that nothing is swapped and nothing is lost.
-/

set_option autoImplicit false

namespace MeshFoundation

namespace Operation

variable {element app node : UInt16} {model : Model} {payload : Bytes}

/-- The bytes that a request to bind a model has before those of the model. -/
def bindingFront (element app : UInt16) : Bytes :=
  [0x80, 0x3D] ++ Bytes.ofWord element ++ Bytes.ofWord app

/-- A request to bind a model ends in the bytes of the model. -/
theorem eq_of_bindModelApp_payload (h : (bindModelApp element app model).payload node =
    .ok payload) : payload = bindingFront element app ++ model.bytes := by
  obtain ⟨-, opcode, params, hopcode, hparams, rfl⟩ := of_payload h
  obtain ⟨-, rfl⟩ := of_binding hparams
  have hbytes : Request.modelAppBind.opcode.encode = .ok [0x80, 0x3D] := rfl
  have heq : opcode = [0x80, 0x3D] := Except.ok.inj (hopcode.symm.trans hbytes)
  rw [heq, bindingFront, List.append_assoc, List.append_assoc, List.append_assoc]

/-- A request to bind a model is made with an application key index of twelve bits, for a node
with an address of its own. -/
theorem bindModelApp_payload (happ : app.toNat < 4096) (hnode : isUnicast node = true) :
    (bindModelApp element app model).payload node =
      .ok (bindingFront element app ++ model.bytes) := by
  have hparams : (bindModelApp element app model).parameters =
      .ok (Bytes.ofWord element ++ Bytes.ofWord app ++ model.bytes) := by
    rw [parameters, binding, (KeyIndex.check_eq_ok_iff app).mpr happ]
    rfl
  have hbytes : Request.modelAppBind.opcode.encode = .ok [0x80, 0x3D] := rfl
  rw [Operation.payload, hparams, bindingFront, List.append_assoc, List.append_assoc]
  simp only [hnode, if_true, request, hbytes, List.append_assoc]

end Operation

namespace Client

open Pending

variable {c : Client} {now : Nat} {element app node : UInt16} {model : Model} {chunk : Bytes}

/-- A client that is to bind a model sends the given bytes in its name. -/
structure BindsAs (c : Client) (now : Nat) (element app node : UInt16) (model : Model)
    (chunk : Bytes) : Prop where
  /-- Whatever is handed to the transport ends in these bytes. -/
  ends : ∀ number message,
    .handedOver number message ∈ (c.call now (.bindModelApp element app model) node).1 →
      chunk <:+ message.payload
  /-- A message is handed over, unless there is an objection or the answer is awaited already. -/
  sends : app.toNat < 4096 → Operation.isUnicast node = true →
    (∀ e ∈ c.table.entries, e.awaited.key ≠ ⟨.modelApp, node⟩) →
      (c.call now (.bindModelApp element app model) node).1 = [.handedOver c.next
        ⟨node, c.settings.netKey, Operation.bindingFront element app ++ chunk⟩]

theorem Orderly.bindsAs (h : c.Orderly) (hchunk : model.bytes = chunk) (now : Nat)
    (element app node : UInt16) : c.BindsAs now element app node model chunk where
  ends number message hsent := by
    have ht := Transition.of_call h.shaped now (.bindModelApp element app model) node
    obtain ⟨⟨_, op, hcalled, hpayload⟩, -⟩ := ht.asked_of_handedOver hsent
    cases hcalled
    rw [Operation.eq_of_bindModelApp_payload hpayload, hchunk]
    exact List.suffix_append _ _
  sends happ hnode hfree := by
    have hpayload : (Operation.bindModelApp element app model).payload node =
        .ok (Operation.bindingFront element app ++ chunk) := by
      rw [← hchunk]
      exact Operation.bindModelApp_payload happ hnode
    exact (call_of_free h.shaped hpayload hfree).1

/-- The composition data of a node are a header, a record for each element that is read from them,
in order, and what remains. The models that an element lists, those of the standard first, are
those that the chunks of its record name, each at its place. Every client that is to bind the model
of a chunk sends that very chunk at the end of its message. -/
theorem models_bound_as_reported {bytes : Bytes} {reading : Composition.Reading}
    (h : Composition.read bytes = .ok reading) :
    ∃ (header : Bytes) (records : List Element.Record) (tail : Bytes),
      bytes = header ++ records.flatMap Element.Record.bytes ++ tail ∧ header.length = 11 ∧
        tail.length = reading.remainder ∧
        List.Forall₂ Element.Record.Lists records reading.composition.elements ∧
        ∀ record ∈ records, ∀ chunk ∈ record.chunks, ∀ model, Model.ofBytes? chunk = some model →
          ∀ c : Client, c.Reachable → ∀ now element app node,
            c.BindsAs now element app node model chunk := by
  obtain ⟨header, records, tail, hbytes, hheader, htail, hlists⟩ := Composition.exists_records h
  refine ⟨header, records, tail, hbytes, hheader, htail, hlists, ?_⟩
  intro record _ chunk _ model hmodel c hc now element app node
  exact hc.orderly.bindsAs (Model.bytes_of_ofBytes? chunk model hmodel) now element app node

/-- An element with a model of the standard and one of a vendor, before a record that is cut off:
the bytes `0x59 0x00 0x01 0x00` are model `0x0001` of company `0x0059`, and are sent as such. -/
theorem bound_as_reported_of_twoModels :
    ∃ r : Element.Record, r.Lists ⟨1, [0x1000], [0x00590001]⟩ ∧
      ∀ chunk ∈ r.chunks, ∀ model, Model.ofBytes? chunk = some model →
        (Client.new .standard).BindsAs 0 1 0x0FFF 2 model chunk := by
  have hread : Composition.read
      ([1, 0x59, 0, 2, 0, 3, 0, 10, 0, 0xF5, 0xFF] ++
        [1, 0, 1, 1, 0x00, 0x10, 0x59, 0x00, 0x01, 0x00] ++ [2, 0, 1]) =
      .ok ⟨1, ⟨0x0059, 2, 3, 10, ⟨true, false, true, false⟩,
        [⟨1, [0x1000], [0x00590001]⟩]⟩, 3⟩ := by cbv
  obtain ⟨header, records, tail, -, -, -, hlists, hbinds⟩ := models_bound_as_reported hread
  obtain ⟨r, rest, hr, -, rfl⟩ := List.forall₂_cons_right_iff.mp hlists
  refine ⟨r, hr, ?_⟩
  intro chunk hchunk model hmodel
  have hnew : (Client.new .standard).Reachable := reachable_new .standard
  exact hbinds r List.mem_cons_self chunk hchunk model hmodel _ hnew 0 1 0x0FFF 2

end Client

end MeshFoundation
