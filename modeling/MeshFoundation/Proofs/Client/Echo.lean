import MeshFoundation.Proofs.Client.Reply
import MeshFoundation.Proofs.Opcode.RoundTrip
import MeshFoundation.Proofs.Operation.Parameters

/-!
# Nodes that confirm what they were asked for

Most operations tell the node something that its answer says again: a state, a pair of key
indices, the binding of a model. `Operation.echo?` gives for each of these operations the
parameters by which a node confirms it, made of the very bytes that the node received, and the
report that names the caller's own arguments. That the first is read as the second ties the
ways in which requests are written to the ways in which status messages are read
(`Operation.decode?_of_echo?`).

The rest is about the client: the bytes are those that a call hands to the transport, and for
as long as the request of the call is pending, the confirmation is told to the observer as the
answer to this very request (`Client.confirmation_reported`).
-/

set_option autoImplicit false

namespace MeshFoundation

open Pending

/-! ## Confirmations -/

/-- How a node confirms an operation whose parameters it received: the parameters of its answer,
which begin with a code of its own where the message has one, and the report that names what the
node was asked for. Nothing can be confirmed of an operation that says nothing. -/
def Operation.echo? (code : UInt8) (params : Bytes) : Operation → Option (Bytes × Report)
  | .setDefaultTtl ttl => some (params, .defaultTtl ttl)
  | .setGattProxy state => some (params, .gattProxy state)
  | .setFriend state => some (params, .friend state)
  | .setBeacon on => some (params, .beacon on)
  | .setRelay state retransmit => some (params, .relay state retransmit)
  | .addAppKey net app _ | .updateAppKey net app _ | .deleteAppKey net app =>
    some (code :: params.take 3, .appKey (StatusCode.ofByte code) net app)
  | .bindModelApp element app model | .unbindModelApp element app model =>
    some (code :: params, .modelApp (StatusCode.ofByte code) element app model)
  | .getAppKeys net => some (code :: params, .appKeyList (StatusCode.ofByte code) net [])
  | .getComposition | .getDefaultTtl | .getGattProxy | .getRelay | .getBeacon | .getFriend
  | .resetNode => none

namespace Report

theorem decode?_appKey_pack {net app : UInt16} (code : UInt8) (hnet : net.toNat < 4096)
    (happ : app.toNat < 4096) :
    decode? .appKey (code :: KeyIndex.pack net app) =
      some (.appKey (StatusCode.ofByte code) net app) := by
  have hpair := KeyIndex.unpack_pack net app hnet happ
  simp [decode?, KeyIndex.pack, hpair]

theorem decode?_modelApp_binding (code : UInt8) (element app : UInt16) (model : Model) :
    decode? .modelApp (code :: (Bytes.ofWord element ++ Bytes.ofWord app ++ model.bytes)) =
      some (.modelApp (StatusCode.ofByte code) element app model) := by
  simp [decode?, Bytes.ofWord, Bytes.word_of_ofWord, Model.ofBytes?_bytes]

theorem decode?_appKeyList_empty (code : UInt8) (net : UInt16) :
    decode? .appKeyList (code :: Bytes.ofWord net) =
      some (.appKeyList (StatusCode.ofByte code) net []) := by
  simp [decode?, Bytes.ofWord, Bytes.word_of_ofWord, readIndices?]

end Report

/-- A confirmation is read as the report of what was asked for. -/
theorem Operation.decode?_of_echo? {op : Operation} {code : UInt8} {params answer : Bytes}
    {report : Report} (hparams : op.parameters = .ok params)
    (hecho : op.echo? code params = some (answer, report)) :
    Report.decode? op.request.status answer = some report := by
  cases op with
  | setDefaultTtl ttl =>
    cases hecho
    obtain ⟨byte, hcheck, hbytes⟩ := of_bind_eq_ok hparams
    obtain rfl := TimeToLive.of_check hcheck
    cases hbytes
    rfl
  | setGattProxy state | setFriend state =>
    cases hecho
    obtain ⟨byte, hstate, hbytes⟩ := of_bind_eq_ok hparams
    cases hbytes
    simp [request, Request.status, Report.decode?, FeatureState.ofByte?_of_settable _ _ hstate]
  | setRelay state retransmit =>
    cases hecho
    obtain ⟨byte, hstate, hrest⟩ := of_bind_eq_ok hparams
    obtain ⟨packed, hretransmit, hbytes⟩ := of_bind_eq_ok hrest
    cases hbytes
    simp [request, Request.status, Report.decode?, FeatureState.ofByte?_of_settable _ _ hstate,
      Retransmit.decode_encode _ _ hretransmit]
  | setBeacon on =>
    cases hecho
    cases hparams
    cases on <;> rfl
  | addAppKey net app key | updateAppKey net app key =>
    cases hecho
    obtain ⟨hnet, happ, rfl⟩ := of_keyPair_key hparams
    exact Report.decode?_appKey_pack code hnet happ
  | deleteAppKey net app =>
    cases hecho
    obtain ⟨hnet, happ, rfl⟩ := of_keyPair hparams
    exact Report.decode?_appKey_pack code hnet happ
  | bindModelApp element app model | unbindModelApp element app model =>
    cases hecho
    obtain ⟨-, rfl⟩ := of_binding hparams
    exact Report.decode?_modelApp_binding code element app model
  | getAppKeys net =>
    cases hecho
    obtain ⟨word, hcheck, hbytes⟩ := of_bind_eq_ok hparams
    obtain ⟨rfl, -⟩ := KeyIndex.of_check hcheck
    cases hbytes
    exact Report.decode?_appKeyList_empty code word
  | _ => cases hecho

namespace Client

variable {c c' : Client} {happening : Happening} {effects : List Effect}

/-! ## A call until the transport accepts its message -/

/-- A call that waits goes on waiting unless the transport is done with its message or it is
given up. -/
theorem Transition.waiting_of_other (ht : c.Transition happening effects c') {call : Call}
    (hcall : call ∈ c.calls) (hfinished : ∀ error?, happening ≠ .finished call.number error?)
    (haborted : happening ≠ .aborted call.number) : call ∈ c'.calls := by
  have hkept : ∀ number, number ≠ call.number → call ∈ c.callsWithout number := by
    intro number hne
    exact List.mem_filter.mpr ⟨hcall, by simpa using hne.symm⟩
  cases ht with
  | admitted => exact List.mem_append_left _ hcall
  | @sent other => exact hkept _ fun heq => hfinished none (by rw [heq])
  | @failed other error => exact hkept _ fun heq => hfinished (some error) (by rw [heq])
  | @aborted number => exact hkept _ fun heq => haborted (by rw [heq])
  | _ => exact hcall

theorem waiting_of_run {admitted : List Call} {left : List Ticket} (h : c.Balanced admitted left)
    {call : Call} (hcall : call ∈ c.calls) {hs : List Happening}
    (hfinished : ∀ error?, .finished call.number error? ∉ hs)
    (haborted : .aborted call.number ∉ hs) : call ∈ (c.run hs).2.calls := by
  induction hs generalizing c admitted left with
  | nil => exact hcall
  | cons first rest ih =>
    have ht := transition_of_step h.table.shaped first
    have hafter := Balanced.stage h (ht.passage h.table.shaped)
    simp only [List.mem_cons, not_or] at hfinished haborted
    have hwaiting : call ∈ (c.step first).2.calls :=
      ht.waiting_of_other hcall (fun error? heq => (hfinished error?).1 heq.symm)
        (Ne.symm haborted.1)
    exact ih hafter hwaiting (fun error? => (hfinished error?).2) haborted.2

/-- A call that waits comes back without a failure once the transport accepts its message. -/
theorem Transition.returned_of_acceptance {number : Nat}
    (ht : c.Transition (.finished number none) effects c') {call : Call}
    (hcall : call ∈ c.calls) (hnumber : call.number = number) :
    .returned number none ∈ effects := by
  cases ht with
  | sent hwaiting => simp
  | unawaited hnone => exact absurd hnumber (hnone call hcall)

/-! ## A call and its confirmation -/

/-- The client after a call that is admitted. -/
theorem call_of_free (h : c.table.Shaped) {now : Nat} {op : Operation} {node : UInt16}
    {payload : Bytes} (hpayload : op.payload node = .ok payload)
    (hfree : ∀ e ∈ c.table.entries, e.awaited.key ≠ ⟨op.request.status, node⟩) :
    let entry := c.table.nextEntry now ⟨op.request, node⟩
    let message : Message := ⟨node, c.settings.netKey, payload⟩
    (c.call now op node).1 = [.handedOver c.next message] ∧
      (c.call now op node).2.calls =
        c.calls ++ [⟨c.next, op.request, message, entry.ticket⟩] ∧
      (c.call now op node).2.table.entries = entry :: c.table.entries := by
  intro entry message
  have hrecord : c.table.record? now ⟨op.request, node⟩ = some (entry.ticket, _) :=
    h.record?_eq_some_iff.mpr ⟨hfree, rfl, rfl⟩
  have hentries := (h.record hrecord).2
  simp only [call, hpayload, hrecord]
  exact ⟨rfl, rfl, hentries⟩

/-- A call with arguments that are accepted, to a node whose answer nobody awaits, hands its
parameters to the transport, and comes back without a failure when the transport accepts them,
whatever happened meanwhile. As long as its request is pending, a node that confirms the
parameters has the observer told, once, of this request to this node and of the very arguments
of the call. -/
theorem confirmation_reported (settings : Settings) (earlier later : List Happening) (now : Nat)
    (code : UInt8) {op : Operation} {node : UInt16} {params answer : Bytes} {report : Report}
    (hparams : op.parameters = .ok params) (hnode : Operation.isUnicast node = true)
    (hecho : op.echo? code params = some (answer, report))
    (hfree : ∀ e ∈ ((Client.new settings).run earlier).2.table.entries,
      e.awaited.key ≠ ⟨op.request.status, node⟩) :
    let c := ((Client.new settings).run earlier).2
    let called := c.call now op node
    let entry := c.table.nextEntry now ⟨op.request, node⟩
    let c' := (called.2.run later).2
    ∃ opcode header, op.request.opcode.encode = .ok opcode ∧
      op.request.status.opcode.encode = .ok header ∧
      called.1 = [.handedOver c.next ⟨node, c.settings.netKey, opcode ++ params⟩] ∧
      entry ∈ called.2.table.entries ∧
      ((∀ error?, .finished c.next error? ∉ later) → .aborted c.next ∉ later →
        .returned c.next none ∈ (c'.finish c.next none).1) ∧
      (entry ∈ c'.table.entries →
        (c'.receive node (header ++ answer)).1.filterMap Effect.event? =
          if c'.isObserved then [⟨⟨op.request, node⟩, .reported report⟩] else []) := by
  intro c called entry c'
  obtain ⟨opcode, hopcode⟩ := op.request.exists_encode
  obtain ⟨header, hheader⟩ := op.request.status.exists_encode
  have hpayload : op.payload node = .ok (opcode ++ params) := by
    simp [Operation.payload, hparams, hnode, hopcode]
  have h : c.table.Shaped := (balanced_new_run settings earlier).table.shaped
  obtain ⟨hhanded, hcalls, hentries⟩ := call_of_free h hpayload hfree
  have hcalled : called.2 = ((Client.new settings).run (earlier ++ [.called now op node])).2 := by
    rw [run_append]
    rfl
  have hbalanced := balanced_new_run settings (earlier ++ [.called now op node])
  rw [← hcalled] at hbalanced
  have h' : c'.table.Shaped := (hbalanced.run later).table.shaped
  refine ⟨opcode, header, hopcode, hheader, hhanded, ?_, ?_, ?_⟩
  · rw [hentries]
    exact List.mem_cons_self
  · intro hfinished haborted
    have hcall : (⟨c.next, op.request, ⟨node, c.settings.netKey, opcode ++ params⟩,
        entry.ticket⟩ : Call) ∈ called.2.calls := by
      rw [hcalls]
      exact List.mem_append_right _ List.mem_cons_self
    have hwaiting := waiting_of_run hbalanced hcall hfinished haborted
    exact (Transition.of_finish h' c.next none).returned_of_acceptance hwaiting rfl
  · intro hpending
    have hkey : Key.ofOpcode? op.request.status.opcode.reliable node = some entry.awaited.key :=
      Key.ofOpcode?_reliable.mpr ⟨op.request.status.reliable_opcode.symm, rfl⟩
    have hdecode := Opcode.decode_append_of_encode hheader answer
    have hresolves := resolves_of_answered h' hdecode hpending hkey
    rw [hresolves.told, List.drop_left]
    show (if c'.isObserved then ((Report.decode? op.request.status answer).map _).toList else _) = _
    rw [Operation.decode?_of_echo? hparams hecho]
    rfl

/-- The binding of a vendor's model, which is asked for while another answer of the node is
awaited. -/
def vendorBinding : Operation := .bindModelApp 0x0102 0x0ABC (.vendor 0x05F1 0x1234)

/-- The node refuses the binding, with a code that is reserved, after it gave the other answer. -/
theorem confirmation_of_vendorBinding :
    let c := ((Client.new .standard).run [.called 0 .getRelay 2]).2
    let called := c.call 5 vendorBinding 2
    let c' := (called.2.run [.received 2 [0x80, 0x28, 1, 0x25]]).2
    vendorBinding.parameters = .ok [0x02, 0x01, 0xBC, 0x0A, 0xF1, 0x05, 0x34, 0x12] ∧
      called.1 = [.handedOver 1
        ⟨2, 0, [0x80, 0x3D, 0x02, 0x01, 0xBC, 0x0A, 0xF1, 0x05, 0x34, 0x12]⟩] ∧
      .returned 1 none ∈ (c'.finish 1 none).1 ∧
      (c'.receive 2
          [0x80, 0x3E, 0x42, 0x02, 0x01, 0xBC, 0x0A, 0xF1, 0x05, 0x34, 0x12]).1.filterMap
            Effect.event? =
        [⟨⟨.modelAppBind, 2⟩, .reported
          (.modelApp (.reserved 0x42) 0x0102 0x0ABC (.vendor 0x05F1 0x1234))⟩] := by
  intro c called c'
  have hparams : vendorBinding.parameters =
      .ok [0x02, 0x01, 0xBC, 0x0A, 0xF1, 0x05, 0x34, 0x12] := by decide
  have hfree : ∀ e ∈ c.table.entries,
      e.awaited.key ≠ ⟨vendorBinding.request.status, 2⟩ := by decide
  obtain ⟨opcode, header, hopcode, hheader, hhanded, -, hreturned, hreported⟩ :=
    confirmation_reported .standard [.called 0 .getRelay 2] [.received 2 [0x80, 0x28, 1, 0x25]]
      5 0x42 hparams (by decide) rfl hfree
  cases hopcode
  cases hheader
  exact ⟨hparams, hhanded, hreturned (by simp) (by simp), hreported (by decide)⟩

end Client

end MeshFoundation
