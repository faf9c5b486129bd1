import MeshFoundation.Proofs.Client.Echo
import MeshFoundation.Proofs.Client.Turn
import MeshFoundation.Proofs.Operation.Objection

/-!
# What a call comes to

How a call comes back is settled by the state in which it is made and by what the transport says
in the end: it is refused for the first objection to the operation, or because an answer that it
would wait for is awaited already, and otherwise it comes back with what the transport says
(`outcome?`). Whatever happens between making the call and the end of its transmission has no part
in it.

A call that is refused leaves no trace but its number (`Refuses`). A call that is not refused has
its request recorded, and if the transport fails, takes nothing but this request out again
(`call_comes_back`).
-/

set_option autoImplicit false

namespace MeshFoundation

open Pending

namespace Client

/-- With what a call is refused when it is made. -/
def refusal? (c : Client) (op : Operation) (node : UInt16) : Option Failure :=
  match op.objections node with
  | fault :: _ => some (.invalidParameter fault)
  | [] =>
    if ∃ e ∈ c.table.entries, e.awaited.key = ⟨op.request.status, node⟩ then
      some (.busy op.request node)
    else none

/-- With what a call comes back, if the transport says the given thing of its message once it has
got it. -/
def outcome? (c : Client) (op : Operation) (node : UInt16) (error? : Option TransportError) :
    Option Failure :=
  (c.refusal? op node).or (error?.map .transport)

/-- Nothing comes of a call but that its number is used up. -/
structure Refuses (c : Client) (now : Nat) (op : Operation) (node : UInt16) : Prop where
  rest : (c.call now op node).2 = { c with next := c.next + 1 }
  /-- Nothing is handed to the transport, and nothing is accepted by it. -/
  unsent : (c.call now op node).1.filterMap Effect.handOver? = [] ∧
    (c.call now op node).1.filterMap Effect.accepted? = []
  /-- The observer hears nothing. -/
  untold : (c.call now op node).1.filterMap Effect.event? = []

variable {c c' : Client} {now number : Nat} {op : Operation} {node : UInt16} {effects : List Effect}
  {failure : Failure} {error? : Option TransportError}

/-! ## Calls that are refused -/

theorem refusal?_of_payload_error (hpayload : op.payload node = .error failure) :
    c.refusal? op node = some failure := by
  obtain ⟨fault, rest, hobjections, rfl⟩ := Operation.failure_of_payload hpayload
  simp only [refusal?, hobjections]

/-- Once its arguments and its node are accepted, a call is refused exactly if its answer is awaited
already. -/
theorem refusal?_of_payload_ok {payload : Bytes} (hpayload : op.payload node = .ok payload) :
    c.refusal? op node =
      if ∃ e ∈ c.table.entries, e.awaited.key = ⟨op.request.status, node⟩ then
        some (.busy op.request node)
      else none := by
  simp only [refusal?, Operation.objections_of_payload hpayload]

/-- A call that has a reason to be refused is refused for that reason. -/
theorem Orderly.call_refused (h : c.Orderly) (hrefusal : c.refusal? op node = some failure)
    (now : Nat) :
    c.Refuses now op node ∧
      (c.call now op node).1.filterMap (Effect.returned? c.next) = [some failure] := by
  have ht := Transition.of_call h.shaped now op node
  suffices hall : (c.call now op node).2 = { c with next := c.next + 1 } ∧
      ((c.call now op node).1.filterMap Effect.handOver? = [] ∧
        (c.call now op node).1.filterMap Effect.accepted? = []) ∧
      (c.call now op node).1.filterMap Effect.event? = [] ∧
      (c.call now op node).1.filterMap (Effect.returned? c.next) = [some failure] from
    ⟨⟨hall.1, hall.2.1, hall.2.2.1⟩, hall.2.2.2⟩
  generalize (c.call now op node).1 = effects at ht ⊢
  generalize (c.call now op node).2 = c' at ht ⊢
  cases ht with
  | rejected hpayload =>
    rw [refusal?_of_payload_error hpayload] at hrefusal
    simp [Effect.handOver?, Effect.accepted?, Effect.event?, Effect.returned?,
      Option.some.inj hrefusal]
  | busy hpayload hpending hkey =>
    rw [refusal?_of_payload_ok hpayload, if_pos ⟨_, hpending, hkey⟩] at hrefusal
    simp [List.filterMap_cons, Effect.handOver?, Effect.accepted?, Effect.event?,
      Effect.returned?, Option.some.inj hrefusal]
  | admitted hpayload hrecord =>
    obtain ⟨hfree, -, -⟩ := h.shaped.record?_eq_some_iff.mp hrecord
    have hnone : ¬ ∃ e ∈ c.table.entries, e.awaited.key = ⟨op.request.status, node⟩ := by
      rintro ⟨e, he, hkey⟩
      exact hfree e he hkey
    rw [refusal?_of_payload_ok hpayload, if_neg hnone] at hrefusal
    cases hrefusal

/-! ## Calls that are not refused -/

/-- A call that has no reason to be refused has a payload, and its answer is not awaited yet. -/
theorem of_refusal?_eq_none (hnone : c.refusal? op node = none) :
    (∃ payload, op.payload node = .ok payload) ∧
      ∀ e ∈ c.table.entries, e.awaited.key ≠ ⟨op.request.status, node⟩ := by
  cases hpayload : op.payload node with
  | error failure =>
    rw [refusal?_of_payload_error hpayload] at hnone
    cases hnone
  | ok payload =>
    refine ⟨⟨payload, rfl⟩, ?_⟩
    intro e he hkey
    rw [refusal?_of_payload_ok hpayload, if_pos ⟨e, he, hkey⟩] at hnone
    cases hnone

/-- The request of a call that is not refused is pending, and the call waits. -/
theorem Orderly.call_admitted (h : c.Orderly) (hnone : c.refusal? op node = none) (now : Nat) :
    let entry := c.table.nextEntry now ⟨op.request, node⟩
    let c' := (c.call now op node).2
    (∃ call, c'.callsWith c.next = [call] ∧ call.ticket = entry.ticket) ∧
      c'.table.entries = entry :: c.table.entries ∧
      (c.call now op node).1.filterMap (Effect.returned? c.next) = [] := by
  intro entry c'
  obtain ⟨⟨payload, hpayload⟩, hfree⟩ := of_refusal?_eq_none hnone
  obtain ⟨heffects, hcalls, hentries⟩ : _ ∧ _ ∧ c'.table.entries = entry :: c.table.entries :=
    call_of_free h.shaped hpayload hfree
  let call : Call :=
    ⟨c.next, op.request, ⟨node, c.settings.netKey, payload⟩, entry.ticket⟩
  refine ⟨⟨call, ?_, rfl⟩, hentries, ?_⟩
  · rw [callsWith, hcalls, List.filter_append, ← callsWith, h.callsWith_next]
    simp [call, entry]
  · rw [heffects]
    rfl

/-- What the end of a transmission does to the table. -/
theorem Transition.table_of_finished (ht : c.Transition (.finished number error?) effects c')
    {call : Call} (hcall : c.callsWith number = [call]) :
    c'.table = if error? = none then c.table else c.table.without call.ticket := by
  have hwaiting : call ∈ c.calls ∧ call.number = number := by
    have hmem : call ∈ c.callsWith number := hcall ▸ List.mem_singleton_self call
    rw [callsWith, List.mem_filter, decide_eq_true_eq] at hmem
    exact hmem
  cases ht with
  | sent => rfl
  | @failed other error hother =>
    have hmem : other ∈ c.callsWith other.number :=
      List.mem_filter.mpr ⟨hother, decide_eq_true rfl⟩
    rw [hcall, List.mem_singleton] at hmem
    rw [if_neg (by simp), hmem]
  | unawaited hnone => exact absurd hwaiting.2 (hnone call hwaiting.1)

/-- If nothing happens in between, the end of its transmission leaves the request of a call pending,
or takes out what the call put in. -/
theorem Orderly.entries_of_finish (h : c.Orderly) (hnone : c.refusal? op node = none) (now : Nat) :
    ((c.call now op node).2.finish c.next none).2.table.entries =
        c.table.nextEntry now ⟨op.request, node⟩ :: c.table.entries ∧
      ∀ error, ((c.call now op node).2.finish c.next (some error)).2.table.entries =
        c.table.entries := by
  obtain ⟨⟨call, hcall, hticket⟩, hentries, -⟩ := h.call_admitted hnone now
  obtain ⟨-, hfree⟩ := of_refusal?_eq_none hnone
  have h' := (h.of_call now op node).1
  have htable (error? : Option TransportError) :=
    (Transition.of_finish h'.shaped c.next error?).table_of_finished hcall
  refine ⟨?_, ?_⟩
  · rw [htable none, if_pos rfl, hentries]
  · intro error
    rw [htable (some error), if_neg (by simp), h'.shaped.entries_without, hentries, hticket,
      List.filter_cons_of_neg (by simp)]
    -- No other request has the ticket, for none has its key.
    apply List.filter_eq_self.mpr
    intro e he
    rw [decide_eq_true_eq]
    exact fun heq => hfree e he (congrArg Ticket.key heq)

/-! ## What every call comes to -/

/-- A call comes back with nothing but objections, as busy, or with what the transport says. -/
theorem outcome?_cases (houtcome : c.outcome? op node error? = some failure) :
    (∃ fault, failure = .invalidParameter fault) ∨ failure = .busy op.request node ∨
      ∃ error, failure = .transport error := by
  unfold outcome? at houtcome
  cases hrefusal : c.refusal? op node with
  | some refusal =>
    rw [hrefusal, Option.some_or, Option.some.injEq] at houtcome
    subst houtcome
    unfold refusal? at hrefusal
    split at hrefusal
    · exact .inl ⟨_, (Option.some.inj hrefusal).symm⟩
    · split at hrefusal
      · exact .inr (.inl (Option.some.inj hrefusal).symm)
      · cases hrefusal
  | none =>
    rw [hrefusal, Option.none_or, Option.map_eq_some_iff] at houtcome
    obtain ⟨error, -, rfl⟩ := houtcome
    exact .inr (.inr ⟨error, rfl⟩)

/-- A call comes back once, with its outcome, when the transport is done with its message. -/
theorem Orderly.returned_of_call (h : c.Orderly) (now : Nat) (op : Operation) (node : UInt16)
    (error? : Option TransportError) {later : List Turn}
    (hother : ∀ t ∈ later, t.ends c.next = false) :
    (c.turns (.happen (.called now op node) :: later ++
        [.happen (.finished c.next error?)])).1.filterMap (Effect.returned? c.next) =
      [c.outcome? op node error?] := by
  let c' := (c.call now op node).2
  obtain ⟨h', hnext⟩ : c'.Orderly ∧ c'.next = c.next + 1 := h.of_call now op node
  obtain ⟨hsilent, hkept⟩ := h'.waiting_turns (by omega) hother
  have hsplit : (c.turns (.happen (.called now op node) :: later ++
        [.happen (.finished c.next error?)])).1 =
      (c.call now op node).1 ++ (c'.turns later).1 ++
        ((c'.turns later).2.finish c.next error?).1 := by
    rw [turns_append]
    simp only [Client.turns, Client.turn, step, List.append_nil]
    rfl
  rw [hsplit, List.filterMap_append, List.filterMap_append, hsilent, List.append_nil,
    returned_of_finish, hkept]
  -- Either the call comes back at once and does not wait, or it waits for what the transport says.
  cases hrefusal : c.refusal? op node with
  | some failure =>
    obtain ⟨hrefused, hreturned⟩ := h.call_refused hrefusal now
    have hnowait : c'.callsWith c.next = [] := by
      have hrest : c' = { c with next := c.next + 1 } := hrefused.rest
      rw [hrest]
      exact h.callsWith_next
    rw [hreturned, if_pos hnowait, List.append_nil, outcome?, hrefusal, Option.some_or]
  | none =>
    obtain ⟨⟨call, hcall, -⟩, -, hreturned⟩ := h.call_admitted hrefusal now
    have hwaits : c'.callsWith c.next ≠ [] := by
      change c'.callsWith c.next = [call] at hcall
      simp [hcall]
    rw [hreturned, if_neg hwaits, List.nil_append, outcome?, hrefusal, Option.none_or]

/-- In whatever state a call is made and whatever happens until the transport is done with its
message, the call comes back once, with the first objection to its arguments or to its node, else
as busy if its answer is awaited already, and else with what the transport says. A call that is
refused changes nothing. If the transmission ends with nothing else in between, the pending requests
are those from before the call when it failed, and these and the request of the call when it went
well. -/
theorem call_comes_back (settings : Settings) (earlier later : List Turn) (now : Nat)
    (op : Operation) (node : UInt16) (error? : Option TransportError)
    (hother : ∀ t ∈ later, t.ends ((Client.new settings).turns earlier).2.next = false) :
    let c := ((Client.new settings).turns earlier).2
    let c' := (c.call now op node).2
    ((c.turns (.happen (.called now op node) :: later ++
          [.happen (.finished c.next error?)])).1.filterMap (Effect.returned? c.next) =
        [c.outcome? op node error?] ∧
      (∀ fault, c.outcome? op node error? ≠ some (.opcode fault)) ∧
      ∀ request other, c.outcome? op node error? ≠ some (.noResponse request other)) ∧
    (c.refusal? op node ≠ none → c.Refuses now op node) ∧
    (c.refusal? op node = none →
      (c'.finish c.next none).2.table.entries =
          c.table.nextEntry now ⟨op.request, node⟩ :: c.table.entries ∧
        ∀ error, (c'.finish c.next (some error)).2.table.entries = c.table.entries) := by
  intro c c'
  have h : c.Orderly := orderly_new_turns settings earlier
  refine ⟨⟨h.returned_of_call now op node error? hother, ?_, ?_⟩, ?_, ?_⟩
  · intro fault houtcome
    rcases outcome?_cases houtcome with ⟨_, heq⟩ | heq | ⟨_, heq⟩ <;> cases heq
  · intro request other houtcome
    rcases outcome?_cases houtcome with ⟨_, heq⟩ | heq | ⟨_, heq⟩ <;> cases heq
  · intro hrefused
    obtain ⟨failure, hrefusal⟩ := Option.ne_none_iff_exists'.mp hrefused
    exact (h.call_refused hrefusal now).1
  · intro hnone
    exact h.entries_of_finish hnone now

/-- A call whose answer arrives and whose key is taken anew before the transport fails, after a call
that is refused for the first of three objections. -/
def overtaken : List Turn :=
  [.happen (.received 2 [0x80, 0x28, 1, 0x25]), .act [] ⟨3, .add ⟨0x8026⟩ 2⟩,
    .happen (.called 4 .getBeacon 2)]

theorem outcome_of_overtaken :
    let earlier : List Turn :=
      [.happen (.called 0 (.setRelay .notSupported ⟨9, 15⟩) 0xC000)]
    let c := ((Client.new .standard).turns earlier).2
    let op : Operation := .setRelay .enabled ⟨2, 20⟩
    (∀ t ∈ overtaken, t.ends c.next = false) ∧
      (c.turns (.happen (.called 1 op 2) :: overtaken ++
          [.happen (.finished 1 (some .unavailable))])).1.filterMap (Effect.returned? 1) =
        [some (.transport .unavailable)] ∧
      c.Refuses 1 (.setRelay .notSupported ⟨9, 15⟩) 0xC000 := by
  intro earlier c op
  have hother : ∀ t ∈ overtaken, t.ends c.next = false := by decide
  obtain ⟨⟨hreturned, -, -⟩, -⟩ :=
    call_comes_back .standard earlier overtaken 1 op 2 (some .unavailable) hother
  obtain ⟨-, hrefuses, -⟩ :=
    call_comes_back .standard earlier [] 1 (.setRelay .notSupported ⟨9, 15⟩) 0xC000 none nofun
  exact ⟨hother, hreturned.trans (by decide), hrefuses (by decide)⟩

end Client

end MeshFoundation
