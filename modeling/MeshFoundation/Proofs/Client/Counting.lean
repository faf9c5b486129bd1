import Mathlib.Algebra.BigOperators.Group.List.Basic
import Mathlib.Algebra.Ring.Nat
import MeshFoundation.Proofs.Client.Calls
import MeshFoundation.Proofs.Client.Standing
import MeshFoundation.Proofs.Operation.Objection

/-!
# What the counters count

A client raises its counters in four places: where a call is refused as busy, where the transport
accepted the message of a call, where a message is taken in, and where the time of a request runs
out. What is counted is nevertheless a matter of the whole run: each counter stands at the number of
calls, of departures from the table or of dropped messages that it is named for.

The counters that a step raises are read off what comes back, what departs and what is dropped in it
(`counters_of_transition`). A run collects these step by step, so that after it the counters are
those of its calls, its departures and its dropped messages, in some order (`counters_perm`).
-/

set_option autoImplicit false

namespace MeshFoundation

open Pending

/-- The value of a counter is how often it was raised. -/
theorem Tally.value_ofList (cs : List Counter) (c : Counter) :
    (ofList cs).value c = cs.count c := by
  have hfold (t : Tally) : (cs.foldl raise t).value c = t.value c + cs.count c := by
    induction cs generalizing t with
    | nil => rfl
    | cons d rest ih =>
      rw [List.foldl_cons, ih, value_raise, List.count_cons]
      simp only [beq_iff_eq, eq_comm (a := c)]
      omega
  exact (hfold []).trans (Nat.zero_add _)

def Counter.isInbound : Counter → Bool
  | .matched _ | .dropped _ => true
  | .sent _ | .busy _ | .timedOut _ => false

def Happening.isReceived : Happening → Bool
  | .received _ _ => true
  | .called _ _ _ | .finished _ _ | .aborted _ | .expired _ | .unobserved | .closed => false

/-- Whether a message arrives whose opcode cannot be read. -/
def Happening.isUndecodable : Happening → Bool
  | .received _ bytes =>
    match Opcode.decode bytes with
    | .error _ => true
    | .ok _ => false
  | .called _ _ _ | .finished _ _ | .aborted _ | .expired _ | .unobserved | .closed => false

/-- The counter of what became of a request. -/
def Event.counter (e : Event) : Counter :=
  match e.outcome with
  | .reported _ => .matched e.awaited.request
  | .unanswered => .timedOut e.awaited.request

@[simp] theorem Event.counter_eq_iff {e : Event} {counter : Counter} :
    e.counter = counter ↔
      (.matched e.awaited.request = counter ∧ e.isTimeout = false) ∨
        (.timedOut e.awaited.request = counter ∧ e.isTimeout = true) := by
  cases houtcome : e.outcome <;> simp [Event.counter, isTimeout, houtcome]

namespace Departure

/-- Whether a request was answered by a message whose parameters make no report. -/
def isMalformed (d : Departure) : Bool :=
  match d.fate with
  | .answered _ _ none => true
  | .answered _ _ (some _) | .timedOut | .withdrawn _ _ | .discarded => false

/-- The counter that a departure is counted by, if it is. -/
def counter? (d : Departure) : Option Counter :=
  if d.isMalformed then some (.dropped .malformed) else d.event?.map Event.counter

/-- No event comes of a message whose parameters make no report. -/
theorem event?_of_isMalformed {d : Departure} (h : d.isMalformed = true) : d.event? = none := by
  obtain ⟨entry, fate⟩ := d
  cases fate with
  | answered source bytes report? =>
    cases report? with
    | none => rfl
    | some report => cases h
  | withdrawn | discarded => rfl
  | timedOut => cases h

@[simp] theorem counter?_eq_some_iff {d : Departure} {counter : Counter} :
    d.counter? = some counter ↔
      (.dropped .malformed = counter ∧ d.isMalformed = true) ∨
        (d.event?.any fun e => e.counter = counter) = true := by
  unfold counter?
  cases hmalformed : d.isMalformed with
  | true => simp [event?_of_isMalformed hmalformed]
  | false => simp [Option.any_eq_true]

end Departure

namespace Client

/-- Whether a message arrives that can be read and answers no pending request. -/
def Stage.isUnsolicited (s : Stage) : Bool :=
  match s.happening with
  | .received source bytes =>
    match Opcode.decode bytes with
    | .error _ => false
    | .ok (opcode, _) =>
      s.before.table.entries.all fun e =>
        Key.ofOpcode? opcode.reliable source ≠ some e.awaited.key
  | .called _ _ _ | .finished _ _ | .aborted _ | .expired _ | .unobserved | .closed => false

/-- The counter of a message that is dropped before it reaches a request. -/
def Stage.drop? (s : Stage) : Option Counter :=
  if s.happening.isUndecodable then some (.dropped .opcode)
  else if s.isUnsolicited then some (.dropped .unsolicited)
  else none

/-- The counter of a call for a request that comes back in the given way, if there is one. -/
def comebackCounter? (request : Request) : Option Failure → Option Counter
  | none => some (.sent request)
  | some (.busy _ _) => some (.busy request)
  | some (.noResponse _ _) | some (.invalidParameter _) | some (.transport _)
  | some (.opcode _) => none

namespace Made

def isOk (m : Made) : Bool := m.result? = some none

/-- Whether a call came back because its answer was awaited already. -/
def isBusy (m : Made) : Bool :=
  match m.result? with
  | some (some (.busy _ _)) => true
  | _ => false

def counter? (m : Made) : Option Counter := m.result?.bind (comebackCounter? m.request)

end Made

/-- The values of the counters after a run from fresh ones. -/
def tally (c : Client) (hs : List Happening) : Tally :=
  Tally.ofList ((c.run hs).1.filterMap Effect.counter?)

/-- What the counters stand at after a run. -/
structure Counts (c : Client) (hs : List Happening) : Prop where
  /-- A call comes back once at most. -/
  once : ∀ number, ((c.run hs).1.filterMap (Effect.returned? number)).length ≤ 1
  sent : ∀ request, (c.tally hs).value (.sent request) =
    (c.made hs).countP fun m => m.request = request ∧ m.isOk
  busy : ∀ request, (c.tally hs).value (.busy request) =
    (c.made hs).countP fun m => m.request = request ∧ m.isBusy
  matched : ∀ request, (c.tally hs).value (.matched request) =
    ((c.departures hs).filterMap Departure.event?).countP fun e =>
      e.awaited.request = request ∧ ¬ e.isTimeout
  timedOut : ∀ request, (c.tally hs).value (.timedOut request) =
    ((c.departures hs).filterMap Departure.event?).countP fun e =>
      e.awaited.request = request ∧ e.isTimeout
  /-- These are the events that the observer is told of, as long as there is one. -/
  told : .unobserved ∉ hs →
    (c.run hs).1.filterMap Effect.event? = (c.departures hs).filterMap Departure.event?
  undecodable : (c.tally hs).value (.dropped .opcode) = hs.countP Happening.isUndecodable
  unsolicited : (c.tally hs).value (.dropped .unsolicited) =
    (c.stages hs).countP Stage.isUnsolicited
  malformed : (c.tally hs).value (.dropped .malformed) =
    (c.departures hs).countP Departure.isMalformed
  /-- Each message is counted once. -/
  received : (Request.all.map fun request => (c.tally hs).value (.matched request)).sum +
      (c.tally hs).value (.dropped .opcode) + (c.tally hs).value (.dropped .unsolicited) +
      (c.tally hs).value (.dropped .malformed) =
    hs.countP Happening.isReceived

variable {c c' : Client} {happening : Happening} {effects : List Effect} {s : Stage}
  {hs : List Happening} {asked : List Request} {back : List (Nat × Option Failure)}

/-! ## What a step counts -/

theorem counters_tell (c : Client) (event : Event) :
    (c.tell event).filterMap Effect.counter? = [] := by
  unfold tell
  split <;> rfl

theorem counters_resolve (c : Client) (request : Request) (source : UInt16) (params : Bytes) :
    (c.resolve request source params).filterMap Effect.counter? =
      match Report.decode? request.status params with
      | none => [.dropped .malformed]
      | some _ => [.matched request] := by
  unfold resolve
  rw [List.filterMap_append, filterMap_noted fun _ => rfl, List.nil_append]
  cases Report.decode? request.status params with
  | none => rfl
  | some report =>
    rw [List.filterMap_append, counters_tell]
    rfl

theorem Stage.counters_departures_eq_nil
    (hnone : ∀ e fate, s.happening.fate? e = some fate → (Departure.mk e fate).counter? = none) :
    s.departures.filterMap Departure.counter? = [] := by
  apply List.filterMap_eq_nil_iff.mpr
  intro d hd
  exact hnone d.entry d.fate (Stage.fate_of_mem_departures hd).2

theorem Stage.drop?_of_undecodable {source : UInt16} {bytes : Bytes} {fault : Opcode.Fault}
    (hreceived : s.happening = .received source bytes)
    (hdecode : Opcode.decode bytes = .error fault) : s.drop? = some (.dropped .opcode) := by
  simp [drop?, hreceived, Happening.isUndecodable, hdecode]

/-- A message that can be read is dropped before it reaches a request exactly if there is none that
it answers. -/
theorem Stage.drop?_of_decoded {source : UInt16} {bytes : Bytes} {opcode : Opcode} {width : Nat}
    (hreceived : s.happening = .received source bytes)
    (hdecode : Opcode.decode bytes = .ok (opcode, width)) :
    s.drop? =
      if ∀ e ∈ s.before.table.entries, Key.ofOpcode? opcode.reliable source ≠ some e.awaited.key
      then some (.dropped .unsolicited) else none := by
  simp [drop?, isUnsolicited, hreceived, Happening.isUndecodable, hdecode]

/-- What a step counts is what comes back, what departs and what is dropped in it. The list of
requests is that of a whole run that the step is part of. -/
theorem Tracked.counters_of_transition (h : c.Tracked asked back) (hshaped : c.table.Shaped)
    (ht : c.Transition happening effects c') {all more : List Request}
    (hall : all = asked ++ (happening.request?.toList ++ more)) :
    let s : Stage := ⟨c, happening, effects, c'⟩
    effects.filterMap Effect.counter? =
      ((effects.filterMap Effect.comeback?).filterMap fun back =>
          all[back.1]?.bind fun request => comebackCounter? request back.2) ++
        (s.departures.filterMap Departure.counter? ++ s.drop?.toList) := by
  intro s
  have hwaiting {call : Call} (hcall : call ∈ c.calls) :
      all[call.number]? = some call.request := by
    rw [hall]
    exact getElem?_append_of_some (h.waiting call hcall) _
  have hmade {request : Request} (hrequest : happening.request? = some request) :
      all[c.next]? = some request := by
    rw [hall, hrequest, h.next]
    simp
  -- Nothing that departs is counted, because of what happens or because nothing departs at all.
  have hquiet (hnone : ∀ e fate, s.happening.fate? e = some fate →
      (Departure.mk e fate).counter? = none) : s.departures.filterMap Departure.counter? = [] :=
    Stage.counters_departures_eq_nil hnone
  have hkept (hsame : s.after.table = s.before.table) :
      s.departures.filterMap Departure.counter? = [] := by
    rw [Stage.departures_of_gone (Stage.gone_of_same hsame)]
    rfl
  cases ht with
  | @rejected now op node failure hpayload =>
    obtain ⟨fault, -, -, rfl⟩ := Operation.failure_of_payload hpayload
    rw [hquiet fun e fate hfate => by cases hfate]
    simp only [List.filterMap_cons, List.filterMap_nil, Effect.counter?, Effect.comeback?,
      hmade rfl, Option.bind_some, comebackCounter?]
    rfl
  | @busy now op node =>
    rw [hquiet fun e fate hfate => by cases hfate]
    simp only [List.filterMap_cons, List.filterMap_nil, Effect.counter?, Effect.comeback?,
      hmade rfl, Option.bind_some, comebackCounter?]
    rfl
  | admitted =>
    rw [hquiet fun e fate hfate => by cases hfate]
    rfl
  | sent hwaits =>
    rw [hquiet fun e fate hfate => by cases hfate]
    simp only [List.filterMap_cons, List.filterMap_nil, Effect.counter?, Effect.comeback?,
      hwaiting hwaits, Option.bind_some, comebackCounter?]
    rfl
  | failed hwaits =>
    rw [hquiet fun e fate hfate => by cases hfate; rfl]
    simp only [List.filterMap_cons, List.filterMap_nil, Effect.counter?, Effect.comeback?,
      hwaiting hwaits, Option.bind_some, comebackCounter?]
    rfl
  | unawaited =>
    rw [hkept rfl]
    rfl
  | aborted =>
    rw [hquiet fun e fate hfate => by cases hfate]
    rfl
  | undecodable hdecode =>
    rw [hkept rfl, Stage.drop?_of_undecodable rfl hdecode]
    rfl
  | unsolicited hdecode hfree =>
    rw [hkept rfl, Stage.drop?_of_decoded rfl hdecode, if_pos hfree]
    rfl
  | @answered source bytes opcode width e hdecode hpending hkey =>
    rw [counters_resolve, comebacks_resolve, Stage.drop?_of_decoded rfl hdecode,
      if_neg fun hfree => hfree e hpending hkey,
      Stage.departures_of_without hshaped hpending rfl rfl]
    have hreport : Report.ofMessage? e.awaited.request.status bytes =
        Report.decode? e.awaited.request.status (bytes.drop width) := by
      rw [Report.ofMessage?, hdecode]
    rw [hreport]
    cases Report.decode? e.awaited.request.status (bytes.drop width) <;> rfl
  | timedOut hpending =>
    rw [Stage.departures_of_without hshaped hpending rfl rfl, List.filterMap_append,
      List.filterMap_append, counters_tell, comebacks_tell]
    rfl
  | stale =>
    rw [hkept rfl]
    rfl
  | unobserved =>
    rw [hquiet fun e fate hfate => by cases hfate]
    rfl
  | closed =>
    rw [hquiet fun e fate hfate => by cases hfate; rfl]
    rfl

/-! ## What a run counts -/

/-- The counters that a run raises are those of its calls, of its departures and of its dropped
messages. -/
theorem counters_perm (settings : Settings) (hs : List Happening) :
    (((Client.new settings).run hs).1.filterMap Effect.counter?).Perm
      (((Client.new settings).made hs).filterMap Made.counter? ++
        (((Client.new settings).departures hs).filterMap Departure.counter? ++
          ((Client.new settings).stages hs).filterMap Stage.drop?)) := by
  let c := Client.new settings
  let value (back : Nat × Option Failure) : Option Counter :=
    (requests hs)[back.1]?.bind fun request => comebackCounter? request back.2
  have hstage : ∀ s ∈ c.stages hs, s.effects.filterMap Effect.counter? =
      (s.effects.filterMap Effect.comeback?).filterMap value ++
        (s.departures.filterMap Departure.counter? ++ s.drop?.toList) := by
    intro s hs'
    obtain ⟨earlier, later, hsplit, hbefore, -⟩ := exists_of_mem_stages hs'
    obtain ⟨ht, _, _, -, h⟩ := balanced_of_mem_stages hs'
    have htracked := tracked_run settings earlier
    rw [← hbefore] at htracked
    have hall : requests hs =
        requests earlier ++ (s.happening.request?.toList ++ requests later) := by
      rw [hsplit, requests_append, requests_cons]
    exact htracked.counters_of_transition h.table.shaped ht hall
  have hcalls : ((c.stages hs).flatMap fun s =>
      (s.effects.filterMap Effect.comeback?).filterMap value).Perm
        ((c.made hs).filterMap Made.counter?) := by
    rw [← List.filterMap_flatMap, ← List.filterMap_flatMap, ← effects_run]
    exact (filterMap_made_perm settings hs comebackCounter?).symm
  rw [effects_run, List.filterMap_flatMap, List.flatMap_congr hstage, departures,
    List.filterMap_flatMap, List.filterMap_eq_flatMap_toList Stage.drop?]
  -- The parts of each stage are sorted apart.
  refine (List.flatMap_append_perm _ _ _).symm.trans (hcalls.append ?_)
  exact (List.flatMap_append_perm _ _ _).symm

/-- The value of a counter is the number of calls, departures and dropped messages that have it. -/
theorem value_tally (settings : Settings) (hs : List Happening) (counter : Counter) :
    let c := Client.new settings
    (c.tally hs).value counter =
      (c.made hs).countP (fun m => m.counter? = some counter) +
        ((c.departures hs).countP (fun d => d.counter? = some counter) +
          (c.stages hs).countP fun s => s.drop? = some counter) := by
  intro c
  rw [tally, Tally.value_ofList, (counters_perm settings hs).count_eq, List.count_append,
    List.count_append, List.count_filterMap, List.count_filterMap, List.count_filterMap]
  simp only [beq_eq_decide]
  rfl

/-! ## Which counter it is -/

@[simp] theorem Made.counter?_eq_some_iff {m : Made} {counter : Counter} :
    m.counter? = some counter ↔
      (.sent m.request = counter ∧ m.isOk = true) ∨
        (.busy m.request = counter ∧ m.isBusy = true) := by
  obtain ⟨request, result?⟩ := m
  cases result? with
  | none => simp [counter?, isOk, isBusy]
  | some failure? =>
    cases failure? with
    | none => simp [counter?, comebackCounter?, isOk, isBusy]
    | some failure => cases failure <;> simp [counter?, comebackCounter?, isOk, isBusy]

theorem Stage.readable_of_isUnsolicited (h : s.isUnsolicited = true) :
    s.happening.isUndecodable = false := by
  cases hhappening : s.happening with
  | received source bytes =>
    cases hdecode : Opcode.decode bytes with
    | error fault => simp [isUnsolicited, hhappening, hdecode] at h
    | ok result => simp [Happening.isUndecodable, hdecode]
  | _ => rfl

@[simp] theorem Stage.drop?_eq_some_iff {counter : Counter} :
    s.drop? = some counter ↔
      (.dropped .opcode = counter ∧ s.happening.isUndecodable = true) ∨
        (.dropped .unsolicited = counter ∧ s.isUnsolicited = true) := by
  unfold drop?
  cases hunsolicited : s.isUnsolicited with
  | true => simp [readable_of_isUnsolicited hunsolicited]
  | false => cases s.happening.isUndecodable <;> simp

theorem countP_stages (c : Client) (hs : List Happening) (p : Happening → Bool) :
    ((c.stages hs).countP fun s => p s.happening) = hs.countP p := by
  induction hs generalizing c with
  | nil => rfl
  | cons first rest ih => rw [stages, List.countP_cons, List.countP_cons, ih]

theorem countP_events (c : Client) (hs : List Happening) (p : Event → Bool) :
    ((c.departures hs).filterMap Departure.event?).countP p =
      (c.departures hs).countP fun d => d.event?.any p := by
  rw [List.countP_filterMap]
  apply List.countP_congr
  intro d _
  cases d.event? <;> simp

/-- An observer that stays is told of all departures. -/
theorem events_of_observed (settings : Settings) {hs : List Happening}
    (hobserved : .unobserved ∉ hs) :
    ((Client.new settings).run hs).1.filterMap Effect.event? =
      ((Client.new settings).departures hs).filterMap Departure.event? := by
  have hkept := isObserved_of_run (Balanced.new settings) hobserved
  rw [effects_run, departures, List.filterMap_flatMap, List.filterMap_flatMap]
  apply List.flatMap_congr
  intro s hs'
  have hevents := events_of_mem_stages hs'
  rw [Stage.expectedEvents, hkept s hs'] at hevents
  exact hevents

/-! ## Received messages -/

/-- A message raises one counter for received messages, and nothing else does. -/
theorem Transition.inbound (ht : c.Transition happening effects c') :
    (effects.filterMap Effect.counter?).countP Counter.isInbound =
      if happening.isReceived then 1 else 0 := by
  cases ht with
  | answered =>
    rw [counters_resolve]
    split <;> rfl
  | timedOut =>
    rw [List.filterMap_append, counters_tell]
    rfl
  | _ => rfl

theorem Orderly.inbound_run (h : c.Orderly) (hs : List Happening) :
    ((c.run hs).1.filterMap Effect.counter?).countP Counter.isInbound =
      hs.countP Happening.isReceived := by
  induction hs generalizing c with
  | nil => rfl
  | cons first rest ih =>
    have ht := transition_of_step h.shaped first
    rw [Client.run, List.filterMap_append, List.countP_append, ht.inbound,
      ih (ht.orderly h).1, List.countP_cons, Nat.add_comm]

end Client

/-- The counters for received messages are those of the answers to each request and those of the
three ways to drop a message. -/
theorem Counter.sum_inbound (cs : List Counter) :
    (Request.all.map fun request => cs.count (.matched request)).sum +
        cs.count (.dropped .opcode) + cs.count (.dropped .unsolicited) +
        cs.count (.dropped .malformed) =
      cs.countP isInbound := by
  have hone (request : Request) :
      (Request.all.map fun r => if Counter.matched request = .matched r then 1 else 0).sum = 1 := by
    cases request <;> rfl
  induction cs with
  | nil => rfl
  | cons counter rest ih =>
    simp only [List.count_cons, List.countP_cons, List.sum_map_add, ← ih, beq_iff_eq]
    cases counter with
    | matched request =>
      rw [hone]
      simp [isInbound]
      omega
    | dropped reason => cases reason <;> simp [isInbound] <;> omega
    | _ => simp [isInbound]

namespace Client

/-- In every run from fresh counters, whatever happens in it and in whatever order, each counter
stands at the number of things that it counts, and every message that was received is counted by
one of the counters for received messages. -/
theorem counts_of_run (settings : Settings) (hs : List Happening) :
    (Client.new settings).Counts hs where
  once := length_returned?_le_one settings hs
  sent request := by simp [value_tally]
  busy request := by simp [value_tally]
  matched request := by simp [value_tally, countP_events]
  timedOut request := by simp [value_tally, countP_events]
  told := events_of_observed settings
  undecodable := by simp [value_tally, countP_stages]
  unsolicited := by simp [value_tally]
  malformed := by simp [value_tally]
  received := by
    simp only [tally, Tally.value_ofList]
    rw [Counter.sum_inbound]
    exact (Orderly.new settings).inbound_run hs

/-- A run in which a call is refused as busy, one is sent and answered, one is answered badly before
the transport fails, and one is given up and times out, and in which messages arrive that cannot be
read or answer nothing. -/
def traffic : List Happening :=
  [.called 0 .getRelay 2, .called 0 (.setRelay .enabled ⟨2, 20⟩) 2, .finished 0 none,
    .called 1 .getBeacon 3, .received 3 [0x80, 0x0B], .finished 2 (some .unavailable),
    .called 1 .getFriend 4, .aborted 3, .received 2 [0x7F], .received 2 [0x80, 0x28, 1, 0x25],
    .received 2 [0x80, 0x28, 1, 0x25], .expired ⟨⟨.friend, 4⟩, 3⟩]

example :
    [Counter.sent .relayGet, .busy .relaySet, .sent .beaconGet, .matched .relayGet,
        .timedOut .friendGet, .dropped .opcode, .dropped .unsolicited, .dropped .malformed].map
      ((Client.new .standard).tally traffic).value = [1, 1, 0, 1, 1, 1, 1, 1] := by
  decide

end Client

end MeshFoundation
