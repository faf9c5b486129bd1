import MeshFoundation.Proofs.Client.Transition

/-!
# The history of a run

A run of a client is a list of stages, each with the client before and after it. What was
admitted in a stage is read off the calls that wait after it and did not wait before; what
departed is read off the tables before and after it, and the happening of the stage says
how it did. No stage is asked what it did to the table.

In every stage that a client goes through, whatever leaves the table departs in a way that
its happening allows (`Passage.entries_departures`), and the observer is told of what
departs and of nothing else (`Passage.events_eq`).
-/

set_option autoImplicit false

namespace MeshFoundation

open Pending

/-- The report that a message makes which answers a request with the given status. -/
def Report.ofMessage? (status : Status) (bytes : Bytes) : Option Report :=
  match Opcode.decode bytes with
  | .ok (_, width) => decode? status (bytes.drop width)
  | .error _ => none

/-- How a request leaves the table. -/
inductive Fate where
  /-- A message answers it, whose parameters make a report or none. -/
  | answered (source : UInt16) (bytes : Bytes) (report? : Option Report)
  | timedOut
  /-- The transport fails to send the message of a call. -/
  | withdrawn (call : Nat) (error : TransportError)
  /-- The client is closed. -/
  | discarded
  deriving DecidableEq, Repr

/-- How a request leaves the table in a step in which the given thing happens. In any other
step it must not leave. -/
def Happening.fate? (e : Entry) : Happening → Option Fate
  | .received source bytes =>
    some (.answered source bytes (Report.ofMessage? e.awaited.request.status bytes))
  | .expired _ => some .timedOut
  | .finished call (some error) => some (.withdrawn call error)
  | .closed => some .discarded
  | .called _ _ _ | .finished _ none | .aborted _ | .unobserved => none

/-- A request that left the table, and how it did. -/
structure Departure where
  entry : Entry
  fate : Fate
  deriving DecidableEq, Repr

namespace Departure

def ticket (d : Departure) : Ticket := d.entry.ticket

/-- What the observer should hear of a request that left the table. -/
def event? (d : Departure) : Option Event :=
  match d.fate with
  | .answered _ _ report? => report?.map fun report => ⟨d.entry.awaited, .reported report⟩
  | .timedOut => some ⟨d.entry.awaited, .unanswered⟩
  | .withdrawn _ _ | .discarded => none

theorem events_singleton (d : Departure) : [d].filterMap event? = d.event?.toList := by
  cases hevent : d.event? <;> simp [hevent]

end Departure

namespace Client

/-- One step of a run. -/
structure Stage where
  before : Client
  happening : Happening
  effects : List Effect
  after : Client
  deriving DecidableEq, Repr

namespace Stage

/-- The events that the observer is told of. -/
def events (s : Stage) : List Event := s.effects.filterMap Effect.event?

/-- The calls that came to wait for the transport. -/
def admitted (s : Stage) : List Call := s.after.calls.filter fun call => call ∉ s.before.calls

/-- The requests that left the table. -/
def gone (s : Stage) : List Entry := s.before.table.missing s.after.table

/-- The requests that left the table, and how they did. -/
def departures (s : Stage) : List Departure :=
  s.gone.filterMap fun e => (s.happening.fate? e).map fun fate => ⟨e, fate⟩

end Stage

/-- The stages of a run. -/
def stages (c : Client) : List Happening → List Stage
  | [] => []
  | first :: rest => ⟨c, first, (c.step first).1, (c.step first).2⟩ :: stages (c.step first).2 rest

/-- All calls that were admitted in a run. -/
def admissions (c : Client) (hs : List Happening) : List Call :=
  (c.stages hs).flatMap Stage.admitted

/-- All requests that left the table in a run, and how they did. -/
def departures (c : Client) (hs : List Happening) : List Departure :=
  (c.stages hs).flatMap Stage.departures

variable {c c' : Client} {happening : Happening} {effects : List Effect}

/-! ## Runs and stages -/

theorem run_append (c : Client) (xs ys : List Happening) :
    c.run (xs ++ ys) =
      ((c.run xs).1 ++ ((c.run xs).2.run ys).1, ((c.run xs).2.run ys).2) := by
  induction xs generalizing c with
  | nil => rfl
  | cons first rest ih => simp only [List.cons_append, run, ih, List.append_assoc]

theorem stages_append (c : Client) (xs ys : List Happening) :
    c.stages (xs ++ ys) = c.stages xs ++ (c.run xs).2.stages ys := by
  induction xs generalizing c with
  | nil => rfl
  | cons first rest ih => simp only [List.cons_append, stages, run, ih]

theorem effects_run (c : Client) (hs : List Happening) :
    (c.run hs).1 = (c.stages hs).flatMap Stage.effects := by
  induction hs generalizing c with
  | nil => rfl
  | cons first rest ih => simp only [run, stages, List.flatMap_cons, ih]

theorem departures_append (c : Client) (xs ys : List Happening) :
    c.departures (xs ++ ys) = c.departures xs ++ (c.run xs).2.departures ys := by
  rw [departures, stages_append, List.flatMap_append]
  rfl

theorem admissions_append (c : Client) (xs ys : List Happening) :
    c.admissions (xs ++ ys) = c.admissions xs ++ (c.run xs).2.admissions ys := by
  rw [admissions, stages_append, List.flatMap_append]
  rfl

/-- Every stage of a run is the step that follows some first part of it. -/
theorem exists_of_mem_stages {c : Client} {hs : List Happening} {s : Stage}
    (hs' : s ∈ c.stages hs) :
    ∃ earlier later, hs = earlier ++ s.happening :: later ∧ s.before = (c.run earlier).2 ∧
      s.effects = (s.before.step s.happening).1 ∧ s.after = (s.before.step s.happening).2 := by
  induction hs generalizing c with
  | nil => cases hs'
  | cons first rest ih =>
    rcases List.mem_cons.mp hs' with rfl | hrest
    · exact ⟨[], rest, rfl, rfl, rfl, rfl⟩
    · obtain ⟨earlier, later, rfl, hbefore, hstep⟩ := ih hrest
      exact ⟨first :: earlier, later, rfl, hbefore, hstep⟩

/-! ## What departs in a step -/

variable {s : Stage}

theorem Stage.departures_of_gone (hgone : s.gone = []) : s.departures = [] := by
  rw [departures, hgone]
  rfl

theorem Stage.gone_of_same (htable : s.after.table = s.before.table) : s.gone = [] := by
  rw [gone, htable, Table.missing_self]

theorem Stage.departures_of_without {e : Entry} {fate : Fate} (h : s.before.table.Shaped)
    (hpending : e ∈ s.before.table.entries)
    (htable : s.after.table = s.before.table.without e.ticket)
    (hfate : s.happening.fate? e = some fate) : s.departures = [⟨e, fate⟩] := by
  rw [departures, gone, htable, h.missing_without hpending]
  simp [hfate]

theorem Stage.fate_of_mem_departures {d : Departure} (hd : d ∈ s.departures) :
    d.entry ∈ s.gone ∧ s.happening.fate? d.entry = some d.fate := by
  obtain ⟨e, he, hsome⟩ := List.mem_filterMap.mp hd
  obtain ⟨fate, hfate, rfl⟩ := Option.map_eq_some_iff.mp hsome
  exact ⟨he, hfate⟩

/-! ## What the observer is told of in a step -/

theorem events_tell (c : Client) (event : Event) :
    (c.tell event).filterMap Effect.event? = if c.isObserved then [event] else [] := by
  unfold tell
  split <;> rfl

/-- Notices do not show where only effects of another kind are looked at. -/
theorem filterMap_noted {α : Type} {view : Effect → Option α}
    (hnoted : ∀ notice, view (.noted notice) = none) (notices : List Notice) :
    (notices.map Effect.noted).filterMap view = [] := by
  simp [List.filterMap_map, hnoted]

theorem events_resolve (c : Client) (request : Request) (source : UInt16) (params : Bytes) :
    (c.resolve request source params).filterMap Effect.event? =
      if c.isObserved then
        ((Report.decode? request.status params).map fun report =>
          (⟨⟨request, source⟩, .reported report⟩ : Event)).toList
      else [] := by
  unfold resolve
  rw [List.filterMap_append, filterMap_noted fun _ => rfl, List.nil_append]
  cases Report.decode? request.status params with
  | none => simp [Effect.event?]
  | some report => exact events_tell c ⟨⟨request, source⟩, .reported report⟩

/-- An answer comes from the node that the request went to. -/
theorem node_of_key {op : Opcode} {source : UInt16} {e : Entry}
    (hkey : Key.ofOpcode? op source = some e.awaited.key) : e.awaited.node = source := by
  obtain ⟨status, -, heq⟩ := Option.map_eq_some_iff.mp hkey
  exact (congrArg Key.node heq).symm

/-- The events of a stage in which requests leave the table. -/
def Stage.expectedEvents (s : Stage) : List Event :=
  if s.before.isObserved then s.departures.filterMap Departure.event? else []

theorem Stage.expectedEvents_eq_nil
    (hnone : ∀ e fate, s.happening.fate? e = some fate → (Departure.mk e fate).event? = none) :
    s.expectedEvents = [] := by
  have hdepartures : s.departures.filterMap Departure.event? = [] := by
    apply List.filterMap_eq_nil_iff.mpr
    intro d hd
    exact hnone d.entry d.fate (Stage.fate_of_mem_departures hd).2
  rw [expectedEvents, hdepartures, ite_self]

/-- What a stage means for the table: no request enters or leaves it, one enters it, or
requests leave it, of which the observer is told. -/
inductive Stage.Passage (s : Stage) : Prop where
  | quiet (htable : s.after.table = s.before.table)
      (hcalls : s.after.calls.Sublist s.before.calls) (hnext : s.before.next ≤ s.after.next)
      (hevents : s.events = [])
  | entered {now : Nat} {awaited : Awaited} (call : Call)
      (hrecord : s.before.table.record? now awaited = some (call.ticket, s.after.table))
      (hcalls : s.after.calls = s.before.calls ++ [call])
      (hnumber : call.number = s.before.next) (hnext : s.after.next = s.before.next + 1)
      (hevents : s.events = [])
  | left {p : Key × List Entry → Bool} (htable : s.after.table = s.before.table.keep p)
      (hcalls : s.after.calls.Sublist s.before.calls) (hnext : s.before.next ≤ s.after.next)
      (hfate : ∀ e, ∃ fate, s.happening.fate? e = some fate)
      (hevents : s.events = s.expectedEvents)

theorem Transition.passage (h : c.table.Shaped) (ht : c.Transition happening effects c') :
    (Stage.mk c happening effects c').Passage := by
  have hrefl := List.Sublist.refl c.calls
  cases ht with
  | rejected => exact .quiet rfl hrefl (Nat.le_succ _) rfl
  | busy => exact .quiet rfl hrefl (Nat.le_succ _) rfl
  | admitted hpayload hrecord => exact .entered _ hrecord rfl rfl rfl rfl
  | sent => exact .quiet rfl List.filter_sublist (Nat.le_refl _) rfl
  | failed =>
    refine .left rfl List.filter_sublist (Nat.le_refl _) (fun e => ⟨_, rfl⟩) ?_
    exact (Stage.expectedEvents_eq_nil fun e fate hfate => by cases hfate; rfl).symm
  | unawaited => exact .quiet rfl hrefl (Nat.le_refl _) rfl
  | aborted => exact .quiet rfl List.filter_sublist (Nat.le_refl _) rfl
  | undecodable => exact .quiet rfl hrefl (Nat.le_refl _) rfl
  | unsolicited => exact .quiet rfl hrefl (Nat.le_refl _) rfl
  | answered hdecode hpending hkey =>
    refine .left rfl hrefl (Nat.le_refl _) (fun e => ⟨_, rfl⟩) ?_
    rw [Stage.expectedEvents, Stage.departures_of_without h hpending rfl rfl, Stage.events,
      events_resolve, ← node_of_key hkey, Departure.events_singleton, Departure.event?,
      Report.ofMessage?, hdecode]
  | timedOut hpending =>
    refine .left rfl hrefl (Nat.le_refl _) (fun e => ⟨_, rfl⟩) ?_
    rw [Stage.expectedEvents, Stage.departures_of_without h hpending rfl rfl, Stage.events,
      List.filterMap_append, events_tell]
    rfl
  | stale => exact .quiet rfl hrefl (Nat.le_refl _) rfl
  | unobserved => exact .quiet rfl hrefl (Nat.le_refl _) rfl
  | closed =>
    refine .left c.table.clear_eq_keep hrefl (Nat.le_refl _) (fun e => ⟨_, rfl⟩) ?_
    exact (Stage.expectedEvents_eq_nil fun e fate hfate => by cases hfate; rfl).symm

/-- In every stage the observer, if there is one, is told of what departs in it, and of
nothing else. -/
theorem Stage.Passage.events_eq (hp : s.Passage) (h : s.before.table.Shaped) :
    s.events = s.expectedEvents := by
  have hnothing : s.gone = [] → s.expectedEvents = [] := by
    intro hgone
    rw [expectedEvents, departures_of_gone hgone, List.filterMap_nil, ite_self]
  cases hp with
  | quiet htable hcalls hnext hevents => rw [hevents, hnothing (gone_of_same htable)]
  | entered call hrecord hcalls hnumber hnext hevents =>
    rw [hevents, hnothing (h.missing_record hrecord)]
  | left htable hcalls hnext hfate hevents => exact hevents

/-- Whatever leaves the table in a stage departs in one of the ways in which it may. -/
theorem Stage.Passage.entries_departures (hp : s.Passage) (h : s.before.table.Shaped) :
    s.departures.map Departure.entry = s.gone := by
  have hnothing : s.gone = [] → s.departures.map Departure.entry = s.gone := by
    intro hgone
    rw [departures_of_gone hgone, hgone]
    rfl
  cases hp with
  | quiet htable => exact hnothing (gone_of_same htable)
  | entered call hrecord => exact hnothing (h.missing_record hrecord)
  | left htable hcalls hnext hfate =>
    unfold departures
    induction s.gone with
    | nil => rfl
    | cons e rest ih =>
      obtain ⟨fate, hfate⟩ := hfate e
      simp [hfate, ih]

end Client

end MeshFoundation
