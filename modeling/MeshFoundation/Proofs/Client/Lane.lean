import Mathlib.Data.List.MinMax
import MeshFoundation.Proofs.Client.Moves
import MeshFoundation.Proofs.Client.Reply

/-!
# One key of a client

All that a client does under one key can be told from a lane: how many calls were made for
the key, which of their messages are on their way, and what is pending under the key. Nothing
in a lane says which numbers the client gave out, for calls are counted among the calls for
the key alone.

A lane does not know of any other key, and moves on by itself. In the same way an effect of
the client shows something of a key, or nothing; what is seen of a call goes by its rank.
-/

set_option autoImplicit false

namespace MeshFoundation

open Pending

structure Client.Flight where
  /-- How many calls for the key were made before. -/
  call : Nat
  /-- When the transport will be done with it, in milliseconds. -/
  ends : Nat
  error? : Option TransportError
  /-- Whether the request of the message is pending. -/
  owns : Bool
  deriving DecidableEq, Repr

/-- What a client does under one key. -/
structure Client.Lane where
  settings : Settings
  /-- How long a request may be pending, in milliseconds. -/
  timeout : Nat
  /-- How many calls were made. -/
  made : Nat
  flights : List Client.Flight
  /-- What is pending, with its deadline. -/
  pending : List (Awaited × Nat)
  deriving DecidableEq, Repr

namespace Client

inductive Lane.Stop where
  | flight (f : Flight)
  | timer (deadline : Nat)
  deriving DecidableEq, Repr

namespace Lane

def Stop.time : Stop → Nat
  | .flight f => f.ends
  | .timer deadline => deadline

/-- Nothing is pending any longer. -/
def settle (lane : Lane) : Lane :=
  { lane with
    flights := lane.flights.map fun f => { f with owns := false }
    pending := [] }

/-- The message of a call is on its way no longer. -/
def land (lane : Lane) (call : Nat) : Lane :=
  { lane with flights := lane.flights.filter fun f => f.call ≠ call }

def call (lane : Lane) (now : Nat) (delivery : Delivery) (op : Operation) (node : UInt16) :
    List Dated × Lane :=
  let counted := { lane with made := lane.made + 1 }
  match op.payload node with
  | .error failure => ([⟨now, .returned lane.made (some failure)⟩], counted)
  | .ok payload =>
    if lane.pending.isEmpty then
      ([⟨now, .handedOver lane.made ⟨node, lane.settings.netKey, payload⟩⟩],
        { counted with
          flights := lane.flights ++ [⟨lane.made, now + delivery.delay, delivery.error?, true⟩]
          pending := [(⟨op.request, node⟩, now + lane.timeout)] })
    else ([⟨now, .returned lane.made (some (.busy op.request node))⟩], counted)

/-- Takes a message in that answers whatever is pending. -/
def receive (lane : Lane) (now : Nat) (source : UInt16) (bytes : Bytes) : List Dated × Lane :=
  match lane.pending with
  | [] => ([], lane)
  | (awaited, _) :: _ =>
    ((Report.ofMessage? awaited.request.status bytes).toList.map fun report =>
      ⟨now, .told ⟨⟨awaited.request, source⟩, .reported report⟩⟩, lane.settle)

def deed (lane : Lane) (now : Nat) : Move → List Dated × Lane
  | .call delivery op node => lane.call now delivery op node
  | .receive source bytes => lane.receive now source bytes
  | .advance _ => ([], lane)

/-- All that will fall due, messages before the request that is pending. -/
def stops (lane : Lane) : List Stop :=
  lane.flights.map Stop.flight ++ lane.pending.map fun p => Stop.timer p.2

def happen (lane : Lane) : Stop → List Dated × Lane
  | .flight f =>
    ([⟨f.ends, .returned f.call (f.error?.map .transport)⟩],
      if f.owns && f.error?.isSome then (lane.land f.call).settle else lane.land f.call)
  | .timer deadline =>
    (lane.pending.map fun p => ⟨deadline, .told ⟨p.1, .unanswered⟩⟩, lane.settle)

/-- What falls due next, if it does so up to the given time. Of things that fall due at the
same time the one in front comes first. -/
def next? (lane : Lane) (limit : Nat) : Option Stop :=
  (lane.stops.argmin Stop.time).filter fun stop => stop.time ≤ limit

/-- Whatever falls due lowers the number of things that will. -/
theorem stops_happen_lt {lane : Lane} {limit : Nat} {stop : Stop}
    (hnext : lane.next? limit = some stop) :
    (lane.happen stop).2.stops.length < lane.stops.length := by
  obtain ⟨hfirst, -⟩ := Option.filter_eq_some_iff.mp hnext
  have hmem := List.argmin_mem hfirst
  rw [stops, List.mem_append] at hmem
  simp only [stops, List.length_append, List.length_map]
  rcases hmem with hmem | hmem
  · obtain ⟨f, hf, rfl⟩ := List.mem_map.mp hmem
    have hlt : (lane.flights.filter fun g => g.call ≠ f.call).length < lane.flights.length := by
      rw [List.length_filter_lt_length_iff_exists]
      exact ⟨f, hf, by simp⟩
    simp only [happen]
    split
    · simp only [settle, land, List.length_map, List.length_nil]
      omega
    · simp only [land]
      omega
  · obtain ⟨p, hp, rfl⟩ := List.mem_map.mp hmem
    have hpos := List.length_pos_of_mem hp
    simp only [happen, settle, List.length_map, List.length_nil]
    omega

/-- Lets everything happen that falls due up to the given time. -/
def run (limit : Nat) (lane : Lane) : List Dated × Lane :=
  match _h : lane.next? limit with
  | none => ([], lane)
  | some stop =>
    let (more, final) := run limit (lane.happen stop).2
    ((lane.happen stop).1 ++ more, final)
termination_by lane.stops.length
decreasing_by exact stops_happen_lt _h

theorem run_of_none {lane : Lane} {limit : Nat} (hnone : lane.next? limit = none) :
    lane.run limit = ([], lane) := by
  rw [run]
  split
  · rfl
  · rename_i stop hnext
    rw [hnone] at hnext
    cases hnext

theorem run_of_some {lane : Lane} {limit : Nat} {stop : Stop}
    (hnext : lane.next? limit = some stop) :
    lane.run limit = ((lane.happen stop).1 ++ ((lane.happen stop).2.run limit).1,
      ((lane.happen stop).2.run limit).2) := by
  rw [run]
  split
  · rename_i hnone
    rw [hnext] at hnone
    cases hnone
  · rename_i other hother
    rw [hnext] at hother
    cases hother
    rfl

def move (lane : Lane) (now : Nat) (m : Move) : List Dated × Lane :=
  let (effects, after) := lane.deed now m
  let (more, final) := after.run (now + m.span)
  (effects ++ more, final)

end Lane

/-! ## What is seen under a key -/

/-- Whether a move is about a key, as all moves of the clock are: it makes a call for the
key, or lets a message arrive from the node of the key whose opcode is, apart from its
unreliable flag, that of the status message of the key. -/
def Move.concerns (key : Key) : Move → Bool
  | .call _ op node => (⟨op.request, node⟩ : Awaited).key = key
  | .receive source bytes =>
    match Opcode.decode bytes with
    | .ok (opcode, _) => source = key.node && opcode.reliable = key.status.opcode
    | .error _ => false
  | .advance _ => true

/-- How many calls were made for a key before a call. The keys are those of all calls. -/
def rank (asked : List Key) (key : Key) (call : Nat) : Nat := (asked.take call).count key

end Client

/-- What an effect shows of a key: the messages, results and events of calls for the key,
where each call goes by its rank. -/
def Effect.seen? (asked : List Key) (key : Key) : Effect → Option Effect
  | .handedOver call message =>
    if asked[call]? = some key then some (.handedOver (Client.rank asked key call) message)
    else none
  | .returned call failure? =>
    if asked[call]? = some key then some (.returned (Client.rank asked key call) failure?)
    else none
  | .told event => if event.awaited.key = key then some (.told event) else none
  | .accepted _ _ | .noted _ | .counted _ => none

namespace Client

/-- What some effects show of a key, and when. -/
def seen (asked : List Key) (key : Key) (effects : List Dated) : List Dated :=
  effects.filterMap fun d => (d.effect.seen? asked key).map (Dated.mk d.time)

namespace Timeline

/-- A message on its way as one of a lane. -/
def flight (tl : Timeline) (asked : List Key) (key : Key) (s : Sending) : Flight :=
  ⟨rank asked key s.call, s.ends, s.error?, s.ticket ∈ (tl.client.table.under key).map Entry.ticket⟩

/-- What is pending under a key, with its deadline. -/
def pending (tl : Timeline) (key : Key) : List (Awaited × Nat) :=
  (tl.client.table.under key).map fun e => (e.awaited, e.deadline)

/-- The lane of a key. -/
def lane (tl : Timeline) (asked : List Key) (key : Key) : Lane where
  settings := tl.client.settings
  timeout := tl.client.table.timeout
  made := rank asked key tl.client.next
  flights := (tl.sendings.filter fun s => s.ticket.key = key).map (tl.flight asked key)
  pending := tl.pending key

/-- What falls due as a stop of a lane. -/
def stop (tl : Timeline) (asked : List Key) (key : Key) : Due → Lane.Stop
  | .sending s => .flight (tl.flight asked key s)
  | .timer timer => .timer timer.deadline

end Timeline

variable {asked : List Key} {key : Key} {m : Move}

/-- A message is about a key if it would answer a request under it. -/
theorem Move.concerns_receive_iff {source : UInt16} {bytes : Bytes} :
    (receive source bytes).concerns key = true ↔ ∃ opcode width,
      Opcode.decode bytes = .ok (opcode, width) ∧
      Key.ofOpcode? opcode.reliable source = some key := by
  simp only [concerns, Key.ofOpcode?_reliable]
  cases Opcode.decode bytes with
  | error fault => simp
  | ok result =>
    obtain ⟨opcode, width⟩ := result
    simp only [Bool.and_eq_true, decide_eq_true_eq, Except.ok.injEq, Prod.mk.injEq]
    constructor
    · rintro ⟨hsource, hopcode⟩
      exact ⟨opcode, width, ⟨rfl, rfl⟩, hopcode.symm, hsource.symm⟩
    · rintro ⟨_, _, ⟨rfl, -⟩, hopcode, hsource⟩
      exact ⟨hsource.symm, hopcode.symm⟩

/-- The clock only moves on in moves that are about all keys. -/
theorem Move.span_of_other (hother : m.concerns key = false) : m.span = 0 := by
  cases m with
  | advance milliseconds => cases hother
  | _ => rfl

/-! ## Ranks -/

theorem rank_succ {call : Nat} {other : Key} (hcall : asked[call]? = some other) (key : Key) :
    rank asked key (call + 1) = rank asked key call + if other = key then 1 else 0 := by
  rw [rank, List.take_add_one, hcall, List.count_append, rank]
  simp [List.count_singleton]

/-- The rank of a call tells it from all other calls for the key. -/
theorem rank_injective {a b : Nat} (ha : asked[a]? = some key) (hb : asked[b]? = some key)
    (hrank : rank asked key a = rank asked key b) : a = b := by
  have hlt : ∀ a b : Nat, asked[a]? = some key → a < b → rank asked key a < rank asked key b := by
    intro a b ha hab
    have hsucc := rank_succ ha key
    rw [if_pos rfl] at hsucc
    have hle : rank asked key (a + 1) ≤ rank asked key b :=
      ((List.take_prefix_take_left hab).sublist).count_le key
    omega
  rcases Nat.lt_trichotomy a b with hab | hab | hab
  · have hrank' := hlt a b ha hab
    omega
  · exact hab
  · have hrank' := hlt b a hb hab
    omega

/-! ## What is seen -/

theorem seen_append (xs ys : List Dated) :
    seen asked key (xs ++ ys) = seen asked key xs ++ seen asked key ys :=
  List.filterMap_append

/-- Mere notes are not seen. -/
theorem seen_of_asides {quiet : List Effect} (hquiet : ∀ effect ∈ quiet, effect.isAside = true)
    (time : Nat) : seen asked key (quiet.map (Dated.mk time)) = [] := by
  rw [seen, List.filterMap_map, List.filterMap_eq_nil_iff]
  intro effect heffect
  have haside := hquiet effect heffect
  cases effect <;> simp_all [Effect.isAside, Effect.seen?]

theorem seen_after_asides {quiet : List Effect}
    (hquiet : ∀ effect ∈ quiet, effect.isAside = true) (effect : Effect) (time : Nat) :
    seen asked key ((quiet ++ [effect]).map (Dated.mk time)) =
      ((effect.seen? asked key).map (Dated.mk time)).toList := by
  rw [List.map_append, seen_append, seen_of_asides hquiet, List.nil_append]
  cases hseen : effect.seen? asked key <;> simp [seen, hseen]

/-- Of a message that answers a request, the report is seen under the key of the request. -/
theorem seen_resolve {c : Client} (hobserved : c.isObserved = true) (request : Request)
    (source : UInt16) (params : Bytes) (time : Nat) :
    seen asked key ((c.resolve request source params).map (Dated.mk time)) =
      if (⟨request, source⟩ : Awaited).key = key then
        (Report.decode? request.status params).toList.map fun report =>
          ⟨time, .told ⟨⟨request, source⟩, .reported report⟩⟩
      else [] := by
  have hnotices : ∀ notices : List Notice,
      seen asked key ((notices.map Effect.noted).map (Dated.mk time)) = [] := by
    intro notices
    apply seen_of_asides
    intro effect heffect
    obtain ⟨notice, -, rfl⟩ := List.mem_map.mp heffect
    rfl
  unfold resolve
  rw [List.map_append, seen_append, hnotices, List.nil_append]
  cases Report.decode? request.status params with
  | none => simp [seen, Effect.seen?]
  | some report =>
    by_cases hkey : (⟨request, source⟩ : Awaited).key = key
    · simp [tell, hobserved, seen, Effect.seen?, hkey]
    · simp [tell, hobserved, seen, Effect.seen?, hkey]

end Client

end MeshFoundation
