import MeshFoundation.Proofs.Client.Projection

/-!
# Keys do not touch each other

Two runs are compared. In the first, whoever has the client makes any moves; in the second,
all moves are left out that are not about a given key. Move by move, at the same times, the
two runs show the same of the key: what the transport gets, how the calls come back, what the
observer is told, and what is pending with which deadline (`isolated_by_key`). The moves that
are left out show nothing of the key.

The numbers that the client gives out differ between the two runs, as the second one makes
fewer calls. A call therefore goes by how many calls for the key were made before it.

The runs are not compared with each other but each with the lane of the key, which moves on
as if there were no other keys.
-/

set_option autoImplicit false

namespace MeshFoundation.Client

open Pending

/-- What a move shows of a key. -/
structure Sighting where
  move : Move
  /-- The time after the move, in milliseconds. -/
  now : Nat
  effects : List Dated
  /-- What was pending under the key, with its deadline. -/
  before : List (Awaited × Nat)
  /-- What is pending after the move. -/
  after : List (Awaited × Nat)
  deriving DecidableEq, Repr

namespace Timeline

/-- What a move shows of a key. -/
def sighting (tl : Timeline) (asked : List Key) (key : Key) (m : Move) : Sighting where
  move := m
  now := (tl.move m).2.now
  effects := seen asked key (tl.move m).1
  before := tl.pending key
  after := (tl.move m).2.pending key

/-- What the moves of a list show of a key, one after another. -/
def watch (tl : Timeline) (asked : List Key) (key : Key) : List Move → List Sighting
  | [] => []
  | first :: rest => tl.sighting asked key first :: (tl.move first).2.watch asked key rest

end Timeline

/-- What a new client shows of a key in a run. -/
def sightings (settings : Settings) (key : Key) (moves : List Move) : List Sighting :=
  (Timeline.start settings).watch (moves.filterMap Move.asked?) key moves

namespace Timeline

/-- Two runs have the same lane of a key at the same time. In the first one nothing is due
that did not happen, and the second one recorded no more requests than the first. -/
structure Alike (tl alone : Timeline) (asked asked' : List Key) (key : Key) (issued : Nat) :
    Prop where
  sound : tl.Sound asked issued
  sound' : ∃ issued' ≤ issued, alone.Sound asked' issued'
  lanes : tl.lane asked key = alone.lane asked' key
  now : tl.now = alone.now
  settled : tl.nextDue? tl.now = none

variable {tl alone : Timeline} {asked asked' : List Key} {issued : Nat} {key : Key} {m : Move}
  {moves : List Move}

theorem Alike.pending_eq (h : tl.Alike alone asked asked' key issued) :
    tl.pending key = alone.pending key := congrArg Lane.pending h.lanes

/-- A move that both runs make shows the same of the key in both of them. -/
theorem Alike.own (h : tl.Alike alone asked asked' key issued) (hown : m.concerns key = true)
    (hasked : ∀ other, m.asked? = some other → asked[tl.client.next]? = some other)
    (hasked' : ∀ other, m.asked? = some other → asked'[alone.client.next]? = some other)
    (hfew : issued + (handOvers (tl.deed m).1).length < 2 ^ 64) :
    tl.sighting asked key m = alone.sighting asked' key m ∧
      (alone.move m).2.client.next = alone.client.next + m.asked?.toList.length ∧
      (tl.move m).2.Alike (alone.move m).2 asked asked' key
        (issued + (handOvers (tl.deed m).1).length) := by
  obtain ⟨issued', hissued, halone⟩ := h.sound'
  -- The second run hands a message over in this move exactly if the first one does.
  have hcount : (handOvers (alone.deed m).1).length = (handOvers (tl.deed m).1).length := by
    rw [(halone.lane_deed hown hasked').2.1, ← h.lanes, ← h.now,
      ← (h.sound.lane_deed hown hasked).2.1]
  have hfew' : issued' + (handOvers (alone.deed m).1).length < 2 ^ 64 := by omega
  obtain ⟨hsound, -, hdone⟩ := h.sound.move m hasked hfew
  obtain ⟨hsound', hnext', -⟩ := halone.move m hasked' hfew'
  obtain ⟨heffects, hlane⟩ := h.sound.lane_move hown hasked hfew
  obtain ⟨heffects', hlane'⟩ := halone.lane_move hown hasked' hfew'
  rw [h.lanes, h.now] at heffects hlane
  have hafter : (tl.move m).2.Alike (alone.move m).2 asked asked' key
      (issued + (handOvers (tl.deed m).1).length) :=
    { sound := hsound
      sound' := ⟨_, by omega, hsound'⟩
      lanes := hlane.trans hlane'.symm
      now := by rw [now_move, now_move, h.now]
      settled := hdone }
  refine ⟨?_, hnext', hafter⟩
  rw [sighting, sighting, hafter.now, heffects, heffects', h.pending_eq, hafter.pending_eq]

/-- A move that only the first run makes shows nothing of the key. -/
theorem Alike.other (h : tl.Alike alone asked asked' key issued) (hother : m.concerns key = false)
    (hasked : ∀ other, m.asked? = some other → asked[tl.client.next]? = some other)
    (hfew : issued + (handOvers (tl.deed m).1).length < 2 ^ 64) :
    ((tl.sighting asked key m).effects = [] ∧
        (tl.sighting asked key m).after = (tl.sighting asked key m).before) ∧
      (tl.move m).2.Alike alone asked asked' key (issued + (handOvers (tl.deed m).1).length) := by
  obtain ⟨issued', hissued, halone⟩ := h.sound'
  obtain ⟨hsound, -, hdone⟩ := h.sound.move m hasked hfew
  obtain ⟨heffects, hlane⟩ := h.sound.lane_move_of_other hother hasked hfew h.settled
  refine ⟨⟨heffects, congrArg Lane.pending hlane⟩, ?_⟩
  exact
    { sound := hsound
      sound' := ⟨issued', by omega, halone⟩
      lanes := hlane.trans h.lanes
      now := by rw [now_move, Move.span_of_other hother, Nat.add_zero, h.now]
      settled := hdone }

/-- The messages that go out in a run go out in its first move or later. -/
theorem handOvers_moves_cons (tl : Timeline) (m : Move) (rest : List Move) :
    (handOvers (tl.deed m).1).length + (handOvers ((tl.move m).2.moves rest).1).length ≤
      (handOvers (tl.moves (m :: rest)).1).length := by
  rw [Timeline.moves, move_eq]
  simp only [handOvers, List.filterMap_append, List.length_append]
  omega

/-- If one run makes all moves of a list and the other one only those that are about the key,
the moves that both of them make show the same of the key, and all others show nothing. -/
theorem Alike.watch (h : tl.Alike alone asked asked' key issued)
    (hasked : asked.drop tl.client.next = moves.filterMap Move.asked?)
    (hasked' : asked'.drop alone.client.next =
      (moves.filter (Move.concerns key)).filterMap Move.asked?)
    (hfew : issued + (handOvers (tl.moves moves).1).length < 2 ^ 64) :
    ((tl.watch asked key moves).filter fun s => s.move.concerns key) =
        alone.watch asked' key (moves.filter (Move.concerns key)) ∧
      ∀ s ∈ tl.watch asked key moves, s.move.concerns key = false →
        s.effects = [] ∧ s.after = s.before := by
  induction moves generalizing tl alone issued with
  | nil => exact ⟨rfl, nofun⟩
  | cons m rest ih =>
    have hle := handOvers_moves_cons tl m rest
    have hbound : issued + (handOvers (tl.deed m).1).length < 2 ^ 64 := by omega
    have hlater : issued + (handOvers (tl.deed m).1).length +
        (handOvers ((tl.move m).2.moves rest).1).length < 2 ^ 64 := by omega
    obtain ⟨hcall, hleft⟩ := asked_of_drop hasked
    rw [← (h.sound.move m hcall hbound).2.1] at hleft
    by_cases hown : m.concerns key = true
    · rw [List.filter_cons_of_pos hown] at hasked' ⊢
      obtain ⟨hcall', hleft'⟩ := asked_of_drop hasked'
      obtain ⟨hsame, hnext', hafter⟩ := h.own hown hcall hcall' hbound
      rw [← hnext'] at hleft'
      obtain ⟨hrest, hquiet⟩ := ih hafter hleft hleft' hlater
      refine ⟨?_, ?_⟩
      · rw [Timeline.watch, List.filter_cons, hrest, hsame, Timeline.watch]
        exact if_pos hown
      · intro s hs hother
        rcases List.mem_cons.mp hs with rfl | hs
        · exact absurd hown (Bool.not_eq_true _ ▸ hother)
        · exact hquiet s hs hother
    · rw [List.filter_cons_of_neg hown] at hasked' ⊢
      obtain ⟨hnothing, hafter⟩ := h.other (Bool.eq_false_of_not_eq_true hown) hcall hbound
      obtain ⟨hrest, hquiet⟩ := ih hafter hleft hasked' hlater
      refine ⟨?_, ?_⟩
      · rw [Timeline.watch, List.filter_cons, hrest]
        exact if_neg hown
      · intro s hs hother
        rcases List.mem_cons.mp hs with rfl | hs
        · exact hnothing
        · exact hquiet s hs hother

end Timeline

/-- Whatever is done with a client: what its moves show of a key is what they show of it in
the run in which all moves are left out that are not about the key. The moves that are left
out show nothing of the key, as long as the numbers of the table do not run over. -/
theorem isolated_by_key (settings : Settings) (moves : List Move) (key : Key)
    (hfew : (Timeline.handOvers ((Timeline.start settings).moves moves).1).length < 2 ^ 64) :
    ((sightings settings key moves).filter fun s => s.move.concerns key) =
        sightings settings key (moves.filter (Move.concerns key)) ∧
      ∀ s ∈ sightings settings key moves, s.move.concerns key = false →
        s.effects = [] ∧ s.after = s.before := by
  have hlane : ∀ asked : List Key, (Timeline.start settings).lane asked key =
      ⟨settings, settings.timeout, 0, [], []⟩ := by
    intro asked
    simp [Timeline.lane, Timeline.start, Timeline.pending, Client.new, Table.empty, Table.under,
      Table.entries, rank]
  have hstart : ∀ asked asked' : List Key,
      (Timeline.start settings).Alike (Timeline.start settings) asked asked' key 0 := by
    intro asked asked'
    exact
      { sound := Timeline.Sound.start settings asked
        sound' := ⟨0, Nat.le_refl _, Timeline.Sound.start settings asked'⟩
        lanes := (hlane asked).trans (hlane asked').symm
        now := rfl
        settled := rfl }
  exact (hstart _ _).watch rfl rfl (by rwa [Nat.zero_add])

/-- A request that runs out of time before the transport fails to send its message, and is
made again in between; and requests of another kind, and to another node, at the same time. -/
def crossedKeys : List Move :=
  [.call ⟨3000, some .unavailable⟩ .getRelay 2, .call .immediate .getBeacon 2, .advance 2500,
    .call .immediate .getRelay 3, .call .immediate .getRelay 2, .advance 600,
    .receive 3 [0x80, 0x28, 1, 0x25], .receive 2 [0x80, 0x28, 0, 0x25]]

theorem isolated_of_crossedKeys :
    let relay : Key := ⟨.relay, 2⟩
    let request : Awaited := ⟨.relayGet, 2⟩
    let message : Message := ⟨2, 0, [0x80, 0x26]⟩
    (Timeline.handOvers ((Timeline.start .standard).moves crossedKeys).1).length = 4 ∧
      ((sightings .standard relay crossedKeys).filter fun s => s.move.concerns relay) =
        sightings .standard relay (crossedKeys.filter (Move.concerns relay)) ∧
      (sightings .standard relay (crossedKeys.filter (Move.concerns relay))).map
          (fun s => (s.now, s.effects, s.after)) =
        [(0, [⟨0, .handedOver 0 message⟩], [(request, 2000)]),
          (2500, [⟨2000, .told ⟨request, .unanswered⟩⟩], []),
          (2500, [⟨2500, .handedOver 1 message⟩, ⟨2500, .returned 1 none⟩], [(request, 4500)]),
          (3100, [⟨3000, .returned 0 (some (.transport .unavailable))⟩], [(request, 4500)]),
          (3100, [⟨3100, .told ⟨request, .reported (.relay .disabled ⟨5, 50⟩)⟩⟩], [])] := by
  intro relay request message
  have hfew : (Timeline.handOvers ((Timeline.start .standard).moves crossedKeys).1).length = 4 := by
    decide +kernel
  obtain ⟨hsame, -⟩ := isolated_by_key .standard crossedKeys relay (by rw [hfew]; decide)
  exact ⟨hfew, hsame, by decide +kernel⟩

end MeshFoundation.Client
