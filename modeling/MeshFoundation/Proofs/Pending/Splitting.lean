import MeshFoundation.Proofs.Pending.Clock

/-!
# Moves of the clock in parts

Where the clock stops on its way depends on the timers that run, and a stop may set up another
timer, because the hook makes a request again. Nothing in this depends on how far the clock is to
go, only whether the next stop still lies on its way. A move in two parts therefore makes the same
stops as one move over the whole way.

This is so for every hook that makes requests again so many times at most under each key, whatever
it bases its choice on, and for every rule by which one of several timers of the same time goes
off first (`Clockwork`). What such a hook has left to do under the keys of the pending requests
falls with every stop, so that a move makes only so many stops, even if the timeout is zero and
all of them are made at the same time. The clock of `Timeline` is one of these clockworks
(`Clockwork.advance_timeline`).

Main statement:

* `Clockwork.advance_in_parts`: a move in two parts has the same calls and the same outcome as
  one, and every move ends.
-/

set_option autoImplicit false

namespace MeshFoundation.Pending

/-! ## Clockworks -/

/-- How many of the calls with requests under a key a hook has made again. The latest call comes
first. -/
def repeatsUnder (again : List Expiry → Expiry → Bool) (key : Key) : List Expiry → Nat
  | [] => 0
  | call :: earlier =>
    repeatsUnder again key earlier +
      if call.awaited.key = key ∧ again earlier call = true then 1 else 0

/-- What a move of the clock goes by. -/
structure Clockwork where
  /-- The timer that goes off first. -/
  first? : List Timer → Option Timer
  /-- Whether the hook makes the request of a call again, after the given earlier calls. -/
  again : List Expiry → Expiry → Bool
  /-- How many times at most it does so under a key. -/
  bound : Key → Nat
  isSome_first? : ∀ timers, timers ≠ [] → (first? timers).isSome = true
  earliest : ∀ timers timer, first? timers = some timer →
    timer ∈ timers ∧ ∀ other ∈ timers, timer.deadline ≤ other.deadline
  bounded : ∀ key calls, repeatsUnder again key calls ≤ bound key

/-- A table at some time, with the calls of its hook up to then, the latest one first. -/
structure Moment where
  now : Nat
  table : Table
  calls : List Expiry
  deriving DecidableEq, Repr

namespace Clockwork

variable {c : Clockwork} {m m' : Moment} {limit : Nat} {call : Expiry} {calls : List Expiry}

/-- What the hook makes of the table with which it is called. -/
def reenter (c : Clockwork) (earlier : List Expiry) (call : Expiry) (left : Table) : Table :=
  if c.again earlier call then
    match left.record? call.time call.awaited with
    | some (_, table) => table
    | none => left
  else left

/-- Lets the clock stop at the next timer, if it goes off up to the given time. -/
def stop? (c : Clockwork) (limit : Nat) (m : Moment) : Option (Expiry × Moment) :=
  ((c.first? m.table.timers).filter fun timer => timer.deadline ≤ limit).bind fun timer =>
    (m.table.take? timer.ticket).map fun (entry, left) =>
      let call : Expiry := ⟨timer.ticket, entry.awaited, timer.deadline⟩
      (call, ⟨timer.deadline, c.reenter m.calls call left, call :: m.calls⟩)

/-- Stops of the clock, one after another, with the calls of the hook in their order. -/
inductive Stops (c : Clockwork) (limit : Nat) : Moment → List Expiry → Moment → Prop where
  | none (m : Moment) : Stops c limit m [] m
  | cons {m m' final : Moment} {call : Expiry} {calls : List Expiry}
      (first : c.stop? limit m = some (call, m')) (rest : Stops c limit m' calls final) :
      Stops c limit m (call :: calls) final

/-- How many stops there are at most for a pending request: one now, and one more for each time
that the hook may still make a request under its key again. -/
def share (c : Clockwork) (calls : List Expiry) (awaited : Awaited) : Nat :=
  1 + (c.bound awaited.key - repeatsUnder c.again awaited.key calls)

/-- How many stops there are at most. -/
def potential (c : Clockwork) (m : Moment) : Nat :=
  total (fun e => c.share m.calls e.awaited) m.table.entries

theorem share_cons_le (c : Clockwork) (calls : List Expiry) (call : Expiry) (awaited : Awaited) :
    c.share (call :: calls) awaited ≤ c.share calls awaited := by
  simp only [share, repeatsUnder]
  omega

/-- A request that the hook makes again is made again once less from then on. -/
theorem share_of_again (h : c.again calls call = true) :
    c.share (call :: calls) call.awaited < c.share calls call.awaited := by
  have hbound := c.bounded call.awaited.key (call :: calls)
  have hcount : repeatsUnder c.again call.awaited.key (call :: calls) =
      repeatsUnder c.again call.awaited.key calls + 1 := by
    rw [repeatsUnder, if_pos ⟨rfl, h⟩]
  simp only [share]
  omega

/-- The hook puts in one request at most, and only if it makes it again. -/
theorem total_reenter_le (c : Clockwork) (earlier : List Expiry) (call : Expiry) (left : Table)
    (share : Awaited → Nat) :
    total (fun e => share e.awaited) (c.reenter earlier call left).entries ≤
      total (fun e => share e.awaited) left.entries +
        if c.again earlier call then share call.awaited else 0 := by
  unfold reenter
  split
  · split
    · rename_i hrecord
      rw [Table.total_of_record? share hrecord]
      omega
    · omega
  · omega

/-- Every stop lowers the number of stops that there can be. -/
theorem potential_lt_of_stop? (h : c.stop? limit m = some (call, m')) :
    c.potential m' < c.potential m := by
  obtain ⟨timer, -, hstop⟩ := Option.bind_eq_some_iff.mp h
  obtain ⟨⟨entry, left⟩, htake, heq⟩ := Option.map_eq_some_iff.mp hstop
  cases heq
  generalize hcall : (⟨timer.ticket, entry.awaited, timer.deadline⟩ : Expiry) = call
  have hown : call.awaited = entry.awaited := by rw [← hcall]
  have htake := Table.total_of_take? (fun e => c.share m.calls e.awaited) htake
  have hreenter := c.total_reenter_le m.calls call left (c.share (call :: m.calls))
  have hothers : total (fun e => c.share (call :: m.calls) e.awaited) left.entries ≤
      total (fun e => c.share m.calls e.awaited) left.entries :=
    total_le_total (fun e => c.share_cons_le m.calls call e.awaited) _
  have hpaid : (if c.again m.calls call then c.share (call :: m.calls) call.awaited else 0) <
      c.share m.calls entry.awaited := by
    split
    · rename_i hagain
      exact hown ▸ share_of_again hagain
    · simp only [share]
      omega
  simp only [potential]
  omega

/-- Lets the clock stop until no timer goes off any more up to the given time. -/
def run (c : Clockwork) (limit : Nat) (m : Moment) : List Expiry × Moment :=
  match _h : c.stop? limit m with
  | none => ([], m)
  | some (call, m') =>
    let (calls, final) := run c limit m'
    (call :: calls, final)
termination_by c.potential m
decreasing_by exact potential_lt_of_stop? _h

/-- Moves the clock on. -/
def advance (c : Clockwork) (m : Moment) (milliseconds : Nat) : List Expiry × Moment :=
  let limit := m.now + milliseconds
  let (calls, final) := c.run limit m
  (calls, { final with now := limit })

/-! ## Every move ends -/

theorem run_of_none (h : c.stop? limit m = none) : c.run limit m = ([], m) := by
  rw [run]
  split
  · rfl
  · rename_i hsome
    rw [h] at hsome
    cases hsome

theorem run_of_some (h : c.stop? limit m = some (call, m')) :
    c.run limit m = (call :: (c.run limit m').1, (c.run limit m').2) := by
  rw [run]
  split
  · rename_i hnone
    rw [h] at hnone
    cases hnone
  · rename_i hsome
    rw [h] at hsome
    cases hsome
    rfl

/-- There are no more stops in a row than the potential says. -/
theorem Stops.length_le_potential (h : c.Stops limit m calls m') :
    calls.length ≤ c.potential m := by
  induction h with
  | none m => exact Nat.zero_le _
  | cons first rest ih =>
    have hlt := potential_lt_of_stop? first
    rw [List.length_cons]
    omega

theorem stops_run (c : Clockwork) (limit : Nat) (m : Moment) :
    c.Stops limit m (c.run limit m).1 (c.run limit m).2 := by
  fun_induction run c limit m with
  | case1 m hnone => exact .none m
  | case2 m call m' hsome calls final hrun ih =>
    rw [hrun] at ih
    exact .cons hsome ih

theorem stop?_run (c : Clockwork) (limit : Nat) (m : Moment) :
    c.stop? limit (c.run limit m).2 = none := by
  fun_induction run c limit m with
  | case1 m hnone => exact hnone
  | case2 m call m' hsome calls final hrun ih =>
    rw [hrun] at ih
    exact ih

/-- The clock goes on without a stop exactly if no timer is due. -/
theorem stop?_eq_none_iff :
    c.stop? limit m = none ↔ ∀ timer ∈ m.table.timers, limit < timer.deadline := by
  constructor
  · intro hnone timer htimer
    obtain ⟨first, hfirst⟩ :=
      Option.isSome_iff_exists.mp (c.isSome_first? _ (List.ne_nil_of_mem htimer))
    obtain ⟨hmem, hearliest⟩ := c.earliest _ _ hfirst
    by_contra hdue
    have hlimit : first.deadline ≤ limit :=
      Nat.le_trans (hearliest timer htimer) (Nat.le_of_not_lt hdue)
    have htake := Table.take?_isSome_of_mem_timers hmem
    rw [stop?, Option.filter_eq_some_iff.mpr ⟨hfirst, decide_eq_true hlimit⟩, Option.bind_some,
      Option.map_eq_none_iff] at hnone
    rw [hnone] at htake
    cases htake
  · intro hlate
    have hnone : ((c.first? m.table.timers).filter fun timer => timer.deadline ≤ limit) = none := by
      rw [Option.filter_eq_none_iff]
      intro first hfirst
      rw [decide_eq_true_eq]
      exact Nat.not_le.mpr (hlate first (c.earliest _ _ hfirst).1)
    rw [stop?, hnone]
    rfl

/-- After a move no timer is due. -/
theorem late_run (c : Clockwork) (limit : Nat) (m : Moment) :
    ∀ timer ∈ (c.run limit m).2.table.timers, limit < timer.deadline :=
  stop?_eq_none_iff.mp (c.stop?_run limit m)

/-! ## Moves in parts -/

/-- A stop on the way to some time is a stop on every longer way. -/
theorem stop?_mono {further : Nat} (hle : limit ≤ further)
    (h : c.stop? limit m = some (call, m')) : c.stop? further m = some (call, m') := by
  obtain ⟨timer, htimer, hstop⟩ := Option.bind_eq_some_iff.mp h
  obtain ⟨hfirst, hdue⟩ := Option.filter_eq_some_iff.mp htimer
  have hdue' : timer.deadline ≤ further := Nat.le_trans (of_decide_eq_true hdue) hle
  rw [stop?, Option.filter_eq_some_iff.mpr ⟨hfirst, decide_eq_true hdue'⟩]
  exact hstop

/-- The stops on a longer way are those up to some time on it, and those from there on. -/
theorem run_of_le {further : Nat} (hle : limit ≤ further) (m : Moment) :
    c.run further m = ((c.run limit m).1 ++ (c.run further (c.run limit m).2).1,
      (c.run further (c.run limit m).2).2) := by
  fun_induction run c limit m with
  | case1 m hnone => rfl
  | case2 m call m' hsome calls final hrun ih =>
    rw [hrun] at ih
    rw [run_of_some (stop?_mono hle hsome), ih]
    rfl

/-- Where the clock stops does not depend on the time that it shows before. -/
theorem run_now (c : Clockwork) (limit : Nat) (m : Moment) (now : Nat) :
    (c.run limit { m with now }).1 = (c.run limit m).1 ∧
      ∀ now', { (c.run limit { m with now }).2 with now := now' } =
        { (c.run limit m).2 with now := now' } := by
  have hstop : c.stop? limit { m with now } = c.stop? limit m := rfl
  cases h : c.stop? limit m with
  | none =>
    rw [run_of_none h, run_of_none (hstop.trans h)]
    exact ⟨rfl, fun _ => rfl⟩
  | some result =>
    rw [run_of_some h, run_of_some (hstop.trans h)]
    exact ⟨rfl, fun _ => rfl⟩

theorem advance_add (c : Clockwork) (m : Moment) (a b : Nat) :
    c.advance m (a + b) =
      ((c.advance m a).1 ++ (c.advance (c.advance m a).2 b).1,
        (c.advance (c.advance m a).2 b).2) := by
  have hlimit : m.now + (a + b) = m.now + a + b := (Nat.add_assoc ..).symm
  have hle : m.now + a ≤ m.now + a + b := Nat.le_add_right ..
  obtain ⟨hcalls, hfinal⟩ :=
    c.run_now (m.now + a + b) (c.run (m.now + a) m).2 (m.now + a)
  simp only [advance, hlimit, c.run_of_le hle m, hcalls, hfinal]

/-! ## The clock of a timeline -/

/-- A hook that makes requests again as long as their key has had fewer calls than it may. -/
def underRetries (retries : Nat) (earlier : List Expiry) (call : Expiry) : Bool :=
  (earlier.map fun x => x.awaited.key).count call.awaited.key < retries

theorem repeatsUnder_underRetries (retries : Nat) (key : Key) (calls : List Expiry) :
    repeatsUnder (underRetries retries) key calls =
      min ((calls.map fun x => x.awaited.key).count key) retries := by
  induction calls with
  | nil => exact (Nat.zero_min retries).symm
  | cons call earlier ih =>
    rw [repeatsUnder, List.map_cons, ih]
    by_cases hkey : call.awaited.key = key
    · subst hkey
      have hagain : underRetries retries earlier call = true ↔
          (earlier.map fun x => x.awaited.key).count call.awaited.key < retries :=
        decide_eq_true_iff
      simp only [List.count_cons_self, hagain, true_and]
      split <;> omega
    · rw [List.count_cons_of_ne hkey, if_neg fun h => hkey h.1, Nat.add_zero]

/-- The clockwork of a timeline: timers of the same time go off in the order of their numbers. -/
def retrying (retries : Nat) : Clockwork where
  first? := Timer.first? id
  again := underRetries retries
  bound _ := retries
  isSome_first? timers hsome := by
    rw [Option.isSome_iff_ne_none, ne_eq, Timer.first?_eq_none_iff]
    exact hsome
  earliest _ _ hfirst :=
    ⟨Timer.mem_of_first? hfirst, fun _ hother => Timer.deadline_le_of_first? hfirst hother⟩
  bounded key calls := by
    rw [repeatsUnder_underRetries]
    exact Nat.min_le_right ..

end Clockwork

theorem Timeline.run_of_none {tl : Timeline} {limit : Nat} (h : tl.next? limit = none) :
    tl.run limit = ([], tl) := by
  rw [Timeline.run]
  split
  · rfl
  · rename_i hsome
    rw [h] at hsome
    cases hsome

theorem Timeline.run_of_some {tl tl' : Timeline} {limit : Nat} {expiry : Expiry}
    (h : tl.next? limit = some (expiry, tl')) :
    tl.run limit = (expiry :: (tl'.run limit).1, (tl'.run limit).2) := by
  rw [Timeline.run]
  split
  · rename_i hnone
    rw [h] at hnone
    cases hnone
  · rename_i hsome
    rw [h] at hsome
    cases hsome
    rfl

/-- A table at some time as a timeline. -/
def Moment.timeline (m : Moment) (retries : Nat) : Timeline :=
  ⟨m.now, m.table, retries, m.calls.map fun x => x.awaited.key⟩

namespace Clockwork

variable {m : Moment} {limit retries : Nat}

/-- A retry that is left is a call fewer than the hook may have under the key. -/
theorem retry_timeline (m : Moment) (retries : Nat) (call : Expiry) (left : Table) :
    ({ m.timeline retries with now := call.time, table := left } : Timeline).retry call.awaited =
      (retrying retries).reenter m.calls call left := by
  have hagain : (retrying retries).again m.calls call = true ↔
      ({ m.timeline retries with now := call.time, table := left } : Timeline).retriesLeft
        call.awaited.key ≠ 0 := by
    simp only [retrying, underRetries, Moment.timeline, Timeline.retriesLeft, decide_eq_true_eq]
    omega
  unfold Timeline.retry reenter
  split
  · rename_i hspent
    exact (if_neg (hagain.not.mpr (not_not.mpr hspent))).symm
  · rename_i hleft
    exact (if_pos (hagain.mpr hleft)).symm

/-- The next stop of a timeline. -/
theorem next?_timeline (m : Moment) (retries limit : Nat) :
    (m.timeline retries).next? limit =
      ((retrying retries).stop? limit m).map fun (call, m') => (call, m'.timeline retries) := by
  unfold Timeline.next? stop?
  rw [Option.map_bind]
  apply Option.bind_congr
  intro timer _
  rw [Timeline.expire?, Function.comp_apply, Option.map_map]
  apply Option.map_congr
  rintro ⟨entry, left⟩ _
  have hretry := retry_timeline m retries ⟨timer.ticket, entry.awaited, timer.deadline⟩ left
  simp only [Function.comp_apply, ← hretry]
  rfl

/-- The stops of a timeline on its way. -/
theorem run_timeline (m : Moment) (retries limit : Nat) :
    (m.timeline retries).run limit =
      (((retrying retries).run limit m).1,
        ((retrying retries).run limit m).2.timeline retries) := by
  fun_induction run (retrying retries) limit m with
  | case1 m hnone =>
    have hnext := next?_timeline m retries limit
    rw [hnone, Option.map_none] at hnext
    exact Timeline.run_of_none hnext
  | case2 m call m' hsome calls final hrun ih =>
    have hnext := next?_timeline m retries limit
    rw [hsome, Option.map_some] at hnext
    rw [hrun] at ih
    rw [Timeline.run_of_some hnext, ih]

/-- A timeline counts the stops that there can be as its clockwork does. -/
theorem potential_timeline (m : Moment) (retries : Nat) :
    (m.timeline retries).potential = (retrying retries).potential m := by
  have hshare : ∀ awaited : Awaited, 1 + (m.timeline retries).retriesLeft awaited.key =
      (retrying retries).share m.calls awaited := by
    intro awaited
    simp only [share, retrying, repeatsUnder_underRetries, Timeline.retriesLeft, Moment.timeline]
    omega
  simp only [Timeline.potential, hshare]
  rfl

theorem advance_timeline (m : Moment) (retries milliseconds : Nat) :
    (m.timeline retries).advance milliseconds =
      (((retrying retries).advance m milliseconds).1,
        ((retrying retries).advance m milliseconds).2.timeline retries) := by
  rw [Timeline.advance, run_timeline]
  rfl

/-- Every list of keys is that of some calls. -/
theorem exists_calls (keys : List Key) :
    ∃ calls : List Expiry, (calls.map fun x => x.awaited.key) = keys := by
  induction keys with
  | nil => exact ⟨[], rfl⟩
  | cons key keys ih =>
    obtain ⟨calls, rfl⟩ := ih
    obtain ⟨request, hstatus⟩ := Request.exists_of_status key.status
    have hkey : (Awaited.mk request key.node).key = key := by rw [Awaited.key, hstatus]
    exact ⟨⟨⟨key, 0⟩, ⟨request, key.node⟩, 0⟩ :: calls, by rw [List.map_cons, hkey]⟩

/-- Every timeline is that of a table at some time. -/
theorem exists_timeline (tl : Timeline) : ∃ m : Moment, m.timeline tl.retries = tl := by
  obtain ⟨calls, hkeys⟩ := exists_calls tl.expired
  exact ⟨⟨tl.now, tl.table, calls⟩, by rw [Moment.timeline, hkeys]⟩

/-- A move of the clock in two parts makes the calls of the first part and then those of the
second, each with the same request at the same time as in one move over the whole way, and
leaves the same table at the same time. Whatever stops are made one after another on the way,
there are no more of them than the potential says. A move makes such stops until no timer is due
any more. All this is so for a timeline as well, which moves by the clockwork of its retries. -/
theorem advance_in_parts :
    (∀ (c : Clockwork) (m : Moment) (a b : Nat),
      c.advance m (a + b) =
        ((c.advance m a).1 ++ (c.advance (c.advance m a).2 b).1,
          (c.advance (c.advance m a).2 b).2)) ∧
    (∀ (c : Clockwork) (m : Moment) (a : Nat),
      (∀ calls m', c.Stops (m.now + a) m calls m' → calls.length ≤ c.potential m) ∧
      ∃ final, c.Stops (m.now + a) m (c.advance m a).1 final ∧
        (∀ timer ∈ final.table.timers, m.now + a < timer.deadline) ∧
        (c.advance m a).2 = { final with now := m.now + a }) ∧
    ∀ (tl : Timeline) (a b : Nat),
      tl.advance (a + b) =
        ((tl.advance a).1 ++ ((tl.advance a).2.advance b).1, ((tl.advance a).2.advance b).2) ∧
      (tl.advance a).1.length ≤ tl.potential ∧
      ∀ timer ∈ (tl.advance a).2.table.timers, tl.now + a < timer.deadline := by
  refine ⟨advance_add, ?_, ?_⟩
  · intro c m a
    exact ⟨fun calls m' hstops => hstops.length_le_potential, (c.run (m.now + a) m).2,
      c.stops_run (m.now + a) m, c.late_run (m.now + a) m, rfl⟩
  · intro tl a b
    obtain ⟨m, htl⟩ := exists_timeline tl
    generalize tl.retries = retries at htl
    subst htl
    simp only [advance_timeline, advance_add, potential_timeline, true_and]
    exact ⟨((retrying retries).stops_run (m.now + a) m).length_le_potential,
      (retrying retries).late_run (m.now + a) m⟩

/-- Without a timeout, a request that the hook makes again once runs out of time twice at the
same moment. -/
theorem two_stops_of_noTimeout :
    let awaited : Awaited := ⟨.beaconGet, 2⟩
    let call (number : UInt64) : Expiry := ⟨⟨awaited.key, number⟩, awaited, 3⟩
    let m : Moment := ⟨3, ⟨0, 2, [(awaited.key, [⟨1, awaited, 3⟩])]⟩, []⟩
    (retrying 1).Stops (3 + 0) m [call 1, call 2] ⟨3, ⟨0, 3, []⟩, [call 2, call 1]⟩ ∧
      [call 1, call 2].length ≤ (retrying 1).potential m := by
  intro awaited call m
  have hstops : (retrying 1).Stops (m.now + 0) m [call 1, call 2]
      ⟨3, ⟨0, 3, []⟩, [call 2, call 1]⟩ := .cons rfl (.cons rfl (.none _))
  exact ⟨hstops, (advance_in_parts.2.1 (retrying 1) m 0).1 _ _ hstops⟩

end Clockwork

end MeshFoundation.Pending
