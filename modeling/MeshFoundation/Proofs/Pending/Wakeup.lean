import MeshFoundation.Pending.Action
import MeshFoundation.Proofs.Pending.Balance

/-!
# Timers that wake late

Every request that is recorded arms a timer, which runs as a task of its own and outlives
the request: it may wake at its deadline or at any time after it, in any order with other
timers, after its request has left the table, and when a later request stands under the
same key. All that it knows is its ticket. If it finds its request, it takes it out of the
table and calls the table's hook, and the hook may do with the table whatever its owner
may, for the table is not held while it runs.

`Watch` is a table together with all timers that were ever armed, and `Watch.run` goes
through any sequence of deeds and wake-ups. The record that it keeps is read off the
tables before and after each deed, so it does not depend on what a deed says that it did.

Main statements:

* `table_sound_after_run`: what the table looks like in every state that a run reaches.
* `hook_called_once_while_pending`: the hook is called by those wake-ups alone that find
  their request, once for each number, and a wake-up that finds nothing changes nothing.
-/

set_option autoImplicit false

namespace MeshFoundation.Pending

/-- Something that is done with a table, and when. -/
structure Deed where
  /-- In milliseconds. -/
  now : Nat
  action : Action
  deriving DecidableEq, Repr

/-- Something that happens to a table. -/
inductive Move where
  | act (deed : Deed)
  /-- The task of a timer wakes. If it comes to call the hook, the hook does the given
  deeds. -/
  | wake (now : Nat) (timer : Nat) (reentry : List Deed)
  deriving DecidableEq, Repr

/-- What is seen of a run. -/
inductive Record where
  /-- The table gave a ticket out. -/
  | issued (ticket : Ticket)
  /-- A deed took a request out of the table. -/
  | removed (entry : Entry)
  /-- A timer took its request out of the table, and called the hook with it. -/
  | reported (entry : Entry)
  deriving DecidableEq, Repr

namespace Record

/-- The request that a deed took out. -/
def removed? : Record → Option Entry
  | .removed entry => some entry
  | _ => none

/-- The request that the hook was called with. -/
def reported? : Record → Option Entry
  | .reported entry => some entry
  | _ => none

/-- The request that left the table. -/
def left? : Record → Option Entry
  | .removed entry | .reported entry => some entry
  | .issued _ => none

/-- What left the table was taken out by a deed or reported to the hook. -/
theorem left_perm (records : List Record) :
    (records.filterMap left?).Perm
      (records.filterMap removed? ++ records.filterMap reported?) := by
  induction records with
  | nil => exact List.Perm.refl _
  | cons record rest ih =>
    cases record with
    | issued ticket => exact ih
    | removed entry => exact ih.cons entry
    | reported entry => exact (ih.cons entry).trans List.perm_middle.symm

theorem left_of_reported {records : List Record} {e : Entry}
    (he : e ∈ records.filterMap reported?) : e ∈ records.filterMap left? :=
  (left_perm records).symm.subset (List.mem_append_right _ he)

end Record

/-- A table with all timers that were ever armed for it. -/
structure Watch where
  table : Table
  /-- One timer for each ticket, in the order in which the tickets were given out. -/
  timers : List Timer
  deriving DecidableEq, Repr

namespace Watch

/-- A table without requests. -/
def start (timeout : Nat) : Watch := ⟨Table.empty timeout, []⟩

/-- The tickets that were given out. -/
def tickets (w : Watch) : List Ticket := w.timers.map Timer.ticket

/-- The table without the request of a ticket, whose timer runs on. -/
def without (w : Watch) (ticket : Ticket) : Watch := { w with table := w.table.without ticket }

/-- Does something with the table, and arms a timer if a request was recorded. -/
def act (w : Watch) (deed : Deed) : List Record × Watch :=
  let (answer, table) := deed.action.perform deed.now w.tickets w.table
  (answer.tickets.map .issued ++ (w.table.missing table).map .removed,
    ⟨table, w.timers ++ answer.tickets.map fun t => ⟨t, deed.now + w.table.timeout⟩⟩)

/-- Does the deeds of a list, one after another. -/
def acts (w : Watch) : List Deed → List Record × Watch
  | [] => ([], w)
  | deed :: rest =>
    let (records, w') := w.act deed
    let (more, final) := acts w' rest
    (records ++ more, final)

/-- Wakes the task of a timer. Before its deadline a timer sleeps on. -/
def wake (w : Watch) (now timer : Nat) (reentry : List Deed) : List Record × Watch :=
  match w.timers[timer]? with
  | none => ([], w)
  | some timer =>
    if now < timer.deadline then ([], w)
    else
      match w.table.take? timer.ticket with
      | none => ([], w)
      | some (entry, table) =>
        let (records, w') := { w with table }.acts reentry
        (.reported entry :: records, w')

/-- Lets something happen. -/
def step (w : Watch) : Move → List Record × Watch
  | .act deed => w.act deed
  | .wake now timer reentry => w.wake now timer reentry

/-- Lets the moves of a list happen, one after another. -/
def run (w : Watch) : List Move → List Record × Watch
  | [] => ([], w)
  | move :: rest =>
    let (records, w') := w.step move
    let (more, final) := run w' rest
    (records ++ more, final)

end Watch

/-! ## What an action does to the table -/

/-- An action keeps slots and gives no ticket out, or records one request and gives its
ticket out. -/
theorem Action.perform_cases {t : Table} (h : t.Shaped) (now : Nat) (tickets : List Ticket)
    (action : Action) :
    (∃ p, (action.perform now tickets t).2 = t.keep p ∧
        (action.perform now tickets t).1.tickets = []) ∨
      ∃ awaited ticket, t.record? now awaited = some (ticket, (action.perform now tickets t).2) ∧
        (action.perform now tickets t).1.tickets = [ticket] := by
  cases action with
  | add op node =>
    simp only [perform, Table.add]
    cases hop : Awaited.ofOpcode? op node with
    | none => exact .inl ⟨fun _ => true, t.keep_true.symm, rfl⟩
    | some awaited =>
      cases hrecord : t.record? now awaited with
      | none => exact .inl ⟨fun _ => true, by simp [hrecord, t.keep_true], by simp [hrecord]; rfl⟩
      | some result =>
        obtain ⟨ticket, t'⟩ := result
        exact .inr ⟨awaited, ticket, by simp [hrecord], by simp [hrecord]; rfl⟩
  | remove op node =>
    simp only [perform, Table.remove]
    cases Key.ofOpcode? op node with
    | none => exact .inl ⟨fun _ => true, t.keep_true.symm, rfl⟩
    | some key => exact .inl ⟨_, rfl, rfl⟩
  | withdraw index =>
    simp only [perform]
    cases htake : (tickets[index]?).bind t.take? with
    | none => exact .inl ⟨fun _ => true, t.keep_true.symm, rfl⟩
    | some result =>
      obtain ⟨entry, t'⟩ := result
      obtain ⟨ticket, -, hticket⟩ := Option.bind_eq_some_iff.mp htake
      obtain ⟨-, -, rfl⟩ := h.take?_eq_some_iff.mp hticket
      exact .inl ⟨_, rfl, rfl⟩
  | clear => exact .inl ⟨_, t.clear_eq_keep, rfl⟩
  | isBusy op node => exact .inl ⟨fun _ => true, t.keep_true.symm, rfl⟩
  | find op node => exact .inl ⟨fun _ => true, t.keep_true.symm, rfl⟩
  | timeout => exact .inl ⟨fun _ => true, t.keep_true.symm, rfl⟩
  | text => exact .inl ⟨fun _ => true, t.keep_true.symm, rfl⟩

namespace Watch

variable {w : Watch} {left : List Ticket}

/-- The tickets of the requests that left the table by the given records. -/
def leftTickets (records : List Record) : List Ticket :=
  (records.filterMap Record.left?).map Entry.ticket

theorem leftTickets_append (xs ys : List Record) :
    leftTickets (xs ++ ys) = leftTickets xs ++ leftTickets ys := by
  simp [leftTickets]

/-! ## The balance of a run -/

theorem tickets_act (w : Watch) (deed : Deed) :
    (w.act deed).2.tickets =
      w.tickets ++ (deed.action.perform deed.now w.tickets w.table).1.tickets := by
  simp [act, tickets, Function.comp_def]

/-- What left by a deed is what is missing after it. -/
theorem left_act (w : Watch) (deed : Deed) :
    (w.act deed).1.filterMap Record.left? = w.table.missing (w.act deed).2.table := by
  simp [act, List.filterMap_append, Function.comp_def, Record.left?]

theorem balanced_act (h : w.table.Balanced w.tickets left) (deed : Deed) :
    (w.act deed).2.table.Balanced (w.act deed).2.tickets
      (left ++ leftTickets (w.act deed).1) := by
  rw [tickets_act, leftTickets, left_act]
  simp only [act]
  rcases Action.perform_cases h.shaped deed.now w.tickets deed.action with
    ⟨p, htable, hissued⟩ | ⟨awaited, ticket, hrecord, hissued⟩
  · rw [hissued, htable, List.append_nil]
    exact h.keep p
  · rw [hissued, h.shaped.missing_record hrecord, List.map_nil, List.append_nil]
    exact h.record hrecord

theorem balanced_acts (h : w.table.Balanced w.tickets left) (deeds : List Deed) :
    (w.acts deeds).2.table.Balanced (w.acts deeds).2.tickets
      (left ++ leftTickets (w.acts deeds).1) := by
  induction deeds generalizing w left with
  | nil => simpa [acts, leftTickets] using h
  | cons deed rest ih =>
    simp only [acts, leftTickets_append, ← List.append_assoc]
    exact ih (balanced_act h deed)

/-- A timer that is due and finds its request calls the hook with what is left of the
table. -/
theorem wake_of_pending (h : w.table.Shaped) {now index : Nat} {timer : Timer}
    (htimer : w.timers[index]? = some timer) (hdue : timer.deadline ≤ now) {e : Entry}
    (he : e ∈ w.table.entries) (hticket : e.ticket = timer.ticket) (reentry : List Deed) :
    w.wake now index reentry =
      (.reported e :: ((w.without e.ticket).acts reentry).1,
        ((w.without e.ticket).acts reentry).2) := by
  have hawake : ¬ now < timer.deadline := by omega
  have htake : w.table.take? timer.ticket = some (e, w.table.without e.ticket) :=
    h.take?_eq_some_iff.mpr ⟨he, hticket, by rw [hticket]⟩
  simp only [wake, htimer, if_neg hawake, htake, without]

/-- A timer that does not find its request changes nothing. -/
theorem wake_of_gone (h : w.table.Shaped) {now index : Nat} {timer : Timer}
    (htimer : w.timers[index]? = some timer) (hgone : timer.ticket ∉ w.table.tickets)
    (reentry : List Deed) : w.wake now index reentry = ([], w) := by
  simp only [wake, htimer, h.take?_eq_none_iff.mpr hgone, ite_self]

/-- A timer that wakes finds its request, and calls the hook, or it changes nothing. -/
theorem wake_cases (h : w.table.Shaped) (now index : Nat) (reentry : List Deed) :
    w.wake now index reentry = ([], w) ∨
      ∃ e ∈ w.table.entries, w.wake now index reentry =
        (.reported e :: ((w.without e.ticket).acts reentry).1,
          ((w.without e.ticket).acts reentry).2) := by
  cases htimer : w.timers[index]? with
  | none => exact .inl (by simp only [wake, htimer])
  | some timer =>
    by_cases hpending : timer.ticket ∈ w.table.tickets
    · by_cases hdue : timer.deadline ≤ now
      · obtain ⟨e, he, hticket⟩ := List.mem_map.mp hpending
        exact .inr ⟨e, he, wake_of_pending h htimer hdue he hticket reentry⟩
      · have hasleep : now < timer.deadline := by omega
        exact .inl (by simp only [wake, htimer, if_pos hasleep])
    · exact .inl (wake_of_gone h htimer hpending reentry)

theorem balanced_step (h : w.table.Balanced w.tickets left) (move : Move) :
    (w.step move).2.table.Balanced (w.step move).2.tickets
      (left ++ leftTickets (w.step move).1) := by
  cases move with
  | act deed => exact balanced_act h deed
  | wake now timer reentry =>
    simp only [step]
    rcases wake_cases h.shaped now timer reentry with hwake | ⟨e, he, hwake⟩
    · simpa [hwake, leftTickets] using h
    · have hkeep := h.keep fun slot => slot.2.all fun f => f.ticket ≠ e.ticket
      rw [← Table.without, h.shaped.missing_without he] at hkeep
      have hrest := balanced_acts (w := w.without e.ticket) hkeep reentry
      rw [hwake]
      simpa [leftTickets, Record.left?] using hrest

/-- Every run keeps the balance, whatever happens in it. -/
theorem balanced_run (h : w.table.Balanced w.tickets left) (moves : List Move) :
    (w.run moves).2.table.Balanced (w.run moves).2.tickets
      (left ++ leftTickets (w.run moves).1) := by
  induction moves generalizing w left with
  | nil => simpa [run, leftTickets] using h
  | cons move rest ih =>
    simp only [run, leftTickets_append, ← List.append_assoc]
    exact ih (balanced_step h move)

theorem balanced_start_run (timeout : Nat) (moves : List Move) :
    ((start timeout).run moves).2.table.Balanced ((start timeout).run moves).2.tickets
      (leftTickets ((start timeout).run moves).1) :=
  balanced_run (w := start timeout) (Table.Balanced.empty timeout) moves

/-- Whatever left the table, be it by a deed or by a timer, left with a number of its own. -/
theorem left_numbers_nodup {records : List Record}
    (h : w.table.Balanced w.tickets (leftTickets records)) (hfew : w.tickets.length < 2 ^ 64) :
    ((records.filterMap Record.left?).map Entry.number).Nodup := by
  have hall := (h.conserved.map Ticket.number).nodup_iff.mpr (h.numbers_nodup hfew)
  rw [List.map_append, leftTickets, List.map_map] at hall
  exact (List.nodup_append.mp hall).2.1

end Watch

/-! ## What holds in every state -/

/-- What a table looks like as long as no number was given out twice. -/
structure Table.Sound (t : Table) : Prop extends t.Shaped where
  distinct : (t.entries.map Entry.number).Nodup
  fresh : ∀ e ∈ t.entries, e.number < t.next

namespace Watch

/-- In every state that a run reaches, each slot holds one request, which belongs under the
key of the slot, the numbers of the requests are all different and lie below the next one,
there are as many requests as slots, and the table says that it is empty exactly if it
counts no request. Only the numbers must not have run over. -/
theorem table_sound_after_run (timeout : Nat) (moves : List Move)
    (hfew : ((start timeout).run moves).2.timers.length < 2 ^ 64 - 1) :
    let t := ((start timeout).run moves).2.table
    t.Sound ∧ t.length = t.slots.length ∧ (t.isEmpty = true ↔ t.length = 0) := by
  have h := balanced_start_run timeout moves
  have hissued : ((start timeout).run moves).2.tickets.length < 2 ^ 64 - 1 := by
    simpa [tickets] using hfew
  refine ⟨⟨h.shaped, h.distinct (by omega), ?_⟩, h.shaped.length_eq, h.shaped.isEmpty_iff⟩
  intro e he
  exact h.number_lt_next hissued (h.mem_issued_of_pending he)

/-- A run with two requests under one key one after the other, the second of which is made
by the hook when the time of the first has run out, and with a request to another node. -/
def repeatedRequest : List Move :=
  [.act ⟨0, .add ⟨0x800C⟩ 2⟩, .act ⟨5, .add ⟨0x0000⟩ 3⟩,
    .wake 2000 0 [⟨2000, .add ⟨0x800D⟩ 2⟩, ⟨2000, .withdraw 0⟩]]

theorem table_sound_after_repeatedRequest :
    ((start 2000).run repeatedRequest).2.timers.length < 2 ^ 64 - 1 ∧
      ((start 2000).run repeatedRequest).2.table.Sound ∧
      ((start 2000).run repeatedRequest).2.table.length = 2 := by
  have hfew : ((start 2000).run repeatedRequest).2.timers.length < 2 ^ 64 - 1 := by decide
  exact ⟨hfew, (table_sound_after_run 2000 repeatedRequest hfew).1, by decide⟩

/-- The hook is called once at most for each number, which was given out before, and never
for a request that a deed took out. A wake-up after the deadline calls the hook if the
request of its number is pending, with that request and after the table has let go of it;
if it is not, the wake-up changes nothing, whatever is pending under the same key. -/
theorem hook_called_once_while_pending (timeout : Nat) (moves : List Move)
    (hfew : ((start timeout).run moves).2.timers.length < 2 ^ 64) :
    let records := ((start timeout).run moves).1
    let w := ((start timeout).run moves).2
    ((records.filterMap Record.reported?).map Entry.number).Nodup ∧
      (∀ e ∈ records.filterMap Record.reported?, e.ticket ∈ w.tickets) ∧
      (∀ e ∈ records.filterMap Record.removed?, ∀ f ∈ records.filterMap Record.reported?,
        e.number ≠ f.number) ∧
      ∀ (now index : Nat) (timer : Timer) (reentry : List Deed),
        w.timers[index]? = some timer → timer.deadline ≤ now →
        (∀ e ∈ w.table.entries, e.number = timer.ticket.number →
          w.wake now index reentry =
            (.reported e :: ((w.without e.ticket).acts reentry).1,
              ((w.without e.ticket).acts reentry).2)) ∧
        ((∀ e ∈ w.table.entries, e.number ≠ timer.ticket.number) →
          w.wake now index reentry = ([], w)) := by
  intro records w
  have h := balanced_start_run timeout moves
  have hissued : w.tickets.length < 2 ^ 64 := by simpa [w, tickets] using hfew
  have hleft := left_numbers_nodup h hissued
  rw [((Record.left_perm records).map Entry.number).nodup_iff, List.map_append,
    List.nodup_append] at hleft
  obtain ⟨-, hreported, hdisjoint⟩ := hleft
  refine ⟨hreported, ?_, ?_, ?_⟩
  · intro e he
    exact h.mem_issued_of_left (List.mem_map_of_mem (Record.left_of_reported he))
  · intro e he f hf
    exact hdisjoint _ (List.mem_map_of_mem he) _ (List.mem_map_of_mem hf)
  · intro now index timer reentry htimer hdue
    have hmem : timer.ticket ∈ w.tickets :=
      List.mem_map_of_mem (List.mem_of_getElem? htimer)
    constructor
    · intro e he hnumber
      have hticket : e.ticket = timer.ticket :=
        h.eq_of_number hissued (h.mem_issued_of_pending he) hmem hnumber
      exact wake_of_pending h.shaped htimer hdue he hticket reentry
    · intro hgone
      refine wake_of_gone h.shaped htimer ?_ reentry
      intro hpending
      obtain ⟨e, he, heq⟩ := List.mem_map.mp hpending
      exact hgone e he (congrArg Ticket.number heq)

/-- A run after which the timer of an answered request is due, while a later request is
pending under the same key. -/
def answeredRequest : List Move :=
  [.act ⟨0, .add ⟨0x800C⟩ 2⟩, .act ⟨10, .remove ⟨0x800E⟩ 2⟩, .act ⟨20, .add ⟨0x800D⟩ 2⟩]

theorem hook_not_called_after_answeredRequest :
    let w := ((start 2000).run answeredRequest).2
    w.timers.length < 2 ^ 64 ∧ w.table.length = 1 ∧ w.wake 2000 0 [] = ([], w) := by
  intro w
  have hfew : w.timers.length < 2 ^ 64 := by decide
  obtain ⟨-, -, -, hwake⟩ := hook_called_once_while_pending 2000 answeredRequest hfew
  have htimer : w.timers[0]? = some ⟨⟨⟨.defaultTtl, 2⟩, 1⟩, 2000⟩ := by decide
  exact ⟨hfew, by decide, (hwake 2000 0 _ [] htimer (by decide)).2 (by decide)⟩

end Watch

end MeshFoundation.Pending
