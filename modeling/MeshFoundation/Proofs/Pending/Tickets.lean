import MeshFoundation.Proofs.Pending.Clock
import MeshFoundation.Proofs.Pending.Wakeup

/-!
# What a ticket names

A ticket may be used at any time after it was given out, again and again, and after its key went
to any number of later requests. It stands for the request that was put into the table by the
very deed that it was given out for. Which request that is, is read off the tables before and
after the deed (`Watch.admitted`), so that it does not depend on numbers.

At any time the requests that were ever admitted are those that are pending and those that left,
each once (`Watch.Traced`). As long as the numbers have not run over, a ticket therefore takes
out its own request or nothing, and nothing for good once that request has left
(`Watch.ticket_names_own_request`).
-/

set_option autoImplicit false

namespace MeshFoundation.Pending

namespace Table

variable {t : Table} {e : Entry}

/-- Without the request of a ticket, that request is not pending and its timer does not run. -/
theorem Shaped.without_eq_filter (h : t.Shaped) (he : e ∈ t.entries) :
    (t.without e.ticket).entries = t.entries.filter (fun f => f ≠ e) ∧
      (t.without e.ticket).timers = t.timers.filter (fun timer => timer ≠ e.timer) := by
  have hiff : ∀ f ∈ t.entries, (f.ticket = e.ticket ↔ f = e) ∧ (f.timer = e.timer ↔ f = e) := by
    intro f hf
    have heq : f.ticket = e.ticket → f = e := h.eq_of_ticket hf he
    refine ⟨⟨heq, congrArg Entry.ticket⟩, fun htimer => ?_, congrArg Entry.timer⟩
    exact heq (congrArg Timer.ticket htimer)
  have hentries : (t.without e.ticket).entries = t.entries.filter (fun f => f ≠ e) := by
    rw [h.entries_without]
    apply List.filter_congr
    intro f hf
    simp [(hiff f hf).1]
  refine ⟨hentries, ?_⟩
  have hshaped : (t.without e.ticket).Shaped := h.keep _
  rw [hshaped.timers_eq, hentries, h.timers_eq, List.filter_map]
  congr 1
  apply List.filter_congr
  intro f hf
  simp [(hiff f hf).2]

end Table

namespace Watch

/-! ## What a run admits -/

/-- The requests that a deed puts into the table. -/
def admittedByDeed (w : Watch) (deed : Deed) : List Entry :=
  (w.act deed).2.table.missing w.table

def admittedByDeeds (w : Watch) : List Deed → List Entry
  | [] => []
  | deed :: rest => w.admittedByDeed deed ++ (w.act deed).2.admittedByDeeds rest

/-- The requests that a move puts into the table. The deeds of the hook are done only if the
wake-up calls the hook. -/
def admittedByMove (w : Watch) : Move → List Entry
  | .act deed => w.admittedByDeed deed
  | .wake now timer reentry =>
    match (w.wake now timer reentry).1 with
    | .reported e :: _ => (w.without e.ticket).admittedByDeeds reentry
    | _ => []

/-- The requests that a run puts into the table, in the order in which it does so. -/
def admitted (w : Watch) : List Move → List Entry
  | [] => []
  | move :: rest => w.admittedByMove move ++ (w.step move).2.admitted rest

/-- The requests that were admitted, in the order of their tickets, are those that are pending
and those that left. -/
structure Traced (w : Watch) (admitted left : List Entry) : Prop where
  balanced : w.table.Balanced w.tickets (left.map Entry.ticket)
  tickets : admitted.map Entry.ticket = w.tickets
  conserved : (w.table.entries ++ left).Perm admitted

variable {w : Watch} {admitted left : List Entry} {e : Entry} {i : Nat}

theorem Traced.start (timeout : Nat) : (start timeout).Traced [] [] where
  balanced := Table.Balanced.empty timeout
  tickets := rfl
  conserved := List.Perm.refl _

theorem Traced.act (h : w.Traced admitted left) (deed : Deed) :
    (w.act deed).2.Traced (admitted ++ w.admittedByDeed deed)
      (left ++ (w.act deed).1.filterMap Record.left?) := by
  have hbalanced : (w.act deed).2.table.Balanced (w.act deed).2.tickets
      ((left ++ (w.act deed).1.filterMap Record.left?).map Entry.ticket) := by
    rw [List.map_append]
    exact balanced_act h.balanced deed
  have hshaped := h.balanced.shaped
  rcases Action.perform_cases hshaped deed.now w.tickets deed.action with
    ⟨p, hkeep, hissued⟩ | ⟨awaited, ticket, hrecord, hissued⟩
  · have htable : (w.act deed).2.table = w.table.keep p := hkeep
    have hnone : w.admittedByDeed deed = [] := by
      apply List.filter_eq_nil_iff.mpr
      intro f hf
      rw [htable, hshaped.entries_keep] at hf
      simpa using List.mem_of_mem_filter hf
    refine ⟨hbalanced, ?_, ?_⟩
    · rw [hnone, List.append_nil, h.tickets, tickets_act, hissued, List.append_nil]
    · rw [hnone, List.append_nil, left_act, htable]
      have hsplit := (hshaped.keep_missing_perm p).append_right left
      rw [List.append_assoc] at hsplit
      exact ((List.perm_append_comm.append_left _).trans hsplit).trans h.conserved
  · obtain ⟨hshaped', hentries⟩ := hshaped.record hrecord
    obtain ⟨hfree, hticket, -⟩ := hshaped.record?_eq_some_iff.mp hrecord
    have hentries' : (w.act deed).2.table.entries =
        w.table.nextEntry deed.now awaited :: w.table.entries := hentries
    have hnew : w.table.nextEntry deed.now awaited ∉ w.table.entries :=
      fun hmem => hfree _ hmem rfl
    have hone : w.admittedByDeed deed = [w.table.nextEntry deed.now awaited] := by
      rw [admittedByDeed, Table.missing, hentries', List.filter_cons_of_pos (by simpa using hnew)]
      simp
    have hleft : w.table.missing (w.act deed).2.table = [] := hshaped.missing_record hrecord
    refine ⟨hbalanced, ?_, ?_⟩
    · rw [hone, List.map_append, h.tickets, tickets_act, hissued, hticket, List.map_singleton]
    · rw [hone, left_act, hleft, List.append_nil, hentries', List.cons_append]
      exact (h.conserved.cons _).trans (List.perm_append_singleton _ _).symm

theorem Traced.acts (h : w.Traced admitted left) (deeds : List Deed) :
    (w.acts deeds).2.Traced (admitted ++ w.admittedByDeeds deeds)
      (left ++ (w.acts deeds).1.filterMap Record.left?) := by
  induction deeds generalizing w admitted left with
  | nil => simpa [Watch.acts, admittedByDeeds] using h
  | cons deed rest ih =>
    simp only [Watch.acts, admittedByDeeds, List.filterMap_append, ← List.append_assoc]
    exact ih (h.act deed)

/-- The request of a ticket leaves, and all others stay. -/
theorem Traced.without (h : w.Traced admitted left) (he : e ∈ w.table.entries) :
    (w.without e.ticket).Traced admitted (left ++ [e]) := by
  have hmissing := h.balanced.shaped.missing_without he
  refine ⟨?_, h.tickets, ?_⟩
  · have hkeep := h.balanced.keep fun slot => slot.2.all fun f => f.ticket ≠ e.ticket
    rw [← Table.without, hmissing, ← List.map_append] at hkeep
    exact hkeep
  · have hperm := (h.balanced.shaped.cons_without_perm he).append_right left
    rw [List.cons_append] at hperm
    rw [← List.append_assoc]
    exact ((List.perm_append_singleton e _).trans hperm).trans h.conserved

theorem Traced.step (h : w.Traced admitted left) (move : Move) :
    (w.step move).2.Traced (admitted ++ w.admittedByMove move)
      (left ++ (w.step move).1.filterMap Record.left?) := by
  cases move with
  | act deed => exact h.act deed
  | wake now timer reentry =>
    simp only [Watch.step, admittedByMove]
    rcases wake_cases h.balanced.shaped now timer reentry with hwake | ⟨e, he, hwake⟩
    · simpa [hwake] using h
    · rw [hwake]
      simpa [Record.left?] using (h.without he).acts reentry

theorem Traced.run (h : w.Traced admitted left) (moves : List Move) :
    (w.run moves).2.Traced (admitted ++ w.admitted moves)
      (left ++ (w.run moves).1.filterMap Record.left?) := by
  induction moves generalizing w admitted left with
  | nil => simpa [Watch.run, Watch.admitted] using h
  | cons move rest ih =>
    simp only [Watch.run, Watch.admitted, List.filterMap_append, ← List.append_assoc]
    exact ih (h.step move)

/-! ## As long as the numbers have not run over -/

theorem Traced.nodup (h : w.Traced admitted left) (hfew : w.tickets.length < 2 ^ 64) :
    admitted.Nodup := by
  have htickets := h.balanced.issued_nodup hfew
  rw [← h.tickets] at htickets
  exact List.Nodup.of_map _ htickets

/-- Only one request that was admitted has a given ticket. -/
theorem Traced.eq_of_ticket (h : w.Traced admitted left) (hfew : w.tickets.length < 2 ^ 64)
    {f : Entry} (he : e ∈ admitted) (hf : f ∈ admitted) (hticket : f.ticket = e.ticket) :
    f = e := by
  have htickets := h.balanced.issued_nodup hfew
  rw [← h.tickets] at htickets
  exact List.inj_on_of_nodup_map htickets hf he hticket

/-- The ticket of a request that was admitted and is not pending is the ticket of no pending
request. -/
theorem Traced.ticket_not_mem (h : w.Traced admitted left) (hfew : w.tickets.length < 2 ^ 64)
    (he : e ∈ admitted) (hgone : e ∉ w.table.entries) : e.ticket ∉ w.table.tickets := by
  intro hmem
  obtain ⟨f, hf, hticket⟩ := List.mem_map.mp hmem
  have hadmitted : f ∈ admitted := h.conserved.subset (List.mem_append_left _ hf)
  exact hgone (h.eq_of_ticket hfew he hadmitted hticket ▸ hf)

/-- What has left is not pending. -/
theorem Traced.not_mem_of_left (h : w.Traced admitted left) (hfew : w.tickets.length < 2 ^ 64)
    (he : e ∈ left) : e ∉ w.table.entries := by
  have hnodup := h.conserved.nodup_iff.mpr (h.nodup hfew)
  intro hpending
  exact (List.nodup_append.mp hnodup).2.2 e hpending e he rfl

/-- A request that has left does not come back. -/
theorem Traced.gone_run (h : w.Traced admitted left) (he : e ∈ admitted)
    (hgone : e ∉ w.table.entries) (moves : List Move)
    (hfew : (w.run moves).2.tickets.length < 2 ^ 64) : e ∉ (w.run moves).2.table.entries := by
  have hrun := h.run moves
  have hleft : e ∈ left := by
    rcases List.mem_append.mp (h.conserved.symm.subset he) with hpending | hleft
    · exact absurd hpending hgone
    · exact hleft
  exact hrun.not_mem_of_left hfew (List.mem_append_left _ hleft)

/-! ## What a ticket takes out -/

/-- The ticket at a place in the list of all tickets stands for a request: it takes this request
out if it is pending, whatever the time, and changes nothing if it is not. -/
structure Names (w : Watch) (i : Nat) (e : Entry) : Prop where
  /-- The answer gives the request exactly if it is pending. -/
  found : ∀ now awaited, ((Action.withdraw i).perform now w.tickets w.table).1 =
    .request (some awaited) ↔ e ∈ w.table.entries ∧ awaited = e.awaited
  /-- A pending request is taken out together with its timer. All other requests stay as they
  are, with their timers, and so does the number of the next one. -/
  taken : e ∈ w.table.entries → ∀ now,
    let left := ((Action.withdraw i).perform now w.tickets w.table).2
    left.entries = w.table.entries.filter (fun f => f ≠ e) ∧
      left.timers = w.table.timers.filter (fun timer => timer ≠ e.timer) ∧
      left.next = w.table.next ∧ left.timeout = w.table.timeout
  /-- The ticket of a request that is not pending changes nothing, and neither does its timer. -/
  gone : e ∉ w.table.entries → ∀ now,
    (Action.withdraw i).perform now w.tickets w.table = (.request none, w.table) ∧
      ∀ reentry, w.wake now i reentry = ([], w)

theorem perform_withdraw_of_pending (h : w.table.Shaped) (hticket : w.tickets[i]? = some e.ticket)
    (he : e ∈ w.table.entries) (now : Nat) :
    (Action.withdraw i).perform now w.tickets w.table =
      (.request (some e.awaited), w.table.without e.ticket) := by
  have htake : w.table.take? e.ticket = some (e, w.table.without e.ticket) :=
    h.take?_eq_some_iff.mpr ⟨he, rfl, rfl⟩
  simp only [Action.perform, hticket, Option.bind_some, htake]

theorem perform_withdraw_of_gone (h : w.table.Shaped) (hticket : w.tickets[i]? = some e.ticket)
    (hgone : e.ticket ∉ w.table.tickets) (now : Nat) :
    (Action.withdraw i).perform now w.tickets w.table = (.request none, w.table) := by
  simp only [Action.perform, hticket, Option.bind_some, h.take?_eq_none_iff.mpr hgone]

theorem Traced.names (h : w.Traced admitted left) (hfew : w.tickets.length < 2 ^ 64)
    (he : admitted[i]? = some e) : w.Names i e := by
  have hshaped := h.balanced.shaped
  have hmem : e ∈ admitted := List.mem_of_getElem? he
  have hticket : w.tickets[i]? = some e.ticket := by
    rw [← h.tickets, List.getElem?_map, he, Option.map_some]
  have hpending := perform_withdraw_of_pending (e := e) hshaped hticket
  have hgone := fun hgone =>
    perform_withdraw_of_gone hshaped hticket (h.ticket_not_mem hfew hmem hgone)
  refine ⟨?_, ?_, ?_⟩
  · intro now awaited
    by_cases hcase : e ∈ w.table.entries
    · simp [hpending hcase, hcase, eq_comm]
    · simp [hgone hcase, hcase]
  · intro hcase now
    obtain ⟨hentries, htimers⟩ := hshaped.without_eq_filter hcase
    rw [hpending hcase]
    exact ⟨hentries, htimers, rfl, rfl⟩
  · intro hcase now
    refine ⟨hgone hcase now, fun reentry => ?_⟩
    obtain ⟨timer, htimer, hown⟩ : ∃ timer, w.timers[i]? = some timer ∧
        timer.ticket = e.ticket := by
      rwa [Watch.tickets, List.getElem?_map, Option.map_eq_some_iff] at hticket
    exact wake_of_gone hshaped htimer (hown ▸ h.ticket_not_mem hfew hmem hcase) reentry

/-- No two tickets are the same that a run gave out, nor are their numbers. Each of them stands
for the request that was admitted with it, in the order of the admissions: it takes out this very
request as long as it is pending, and nothing else ever, whatever is pending under its key. Every
request that was admitted is pending or left, and once it has left, be it by its answer, by its
ticket, by clearing or because its time ran out, its ticket takes out nothing in any later
state. -/
theorem ticket_names_own_request (timeout : Nat) (moves : List Move)
    (hfew : ((start timeout).run moves).2.timers.length < 2 ^ 64) :
    let w := ((start timeout).run moves).2
    let gone := ((start timeout).run moves).1.filterMap Record.left?
    let admitted := (start timeout).admitted moves
    (w.tickets.map Ticket.number).Nodup ∧ admitted.map Entry.ticket = w.tickets ∧
      (w.table.entries ++ gone).Perm admitted ∧
      ∀ i e, admitted[i]? = some e →
        w.Names i e ∧
        (e ∈ gone → ∀ later, (w.run later).2.timers.length < 2 ^ 64 → ∀ now,
          (Action.withdraw i).perform now (w.run later).2.tickets (w.run later).2.table =
            (.request none, (w.run later).2.table)) := by
  intro w gone admitted
  have htraced : w.Traced admitted gone := (Traced.start timeout).run moves
  have hissued : w.tickets.length < 2 ^ 64 := by simpa [w, tickets] using hfew
  refine ⟨htraced.balanced.numbers_nodup hissued, htraced.tickets, htraced.conserved, ?_⟩
  intro i e he
  refine ⟨htraced.names hissued he, ?_⟩
  intro hgone later hlater now
  have hmem : e ∈ admitted := List.mem_of_getElem? he
  have hleft := htraced.not_mem_of_left hissued hgone
  have hfewer : (w.run later).2.tickets.length < 2 ^ 64 := by simpa [tickets] using hlater
  have hstill := htraced.gone_run hmem hleft later hfewer
  have hprefix : (admitted ++ w.admitted later)[i]? = some e := by
    rw [List.getElem?_append_left (List.getElem?_eq_some_iff.mp he).1, he]
  exact (((htraced.run later).names hfewer hprefix).gone hstill now).1

/-- A run with two requests under one key, the second of which is made after the time of the
first has run out, and with a request to another node that is answered. -/
def reusedKey : List Move :=
  [.act ⟨0, .add ⟨0x8026⟩ 2⟩, .wake 2000 0 [⟨2000, .add ⟨0x8009⟩ 3⟩], .act ⟨2001, .add ⟨0x8027⟩ 2⟩,
    .act ⟨2002, .remove ⟨0x800B⟩ 3⟩]

/-- The table is cleared, and the request that was answered is made again. -/
def clearedKey : List Move := [.act ⟨2004, .clear⟩, .act ⟨2005, .add ⟨0x8009⟩ 3⟩]

theorem ticket_names_own_request_of_reusedKey :
    let w := ((start 2000).run reusedKey).2
    let w' := (w.run clearedKey).2
    w.timers.length < 2 ^ 64 ∧ w'.timers.length < 2 ^ 64 ∧
      (Action.withdraw 0).perform 2003 w.tickets w.table = (.request none, w.table) ∧
      ((Action.withdraw 2).perform 2003 w.tickets w.table).1 = .request (some ⟨.relaySet, 2⟩) ∧
      (Action.withdraw 1).perform 2010 w'.tickets w'.table = (.request none, w'.table) := by
  intro w w'
  have hfew : w.timers.length < 2 ^ 64 := by decide
  have hfewer : w'.timers.length < 2 ^ 64 := by decide
  obtain ⟨-, -, -, hnames⟩ := ticket_names_own_request 2000 reusedKey hfew
  have hexpired := (hnames 0 ⟨1, ⟨.relayGet, 2⟩, 2000⟩ (by decide)).1
  have hanswered := (hnames 1 ⟨2, ⟨.beaconGet, 3⟩, 4000⟩ (by decide)).2
  have hpending := (hnames 2 ⟨3, ⟨.relaySet, 2⟩, 4001⟩ (by decide)).1
  exact ⟨hfew, hfewer, (hexpired.gone (by decide) 2003).1,
    (hpending.found 2003 _).mpr (by decide), hanswered (by decide) clearedKey hfewer 2010⟩

end Watch

end MeshFoundation.Pending
