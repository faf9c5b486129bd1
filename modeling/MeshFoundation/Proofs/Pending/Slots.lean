import Mathlib.Data.List.Nodup
import MeshFoundation.Pending.Timers

/-!
# The slots of a table

A table is shaped as it should be if each slot holds one request, which belongs under the
key of the slot, and no key has two slots. The slots of such a table are nothing but its
requests again (`Shaped.slots_eq`), and each operation comes down to one of two things:
recording puts a new request in front, and whatever takes requests out keeps the slots
that pass a test (`Table.keep`).

What a request is kept by, taken out by or found by is then read off the list of requests
alone: `Shaped.entries_keep`, `Shaped.take?_eq`, `Shaped.takeSlot_of_mem`, `Shaped.slot?_eq`.
-/

set_option autoImplicit false

namespace MeshFoundation.Pending

/-- The ticket that names a recorded request. -/
def Entry.ticket (e : Entry) : Ticket := ⟨e.awaited.key, e.number⟩

/-- The slot of a recorded request that is alone under its key. -/
def Entry.slot (e : Entry) : Key × List Entry := (e.awaited.key, [e])

namespace Table

/-- The tickets of all pending requests. -/
def tickets (t : Table) : List Ticket := t.entries.map Entry.ticket

/-- The table with those slots alone that pass a test. -/
def keep (t : Table) (p : Key × List Entry → Bool) : Table :=
  { t with slots := t.slots.filter p }

/-- The table without the slot that holds the request of a ticket, if there is one. -/
def without (t : Table) (ticket : Ticket) : Table :=
  t.keep fun slot => slot.2.all fun e => e.ticket ≠ ticket

/-- The requests of a table that another table does not hold. -/
def missing (t t' : Table) : List Entry := t.entries.filter fun e => e ∉ t'.entries

/-- The requests that are pending under a key. -/
def under (t : Table) (key : Key) : List Entry := t.entries.filter fun e => e.awaited.key = key

/-- The request that recording at the given time puts into the table. -/
def nextEntry (t : Table) (now : Nat) (awaited : Awaited) : Entry :=
  ⟨t.next, awaited, now + t.timeout⟩

/-- Every slot holds one request, which belongs under the key of the slot, and no key has
two slots. -/
structure Shaped (t : Table) : Prop where
  single : ∀ slot ∈ t.slots, ∃ e : Entry, slot.2 = [e] ∧ e.awaited.key = slot.1
  keys : (t.slots.map Prod.fst).Nodup

variable {t t' : Table}

/-! ## Slots and requests -/

theorem flatMap_slot (es : List Entry) :
    ((es.map Entry.slot).flatMap fun slot => slot.2) = es := by
  induction es with
  | nil => rfl
  | cons e es ih => simpa [Entry.slot] using ih

/-- The slots of a table that is shaped as it should be are its requests again. -/
theorem Shaped.slots_eq (h : t.Shaped) : t.slots = t.entries.map Entry.slot := by
  have hslots : ∀ slots : List (Key × List Entry),
      (∀ slot ∈ slots, ∃ e : Entry, slot.2 = [e] ∧ e.awaited.key = slot.1) →
      slots = (slots.flatMap fun slot => slot.2).map Entry.slot := by
    intro slots
    induction slots with
    | nil => intro _; rfl
    | cons slot rest ih =>
      intro hsingle
      obtain ⟨e, he, hkey⟩ := hsingle slot List.mem_cons_self
      have hslot : slot = e.slot := Prod.ext hkey.symm he
      have hrest := ih fun s hs => hsingle s (List.mem_cons_of_mem _ hs)
      rw [List.flatMap_cons, he, List.singleton_append, List.map_cons, ← hrest, hslot]
  exact hslots t.slots h.single

/-- No two requests of such a table have the same key. -/
theorem Shaped.entry_keys (h : t.Shaped) : (t.entries.map fun e => e.awaited.key).Nodup := by
  have hkeys := h.keys
  rw [h.slots_eq, List.map_map] at hkeys
  exact hkeys

/-- A list of requests no two of which have the same key makes a table of the right shape. -/
theorem Shaped.of_entries {es : List Entry} (hslots : t.slots = es.map Entry.slot)
    (hkeys : (es.map fun e => e.awaited.key).Nodup) : t.Shaped where
  single := by
    intro slot hslot
    rw [hslots] at hslot
    obtain ⟨e, -, rfl⟩ := List.mem_map.mp hslot
    exact ⟨e, rfl, rfl⟩
  keys := by
    rw [hslots, List.map_map]
    exact hkeys

theorem entries_of_slots {es : List Entry} (hslots : t.slots = es.map Entry.slot) :
    t.entries = es := by
  rw [entries, hslots, flatMap_slot]

theorem Shaped.length_eq (h : t.Shaped) : t.length = t.slots.length := by
  rw [h.slots_eq, List.length_map, length]

theorem Shaped.isEmpty_iff (h : t.Shaped) : t.isEmpty = true ↔ t.length = 0 := by
  rw [h.length_eq, isEmpty, List.isEmpty_iff, List.length_eq_zero_iff]

/-- The requests of two tickets that are pending under one key are the same. -/
theorem Shaped.eq_of_key (h : t.Shaped) {e f : Entry} (he : e ∈ t.entries) (hf : f ∈ t.entries)
    (hkey : e.awaited.key = f.awaited.key) : e = f :=
  List.inj_on_of_nodup_map h.entry_keys he hf hkey

theorem Shaped.eq_of_ticket (h : t.Shaped) {e f : Entry} (he : e ∈ t.entries)
    (hf : f ∈ t.entries) (hticket : e.ticket = f.ticket) : e = f :=
  h.eq_of_key he hf (congrArg Ticket.key hticket)

theorem Shaped.empty (timeout : Nat) : (Table.empty timeout).Shaped where
  single := by
    intro slot hslot
    cases hslot
  keys := List.nodup_nil

/-! ## Keeping slots -/

theorem keep_true (t : Table) : (t.keep fun _ => true) = t := by
  simp [keep]

theorem Shaped.keep_slots (h : t.Shaped) (p : Key × List Entry → Bool) :
    (t.keep p).slots = (t.entries.filter fun e => p e.slot).map Entry.slot := by
  simp only [keep]
  rw [h.slots_eq, List.filter_map]
  rfl

/-- What is kept of the slots is kept of the requests. -/
theorem Shaped.entries_keep (h : t.Shaped) (p : Key × List Entry → Bool) :
    (t.keep p).entries = t.entries.filter fun e => p e.slot :=
  entries_of_slots (h.keep_slots p)

/-- Two tests that agree on the slots of all pending requests keep the same slots. -/
theorem Shaped.keep_congr (h : t.Shaped) {p q : Key × List Entry → Bool}
    (hpq : ∀ e ∈ t.entries, p e.slot = q e.slot) : t.keep p = t.keep q := by
  have hslots : (t.keep p).slots = (t.keep q).slots := by
    rw [h.keep_slots, h.keep_slots, List.filter_congr hpq]
  exact congrArg (fun slots => { t with slots }) hslots

theorem Shaped.keep (h : t.Shaped) (p : Key × List Entry → Bool) : (t.keep p).Shaped := by
  refine Shaped.of_entries (h.keep_slots p) ?_
  exact h.entry_keys.sublist (List.filter_sublist.map _)

/-- What is missing after slots were kept is what did not pass the test. -/
theorem Shaped.missing_keep (h : t.Shaped) (p : Key × List Entry → Bool) :
    t.missing (t.keep p) = t.entries.filter fun e => !p e.slot := by
  unfold missing
  apply List.filter_congr
  intro e he
  simp [h.entries_keep, he]

/-- What is kept and what is missing make up all requests. -/
theorem Shaped.keep_missing_perm (h : t.Shaped) (p : Key × List Entry → Bool) :
    ((t.keep p).entries ++ t.missing (t.keep p)).Perm t.entries := by
  rw [h.entries_keep, h.missing_keep]
  exact List.filter_append_perm _ _

theorem missing_self (t : Table) : t.missing t = [] := by
  simp [missing, List.filter_eq_nil_iff]

theorem Shaped.slots_without (h : t.Shaped) (ticket : Ticket) :
    (t.without ticket).slots = (t.entries.filter fun e => e.ticket ≠ ticket).map Entry.slot := by
  rw [without, h.keep_slots]
  simp [Entry.slot]

theorem Shaped.entries_without (h : t.Shaped) (ticket : Ticket) :
    (t.without ticket).entries = t.entries.filter fun e => e.ticket ≠ ticket :=
  entries_of_slots (h.slots_without ticket)

theorem filter_of_unique {es : List Entry} {p : Entry → Bool} {e : Entry} (hnodup : es.Nodup)
    (he : e ∈ es) (hp : ∀ f ∈ es, p f = true ↔ f = e) : es.filter p = [e] := by
  have hfilter : es.filter p = es.filter fun f => f = e := by
    apply List.filter_congr
    intro f hf
    rw [Bool.eq_iff_iff, hp f hf, decide_eq_true_eq]
  rw [hfilter, List.filter_eq, List.count_eq_one_of_mem hnodup he, List.replicate_one]

theorem Shaped.entries_nodup (h : t.Shaped) : t.entries.Nodup :=
  List.Nodup.of_map _ h.entry_keys

/-- Without the request of a ticket, that request is missing and no other. -/
theorem Shaped.missing_without (h : t.Shaped) {e : Entry} (he : e ∈ t.entries) :
    t.missing (t.without e.ticket) = [e] := by
  rw [without, h.missing_keep]
  apply filter_of_unique h.entries_nodup he
  intro f hf
  have hiff : f.ticket = e.ticket ↔ f = e :=
    ⟨h.eq_of_ticket hf he, fun heq => congrArg Entry.ticket heq⟩
  simp [Entry.slot, hiff]

theorem Shaped.cons_without_perm (h : t.Shaped) {e : Entry} (he : e ∈ t.entries) :
    (e :: (t.without e.ticket).entries).Perm t.entries := by
  have hperm := h.keep_missing_perm fun slot => slot.2.all fun f => f.ticket ≠ e.ticket
  rw [← without, h.missing_without he] at hperm
  exact (List.perm_append_singleton e _).symm.trans hperm

/-- A table without the request of a ticket that is not pending is the same table. -/
theorem without_of_not_mem {ticket : Ticket} (hticket : ticket ∉ t.tickets) :
    t.without ticket = t := by
  have hslots : (t.slots.filter fun slot => slot.2.all fun e => e.ticket ≠ ticket) = t.slots := by
    apply List.filter_eq_self.mpr
    intro slot hslot
    simp only [List.all_eq_true, decide_eq_true_eq]
    intro e he heq
    exact hticket (List.mem_map.mpr ⟨e, List.mem_flatMap.mpr ⟨slot, hslot, he⟩, heq⟩)
  rw [without, Table.keep, hslots]

/-! ## What each operation does -/

theorem find?_of_unique {α : Type} {es : List α} {p : α → Bool} {e : α} (he : e ∈ es)
    (hp : p e = true) (hunique : ∀ f ∈ es, p f = true → f = e) : es.find? p = some e := by
  obtain ⟨f, hfind⟩ := Option.isSome_iff_exists.mp (List.find?_isSome.mpr ⟨e, he, hp⟩)
  rw [hfind, hunique f (List.mem_of_find?_eq_some hfind) (List.find?_some hfind)]

theorem Shaped.slot?_eq (h : t.Shaped) (key : Key) :
    t.slot? key = (t.entries.find? fun e => e.awaited.key = key).map fun e => [e] := by
  rw [slot?, h.slots_eq, List.find?_map, Option.map_map]
  rfl

/-- The slot of a key holds the request under that key, and that one alone. -/
theorem Shaped.slot?_of_mem (h : t.Shaped) {e : Entry} (he : e ∈ t.entries) :
    t.slot? e.awaited.key = some [e] := by
  have hfind : (t.entries.find? fun f => f.awaited.key = e.awaited.key) = some e := by
    apply find?_of_unique he (decide_eq_true rfl)
    intro f hf hkey
    exact h.eq_of_key hf he (of_decide_eq_true hkey)
  rw [h.slot?_eq, hfind]
  rfl

/-- A key has no slot exactly if no request is pending under it. -/
theorem Shaped.slot?_eq_none_iff (h : t.Shaped) {key : Key} :
    t.slot? key = none ↔ ∀ e ∈ t.entries, e.awaited.key ≠ key := by
  rw [h.slot?_eq, Option.map_eq_none_iff, List.find?_eq_none]
  simp

theorem Shaped.record?_eq_none_iff (h : t.Shaped) {now : Nat} {awaited : Awaited} :
    t.record? now awaited = none ↔ ∃ e ∈ t.entries, e.awaited.key = awaited.key := by
  have hslot : t.slot? awaited.key = none ↔ _ := h.slot?_eq_none_iff
  unfold record?
  cases hcase : t.slot? awaited.key with
  | none => simpa using hslot.mp hcase
  | some slot => simpa [hcase] using hslot

/-- A request is recorded if no other one is pending under its key, and comes in front of
all others. -/
theorem Shaped.record?_eq_some_iff (h : t.Shaped) {now : Nat} {awaited : Awaited}
    {ticket : Ticket} :
    t.record? now awaited = some (ticket, t') ↔
      (∀ e ∈ t.entries, e.awaited.key ≠ awaited.key) ∧
        ticket = (t.nextEntry now awaited).ticket ∧
        t' = { t with
          next := t.next + 1, slots := (t.nextEntry now awaited).slot :: t.slots } := by
  rw [← h.slot?_eq_none_iff]
  unfold record?
  cases hslot : t.slot? awaited.key with
  | none =>
    simp only [Option.some.injEq, Prod.mk.injEq, true_and]
    constructor
    · rintro ⟨rfl, rfl⟩
      exact ⟨rfl, rfl⟩
    · rintro ⟨rfl, rfl⟩
      exact ⟨rfl, rfl⟩
  | some slot => simp

/-- Recording keeps the shape of a table. -/
theorem Shaped.record (h : t.Shaped) {now : Nat} {awaited : Awaited} {ticket : Ticket}
    (hrecord : t.record? now awaited = some (ticket, t')) :
    t'.Shaped ∧ t'.entries = t.nextEntry now awaited :: t.entries := by
  obtain ⟨hfree, -, rfl⟩ := h.record?_eq_some_iff.mp hrecord
  have hslots : (t.nextEntry now awaited).slot :: t.slots =
      (t.nextEntry now awaited :: t.entries).map Entry.slot := by
    rw [List.map_cons, ← h.slots_eq]
  refine ⟨Shaped.of_entries hslots ?_, entries_of_slots hslots⟩
  rw [List.map_cons, List.nodup_cons]
  refine ⟨?_, h.entry_keys⟩
  intro hmem
  obtain ⟨e, he, hkey⟩ := List.mem_map.mp hmem
  exact hfree e he hkey

/-- Recording takes nothing out of a table. -/
theorem Shaped.missing_record (h : t.Shaped) {now : Nat} {awaited : Awaited} {ticket : Ticket}
    (hrecord : t.record? now awaited = some (ticket, t')) : t.missing t' = [] := by
  apply List.filter_eq_nil_iff.mpr
  intro e he
  simp [(h.record hrecord).2, he]

theorem takeTicket?_map_slot (ticket : Ticket) {es : List Entry}
    (hkeys : (es.map fun e => e.awaited.key).Nodup) :
    takeTicket? ticket (es.map Entry.slot) =
      (es.find? fun e => e.ticket = ticket).map fun e =>
        (e, (es.filter fun f => f.ticket ≠ ticket).map Entry.slot) := by
  induction es with
  | nil => rfl
  | cons e rest ih =>
    rw [List.map_cons, List.nodup_cons] at hkeys
    by_cases hticket : e.ticket = ticket
    · have hkey : e.awaited.key = ticket.key := congrArg Ticket.key hticket
      have hnumber : e.number = ticket.number := congrArg Ticket.number hticket
      -- No later request has the ticket, for none has its key.
      have hrest : ((e :: rest).filter fun f => f.ticket ≠ ticket) = rest := by
        rw [List.filter_cons_of_neg (by simpa using hticket)]
        apply List.filter_eq_self.mpr
        intro f hf
        simp only [decide_eq_true_eq]
        intro heq
        have hfkey : f.awaited.key = e.awaited.key :=
          congrArg Ticket.key (heq.trans hticket.symm)
        exact hkeys.1 (List.mem_map.mpr ⟨f, hf, hfkey⟩)
      rw [hrest]
      simp [takeTicket?, takeNumber?, Entry.slot, hkey, hnumber, hticket]
    · have hnone : (if e.awaited.key = ticket.key then takeNumber? ticket.number [e] else none)
          = none := by
        split
        · rename_i hkey
          have hnumber : e.number ≠ ticket.number := by
            intro hnumber
            exact hticket (by rw [Entry.ticket, hkey, hnumber])
          simp [takeNumber?, hnumber]
        · rfl
      rw [List.map_cons, Entry.slot, takeTicket?, hnone, ih hkeys.2]
      simp [hticket, Entry.slot, Function.comp_def]

/-- A ticket takes out the request that it names, and no other. -/
theorem Shaped.take?_eq (h : t.Shaped) (ticket : Ticket) :
    t.take? ticket =
      (t.entries.find? fun e => e.ticket = ticket).map fun e => (e, t.without ticket) := by
  rw [take?, h.slots_eq, takeTicket?_map_slot ticket h.entry_keys, Option.map_map]
  congr 1
  funext e
  simp only [Function.comp_apply, ← h.slots_without]
  rfl

theorem Shaped.take?_eq_some_iff (h : t.Shaped) {ticket : Ticket} {e : Entry} :
    t.take? ticket = some (e, t') ↔
      e ∈ t.entries ∧ e.ticket = ticket ∧ t' = t.without ticket := by
  rw [h.take?_eq, Option.map_eq_some_iff]
  constructor
  · rintro ⟨f, hfind, heq⟩
    cases heq
    exact ⟨List.mem_of_find?_eq_some hfind, by simpa using List.find?_some hfind, rfl⟩
  · rintro ⟨he, hticket, rfl⟩
    have hfind : (t.entries.find? fun e => e.ticket = ticket) = some e := by
      apply find?_of_unique he (decide_eq_true hticket)
      intro f hf heq
      exact h.eq_of_ticket hf he ((of_decide_eq_true heq).trans hticket.symm)
    exact ⟨e, hfind, rfl⟩

theorem Shaped.take?_eq_none_iff (h : t.Shaped) {ticket : Ticket} :
    t.take? ticket = none ↔ ticket ∉ t.tickets := by
  rw [h.take?_eq, Option.map_eq_none_iff, List.find?_eq_none, tickets]
  simp

/-- Emptying the slot of a key gives the request under that key, and keeps all others. -/
theorem Shaped.takeSlot_of_mem (h : t.Shaped) {e : Entry} (he : e ∈ t.entries) :
    t.takeSlot e.awaited.key = ([e], t.without e.ticket) := by
  have hkeep : (t.keep fun slot => slot.1 ≠ e.awaited.key) = t.without e.ticket := by
    apply h.keep_congr
    intro f hf
    have hiff : f.awaited.key = e.awaited.key ↔ f.ticket = e.ticket :=
      ⟨fun hkey => congrArg Entry.ticket (h.eq_of_key hf he hkey), congrArg Ticket.key⟩
    simp [Entry.slot, hiff]
  rw [takeSlot, h.slot?_of_mem he, ← hkeep]
  rfl

theorem Shaped.takeSlot_of_free (h : t.Shaped) {key : Key}
    (hfree : ∀ e ∈ t.entries, e.awaited.key ≠ key) : t.takeSlot key = ([], t) := by
  have hkeep : (t.keep fun slot => slot.1 ≠ key) = t.keep fun _ => true := by
    apply h.keep_congr
    intro e he
    exact decide_eq_true (hfree e he)
  rw [takeSlot, h.slot?_eq_none_iff.mpr hfree, ← Table.keep, hkeep, keep_true]
  rfl

theorem clear_eq_keep (t : Table) : t.clear = t.keep fun _ => false := by
  simp [clear, Table.keep]

/-! ## What is pending under one key -/

variable {key : Key} {e : Entry}

theorem mem_under_iff : e ∈ t.under key ↔ e ∈ t.entries ∧ e.awaited.key = key := by
  rw [under, List.mem_filter, decide_eq_true_eq]

theorem under_eq_nil_iff : t.under key = [] ↔ ∀ e ∈ t.entries, e.awaited.key ≠ key := by
  simp [under, List.filter_eq_nil_iff]

/-- Only one request is pending under a key. -/
theorem Shaped.under_of_mem (h : t.Shaped) (he : e ∈ t.entries) :
    t.under e.awaited.key = [e] := by
  apply filter_of_unique h.entries_nodup he
  intro f hf
  rw [decide_eq_true_eq]
  exact ⟨h.eq_of_key hf he, fun heq => congrArg (fun e => e.awaited.key) heq⟩

/-- Without its request, nothing is pending under the key of a ticket. -/
theorem Shaped.under_without_of_mem (h : t.Shaped) (he : e ∈ t.entries) :
    (t.without e.ticket).under e.awaited.key = [] := by
  rw [under_eq_nil_iff, h.entries_without]
  intro f hf hkey
  rw [List.mem_filter, decide_eq_true_eq] at hf
  exact hf.2 (congrArg Entry.ticket (h.eq_of_key hf.1 he hkey))

/-- A ticket means nothing for the requests under other keys. -/
theorem Shaped.under_without_of_ne (h : t.Shaped) {ticket : Ticket} (hkey : ticket.key ≠ key) :
    (t.without ticket).under key = t.under key := by
  rw [under, h.entries_without, List.filter_filter, under]
  apply List.filter_congr
  intro f _
  have himp : f.awaited.key = key → f.ticket ≠ ticket := by
    rintro hf rfl
    exact hkey hf
  simpa using himp

theorem Shaped.under_record (h : t.Shaped) {now : Nat} {awaited : Awaited} {ticket : Ticket}
    (hrecord : t.record? now awaited = some (ticket, t')) :
    t'.under key =
      if awaited.key = key then [t.nextEntry now awaited] else t.under key := by
  obtain ⟨hfree, -, -⟩ := h.record?_eq_some_iff.mp hrecord
  rw [under, (h.record hrecord).2, List.filter_cons]
  split
  · rename_i hkey
    have hown : awaited.key = key := of_decide_eq_true hkey
    rw [if_pos hown, ← under, under_eq_nil_iff.mpr (hown ▸ hfree)]
  · rename_i hkey
    have hother : ¬ awaited.key = key := fun hown => hkey (decide_eq_true hown)
    rw [if_neg hother, under]

end Table

end MeshFoundation.Pending
