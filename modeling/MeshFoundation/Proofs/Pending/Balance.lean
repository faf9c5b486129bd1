import Mathlib.Algebra.Group.Nat.Defs
import MeshFoundation.Proofs.Pending.Slots

/-!
# The balance of a table

A table is balanced against the tickets that it gave out and the tickets whose requests
left it: the numbers of the tickets count up from one, and together the pending requests
and those that left are the tickets given out, each as often as it was given out. Recording
(`Balanced.record`) and keeping slots (`Balanced.keep`) are the two ways in which a table
changes, and both of them keep the balance, even after the numbers have run over.

As long as the numbers have not run over, no two tickets are the same. A ticket is then
either pending or left, and not twice either (`Balanced.nodup`), and its number alone tells
it from all other tickets (`Balanced.eq_of_number`).
-/

set_option autoImplicit false

namespace MeshFoundation.Pending

/-- The number of the request that is recorded after the given count of others. -/
def numberAfter (count : Nat) : UInt64 := UInt64.ofNat (count + 1)

theorem numberAfter_succ (count : Nat) : numberAfter (count + 1) = numberAfter count + 1 := by
  rw [numberAfter, UInt64.ofNat_add]
  rfl

theorem toNat_numberAfter {count : Nat} (h : count + 1 < 2 ^ 64) :
    (numberAfter count).toNat = count + 1 :=
  UInt64.toNat_ofNat_of_lt' h

namespace Table

/-- The pending requests and those that left are the requests of all tickets that were
given out, and the numbers of these count up from one. -/
structure Balanced (t : Table) (issued left : List Ticket) : Prop where
  shaped : t.Shaped
  numbered : issued.map Ticket.number = (List.range issued.length).map numberAfter
  next : t.next = numberAfter issued.length
  conserved : (t.tickets ++ left).Perm issued

variable {t t' : Table} {issued left : List Ticket}

/-! ## Every change keeps the balance -/

theorem Balanced.empty (timeout : Nat) : (Table.empty timeout).Balanced [] [] where
  shaped := Shaped.empty timeout
  numbered := rfl
  next := rfl
  conserved := List.Perm.refl _

/-- Recording gives out one more ticket, and its request is pending. -/
theorem Balanced.record (h : t.Balanced issued left) {now : Nat} {awaited : Awaited}
    {ticket : Ticket} (hrecord : t.record? now awaited = some (ticket, t')) :
    t'.Balanced (issued ++ [ticket]) left := by
  obtain ⟨hshaped, hentries⟩ := h.shaped.record hrecord
  obtain ⟨-, hticket, ht'⟩ := h.shaped.record?_eq_some_iff.mp hrecord
  have hnumber : ticket.number = numberAfter issued.length := by
    rw [hticket, ← h.next]
    rfl
  refine ⟨hshaped, ?_, ?_, ?_⟩
  · simp [List.range_succ, h.numbered, hnumber]
  · rw [ht', List.length_append, List.length_singleton, numberAfter_succ, ← h.next]
  · have htickets : t'.tickets = ticket :: t.tickets := by
      rw [tickets, hentries, List.map_cons, ← hticket]
      rfl
    rw [htickets, List.cons_append]
    exact (h.conserved.cons ticket).trans (List.perm_append_singleton ticket issued).symm

/-- Whatever does not pass the test by which slots are kept has left the table. -/
theorem Balanced.keep (h : t.Balanced issued left) (p : Key × List Entry → Bool) :
    (t.keep p).Balanced issued (left ++ (t.missing (t.keep p)).map Entry.ticket) := by
  refine ⟨h.shaped.keep p, h.numbered, h.next, ?_⟩
  have hsplit := h.shaped.keep_missing_perm p
  have hpending : ((t.keep p).tickets ++
      ((t.missing (t.keep p)).map Entry.ticket ++ left)).Perm (t.tickets ++ left) := by
    rw [← List.append_assoc, tickets, ← List.map_append]
    exact (hsplit.map _).append_right left
  exact ((List.perm_append_comm.append_left _).trans hpending).trans h.conserved

/-! ## As long as the numbers have not run over -/

theorem Balanced.numbers_nodup (h : t.Balanced issued left) (hfew : issued.length < 2 ^ 64) :
    (issued.map Ticket.number).Nodup := by
  rw [h.numbered]
  apply List.Nodup.map_on _ List.nodup_range
  intro a ha b hb heq
  rw [List.mem_range] at ha hb
  have hnat := congrArg UInt64.toNat heq
  rw [toNat_numberAfter (by omega), toNat_numberAfter (by omega)] at hnat
  omega

theorem Balanced.issued_nodup (h : t.Balanced issued left) (hfew : issued.length < 2 ^ 64) :
    issued.Nodup :=
  List.Nodup.of_map _ (h.numbers_nodup hfew)

/-- The number of a ticket tells it from all other tickets that were given out. -/
theorem Balanced.eq_of_number (h : t.Balanced issued left) (hfew : issued.length < 2 ^ 64)
    {a b : Ticket} (ha : a ∈ issued) (hb : b ∈ issued) (hnumber : a.number = b.number) : a = b :=
  List.inj_on_of_nodup_map (h.numbers_nodup hfew) ha hb hnumber

/-- No ticket is pending twice, none left twice, and none that is pending left. -/
theorem Balanced.nodup (h : t.Balanced issued left) (hfew : issued.length < 2 ^ 64) :
    (t.tickets ++ left).Nodup :=
  h.conserved.nodup_iff.mpr (h.issued_nodup hfew)

theorem Balanced.mem_issued_of_pending (h : t.Balanced issued left) {e : Entry}
    (he : e ∈ t.entries) : e.ticket ∈ issued :=
  h.conserved.subset (List.mem_append_left _ (List.mem_map_of_mem he))

theorem Balanced.mem_issued_of_left (h : t.Balanced issued left) {ticket : Ticket}
    (hticket : ticket ∈ left) : ticket ∈ issued :=
  h.conserved.subset (List.mem_append_right _ hticket)

theorem Balanced.pending_or_left (h : t.Balanced issued left) {ticket : Ticket}
    (hticket : ticket ∈ issued) : ticket ∈ t.tickets ∨ ticket ∈ left :=
  List.mem_append.mp (h.conserved.symm.subset hticket)

/-- No two pending requests have the same number. -/
theorem Balanced.distinct (h : t.Balanced issued left) (hfew : issued.length < 2 ^ 64) :
    (t.entries.map Entry.number).Nodup := by
  have hall : ((t.tickets ++ left).map Ticket.number).Nodup :=
    (h.conserved.map _).nodup_iff.mpr (h.numbers_nodup hfew)
  rw [List.map_append, tickets, List.map_map] at hall
  exact (List.nodup_append.mp hall).1

/-- Every number that was given out lies below the next one, if that one has not run over. -/
theorem Balanced.number_lt_next (h : t.Balanced issued left)
    (hfew : issued.length < 2 ^ 64 - 1) {ticket : Ticket} (hticket : ticket ∈ issued) :
    ticket.number < t.next := by
  have hmem : ticket.number ∈ (List.range issued.length).map numberAfter :=
    h.numbered ▸ List.mem_map_of_mem hticket
  obtain ⟨count, hcount, heq⟩ := List.mem_map.mp hmem
  rw [List.mem_range] at hcount
  rw [← heq, h.next, UInt64.lt_iff_toNat_lt, toNat_numberAfter (by omega),
    toNat_numberAfter (by omega)]
  omega

end Table

end MeshFoundation.Pending
