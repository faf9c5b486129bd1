import MeshFoundation.Pending.Table

/-!
# Timers of pending requests

Every timer of a table stands for a request that its ticket takes out, and taking a
request out leaves all others: whatever is added up over the pending requests falls by
the share of the one that is taken.
-/

set_option autoImplicit false

namespace MeshFoundation.Pending

/-- The shares of some requests, added up. -/
def total (share : Entry → Nat) : List Entry → Nat
  | [] => 0
  | entry :: rest => share entry + total share rest

theorem total_append (share : Entry → Nat) (es fs : List Entry) :
    total share (es ++ fs) = total share es + total share fs := by
  induction es with
  | nil => simp [total]
  | cons e es ih =>
    simp only [List.cons_append, total, ih]
    omega

/-- If every share is one, the shares add up to the number of requests. -/
theorem total_one (es : List Entry) : total (fun _ => 1) es = es.length := by
  induction es with
  | nil => rfl
  | cons e es ih =>
    simp only [total, ih, List.length_cons]
    omega

theorem total_le_total {share share' : Entry → Nat} (h : ∀ e, share e ≤ share' e)
    (es : List Entry) : total share es ≤ total share' es := by
  induction es with
  | nil => exact Nat.le_refl _
  | cons e es ih =>
    have he := h e
    simp only [total]
    omega

/-- The number of a request in a list takes some request out of it. -/
theorem Table.takeNumber?_isSome {slot : List Entry} {entry : Entry} (h : entry ∈ slot) :
    (Table.takeNumber? entry.number slot).isSome = true := by
  induction slot with
  | nil => cases h
  | cons first rest ih =>
    unfold Table.takeNumber?
    split
    · rfl
    · rename_i hne
      rcases List.mem_cons.mp h with rfl | h
      · exact absurd rfl hne
      · simpa using ih h

/-- The ticket of a request in a list of slots takes some request out of it. -/
theorem Table.takeTicket?_isSome {slots : List (Key × List Entry)} {key : Key}
    {slot : List Entry} {entry : Entry} (hslot : (key, slot) ∈ slots) (hentry : entry ∈ slot) :
    (Table.takeTicket? ⟨key, entry.number⟩ slots).isSome = true := by
  induction slots with
  | nil => cases hslot
  | cons first rest ih =>
    obtain ⟨firstKey, firstSlot⟩ := first
    unfold Table.takeTicket?
    split
    · rfl
    · rfl
    · rename_i hnone
      rcases List.mem_cons.mp hslot with hfirst | hrest
      · cases hfirst
        have hsome := Table.takeNumber?_isSome hentry
        rw [if_pos rfl] at hnone
        rw [hnone] at hsome
        cases hsome
      · simpa using ih hrest

/-- Taking a request out of a list by its number takes its share away. -/
theorem Table.total_of_takeNumber? (share : Entry → Nat) {number : UInt64}
    {slot left : List Entry} {taken : Entry}
    (h : Table.takeNumber? number slot = some (taken, left)) :
    total share slot = share taken + total share left := by
  induction slot generalizing left with
  | nil => cases h
  | cons first rest ih =>
    unfold Table.takeNumber? at h
    split at h
    · cases h
      rfl
    · obtain ⟨⟨taken', left'⟩, hrest, heq⟩ := Option.map_eq_some_iff.mp h
      cases heq
      have htotal := ih hrest
      simp only [total]
      omega

/-- Taking a request out of a list of slots by its ticket takes its share away. -/
theorem Table.total_of_takeTicket? (share : Entry → Nat) {ticket : Ticket}
    {slots left : List (Key × List Entry)} {taken : Entry}
    (h : Table.takeTicket? ticket slots = some (taken, left)) :
    total share (slots.flatMap fun slot => slot.2) =
      share taken + total share (left.flatMap fun slot => slot.2) := by
  induction slots generalizing left with
  | nil => cases h
  | cons first rest ih =>
    obtain ⟨key, slot⟩ := first
    unfold Table.takeTicket? at h
    split at h
    · rename_i hone
      cases h
      split at hone
      · have htotal := Table.total_of_takeNumber? share hone
        simp only [List.flatMap_cons, total_append]
        simp only [total] at htotal
        omega
      · cases hone
    · rename_i hmany
      cases h
      split at hmany
      · have htotal := Table.total_of_takeNumber? share hmany
        simp only [List.flatMap_cons, total_append]
        omega
      · cases hmany
    · obtain ⟨⟨taken', left'⟩, hrest, heq⟩ := Option.map_eq_some_iff.mp h
      cases heq
      have htotal := ih hrest
      simp only [List.flatMap_cons, total_append]
      omega

/-- Taking a request out of a table takes its share away. -/
theorem Table.total_of_take? (share : Entry → Nat) {t left : Table} {ticket : Ticket}
    {taken : Entry} (h : t.take? ticket = some (taken, left)) :
    total share t.entries = share taken + total share left.entries := by
  obtain ⟨⟨taken', slots⟩, hslots, heq⟩ := Option.map_eq_some_iff.mp h
  cases heq
  exact Table.total_of_takeTicket? share hslots

/-- Recording a request adds its share. -/
theorem Table.total_of_record? (share : Awaited → Nat) {t t' : Table} {now : Nat}
    {awaited : Awaited} {ticket : Ticket} (h : t.record? now awaited = some (ticket, t')) :
    total (fun e => share e.awaited) t'.entries =
      share awaited + total (fun e => share e.awaited) t.entries := by
  unfold Table.record? at h
  split at h
  · cases h
  · cases h
    rfl

/-- Taking a request out of a table leaves one request less. -/
theorem Table.length_of_take? {t left : Table} {ticket : Ticket} {taken : Entry}
    (h : t.take? ticket = some (taken, left)) : t.length = left.length + 1 := by
  have htotal := Table.total_of_take? (fun _ => 1) h
  simp only [total_one] at htotal
  simp only [Table.length]
  omega

theorem Timer.mem_of_first? {α : Type} {timer : α → Timer} {xs : List α} {x : α}
    (h : Timer.first? timer xs = some x) : x ∈ xs := by
  induction xs generalizing x with
  | nil => cases h
  | cons y rest ih =>
    unfold Timer.first? at h
    split at h
    · cases h
      exact List.mem_cons_self
    · rename_i z hz
      split at h
      · cases h
        exact List.mem_cons_of_mem _ (ih hz)
      · cases h
        exact List.mem_cons_self

/-- The ticket of every timer takes a request out of the table. -/
theorem Table.take?_isSome_of_mem_timers {t : Table} {timer : Timer} (h : timer ∈ t.timers) :
    (t.take? timer.ticket).isSome = true := by
  obtain ⟨⟨key, slot⟩, hslot, htimer⟩ := List.mem_flatMap.mp h
  obtain ⟨entry, hentry, rfl⟩ := List.mem_map.mp htimer
  simpa [Table.take?] using Table.takeTicket?_isSome hslot hentry

/-- A timer that goes off next is one of the table's, and its time has come. -/
theorem Table.mem_timers_of_nextTimer? {t : Table} {limit : Nat} {timer : Timer}
    (h : t.nextTimer? limit = some timer) : timer ∈ t.timers ∧ timer.deadline ≤ limit := by
  obtain ⟨hfirst, hlimit⟩ := Option.filter_eq_some_iff.mp h
  exact ⟨Timer.mem_of_first? hfirst, by simpa using hlimit⟩

end MeshFoundation.Pending
