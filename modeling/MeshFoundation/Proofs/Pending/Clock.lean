import MeshFoundation.Pending.Timeline
import MeshFoundation.Proofs.Pending.Slots

/-!
# One move of the clock

On its way to a given time the clock stops at one timer after another. What comes first among
things with timers is known exactly (`Timer.first?_eq_some_iff`): whatever stands before it in
the list comes strictly later, and whatever stands behind it does not come before it.

If no request is made again when its time has run out, a move of the clock is a partition of
the pending requests: those whose deadline lies within the move are reported, each at its
deadline and in the order of the deadlines, and all others stay (`run_of_passive`).
-/

set_option autoImplicit false

namespace MeshFoundation.Pending

/-- The timer of a recorded request. -/
def Entry.timer (e : Entry) : Timer := ⟨e.ticket, e.deadline⟩

/-- What is reported of a request whose time runs out at its deadline. -/
def Entry.expiry (e : Entry) : Expiry := ⟨e.ticket, e.awaited, e.deadline⟩

/-! ## What comes first -/

namespace Timer

variable {α : Type} {timer : α → Timer} {xs : List α} {x : α}

theorem precedes_iff {a b : Timer} :
    a.precedes b = true ↔
      a.deadline < b.deadline ∨ a.deadline = b.deadline ∧ a.ticket.number < b.ticket.number := by
  simp [precedes]

theorem precedes_trans {a b c : Timer} (hab : a.precedes b = true) (hbc : b.precedes c = true) :
    a.precedes c = true := by
  rw [precedes_iff, UInt64.lt_iff_toNat_lt] at *
  omega

/-- A timer that is not preceded comes no later than whatever precedes another one. -/
theorem precedes_of_not_precedes {a b c : Timer} (hac : a.precedes c = true)
    (hbc : b.precedes c ≠ true) : a.precedes b = true := by
  rw [ne_eq, precedes_iff, UInt64.lt_iff_toNat_lt] at hbc
  rw [precedes_iff, UInt64.lt_iff_toNat_lt] at *
  omega

theorem first?_eq_none_iff : first? timer xs = none ↔ xs = [] := by
  cases xs with
  | nil => simp [first?]
  | cons y rest =>
    simp only [first?, reduceCtorEq, iff_false]
    split
    · simp
    · split <;> simp

/-- What comes first precedes whatever stands before it in the list, and nothing that stands
behind it precedes it. -/
theorem first?_eq_some_iff :
    first? timer xs = some x ↔
      ∃ before after, xs = before ++ x :: after ∧
        (∀ y ∈ before, (timer x).precedes (timer y) = true) ∧
        ∀ y ∈ after, (timer y).precedes (timer x) ≠ true := by
  constructor
  · intro h
    induction xs generalizing x with
    | nil => cases h
    | cons y rest ih =>
      unfold first? at h
      split at h
      · rename_i hnone
        cases h
        exact ⟨[], rest, rfl, nofun, by simp [first?_eq_none_iff.mp hnone]⟩
      · rename_i z hz
        obtain ⟨before, after, rfl, hbefore, hafter⟩ := ih hz
        split at h
        · rename_i hprecedes
          cases h
          refine ⟨y :: before, after, rfl, ?_, hafter⟩
          intro w hw
          rcases List.mem_cons.mp hw with rfl | hw
          · exact hprecedes
          · exact hbefore w hw
        · rename_i hnot
          cases h
          refine ⟨[], before ++ z :: after, rfl, nofun, ?_⟩
          -- Nothing in the rest of the list comes before `z`, which does not come before `y`.
          intro w hw hwy
          have hwz : (timer w).precedes (timer z) = true := precedes_of_not_precedes hwy hnot
          rcases List.mem_append.mp hw with hw | hw
          · exact hnot (precedes_trans (hbefore w hw) hwy)
          · rcases List.mem_cons.mp hw with rfl | hw
            · exact hnot hwy
            · exact hafter w hw hwz
  · rintro ⟨before, after, rfl, hbefore, hafter⟩
    induction before with
    | nil =>
      simp only [List.nil_append, first?]
      split
      · rfl
      · rename_i z hz
        rw [if_neg (hafter z (mem_of_first? hz))]
    | cons y before ih =>
      have hrest := ih fun w hw => hbefore w (List.mem_cons_of_mem _ hw)
      simp only [List.cons_append, first?, hrest, hbefore y List.mem_cons_self, if_true]

/-- Nothing has an earlier deadline than what comes first. -/
theorem deadline_le_of_first? (h : first? timer xs = some x) {y : α} (hy : y ∈ xs) :
    (timer x).deadline ≤ (timer y).deadline := by
  obtain ⟨before, after, rfl, hbefore, hafter⟩ := first?_eq_some_iff.mp h
  rcases List.mem_append.mp hy with hy | hy
  · have hprecedes := precedes_iff.mp (hbefore y hy)
    omega
  · rcases List.mem_cons.mp hy with rfl | hy
    · exact Nat.le_refl _
    · have hnot := hafter y hy
      rw [ne_eq, precedes_iff] at hnot
      omega

end Timer

/-! ## The next timer of a table -/

namespace Table

variable {t : Table} {limit : Nat} {timer : Timer}

theorem Shaped.timers_eq (h : t.Shaped) : t.timers = t.entries.map Entry.timer := by
  rw [timers, h.slots_eq, List.flatMap_map, ← List.flatMap_pure_eq_map]
  rfl

theorem Shaped.nextTimer?_eq_none_iff (h : t.Shaped) :
    t.nextTimer? limit = none ↔ ∀ e ∈ t.entries, limit < e.deadline := by
  rw [nextTimer?, h.timers_eq, Option.filter_eq_none_iff]
  constructor
  · intro hnone e he
    cases hfirst : Timer.first? id (t.entries.map Entry.timer) with
    | none =>
      rw [Timer.first?_eq_none_iff, List.map_eq_nil_iff] at hfirst
      rw [hfirst] at he
      cases he
    | some first =>
      have hlate := hnone first hfirst
      have hle := Timer.deadline_le_of_first? hfirst (List.mem_map_of_mem he)
      simp only [decide_eq_true_eq, Nat.not_le] at hlate
      exact Nat.lt_of_lt_of_le hlate hle
  · intro hlate first hfirst
    obtain ⟨e, he, rfl⟩ := List.mem_map.mp (Timer.mem_of_first? hfirst)
    rw [decide_eq_true_eq]
    exact Nat.not_le.mpr (hlate e he)

theorem Shaped.exists_of_nextTimer? (h : t.Shaped) (hnext : t.nextTimer? limit = some timer) :
    ∃ e ∈ t.entries, e.timer = timer ∧ e.deadline ≤ limit ∧
      ∀ f ∈ t.entries, e.deadline ≤ f.deadline := by
  rw [nextTimer?, h.timers_eq, Option.filter_eq_some_iff] at hnext
  obtain ⟨hfirst, hlimit⟩ := hnext
  obtain ⟨e, he, rfl⟩ := List.mem_map.mp (Timer.mem_of_first? hfirst)
  refine ⟨e, he, rfl, of_decide_eq_true hlimit, ?_⟩
  intro f hf
  exact Timer.deadline_le_of_first? hfirst (List.mem_map_of_mem hf)

/-- The table with those requests alone whose time runs out after the given time. -/
def dueAfter (t : Table) (limit : Nat) : Table :=
  t.keep fun slot => slot.2.all fun e => limit < e.deadline

theorem Shaped.entries_dueAfter (h : t.Shaped) (limit : Nat) :
    (t.dueAfter limit).entries = t.entries.filter fun e => limit < e.deadline := by
  rw [dueAfter, h.entries_keep]
  simp [Entry.slot]

theorem Shaped.dueAfter_of_all (h : t.Shaped) (hall : ∀ e ∈ t.entries, limit < e.deadline) :
    t.dueAfter limit = t := by
  have hkeep : t.dueAfter limit = t.keep fun _ => true := by
    apply h.keep_congr
    intro e he
    simpa [Entry.slot] using hall e he
  rw [hkeep, keep_true]

/-- A request that is due may as well be taken out before. -/
theorem Shaped.dueAfter_without (h : t.Shaped) {e : Entry} (he : e ∈ t.entries)
    (hdue : e.deadline ≤ limit) : (t.without e.ticket).dueAfter limit = t.dueAfter limit := by
  have hslots : (t.without e.ticket).dueAfter limit = t.keep fun slot =>
      (slot.2.all fun f => limit < f.deadline) && slot.2.all fun f => f.ticket ≠ e.ticket := by
    simp only [dueAfter, without, Table.keep, List.filter_filter]
  rw [hslots]
  apply h.keep_congr
  intro f hf
  have hother : limit < f.deadline → f.ticket ≠ e.ticket := by
    intro hlate hticket
    rw [h.eq_of_ticket hf he hticket] at hlate
    omega
  simpa [Entry.slot] using hother

end Table

/-! ## A move of the clock without retries -/

namespace Timeline

variable {tl tl' : Timeline} {limit : Nat} {expiry : Expiry}

theorem next?_eq_none_iff (h : tl.table.Shaped) :
    tl.next? limit = none ↔ ∀ e ∈ tl.table.entries, limit < e.deadline := by
  rw [← h.nextTimer?_eq_none_iff, next?]
  constructor
  · intro hnone
    cases hnext : tl.table.nextTimer? limit with
    | none => rfl
    | some timer =>
      have htake := Table.take?_isSome_of_mem_timers (Table.mem_timers_of_nextTimer? hnext).1
      rw [hnext, Option.bind_some, expire?, Option.map_eq_none_iff] at hnone
      rw [hnone] at htake
      cases htake
  · intro hnone
    rw [hnone]
    rfl

/-- The clock stops at the earliest deadline, and the request with this deadline is taken out
of the table and reported. -/
theorem exists_of_next? (h : tl.table.Shaped) (hnext : tl.next? limit = some (expiry, tl')) :
    ∃ e ∈ tl.table.entries, e.deadline ≤ limit ∧
      (∀ f ∈ tl.table.entries, e.deadline ≤ f.deadline) ∧ expiry = e.expiry ∧
      let left := { tl with now := e.deadline, table := tl.table.without e.ticket }
      tl' = { left with
        table := left.retry e.awaited, expired := e.awaited.key :: tl.expired } := by
  obtain ⟨timer, htimer, hexpire⟩ := Option.bind_eq_some_iff.mp hnext
  obtain ⟨e, he, rfl, hlimit, hfirst⟩ := h.exists_of_nextTimer? htimer
  have htake : tl.table.take? e.timer.ticket = some (e, tl.table.without e.ticket) :=
    h.take?_eq_some_iff.mpr ⟨he, rfl, rfl⟩
  rw [expire?, htake] at hexpire
  cases hexpire
  exact ⟨e, he, hlimit, hfirst, rfl, rfl⟩

theorem retry_of_passive (tl : Timeline) (hpassive : tl.retries = 0) (awaited : Awaited) :
    tl.retry awaited = tl.table := by
  simp [retry, retriesLeft, hpassive]

/-- If no request is made again, a stop of the clock takes its request out and does no more. -/
theorem exists_of_next?_of_passive (h : tl.table.Shaped) (hpassive : tl.retries = 0)
    (hnext : tl.next? limit = some (expiry, tl')) :
    ∃ e ∈ tl.table.entries, e.deadline ≤ limit ∧
      (∀ f ∈ tl.table.entries, e.deadline ≤ f.deadline) ∧ expiry = e.expiry ∧
      tl'.table = tl.table.without e.ticket ∧ tl'.retries = 0 := by
  obtain ⟨e, he, hlimit, hfirst, hexpiry, rfl⟩ := exists_of_next? h hnext
  refine ⟨e, he, hlimit, hfirst, hexpiry, ?_, hpassive⟩
  exact retry_of_passive ⟨e.deadline, tl.table.without e.ticket, tl.retries, tl.expired⟩ hpassive
    e.awaited

/-- On the way to a given time all requests are reported whose deadline lies on it, each at
its deadline and the earlier ones first. All others stay. -/
theorem run_of_passive (h : tl.table.Shaped) (hpassive : tl.retries = 0) :
    (tl.run limit).1.Perm
        ((tl.table.entries.filter fun e => e.deadline ≤ limit).map Entry.expiry) ∧
      (tl.run limit).1.Pairwise (fun a b => a.time ≤ b.time) ∧
      (tl.run limit).2.table = tl.table.dueAfter limit ∧ (tl.run limit).2.retries = 0 := by
  fun_induction run limit tl with
  | case1 tl hnone =>
    have hlate := (next?_eq_none_iff h).mp hnone
    refine ⟨?_, List.Pairwise.nil, (h.dueAfter_of_all hlate).symm, hpassive⟩
    have hnothing : (tl.table.entries.filter fun e => e.deadline ≤ limit) = [] := by
      apply List.filter_eq_nil_iff.mpr
      intro e he
      rw [decide_eq_true_eq]
      exact Nat.not_le.mpr (hlate e he)
    rw [hnothing]
    exact List.Perm.refl _
  | case2 tl expiry tl' hnext expiries final hrun ih =>
    obtain ⟨e, he, hlimit, hfirst, rfl, htable', hretries'⟩ :=
      exists_of_next?_of_passive h hpassive hnext
    have hshaped : tl'.table.Shaped := htable' ▸ h.keep _
    obtain ⟨hperm, hordered, htable, hretries⟩ := ih hshaped hretries'
    rw [hrun] at hperm hordered htable hretries
    rw [htable'] at hperm htable
    refine ⟨?_, ?_, ?_, hretries⟩
    · have hsplit := ((h.cons_without_perm he).filter fun f => f.deadline ≤ limit).map Entry.expiry
      rw [List.filter_cons_of_pos (by simpa using hlimit), List.map_cons] at hsplit
      exact (hperm.cons e.expiry).trans hsplit
    · -- Whatever is reported later was pending already when the first one was reported.
      refine List.pairwise_cons.mpr ⟨?_, hordered⟩
      intro x hx
      obtain ⟨f, hf, rfl⟩ := List.mem_map.mp (hperm.subset hx)
      have hmem := List.mem_of_mem_filter hf
      rw [h.entries_without] at hmem
      exact hfirst f (List.mem_of_mem_filter hmem)
    · exact htable.trans (h.dueAfter_without he hlimit)

end Timeline

end MeshFoundation.Pending
