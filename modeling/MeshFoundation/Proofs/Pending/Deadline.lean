import MeshFoundation.Pending.Rehearsal
import MeshFoundation.Proofs.Pending.Clock
import MeshFoundation.Proofs.Pending.Wakeup

/-!
# Requests that run out of time

A run of a table under a clock is a list of stages. In each of them the owner does something
with the table, or lets the clock move on, and then every timer goes off whose time has come.
What was admitted in a stage and what the owner took out in it is read off the tables before
and after the deed.

A request is followed from its admission on to the first thing that becomes of it: the owner
takes it out, or it is reported. If the hook makes no request again, a request that is not
taken out before its deadline is reported exactly there, once, and in the order of the
admissions (`reported_at_deadline`).
-/

set_option autoImplicit false

namespace MeshFoundation.Pending.Rehearsal

/-- One step of a run, and what it starts from. -/
structure Stage where
  before : Rehearsal
  step : Step
  deriving DecidableEq, Repr

/-- What becomes of a pending request. -/
inductive Ending where
  /-- The owner of the table takes it out. -/
  | takenOut (time : Nat)
  /-- The hook is called with it. -/
  | reported (time : Nat)
  deriving DecidableEq, Repr

namespace Stage

/-- The table after the deed of the owner and before any timer goes off. -/
def settled (s : Stage) : Timeline :=
  let tl := s.before.timeline
  match s.step with
  | .act action => { tl with table := (action.perform tl.now s.before.tickets tl.table).2 }
  | .advance _ => tl

/-- How far the clock moves on. -/
def span (s : Stage) : Nat :=
  match s.step with
  | .act _ => 0
  | .advance milliseconds => milliseconds

def after (s : Stage) : Rehearsal := (s.before.step s.step).2

/-- The calls of the hook, in their order. -/
def reports (s : Stage) : List Expiry := (s.settled.advance s.span).1

/-- The requests that the owner put into the table. -/
def admitted (s : Stage) : List Entry := s.settled.table.missing s.before.timeline.table

/-- The requests that the owner took out of the table. -/
def removed (s : Stage) : List Entry := s.before.timeline.table.missing s.settled.table

/-- What becomes of a request in a stage, if it does not stay. -/
def ending? (e : Entry) (s : Stage) : Option Ending :=
  if e ∈ s.removed then some (.takenOut s.before.timeline.now)
  else (s.reports.find? fun x => x.ticket = e.ticket).map fun x => .reported x.time

end Stage

/-- The stages of a run. -/
def stages (r : Rehearsal) : List Step → List Stage
  | [] => []
  | first :: rest => ⟨r, first⟩ :: stages (Stage.mk r first).after rest

/-- All calls of the hook in a run, in their order. -/
def reports (r : Rehearsal) (steps : List Step) : List Expiry :=
  (r.stages steps).flatMap Stage.reports

/-- A request, the time from which on it is followed, and the first thing that became of it. -/
structure Course where
  time : Nat
  entry : Entry
  ending? : Option Ending
  deriving DecidableEq, Repr

/-- Follows a request through a run. -/
def follow (r : Rehearsal) (steps : List Step) (e : Entry) : Course :=
  ⟨r.timeline.now, e, (r.stages steps).findSome? (Stage.ending? e)⟩

/-- The requests that were admitted in a run, each followed from there on. -/
def admissions (r : Rehearsal) : List Step → List Course
  | [] => []
  | first :: rest =>
    let s : Stage := ⟨r, first⟩
    s.admitted.map (r.follow (first :: rest)) ++ s.after.admissions rest

namespace Course

/-- The call of the hook with which a course ends, if it ends with one. -/
def expiry? (a : Course) : Option Expiry :=
  match a.ending? with
  | some (.reported time) => some ⟨a.entry.ticket, a.entry.awaited, time⟩
  | some (.takenOut _) | none => none

/-- A request is reported at its deadline, taken out before it, or neither, and then the
deadline is still to come at the given time. -/
def OnTime (a : Course) (now : Nat) : Prop :=
  match a.ending? with
  | some (.reported time) => time = a.entry.deadline
  | some (.takenOut time) => a.time ≤ time ∧ time < a.entry.deadline
  | none => now < a.entry.deadline

end Course

/-- A table whose hook makes no request again, and whose deadlines are all still to come. -/
structure Punctual (r : Rehearsal) (timeout : Nat) : Prop where
  shaped : r.timeline.table.Shaped
  passive : r.timeline.retries = 0
  limited : r.timeline.table.timeout = timeout
  due : ∀ e ∈ r.timeline.table.entries,
    r.timeline.now < e.deadline ∧ e.deadline ≤ r.timeline.now + timeout

variable {r : Rehearsal} {s : Stage} {timeout : Nat} {e : Entry} {steps : List Step}

theorem Punctual.start (timeout : Nat) : (start timeout 0).Punctual timeout where
  shaped := Table.Shaped.empty timeout
  passive := rfl
  limited := rfl
  due := nofun

/-! ## The deed of a stage -/

namespace Stage

theorem now_settled (s : Stage) : s.settled.now = s.before.timeline.now := by
  unfold settled
  cases s.step <;> rfl

theorem retries_settled (s : Stage) : s.settled.retries = s.before.timeline.retries := by
  unfold settled
  cases s.step <;> rfl

theorem timeline_after (s : Stage) : s.after.timeline = (s.settled.advance s.span).2 := by
  obtain ⟨before, step⟩ := s
  cases step <;> rfl

/-- The owner sees the calls of the hook, if in another order. -/
theorem observed_perm (s : Stage) : (s.before.step s.step).1.expiries.Perm s.reports := by
  obtain ⟨before, step⟩ := s
  cases step <;> exact List.mergeSort_perm _ _

/-- A deed keeps slots of the table, or it records a request. -/
theorem settled_keep_or_record (h : s.before.timeline.table.Shaped) :
    (∃ p, s.settled.table = s.before.timeline.table.keep p) ∨
      ∃ awaited ticket, s.before.timeline.table.record? s.before.timeline.now awaited =
        some (ticket, s.settled.table) := by
  obtain ⟨before, step⟩ := s
  cases step with
  | act action =>
    rcases Action.perform_cases h before.timeline.now before.tickets action with
      ⟨p, htable, -⟩ | ⟨awaited, ticket, hrecord, -⟩
    · exact .inl ⟨p, htable⟩
    · exact .inr ⟨awaited, ticket, hrecord⟩
  | advance milliseconds => exact .inl ⟨fun _ => true, (Table.keep_true _).symm⟩

/-- What a deed does to the pending requests: it takes some out, or puts one in, which then
has all its time. -/
structure Settles (s : Stage) (timeout : Nat) : Prop where
  shaped : s.settled.table.Shaped
  limited : s.settled.table.timeout = timeout
  entries : s.settled.table.entries.Perm
    ((s.before.timeline.table.entries.filter fun e => e ∉ s.removed) ++ s.admitted)
  fresh : ∀ e ∈ s.admitted, e.deadline = s.before.timeline.now + timeout

theorem settles (h : s.before.Punctual timeout) : s.Settles timeout := by
  rcases settled_keep_or_record h.shaped with ⟨p, htable⟩ | ⟨awaited, ticket, hrecord⟩
  · have hadmitted : s.admitted = [] := by
      rw [admitted, htable]
      apply List.filter_eq_nil_iff.mpr
      intro e he
      rw [h.shaped.entries_keep] at he
      simpa using List.mem_of_mem_filter he
    refine ⟨htable ▸ h.shaped.keep p, htable ▸ h.limited, ?_, by simp [hadmitted]⟩
    have hkept : s.settled.table.entries =
        s.before.timeline.table.entries.filter fun e => e ∉ s.removed := by
      rw [removed, htable, h.shaped.missing_keep, h.shaped.entries_keep]
      apply List.filter_congr
      intro e he
      simp [he]
    rw [hadmitted, List.append_nil, hkept]
  · obtain ⟨hshaped, hentries⟩ := h.shaped.record hrecord
    obtain ⟨hfree, -, htable⟩ := h.shaped.record?_eq_some_iff.mp hrecord
    have hnew : s.before.timeline.table.nextEntry s.before.timeline.now awaited ∉
        s.before.timeline.table.entries := fun hmem => hfree _ hmem rfl
    have hadmitted : s.admitted =
        [s.before.timeline.table.nextEntry s.before.timeline.now awaited] := by
      rw [admitted, Table.missing, hentries, List.filter_cons_of_pos (by simpa using hnew)]
      simp
    have hremoved : s.removed = [] := h.shaped.missing_record hrecord
    refine ⟨hshaped, htable ▸ h.limited, ?_, ?_⟩
    · rw [hadmitted, hremoved, hentries]
      simpa using (List.perm_append_singleton _ _).symm
    · intro e he
      rw [hadmitted, List.mem_singleton] at he
      rw [he, ← h.limited]
      rfl

theorem Settles.due (hs : s.Settles timeout) (h : s.before.Punctual timeout) {e : Entry}
    (he : e ∈ s.settled.table.entries) :
    s.before.timeline.now ≤ e.deadline ∧ e.deadline ≤ s.before.timeline.now + timeout := by
  rcases List.mem_append.mp (hs.entries.subset he) with hold | hnew
  · have hdue := h.due e (List.mem_of_mem_filter hold)
    omega
  · have hdeadline := hs.fresh e hnew
    omega

/-! ## The timers of a stage -/

theorem now_after (s : Stage) : s.after.timeline.now = s.before.timeline.now + s.span := by
  rw [timeline_after, ← now_settled]
  rfl

theorem now_le_after (s : Stage) : s.before.timeline.now ≤ s.after.timeline.now := by
  rw [now_after]
  exact Nat.le_add_right _ _

theorem reports_perm (hs : s.Settles timeout) (h : s.before.Punctual timeout) :
    s.reports.Perm ((s.settled.table.entries.filter fun e =>
      e.deadline ≤ s.after.timeline.now).map Entry.expiry) := by
  rw [now_after, ← now_settled]
  exact (Timeline.run_of_passive hs.shaped (s.retries_settled.trans h.passive)).1

theorem reports_ordered (hs : s.Settles timeout) (h : s.before.Punctual timeout) :
    s.reports.Pairwise fun a b => a.time ≤ b.time :=
  (Timeline.run_of_passive hs.shaped (s.retries_settled.trans h.passive)).2.1

theorem table_after (hs : s.Settles timeout) (h : s.before.Punctual timeout) :
    s.after.timeline.table = s.settled.table.dueAfter s.after.timeline.now := by
  rw [now_after, ← now_settled, timeline_after]
  exact (Timeline.run_of_passive hs.shaped (s.retries_settled.trans h.passive)).2.2.1

theorem entries_after (hs : s.Settles timeout) (h : s.before.Punctual timeout) :
    s.after.timeline.table.entries =
      s.settled.table.entries.filter fun e => s.after.timeline.now < e.deadline := by
  rw [table_after hs h, hs.shaped.entries_dueAfter]

/-- After a stage all deadlines are still to come. -/
theorem punctual_after (h : s.before.Punctual timeout) : s.after.Punctual timeout := by
  have hs := settles h
  refine ⟨?_, ?_, ?_, ?_⟩
  · rw [table_after hs h]
    exact hs.shaped.keep _
  · rw [timeline_after]
    exact (Timeline.run_of_passive hs.shaped (s.retries_settled.trans h.passive)).2.2.2
  · rw [table_after hs h]
    exact hs.limited
  · intro e he
    rw [entries_after hs h, List.mem_filter] at he
    have hdue := hs.due h he.1
    have hlate : s.after.timeline.now < e.deadline := of_decide_eq_true he.2
    have hnow := s.now_after
    omega

/-- Whatever the owner did not take out is reported at its deadline, if the stage gets there. -/
theorem ending?_of_settled (hs : s.Settles timeout) (h : s.before.Punctual timeout)
    (he : e ∈ s.settled.table.entries) :
    s.ending? e =
      if e.deadline ≤ s.after.timeline.now then some (.reported e.deadline) else none := by
  have hkept : e ∉ s.removed := by
    intro hmem
    have hgone := (List.mem_filter.mp hmem).2
    simp [he] at hgone
  have hown : ∀ x ∈ s.reports, x.ticket = e.ticket →
      x = e.expiry ∧ e.deadline ≤ s.after.timeline.now := by
    intro x hx hticket
    obtain ⟨f, hf, rfl⟩ := List.mem_map.mp ((reports_perm hs h).subset hx)
    rw [List.mem_filter] at hf
    obtain rfl := hs.shaped.eq_of_ticket hf.1 he hticket
    exact ⟨rfl, of_decide_eq_true hf.2⟩
  rw [ending?, if_neg hkept]
  split
  · rename_i hdue
    have hmem : e.expiry ∈ s.reports := by
      apply (reports_perm hs h).symm.subset
      exact List.mem_map_of_mem (List.mem_filter.mpr ⟨he, decide_eq_true hdue⟩)
    rw [Table.find?_of_unique hmem (decide_eq_true rfl)
      fun x hx hticket => (hown x hx (of_decide_eq_true hticket)).1]
    rfl
  · rename_i hlate
    rw [Option.map_eq_none_iff, List.find?_eq_none]
    intro x hx hticket
    exact hlate (hown x hx (of_decide_eq_true hticket)).2

theorem now_le_time (hs : s.Settles timeout) (h : s.before.Punctual timeout) {x : Expiry}
    (hx : x ∈ s.reports) : s.before.timeline.now ≤ x.time ∧ x.time ≤ s.after.timeline.now := by
  obtain ⟨e, he, rfl⟩ := List.mem_map.mp ((reports_perm hs h).subset hx)
  rw [List.mem_filter] at he
  exact ⟨(hs.due h he.1).1, of_decide_eq_true he.2⟩

end Stage

/-! ## Courses -/

theorem follow_of_ending {first : Step} {ending : Ending}
    (hending : (Stage.mk r first).ending? e = some ending) :
    r.follow (first :: steps) e = ⟨r.timeline.now, e, some ending⟩ := by
  simp [follow, stages, hending]

theorem follow_of_stay {first : Step} (hstay : (Stage.mk r first).ending? e = none) :
    (r.follow (first :: steps) e).ending? =
      ((Stage.mk r first).after.follow steps e).ending? := by
  simp only [follow, stages, List.findSome?_cons, hstay]

/-- What holds of a request that is followed: it ends on time, and if it does not end, it is
pending after the run. -/
structure Course.Kept (a : Course) (final : Timeline) : Prop where
  onTime : a.OnTime final.now
  pending : a.ending? = none → a.entry ∈ final.table.entries

/-- A request that stays may as well be followed from a later time on. -/
theorem Course.Kept.of_later {a b : Course} {final : Timeline} (hb : b.Kept final)
    (hentry : a.entry = b.entry) (hending : a.ending? = b.ending?) (htime : a.time ≤ b.time) :
    a.Kept final := by
  obtain ⟨honTime, hpending⟩ := hb
  refine ⟨?_, by rwa [hending, hentry]⟩
  unfold OnTime at honTime ⊢
  rw [hending, hentry]
  split at honTime
  · exact honTime
  · exact ⟨Nat.le_trans htime honTime.1, honTime.2⟩
  · exact honTime

/-- A request that the owner left in the table ends on time, if those do that stay. -/
theorem Punctual.kept_of_settled {first : Step} {final : Timeline} (h : r.Punctual timeout)
    (hrest : ∀ e ∈ (Stage.mk r first).after.timeline.table.entries,
      ((Stage.mk r first).after.follow steps e).Kept final)
    (he : e ∈ (Stage.mk r first).settled.table.entries) :
    (r.follow (first :: steps) e).Kept final := by
  have hs := Stage.settles (s := ⟨r, first⟩) h
  have hending := Stage.ending?_of_settled hs h he
  by_cases hdue : e.deadline ≤ (Stage.mk r first).after.timeline.now
  · rw [if_pos hdue] at hending
    rw [follow_of_ending hending]
    exact ⟨rfl, nofun⟩
  · rw [if_neg hdue] at hending
    have hstays : e ∈ (Stage.mk r first).after.timeline.table.entries := by
      rw [Stage.entries_after hs h, List.mem_filter]
      exact ⟨he, decide_eq_true (Nat.lt_of_not_le hdue)⟩
    refine (hrest e hstays).of_later rfl (follow_of_stay hending) ?_
    exact Stage.now_le_after ⟨r, first⟩

/-- A pending request ends on time. -/
theorem Punctual.kept (h : r.Punctual timeout) (he : e ∈ r.timeline.table.entries) :
    (r.follow steps e).Kept (r.steps steps).2.timeline := by
  induction steps generalizing r e with
  | nil => exact ⟨(h.due e he).1, fun _ => he⟩
  | cons first rest ih =>
    by_cases hremoved : e ∈ (Stage.mk r first).removed
    · have hending : (Stage.mk r first).ending? e = some (.takenOut r.timeline.now) := by
        rw [Stage.ending?, if_pos hremoved]
      rw [follow_of_ending hending]
      exact ⟨⟨Nat.le_refl _, (h.due e he).1⟩, nofun⟩
    · refine h.kept_of_settled (fun f hf => ih (Stage.punctual_after h) hf) ?_
      by_contra hgone
      exact hremoved (List.mem_filter.mpr ⟨he, decide_eq_true hgone⟩)

/-- Every request that is admitted in a run has its whole time, and ends on time. -/
theorem Punctual.kept_of_admitted (h : r.Punctual timeout) (steps : List Step) :
    ∀ a ∈ r.admissions steps, a.entry.deadline = a.time + timeout ∧
      a.Kept (r.steps steps).2.timeline := by
  induction steps generalizing r with
  | nil => nofun
  | cons first rest ih =>
    intro a ha
    rcases List.mem_append.mp ha with hfirst | hlater
    · obtain ⟨e, he, rfl⟩ := List.mem_map.mp hfirst
      have hs := Stage.settles (s := ⟨r, first⟩) h
      have hsettled : e ∈ (Stage.mk r first).settled.table.entries :=
        hs.entries.symm.subset (List.mem_append_right _ he)
      refine ⟨hs.fresh e he, h.kept_of_settled ?_ hsettled⟩
      exact fun f hf => (Stage.punctual_after h).kept hf
    · exact ih (Stage.punctual_after h) a hlater

/-! ## The calls of the hook -/

theorem Course.expiry?_congr {a b : Course} (hentry : a.entry = b.entry)
    (hending : a.ending? = b.ending?) : a.expiry? = b.expiry? := by
  rw [expiry?, expiry?, hentry, hending]

/-- What the owner left in the table is reported in a stage or stays. -/
theorem Punctual.expiries_of_settled (h : r.Punctual timeout) (first : Step) (steps : List Step) :
    ((Stage.mk r first).settled.table.entries.filterMap fun e =>
        (r.follow (first :: steps) e).expiry?).Perm
      ((Stage.mk r first).reports ++
        (Stage.mk r first).after.timeline.table.entries.filterMap fun e =>
          ((Stage.mk r first).after.follow steps e).expiry?) := by
  have hs := Stage.settles (s := ⟨r, first⟩) h
  have hending := fun e he => Stage.ending?_of_settled (e := e) hs h he
  have hsplit := (List.filter_append_perm
    (fun e : Entry => e.deadline ≤ (Stage.mk r first).after.timeline.now)
    (Stage.mk r first).settled.table.entries).symm.filterMap
      fun e => (r.follow (first :: steps) e).expiry?
  rw [List.filterMap_append] at hsplit
  refine hsplit.trans (List.Perm.append ?_ ?_)
  · have hreported : ((Stage.mk r first).settled.table.entries.filter fun e =>
          e.deadline ≤ (Stage.mk r first).after.timeline.now).filterMap
          (fun e => (r.follow (first :: steps) e).expiry?) =
        ((Stage.mk r first).settled.table.entries.filter fun e =>
          e.deadline ≤ (Stage.mk r first).after.timeline.now).map Entry.expiry := by
      rw [← List.filterMap_eq_map]
      apply List.filterMap_congr
      intro e he
      rw [List.mem_filter] at he
      rw [follow_of_ending ((hending e he.1).trans (if_pos (of_decide_eq_true he.2)))]
      rfl
    rw [hreported]
    exact (Stage.reports_perm hs h).symm
  · rw [Stage.entries_after hs h]
    have hlate : ((Stage.mk r first).settled.table.entries.filter fun e =>
          !decide (e.deadline ≤ (Stage.mk r first).after.timeline.now)) =
        (Stage.mk r first).settled.table.entries.filter fun e =>
          (Stage.mk r first).after.timeline.now < e.deadline := by
      apply List.filter_congr
      intro e _
      rw [← decide_not]
      exact decide_eq_decide.mpr Nat.not_le
    rw [hlate]
    apply List.Perm.of_eq
    apply List.filterMap_congr
    intro e he
    rw [List.mem_filter] at he
    have hstays := Nat.not_le.mpr (of_decide_eq_true he.2)
    exact Course.expiry?_congr rfl (follow_of_stay ((hending e he.1).trans (if_neg hstays)))

/-- What the owner took out in a stage is not reported. -/
theorem Punctual.expiries_of_before (h : r.Punctual timeout) (first : Step) (steps : List Step) :
    ((Stage.mk r first).settled.table.entries.filterMap fun e =>
        (r.follow (first :: steps) e).expiry?).Perm
      (r.timeline.table.entries.filterMap (fun e => (r.follow (first :: steps) e).expiry?) ++
        (Stage.mk r first).admitted.filterMap fun e =>
          (r.follow (first :: steps) e).expiry?) := by
  have hs := Stage.settles (s := ⟨r, first⟩) h
  have hsplit := hs.entries.filterMap fun e => (r.follow (first :: steps) e).expiry?
  rw [List.filterMap_append, List.filterMap_filter] at hsplit
  refine hsplit.trans (List.Perm.append_right _ (List.Perm.of_eq ?_))
  apply List.filterMap_congr
  intro e he
  by_cases hremoved : e ∈ (Stage.mk r first).removed
  · have hending : (Stage.mk r first).ending? e = some (.takenOut r.timeline.now) := by
      rw [Stage.ending?, if_pos hremoved]
    rw [follow_of_ending hending]
    simp [hremoved, Course.expiry?]
  · simp [hremoved]

/-- The hook is called once for each request whose course ends with such a call, and at no
other time. -/
theorem Punctual.reports_perm (h : r.Punctual timeout) (steps : List Step) :
    (r.reports steps).Perm
      (r.timeline.table.entries.filterMap (fun e => (r.follow steps e).expiry?) ++
        (r.admissions steps).filterMap Course.expiry?) := by
  induction steps generalizing r with
  | nil => simp [reports, stages, follow, admissions, Course.expiry?]
  | cons first rest ih =>
    have hrest := ih (Stage.punctual_after (s := ⟨r, first⟩) h)
    -- What is in the table after the deed is counted from both sides: as what was there before
    -- or came in with the deed, and as what is reported in this stage or stays.
    have hstage := (h.expiries_of_settled first rest).symm.trans (h.expiries_of_before first rest)
    have hall := (hrest.append_left (Stage.mk r first).reports).trans
      (List.append_assoc _ _ _ ▸ hstage.append_right _)
    simpa [reports, stages, admissions, List.filterMap_map, Function.comp_def] using hall

/-- The hook is called in the order of time. -/
theorem Punctual.reports_ordered (h : r.Punctual timeout) (steps : List Step) :
    (r.reports steps).Pairwise (fun a b => a.time ≤ b.time) ∧
      ∀ x ∈ r.reports steps, r.timeline.now ≤ x.time := by
  induction steps generalizing r with
  | nil => exact ⟨List.Pairwise.nil, nofun⟩
  | cons first rest ih =>
    have hs := Stage.settles (s := ⟨r, first⟩) h
    obtain ⟨hordered, hlater⟩ := ih (Stage.punctual_after (s := ⟨r, first⟩) h)
    have hnow := Stage.now_le_after ⟨r, first⟩
    refine ⟨List.pairwise_append.mpr ⟨Stage.reports_ordered hs h, hordered, ?_⟩, ?_⟩
    · intro x hx y hy
      exact Nat.le_trans (Stage.now_le_time hs h hx).2 (hlater y hy)
    · intro x hx
      rcases List.mem_append.mp hx with hx | hx
      · exact (Stage.now_le_time hs h hx).1
      · exact Nat.le_trans hnow (hlater x hx)

/-! ## Exact timeouts -/

theorem punctual_of_mem_stages (h : r.Punctual timeout) :
    ∀ s ∈ r.stages steps, s.before.Punctual timeout := by
  induction steps generalizing r with
  | nil => nofun
  | cons first rest ih =>
    intro s hs
    rcases List.mem_cons.mp hs with rfl | hs
    · exact h
    · exact ih (Stage.punctual_after h) s hs

theorem Course.time_of_expiry? {a : Course} {final : Timeline} {x : Expiry} (ha : a.Kept final)
    (hx : a.expiry? = some x) : x.time = a.entry.deadline := by
  have honTime := ha.onTime
  unfold OnTime at honTime
  unfold expiry? at hx
  split at hx
  · rename_i time hending
    cases hx
    rw [hending] at honTime
    exact honTime
  · cases hx
  · cases hx

/-- Whatever the owner does, and however the clock moves: a request that was admitted at some
time is reported exactly when the timeout has gone by, unless the owner took it out before,
and it is reported once. Whatever is left after a step has a deadline that is still to come,
so that no request is left after a move of the clock that is as long as the timeout. Of two
requests that are both reported, the one that was admitted earlier is reported first. -/
theorem reported_at_deadline (timeout : Nat) (steps : List Step) :
    let r := Rehearsal.start timeout 0
    let final := (r.steps steps).2.timeline
    (∀ a ∈ r.admissions steps, a.entry.deadline = a.time + timeout ∧ a.OnTime final.now ∧
      (a.ending? = none → a.entry ∈ final.table.entries)) ∧
    (r.reports steps).Perm ((r.admissions steps).filterMap Course.expiry?) ∧
    (∀ a ∈ r.admissions steps, ∀ b ∈ r.admissions steps, a.time < b.time →
      ∀ x y, a.expiry? = some x → b.expiry? = some y →
        ∀ earlier later, r.reports steps = earlier ++ x :: later → y ∈ later) ∧
    ∀ s ∈ r.stages steps,
      (s.before.step s.step).1.expiries.Perm s.reports ∧
      (∀ e ∈ s.after.timeline.table.entries, s.after.timeline.now < e.deadline) ∧
      ∀ milliseconds, s.step = .advance milliseconds → timeout ≤ milliseconds →
        s.after.timeline.table.isEmpty = true := by
  intro r final
  have h : r.Punctual timeout := Punctual.start timeout
  have hkept := h.kept_of_admitted steps
  have hperm : (r.reports steps).Perm ((r.admissions steps).filterMap Course.expiry?) :=
    h.reports_perm steps
  refine ⟨?_, hperm, ?_, ?_⟩
  · intro a ha
    obtain ⟨hdeadline, honTime, hpending⟩ := hkept a ha
    exact ⟨hdeadline, honTime, hpending⟩
  · intro a ha b hb hlt x y hx hy earlier later hsplit
    obtain ⟨hadeadline, hakept⟩ := hkept a ha
    obtain ⟨hbdeadline, hbkept⟩ := hkept b hb
    have hxtime := Course.time_of_expiry? hakept hx
    have hytime := Course.time_of_expiry? hbkept hy
    have hmem : y ∈ r.reports steps :=
      hperm.symm.subset (List.mem_filterMap.mpr ⟨b, hb, hy⟩)
    have hordered := (h.reports_ordered steps).1
    rw [hsplit] at hmem hordered
    rcases List.mem_append.mp hmem with hearlier | hmem
    · -- Nothing is reported before `x` whose time is later.
      have hle := (List.pairwise_append.mp hordered).2.2 y hearlier x List.mem_cons_self
      omega
    · rcases List.mem_cons.mp hmem with rfl | hlater
      · omega
      · exact hlater
  · intro s hs
    have hpunctual := Stage.punctual_after (punctual_of_mem_stages h s hs)
    refine ⟨s.observed_perm, fun e he => (hpunctual.due e he).1, ?_⟩
    intro milliseconds hstep hlong
    have hbefore := punctual_of_mem_stages h s hs
    have hsettles := Stage.settles hbefore
    have hspan : s.span = milliseconds := by simp [Stage.span, hstep]
    have hnow := s.now_after
    rw [hpunctual.shaped.isEmpty_iff, Table.length, Stage.entries_after hsettles hbefore,
      List.length_eq_zero_iff, List.filter_eq_nil_iff]
    intro e he
    have hdue := hsettles.due hbefore he
    rw [decide_eq_true_eq]
    omega

/-- A request that runs out of time, a later one under another key that does so after it, and
one that is answered in time. -/
def threeRequests : List Step :=
  [.act (.add ⟨0x800C⟩ 2), .advance 40, .act (.add ⟨0x8026⟩ 2), .act (.add ⟨0x8009⟩ 3),
    .act (.remove ⟨0x800B⟩ 3), .advance 100]

theorem reported_of_threeRequests :
    let r := Rehearsal.start 100 0
    let ttl : Expiry := ⟨⟨⟨.defaultTtl, 2⟩, 1⟩, ⟨.defaultTtlGet, 2⟩, 100⟩
    let relay : Expiry := ⟨⟨⟨.relay, 2⟩, 2⟩, ⟨.relayGet, 2⟩, 140⟩
    let last : Stage := ⟨(r.steps (threeRequests.take 5)).2, .advance 100⟩
    (r.admissions threeRequests).map (fun a => (a.time, a.ending?)) =
        [(0, some (.reported 100)), (40, some (.reported 140)), (40, some (.takenOut 40))] ∧
      (r.reports threeRequests).Perm [ttl, relay] ∧
      (∀ earlier later, r.reports threeRequests = earlier ++ ttl :: later → relay ∈ later) ∧
      last ∈ r.stages threeRequests ∧ last.after.timeline.table.isEmpty = true := by
  intro r ttl relay last
  obtain ⟨-, hperm, hordered, hstages⟩ := reported_at_deadline 100 threeRequests
  have hcourses : r.admissions threeRequests =
      [⟨0, ⟨1, ⟨.defaultTtlGet, 2⟩, 100⟩, some (.reported 100)⟩,
        ⟨40, ⟨2, ⟨.relayGet, 2⟩, 140⟩, some (.reported 140)⟩,
        ⟨40, ⟨3, ⟨.beaconGet, 3⟩, 140⟩, some (.takenOut 40)⟩] := by
    decide +kernel
  have hlast : last ∈ r.stages threeRequests := by decide +kernel
  rw [hcourses] at hperm
  refine ⟨by rw [hcourses]; rfl, hperm, ?_, hlast, (hstages last hlast).2.2 100 rfl (by decide)⟩
  refine hordered ⟨0, ⟨1, ⟨.defaultTtlGet, 2⟩, 100⟩, some (.reported 100)⟩ ?_
    ⟨40, ⟨2, ⟨.relayGet, 2⟩, 140⟩, some (.reported 140)⟩ ?_ (by decide) ttl relay rfl rfl
  · rw [hcourses]
    exact List.mem_cons_self
  · rw [hcourses]
    exact List.mem_cons_of_mem _ List.mem_cons_self

end MeshFoundation.Pending.Rehearsal
