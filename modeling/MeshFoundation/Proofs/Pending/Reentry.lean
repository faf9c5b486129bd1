import MeshFoundation.Proofs.Pending.Deadline
import MeshFoundation.Proofs.Pending.Query

/-!
# Hooks that make requests again

The table lets go of a request before it calls the hook with it. Whatever the hook does then, it
finds the key of the request free, so that the same request can be made again at once
(`Watch.free_for_hook`).

With a hook that makes the requests under a key again as long as the key has retries left, a
request goes through a row of such repetitions, each with the whole timeout, until its key has no
retry left (`Timeline.Repeating`). Then the key is free, and what runs out of time under it from
then on was admitted by the owner since (`Timeline.Spent`). A stop of the clock moves a row on by
one place or belongs to another key. Everything that the clock and the owner do later is put
together of such stops, so that the row runs out at its times however the clock gets there
(`Rehearsal.hook_may_reenter`).
-/

set_option autoImplicit false

namespace MeshFoundation.Pending

/-- What the hook sees of a call. -/
def Expiry.call (x : Expiry) : Awaited × Nat := (x.awaited, x.time)

/-- The calls of the hook under a key. -/
def callsUnder (key : Key) (expiries : List Expiry) : List Expiry :=
  expiries.filter fun x => x.awaited.key = key

/-! ## What the hook finds -/

namespace Watch

variable {w : Watch} {left : List Ticket} {e : Entry}

/-- When the hook is called with a request, the key of the request is free, and the same request
is admitted again whenever the hook asks for it. Its new ticket was not given out before, unless
the numbers have run over. -/
theorem free_for_hook (h : w.table.Balanced w.tickets left) (he : e ∈ w.table.entries) :
    (w.without e.ticket).table.under e.awaited.key = [] ∧
      ∀ (now : Nat) (op : Opcode), op.reliable = e.awaited.request.opcode →
        ∃ ticket t, (w.without e.ticket).table.add now op e.awaited.node = (.admitted ticket, t) ∧
          ticket.key = e.awaited.key ∧ (w.tickets.length + 1 < 2 ^ 64 → ticket ∉ w.tickets) := by
  have hfree := h.shaped.under_without_of_mem he
  refine ⟨hfree, ?_⟩
  intro now op hop
  have hbalanced : (w.without e.ticket).table.Balanced w.tickets _ := h.keep _
  have hrecord : (w.without e.ticket).table.record? now e.awaited = some _ :=
    hbalanced.shaped.record?_eq_some_iff.mpr ⟨Table.under_eq_nil_iff.mp hfree, rfl, rfl⟩
  have hawaited : Awaited.ofOpcode? op e.awaited.node = some e.awaited :=
    Awaited.ofOpcode?_eq_some_iff.mpr ⟨hop.symm, rfl⟩
  have hslot : (w.without e.ticket).table.slot? e.awaited.key = none :=
    hbalanced.shaped.slot?_eq_none_iff.mpr (Table.under_eq_nil_iff.mp hfree)
  obtain ⟨t, hadd, -, -⟩ := hbalanced.shaped.add_of_free hawaited hslot now
  refine ⟨_, t, hadd, rfl, ?_⟩
  intro hfew hissued
  have hnodup := (hbalanced.record hrecord).issued_nodup (by simpa using hfew)
  exact (List.nodup_append.mp hnodup).2.2 _ hissued _ (List.mem_singleton_self _) rfl

end Watch

/-! ## One stop of the clock -/

namespace Timeline

variable {tl tl' : Timeline} {limit timeout retries : Nat} {expiry : Expiry} {key : Key}
  {e : Entry} {awaited : Awaited}

/-- A table that is shaped as it should be, with the given timeout and number of retries. -/
structure Regular (tl : Timeline) (timeout retries : Nat) : Prop where
  shaped : tl.table.Shaped
  timeout : tl.table.timeout = timeout
  retries : tl.retries = retries

/-- The requests that come into the table when a request runs out of time at its deadline: the
same request if its key has retries left. -/
def again (tl : Timeline) (e : Entry) : List Entry :=
  if tl.retriesLeft e.awaited.key = 0 then [] else [tl.table.nextEntry e.deadline e.awaited]

/-- What happens when the clock stops at the deadline of a request. -/
structure Stop (tl : Timeline) (limit : Nat) (e : Entry) (tl' : Timeline) : Prop where
  pending : e ∈ tl.table.entries
  due : e.deadline ≤ limit
  shaped : tl'.table.Shaped
  entries : tl'.table.entries = tl.again e ++ (tl.table.without e.ticket).entries
  expired : tl'.expired = e.awaited.key :: tl.expired
  timeout : tl'.table.timeout = tl.table.timeout
  retries : tl'.retries = tl.retries

/-- A request whose key is free is made again if the key has retries left. -/
theorem retry_of_free (tl : Timeline) (h : tl.table.Shaped)
    (hfree : tl.table.under awaited.key = []) :
    (tl.retry awaited).Shaped ∧ (tl.retry awaited).timeout = tl.table.timeout ∧
      (tl.retry awaited).entries =
        (if tl.retriesLeft awaited.key = 0 then [] else [tl.table.nextEntry tl.now awaited]) ++
          tl.table.entries := by
  have hrecord : tl.table.record? tl.now awaited = some _ :=
    h.record?_eq_some_iff.mpr ⟨Table.under_eq_nil_iff.mp hfree, rfl, rfl⟩
  unfold retry
  split
  · exact ⟨h, rfl, rfl⟩
  · obtain ⟨hshaped, hentries⟩ := h.record hrecord
    rw [hrecord]
    exact ⟨hshaped, rfl, hentries⟩

theorem stop_of_next? (h : tl.table.Shaped) (hnext : tl.next? limit = some (expiry, tl')) :
    ∃ e, expiry = e.expiry ∧ tl.Stop limit e tl' := by
  obtain ⟨e, he, hlimit, -, hexpiry, rfl⟩ := exists_of_next? h hnext
  have hleft : (tl.table.without e.ticket).Shaped := h.keep _
  obtain ⟨hshaped, htimeout, hentries⟩ :=
    retry_of_free { tl with now := e.deadline, table := tl.table.without e.ticket } hleft
      (h.under_without_of_mem he)
  exact ⟨e, hexpiry, he, hlimit, hshaped, hentries, rfl, htimeout, rfl⟩

theorem Stop.regular (hstop : tl.Stop limit e tl') (h : tl.Regular timeout retries) :
    tl'.Regular timeout retries :=
  ⟨hstop.shaped, hstop.timeout.trans h.timeout, hstop.retries.trans h.retries⟩

/-- A stop changes nothing under other keys. -/
theorem Stop.mem_of_other (hstop : tl.Stop limit e tl') (hother : e.awaited.key ≠ key) {f : Entry}
    (hkey : f.awaited.key = key) (h : tl.table.Shaped) :
    f ∈ tl'.table.entries ↔ f ∈ tl.table.entries := by
  have hagain : f ∉ tl.again e := by
    unfold again
    split
    · exact List.not_mem_nil
    · rw [List.mem_singleton]
      rintro rfl
      exact hother hkey
  have hticket : f.ticket ≠ e.ticket := by
    intro heq
    exact hother ((congrArg Ticket.key heq).symm.trans hkey)
  rw [hstop.entries, h.entries_without, List.mem_append, List.mem_filter]
  simp [hagain, hticket]

/-- After a stop, what is pending under the key of its request is that request made again. -/
theorem Stop.mem_of_own (hstop : tl.Stop limit e tl') (h : tl.table.Shaped) {f : Entry}
    (hkey : f.awaited.key = e.awaited.key) : f ∈ tl'.table.entries ↔ f ∈ tl.again e := by
  rw [hstop.entries, List.mem_append, or_iff_left]
  intro hmem
  have hfree := Table.under_eq_nil_iff.mp (h.under_without_of_mem hstop.pending)
  exact hfree f hmem hkey

theorem Stop.retriesLeft_of_other (hstop : tl.Stop limit e tl') (hother : e.awaited.key ≠ key) :
    tl'.retriesLeft key = tl.retriesLeft key := by
  rw [retriesLeft, retriesLeft, hstop.expired, hstop.retries, List.count_cons_of_ne hother]

theorem Stop.retriesLeft_of_own (hstop : tl.Stop limit e tl') :
    tl'.retriesLeft e.awaited.key = tl.retriesLeft e.awaited.key - 1 := by
  rw [retriesLeft, retriesLeft, hstop.expired, hstop.retries, List.count_cons_self, Nat.sub_sub]

theorem Regular.run (h : tl.Regular timeout retries) (limit : Nat) :
    (tl.run limit).2.Regular timeout retries := by
  fun_induction Timeline.run limit tl with
  | case1 tl hnone => exact h
  | case2 tl expiry tl' hnext expiries final hrun ih =>
    obtain ⟨e, -, hstop⟩ := stop_of_next? h.shaped hnext
    have hfinal := ih (hstop.regular h)
    rwa [hrun] at hfinal

/-! ## The row of a request -/

/-- The calls of the hook, up to some time, with a request that has the given deadline and is
made again as often as the given number says. -/
def repetitions (awaited : Awaited) (timeout limit : Nat) : Nat → Nat → List (Awaited × Nat)
  | 0, deadline => if deadline ≤ limit then [(awaited, deadline)] else []
  | left + 1, deadline =>
    if deadline ≤ limit then
      (awaited, deadline) :: repetitions awaited timeout limit left (deadline + timeout)
    else []

/-- The times of a row are one timeout apart. -/
theorem repetitions_eq (awaited : Awaited) (timeout limit left deadline : Nat) :
    repetitions awaited timeout limit left deadline =
      ((List.range (left + 1)).map fun i => (awaited, deadline + i * timeout)).filter
        fun call => call.2 ≤ limit := by
  induction left generalizing deadline with
  | zero => simp [repetitions, List.filter_cons]
  | succ left ih =>
    have hshift : ∀ i, deadline + timeout + i * timeout = deadline + (i + 1) * timeout := by
      intro i
      rw [Nat.succ_mul]
      omega
    have hrange : List.range (left + 1 + 1) = 0 :: (List.range (left + 1)).map Nat.succ :=
      List.range_succ_eq_map
    rw [repetitions, ih, hrange, List.map_cons, List.map_map, List.filter_cons]
    simp only [Nat.zero_mul, Nat.add_zero, decide_eq_true_eq, Function.comp_def, hshift]
    split
    · rfl
    · -- If the first time is too late, so are all others.
      rename_i hlate
      symm
      rw [List.filter_eq_nil_iff]
      intro call hcall
      obtain ⟨i, -, rfl⟩ := List.mem_map.mp hcall
      rw [decide_eq_true_eq]
      omega

theorem repetitions_of_lt {left deadline : Nat} (h : limit < deadline) :
    repetitions awaited timeout limit left deadline = [] := by
  cases left <;> rw [repetitions, if_neg (by omega)]

theorem callsUnder_cons_of_own {x : Expiry} {expiries : List Expiry} (h : x.awaited.key = key) :
    callsUnder key (x :: expiries) = x :: callsUnder key expiries :=
  List.filter_cons_of_pos (decide_eq_true h)

theorem callsUnder_cons_of_other {x : Expiry} {expiries : List Expiry}
    (h : x.awaited.key ≠ key) : callsUnder key (x :: expiries) = callsUnder key expiries :=
  List.filter_cons_of_neg (mt of_decide_eq_true h)

/-- A request is pending that is made again as often as the given number says. -/
structure Repeating (tl : Timeline) (awaited : Awaited) (left deadline : Nat) : Prop where
  pending : ∃ e ∈ tl.table.entries, e.awaited = awaited ∧ e.deadline = deadline
  left : tl.retriesLeft awaited.key = left

/-- No request under a key is made again, and all that are pending under it are in a list. -/
structure Spent (tl : Timeline) (key : Key) (known : List Entry) : Prop where
  pending : ∀ e ∈ tl.table.entries, e.awaited.key = key → e ∈ known
  left : tl.retriesLeft key = 0

variable {left deadline : Nat} {known : List Entry}

theorem Repeating.stop_of_other (h : tl.Repeating awaited left deadline) (hshaped : tl.table.Shaped)
    (hstop : tl.Stop limit e tl') (hother : e.awaited.key ≠ awaited.key) :
    tl'.Repeating awaited left deadline := by
  obtain ⟨⟨f, hf, rfl, hdeadline⟩, hleft⟩ := h
  refine ⟨⟨f, (hstop.mem_of_other hother rfl hshaped).mpr hf, rfl, hdeadline⟩, ?_⟩
  rw [hstop.retriesLeft_of_other hother, hleft]

/-- When the clock stops at the last request of a row, its key is free. -/
theorem Repeating.stop_of_last (h : tl.Repeating awaited 0 deadline) (hshaped : tl.table.Shaped)
    (hstop : tl.Stop limit e tl') (hown : e.awaited.key = awaited.key) :
    tl'.Spent awaited.key [] := by
  have hagain : tl.again e = [] := by rw [again, hown, if_pos h.left]
  refine ⟨?_, ?_⟩
  · intro f hf hkey
    rwa [hstop.mem_of_own hshaped (hkey.trans hown.symm), hagain] at hf
  · rw [← hown, hstop.retriesLeft_of_own, hown, h.left]

/-- When the clock stops at a request of a row that is not the last one, the request is pending
again with its whole time. -/
theorem Repeating.stop_of_own (h : tl.Repeating awaited (left + 1) deadline)
    (hshaped : tl.table.Shaped) (hstop : tl.Stop limit e tl') (hown : e.awaited = awaited)
    (hdeadline : e.deadline = deadline) :
    tl'.Repeating awaited left (deadline + tl.table.timeout) := by
  subst hown hdeadline
  have hagain : tl.again e = [tl.table.nextEntry e.deadline e.awaited] := by
    rw [again, if_neg (by rw [h.left]; omega)]
  refine ⟨⟨tl.table.nextEntry e.deadline e.awaited, ?_, rfl, rfl⟩, ?_⟩
  · have hkey : (tl.table.nextEntry e.deadline e.awaited).awaited.key = e.awaited.key := rfl
    rw [hstop.mem_of_own hshaped hkey, hagain]
    exact List.mem_singleton_self _
  · rw [hstop.retriesLeft_of_own, h.left, Nat.add_sub_cancel]

/-- The request of a row is the only one under its key. -/
theorem Repeating.of_own (h : tl.Repeating awaited left deadline) (hshaped : tl.table.Shaped)
    (he : e ∈ tl.table.entries) (hkey : e.awaited.key = awaited.key) :
    e.awaited = awaited ∧ e.deadline = deadline := by
  obtain ⟨⟨f, hf, rfl, hdeadline⟩, -⟩ := h
  obtain rfl := hshaped.eq_of_key he hf hkey
  exact ⟨rfl, hdeadline⟩

theorem Spent.stop (h : tl.Spent key known) (hshaped : tl.table.Shaped)
    (hstop : tl.Stop limit e tl') : tl'.Spent key known := by
  by_cases hkey : e.awaited.key = key
  · subst hkey
    refine ⟨?_, by rw [hstop.retriesLeft_of_own, h.left]⟩
    intro f hf hown
    rw [hstop.mem_of_own hshaped hown, again, if_pos h.left] at hf
    cases hf
  · refine ⟨?_, by rw [hstop.retriesLeft_of_other hkey, h.left]⟩
    intro f hf hown
    exact h.pending f ((hstop.mem_of_other hkey hown hshaped).mp hf) hown

/-- What runs out of time under a key without retries was pending, and nothing comes in its
place. -/
theorem Spent.run (h : tl.Spent key known) (hshaped : tl.table.Shaped) (limit : Nat) :
    (tl.run limit).2.Spent key known ∧
      ∀ x ∈ callsUnder key (tl.run limit).1, ∃ e ∈ known, x = e.expiry := by
  fun_induction Timeline.run limit tl with
  | case1 tl hnone =>
    refine ⟨h, ?_⟩
    intro x hx
    cases hx
  | case2 tl expiry tl' hnext expiries final hrun ih =>
    obtain ⟨e, rfl, hstop⟩ := stop_of_next? hshaped hnext
    obtain ⟨hfinal, hcalls⟩ := ih (h.stop hshaped hstop) hstop.shaped
    rw [hrun] at hfinal hcalls
    refine ⟨hfinal, ?_⟩
    intro x hx
    obtain ⟨hmem, hkey⟩ := List.mem_filter.mp hx
    rcases List.mem_cons.mp hmem with rfl | hlater
    · exact ⟨e, h.pending e hstop.pending (of_decide_eq_true hkey), rfl⟩
    · exact hcalls x (List.mem_filter.mpr ⟨hlater, hkey⟩)

/-! ## A move of the clock -/

/-- The calls of the hook with a request that is made again, up to the end of a move of the
clock, and how the move leaves the request: with what is left for it, or with its key free. -/
inductive Progress (awaited : Awaited) (timeout limit left deadline : Nat)
    (calls : List Expiry) (final : Timeline) : Prop where
  | repeating (left' deadline' : Nat) (pending : final.Repeating awaited left' deadline')
      (late : limit < deadline')
      (last : deadline' + left' * timeout = deadline + left * timeout)
      (rest : ∀ now, limit ≤ now → repetitions awaited timeout now left deadline =
        calls.map Expiry.call ++ repetitions awaited timeout now left' deadline')
  | spent (free : final.Spent awaited.key []) (last : deadline + left * timeout ≤ limit)
      (rest : ∀ now, limit ≤ now →
        repetitions awaited timeout now left deadline = calls.map Expiry.call)

/-- The last call with a request. -/
theorem Progress.of_last (hdue : deadline ≤ limit) (hcall : expiry.call = (awaited, deadline))
    (hfree : tl.Spent awaited.key []) : Progress awaited timeout limit 0 deadline [expiry] tl := by
  refine .spent hfree (by omega) fun now hnow => ?_
  rw [repetitions, if_pos (by omega), List.map_singleton, hcall]

/-- A call after which the request is made again. -/
theorem Progress.of_call {calls : List Expiry} (hdue : deadline ≤ limit)
    (hcall : expiry.call = (awaited, deadline))
    (h : Progress awaited timeout limit left (deadline + timeout) calls tl) :
    Progress awaited timeout limit (left + 1) deadline (expiry :: calls) tl := by
  have hlast : deadline + timeout + left * timeout = deadline + (left + 1) * timeout := by
    rw [Nat.succ_mul]
    omega
  have hcons : ∀ now, limit ≤ now →
      repetitions awaited timeout now (left + 1) deadline =
        expiry.call :: repetitions awaited timeout now left (deadline + timeout) := by
    intro now hnow
    rw [repetitions, if_pos (by omega), hcall]
  cases h with
  | repeating left' deadline' pending late last rest =>
    refine .repeating left' deadline' pending late (last.trans hlast) fun now hnow => ?_
    rw [hcons now hnow, rest now hnow]
    rfl
  | spent free last rest =>
    refine .spent free (hlast ▸ last) fun now hnow => ?_
    rw [hcons now hnow, rest now hnow]
    rfl

theorem Repeating.run (h : tl.Repeating awaited left deadline)
    (hregular : tl.Regular timeout retries) (limit : Nat) :
    Progress awaited timeout limit left deadline (callsUnder awaited.key (tl.run limit).1)
      (tl.run limit).2 := by
  fun_induction Timeline.run limit tl generalizing left deadline with
  | case1 tl hnone =>
    obtain ⟨⟨e, he, -, rfl⟩, -⟩ := id h
    have hlate := (next?_eq_none_iff hregular.shaped).mp hnone e he
    exact .repeating left e.deadline h hlate rfl fun _ _ => rfl
  | case2 tl expiry tl' hnext expiries final hrun ih =>
    obtain ⟨e, rfl, hstop⟩ := stop_of_next? hregular.shaped hnext
    have hregular' := hstop.regular hregular
    by_cases hown : e.awaited.key = awaited.key
    · obtain ⟨hawaited, hdeadline⟩ := h.of_own hregular.shaped hstop.pending hown
      have hdue : deadline ≤ limit := hdeadline ▸ hstop.due
      have hcall : e.expiry.call = (awaited, deadline) := Prod.ext hawaited hdeadline
      rw [callsUnder_cons_of_own hown]
      cases left with
      | zero =>
        have hspent := h.stop_of_last hregular.shaped hstop hown
        obtain ⟨hfinal, hnothing⟩ := hspent.run hregular'.shaped limit
        rw [hrun] at hfinal hnothing
        have hnone : callsUnder awaited.key expiries = [] :=
          List.eq_nil_iff_forall_not_mem.mpr fun x hx => by simpa using hnothing x hx
        rw [hnone]
        exact .of_last hdue hcall hfinal
      | succ left =>
        have hagain := h.stop_of_own hregular.shaped hstop hawaited hdeadline
        rw [hregular.timeout] at hagain
        have hlater := ih hagain hregular'
        rw [hrun] at hlater
        exact hlater.of_call hdue hcall
    · have hlater := ih (h.stop_of_other hregular.shaped hstop hown) hregular'
      rw [hrun] at hlater
      rwa [callsUnder_cons_of_other hown]

end Timeline

/-! ## Stages -/

namespace Rehearsal

variable {r : Rehearsal} {s : Stage} {timeout retries left deadline : Nat} {key : Key}
  {awaited : Awaited} {known : List Entry} {steps : List Step}

namespace Stage

theorem retriesLeft_settled (s : Stage) (key : Key) :
    s.settled.retriesLeft key = s.before.timeline.retriesLeft key := by
  unfold settled
  cases s.step <;> rfl

theorem timeline_after_eq (s : Stage) :
    s.after.timeline =
      { (s.settled.run s.after.timeline.now).2 with now := s.after.timeline.now } := by
  rw [now_after, ← now_settled, timeline_after]
  rfl

theorem reports_eq (s : Stage) : s.reports = (s.settled.run s.after.timeline.now).1 := by
  rw [now_after, ← now_settled]
  rfl

theorem regular_settled (h : s.before.timeline.Regular timeout retries) :
    s.settled.Regular timeout retries := by
  have hretries := s.retries_settled.trans h.retries
  rcases settled_keep_or_record h.shaped with ⟨p, htable⟩ | ⟨awaited, ticket, hrecord⟩
  · exact ⟨htable ▸ h.shaped.keep p, htable ▸ h.timeout, hretries⟩
  · obtain ⟨-, -, htable⟩ := h.shaped.record?_eq_some_iff.mp hrecord
    exact ⟨(h.shaped.record hrecord).1, htable ▸ h.timeout, hretries⟩

theorem regular_after (h : s.before.timeline.Regular timeout retries) :
    s.after.timeline.Regular timeout retries := by
  obtain ⟨hshaped, htimeout, hretries⟩ := (regular_settled h).run s.after.timeline.now
  rw [timeline_after_eq]
  exact ⟨hshaped, htimeout, hretries⟩

/-- A request that the owner does not take out goes through a deed as it is. -/
theorem repeating_settled (h : s.before.timeline.Repeating awaited left deadline)
    (hkept : ∀ e ∈ s.removed, e.awaited.key ≠ awaited.key) :
    s.settled.Repeating awaited left deadline := by
  obtain ⟨⟨e, he, rfl, hdeadline⟩, hleft⟩ := h
  refine ⟨⟨e, ?_, rfl, hdeadline⟩, by rw [retriesLeft_settled, hleft]⟩
  by_contra hgone
  exact hkept e (List.mem_filter.mpr ⟨he, decide_eq_true hgone⟩) rfl

/-- What a deed puts in under a key is known from then on. -/
theorem spent_settled (h : s.before.timeline.Spent key known) :
    s.settled.Spent key (known ++ s.admitted) := by
  refine ⟨?_, by rw [retriesLeft_settled, h.left]⟩
  intro e he hkey
  by_cases hbefore : e ∈ s.before.timeline.table.entries
  · exact List.mem_append_left _ (h.pending e hbefore hkey)
  · exact List.mem_append_right _ (List.mem_filter.mpr ⟨he, decide_eq_true hbefore⟩)

/-- Where a stage leaves a request that is made again. -/
theorem progress (h : s.settled.Repeating awaited left deadline)
    (hregular : s.before.timeline.Regular timeout retries) :
    Timeline.Progress awaited timeout s.after.timeline.now left deadline
      (callsUnder awaited.key s.reports) s.after.timeline := by
  rw [reports_eq, timeline_after_eq]
  cases h.run (regular_settled hregular) s.after.timeline.now with
  | repeating left' deadline' pending late last rest =>
    exact .repeating left' deadline' ⟨pending.pending, pending.left⟩ late last rest
  | spent free last rest => exact .spent ⟨free.pending, free.left⟩ last rest

theorem spent_after (h : s.before.timeline.Spent key known)
    (hregular : s.before.timeline.Regular timeout retries) :
    s.after.timeline.Spent key (known ++ s.admitted) ∧
      ∀ x ∈ callsUnder key s.reports, ∃ e ∈ known ++ s.admitted, x = e.expiry := by
  obtain ⟨hspent, hcalls⟩ :=
    (spent_settled h).run (regular_settled hregular).shaped s.after.timeline.now
  rw [reports_eq, timeline_after_eq]
  exact ⟨⟨hspent.pending, hspent.left⟩, hcalls⟩

end Stage

/-! ## Runs -/

theorem regular_steps (h : r.timeline.Regular timeout retries) (steps : List Step) :
    (r.steps steps).2.timeline.Regular timeout retries := by
  induction steps generalizing r with
  | nil => exact h
  | cons first rest ih => exact ih (Stage.regular_after (s := ⟨r, first⟩) h)

theorem now_le_steps (r : Rehearsal) (steps : List Step) :
    r.timeline.now ≤ (r.steps steps).2.timeline.now := by
  induction steps generalizing r with
  | nil => exact Nat.le_refl _
  | cons first rest ih => exact Nat.le_trans (Stage.now_le_after ⟨r, first⟩) (ih _)

theorem callsUnder_append (key : Key) (xs ys : List Expiry) :
    callsUnder key (xs ++ ys) = callsUnder key xs ++ callsUnder key ys :=
  List.filter_append ..

/-- What the owner puts into the table in a run. -/
def admittedIn (r : Rehearsal) (steps : List Step) : List Entry :=
  (r.stages steps).flatMap Stage.admitted

theorem admittedIn_cons (r : Rehearsal) (first : Step) (steps : List Step) :
    r.admittedIn (first :: steps) =
      (Stage.mk r first).admitted ++ (Stage.mk r first).after.admittedIn steps :=
  rfl

theorem callsUnder_reports_cons (key : Key) (r : Rehearsal) (first : Step) (steps : List Step) :
    callsUnder key (r.reports (first :: steps)) =
      callsUnder key (Stage.mk r first).reports ++
        callsUnder key ((Stage.mk r first).after.reports steps) :=
  callsUnder_append ..

/-- Under a key without retries, only those requests run out of time or are left that were
pending before or were admitted since. -/
theorem spent_steps (h : r.timeline.Spent key known)
    (hregular : r.timeline.Regular timeout retries) (steps : List Step) :
    (r.steps steps).2.timeline.Spent key (known ++ r.admittedIn steps) ∧
      ∀ x ∈ callsUnder key (r.reports steps), ∃ e ∈ known ++ r.admittedIn steps,
        x = e.expiry := by
  induction steps generalizing r known with
  | nil =>
    have hnone : known ++ r.admittedIn [] = known := List.append_nil known
    rw [hnone]
    exact ⟨h, fun x hx => absurd hx List.not_mem_nil⟩
  | cons first rest ih =>
    obtain ⟨hafter, hcalls⟩ := Stage.spent_after (s := ⟨r, first⟩) h hregular
    obtain ⟨hspent, hlater⟩ := ih hafter (Stage.regular_after (s := ⟨r, first⟩) hregular)
    rw [admittedIn_cons, ← List.append_assoc]
    refine ⟨hspent, ?_⟩
    intro x hx
    rw [callsUnder_reports_cons] at hx
    rcases List.mem_append.mp hx with hx | hx
    · obtain ⟨e, he, hcall⟩ := hcalls x hx
      exact ⟨e, List.mem_append_left _ he, hcall⟩
    · exact hlater x hx

/-- What becomes of a request that is made again, in a run whose first stage has settled: the
calls up to the end of the run are those of its row, followed by calls with requests that the
owner admitted since, and when the row has come to its end, nothing but such requests is pending
under the key. -/
structure RunsOut (r : Rehearsal) (steps : List Step) (later : List Entry) (awaited : Awaited)
    (timeout left deadline : Nat) : Prop where
  calls : ∃ own others, callsUnder awaited.key (r.reports steps) = own ++ others ∧
    own.map Expiry.call =
      Timeline.repetitions awaited timeout (r.steps steps).2.timeline.now left deadline ∧
    ∀ x ∈ others, ∃ e ∈ later, x = e.expiry
  free : deadline + left * timeout ≤ (r.steps steps).2.timeline.now →
    ∀ e ∈ (r.steps steps).2.timeline.table.entries, e.awaited.key = awaited.key → e ∈ later

/-- After the end of a row the calls are those of later requests. -/
theorem runsOut_of_spent {first : Step} (hregular : r.timeline.Regular timeout retries)
    (hspent : (Stage.mk r first).after.timeline.Spent awaited.key [])
    (hrow : ∀ now, (Stage.mk r first).after.timeline.now ≤ now →
      Timeline.repetitions awaited timeout now left deadline =
        (callsUnder awaited.key (Stage.mk r first).reports).map Expiry.call) :
    r.RunsOut (first :: steps) ((Stage.mk r first).after.admittedIn steps) awaited timeout left
      deadline := by
  obtain ⟨hfinal, hcalls⟩ :=
    spent_steps hspent (Stage.regular_after (s := ⟨r, first⟩) hregular) steps
  refine ⟨⟨_, _, callsUnder_reports_cons .., ?_, hcalls⟩, fun _ => hfinal.pending⟩
  exact (hrow _ (now_le_steps _ steps)).symm

/-- What runs out after a stage comes behind the calls of the stage. -/
theorem RunsOut.cons {first : Step} {since : List Entry} {left' deadline' : Nat}
    (h : (Stage.mk r first).after.RunsOut steps since awaited timeout left' deadline')
    (hlast : deadline' + left' * timeout = deadline + left * timeout)
    (hrow : ∀ now, (Stage.mk r first).after.timeline.now ≤ now →
      Timeline.repetitions awaited timeout now left deadline =
        (callsUnder awaited.key (Stage.mk r first).reports).map Expiry.call ++
          Timeline.repetitions awaited timeout now left' deadline') :
    r.RunsOut (first :: steps) since awaited timeout left deadline := by
  obtain ⟨⟨own, others, hcalls, hown, hothers⟩, hfree⟩ := h
  refine ⟨⟨callsUnder awaited.key (Stage.mk r first).reports ++ own, others, ?_, ?_, hothers⟩, ?_⟩
  · rw [callsUnder_reports_cons, hcalls, List.append_assoc]
  · rw [List.map_append, hown]
    exact (hrow _ (now_le_steps (Stage.mk r first).after steps)).symm
  · intro hend
    exact hfree (hlast ▸ hend)

theorem RunsOut.mono {since more : List Entry}
    (h : r.RunsOut steps since awaited timeout left deadline)
    (hmore : since ⊆ more) : r.RunsOut steps more awaited timeout left deadline := by
  obtain ⟨⟨own, others, hcalls, hown, hothers⟩, hfree⟩ := h
  refine ⟨⟨own, others, hcalls, hown, fun x hx => ?_⟩, fun hend e he hkey => ?_⟩
  · obtain ⟨e, he, hcall⟩ := hothers x hx
    exact ⟨e, hmore he, hcall⟩
  · exact hmore (hfree hend e he hkey)

/-- A request with its time still to come has not run out of it. -/
theorem runsOut_nil {since : List Entry} (hlate : r.timeline.now < deadline) :
    r.RunsOut [] since awaited timeout left deadline where
  calls := ⟨[], [], rfl, (Timeline.repetitions_of_lt hlate).symm, nofun⟩
  free hend := by
    have hnow : deadline + left * timeout ≤ r.timeline.now := hend
    omega

theorem runsOut_of_repeating {first : Step}
    (h : (Stage.mk r first).settled.Repeating awaited left deadline)
    (hregular : r.timeline.Regular timeout retries)
    (hkept : ∀ s ∈ (Stage.mk r first).after.stages steps,
      s.before.timeline.now < deadline + left * timeout →
        ∀ e ∈ s.removed, e.awaited.key ≠ awaited.key) :
    r.RunsOut (first :: steps) ((Stage.mk r first).after.admittedIn steps) awaited timeout left
      deadline := by
  induction steps generalizing r first left deadline with
  | nil =>
    cases Stage.progress h hregular with
    | repeating left' deadline' pending late last hrow =>
      exact (runsOut_nil late).cons last hrow
    | spent free last hrow => exact runsOut_of_spent hregular free hrow
  | cons second rest ih =>
    cases Stage.progress h hregular with
    | repeating left' deadline' pending late last hrow =>
      have hnow : (Stage.mk r first).after.timeline.now < deadline + left * timeout := by omega
      have hsettled : (Stage.mk (Stage.mk r first).after second).settled.Repeating awaited left'
          deadline' :=
        Stage.repeating_settled pending (hkept _ List.mem_cons_self hnow)
      have hlater := ih hsettled (Stage.regular_after (s := ⟨r, first⟩) hregular)
        fun s hs hbefore => hkept s (List.mem_cons_of_mem _ hs) (last ▸ hbefore)
      exact (hlater.mono (List.subset_append_right _ _)).cons last hrow
    | spent free last hrow => exact runsOut_of_spent hregular free hrow

/-! ## Making requests again -/

/-- A request that was admitted under a key without calls has all retries left. -/
theorem repeating_of_admitted {op : Opcode} {ticket : Ticket} {t : Table}
    (h : r.timeline.Regular timeout retries) (hop : op.reliable = awaited.request.opcode)
    (hadd : r.timeline.table.add r.timeline.now op awaited.node = (.admitted ticket, t))
    (hfirst : awaited.key ∉ r.timeline.expired) :
    (Stage.mk r (.act (.add op awaited.node))).settled.Repeating awaited retries
      (r.timeline.now + timeout) := by
  have hawaited : Awaited.ofOpcode? op awaited.node = some awaited :=
    Awaited.ofOpcode?_eq_some_iff.mpr ⟨hop.symm, rfl⟩
  have hsettled : (Stage.mk r (.act (.add op awaited.node))).settled.table =
      (r.timeline.table.add r.timeline.now op awaited.node).2 := rfl
  refine ⟨⟨r.timeline.table.nextEntry r.timeline.now awaited, ?_, rfl, ?_⟩, ?_⟩
  · rw [hsettled]
    cases hslot : r.timeline.table.slot? awaited.key with
    | none =>
      obtain ⟨t', hadmitted, -, hentries⟩ := h.shaped.add_of_free hawaited hslot r.timeline.now
      rw [hadmitted, hentries]
      exact List.mem_cons_self
    | some slot =>
      have htaken : (r.timeline.table.slot? awaited.key).isSome = true := by rw [hslot]; rfl
      rw [Table.add_of_taken hawaited htaken] at hadd
      cases hadd
  · show r.timeline.now + r.timeline.table.timeout = _
    rw [h.timeout]
  · rw [Stage.retriesLeft_settled, Timeline.retriesLeft, List.count_eq_zero_of_not_mem hfirst,
      Nat.sub_zero, h.retries]

theorem regular_start (timeout retries : Nat) :
    (start timeout retries).timeline.Regular timeout retries :=
  ⟨Table.Shaped.empty timeout, rfl, rfl⟩

/-- The calls of the hook with a request that is made at some time, and then again one timeout
after the other. -/
theorem repetitions_from (awaited : Awaited) (timeout limit retries now : Nat) :
    Timeline.repetitions awaited timeout limit retries (now + timeout) =
      ((List.range (retries + 1)).map fun i => (awaited, now + (i + 1) * timeout)).filter
        fun call => call.2 ≤ limit := by
  have hshift : ∀ i, now + timeout + i * timeout = now + (i + 1) * timeout := by
    intro i
    rw [Nat.succ_mul]
    omega
  simp only [Timeline.repetitions_eq, hshift]

/-- In every state that a run reaches, when a timer wakes that is due and finds its request, the
hook is called after the table has let go of the request and has its key free. The same request,
flagged or not, is admitted again whenever the hook asks for it, with a ticket that was not given
out before.

A hook that makes the requests under each key again as often as it has retries is therefore
called with a request that is made under a key without earlier calls, and that the owner does not
take out, once more than there are retries, and always when one more timeout has gone by: up to
any time there are those of these calls whose time has come. Whatever else the hook is called
with under the key, and whatever is pending under it after the last of these calls, was admitted
by the owner since. All this is so for every timeout, with zero among them, and whatever happens
under other keys and however the clock moves in the meantime. -/
theorem hook_may_reenter :
    (∀ (timeout : Nat) (moves : List Move),
      let w := ((Watch.start timeout).run moves).2
      ∀ (now index : Nat) (timer : Timer), w.timers[index]? = some timer → timer.deadline ≤ now →
      ∀ e ∈ w.table.entries, e.ticket = timer.ticket →
        (∀ reentry, w.wake now index reentry =
          (.reported e :: ((w.without e.ticket).acts reentry).1,
            ((w.without e.ticket).acts reentry).2)) ∧
        (w.without e.ticket).table.under e.awaited.key = [] ∧
        ∀ (now : Nat) (op : Opcode), op.reliable = e.awaited.request.opcode →
          ∃ ticket t, (w.without e.ticket).table.add now op e.awaited.node =
            (.admitted ticket, t) ∧ ticket.key = e.awaited.key ∧
            (w.tickets.length + 1 < 2 ^ 64 → ticket ∉ w.tickets)) ∧
    ∀ (timeout retries : Nat) (earlier later : List Step) (awaited : Awaited) (op : Opcode)
      (ticket : Ticket) (t : Table),
      let r := ((start timeout retries).steps earlier).2
      let made : Step := .act (.add op awaited.node)
      let last := r.timeline.now + (retries + 1) * timeout
      let next := (Stage.mk r made).after
      let final := (r.steps (made :: later)).2.timeline
      let row := (List.range (retries + 1)).map fun i =>
        (awaited, r.timeline.now + (i + 1) * timeout)
      op.reliable = awaited.request.opcode →
      r.timeline.table.add r.timeline.now op awaited.node = (.admitted ticket, t) →
      awaited.key ∉ r.timeline.expired →
      (∀ s ∈ next.stages later, s.before.timeline.now < last →
        ∀ e ∈ s.removed, e.awaited.key ≠ awaited.key) →
      ∃ own others, callsUnder awaited.key (r.reports (made :: later)) = own ++ others ∧
        own.map Expiry.call = row.filter (fun call => call.2 ≤ final.now) ∧
        (∀ x ∈ others, ∃ e ∈ next.admittedIn later, x = e.expiry) ∧
        (last ≤ final.now → own.map Expiry.call = row ∧
          ∀ e ∈ final.table.under awaited.key, e ∈ next.admittedIn later) := by
  constructor
  · intro timeout moves w now index timer htimer hdue e he hticket
    have h := Watch.balanced_start_run timeout moves
    obtain ⟨hfree, hadd⟩ := Watch.free_for_hook h he
    exact ⟨Watch.wake_of_pending h.shaped htimer hdue he hticket, hfree, hadd⟩
  · intro timeout retries earlier later awaited op ticket t r made last next final row hop hadd
      hfirst hkept
    have hregular : r.timeline.Regular timeout retries :=
      regular_steps (regular_start timeout retries) earlier
    have hlast : r.timeline.now + timeout + retries * timeout = last := by
      simp only [last, Nat.succ_mul]
      omega
    have hruns := runsOut_of_repeating (repeating_of_admitted hregular hop hadd hfirst) hregular
      fun s hs hnow => hkept s hs (hlast ▸ hnow)
    obtain ⟨⟨own, others, hcalls, hown, hothers⟩, hfree⟩ := hruns
    rw [repetitions_from] at hown
    refine ⟨own, others, hcalls, hown, hothers, fun hend => ⟨?_, ?_⟩⟩
    · refine hown.trans (List.filter_eq_self.mpr ?_)
      intro call hcall
      obtain ⟨i, hi, rfl⟩ := List.mem_map.mp hcall
      have hle : (i + 1) * timeout ≤ (retries + 1) * timeout :=
        Nat.mul_le_mul_right _ (List.mem_range.mp hi)
      exact decide_eq_true (Nat.le_trans (Nat.add_le_add_left hle _) hend)
    · intro e he
      obtain ⟨hmem, hkey⟩ := Table.mem_under_iff.mp he
      exact hfree (hlast ▸ hend) e hmem hkey

/-- What comes before a flagged request: another one, under another key, that is made again. -/
def beforeFlagged : List Step := [.act (.add ⟨0x8009⟩ 3), .advance 40]

/-- What comes after it: the other request is answered, and a later one is made under the same
key when the flagged one has run out. -/
def afterFlagged : List Step :=
  [.advance 30, .act (.remove ⟨0x800B⟩ 3), .advance 400, .act (.add ⟨0x8027⟩ 2), .advance 100]

theorem hook_reenters_for_flaggedRequest :
    let w := ((Watch.start 100).run [.act ⟨0, .add ⟨0x8126⟩ 2⟩]).2
    let r := ((start 100 2).steps beforeFlagged).2
    let final := (r.steps (.act (.add ⟨0x8126⟩ 2) :: afterFlagged)).2.timeline
    (w.without ⟨⟨.relay, 2⟩, 1⟩).table.under ⟨.relay, 2⟩ = [] ∧
      final.now = 570 ∧ final.table.isEmpty = true ∧
      ∃ own others, callsUnder ⟨.relay, 2⟩
          (r.reports (.act (.add ⟨0x8126⟩ 2) :: afterFlagged)) = own ++ others ∧
        own.map Expiry.call =
          [(⟨.relayGet, 2⟩, 140), (⟨.relayGet, 2⟩, 240), (⟨.relayGet, 2⟩, 340)] ∧
        ∀ x ∈ others, ∃ e ∈ [(⟨5, ⟨.relaySet, 2⟩, 570⟩ : Entry)], x = e.expiry := by
  intro w r final
  obtain ⟨hwatch, hruns⟩ := hook_may_reenter
  obtain ⟨-, hfree, -⟩ := hwatch 100 [.act ⟨0, .add ⟨0x8126⟩ 2⟩] 100 0
    ⟨⟨⟨.relay, 2⟩, 1⟩, 100⟩ (by decide) (by decide) ⟨1, ⟨.relayGet, 2⟩, 100⟩ (by decide)
    (by decide)
  obtain ⟨own, others, hcalls, -, hothers, hend⟩ := hruns 100 2 beforeFlagged afterFlagged
    ⟨.relayGet, 2⟩ ⟨0x8126⟩ ⟨⟨.relay, 2⟩, 2⟩ (r.timeline.table.add 40 ⟨0x8126⟩ 2).2 (by decide)
    (by decide +kernel) (by decide +kernel) (by decide +kernel)
  have hsince : (Stage.mk r (.act (.add ⟨0x8126⟩ 2))).after.admittedIn afterFlagged =
      [(⟨5, ⟨.relaySet, 2⟩, 570⟩ : Entry)] := by decide +kernel
  rw [hsince] at hothers
  exact ⟨hfree, by decide +kernel, by decide +kernel, own, others, hcalls,
    (hend (by decide +kernel)).1, hothers⟩

end Rehearsal

end MeshFoundation.Pending
