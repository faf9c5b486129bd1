import MeshFoundation.Proofs.Client.Lane

/-!
# A client and its lanes

A deed or a stop of the clock that is about a key does to a client what it does to the lane
of the key (`Sound.lane_deed`, `Sound.lane_happen`). Anything else leaves the lane as it is,
and is not seen under the key (`Sound.lane_deed_of_other`, `Sound.lane_happen_of_other`). What
falls due next under a key is what falls due next in its lane, for the tickets of a key are in
the order of its calls (`Sound.next?_lane`). So the lane of a client moves on as if there were
no other keys (`Sound.lane_move`).
-/

set_option autoImplicit false

namespace MeshFoundation.Client.Timeline

open Pending

variable {tl after : Timeline} {asked : List Key} {issued : Nat} {key : Key} {s : Sending}
  {e : Entry} {due : Due} {limit : Nat} {m : Move}

/-! ## Lanes that stay as they are, or settle -/

theorem lane_congr (hsettings : after.client.settings = tl.client.settings)
    (htimeout : after.client.table.timeout = tl.client.table.timeout)
    (hmade : rank asked key after.client.next = rank asked key tl.client.next)
    (hsendings : (after.sendings.filter fun s => s.ticket.key = key) =
      tl.sendings.filter fun s => s.ticket.key = key)
    (hunder : after.client.table.under key = tl.client.table.under key) :
    after.lane asked key = tl.lane asked key := by
  have hflight : after.flight asked key = tl.flight asked key := by
    funext s
    rw [flight, flight, hunder]
  rw [lane, lane, pending, pending, hsettings, htimeout, hmade, hsendings, hunder, hflight]

theorem lane_eq_settle (hsettings : after.client.settings = tl.client.settings)
    (htimeout : after.client.table.timeout = tl.client.table.timeout)
    (hmade : rank asked key after.client.next = rank asked key tl.client.next)
    (hsendings : (after.sendings.filter fun s => s.ticket.key = key) =
      tl.sendings.filter fun s => s.ticket.key = key)
    (hunder : after.client.table.under key = []) :
    after.lane asked key = (tl.lane asked key).settle := by
  have hflight : after.flight asked key =
      (fun f : Flight => { f with owns := false }) ∘ tl.flight asked key := by
    funext s
    simp [flight, hunder]
  rw [lane, lane, Lane.settle, pending, hsettings, htimeout, hmade, hsendings, hunder, hflight,
    List.map_map]
  rfl

/-- A lane into which a message goes whose request is the only one that is pending. -/
theorem lane_eq_enter (hsettings : after.client.settings = tl.client.settings)
    (htimeout : after.client.table.timeout = tl.client.table.timeout)
    (hmade : rank asked key after.client.next = rank asked key tl.client.next + 1)
    (hsendings : after.sendings = tl.sendings ++ [s]) (hkey : s.ticket.key = key)
    (hfree : tl.client.table.under key = []) (hunder : after.client.table.under key = [e])
    (hticket : e.ticket = s.ticket) (hfresh : ∀ r ∈ tl.sendings, r.ticket ≠ s.ticket) :
    after.lane asked key =
      { tl.lane asked key with
        made := rank asked key tl.client.next + 1
        flights := (tl.lane asked key).flights ++
          [⟨rank asked key s.call, s.ends, s.error?, true⟩]
        pending := [(e.awaited, e.deadline)] } := by
  have hflights :
      (tl.sendings.filter fun r => r.ticket.key = key).map (after.flight asked key) =
        (tl.sendings.filter fun r => r.ticket.key = key).map (tl.flight asked key) := by
    apply List.map_congr_left
    intro r hr
    have hne := hfresh r (List.mem_of_mem_filter hr)
    simp [flight, hfree, hunder, hticket, hne]
  have hsent : after.flight asked key s =
      ⟨rank asked key s.call, s.ends, s.error?, true⟩ := by
    simp [flight, hunder, hticket]
  have hfilter : (after.sendings.filter fun r => r.ticket.key = key) =
      (tl.sendings.filter fun r => r.ticket.key = key) ++ [s] := by
    rw [hsendings, List.filter_append, List.filter_cons_of_pos (by simpa using hkey),
      List.filter_nil]
  rw [lane, hsettings, htimeout, hmade, hfilter, List.map_append, hflights, List.map_singleton,
    hsent, pending, hunder]
  rfl

/-! ## Deeds -/

/-- A call for another key changes nothing about a key. -/
theorem Sound.lane_call_of_other (h : tl.Sound asked issued) {delivery : Delivery}
    {op : Operation} {node : UInt16} (hkey : ¬ (⟨op.request, node⟩ : Awaited).key = key)
    (hnext : asked[tl.client.next]? = some (⟨op.request, node⟩ : Awaited).key) :
    seen asked key (tl.call delivery op node).1 = [] ∧
      (tl.call delivery op node).2.lane asked key = tl.lane asked key := by
  have hshaped := h.shaped
  have hmade : rank asked key (tl.client.next + 1) = rank asked key tl.client.next := by
    rw [rank_succ hnext key, if_neg hkey, Nat.add_zero]
  rcases h.call_cases delivery op node with
    ⟨_, -, hcall⟩ | ⟨_, _, -, -, -, hcall⟩ | ⟨_, ticket, table, -, hrecord, hcall⟩
  · rw [hcall]
    refine ⟨?_, lane_congr rfl rfl hmade rfl rfl⟩
    simp [seen, dated, Effect.seen?, hnext, hkey]
  · rw [hcall]
    refine ⟨?_, lane_congr rfl rfl hmade rfl rfl⟩
    simp [seen, dated, Effect.seen?, hnext, hkey]
  · obtain ⟨-, hticket, htable⟩ := hshaped.record?_eq_some_iff.mp hrecord
    have htkey : ¬ ticket.key = key := hticket ▸ hkey
    rw [hcall]
    refine ⟨?_, lane_congr rfl ?_ hmade ?_ ?_⟩
    · simp [seen, dated, Effect.seen?, hnext, hkey]
    · rw [htable]
    · simp [List.filter_append, htkey]
    · exact (hshaped.under_record hrecord).trans (if_neg hkey)

/-- A message for another key changes nothing about a key. -/
theorem Sound.lane_receive_of_other (h : tl.Sound asked issued) {source : UInt16} {bytes : Bytes}
    (hother : (Move.receive source bytes).concerns key = false) :
    seen asked key (tl.receive source bytes).1 = [] ∧
      (tl.receive source bytes).2.lane asked key = tl.lane asked key := by
  rcases h.receive_cases source bytes with
    ⟨_, _, hreceive, -⟩ | ⟨opcode, width, e, -, hdecode, hkey, hreceive⟩
  · rw [hreceive]
    exact ⟨seen_of_asides (by simp [Effect.isAside]) tl.now, rfl⟩
  · -- The request that the message answers stands under another key.
    have hne : ¬ e.awaited.key = key := by
      rintro rfl
      rw [Move.concerns_receive_iff.mpr ⟨opcode, width, hdecode, hkey⟩] at hother
      cases hother
    have hsource : (⟨e.awaited.request, source⟩ : Awaited) = e.awaited := by
      rw [← node_of_key hkey]
    rw [hreceive]
    refine ⟨?_, lane_congr rfl rfl rfl rfl (h.shaped.under_without_of_ne hne)⟩
    exact (seen_resolve h.observed _ _ _ _).trans (if_neg (hsource ▸ hne))

theorem pending_isEmpty_iff :
    (tl.pending key).isEmpty = true ↔ ∀ e ∈ tl.client.table.entries, e.awaited.key ≠ key := by
  rw [pending, List.isEmpty_iff, List.map_eq_nil_iff, Table.under_eq_nil_iff]

/-- A call for a key does to its lane what it means for the lane. What it does at once does
not depend on the numbers of the table. -/
theorem Sound.lane_call (h : tl.Sound asked issued) {delivery : Delivery} {op : Operation}
    {node : UInt16} (hown : (⟨op.request, node⟩ : Awaited).key = key)
    (hnext : asked[tl.client.next]? = some key) :
    seen asked key (tl.call delivery op node).1 =
        ((tl.lane asked key).call tl.now delivery op node).1 ∧
      (handOvers (tl.call delivery op node).1).length =
        (handOvers ((tl.lane asked key).call tl.now delivery op node).1).length ∧
      (issued + (handOvers (tl.call delivery op node).1).length < 2 ^ 64 →
        (tl.call delivery op node).2.lane asked key =
          ((tl.lane asked key).call tl.now delivery op node).2) := by
  have hshaped := h.shaped
  have hmade : rank asked key (tl.client.next + 1) = rank asked key tl.client.next + 1 := by
    rw [rank_succ hnext key, if_pos rfl]
  rcases h.call_cases delivery op node with
    ⟨_, hpayload, hcall⟩ | ⟨_, e, he, hpayload, hkey, hcall⟩ |
      ⟨payload, ticket, table, hpayload, hrecord, hcall⟩
  · rw [hcall]
    simp only [Lane.call, hpayload]
    refine ⟨?_, rfl, fun _ => ?_⟩
    · simp [seen, dated, Effect.seen?, hnext, lane]
    · simp only [lane, hmade]
      rfl
  · have hbusy : ¬ (tl.lane asked key).pending.isEmpty = true := by
      intro hempty
      exact pending_isEmpty_iff.mp hempty e he (hkey.trans hown)
    rw [hcall]
    simp only [Lane.call, hpayload, if_neg hbusy]
    refine ⟨?_, rfl, fun _ => ?_⟩
    · simp [seen, dated, Effect.seen?, hnext, lane]
    · simp only [lane, hmade]
      rfl
  · obtain ⟨hfree, hticket, htable⟩ := hshaped.record?_eq_some_iff.mp hrecord
    have hempty : (tl.lane asked key).pending.isEmpty = true := by
      exact pending_isEmpty_iff.mpr (hown ▸ hfree)
    rw [hcall]
    simp only [Lane.call, hpayload, if_pos hempty]
    refine ⟨?_, rfl, ?_⟩
    · simp [seen, dated, Effect.seen?, hnext, lane]
    · -- No message that is on its way already has the ticket of the new request.
      intro hfew
      have hnone : tl.client.table.under key = [] := Table.under_eq_nil_iff.mpr (hown ▸ hfree)
      have hentry : table.under key = [tl.client.table.nextEntry tl.now ⟨op.request, node⟩] :=
        (hshaped.under_record hrecord).trans (if_pos hown)
      have htkey : ticket.key = key := hticket ▸ hown
      have hflights : ∀ s ∈ tl.sendings, s.ticket ≠ ticket := by
        rintro s hs rfl
        have hlt := h.number_lt_next hfew hs
        rw [hticket] at hlt
        exact UInt64.lt_irrefl _ hlt
      have htimeout : table.timeout = tl.client.table.timeout := by rw [htable]
      apply lane_eq_enter (s := ⟨tl.client.next, ticket, tl.now + delivery.delay, delivery.error?⟩)
        (e := tl.client.table.nextEntry tl.now ⟨op.request, node⟩)
      case hsettings | hsendings => rfl
      case htimeout => exact htimeout
      case hmade => exact hmade
      case hkey => exact htkey
      case hfree => exact hnone
      case hunder => exact hentry
      case hticket => exact hticket.symm
      case hfresh => exact hflights

/-- A message for a key does to its lane what it means for the lane. -/
theorem Sound.lane_receive (h : tl.Sound asked issued) {source : UInt16} {bytes : Bytes}
    (hown : (Move.receive source bytes).concerns key = true) :
    seen asked key (tl.receive source bytes).1 =
        ((tl.lane asked key).receive tl.now source bytes).1 ∧
      (tl.receive source bytes).2.lane asked key =
        ((tl.lane asked key).receive tl.now source bytes).2 := by
  have hshaped := h.shaped
  obtain ⟨opcode, width, hdecode, hkey⟩ := Move.concerns_receive_iff.mp hown
  rcases h.receive_cases source bytes with
    ⟨_, _, hreceive, hfree⟩ | ⟨_, _, e, he, hdecode', hkey', hreceive⟩
  · have hempty : (tl.lane asked key).pending = [] := by
      rw [← List.isEmpty_iff, lane, pending_isEmpty_iff]
      rintro e he rfl
      exact hfree opcode width hdecode e he hkey
    rw [hreceive, Lane.receive, hempty]
    exact ⟨seen_of_asides (by simp [Effect.isAside]) tl.now, rfl⟩
  · -- The opcode is read in one way only.
    rw [hdecode'] at hdecode
    cases hdecode
    obtain rfl : e.awaited.key = key := Option.some.inj (hkey'.symm.trans hkey)
    have hsource : (⟨e.awaited.request, source⟩ : Awaited) = e.awaited := by
      rw [← node_of_key hkey']
    have hpending : (tl.lane asked e.awaited.key).pending = [(e.awaited, e.deadline)] := by
      rw [lane, pending, hshaped.under_of_mem he]
      rfl
    rw [hreceive]
    simp only [Lane.receive, hpending, Report.ofMessage?, hdecode']
    refine ⟨?_, lane_eq_settle rfl rfl rfl rfl (hshaped.under_without_of_mem he)⟩
    exact (seen_resolve h.observed _ _ _ _).trans (if_pos (hsource ▸ rfl))

/-! ## Stops of the clock -/

/-- A stop for another key changes nothing about a key. -/
theorem Sound.lane_happen_of_other (h : tl.Sound asked issued) (hdue : due ∈ tl.dues)
    (hother : due.timing.ticket.key ≠ key) :
    seen asked key (tl.happen due).1 = [] ∧
      (tl.happen due).2.lane asked key = tl.lane asked key := by
  have hshaped := h.shaped
  rcases h.mem_dues_iff.mp hdue with ⟨s, hs, rfl⟩ | ⟨e, he, rfl⟩
  · obtain ⟨quiet, hquiet, hhappen⟩ := h.happen_sending hs
    have hcall : asked[s.call]? ≠ some key := by
      rw [h.keys s hs]
      exact fun heq => hother (Option.some.inj heq)
    rw [hhappen]
    refine ⟨?_, lane_congr rfl ?_ rfl ?_ ?_⟩
    · rw [seen_after_asides hquiet, Effect.seen?, if_neg hcall]
      rfl
    · split <;> rfl
    · rw [sendingsWithout, List.filter_filter]
      apply List.filter_congr
      intro r hr
      have himp : r.ticket.key = key → r.call ≠ s.call := by
        rintro rfl heq
        exact hcall (heq ▸ h.keys r hr)
      simpa using himp
    · simp only
      split
      · exact hshaped.under_without_of_ne hother
      · rfl
  · obtain ⟨quiet, hquiet, hhappen⟩ := h.happen_timer he
    have hkey : e.awaited.key ≠ key := hother
    rw [hhappen]
    refine ⟨?_, lane_congr rfl rfl rfl rfl (hshaped.under_without_of_ne hother)⟩
    rw [seen_after_asides hquiet, Effect.seen?, if_neg hkey]
    rfl

/-- When the message of a call is on its way no longer, it leaves the lane of its key. -/
theorem Sound.lane_land (h : tl.Sound asked issued) (hs : s ∈ tl.sendings)
    (hkey : s.ticket.key = key) :
    { tl with sendings := tl.sendingsWithout s.call }.lane asked key =
      (tl.lane asked key).land (rank asked key s.call) := by
  have hflights :
      ((tl.sendingsWithout s.call).filter fun r => r.ticket.key = key) =
        (tl.sendings.filter fun r => r.ticket.key = key).filter
          fun r => rank asked key r.call ≠ rank asked key s.call := by
    rw [sendingsWithout, List.filter_filter, List.filter_filter]
    apply List.filter_congr
    intro r hr
    by_cases hrkey : r.ticket.key = key
    · have hiff : r.call = s.call ↔ rank asked key r.call = rank asked key s.call :=
        ⟨congrArg _, rank_injective (hrkey ▸ h.keys r hr) (hkey ▸ h.keys s hs)⟩
      simpa [hrkey] using hiff
    · simp [hrkey]
  rw [Lane.land, lane, lane, List.filter_map, hflights]
  rfl

theorem owns_iff (hkey : s.ticket.key = key) :
    (tl.flight asked key s).owns = true ↔ s.ticket ∈ tl.client.table.tickets := by
  simp only [flight, decide_eq_true_eq, Table.tickets, List.mem_map, Table.mem_under_iff]
  constructor
  · rintro ⟨e, ⟨he, -⟩, hticket⟩
    exact ⟨e, he, hticket⟩
  · rintro ⟨e, he, hticket⟩
    exact ⟨e, ⟨he, hkey ▸ congrArg Ticket.key hticket⟩, hticket⟩

/-- A stop for a key does to its lane what the stop means for the lane. -/
theorem Sound.lane_happen (h : tl.Sound asked issued) (hdue : due ∈ tl.dues)
    (hown : due.timing.ticket.key = key) :
    seen asked key (tl.happen due).1 =
        ((tl.lane asked key).happen (tl.stop asked key due)).1 ∧
      (tl.happen due).2.lane asked key =
        ((tl.lane asked key).happen (tl.stop asked key due)).2 := by
  have hshaped := h.shaped
  rcases h.mem_dues_iff.mp hdue with ⟨s, hs, rfl⟩ | ⟨e, he, rfl⟩
  · obtain ⟨quiet, hquiet, hhappen⟩ := h.happen_sending hs
    have hkey : s.ticket.key = key := hown
    have hcall : asked[s.call]? = some key := hown ▸ h.keys s hs
    rw [hhappen]
    refine ⟨?_, ?_⟩
    · rw [seen_after_asides hquiet, Effect.seen?, if_pos hcall]
      rfl
    · -- First the message is gone, and only then its request may be.
      have hland : _ = (tl.lane asked key).land (tl.flight asked key s).call := h.lane_land hs hkey
      have hsettles : ((tl.flight asked key s).owns && (tl.flight asked key s).error?.isSome) =
          true ↔ s.ticket ∈ tl.client.table.tickets ∧ s.error?.isSome = true := by
        rw [Bool.and_eq_true, owns_iff hkey]
        rfl
      simp only [stop, Lane.happen, ← hland, hsettles]
      by_cases hboth : s.ticket ∈ tl.client.table.tickets ∧ s.error?.isSome = true
      · obtain ⟨e, he, hticket⟩ := List.mem_map.mp hboth.1
        have hekey : e.awaited.key = key := hkey ▸ congrArg Ticket.key hticket
        rw [if_pos hboth, if_pos hboth.2, ← hticket, ← hekey]
        exact lane_eq_settle rfl rfl rfl rfl (hshaped.under_without_of_mem he)
      · have hsame : (if s.error?.isSome = true then tl.client.table.without s.ticket
            else tl.client.table) = tl.client.table := by
          split
          · rename_i herror
            exact Table.without_of_not_mem fun hticket => hboth ⟨hticket, herror⟩
          · rfl
        rw [if_neg hboth, hsame]
        exact lane_congr rfl rfl rfl rfl rfl
  · obtain ⟨quiet, hquiet, hhappen⟩ := h.happen_timer he
    have hkey : e.awaited.key = key := hown
    subst hkey
    rw [hhappen]
    refine ⟨?_, lane_eq_settle rfl rfl rfl rfl (hshaped.under_without_of_mem he)⟩
    rw [seen_after_asides hquiet, Effect.seen?, if_pos rfl, stop, Lane.happen, lane, pending,
      hshaped.under_of_mem he]
    rfl

/-! ## What falls due next -/

theorem Sound.dues_filter (h : tl.Sound asked issued) :
    (tl.dues.filter fun d => d.timing.ticket.key = key) =
      (tl.sendings.filter fun s => s.ticket.key = key).map Due.sending ++
        (tl.client.table.under key).map fun e => Due.timer e.timer := by
  rw [dues, h.shaped.timers_eq, List.map_map, List.filter_append, List.filter_map,
    List.filter_map]
  rfl

/-- The stops of a lane are what falls due under its key. -/
theorem Sound.stops_lane (h : tl.Sound asked issued) :
    (tl.lane asked key).stops =
      (tl.dues.filter fun d => d.timing.ticket.key = key).map (tl.stop asked key) := by
  rw [h.dues_filter, List.map_append, List.map_map, List.map_map, Lane.stops, lane, pending,
    List.map_map, List.map_map]
  rfl

/-- What falls due under a key stands in the order of the tickets. -/
theorem Sound.dues_ordered (h : tl.Sound asked issued) (key : Key) :
    (tl.dues.filter fun d => d.timing.ticket.key = key).Pairwise
      fun d d' => d.timing.ticket.number ≤ d'.timing.ticket.number := by
  have hshaped := h.shaped
  rw [h.dues_filter, List.pairwise_append, List.pairwise_map, List.pairwise_map]
  refine ⟨(h.ordered.filter _).imp UInt64.le_of_lt, ?_, ?_⟩
  · have hnodup : (tl.client.table.under key).Nodup := hshaped.entries_nodup.filter _
    apply hnodup.imp_of_mem
    intro e f he hf hne
    rw [Table.mem_under_iff] at he hf
    exact absurd (hshaped.eq_of_key he.1 hf.1 (he.2.trans hf.2.symm)) hne
  · intro d hd d' hd'
    obtain ⟨s, hs, rfl⟩ := List.mem_map.mp hd
    obtain ⟨e, he, rfl⟩ := List.mem_map.mp hd'
    rw [List.mem_filter, decide_eq_true_eq] at hs
    rw [Table.mem_under_iff] at he
    exact h.newest s hs.1 e he.1 (hs.2.trans he.2.symm)

/-- The first of the smallest things in a list. -/
theorem argmin_of_split {α : Type} {f : α → Nat} {before after : List α} {x : α}
    (hbefore : ∀ y ∈ before, f x < f y) (hafter : ∀ y ∈ after, f x ≤ f y) :
    (before ++ x :: after).argmin f = some x := by
  induction before with
  | nil =>
    rw [List.nil_append, List.argmin_cons]
    cases hrest : after.argmin f with
    | none => rfl
    | some y =>
      have hle := hafter y (List.argmin_mem hrest)
      exact if_neg (Nat.not_lt.mpr hle)
  | cons y before ih =>
    have hrest := ih fun z hz => hbefore z (List.mem_cons_of_mem _ hz)
    rw [List.cons_append, List.argmin_cons, hrest]
    exact if_pos (hbefore y List.mem_cons_self)

theorem time_stop (tl : Timeline) (asked : List Key) (key : Key) (due : Due) :
    (tl.stop asked key due).time = due.timing.deadline := by
  cases due <;> rfl

/-- If something falls due under a key next, it does so in the lane of the key. -/
theorem Sound.next?_lane (h : tl.Sound asked issued) (hnext : tl.nextDue? limit = some due)
    (hown : due.timing.ticket.key = key) :
    (tl.lane asked key).next? limit = some (tl.stop asked key due) := by
  obtain ⟨hfirst, hlimit⟩ := Option.filter_eq_some_iff.mp hnext
  obtain ⟨before, later, hdues, hbefore, hlater⟩ := Timer.first?_eq_some_iff.mp hfirst
  have hordered := h.dues_ordered key
  have hsplit : (tl.dues.filter fun d => d.timing.ticket.key = key) =
      (before.filter fun d => d.timing.ticket.key = key) ++
        due :: later.filter fun d => d.timing.ticket.key = key := by
    rw [hdues, List.filter_append, List.filter_cons_of_pos (by simpa using hown)]
  rw [hsplit, List.pairwise_append] at hordered
  rw [Lane.next?, h.stops_lane, hsplit, List.map_append, List.map_cons, argmin_of_split,
    Option.filter_some, time_stop, if_pos hlimit]
  · -- What stands before it under its key has no later ticket, so it comes strictly earlier.
    intro y hy
    obtain ⟨d, hd, rfl⟩ := List.mem_map.mp hy
    rw [time_stop, time_stop]
    have hle := hordered.2.2 d hd due List.mem_cons_self
    have hprecedes := Timer.precedes_iff.mp (hbefore d (List.mem_of_mem_filter hd))
    rw [UInt64.lt_iff_toNat_lt] at hprecedes
    rw [UInt64.le_iff_toNat_le] at hle
    omega
  · intro y hy
    obtain ⟨d, hd, rfl⟩ := List.mem_map.mp hy
    rw [time_stop, time_stop]
    have hnot := hlater d (List.mem_of_mem_filter hd)
    rw [ne_eq, Timer.precedes_iff, UInt64.lt_iff_toNat_lt] at hnot
    omega

/-- If nothing falls due, nothing does in any lane. -/
theorem Sound.next?_lane_eq_none (h : tl.Sound asked issued) (hnone : tl.nextDue? limit = none) :
    (tl.lane asked key).next? limit = none := by
  rw [Lane.next?, h.stops_lane, Option.filter_eq_none_iff]
  intro stop hstop
  obtain ⟨due, hdue, rfl⟩ := List.mem_map.mp (List.argmin_mem hstop)
  rw [time_stop, decide_eq_true_eq]
  cases hfirst : Timer.first? Due.timing tl.dues with
  | none =>
    rw [Timer.first?_eq_none_iff.mp hfirst] at hdue
    cases hdue
  | some first =>
    have hle := Timer.deadline_le_of_first? hfirst (List.mem_of_mem_filter hdue)
    rw [nextDue?, hfirst, Option.filter_some] at hnone
    have hlate : ¬ first.timing.deadline ≤ limit := by simpa using hnone
    omega

/-- On the way to a given time a lane goes on as if it were alone. -/
theorem Sound.lane_run (h : tl.Sound asked issued) (key : Key) (limit : Nat) :
    seen asked key (tl.run limit).1 = ((tl.lane asked key).run limit).1 ∧
      (tl.run limit).2.lane asked key = ((tl.lane asked key).run limit).2 := by
  fun_induction Timeline.run limit tl with
  | case1 tl hnone =>
    rw [Lane.run_of_none (h.next?_lane_eq_none hnone)]
    exact ⟨rfl, rfl⟩
  | case2 tl due hnext more final hrun ih =>
    have hdue := (mem_dues_of_nextDue? hnext).1
    obtain ⟨hmore, hfinal⟩ := ih (h.happen hdue)
    rw [hrun] at hmore hfinal
    rw [seen_append]
    by_cases hown : due.timing.ticket.key = key
    · obtain ⟨heffects, hlane⟩ := h.lane_happen hdue hown
      rw [hlane] at hmore hfinal
      rw [Lane.run_of_some (h.next?_lane hnext hown)]
      exact ⟨by rw [heffects, hmore], hfinal⟩
    · -- The client makes a step here, and the lane makes none.
      obtain ⟨heffects, hlane⟩ := h.lane_happen_of_other hdue hown
      rw [hlane] at hmore hfinal
      exact ⟨by rw [heffects, hmore, List.nil_append], hfinal⟩

/-! ## Moves -/

theorem Sound.lane_deed (h : tl.Sound asked issued) (hown : m.concerns key = true)
    (hasked : ∀ other, m.asked? = some other → asked[tl.client.next]? = some other) :
    seen asked key (tl.deed m).1 = ((tl.lane asked key).deed tl.now m).1 ∧
      (handOvers (tl.deed m).1).length =
        (handOvers ((tl.lane asked key).deed tl.now m).1).length ∧
      (issued + (handOvers (tl.deed m).1).length < 2 ^ 64 →
        (tl.deed m).2.lane asked key = ((tl.lane asked key).deed tl.now m).2) := by
  cases m with
  | call delivery op node =>
    have hkey : (⟨op.request, node⟩ : Awaited).key = key := by simpa [Move.concerns] using hown
    exact h.lane_call hkey (hkey ▸ hasked _ rfl)
  | receive source bytes =>
    obtain ⟨hseen, hlane⟩ := h.lane_receive hown
    refine ⟨hseen, ?_, fun _ => hlane⟩
    rw [Timeline.deed, (h.quiet_receive source bytes).1, Lane.deed, Lane.receive]
    split <;> simp [handOvers, Effect.handOver?]
  | advance milliseconds => exact ⟨rfl, rfl, fun _ => rfl⟩

theorem Sound.lane_deed_of_other (h : tl.Sound asked issued) (hother : m.concerns key = false)
    (hasked : ∀ other, m.asked? = some other → asked[tl.client.next]? = some other) :
    seen asked key (tl.deed m).1 = [] ∧ (tl.deed m).2.lane asked key = tl.lane asked key := by
  cases m with
  | call delivery op node =>
    have hkey : ¬ (⟨op.request, node⟩ : Awaited).key = key := by simpa [Move.concerns] using hother
    exact h.lane_call_of_other hkey (hasked _ rfl)
  | receive source bytes => exact h.lane_receive_of_other hother
  | advance milliseconds => cases hother

/-- A move that is about a key does to its lane what it means for the lane. -/
theorem Sound.lane_move (h : tl.Sound asked issued) (hown : m.concerns key = true)
    (hasked : ∀ other, m.asked? = some other → asked[tl.client.next]? = some other)
    (hfew : issued + (handOvers (tl.deed m).1).length < 2 ^ 64) :
    seen asked key (tl.move m).1 = ((tl.lane asked key).move tl.now m).1 ∧
      (tl.move m).2.lane asked key = ((tl.lane asked key).move tl.now m).2 := by
  obtain ⟨hseen, -, hlane⟩ := h.lane_deed hown hasked
  obtain ⟨hmore, hfinal⟩ := (h.deed m hasked hfew).1.lane_run key (tl.now + m.span)
  rw [hlane hfew] at hmore hfinal
  rw [move_eq, Lane.move, seen_append, hseen, hmore]
  exact ⟨rfl, hfinal⟩

/-- Any other move changes nothing about the key, if nothing was due before it. -/
theorem Sound.lane_move_of_other (h : tl.Sound asked issued) (hother : m.concerns key = false)
    (hasked : ∀ other, m.asked? = some other → asked[tl.client.next]? = some other)
    (hfew : issued + (handOvers (tl.deed m).1).length < 2 ^ 64)
    (hsettled : tl.nextDue? tl.now = none) :
    seen asked key (tl.move m).1 = [] ∧ (tl.move m).2.lane asked key = tl.lane asked key := by
  obtain ⟨hseen, hlane⟩ := h.lane_deed_of_other hother hasked
  obtain ⟨hmore, hfinal⟩ := (h.deed m hasked hfew).1.lane_run key (tl.now + m.span)
  rw [hlane, Move.span_of_other hother, Nat.add_zero,
    Lane.run_of_none (h.next?_lane_eq_none hsettled)] at hmore hfinal
  rw [move_eq, seen_append, hseen, Move.span_of_other hother, Nat.add_zero, hmore]
  exact ⟨rfl, hfinal⟩

end MeshFoundation.Client.Timeline
