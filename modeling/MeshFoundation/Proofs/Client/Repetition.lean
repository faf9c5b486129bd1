import MeshFoundation.Proofs.Client.Outcome

/-!
# Calls that are repeated

A failure says whether the same call may succeed when it is made again (`Failure.isRetriable`).
That it may not is said of failures which rest on the arguments alone, so that every client in
every state refuses the call in the same way.

A call that was busy found a request under its key. No request is pending for longer than the
timeout from the time on at which it is seen (`Orderly.deadline_le_turns`), whichever turns there
were before, and its timer takes it out if nothing else did (`Orderly.free_after_busy`). A call
whose message was not sent takes its own request out in the step in which it comes back
(`Orderly.admitted_after_failed`). In both cases the key is free for the second call unless
something else was recorded under it, and what is recorded is told by the history of the turns
(`admitted`) and not by the numbers of the requests, which may run over.

`repeated_call_comes_back` puts the three together.
-/

set_option autoImplicit false

namespace MeshFoundation

open Pending

namespace Client

/-- The time of a turn, if it is one that may record a request. -/
def Turn.time? : Turn → Option Nat
  | .happen (.called now _ _) => some now
  | .happen _ => none
  | .act _ deed => some deed.now

/-- The requests that are recorded in the turns of a list. -/
def admitted (c : Client) : List Turn → List Entry
  | [] => []
  | first :: rest =>
    let c' := (c.turn first).2
    c'.table.missing c.table ++ admitted c' rest

/-- With what a call that is made now comes back in the turns after it. -/
def resultsOf (c : Client) (now : Nat) (op : Operation) (node : UInt16) (later : List Turn) :
    List (Option Failure) :=
  (c.turns (.happen (.called now op node) :: later)).1.filterMap (Effect.returned? c.next)

variable {c c' : Client} {happening : Happening} {effects : List Effect} {now number : Nat}
  {op : Operation} {node : UInt16} {failure : Failure} {failure? : Option Failure} {e : Entry}

/-! ## What turns do to the table -/

/-- A step takes requests out of the table, or is a call whose request is recorded. -/
theorem Transition.table_cases (ht : c.Transition happening effects c') :
    (∃ p, c'.table = c.table.keep p) ∨
      ∃ now op node ticket, happening = .called now op node ∧
        c.table.record? now ⟨op.request, node⟩ = some (ticket, c'.table) := by
  cases ht with
  | admitted hpayload hrecord => exact .inr ⟨_, _, _, _, rfl, hrecord⟩
  | failed => exact .inl ⟨_, rfl⟩
  | answered => exact .inl ⟨_, rfl⟩
  | timedOut => exact .inl ⟨_, rfl⟩
  | closed => exact .inl ⟨_, c.table.clear_eq_keep⟩
  | _ => exact .inl ⟨fun _ => true, c.table.keep_true.symm⟩

/-- A turn takes requests out of the table, or records one at its time. -/
theorem Orderly.table_cases (h : c.Orderly) (t : Turn) :
    (∃ p, (c.turn t).2.table = c.table.keep p) ∨
      ∃ now awaited ticket, t.time? = some now ∧
        c.table.record? now awaited = some (ticket, (c.turn t).2.table) := by
  cases t with
  | happen happening =>
    obtain hkept | ⟨now, op, node, ticket, rfl, hrecord⟩ :=
      (transition_of_step h.shaped happening).table_cases
    · exact .inl hkept
    · exact .inr ⟨now, _, ticket, rfl, hrecord⟩
  | act tickets deed =>
    obtain ⟨p, hkept, -⟩ | ⟨awaited, ticket, hrecord, -⟩ :=
      deed.action.perform_cases h.shaped deed.now tickets
    · exact .inl ⟨p, hkept⟩
    · exact .inr ⟨deed.now, awaited, ticket, rfl, hrecord⟩

theorem admitted_append (c : Client) (xs ys : List Turn) :
    c.admitted (xs ++ ys) = c.admitted xs ++ (c.turns xs).2.admitted ys := by
  induction xs generalizing c with
  | nil => rfl
  | cons first rest ih => simp only [List.cons_append, admitted, turns, ih, List.append_assoc]

/-- What is pending after some turns was pending before or was recorded in one of them. -/
theorem mem_entries_turns {ts : List Turn} (he : e ∈ (c.turns ts).2.table.entries) :
    e ∈ c.table.entries ∨ e ∈ c.admitted ts := by
  induction ts generalizing c with
  | nil => exact .inl he
  | cons first rest ih =>
    rw [admitted, List.mem_append]
    obtain hpending | hlater := ih he
    · by_cases hbefore : e ∈ c.table.entries
      · exact .inl hbefore
      · exact .inr (.inl (List.mem_filter.mpr ⟨hpending, by simpa using hbefore⟩))
    · exact .inr (.inr hlater)

/-- As long as no turn is later than now, no request is pending for longer than the timeout from
now on. -/
theorem Orderly.deadline_le_turns (h : c.Orderly)
    (hpending : ∀ e ∈ c.table.entries, e.deadline ≤ now + c.table.timeout) {ts : List Turn}
    (htimes : ∀ t ∈ ts, ∀ time, t.time? = some time → time ≤ now) :
    (c.turns ts).2.table.timeout = c.table.timeout ∧
      ∀ e ∈ (c.turns ts).2.table.entries, e.deadline ≤ now + c.table.timeout := by
  induction ts generalizing c with
  | nil => exact ⟨rfl, hpending⟩
  | cons first rest ih =>
    have hfirst : (c.turn first).2.table.timeout = c.table.timeout ∧
        ∀ e ∈ (c.turn first).2.table.entries, e.deadline ≤ now + c.table.timeout := by
      obtain ⟨p, hkept⟩ | ⟨time, awaited, ticket, htime, hrecord⟩ := h.table_cases first
      · rw [hkept]
        refine ⟨rfl, fun e he => hpending e ?_⟩
        rw [h.shaped.entries_keep] at he
        exact (List.mem_filter.mp he).1
      · have hlast := htimes first List.mem_cons_self time htime
        obtain ⟨-, -, htable⟩ := h.shaped.record?_eq_some_iff.mp hrecord
        refine ⟨by rw [htable], fun e he => ?_⟩
        rw [(h.shaped.record hrecord).2] at he
        obtain rfl | hold := List.mem_cons.mp he
        · simp only [Table.nextEntry]
          omega
        · exact hpending e hold
    obtain ⟨htimeout, hdeadlines⟩ := hfirst
    rw [← htimeout] at hdeadlines ⊢
    exact ih (h.turn first).1 hdeadlines fun t ht => htimes t (List.mem_cons_of_mem _ ht)

/-- Once a timer went off, nothing is pending with its ticket. -/
theorem Orderly.ticket_ne_of_expired (h : c.Orderly) {ticket : Ticket}
    (he : e ∈ (c.expire ticket).2.table.entries) : e.ticket ≠ ticket := by
  have hafter : (c.expire ticket).2.table = c.table.without ticket := by
    have ht := Transition.of_expire h.shaped ticket
    generalize (c.expire ticket).1 = effects at ht
    generalize (c.expire ticket).2 = c' at ht ⊢
    cases ht with
    | timedOut => rfl
    | stale hgone => exact (Table.without_of_not_mem hgone).symm
  rw [hafter, h.shaped.entries_without, List.mem_filter] at he
  exact of_decide_eq_true he.2

/-! ## How a call comes back that was made before -/

/-- A call that does not wait never waits again. -/
theorem Transition.callsWith_of_idle (h : c.Orderly) (ht : c.Transition happening effects c')
    (hmade : number < c.next) (hidle : c.callsWith number = []) : c'.callsWith number = [] := by
  have hsub : ∀ calls : List Call, calls.Sublist c.calls →
      (calls.filter fun call => call.number = number) = [] := by
    intro calls hcalls
    exact List.eq_nil_of_subset_nil (hidle ▸ (hcalls.filter _).subset)
  cases ht.passage h.shaped with
  | quiet htable hcalls => exact hsub _ hcalls
  | left htable hcalls => exact hsub _ hcalls
  | entered call hrecord hcalls hnumber =>
    have hjoined : c'.calls = c.calls ++ [call] := hcalls
    have hnew : call.number = c.next := hnumber
    have hother : call.number ≠ number := by omega
    rw [callsWith, hjoined, List.filter_append, ← callsWith, hidle]
    simp [hother]

/-- Nothing is heard of a call that does not wait any more. -/
theorem Orderly.silent_turn (h : c.Orderly) (hmade : number < c.next)
    (hidle : c.callsWith number = []) (t : Turn) :
    (c.turn t).1.filterMap (Effect.returned? number) = [] ∧
      (c.turn t).2.callsWith number = [] := by
  cases t with
  | act tickets deed =>
    refine ⟨Effect.filterMap_returned?_eq_nil ?_, hidle⟩
    simp [Client.turn]
  | happen happening =>
    have ht := transition_of_step h.shaped happening
    refine ⟨Effect.filterMap_returned?_eq_nil ?_, ht.callsWith_of_idle h hmade hidle⟩
    intro failure? hreturned
    obtain ⟨rfl, -⟩ | ⟨call, hcall, hnumber, -⟩ := ht.cases_of_returned hreturned
    · exact Nat.lt_irrefl _ hmade
    · have hwaits : call ∈ c.callsWith number := List.mem_filter.mpr ⟨hcall, by simpa using hnumber⟩
      rw [hidle] at hwaits
      cases hwaits

theorem Orderly.silent_turns (h : c.Orderly) (hmade : number < c.next)
    (hidle : c.callsWith number = []) (ts : List Turn) :
    (c.turns ts).1.filterMap (Effect.returned? number) = [] := by
  induction ts generalizing c with
  | nil => rfl
  | cons first rest ih =>
    obtain ⟨hsilent, hidle'⟩ := h.silent_turn hmade hidle first
    obtain ⟨hordered, hle⟩ := h.turn first
    rw [Client.turns, List.filterMap_append, hsilent,
      ih hordered (Nat.lt_of_lt_of_le hmade hle) hidle', List.append_nil]

theorem calls_finish (c : Client) (number : Nat) (error? : Option TransportError) :
    (c.finish number error?).2.calls = c.callsWithout number := by
  unfold finish
  cases hfind : c.calls.find? fun call => call.number = number with
  | none =>
    refine (List.filter_eq_self.mpr fun call hcall => ?_).symm
    simpa using List.find?_eq_none.mp hfind call hcall
  | some call => cases error? <;> rfl

/-- After a turn that ends the waiting of a call, the call does not wait. -/
theorem callsWith_of_ends (c : Client) {t : Turn} (hends : t.ends number = true) :
    (c.turn t).2.callsWith number = [] := by
  have hgone : (c.turn t).2.calls = c.callsWithout number := by
    cases t with
    | act => cases hends
    | happen happening =>
      cases happening with
      | finished other error? =>
        obtain rfl : other = number := of_decide_eq_true hends
        exact c.calls_finish other error?
      | aborted other =>
        obtain rfl : other = number := of_decide_eq_true hends
        rfl
      | _ => cases hends
  simp [callsWith, hgone, callsWithout, List.filter_filter]

/-- A call that was made before and comes back does so in a turn in which the transport is done
with its message, and until then it goes on waiting. -/
theorem Orderly.exists_finished_of_returned (h : c.Orderly) (hmade : number < c.next)
    {ts : List Turn} (hreturned : .returned number failure? ∈ (c.turns ts).1) :
    ∃ (before : List Turn) (error? : Option TransportError) (after : List Turn),
      ts = before ++ .happen (.finished number error?) :: after ∧
        failure? = error?.map .transport ∧
        (c.turns before).2.callsWith number = c.callsWith number := by
  induction ts generalizing c with
  | nil => cases hreturned
  | cons first rest ih =>
    rw [Client.turns, List.mem_append] at hreturned
    obtain hfirst | hrest := hreturned
    · cases first with
      | act => simp [Client.turn] at hfirst
      | happen happening =>
        have ht := transition_of_step h.shaped happening
        obtain ⟨rfl, -⟩ | ⟨call, -, -, error?, rfl, hfailure⟩ := ht.cases_of_returned hfirst
        · exact absurd hmade (Nat.lt_irrefl _)
        · exact ⟨[], error?, rest, rfl, hfailure, rfl⟩
    · obtain ⟨hordered, hle⟩ := h.turn first
      have hmade' : number < (c.turn first).2.next := Nat.lt_of_lt_of_le hmade hle
      cases hends : first.ends number with
      | true =>
        -- The call does not wait any more, so that it cannot come back later.
        have hsilent := hordered.silent_turns hmade' (c.callsWith_of_ends hends) rest
        have hunheard := List.filterMap_eq_nil_iff.mp hsilent _ hrest
        simp [Effect.returned?] at hunheard
      | false =>
        obtain ⟨before, error?, after, rfl, hfailure, hwaits⟩ := ih hordered hmade' hrest
        exact ⟨first :: before, error?, after, rfl, hfailure,
          hwaits.trans (h.waiting_turn hmade hends).2⟩

/-! ## What a call comes back with -/

theorem resultsOf_eq (c : Client) (now : Nat) (op : Operation) (node : UInt16)
    (later : List Turn) :
    c.resultsOf now op node later =
      (c.call now op node).1.filterMap (Effect.returned? c.next) ++
        ((c.call now op node).2.turns later).1.filterMap (Effect.returned? c.next) := by
  rw [resultsOf, Client.turns, List.filterMap_append]
  rfl

/-- A call that is refused comes back with its refusal, whatever happens later. -/
theorem Orderly.resultsOf_of_refused (h : c.Orderly) (hrefusal : c.refusal? op node = some failure)
    (now : Nat) (later : List Turn) : c.resultsOf now op node later = [some failure] := by
  obtain ⟨hrefused, hreturned⟩ := h.call_refused hrefusal now
  obtain ⟨h', hnext⟩ := h.of_call now op node
  have hidle : (c.call now op node).2.callsWith c.next = [] := by
    rw [hrefused.rest]
    exact h.callsWith_next
  rw [resultsOf_eq, hreturned, h'.silent_turns (by omega) hidle, List.append_nil]

/-- A call whose arguments are accepted and under whose key nothing is pending comes back without
a failure, if the transport accepts its message in the end. -/
theorem Orderly.resultsOf_of_accepted (h : c.Orderly) (hobjections : op.objections node = [])
    (hfree : ∀ e ∈ c.table.entries, e.awaited.key ≠ ⟨op.request.status, node⟩) (now : Nat)
    {meanwhile : List Turn} (hother : ∀ t ∈ meanwhile, t.ends c.next = false) :
    c.resultsOf now op node (meanwhile ++ [.happen (.finished c.next none)]) = [none] := by
  have hnone : ¬ ∃ e ∈ c.table.entries, e.awaited.key = ⟨op.request.status, node⟩ := by
    rintro ⟨e, he, hkey⟩
    exact hfree e he hkey
  have hrefusal : c.refusal? op node = none := by
    simp only [refusal?, hobjections, if_neg hnone]
  have hreturned := h.returned_of_call now op node none hother
  rw [outcome?, hrefusal] at hreturned
  exact hreturned

/-- A call that fails was refused when it was made, or the transport failed to send its message
while it waited. -/
theorem Orderly.cases_of_failed (h : c.Orderly) {later : List Turn}
    (hfailed : some failure ∈ c.resultsOf now op node later) :
    c.refusal? op node = some failure ∨
      c.refusal? op node = none ∧
        ∃ (before : List Turn) (error : TransportError) (after : List Turn),
          later = before ++ .happen (.finished c.next (some error)) :: after ∧
            failure = .transport error ∧
            ((c.call now op node).2.turns before).2.callsWith c.next =
              (c.call now op node).2.callsWith c.next := by
  cases hrefusal : c.refusal? op node with
  | some refusal =>
    rw [h.resultsOf_of_refused hrefusal, List.mem_singleton] at hfailed
    exact .inl hfailed.symm
  | none =>
    refine .inr ⟨rfl, ?_⟩
    obtain ⟨-, -, hsilent⟩ := h.call_admitted hrefusal now
    rw [resultsOf_eq, hsilent, List.nil_append] at hfailed
    obtain ⟨effect, heffect, hreturned⟩ := List.mem_filterMap.mp hfailed
    obtain rfl := Effect.returned?_eq_some_iff.mp hreturned
    obtain ⟨h', hnext⟩ := h.of_call now op node
    obtain ⟨before, error?, after, hlater, hfailure, hwaits⟩ :=
      h'.exists_finished_of_returned (by omega) heffect
    obtain ⟨error, rfl, herror⟩ := Option.map_eq_some_iff.mp hfailure.symm
    exact ⟨before, error, after, hlater, herror.symm, hwaits⟩

/-- A call is refused for the first objection to it, or else as busy. -/
theorem refusal?_cases (hrefusal : c.refusal? op node = some failure) :
    (∃ fault rest, op.objections node = fault :: rest ∧ failure = .invalidParameter fault) ∨
      op.objections node = [] ∧ failure = .busy op.request node := by
  unfold refusal? at hrefusal
  split at hrefusal
  · rename_i fault rest hobjections
    exact .inl ⟨fault, rest, hobjections, (Option.some.inj hrefusal).symm⟩
  · rename_i hobjections
    split at hrefusal
    · exact .inr ⟨hobjections, (Option.some.inj hrefusal).symm⟩
    · cases hrefusal

/-- A failure that is not worth a retry comes of the arguments alone, and so any client refuses the
call with it. -/
theorem Orderly.refusal?_of_lasting (h : c.Orderly) {later : List Turn}
    (hfailed : some failure ∈ c.resultsOf now op node later)
    (hlasting : failure.isRetriable = false) (d : Client) :
    d.refusal? op node = some failure := by
  obtain hrefusal | ⟨-, -, error, -, -, rfl, -⟩ := h.cases_of_failed hfailed
  · obtain ⟨fault, rest, hobjections, rfl⟩ | ⟨-, rfl⟩ := refusal?_cases hrefusal
    · simp only [refusal?, hobjections]
    · cases hlasting
  · cases hlasting

/-! ## What the repeated call finds -/

/-- Once the timers that were due have gone off, nothing is pending under the key of a call that
was busy, if nothing was recorded under it meanwhile. A request that left in another way has no
timer any more. -/
theorem Orderly.free_after_busy (h : c.Orderly) {later : List Turn} {key : Key} {due : Nat}
    (hdeadlines : ∀ e ∈ c.table.entries, e.deadline ≤ due)
    (hfired : ∀ e ∈ c.table.entries, e.awaited.key = key → e.deadline ≤ due →
      .happen (.expired e.ticket) ∈ later ∨ e ∉ (c.turns later).2.table.entries)
    (hnone : ∀ e ∈ c.admitted later, e.awaited.key ≠ key) :
    ∀ e ∈ (c.turns later).2.table.entries, e.awaited.key ≠ key := by
  intro e he hkey
  obtain hpending | hadmitted := mem_entries_turns he
  · -- The request was pending before and still is, so that its timer went off in one of the turns.
    have hexpired : .happen (.expired e.ticket) ∈ later :=
      (hfired e hpending hkey (hdeadlines e hpending)).resolve_right fun hleft => hleft he
    obtain ⟨before, after, rfl⟩ := List.append_of_mem hexpired
    rw [turns_append] at he
    obtain hkept | hadmitted := mem_entries_turns (c := ((c.turns before).2.expire e.ticket).2) he
    · exact (h.turns before).1.ticket_ne_of_expired hkept rfl
    · refine hnone e ?_ hkey
      rw [admitted_append, admitted]
      exact List.mem_append_right _ (List.mem_append_right _ hadmitted)
  · exact hnone e hadmitted hkey

/-- Once the transport failed to send its message, nothing is pending under the key of a call but
what was recorded after it. -/
theorem Orderly.admitted_after_failed (h : c.Orderly) (hrefusal : c.refusal? op node = none)
    {before after : List Turn} {error : TransportError}
    (hwaits : ((c.call now op node).2.turns before).2.callsWith c.next =
      (c.call now op node).2.callsWith c.next) :
    let later := before ++ .happen (.finished c.next (some error)) :: after
    ∀ e ∈ ((c.call now op node).2.turns later).2.table.entries,
      e.awaited.key = ⟨op.request.status, node⟩ → e ∈ (c.call now op node).2.admitted later := by
  intro later e he hkey
  obtain ⟨⟨call, hcall, hticket⟩, hentries, -⟩ := h.call_admitted hrefusal now
  have h' := (h.of_call now op node).1
  let waiting := ((c.call now op node).2.turns before).2
  have hwaiting : waiting.Orderly := (h'.turns before).1
  have htable := (Transition.of_finish hwaiting.shaped c.next (some error)).table_of_finished
    (hwaits.trans hcall)
  rw [if_neg (by simp)] at htable
  rw [turns_append] at he
  rw [admitted_append, admitted, List.mem_append, List.mem_append]
  obtain hkept | hadmitted := mem_entries_turns (c := (waiting.finish c.next (some error)).2) he
  · rw [htable, hwaiting.shaped.entries_without, List.mem_filter, decide_eq_true_eq] at hkept
    obtain hpending | hadmitted := mem_entries_turns hkept.1
    · -- Nothing but the request of the call was pending under the key, and that is gone.
      rw [hentries] at hpending
      obtain rfl | hold := List.mem_cons.mp hpending
      · exact absurd hticket.symm hkept.2
      · exact absurd hkey ((of_refusal?_eq_none hrefusal).2 e hold)
    · exact .inl hadmitted
  · exact .inr (.inr hadmitted)

/-! ## The repeated call -/

/-- What a failure says about repeating the call is so. A call that comes back with a failure which
is not worth a retry comes back with it from every client in every state, at any time and whatever
the transport does. A call that was busy goes through if it is repeated when the timeout has passed
and the timers that were due have gone off, as far as their requests did not leave in another way,
provided that nothing was recorded under its key meanwhile. A call whose message the transport
failed to send goes through if it is repeated, provided that no request holds its key which was
recorded after its own. In both cases the transport has to accept the message of the second call. -/
theorem repeated_call_comes_back (settings : Settings) (earlier later : List Turn) (now : Nat)
    (op : Operation) (node : UInt16) (failure : Failure)
    (hfailed : some failure ∈
      ((Client.new settings).turns earlier).2.resultsOf now op node later) :
    let c := ((Client.new settings).turns earlier).2
    let recorded := (c.call now op node).2.admitted later
    let c' := (c.turns (.happen (.called now op node) :: later)).2
    let key : Key := ⟨op.request.status, node⟩
    (failure.isRetriable = false →
      ∀ (d : Client), d.Reachable → ∀ (again : Nat) (after : List Turn),
        d.resultsOf again op node after = [some failure]) ∧
    (∀ request other, failure = .busy request other →
      (∀ t ∈ earlier, ∀ time, t.time? = some time → time ≤ now) →
      (∀ e ∈ recorded, e.awaited.key ≠ key) →
      ∀ again, now + settings.timeout ≤ again →
        (∀ e ∈ c.table.entries, e.awaited.key = key → e.deadline ≤ again →
          .happen (.expired e.ticket) ∈ later ∨ e ∉ c'.table.entries) →
        ∀ meanwhile : List Turn, (∀ t ∈ meanwhile, t.ends c'.next = false) →
          c'.resultsOf again op node (meanwhile ++ [.happen (.finished c'.next none)]) = [none]) ∧
    ∀ error, failure = .transport error →
      (∀ e ∈ c'.table.entries, e.awaited.key = key → e ∉ recorded) →
      ∀ (again : Nat) (meanwhile : List Turn), (∀ t ∈ meanwhile, t.ends c'.next = false) →
        c'.resultsOf again op node (meanwhile ++ [.happen (.finished c'.next none)]) = [none] := by
  intro c recorded c' key
  have h : c.Orderly := orderly_new_turns settings earlier
  have h' : c'.Orderly := (h.turns _).1
  refine ⟨?_, ?_, ?_⟩
  · intro hlasting d hd again after
    exact hd.orderly.resultsOf_of_refused (h.refusal?_of_lasting hfailed hlasting d) again after
  · rintro request other rfl htimes hnone again hagain hfired meanwhile hother
    have hrefusal : c.refusal? op node = some (.busy request other) := by
      obtain hrefusal | ⟨-, -, error, -, -, hbusy, -⟩ := h.cases_of_failed hfailed
      · exact hrefusal
      · cases hbusy
    have hobjections : op.objections node = [] := by
      obtain ⟨fault, rest, -, hbusy⟩ | ⟨hobjections, -⟩ := refusal?_cases hrefusal
      · cases hbusy
      · exact hobjections
    have hmade := (h.of_call now op node).1
    have htable : (c.call now op node).2.table = c.table := by
      rw [(h.call_refused hrefusal now).1.rest]
    have hdeadlines : ∀ e ∈ c.table.entries, e.deadline ≤ now + settings.timeout :=
      ((Orderly.new settings).deadline_le_turns nofun htimes).2
    -- Whatever was pending when the call was refused is due by the time of the second call.
    have hdue : ∀ e ∈ (c.call now op node).2.table.entries, e.deadline ≤ again := by
      rw [htable]
      exact fun e he => Nat.le_trans (hdeadlines e he) hagain
    rw [← htable] at hfired
    have hfree : ∀ e ∈ c'.table.entries, e.awaited.key ≠ key :=
      hmade.free_after_busy hdue hfired hnone
    exact h'.resultsOf_of_accepted hobjections hfree again hother
  · rintro error rfl hown again meanwhile hother
    obtain hrefusal | ⟨hrefusal, before, _, after, rfl, -, hwaits⟩ := h.cases_of_failed hfailed
    · obtain ⟨fault, rest, -, herror⟩ | ⟨-, herror⟩ := refusal?_cases hrefusal <;> cases herror
    · obtain ⟨payload, hpayload⟩ := (of_refusal?_eq_none hrefusal).1
      have hobjections := Operation.objections_of_payload hpayload
      refine h'.resultsOf_of_accepted hobjections (fun e he hkey => ?_) again hother
      exact hown e he hkey (h.admitted_after_failed hrefusal hwaits e he hkey)

/-- The timer of a question about the relay goes off after another call was busy for it. -/
def overdueQuestion : List Turn :=
  [.happen (.finished 0 none), .happen (.received 3 [0x80, 0x28, 1, 0x25]),
    .happen (.expired ⟨⟨.relay, 2⟩, 1⟩)]

/-- The node answers the question after another call was busy for it, so that the timer of the
question never goes off. -/
def answeredQuestion : List Turn := [.happen (.received 2 [0x80, 0x28, 1, 0x25])]

/-- The three kinds of failures: a call that is busy goes through after the timeout, be it that the
timer went off or that the answer came, one whose message was not sent goes through at once, and one
with a bad argument fails everywhere. -/
theorem repeated_call_of_overdueQuestion :
    let question : List Turn := [.happen (.called 0 .getRelay 2)]
    let op : Operation := .setRelay .enabled ⟨2, 20⟩
    let c := ((Client.new .standard).turns question).2
    let c' := (c.turns (.happen (.called 500 op 2) :: overdueQuestion)).2
    let unsent : List Turn := [.happen (.finished 0 (some .unavailable))]
    let d := ((Client.new .standard).turns (.happen (.called 0 op 2) :: unsent)).2
    (some (.busy .relaySet 2) ∈ c.resultsOf 500 op 2 overdueQuestion ∧
        c'.resultsOf 2500 op 2 [.happen (.finished 2 none)] = [none]) ∧
      (some (.busy .relaySet 2) ∈ c.resultsOf 500 op 2 answeredQuestion ∧
        (c.turns (.happen (.called 500 op 2) :: answeredQuestion)).2.resultsOf 2500 op 2
          [.happen (.finished 2 none)] = [none]) ∧
      (some (.transport .unavailable) ∈ (Client.new .standard).resultsOf 0 op 2 unsent ∧
        d.resultsOf 0 op 2 [.happen (.finished 1 none)] = [none]) ∧
      some (.invalidParameter .keyIndex) ∈ c.resultsOf 500 (.getAppKeys 0x1000) 2 [] ∧
        c'.resultsOf 2500 (.getAppKeys 0x1000) 2 [] = [some (.invalidParameter .keyIndex)] := by
  intro question op c c' unsent d
  have hfailed : some (.busy .relaySet 2) ∈ c.resultsOf 500 op 2 overdueQuestion := by decide
  have hfailed' : some (.busy .relaySet 2) ∈ c.resultsOf 500 op 2 answeredQuestion := by decide
  have hunsent : some (.transport .unavailable) ∈ (Client.new .standard).resultsOf 0 op 2 unsent :=
    by decide
  have hrefused : some (.invalidParameter .keyIndex) ∈ c.resultsOf 500 (.getAppKeys 0x1000) 2 [] :=
    by decide
  obtain ⟨-, hbusy, -⟩ :=
    repeated_call_comes_back .standard question overdueQuestion 500 op 2 _ hfailed
  obtain ⟨-, hbusy', -⟩ :=
    repeated_call_comes_back .standard question answeredQuestion 500 op 2 _ hfailed'
  obtain ⟨-, -, htransport⟩ := repeated_call_comes_back .standard [] unsent 0 op 2 _ hunsent
  obtain ⟨hlasting, -, -⟩ :=
    repeated_call_comes_back .standard question [] 500 (.getAppKeys 0x1000) 2 _ hrefused
  have hreachable : c'.Reachable :=
    ((reachable_new .standard).turns question).turns (.happen (.called 500 op 2) :: overdueQuestion)
  exact ⟨⟨hfailed, hbusy _ _ rfl (by decide) (by decide) 2500 (by decide) (by decide) [] nofun⟩,
    ⟨hfailed', hbusy' _ _ rfl (by decide) (by decide) 2500 (by decide) (by decide) [] nofun⟩,
    ⟨hunsent, htransport _ rfl (by decide) 0 [] nofun⟩, hrefused,
    hlasting rfl c' hreachable 2500 []⟩

end Client

end MeshFoundation
