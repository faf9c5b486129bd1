import MeshFoundation.Proofs.Client.Transmission

/-!
# How calls come back

A call comes back in one of two steps: in the step in which it is made, because it is refused, or
in the step in which the transport is done with its message (`Transition.cases_of_returned`).
Between the two it waits, and whatever else happens meanwhile leaves it waiting, unless it is given
up (`Transition.callsWith_of_other`).

What this rests on is that the calls that wait have numbers of their own, all of which were given
out before (`Orderly`). That holds whatever stands in the table of pending requests.
-/

set_option autoImplicit false

namespace MeshFoundation

open Pending

namespace Effect

theorem returned?_eq_some_iff {e : Effect} {number : Nat} {failure? : Option Failure} :
    e.returned? number = some failure? ↔ e = .returned number failure? := by
  cases e with
  | returned call f =>
    simp only [returned?, Option.ite_none_right_eq_some, Option.some.injEq, Effect.returned.injEq]
  | _ => simp [returned?]

/-- Nothing is heard of a call by effects in which it does not come back. -/
theorem filterMap_returned?_eq_nil {effects : List Effect} {number : Nat}
    (h : ∀ failure?, .returned number failure? ∉ effects) :
    effects.filterMap (returned? number) = [] := by
  apply List.filterMap_eq_nil_iff.mpr
  intro e he
  cases heq : e.returned? number with
  | none => rfl
  | some failure? => exact absurd (returned?_eq_some_iff.mp heq ▸ he) (h failure?)

end Effect

/-- Whether a happening ends the waiting of the call with the given number, if that waits. -/
def Happening.ends (number : Nat) : Happening → Bool
  | .finished call _ | .aborted call => call = number
  | .called _ _ _ | .received _ _ | .expired _ | .unobserved | .closed => false

namespace Client

/-- The calls with the given number that wait for the transport. -/
def callsWith (c : Client) (number : Nat) : List Call :=
  c.calls.filter fun call => call.number = number

/-- The table is shaped as it should be, and the calls that wait have numbers of their own that
were given out before. -/
structure Orderly (c : Client) : Prop where
  shaped : c.table.Shaped
  distinct : (c.calls.map Call.number).Nodup
  numbered : ∀ call ∈ c.calls, call.number < c.next

variable {c c' : Client} {happening : Happening} {effects : List Effect} {number : Nat}
  {failure? : Option Failure} {error? : Option TransportError}

/-! ## Order -/

theorem Orderly.new (settings : Settings) : (Client.new settings).Orderly where
  shaped := Table.Shaped.empty settings.timeout
  distinct := List.nodup_nil
  numbered := nofun

theorem Orderly.of_sublist (h : c.Orderly) (hshaped : c'.table.Shaped)
    (hcalls : c'.calls.Sublist c.calls) (hnext : c.next ≤ c'.next) : c'.Orderly where
  shaped := hshaped
  distinct := h.distinct.sublist (hcalls.map Call.number)
  numbered := fun call hcall =>
    Nat.lt_of_lt_of_le (h.numbered call (hcalls.subset hcall)) hnext

theorem Transition.orderly (ht : c.Transition happening effects c') (h : c.Orderly) :
    c'.Orderly ∧ c.next ≤ c'.next := by
  cases ht.passage h.shaped with
  | quiet htable hcalls hnext =>
    have hsame : c'.table = c.table := htable
    exact ⟨h.of_sublist (hsame ▸ h.shaped) hcalls hnext, hnext⟩
  | left htable hcalls hnext =>
    have hkept : c'.table = c.table.keep _ := htable
    exact ⟨h.of_sublist (hkept ▸ h.shaped.keep _) hcalls hnext, hnext⟩
  | entered call hrecord hcalls hnumber hnext =>
    have hjoined : c'.calls = c.calls ++ [call] := hcalls
    have hnew : call.number = c.next := hnumber
    have hlater : c'.next = c.next + 1 := hnext
    refine ⟨⟨(h.shaped.record hrecord).1, ?_, ?_⟩, by omega⟩
    · rw [hjoined, List.map_append, List.nodup_append]
      refine ⟨h.distinct, List.nodup_singleton _, ?_⟩
      intro a ha b hb heq
      obtain ⟨old, hold, rfl⟩ := List.mem_map.mp ha
      obtain rfl : b = call.number := by simpa using hb
      have hlt := h.numbered old hold
      omega
    · intro other hother
      rw [hjoined] at hother
      rcases List.mem_append.mp hother with hold | hlast
      · have hlt := h.numbered other hold
        omega
      · obtain rfl : other = call := by simpa using hlast
        omega

/-- A call is made with a number that was not given out before. -/
theorem Orderly.of_call (h : c.Orderly) (now : Nat) (op : Operation) (node : UInt16) :
    (c.call now op node).2.Orderly ∧ (c.call now op node).2.next = c.next + 1 := by
  have ht := Transition.of_call h.shaped now op node
  exact ⟨(ht.orderly h).1, ht.next_of_called⟩

theorem Orderly.callsWith_next (h : c.Orderly) : c.callsWith c.next = [] := by
  apply List.filter_eq_nil_iff.mpr
  intro call hcall heq
  have hlt := h.numbered call hcall
  rw [decide_eq_true_eq] at heq
  omega

/-! ## Coming back -/

/-- A call that comes back is just being made and is refused, or it waited, and the transport is
done with its message. -/
theorem Transition.cases_of_returned (ht : c.Transition happening effects c')
    (hreturned : .returned number failure? ∈ effects) :
    (number = c.next ∧ ∃ now op node failure, happening = .called now op node ∧
        failure? = some failure ∧
        (op.payload node = .error failure ∨ failure = .busy op.request node)) ∨
      ∃ call ∈ c.calls, call.number = number ∧ ∃ error?, happening = .finished number error? ∧
        failure? = error?.map .transport := by
  cases ht with
  | rejected hpayload =>
    simp only [List.mem_singleton, Effect.returned.injEq] at hreturned
    exact .inl ⟨hreturned.1, _, _, _, _, rfl, hreturned.2, .inl hpayload⟩
  | busy =>
    simp only [List.mem_cons, reduceCtorEq, List.not_mem_nil, or_false, false_or,
      Effect.returned.injEq] at hreturned
    exact .inl ⟨hreturned.1, _, _, _, _, rfl, hreturned.2, .inr rfl⟩
  | sent hwaiting =>
    simp only [List.mem_cons, reduceCtorEq, List.not_mem_nil, or_false, false_or,
      Effect.returned.injEq] at hreturned
    obtain ⟨rfl, rfl⟩ := hreturned
    exact .inr ⟨_, hwaiting, rfl, none, rfl, rfl⟩
  | @failed call error hwaiting =>
    simp only [List.mem_cons, reduceCtorEq, List.not_mem_nil, or_false, false_or,
      Effect.returned.injEq] at hreturned
    obtain ⟨rfl, rfl⟩ := hreturned
    exact .inr ⟨_, hwaiting, rfl, some error, rfl, rfl⟩
  | answered => exact absurd hreturned (returned_not_mem_resolve _ _ _)
  | timedOut =>
    unfold tell at hreturned
    cases hobserved : c.isObserved <;> simp [hobserved] at hreturned
  | _ => simp at hreturned

/-- A call that was made before does not come back in a step that does not end its waiting. -/
theorem Transition.silent_of_other (ht : c.Transition happening effects c')
    (hmade : number < c.next) (hother : happening.ends number = false) :
    effects.filterMap (Effect.returned? number) = [] := by
  apply Effect.filterMap_returned?_eq_nil
  intro failure? hreturned
  -- It could only be made just now, or the happening would be the end of its transmission.
  rcases ht.cases_of_returned hreturned with ⟨rfl, -⟩ | ⟨_, -, -, error?, rfl, -⟩
  · exact Nat.lt_irrefl _ hmade
  · simp [Happening.ends] at hother

theorem callsWith_callsWithout {other : Nat} (c : Client) (hne : other ≠ number) :
    (c.callsWithout other).filter (fun call => call.number = number) = c.callsWith number := by
  rw [callsWithout, List.filter_filter, callsWith]
  apply List.filter_congr
  intro call _
  have himp : call.number = number → call.number ≠ other := fun heq => heq ▸ hne.symm
  simpa using himp

/-- A call that waits goes on waiting in a step that does not end its waiting. -/
theorem Transition.callsWith_of_other (ht : c.Transition happening effects c')
    (hmade : number < c.next) (hother : happening.ends number = false) :
    c'.callsWith number = c.callsWith number := by
  have hne (other : Nat) (hends : decide (other = number) = false) : other ≠ number := by
    simpa using hends
  cases ht with
  | admitted =>
    have hnew : c.next ≠ number := by omega
    simp [callsWith, List.filter_append, hnew]
  | sent => exact c.callsWith_callsWithout (hne _ hother)
  | failed => exact c.callsWith_callsWithout (hne _ hother)
  | aborted => exact c.callsWith_callsWithout (hne _ hother)
  | _ => rfl

/-- When the transport is done with the message of a call that waits, the call comes back with what
the transport says, and with nothing else. -/
theorem returned_of_finish (c : Client) (number : Nat) (error? : Option TransportError) :
    (c.finish number error?).1.filterMap (Effect.returned? number) =
      if c.callsWith number = [] then [] else [error?.map .transport] := by
  unfold finish
  rw [← List.head?_filter, ← callsWith]
  cases c.callsWith number with
  | nil => rfl
  | cons call rest =>
    cases error? with
    | none => simp [List.filterMap_cons, Effect.returned?]
    | some error => simp [List.filterMap_cons, Effect.returned?]

end Client

end MeshFoundation
