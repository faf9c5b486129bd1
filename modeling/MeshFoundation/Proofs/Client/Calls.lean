import Mathlib.Data.List.Range
import MeshFoundation.Proofs.Client.Returning

/-!
# The calls of a run

The calls of a run are numbered in the order in which they are made, so the number of a call is its
place in the list of the requests that were asked for. `Tracked` says how a client keeps its calls
apart: a call that waits has the number and the request that it was made with, and neither it nor
any call that came back will take a number that was used before. Every step keeps this
(`Tracked.transition`), and with it every run (`tracked_run`).

So a call comes back once at most, and going through the calls of a run one by one finds the same
comebacks as going through the effects of the run (`comebacks_perm`).
-/

set_option autoImplicit false

namespace MeshFoundation

open Pending

/-- The request of the call that is made. -/
def Happening.request? : Happening → Option Request
  | .called _ op _ => some op.request
  | .finished _ _ | .aborted _ | .received _ _ | .expired _ | .unobserved | .closed => none

/-- The number of the call that comes back, and how it does. -/
def Effect.comeback? : Effect → Option (Nat × Option Failure)
  | .returned number failure? => some (number, failure?)
  | _ => none

theorem Effect.comeback?_eq_some_iff {e : Effect} {number : Nat} {failure? : Option Failure} :
    e.comeback? = some (number, failure?) ↔ e = .returned number failure? := by
  cases e <;> simp [comeback?]

namespace Client

structure Made where
  request : Request
  /-- How the call came back, with a failure or without, if it did. -/
  result? : Option (Option Failure)
  deriving DecidableEq, Repr

/-- The requests of all calls that are made, in their order. -/
def requests (hs : List Happening) : List Request := hs.filterMap Happening.request?

/-- The numbers of the calls that come back in a run, and how they do. -/
def comebacks (c : Client) (hs : List Happening) : List (Nat × Option Failure) :=
  (c.run hs).1.filterMap Effect.comeback?

/-- The calls that are made in a run from the start. -/
def made (c : Client) (hs : List Happening) : List Made :=
  (requests hs).zipIdx.map fun (request, number) =>
    ⟨request, (c.run hs).1.findSome? (Effect.returned? number)⟩

/-- What is kept of the calls for which the given requests were made and of which the given ones
came back. -/
structure Tracked (c : Client) (requests : List Request) (back : List (Nat × Option Failure)) :
    Prop where
  next : c.next = requests.length
  waiting : ∀ call ∈ c.calls, requests[call.number]? = some call.request
  made : ∀ r ∈ back, r.1 < requests.length
  distinct : (back.map Prod.fst ++ c.calls.map Call.number).Nodup

theorem requests_append (xs ys : List Happening) :
    requests (xs ++ ys) = requests xs ++ requests ys :=
  List.filterMap_append

theorem requests_cons (first : Happening) (rest : List Happening) :
    requests (first :: rest) = first.request?.toList ++ requests rest := by
  rw [requests, List.filterMap_cons]
  cases first.request? <;> rfl

variable {c c' : Client} {happening : Happening} {effects : List Effect}
  {asked : List Request} {back : List (Nat × Option Failure)} {request : Request}
  {failure? : Option Failure} {call : Call} {number : Nat}

theorem Tracked.new (settings : Settings) : (Client.new settings).Tracked [] [] where
  next := rfl
  waiting := nofun
  made := nofun
  distinct := List.nodup_nil

/-! ## What steps keep -/

theorem getElem?_append_of_some {α : Type} {xs : List α} {n : Nat} {x : α} (h : xs[n]? = some x)
    (ys : List α) : (xs ++ ys)[n]? = some x := by
  rw [List.getElem?_append_left (List.getElem?_eq_some_iff.mp h).1, h]

theorem Tracked.number_lt (h : c.Tracked asked back) (hcall : call ∈ c.calls) :
    call.number < asked.length :=
  (List.getElem?_eq_some_iff.mp (h.waiting call hcall)).1

theorem Tracked.drop (h : c.Tracked asked back) (hcalls : c'.calls.Sublist c.calls)
    (hnext : c'.next = c.next) : c'.Tracked asked back where
  next := hnext.trans h.next
  waiting := fun call hcall => h.waiting call (hcalls.subset hcall)
  made := h.made
  distinct := h.distinct.sublist ((List.Sublist.refl _).append (hcalls.map Call.number))

theorem Tracked.fresh (h : c.Tracked asked back) :
    c.next ∉ back.map Prod.fst ++ c.calls.map Call.number := by
  rw [h.next, List.mem_append, not_or]
  refine ⟨?_, ?_⟩
  · intro hmem
    obtain ⟨r, hr, heq⟩ := List.mem_map.mp hmem
    exact Nat.ne_of_lt (h.made r hr) heq
  · intro hmem
    obtain ⟨call, hcall, heq⟩ := List.mem_map.mp hmem
    exact Nat.ne_of_lt (h.number_lt hcall) heq

theorem Tracked.refuse (h : c.Tracked asked back) (request : Request) (failure? : Option Failure)
    (hcalls : c'.calls = c.calls) (hnext : c'.next = c.next + 1) :
    c'.Tracked (asked ++ [request]) (back ++ [(c.next, failure?)]) := by
  refine ⟨?_, ?_, ?_, ?_⟩
  · rw [hnext, h.next, List.length_append, List.length_singleton]
  · intro call hcall
    rw [hcalls] at hcall
    exact getElem?_append_of_some (h.waiting call hcall) _
  · intro r hr
    rw [List.length_append, List.length_singleton]
    rcases List.mem_append.mp hr with hold | hlast
    · exact Nat.lt_succ_of_lt (h.made r hold)
    · obtain rfl : r = (c.next, failure?) := by simpa using hlast
      exact h.next ▸ Nat.lt_succ_self c.next
  · rw [hcalls, List.map_append, List.append_assoc]
    exact List.perm_middle.nodup_iff.mpr (List.nodup_cons.mpr ⟨h.fresh, h.distinct⟩)

theorem Tracked.admit (h : c.Tracked asked back) (call : Call)
    (hcalls : c'.calls = c.calls ++ [call]) (hnumber : call.number = c.next)
    (hnext : c'.next = c.next + 1) : c'.Tracked (asked ++ [call.request]) back := by
  refine ⟨?_, ?_, ?_, ?_⟩
  · rw [hnext, h.next, List.length_append, List.length_singleton]
  · intro other hother
    rw [hcalls] at hother
    rcases List.mem_append.mp hother with hold | hlast
    · exact getElem?_append_of_some (h.waiting other hold) _
    · obtain rfl : other = call := by simpa using hlast
      rw [hnumber, h.next, List.getElem?_concat_length]
  · intro r hr
    rw [List.length_append, List.length_singleton]
    exact Nat.lt_succ_of_lt (h.made r hr)
  · rw [hcalls, List.map_append, ← List.append_assoc, List.map_singleton, hnumber]
    have hperm := List.perm_append_singleton c.next (back.map Prod.fst ++ c.calls.map Call.number)
    exact hperm.nodup_iff.mpr (List.nodup_cons.mpr ⟨h.fresh, h.distinct⟩)

theorem Tracked.settle (h : c.Tracked asked back) (hcall : call ∈ c.calls)
    (failure? : Option Failure) (hcalls : c'.calls = c.callsWithout call.number)
    (hnext : c'.next = c.next) : c'.Tracked asked (back ++ [(call.number, failure?)]) := by
  refine ⟨hnext.trans h.next, ?_, ?_, ?_⟩
  · intro other hother
    rw [hcalls, callsWithout, List.mem_filter] at hother
    exact h.waiting other hother.1
  · intro r hr
    rcases List.mem_append.mp hr with hold | hlast
    · exact h.made r hold
    · obtain rfl : r = (call.number, failure?) := by simpa using hlast
      exact h.number_lt hcall
  · have hnumbers : (c'.calls.map Call.number) =
        (c.calls.map Call.number).filter fun n => n ≠ call.number := by
      rw [hcalls, callsWithout, List.filter_map]
      rfl
    obtain ⟨hback, hwaits, hapart⟩ := List.nodup_append.mp h.distinct
    -- The number goes over from the calls that wait to those that came back.
    rw [List.map_append, List.append_assoc, List.nodup_append, hnumbers]
    refine ⟨hback, ?_, ?_⟩
    · refine List.nodup_cons.mpr ⟨by simp, hwaits.filter _⟩
    · intro a ha b hb heq
      have hmem : b ∈ c.calls.map Call.number := by
        rcases List.mem_append.mp hb with hown | hother
        · obtain rfl : b = call.number := by simpa using hown
          exact List.mem_map_of_mem hcall
        · exact (List.mem_filter.mp hother).1
      exact hapart a ha b hmem heq

theorem comebacks_resolve (c : Client) (request : Request) (source : UInt16) (params : Bytes) :
    (c.resolve request source params).filterMap Effect.comeback? = [] := by
  apply List.filterMap_eq_nil_iff.mpr
  intro e he
  cases heq : e.comeback? with
  | none => rfl
  | some back =>
    rw [Effect.comeback?_eq_some_iff.mp heq] at he
    exact absurd he (returned_not_mem_resolve _ _ _)

theorem comebacks_tell (c : Client) (event : Event) :
    (c.tell event).filterMap Effect.comeback? = [] := by
  unfold tell
  split <;> rfl

/-- Every step keeps track of the calls. -/
theorem Tracked.transition (h : c.Tracked asked back) (ht : c.Transition happening effects c') :
    c'.Tracked (asked ++ happening.request?.toList)
      (back ++ effects.filterMap Effect.comeback?) := by
  have hsame {c'' : Client} (hcalls : c''.calls.Sublist c.calls) (hnext : c''.next = c.next) :
      c''.Tracked (asked ++ []) (back ++ []) := by
    rw [List.append_nil, List.append_nil]
    exact h.drop hcalls hnext
  have hrefl := List.Sublist.refl c.calls
  cases ht with
  | rejected => exact h.refuse _ _ rfl rfl
  | busy => exact h.refuse _ _ rfl rfl
  | @admitted now op node payload ticket table =>
    rw [List.filterMap_cons_none rfl, List.filterMap_nil, List.append_nil]
    exact h.admit ⟨c.next, op.request, ⟨node, c.settings.netKey, payload⟩, ticket⟩ rfl rfl rfl
  | @sent call hwaiting =>
    rw [Happening.request?, Option.toList_none, List.append_nil]
    exact h.settle hwaiting none rfl rfl
  | @failed call error hwaiting =>
    rw [Happening.request?, Option.toList_none, List.append_nil]
    exact h.settle hwaiting (some (.transport error)) rfl rfl
  | unawaited => exact hsame hrefl rfl
  | aborted => exact hsame List.filter_sublist rfl
  | undecodable => exact hsame hrefl rfl
  | unsolicited => exact hsame hrefl rfl
  | answered =>
    rw [comebacks_resolve]
    exact hsame hrefl rfl
  | timedOut =>
    rw [List.filterMap_append, comebacks_tell]
    exact hsame hrefl rfl
  | stale => exact hsame hrefl rfl
  | unobserved => exact hsame hrefl rfl
  | closed => exact hsame hrefl rfl

/-- Every run keeps track of the calls. -/
theorem Tracked.run (h : c.Tracked asked back) (horderly : c.Orderly) (hs : List Happening) :
    (c.run hs).2.Tracked (asked ++ requests hs) (back ++ c.comebacks hs) := by
  induction hs generalizing c asked back with
  | nil => simpa [requests, comebacks, Client.run] using h
  | cons first rest ih =>
    have ht := transition_of_step horderly.shaped first
    have hrest := ih (h.transition ht) (ht.orderly horderly).1
    simpa only [Client.run, comebacks, requests_cons, List.filterMap_append, List.append_assoc]
      using hrest

theorem tracked_run (settings : Settings) (hs : List Happening) :
    ((Client.new settings).run hs).2.Tracked (requests hs) ((Client.new settings).comebacks hs) :=
  (Tracked.new settings).run (Orderly.new settings) hs

/-! ## Calls and comebacks -/

/-- How a call came back is what is found first in the effects. -/
theorem findSome?_returned?_eq_some_iff {effects : List Effect}
    (hdistinct : ((effects.filterMap Effect.comeback?).map Prod.fst).Nodup) :
    effects.findSome? (Effect.returned? number) = some failure? ↔
      (number, failure?) ∈ effects.filterMap Effect.comeback? := by
  have hmem (f? : Option Failure) : (number, f?) ∈ effects.filterMap Effect.comeback? ↔
      .returned number f? ∈ effects := by
    rw [List.mem_filterMap]
    simp only [Effect.comeback?_eq_some_iff, exists_eq_right]
  have hfound {f? : Option Failure}
      (hsome : effects.findSome? (Effect.returned? number) = some f?) :
      (number, f?) ∈ effects.filterMap Effect.comeback? := by
    obtain ⟨e, he, hreturned⟩ := List.exists_of_findSome?_eq_some hsome
    rw [hmem]
    exact Effect.returned?_eq_some_iff.mp hreturned ▸ he
  refine ⟨hfound, ?_⟩
  intro hback
  have hsome : (effects.findSome? (Effect.returned? number)).isSome = true := by
    rw [List.findSome?_isSome_iff]
    exact ⟨_, (hmem failure?).mp hback, by simp [Effect.returned?]⟩
  obtain ⟨f?, hf⟩ := Option.isSome_iff_exists.mp hsome
  have hsame := List.inj_on_of_nodup_map hdistinct (hfound hf) hback rfl
  rw [hf, (Prod.mk.inj hsame).2]

/-- Each call comes back once at most. -/
theorem length_returned?_le_one (settings : Settings) (hs : List Happening) (number : Nat) :
    (((Client.new settings).run hs).1.filterMap (Effect.returned? number)).length ≤ 1 := by
  have hdistinct := (List.nodup_append.mp (tracked_run settings hs).distinct).1
  have hcount (effects : List Effect) : (effects.filterMap (Effect.returned? number)).length =
      ((effects.filterMap Effect.comeback?).map Prod.fst).count number := by
    induction effects with
    | nil => rfl
    | cons e rest ih =>
      cases e with
      | returned call f? =>
        simp only [List.filterMap_cons, Effect.returned?, Effect.comeback?, List.map_cons,
          List.count_cons, ← ih]
        by_cases heq : call = number <;> simp [heq]
      | _ => exact ih
  rw [hcount]
  exact List.nodup_iff_count_le_one.mp hdistinct number

/-- Going through the calls of a run finds the comebacks of the run. -/
theorem comebacks_perm (settings : Settings) (hs : List Happening) :
    ((List.range (requests hs).length).filterMap fun number =>
        (((Client.new settings).run hs).1.findSome? (Effect.returned? number)).map
          (Prod.mk number)).Perm ((Client.new settings).comebacks hs) := by
  have h := tracked_run settings hs
  have hdistinct := (List.nodup_append.mp h.distinct).1
  -- Neither list holds anything twice, so it is enough that they have the same members.
  rw [List.perm_ext_iff_of_nodup _ (List.Nodup.of_map _ hdistinct)]
  · rintro ⟨number, failure?⟩
    rw [List.mem_filterMap]
    constructor
    · rintro ⟨place, -, hsome⟩
      obtain ⟨f?, hf, heq⟩ := Option.map_eq_some_iff.mp hsome
      cases heq
      exact (findSome?_returned?_eq_some_iff hdistinct).mp hf
    · intro hback
      refine ⟨number, List.mem_range.mpr (h.made _ hback), ?_⟩
      rw [(findSome?_returned?_eq_some_iff hdistinct).mpr hback, Option.map_some]
  · apply List.nodup_range.filterMap
    intro number place back hback hback'
    obtain ⟨_, -, rfl⟩ := Option.map_eq_some_iff.mp hback
    obtain ⟨_, -, heq⟩ := Option.map_eq_some_iff.mp hback'
    exact (congrArg Prod.fst heq).symm

/-- What is made of each call by its request and by how it came back is the same whether it is
collected from the calls that were made or from the comebacks. -/
theorem filterMap_made_perm {α : Type} (settings : Settings) (hs : List Happening)
    (value : Request → Option Failure → Option α) :
    (((Client.new settings).made hs).filterMap fun m => m.result?.bind (value m.request)).Perm
      (((Client.new settings).comebacks hs).filterMap fun back =>
        (requests hs)[back.1]?.bind fun request => value request back.2) := by
  refine List.Perm.trans (List.Perm.of_eq ?_) ((comebacks_perm settings hs).filterMap _)
  rw [made, List.filterMap_map, List.filterMap_filterMap, List.range_eq_range',
    ← List.zipIdx_map_snd, List.filterMap_map]
  apply List.filterMap_congr
  rintro ⟨request, number⟩ hplace
  rw [List.mem_zipIdx_iff_getElem?] at hplace
  simp only [Function.comp_apply]
  cases ((Client.new settings).run hs).1.findSome? (Effect.returned? number) with
  | none => rfl
  | some failure? => simp [hplace]

end Client

end MeshFoundation
