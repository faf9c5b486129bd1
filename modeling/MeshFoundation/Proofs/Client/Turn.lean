import MeshFoundation.Proofs.Client.Returning
import MeshFoundation.Proofs.Pending.Wakeup

/-!
# Clients whose owner uses the table

The owner of a client can get at its table of pending requests and may do with it whatever can be
done with a table: record requests that the client knows nothing of, and take out requests whose
calls still wait. A client takes turns with its owner. What its own steps keep is kept whatever the
owner does in between, as far as it does not depend on which requests are pending.
-/

set_option autoImplicit false

namespace MeshFoundation.Client

open Pending

inductive Turn where
  | happen (happening : Happening)
  /-- The owner, who holds the given tickets, does something with the table. -/
  | act (tickets : List Ticket) (deed : Deed)
  deriving DecidableEq, Repr

/-- Whether a turn ends the waiting of the call with the given number, if that waits. -/
def Turn.ends (number : Nat) : Turn → Bool
  | .happen happening => happening.ends number
  | .act _ _ => false

/-- What a turn does to a client. -/
def turn (c : Client) : Turn → List Effect × Client
  | .happen happening => c.step happening
  | .act tickets deed =>
    let (answer, table) := deed.action.perform deed.now tickets c.table
    ((deed.action.notices answer).map .noted, { c with table })

/-- What a list of turns does to a client, one after another. -/
def turns (c : Client) : List Turn → List Effect × Client
  | [] => ([], c)
  | first :: rest =>
    let (effects, c') := c.turn first
    let (more, final) := turns c' rest
    (effects ++ more, final)

variable {c : Client} {number : Nat}

theorem turns_append (c : Client) (xs ys : List Turn) :
    c.turns (xs ++ ys) =
      ((c.turns xs).1 ++ ((c.turns xs).2.turns ys).1, ((c.turns xs).2.turns ys).2) := by
  induction xs generalizing c with
  | nil => rfl
  | cons first rest ih => simp only [List.cons_append, turns, ih, List.append_assoc]

/-! ## What turns keep -/

/-- Whatever an owner does with the table, its shape is kept. -/
theorem shaped_of_perform {t : Table} (h : t.Shaped) (now : Nat) (tickets : List Ticket)
    (action : Action) : (action.perform now tickets t).2.Shaped := by
  rcases action.perform_cases h now tickets with ⟨p, hkept, -⟩ | ⟨_, _, hrecord, -⟩
  · rw [hkept]
    exact h.keep p
  · exact (h.record hrecord).1

theorem Orderly.turn (h : c.Orderly) (t : Turn) :
    (c.turn t).2.Orderly ∧ c.next ≤ (c.turn t).2.next := by
  cases t with
  | happen happening => exact (transition_of_step h.shaped happening).orderly h
  | act tickets deed =>
    have hshaped := shaped_of_perform h.shaped deed.now tickets deed.action
    exact ⟨h.of_sublist hshaped (List.Sublist.refl c.calls) (Nat.le_refl _), Nat.le_refl _⟩

theorem Orderly.turns (h : c.Orderly) (ts : List Turn) :
    (c.turns ts).2.Orderly ∧ c.next ≤ (c.turns ts).2.next := by
  induction ts generalizing c with
  | nil => exact ⟨h, Nat.le_refl _⟩
  | cons first rest ih =>
    obtain ⟨hfirst, hle⟩ := h.turn first
    obtain ⟨hrest, hle'⟩ := ih hfirst
    exact ⟨hrest, Nat.le_trans hle hle'⟩

theorem orderly_new_turns (settings : Settings) (ts : List Turn) :
    ((Client.new settings).turns ts).2.Orderly :=
  ((Orderly.new settings).turns ts).1

/-- A new client gets into this state if it and its owner take certain turns. -/
def Reachable (c : Client) : Prop :=
  ∃ (settings : Settings) (ts : List Turn), ((Client.new settings).turns ts).2 = c

theorem Reachable.orderly (h : c.Reachable) : c.Orderly := by
  obtain ⟨settings, ts, rfl⟩ := h
  exact orderly_new_turns settings ts

theorem reachable_new (settings : Settings) : (Client.new settings).Reachable :=
  ⟨settings, [], rfl⟩

theorem Reachable.turns (h : c.Reachable) (ts : List Turn) : (c.turns ts).2.Reachable := by
  obtain ⟨settings, before, rfl⟩ := h
  exact ⟨settings, before ++ ts, by rw [turns_append]⟩

/-- A call that waits and is not ended by a turn waits on, and nothing is heard of it. -/
theorem Orderly.waiting_turn (h : c.Orderly) (hmade : number < c.next) {t : Turn}
    (hother : t.ends number = false) :
    (c.turn t).1.filterMap (Effect.returned? number) = [] ∧
      (c.turn t).2.callsWith number = c.callsWith number := by
  cases t with
  | happen happening =>
    have ht := transition_of_step h.shaped happening
    exact ⟨ht.silent_of_other hmade hother, ht.callsWith_of_other hmade hother⟩
  | act tickets deed =>
    refine ⟨?_, rfl⟩
    apply Effect.filterMap_returned?_eq_nil
    simp [Client.turn]

theorem Orderly.waiting_turns (h : c.Orderly) (hmade : number < c.next) {ts : List Turn}
    (hother : ∀ t ∈ ts, t.ends number = false) :
    (c.turns ts).1.filterMap (Effect.returned? number) = [] ∧
      (c.turns ts).2.callsWith number = c.callsWith number := by
  induction ts generalizing c with
  | nil => exact ⟨rfl, rfl⟩
  | cons first rest ih =>
    have hfirst := h.waiting_turn hmade (hother first List.mem_cons_self)
    obtain ⟨hordered, hle⟩ := h.turn first
    obtain ⟨hsilent, hkept⟩ := ih hordered (Nat.lt_of_lt_of_le hmade hle)
      fun t ht => hother t (List.mem_cons_of_mem _ ht)
    refine ⟨?_, hkept.trans hfirst.2⟩
    rw [Client.turns, List.filterMap_append, hfirst.1, hsilent, List.append_nil]

theorem Transition.settings_eq {c' : Client} {happening : Happening} {effects : List Effect}
    (ht : c.Transition happening effects c') : c'.settings = c.settings := by
  cases ht <;> rfl

/-- The settings of a client are never changed. -/
theorem settings_turns (h : c.Orderly) (ts : List Turn) :
    (c.turns ts).2.settings = c.settings := by
  induction ts generalizing c with
  | nil => rfl
  | cons first rest ih =>
    have hfirst : (c.turn first).2.settings = c.settings := by
      cases first with
      | happen happening => exact (transition_of_step h.shaped happening).settings_eq
      | act tickets deed => rfl
    exact (ih (h.turn first).1).trans hfirst

end MeshFoundation.Client
