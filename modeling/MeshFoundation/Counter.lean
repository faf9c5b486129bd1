import MeshFoundation.Message.Request

/-!
# Counters

What a client counts: for each request how often it was sent, refused as busy,
answered and left without an answer, and for each of three reasons how many received
messages were dropped. A tally holds a value for each counter that was raised at
least once.
-/

set_option autoImplicit false

namespace MeshFoundation

/-- Why a received message was dropped. -/
inductive DropReason where
  /-- Its opcode cannot be read. -/
  | opcode
  /-- No request was waiting for it. -/
  | unsolicited
  /-- Its parameters make no report. -/
  | malformed
  deriving DecidableEq, Repr

def DropReason.name : DropReason → String
  | .opcode => "opcode"
  | .unsolicited => "unsolicited"
  | .malformed => "malformed"

inductive Counter where
  | sent (request : Request)
  | busy (request : Request)
  | matched (request : Request)
  | timedOut (request : Request)
  | dropped (reason : DropReason)
  deriving DecidableEq, Repr

/-- The name of a counter with its label. -/
def Counter.name : Counter → String
  | .sent request => "meshconfig_requests_sent_total|command=" ++ request.name
  | .busy request => "meshconfig_requests_busy_total|command=" ++ request.name
  | .matched request => "meshconfig_responses_matched_total|command=" ++ request.name
  | .timedOut request => "meshconfig_request_timeouts_total|command=" ++ request.name
  | .dropped reason => "meshconfig_inbound_dropped_total|reason=" ++ reason.name

/-- The values of the counters that were raised. -/
abbrev Tally := List (Counter × Nat)

namespace Tally

/-- The value of a counter; a counter that was never raised stands at zero. -/
def value : Tally → Counter → Nat
  | [], _ => 0
  | (d, n) :: rest, c => if d = c then n else value rest c

/-- The tally after a counter was raised by one. -/
def raise : Tally → Counter → Tally
  | [], c => [(c, 1)]
  | (d, n) :: rest, c => if d = c then (d, n + 1) :: rest else (d, n) :: raise rest c

def ofList (cs : List Counter) : Tally := cs.foldl raise []

/-- Raising a counter adds one to it and leaves every other as it was. -/
theorem value_raise (t : Tally) (c d : Counter) :
    (t.raise c).value d = t.value d + if d = c then 1 else 0 := by
  induction t with
  | nil =>
    by_cases h : d = c
    · simp [raise, value, h]
    · simp [raise, value, h, Ne.symm h]
  | cons entry rest ih =>
    obtain ⟨e, n⟩ := entry
    unfold raise
    by_cases hec : e = c
    · subst hec
      by_cases hed : e = d
      · subst hed
        simp [value]
      · simp [value, hed, Ne.symm hed]
    · by_cases hed : e = d
      · subst hed
        simp [value, hec]
      · simpa [value, hec, hed] using ih

end Tally

end MeshFoundation
