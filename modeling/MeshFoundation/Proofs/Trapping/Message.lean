import Mathlib.Data.List.Permutation
import MeshFoundation.Opcode.Stream
import MeshFoundation.Proofs.Report.Format
import MeshFoundation.Proofs.Trapping.Composition

/-!
# No message traps the client

A client that takes a message in reads an opcode, looks for a request that the message answers,
and reads parameters in the format of the answer. None of this can trap, whatever the client has
gone through, wherever the message comes from, and however long and whatever its bytes are: on
every machine that can hold them the client does what it does on plain numbers and lists
(`receive_without_trap`). Nor can composition data trap that are read on their own.
-/

set_option autoImplicit false

namespace MeshFoundation

open Pending

/-- Twice the length of a buffer is a number of the machine that holds it. -/
theorem Machine.Holds.double {m : Machine} {bytes : Bytes} (h : m.Holds bytes) :
    bytes.length * 2 < 2 ^ m.bits := by
  have hwide := m.wide
  have hbits : 2 ^ m.bits = 2 ^ (m.bits - 1) * 2 := by
    rw [← Nat.pow_succ, Nat.succ_eq_add_one, Nat.sub_add_cancel (by omega)]
  unfold Holds at h
  omega

theorem Machine.Holds.drop {m : Machine} {bytes : Bytes} (h : m.Holds bytes) (count : Nat) :
    m.Holds (bytes.drop count) := by
  unfold Holds at h ⊢
  rw [List.length_drop]
  omega

namespace Trapping

variable {m : Machine}

/-! ## Status messages -/

/-- How long a list of application keys can get is a number of every machine that holds it. -/
theorem keyList_eq {params : Bytes} (h : m.Holds params) :
    keyList m params = .ok (Report.decode? .appKeyList params) := by
  have hword : ∀ rest : Bytes, wordAt? m rest 0 = rest.wordAt? 0 :=
    fun rest => wordAt?_eq m (by omega)
  match params with
  | [] => rfl
  | [code] | [code, low] => simp [keyList, hword, Bytes.wordAt?, Report.decode?]
  | code :: low :: high :: packed =>
    have hpacked : m.Holds packed := h.drop 3
    have hdouble := hpacked.double
    have hwide := m.le_two_pow
    have hslice : slice? (low :: high :: packed) 2 (low :: high :: packed).length = some packed :=
      slice?_drop (by simp)
    simp only [keyList, hword, Bytes.wordAt?, hslice, List.drop_zero, indices_eq, ok_bind,
      Report.decode?]
    rw [mul_of_lt hdouble, ok_bind, add_of_lt (by omega), ok_bind]
    cases Report.readIndices? packed <;> rfl

theorem modelApp?_eq (params : Bytes) :
    modelApp? m params = Report.decode? .modelApp params := by
  have hword : ∀ (rest : Bytes) (start : Nat), start < 65534 →
      wordAt? m rest start = rest.wordAt? start := fun rest start => wordAt?_eq m
  match params with
  | [] => rfl
  | [code] | [code, _] | [code, _, _] | [code, _, _, _] =>
    simp [modelApp?, slice?, Report.decode?]
  | code :: e0 :: e1 :: a0 :: a1 :: model =>
    have hslice : slice? (e0 :: e1 :: a0 :: a1 :: model) 4 (e0 :: e1 :: a0 :: a1 :: model).length =
        some model :=
      slice?_drop (by simp)
    simp only [modelApp?, hslice, Report.decode?, model?_eq, hword _ 0 (by omega),
      hword _ 2 (by omega), Bytes.wordAt?, List.drop_zero, List.drop_succ_cons]
    by_cases hkind : model.length = 2 ∨ model.length = 4
    · cases hmodel : Model.ofBytes? model <;> simp [hkind, hmodel]
    · have hnone : Model.ofBytes? model = none := by
        rw [← Option.not_isSome_iff_eq_none, Model.isSome_ofBytes?_iff]
        exact hkind
      simp [hkind, hnone]

/-- Parameters are read without a trap. -/
theorem report_eq {rounds : Nat} {params : Bytes} (h : m.Holds params)
    (hrounds : params.length / 4 < rounds) (status : Status) :
    report m rounds status params = .ok (Report.decode? status params) := by
  cases status with
  | compositionData =>
    simp only [report, composition_eq m hrounds, ok_bind, Report.decode?, Composition.decode]
    cases Composition.read params <;> rfl
  | appKeyList => exact keyList_eq h
  | modelApp => simp [report, modelApp?_eq]
  | relay =>
    rcases params with _ | ⟨state, _ | ⟨byte, _ | ⟨_, _⟩⟩⟩
    case cons.cons.nil =>
      cases hstate : FeatureState.ofByte? state <;>
        simp [report, Report.decode?, hstate, retransmit_eq]
    all_goals rfl
  | beacon =>
    rcases params with _ | ⟨on, _ | ⟨_, _⟩⟩
    case cons.nil =>
      by_cases hzero : on = 0
      · simp [report, Report.decode?, hzero]
      · by_cases hone : on = 1 <;> simp [report, Report.decode?, hzero, hone]
    all_goals rfl
  | appKey =>
    rcases params with _ | ⟨code, _ | ⟨first, _ | ⟨second, _ | ⟨third, _ | ⟨_, _⟩⟩⟩⟩⟩
    case cons.cons.cons.cons.nil => simp [report, Report.decode?, indexPair_eq]
    all_goals rfl
  | defaultTtl | gattProxy | friend | nodeReset =>
    rcases params with _ | ⟨_, _ | ⟨_, _⟩⟩ <;> rfl

/-! ## Messages -/

theorem resolve_eq (c : Client) (request : Request) (source : UInt16) (params : Bytes) :
    c.resolve request source params =
      conclude c request source params (Report.decode? request.status params) :=
  rfl

/-- Whatever a client has gone through, and whatever message comes from wherever, a machine that
can hold the message takes it in without a trap, and does what the client does on plain numbers
and lists. So it does when it reads any bytes as composition data, or as the parameters of any
status message. The loop over the elements needs no more rounds than there are quarters of the
bytes, and one to see that there is no more: each record takes four bytes at least. -/
theorem receive_without_trap (m : Machine) (c : Client) (source : UInt16) {bytes : Bytes}
    {rounds : Nat} (hholds : m.Holds bytes) (hrounds : bytes.length / 4 < rounds) :
    receive m rounds c source bytes = .ok (c.receive source bytes) ∧
      composition m rounds bytes = .ok (Composition.read bytes) ∧
      (∀ status, report m rounds status bytes = .ok (Report.decode? status bytes)) ∧
      ∀ buffer first rest, element m buffer = .ok (some (first, rest)) →
        rest.length + 4 ≤ buffer.length := by
  refine ⟨?_, composition_eq m hrounds, report_eq hholds hrounds, ?_⟩
  · rw [receive, opcode_eq, ok_bind, Client.receive_eq]
    cases hdecode : Opcode.decode bytes with
    | error fault => rfl
    | ok result =>
      obtain ⟨opcode, width⟩ := result
      cases hremove : c.table.remove opcode.reliable source with
      | mk taken table =>
        cases taken with
        | nil => simp [hremove]
        | cons awaited more =>
          have hwidth := Opcode.width_of_decode hdecode
          have hparams : (bytes.drop width).length / 4 < rounds := by
            rw [List.length_drop]
            omega
          simp only [hremove, slice?_drop hwidth.2, Option.getD_some]
          rw [report_eq (hholds.drop width) hparams, ok_bind, ← resolve_eq]
          rfl
  · intro buffer first rest hread
    rw [element_eq] at hread
    exact Element.four_le_of_read? (Except.ok.inj hread)

def largeMachine : Machine := ⟨64, by decide⟩

/-- Composition data in which the record of an element is followed by one that announces 1530 bytes
of models and has one of them. -/
def boastfulMessage : Bytes :=
  [0x02, 0x00, 0x59, 0x00, 0x01, 0x00, 0x02, 0x00, 0x0A, 0x00, 0x03, 0x00,
    0x00, 0x01, 0x01, 0x01, 0x00, 0x10, 0x59, 0x00, 0x01, 0x00,
    0x00, 0x02, 0xFF, 0xFF, 0x01]

theorem no_trap_of_boastfulMessage :
    let c := ((Client.new .standard).run [.called 0 .getComposition 2]).2
    largeMachine.Holds boastfulMessage ∧ boastfulMessage.length / 4 < 7 ∧
      receive largeMachine 7 c 2 boastfulMessage = .ok (c.receive 2 boastfulMessage) ∧
      (c.receive 2 boastfulMessage).1.filterMap Effect.event? =
        [⟨⟨.compositionDataGet, 2⟩, .reported (.compositionData
          ⟨0x0059, 0x0001, 0x0002, 0x000A, ⟨true, true, false, false⟩,
            [⟨0x0100, [0x1000], [0x00590001]⟩]⟩)⟩] := by
  intro c
  have hholds : largeMachine.Holds boastfulMessage := by
    unfold Machine.Holds
    decide
  have hrounds : boastfulMessage.length / 4 < 7 := by decide
  exact ⟨hholds, hrounds, (receive_without_trap largeMachine c 2 hholds hrounds).1, by cbv⟩

end Trapping

end MeshFoundation
