import MeshFoundation.Proofs.Operation.Parameters
import MeshFoundation.Settings

/-!
# The network key in the settings

A network key is checked by its setter, and nothing checks it later. Every change of the settings
and every step of a builder keeps the index of the key within twelve bits, so it stays there in
whatever order they come (`Settings.netKey_ofSteps_le`).
-/

set_option autoImplicit false

namespace MeshFoundation

namespace Settings

theorem netKey_set_le {s : Settings} (h : s.netKey.toNat ≤ 0x0FFF) (setter : Setter) :
    (s.set setter).netKey.toNat ≤ 0x0FFF := by
  cases setter with
  | timeout timeout => exact h
  | netKey index =>
    simp only [set, withNetKey]
    cases hcheck : KeyIndex.check index with
    | error fault => exact h
    | ok checked =>
      obtain ⟨rfl, hsmall⟩ := KeyIndex.of_check hcheck
      exact Nat.le_of_lt_succ hsmall

theorem netKey_ofSetters_le (setters : List Setter) :
    (ofSetters setters).netKey.toNat ≤ 0x0FFF := by
  apply List.foldlRecOn
    (motive := fun s : Settings => s.netKey.toNat ≤ 0x0FFF) setters set (by decide)
  intro s h setter _
  exact netKey_set_le h setter

theorem netKey_build_le {s : Settings} (h : s.netKey.toNat ≤ 0x0FFF) (step : BuilderStep) :
    (s.build step).netKey.toNat ≤ 0x0FFF := by
  cases step with
  | set setter => exact netKey_set_le h setter
  | replace setters => exact netKey_ofSetters_le setters

/-- Whatever is done with a builder, the index of the network key fits in twelve bits. -/
theorem netKey_ofSteps_le (steps : List BuilderStep) : (ofSteps steps).netKey.toNat ≤ 0x0FFF := by
  apply List.foldlRecOn
    (motive := fun s : Settings => s.netKey.toNat ≤ 0x0FFF) steps build (by decide)
  intro s h step _
  exact netKey_build_le h step

end Settings

end MeshFoundation
