import MeshFoundation.Operation

/-!
# Parameters that were accepted

An operation has parameters only if every check of its arguments lets them pass. A check that
passes gives back what it was given, so that the parameters are made of the arguments themselves.
-/

set_option autoImplicit false

namespace MeshFoundation

/-- A calculation that goes through went through in its first part. -/
theorem of_bind_eq_ok {α β ε : Type} {first : Except ε α} {next : α → Except ε β} {b : β}
    (h : (first >>= next) = .ok b) : ∃ a, first = .ok a ∧ next a = .ok b := by
  cases first with
  | error fault => cases h
  | ok a => exact ⟨a, rfl, h⟩

theorem TimeToLive.of_check {ttl byte : UInt8} (h : check ttl = .ok byte) : byte = ttl := by
  unfold check at h
  split at h
  · exact (Except.ok.inj h).symm
  · cases h

theorem KeyIndex.of_check {index word : UInt16} (h : check index = .ok word) :
    word = index ∧ index.toNat < 4096 := by
  have hword : word = index := by
    unfold check at h
    split at h
    · cases h
    · exact (Except.ok.inj h).symm
  subst hword
  exact ⟨rfl, (check_eq_ok_iff word).mp h⟩

namespace Operation

variable {net app element : UInt16} {params : Bytes}

theorem of_keyPair (h : keyPair net app = .ok params) :
    net.toNat < 4096 ∧ app.toNat < 4096 ∧ params = KeyIndex.pack net app := by
  obtain ⟨net', hnet, hrest⟩ := of_bind_eq_ok h
  obtain ⟨app', happ, hpack⟩ := of_bind_eq_ok hrest
  obtain ⟨rfl, hsmallNet⟩ := KeyIndex.of_check hnet
  obtain ⟨rfl, hsmallApp⟩ := KeyIndex.of_check happ
  exact ⟨hsmallNet, hsmallApp, (Except.ok.inj hpack).symm⟩

/-- The parameters that bring a key begin with its indices. -/
theorem of_keyPair_key {key : AppKey}
    (h : (do let indices ← keyPair net app; return indices ++ key.toList) = .ok params) :
    net.toNat < 4096 ∧ app.toNat < 4096 ∧ params = KeyIndex.pack net app ++ key.toList := by
  obtain ⟨indices, hindices, hjoin⟩ := of_bind_eq_ok h
  obtain ⟨hnet, happ, rfl⟩ := of_keyPair hindices
  exact ⟨hnet, happ, (Except.ok.inj hjoin).symm⟩

theorem of_binding {model : Model} (h : binding element app model = .ok params) :
    app.toNat < 4096 ∧ params = Bytes.ofWord element ++ Bytes.ofWord app ++ model.bytes := by
  obtain ⟨app', happ, hjoin⟩ := of_bind_eq_ok h
  obtain ⟨rfl, hsmall⟩ := KeyIndex.of_check happ
  exact ⟨hsmall, (Except.ok.inj hjoin).symm⟩

end Operation

end MeshFoundation
