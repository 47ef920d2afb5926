/-
# What an edit does to the shutdown key

`apply_shutdown_security` decides the key and the verified flag of an edited machine
from its old record.  It leaves every other member of the new record alone
(`applyShutdownSecurity_fields`), and it has three outcomes
(`applyShutdownSecurity_cases`): shutdown is off and there is no key; shutdown was
just turned on and there is a fresh key; shutdown stayed on and the key stayed.
-/
import Wakezilla.ProxySystem

namespace Wakezilla

/-- Only the key and the flag are rewritten. -/
theorem applyShutdownSecurity_fields (engine : Base64Engine) (random : Vector UInt8 32)
    (old : Option Machine) (new : Machine) :
    applyShutdownSecurity engine random old new =
      { new with
        shutdownAuthKey := (applyShutdownSecurity engine random old new).shutdownAuthKey
        shutdownAuthVerified :=
          (applyShutdownSecurity engine random old new).shutdownAuthVerified } := by
  unfold applyShutdownSecurity
  split
  · rfl
  split
  · rfl
  split <;> rfl

@[simp] theorem applyShutdownSecurity_ip (engine : Base64Engine) (random : Vector UInt8 32)
    (old : Option Machine) (new : Machine) :
    (applyShutdownSecurity engine random old new).ip = new.ip := by
  rw [applyShutdownSecurity_fields]

@[simp] theorem applyShutdownSecurity_turnOffPort (engine : Base64Engine)
    (random : Vector UInt8 32) (old : Option Machine) (new : Machine) :
    (applyShutdownSecurity engine random old new).turnOffPort = new.turnOffPort := by
  rw [applyShutdownSecurity_fields]

@[simp] theorem applyShutdownSecurity_shutdownEnabled (engine : Base64Engine)
    (random : Vector UInt8 32) (old : Option Machine) (new : Machine) :
    (applyShutdownSecurity engine random old new).shutdownEnabled = new.shutdownEnabled := by
  rw [applyShutdownSecurity_fields]
  rfl

/-- The three outcomes of an edit of a registered machine. -/
theorem applyShutdownSecurity_cases (engine : Base64Engine) (random : Vector UInt8 32)
    (old new : Machine) :
    (new.shutdownEnabled = false ∧
        (applyShutdownSecurity engine random (some old) new).shutdownAuthKey = none ∧
        (applyShutdownSecurity engine random (some old) new).shutdownAuthVerified = false) ∨
      (new.shutdownEnabled = true ∧ old.shutdownEnabled = false ∧
        (applyShutdownSecurity engine random (some old) new).shutdownAuthKey =
          some (generateKey engine random) ∧
        (applyShutdownSecurity engine random (some old) new).shutdownAuthVerified = false) ∨
      (new.shutdownEnabled = true ∧ old.shutdownEnabled = true ∧
        (applyShutdownSecurity engine random (some old) new).shutdownAuthKey =
          old.shutdownAuthKey ∧
        ((applyShutdownSecurity engine random (some old) new).shutdownAuthVerified = true →
          old.shutdownAuthVerified = true ∧ old.shutdownAuthKey.isSome = true ∧
            old.ip = new.ip ∧ old.turnOffPort = new.turnOffPort)) := by
  cases hnew : new.shutdownEnabled with
  | false =>
    refine Or.inl ⟨rfl, ?_⟩
    rw [applyShutdownSecurity, hnew, Bool.not_false, if_pos rfl]
    exact ⟨rfl, rfl⟩
  | true =>
    cases hold : old.shutdownEnabled with
    | false =>
      have hfilter : Option.filter Machine.shutdownEnabled (some old) = none := by
        rw [Option.filter_some, hold, if_neg Bool.false_ne_true]
      refine Or.inr (Or.inl ⟨rfl, rfl, ?_⟩)
      simp only [applyShutdownSecurity, hnew, hfilter, Bool.not_true, Bool.false_eq_true, if_false,
        and_self]
    | true =>
      have hfilter : Option.filter Machine.shutdownEnabled (some old) = some old := by
        rw [Option.filter_some, hold, if_pos rfl]
      refine Or.inr (Or.inr ⟨rfl, rfl, ?_⟩)
      cases hkey : old.shutdownAuthKey with
      | none =>
        simp only [applyShutdownSecurity, hnew, hfilter, hkey, Bool.not_true, Bool.false_eq_true,
          if_false, false_implies, and_self]
      | some key =>
        simp only [applyShutdownSecurity, hnew, hfilter, hkey, Bool.not_true, Bool.false_eq_true,
          if_false, Bool.and_eq_true, decide_eq_true_eq, Option.isSome_some, true_and]
        rintro ⟨hverified, ⟨-, hip⟩, hport⟩
        exact ⟨hverified, hip, hport⟩

end Wakezilla
