/-
# Version counters

A task that reads a counter when it begins, and looks at it again when it ends, learns
whether anything happened in between that moves the counter.  For a counter that no step
lowers this is exact:

* `le_exec` : a run does not lower it;
* `exec_eq_iff` : after a run it stands where it stood exactly if no step of the run
  moved it.
-/
import Wakezilla.Library.Run

namespace Version

open Run

variable {σ ε : Type*} {step : σ → ε → σ} {version : σ → ℕ}

/-- A counter that no step lowers is not lowered by a run. -/
theorem le_exec (hmono : ∀ s e, version s ≤ version (step s e)) (s : σ) (es : List ε) :
    version s ≤ version (exec step s es) :=
  exec_invariant_of_forall (P := fun t => version s ≤ version t) es le_rfl
    fun t e h => h.trans (hmono t e)

/-- The counter stands still over a run exactly if it does so at every step. -/
theorem exec_eq_iff (hmono : ∀ s e, version s ≤ version (step s e)) (s : σ) (es : List ε) :
    version (exec step s es) = version s ↔
      Along step (fun t e => version (step t e) = version t) s es := by
  induction es generalizing s with
  | nil => exact iff_of_true rfl trivial
  | cons e es ih =>
    have hfirst := hmono s e
    have hrest := le_exec hmono (step s e) es
    rw [exec_cons]
    refine ⟨fun h => ?_, fun h => ?_⟩
    · have hstill : version (step s e) = version s := by omega
      exact ⟨hstill, (ih (step s e)).mp (h.trans hstill.symm)⟩
    · exact ((ih (step s e)).mpr h.2).trans h.1

end Version
