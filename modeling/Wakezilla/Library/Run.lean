/-
# Runs of a step function

A system given by a total step function `step : σ → ε → σ` on states and events
runs by folding the step over a list of events.  Interleavings are lists: every
order of the steps of several tasks is one list of events.

* `exec` : the state after a list of events;
* `Along` : every step of a run meets a condition on the state before the step
  and the event;
* `exec_invariant` : a property that holds initially and that every admitted
  step keeps holds after every admitted run;
* `along_congr` : two conditions on the steps may be exchanged when an invariant
  makes them equivalent;
* `exec_history_iff` : a property of the recorded history is kept exactly by the
  runs whose steps all meet a condition.
-/
import Mathlib

namespace Run

variable {σ ε : Type*} (step : σ → ε → σ)

/-- The state after the events `es`, taken in order from `s`. -/
def exec (s : σ) (es : List ε) : σ := es.foldl step s

/-- Every step of the run `es` from `s` meets the condition `C`. -/
def Along (C : σ → ε → Prop) : σ → List ε → Prop
  | _, [] => True
  | s, e :: es => C s e ∧ Along C (step s e) es

instance Along.instDecidable (C : σ → ε → Prop) [∀ s e, Decidable (C s e)] :
    ∀ s es, Decidable (Along step C s es)
  | _, [] => inferInstanceAs (Decidable True)
  | s, e :: es =>
    have := instDecidable C (step s e) es
    inferInstanceAs (Decidable (C s e ∧ Along step C (step s e) es))

@[simp] theorem exec_nil (s : σ) : exec step s [] = s := rfl

@[simp] theorem exec_cons (s : σ) (e : ε) (es : List ε) :
    exec step s (e :: es) = exec step (step s e) es := rfl

theorem exec_append (s : σ) (es fs : List ε) :
    exec step s (es ++ fs) = exec step (exec step s es) fs :=
  List.foldl_append

/-- The last event of a run acts on the state the rest of the run reaches. -/
theorem exec_concat (s : σ) (es : List ε) (e : ε) :
    exec step s (es ++ [e]) = step (exec step s es) e := by
  rw [exec_append, exec_cons, exec_nil]

variable {step}

/-- A weaker condition holds along every run that meets a stronger one. -/
theorem Along.mono {C D : σ → ε → Prop} (hCD : ∀ s e, C s e → D s e) {s : σ} {es : List ε}
    (h : Along step C s es) : Along step D s es := by
  induction es generalizing s with
  | nil => exact trivial
  | cons e es ih => exact ⟨hCD s e h.1, ih h.2⟩

/-- A condition holds along a run exactly if it holds along both parts of it. -/
theorem along_append {C : σ → ε → Prop} {s : σ} {es fs : List ε} :
    Along step C s (es ++ fs) ↔ Along step C s es ∧ Along step C (exec step s es) fs := by
  induction es generalizing s with
  | nil => exact (and_iff_right trivial).symm
  | cons e es ih =>
    show C s e ∧ Along step C (step s e) (es ++ fs) ↔ _
    rw [ih, ← and_assoc]
    rfl

/-- A condition every step meets holds along every run. -/
theorem along_of_forall {C : σ → ε → Prop} (hC : ∀ s e, C s e) (s : σ) (es : List ε) :
    Along step C s es := by
  induction es generalizing s with
  | nil => exact trivial
  | cons e es ih => exact ⟨hC s e, ih (step s e)⟩

/-- **Invariant rule.**  What holds initially and is kept by every admitted step
holds after every admitted run. -/
theorem exec_invariant {C : σ → ε → Prop} {P : σ → Prop} {s : σ} {es : List ε}
    (hinit : P s) (hstep : ∀ s e, P s → C s e → P (step s e))
    (hrun : Along step C s es) : P (exec step s es) := by
  induction es generalizing s with
  | nil => exact hinit
  | cons e es ih => exact ih (hstep s e hinit hrun.1) hrun.2

/-- The invariant rule for runs without a condition on their steps. -/
theorem exec_invariant_of_forall {P : σ → Prop} {s : σ} (es : List ε)
    (hinit : P s) (hstep : ∀ s e, P s → P (step s e)) : P (exec step s es) :=
  exec_invariant (C := fun _ _ => True) hinit (fun s e h _ => hstep s e h)
    (along_of_forall (fun _ _ => trivial) s es)

/-- Two conditions that agree in the states of an invariant hold along the same runs. -/
theorem along_congr {C D : σ → ε → Prop} {P : σ → Prop} (hstep : ∀ s e, P s → P (step s e))
    (hCD : ∀ s e, P s → (C s e ↔ D s e)) {s : σ} (hinit : P s) (es : List ε) :
    Along step C s es ↔ Along step D s es := by
  induction es generalizing s with
  | nil => exact Iff.rfl
  | cons e es ih => exact and_congr (hCD s e hinit) (ih (hstep s e hinit))

/-- **History rule.**  When a step keeps a property of the recorded history exactly if it meets
a condition, a run keeps the property exactly if all its steps meet the condition. -/
theorem exec_history_iff {C : σ → ε → Prop} {P Good : σ → Prop}
    (hstep : ∀ s e, P s → P (step s e))
    (hgood : ∀ s e, P s → (Good (step s e) ↔ Good s ∧ C s e)) {s : σ} (hinit : P s)
    (es : List ε) : Good (exec step s es) ↔ Good s ∧ Along step C s es := by
  induction es generalizing s with
  | nil => exact (and_iff_left trivial).symm
  | cons e es ih =>
    rw [exec_cons, ih (hstep s e hinit), hgood s e hinit, and_assoc]
    rfl

end Run
