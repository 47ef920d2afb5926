/-
# Programs with a state that may fail

A fallible program runs in `EStateM ε σ`: it ends with a value or with an error,
and in both cases it leaves a state behind.  Nothing is undone when it fails, so
a contract has a postcondition for success and one for failure.

* `Fallible.after` : the state a program leaves, however it ends;
* `Fallible.Triple P m Q E` : from `P`, success establishes `Q` and failure `E`;
* `Fallible.Clean` : a failing run leaves the state as it was;
* `Fallible.ReadOnly` : no run changes the state;
* `Fallible.Preserves` : no run changes what is observed of the state;
* `Fallible.Keeps` : every run keeps an invariant of the state;
* `Fallible.bind_eq_ok` : a sequence succeeds iff each part does.
-/
import Mathlib

namespace Fallible

variable {ε σ α β : Type}

/-- The state a program leaves, whether it succeeds or fails. -/
def after (m : EStateM ε σ α) (s : σ) : σ :=
  match m s with
  | .ok _ s' => s'
  | .error _ s' => s'

/-- Give up with the error `e` when `fails` is set, before `m` does anything. -/
def attempt (fails : Bool) (e : ε) (m : EStateM ε σ α) : EStateM ε σ α :=
  if fails then throw e else m

/-- Give up with the error `e` unless `c` holds. -/
def require (c : Bool) (e : ε) : EStateM ε σ Unit := if c then pure () else throw e

/-- Run `m`; when it fails, run `cleanup` as well, and ignore how that ends. -/
def onError (cleanup : EStateM ε σ Unit) (m : EStateM ε σ α) : EStateM ε σ α := fun s =>
  match m s with
  | .ok a s' => .ok a s'
  | .error e s' => .error e (after cleanup s')

/-- Run `m`, and take the errors in `accepted` for success. -/
def ignoring (accepted : ε → Bool) (m : EStateM ε σ Unit) : EStateM ε σ Unit := fun s =>
  match m s with
  | .ok _ s' => .ok () s'
  | .error e s' => if accepted e then .ok () s' else .error e s'

/-- Run `handler` instead when `m` fails with an error in `accepted`. -/
def recovering (accepted : ε → Bool) (handler : EStateM ε σ α) (m : EStateM ε σ α) :
    EStateM ε σ α := fun s =>
  match m s with
  | .ok a s' => .ok a s'
  | .error e s' => if accepted e then handler s' else .error e s'

/-- Report another error. -/
def mapError {ε' : Type} (f : ε → ε') (m : EStateM ε σ α) : EStateM ε' σ α := fun s =>
  match m s with
  | .ok a s' => .ok a s'
  | .error e s' => .error (f e) s'

/-! ## Runs that succeed -/

theorem pure_eq_ok {a b : α} {s s' : σ} :
    (pure a : EStateM ε σ α) s = .ok b s' ↔ a = b ∧ s' = s := by
  show EStateM.Result.ok a s = .ok b s' ↔ _
  rw [EStateM.Result.ok.injEq, eq_comm (a := s)]

theorem bind_eq_ok {m : EStateM ε σ α} {f : α → EStateM ε σ β} {b : β} {s s' : σ} :
    (m >>= f) s = .ok b s' ↔ ∃ a s₁, m s = .ok a s₁ ∧ f a s₁ = .ok b s' := by
  show EStateM.bind m f s = .ok b s' ↔ _
  unfold EStateM.bind
  cases m s with
  | ok a s₁ => simp
  | error e s₁ => simp

theorem bind_of_ok {m : EStateM ε σ α} {f : α → EStateM ε σ β} {a : α} {s s₁ : σ}
    (h : m s = .ok a s₁) : (m >>= f) s = f a s₁ := by
  show EStateM.bind m f s = _
  rw [EStateM.bind, h]

theorem bind_of_error {m : EStateM ε σ α} {f : α → EStateM ε σ β} {e : ε} {s s₁ : σ}
    (h : m s = .error e s₁) : (m >>= f) s = .error e s₁ := by
  show EStateM.bind m f s = _
  rw [EStateM.bind, h]

theorem attempt_eq_ok {fails : Bool} {e : ε} {m : EStateM ε σ α} {a : α} {s s' : σ} :
    attempt fails e m s = .ok a s' ↔ fails = false ∧ m s = .ok a s' := by
  cases fails with
  | false => simp [attempt]
  | true =>
    refine ⟨fun h => ?_, fun h => absurd h.1 (by simp)⟩
    cases h

theorem require_eq_ok {c : Bool} {e : ε} {a : Unit} {s s' : σ} :
    (require c e : EStateM ε σ Unit) s = .ok a s' ↔ c = true ∧ s' = s := by
  cases c with
  | false =>
    refine ⟨fun h => ?_, fun h => absurd h.1 (by simp)⟩
    cases h
  | true => exact pure_eq_ok.trans (by simp)

theorem onError_eq_ok {cleanup : EStateM ε σ Unit} {m : EStateM ε σ α} {a : α} {s s' : σ} :
    onError cleanup m s = .ok a s' ↔ m s = .ok a s' := by
  unfold onError
  cases m s <;> simp

theorem recovering_eq_ok {accepted : ε → Bool} {handler m : EStateM ε σ α} {a : α} {s s' : σ} :
    recovering accepted handler m s = .ok a s' ↔
      m s = .ok a s' ∨ ∃ e s₁, m s = .error e s₁ ∧ accepted e = true ∧ handler s₁ = .ok a s' := by
  unfold recovering
  cases hm : m s with
  | ok b s₁ => simp
  | error e s₁ =>
    cases he : accepted e with
    | true => simp [he]
    | false => simp [he]

theorem recovering_of_ok {accepted : ε → Bool} {handler m : EStateM ε σ α} {a : α} {s s' : σ}
    (h : m s = .ok a s') : recovering accepted handler m s = .ok a s' := by
  rw [recovering, h]

theorem recovering_of_error {accepted : ε → Bool} {handler m : EStateM ε σ α} {e : ε} {s s' : σ}
    (h : m s = .error e s') (he : accepted e = false) :
    recovering accepted handler m s = .error e s' := by
  rw [recovering, h]
  exact if_neg (by rw [he]; exact Bool.false_ne_true)

theorem mapError_eq_ok {ε' : Type} {f : ε → ε'} {m : EStateM ε σ α} {a : α} {s s' : σ} :
    mapError f m s = .ok a s' ↔ m s = .ok a s' := by
  unfold mapError
  cases m s <;> simp

theorem mapError_of_error {ε' : Type} {f : ε → ε'} {m : EStateM ε σ α} {e : ε} {s s' : σ}
    (h : m s = .error e s') : mapError f m s = .error (f e) s' := by
  unfold mapError
  rw [h]

/-- Another error leaves the same state. -/
theorem after_mapError {ε' : Type} {f : ε → ε'} {m : EStateM ε σ α} {s : σ} :
    after (mapError f m) s = after m s := by
  unfold after mapError
  cases m s <;> rfl

/-- Taking every error for success keeps only the state. -/
theorem ignoring_all {m : EStateM ε σ Unit} {s : σ} :
    ignoring (fun _ => true) m s = .ok () (after m s) := by
  unfold ignoring after
  cases m s <;> rfl

theorem after_of_ok {m : EStateM ε σ α} {a : α} {s s' : σ} (h : m s = .ok a s') :
    after m s = s' := by
  rw [after, h]

theorem after_of_error {m : EStateM ε σ α} {e : ε} {s s' : σ} (h : m s = .error e s') :
    after m s = s' := by
  rw [after, h]

/-- What a sequence leaves is what its rest leaves. -/
theorem after_bind_of_ok {m : EStateM ε σ α} {f : α → EStateM ε σ β} {a : α} {s s₁ : σ}
    (h : m s = .ok a s₁) : after (m >>= f) s = after (f a) s₁ := by
  rw [after, bind_of_ok h, after]

/-- What a sequence leaves is what its beginning leaves, if that fails. -/
theorem after_bind_of_error {m : EStateM ε σ α} {f : α → EStateM ε σ β} {e : ε} {s s₁ : σ}
    (h : m s = .error e s₁) : after (m >>= f) s = s₁ := by
  rw [after, bind_of_error h]

/-! ## Contracts -/

/-- From a state with `P`, a successful run of `m` with the value `a` ends with
`Q a`, and a failing run ends with `E`. -/
def Triple (P : σ → Prop) (m : EStateM ε σ α) (Q : α → σ → Prop) (E : σ → Prop) : Prop :=
  ∀ s, P s → (∀ a s', m s = .ok a s' → Q a s') ∧ ∀ e s', m s = .error e s' → E s'

/-- A failing run leaves the state as it was. -/
def Clean (m : EStateM ε σ α) : Prop := ∀ s e s', m s = .error e s' → s' = s

/-- A program that only looks at the state. -/
def ReadOnly (m : EStateM ε σ α) : Prop := ∀ s, after m s = s

/-- No run changes what `g` observes of the state. -/
def Preserves {γ : Type} (g : σ → γ) (m : EStateM ε σ α) : Prop := ∀ s, g (after m s) = g s

section Rules

variable {P P' E E' : σ → Prop} {m : EStateM ε σ α} {Q Q' : α → σ → Prop}

theorem Triple.of_clean (hm : Clean m) (hE : ∀ s, P s → E s)
    (hQ : ∀ s a s', P s → m s = .ok a s' → Q a s') : Triple P m Q E := by
  intro s hs
  refine ⟨fun a s' => hQ s a s' hs, fun e s' h => ?_⟩
  rw [hm s e s' h]
  exact hE s hs

theorem Triple.weaken (h : Triple P m Q E) (hP : ∀ s, P' s → P s) (hQ : ∀ a s, Q a s → Q' a s)
    (hE : ∀ s, E s → E' s) : Triple P' m Q' E' := by
  intro s hs
  obtain ⟨hok, herr⟩ := h s (hP s hs)
  exact ⟨fun a s' ha => hQ a s' (hok a s' ha), fun e s' he => hE s' (herr e s' he)⟩

/-- A fact that does not mention the state may be assumed. -/
theorem Triple.of_and {p : Prop} (h : p → Triple P m Q E) : Triple (fun s => p ∧ P s) m Q E :=
  fun s hs => h hs.1 s hs.2

theorem Triple.after {I : σ → Prop} (h : Triple P m (fun _ => I) I) {s : σ} (hs : P s) :
    I (after m s) := by
  cases hm : m s with
  | ok a s' =>
    rw [after_of_ok hm]
    exact (h s hs).1 a s' hm
  | error e s' =>
    rw [after_of_error hm]
    exact (h s hs).2 e s' hm

theorem Triple.pure {a : α} (h : ∀ s, P s → Q a s) :
    Triple P (pure a : EStateM ε σ α) Q E := by
  intro s hs
  refine ⟨fun b s' hb => ?_, fun e s' he => by cases he⟩
  obtain ⟨rfl, rfl⟩ := pure_eq_ok.mp hb
  exact h _ hs

theorem Triple.bind {R : α → σ → Prop} {f : α → EStateM ε σ β} {Q : β → σ → Prop}
    (hm : Triple P m R E) (hf : ∀ a, Triple (R a) (f a) Q E) : Triple P (m >>= f) Q E := by
  intro s hs
  obtain ⟨hok, herr⟩ := hm s hs
  show (∀ b s', EStateM.bind m f s = .ok b s' → _) ∧ ∀ e s', EStateM.bind m f s = .error e s' → _
  unfold EStateM.bind
  cases h : m s with
  | ok a s₁ => exact hf a s₁ (hok a s₁ h)
  | error e s₁ =>
    refine ⟨fun b s' hb => (by cases hb), fun e' s' he => ?_⟩
    obtain ⟨-, rfl⟩ := EStateM.Result.error.inj he
    exact herr e s₁ h

theorem Triple.onError {F : σ → Prop} {cleanup : EStateM ε σ Unit} (hm : Triple P m Q F)
    (hc : Triple F cleanup (fun _ => E) E) : Triple P (onError cleanup m) Q E := by
  intro s hs
  obtain ⟨hok, herr⟩ := hm s hs
  unfold Fallible.onError
  cases h : m s with
  | ok a s₁ =>
    refine ⟨fun b s' hb => ?_, fun e s' he => by cases he⟩
    obtain ⟨rfl, rfl⟩ := EStateM.Result.ok.inj hb
    exact hok a s₁ h
  | error e s₁ =>
    refine ⟨fun b s' hb => (by cases hb), fun e' s' he => ?_⟩
    obtain ⟨-, rfl⟩ := EStateM.Result.error.inj he
    exact hc.after (herr e s₁ h)

theorem Triple.mapError {ε' : Type} {f : ε → ε'} (hm : Triple P m Q E) :
    Triple P (mapError f m) Q E := by
  intro s hs
  obtain ⟨hok, herror⟩ := hm s hs
  refine ⟨fun a s' h => hok a s' (mapError_eq_ok.mp h), fun e s' h => ?_⟩
  unfold Fallible.mapError at h
  cases hrun : m s with
  | ok a s₁ =>
    rw [hrun] at h
    cases h
  | error e s₁ =>
    rw [hrun] at h
    obtain ⟨-, rfl⟩ := EStateM.Result.error.inj h
    exact herror e _ hrun

theorem Triple.ignoring {accepted : ε → Bool} {m : EStateM ε σ Unit} {I : σ → Prop}
    (hm : Triple P m (fun _ => I) I) : Triple P (ignoring accepted m) (fun _ => I) I := by
  intro s hs
  have hI := hm.after hs
  unfold Fallible.ignoring
  cases h : m s with
  | ok a s₁ =>
    rw [after_of_ok h] at hI
    exact ⟨fun b s' hb => (EStateM.Result.ok.inj hb).2 ▸ hI, fun e s' he => by cases he⟩
  | error e s₁ =>
    rw [after_of_error h] at hI
    show (∀ a s', (if accepted e then _ else _) = _ → _) ∧
      ∀ e' s', (if accepted e then _ else _) = _ → _
    split
    · exact ⟨fun b s' hb => (EStateM.Result.ok.inj hb).2 ▸ hI, fun e s' he => by cases he⟩
    · exact ⟨fun b s' hb => (by cases hb), fun e s' he => (EStateM.Result.error.inj he).2 ▸ hI⟩

theorem Clean.attempt {fails : Bool} {e : ε} (hm : Clean m) : Clean (attempt fails e m) := by
  intro s e' s' h
  cases fails with
  | false => exact hm s e' s' h
  | true => exact (EStateM.Result.error.inj h).2.symm

theorem ReadOnly.clean (hm : ReadOnly m) : Clean m := by
  intro s e s' h
  rw [← after_of_error h]
  exact hm s

/-- What fails after looking at the state leaves it as it was, too. -/
theorem Clean.bind_readOnly {f : α → EStateM ε σ β} (hm : ReadOnly m) (hf : ∀ a, Clean (f a)) :
    Clean (m >>= f) := by
  intro s e s' h
  have hs := hm s
  cases hrun : m s with
  | ok a s₁ =>
    rw [bind_of_ok hrun] at h
    rw [after_of_ok hrun] at hs
    rw [hf a s₁ e s' h, hs]
  | error e₁ s₁ =>
    rw [bind_of_error hrun] at h
    rw [after_of_error hrun] at hs
    rw [← (EStateM.Result.error.inj h).2, hs]

theorem Clean.mapError {ε' : Type} {f : ε → ε'} (hm : Clean m) : Clean (mapError f m) := by
  intro s e s' h
  unfold Fallible.mapError at h
  cases hrun : m s with
  | ok a s₁ =>
    rw [hrun] at h
    cases h
  | error e₁ s₁ =>
    rw [hrun] at h
    rw [← (EStateM.Result.error.inj h).2, hm s e₁ s₁ hrun]

theorem ReadOnly.eq_of_ok (hm : ReadOnly m) {s s' : σ} {a : α} (h : m s = .ok a s') : s' = s := by
  rw [← after_of_ok h]
  exact hm s

theorem ReadOnly.pure {a : α} : ReadOnly (pure a : EStateM ε σ α) := fun _ => rfl

theorem ReadOnly.throw {e : ε} : ReadOnly (throw e : EStateM ε σ α) := fun _ => rfl

theorem ReadOnly.attempt {fails : Bool} {e : ε} (hm : ReadOnly m) :
    ReadOnly (attempt fails e m) := by
  cases fails with
  | false => exact hm
  | true => exact ReadOnly.throw

theorem ReadOnly.require {c : Bool} {e : ε} : ReadOnly (require c e : EStateM ε σ Unit) := by
  cases c with
  | false => exact ReadOnly.throw
  | true => exact ReadOnly.pure

theorem ReadOnly.bind {f : α → EStateM ε σ β} (hm : ReadOnly m) (hf : ∀ a, ReadOnly (f a)) :
    ReadOnly (m >>= f) := by
  intro s
  cases h : m s with
  | ok a s₁ =>
    have hs₁ := hm.eq_of_ok h
    rw [after_bind_of_ok h, hf a s₁, hs₁]
  | error e s₁ =>
    rw [after_of_error (bind_of_error h)]
    exact hm.clean s e s₁ h

theorem ReadOnly.ignoring {accepted : ε → Bool} {m : EStateM ε σ Unit} (hm : ReadOnly m) :
    ReadOnly (ignoring accepted m) := by
  intro s
  refine (Triple.ignoring (P := fun s' => s' = s) (I := fun s' => s' = s) ?_).after rfl
  rintro _ rfl
  exact ⟨fun a s' h => hm.eq_of_ok h, fun e s' h => hm.clean _ e s' h⟩

/-- A sequence leaves what its first part leaves, if the rest only looks. -/
theorem after_bind_of_readOnly {f : α → EStateM ε σ β} (hf : ∀ a, ReadOnly (f a)) (s : σ) :
    Fallible.after (m >>= f) s = Fallible.after m s := by
  cases h : m s with
  | ok a s₁ =>
    rw [after_bind_of_ok h, hf a s₁, after_of_ok h]
  | error e s₁ => rw [after_of_error (bind_of_error h), after_of_error h]

theorem ReadOnly.mapError {ε' : Type} {f : ε → ε'} (hm : ReadOnly m) :
    ReadOnly (mapError f m) := fun s => after_mapError.trans (hm s)

/-! ### What a program leaves alone -/

variable {γ : Type} {g : σ → γ}

theorem Preserves.eq_of_ok (hm : Preserves g m) {s s' : σ} {a : α} (h : m s = .ok a s') :
    g s' = g s := by
  rw [← after_of_ok h]
  exact hm s

theorem Preserves.eq_of_error (hm : Preserves g m) {s s' : σ} {e : ε} (h : m s = .error e s') :
    g s' = g s := by
  rw [← after_of_error h]
  exact hm s

/-- What is preserved can be carried through a contract. -/
theorem Preserves.triple (hm : Preserves g m) (v : γ) :
    Triple (fun s => g s = v) m (fun _ s => g s = v) (fun s => g s = v) :=
  fun _ hs => ⟨fun _ _ h => (hm.eq_of_ok h).trans hs, fun _ _ h => (hm.eq_of_error h).trans hs⟩

theorem Preserves.of_triple
    (h : ∀ v, Triple (fun s => g s = v) m (fun _ s => g s = v) (fun s => g s = v)) :
    Preserves g m := fun s => (h (g s)).after rfl

/-- The frame rule of a contract. -/
theorem Triple.frame (h : Triple P m Q E) (hm : Preserves g m) (v : γ) :
    Triple (fun s => P s ∧ g s = v) m (fun a s => Q a s ∧ g s = v) (fun s => E s ∧ g s = v) := by
  intro s hs
  obtain ⟨hok, herr⟩ := h s hs.1
  obtain ⟨hok', herr'⟩ := hm.triple v s hs.2
  exact ⟨fun a s' ha => ⟨hok a s' ha, hok' a s' ha⟩, fun e s' he => ⟨herr e s' he, herr' e s' he⟩⟩

theorem ReadOnly.preserves (hm : ReadOnly m) : Preserves g m := fun s => congrArg g (hm s)

/-- A clean program preserves what its successful runs preserve. -/
theorem Preserves.of_clean (hm : Clean m) (h : ∀ s a s', m s = .ok a s' → g s' = g s) :
    Preserves g m := by
  intro s
  cases hrun : m s with
  | ok a s' =>
    rw [after_of_ok hrun]
    exact h s a s' hrun
  | error e s' => rw [after_of_error hrun, hm s e s' hrun]

/-- The frame rule of a sequence. -/
theorem Preserves.bind {f : α → EStateM ε σ β} (hm : Preserves g m)
    (hf : ∀ a s s', m s = .ok a s' → Preserves g (f a)) : Preserves g (m >>= f) := by
  intro s
  cases h : m s with
  | ok a s₁ =>
    rw [after_bind_of_ok h, hf a s s₁ h s₁]
    exact hm.eq_of_ok h
  | error e s₁ =>
    rw [after_of_error (bind_of_error h)]
    exact hm.eq_of_error h

theorem Preserves.ignoring {accepted : ε → Bool} {m : EStateM ε σ Unit} (hm : Preserves g m) :
    Preserves g (ignoring accepted m) := by
  intro s
  have hafter : Fallible.after (Fallible.ignoring accepted m) s = Fallible.after m s := by
    unfold Fallible.after Fallible.ignoring
    cases m s with
    | ok a s' => rfl
    | error e s' =>
      cases haccepted : accepted e with
      | true => simp only [haccepted, if_true]
      | false => simp only [haccepted, Bool.false_eq_true, if_false]
  rw [hafter]
  exact hm s

theorem Preserves.onError {cleanup : EStateM ε σ Unit} (hm : Preserves g m)
    (hc : Preserves g cleanup) : Preserves g (onError cleanup m) := by
  intro s
  cases h : m s with
  | ok a s' =>
    rw [after_of_ok (onError_eq_ok.mpr h)]
    exact hm.eq_of_ok h
  | error e s' =>
    have hrun : Fallible.onError cleanup m s = .error e (Fallible.after cleanup s') := by
      rw [Fallible.onError, h]
    rw [after_of_error hrun, hc s']
    exact hm.eq_of_error h

theorem Preserves.mapError {ε' : Type} {f : ε → ε'} (hm : Preserves g m) :
    Preserves g (mapError f m) := by
  intro s
  rw [after_mapError]
  exact hm s

theorem Preserves.recovering {accepted : ε → Bool} {handler : EStateM ε σ α}
    (hm : Preserves g m) (hh : Preserves g handler) :
    Preserves g (recovering accepted handler m) := by
  intro s
  unfold Fallible.after Fallible.recovering
  cases h : m s with
  | ok a s' => exact hm.eq_of_ok h
  | error e s' =>
    cases haccepted : accepted e with
    | true =>
      simp only [haccepted, if_true]
      exact (hh s').trans (hm.eq_of_error h)
    | false =>
      simp only [haccepted, Bool.false_eq_true, if_false]
      exact hm.eq_of_error h

end Rules

/-! ## Invariants -/

section Invariant

variable {ε σ α β : Type} {I : σ → Prop} {m : EStateM ε σ α}

/-- However a run of `m` ends, it keeps `I`. -/
def Keeps (I : σ → Prop) (m : EStateM ε σ α) : Prop := ∀ s, I s → I (after m s)

theorem Preserves.keeps {γ : Type} {g : σ → γ} (hm : Preserves g m)
    (hI : ∀ s s', g s' = g s → I s → I s') : Keeps I m :=
  fun s hs => hI s _ (hm s) hs

theorem Preserves.of_keeps {γ : Type} {g : σ → γ} (h : ∀ v, Keeps (fun s => g s = v) m) :
    Preserves g m :=
  fun s => h (g s) s rfl

theorem Keeps.and {J : σ → Prop} (hI : Keeps I m) (hJ : Keeps J m) :
    Keeps (fun s => I s ∧ J s) m :=
  fun s hs => ⟨hI s hs.1, hJ s hs.2⟩

theorem ReadOnly.keeps (hm : ReadOnly m) : Keeps I m := fun s hs => by
  rw [hm s]
  exact hs

theorem Keeps.of_ok (hm : Keeps I m) {s s' : σ} {a : α} (hs : I s) (h : m s = .ok a s') :
    I s' := by
  have hI := hm s hs
  rwa [after_of_ok h] at hI

theorem Keeps.of_error (hm : Keeps I m) {s s' : σ} {e : ε} (hs : I s) (h : m s = .error e s') :
    I s' := by
  have hI := hm s hs
  rwa [after_of_error h] at hI

theorem Keeps.bind {f : α → EStateM ε σ β} (hm : Keeps I m) (hf : ∀ a, Keeps I (f a)) :
    Keeps I (m >>= f) := by
  intro s hs
  cases h : m s with
  | ok a s₁ =>
    rw [after_bind_of_ok h]
    exact hf a s₁ (hm.of_ok hs h)
  | error e s₁ =>
    rw [after_of_error (bind_of_error h)]
    exact hm.of_error hs h

theorem Keeps.mapError {ε' : Type} {f : ε → ε'} (hm : Keeps I m) :
    Keeps I (mapError f m) := by
  intro s hs
  rw [after_mapError]
  exact hm s hs

theorem Keeps.onError {cleanup : EStateM ε σ Unit} (hm : Keeps I m) (hc : Keeps I cleanup) :
    Keeps I (onError cleanup m) := by
  intro s hs
  have hI := hm s hs
  unfold after Fallible.onError
  cases hrun : m s with
  | ok a s' => rwa [after_of_ok hrun] at hI
  | error e s' =>
    rw [after_of_error hrun] at hI
    exact hc s' hI

theorem Keeps.recovering {accepted : ε → Bool} {handler : EStateM ε σ α} (hm : Keeps I m)
    (hh : Keeps I handler) : Keeps I (recovering accepted handler m) := by
  intro s hs
  unfold after Fallible.recovering
  cases h : m s with
  | ok a s' => exact hm.of_ok hs h
  | error e s' =>
    have hs' := hm.of_error hs h
    cases haccepted : accepted e with
    | true =>
      simp only [haccepted, if_true]
      exact hh s' hs'
    | false =>
      simp only [haccepted, Bool.false_eq_true, if_false]
      exact hs'

theorem Keeps.ignoring {accepted : ε → Bool} {m : EStateM ε σ Unit} (hm : Keeps I m) :
    Keeps I (ignoring accepted m) := by
  intro s hs
  unfold after Fallible.ignoring
  cases h : m s with
  | ok a s' => exact hm.of_ok hs h
  | error e s' =>
    have hs' := hm.of_error hs h
    cases haccepted : accepted e with
    | true =>
      simp only [haccepted, if_true]
      exact hs'
    | false =>
      simp only [haccepted, Bool.false_eq_true, if_false]
      exact hs'

end Invariant

end Fallible
