/-
# Polling until a deadline

A loop that makes a check until one succeeds or a deadline is over, and sleeps between two
checks.  The clock is a number that only grows, and a sleep may take longer than it was asked
to, never shorter; so two checks begin at least one interval apart, which bounds their number
by the length of the wait (`Paced.checks_le`), however long each check takes.

The clock is looked at in one of two places: before each check, or after a check that failed.
The second kind makes one check more, and makes one even when there is no time at all.
-/
import Mathlib.Tactic.Ring

namespace Polling

/-- Where the loop looks at the clock, when it gives up, and how long it sleeps. -/
structure Schedule where
  looksFirst : Bool
  deadline : ℕ
  interval : ℕ
  deriving DecidableEq, Repr

/-- Where the loop is. -/
inductive Stage
  | head
  | checking
  | sleeping (wake : ℕ)
  | found
  | timedOut
  deriving DecidableEq, Repr

/-- The loop, with the number of checks it has begun. -/
structure Poll where
  stage : Stage
  checks : ℕ
  deriving DecidableEq, Repr

/-- What the loop waits for. -/
inductive Event
  | look
  | answered (success : Bool)
  | woke
  deriving DecidableEq, Repr

/-- The loop before its first turn. -/
def Poll.start : Poll := ⟨.head, 0⟩

/-- One step at the time `now`.  A sleep that is not over goes on. -/
def Schedule.step (p : Schedule) (now : ℕ) (s : Poll) (event : Event) : Poll :=
  match s.stage, event with
  | .head, .look =>
    if p.looksFirst && decide (p.deadline ≤ now) then { s with stage := .timedOut }
    else ⟨.checking, s.checks + 1⟩
  | .checking, .answered true => { s with stage := .found }
  | .checking, .answered false =>
    if !p.looksFirst && decide (p.deadline ≤ now) then { s with stage := .timedOut }
    else { s with stage := .sleeping (now + p.interval) }
  | .sleeping wake, .woke => if wake ≤ now then { s with stage := .head } else s
  | _, _ => s

/-- The checks that are made whatever the time is. -/
def Schedule.free (p : Schedule) : ℕ := if p.looksFirst then 0 else 1

/-- After `n` checks that do not count `free` ones, the deadline was not over when the last of
them began, `n - 1` intervals after the start. -/
def Schedule.InTime (p : Schedule) (start free n : ℕ) : Prop :=
  n ≤ free ∨ start + (n - free - 1) * p.interval < p.deadline

/-- The loop keeps its pace: what is known at each of its places at the time `now`. -/
def Schedule.Paced (p : Schedule) (start now : ℕ) (s : Poll) : Prop :=
  match s.stage with
  | .head => start + s.checks * p.interval ≤ now ∧ p.InTime start 0 s.checks
  | .sleeping wake => start + s.checks * p.interval ≤ wake ∧ p.InTime start 0 s.checks
  | .checking =>
    start + (s.checks - 1) * p.interval ≤ now ∧ 0 < s.checks ∧ p.InTime start p.free s.checks
  | .found => 0 < s.checks ∧ p.InTime start p.free s.checks
  | .timedOut => p.deadline ≤ now ∧ p.free ≤ s.checks ∧ p.InTime start p.free s.checks

variable {p : Schedule} {start now later free n : ℕ} {s : Poll}

/-- What is in time without free checks is in time with some. -/
theorem Schedule.InTime.of_zero (h : p.InTime start 0 n) : p.InTime start free n := by
  rcases h with h | h
  · exact Or.inl (by omega)
  · refine Or.inr (lt_of_le_of_lt ?_ h)
    have hle : (n - free - 1) * p.interval ≤ (n - 0 - 1) * p.interval :=
      Nat.mul_le_mul_right _ (by omega)
    omega

theorem Schedule.paced_start (p : Schedule) (start : ℕ) : p.Paced start start .start := by
  refine ⟨?_, Or.inl le_rfl⟩
  show start + 0 * p.interval ≤ start
  omega

/-- The pace is kept while time passes. -/
theorem Schedule.Paced.mono (h : p.Paced start now s) (hle : now ≤ later) :
    p.Paced start later s := by
  obtain ⟨stage, checks⟩ := s
  cases stage with
  | head => exact ⟨le_trans h.1 hle, h.2⟩
  | checking => exact ⟨le_trans h.1 hle, h.2⟩
  | sleeping wake => exact h
  | found => exact h
  | timedOut => exact ⟨le_trans h.1 hle, h.2⟩

/-- The loop begins a check. -/
theorem Schedule.Paced.look (h : p.Paced start now s) (hhead : s.stage = .head) :
    p.Paced start now (p.step now s .look) := by
  obtain ⟨stage, checks⟩ := s
  subst hhead
  obtain ⟨hpace, hin⟩ : start + checks * p.interval ≤ now ∧ p.InTime start 0 checks := h
  unfold Schedule.step
  dsimp only
  by_cases hover : (p.looksFirst && decide (p.deadline ≤ now)) = true
  · rw [if_pos hover]
    obtain ⟨hfirst, hdeadline⟩ := Bool.and_eq_true_iff.mp hover
    refine ⟨of_decide_eq_true hdeadline, ?_, Schedule.InTime.of_zero hin⟩
    rw [Schedule.free, if_pos hfirst]
    exact Nat.zero_le _
  · rw [if_neg hover]
    refine ⟨?_, Nat.succ_pos _, ?_⟩
    · show start + (checks + 1 - 1) * p.interval ≤ now
      rw [Nat.add_sub_cancel]
      exact hpace
    · unfold Schedule.free
      cases hfirst : p.looksFirst with
      | true =>
        rw [hfirst, Bool.true_and, decide_eq_true_eq] at hover
        refine Or.inr ?_
        show start + (checks + 1 - 0 - 1) * p.interval < p.deadline
        rw [Nat.sub_zero, Nat.add_sub_cancel]
        omega
      | false =>
        show p.InTime start 1 (checks + 1)
        rcases hin with hin | hin
        · exact Or.inl (by omega)
        · exact Or.inr hin

/-- A check is answered. -/
theorem Schedule.Paced.answered (h : p.Paced start now s) (hchecking : s.stage = .checking)
    (success : Bool) : p.Paced start now (p.step now s (.answered success)) := by
  obtain ⟨stage, checks⟩ := s
  subst hchecking
  obtain ⟨hpace, hpos, hin⟩ : start + (checks - 1) * p.interval ≤ now ∧ 0 < checks ∧
    p.InTime start p.free checks := h
  cases success with
  | true => exact ⟨hpos, hin⟩
  | false =>
    unfold Schedule.step
    dsimp only
    by_cases hover : (!p.looksFirst && decide (p.deadline ≤ now)) = true
    · rw [if_pos hover]
      refine ⟨of_decide_eq_true (Bool.and_eq_true_iff.mp hover).2, ?_, hin⟩
      show p.free ≤ checks
      have hfree : p.free ≤ 1 := by
        unfold Schedule.free
        split <;> omega
      omega
    · rw [if_neg hover]
      refine ⟨?_, ?_⟩
      · obtain ⟨n, rfl⟩ : ∃ n, checks = n + 1 := ⟨checks - 1, by omega⟩
        show start + (n + 1) * p.interval ≤ now + p.interval
        rw [Nat.add_sub_cancel] at hpace
        rw [Nat.succ_mul]
        omega
      · cases hfirst : p.looksFirst with
        | true =>
          rw [Schedule.free, if_pos hfirst] at hin
          exact hin
        | false =>
          rw [hfirst, Bool.not_false, Bool.true_and, decide_eq_true_eq] at hover
          refine Or.inr ?_
          show start + (checks - 0 - 1) * p.interval < p.deadline
          rw [Nat.sub_zero]
          omega

/-- A sleep is over. -/
theorem Schedule.Paced.woke {wake : ℕ} (h : p.Paced start now s)
    (hsleeping : s.stage = .sleeping wake) : p.Paced start now (p.step now s .woke) := by
  unfold Schedule.step
  rw [hsleeping]
  dsimp only
  by_cases hwake : wake ≤ now
  · rw [if_pos hwake]
    rw [Schedule.Paced, hsleeping] at h
    exact ⟨le_trans h.1 hwake, h.2⟩
  · rw [if_neg hwake]
    exact h

/-- **Every step keeps the pace.** -/
theorem Schedule.Paced.step (h : p.Paced start now s) (event : Event) :
    p.Paced start now (p.step now s event) := by
  cases hstage : s.stage <;> cases event
  case head.look => exact h.look hstage
  case checking.answered success => exact h.answered hstage success
  case sleeping.woke => exact h.woke hstage
  -- every other event finds the loop at a place where it waits for something else
  all_goals simpa only [Schedule.step, hstage] using h

/-- The number of checks is in time wherever the loop is. -/
theorem Schedule.Paced.inTime (h : p.Paced start now s) : p.InTime start p.free s.checks := by
  obtain ⟨stage, checks⟩ := s
  cases stage with
  | head => exact Schedule.InTime.of_zero h.2
  | sleeping wake => exact Schedule.InTime.of_zero h.2
  | checking => exact h.2.2
  | found => exact h.2
  | timedOut => exact h.2.2

/-- **The number of checks** is at most that of the intervals in the wait, and the free ones. -/
theorem Schedule.Paced.checks_le (h : p.Paced start now s) (hinterval : 0 < p.interval) :
    s.checks ≤ (p.deadline - start + p.interval - 1) / p.interval + p.free := by
  rcases h.inTime with hfree | hin
  · exact le_trans hfree (Nat.le_add_left _ _)
  · have hlt : s.checks - p.free - 1 < (p.deadline - start + p.interval - 1) / p.interval := by
      rw [← Nat.succ_le_iff, Nat.le_div_iff_mul_le hinterval, Nat.succ_mul]
      omega
    omega

/-! ## Where checks begin -/

/-- An answer begins no check. -/
theorem Schedule.checks_answered (p : Schedule) (now : ℕ) (s : Poll) (success : Bool) :
    (p.step now s (.answered success)).checks = s.checks := by
  obtain ⟨stage, checks⟩ := s
  cases stage <;> cases success
  case checking.false =>
    unfold Schedule.step
    dsimp only
    split <;> rfl
  all_goals rfl

/-- The end of a sleep begins no check. -/
theorem Schedule.checks_woke (p : Schedule) (now : ℕ) (s : Poll) :
    (p.step now s .woke).checks = s.checks := by
  obtain ⟨stage, checks⟩ := s
  cases stage with
  | sleeping wake =>
    unfold Schedule.step
    dsimp only
    split <;> rfl
  | _ => rfl

/-- A loop that looks at the clock after a check goes on only while it is early. -/
theorem Schedule.early_of_goes_on {p : Schedule} {now checks : ℕ} {success : Bool}
    (hlooks : p.looksFirst = false)
    (h : (p.step now ⟨.checking, checks⟩ (.answered success)).stage = .head ∨
      ∃ wake, (p.step now ⟨.checking, checks⟩ (.answered success)).stage = .sleeping wake) :
    now < p.deadline := by
  cases success with
  | true => rcases h with h | ⟨wake, h⟩ <;> cases h
  | false =>
    by_contra hover
    have hstep : p.step now ⟨.checking, checks⟩ (.answered false) = ⟨.timedOut, checks⟩ := by
      simp only [Schedule.step, hlooks, Bool.not_false, Bool.true_and,
        decide_eq_true (Nat.le_of_not_lt hover), if_true]
    rw [hstep] at h
    rcases h with h | ⟨wake, h⟩ <;> cases h

/-! ## Answers -/

/-- The checks that were answered, the last of them perhaps with success. -/
def Poll.answered (s : Poll) : ℕ := if s.stage = .checking then s.checks - 1 else s.checks

theorem Poll.answered_le (s : Poll) : s.answered ≤ s.checks := by
  unfold Poll.answered
  split
  · omega
  · exact le_rfl

/-- Reading the clock answers no check. -/
theorem Schedule.look_answers_nothing (p : Schedule) (now : ℕ) (s : Poll) :
    (p.step now s .look).answered = s.answered ∧
      ((p.step now s .look).stage = .found ↔ s.stage = .found) := by
  obtain ⟨stage, checks⟩ := s
  cases stage with
  | head =>
    unfold Schedule.step
    dsimp only
    split
    · exact ⟨rfl, nofun, nofun⟩
    · exact ⟨rfl, nofun, nofun⟩
  | _ => exact ⟨rfl, Iff.rfl⟩

/-- The end of a sleep answers no check. -/
theorem Schedule.woke_answers_nothing (p : Schedule) (now : ℕ) (s : Poll) :
    (p.step now s .woke).answered = s.answered ∧
      ((p.step now s .woke).stage = .found ↔ s.stage = .found) := by
  obtain ⟨stage, checks⟩ := s
  cases stage with
  | sleeping wake =>
    unfold Schedule.step
    dsimp only
    split
    · exact ⟨rfl, nofun, nofun⟩
    · exact ⟨rfl, nofun, nofun⟩
  | _ => exact ⟨rfl, Iff.rfl⟩

/-- A check that fails is one more. -/
theorem Schedule.Paced.failure_answers_one (h : p.Paced start now s)
    (hchecking : s.stage = .checking) :
    (p.step now s (.answered false)).answered = s.answered + 1 ∧
      (p.step now s (.answered false)).stage ≠ .found := by
  obtain ⟨stage, checks⟩ := s
  subst hchecking
  have hpos : 0 < checks := h.2.1
  have hone : checks = checks - 1 + 1 := by omega
  unfold Schedule.step
  dsimp only
  split
  · exact ⟨hone, nofun⟩
  · exact ⟨hone, nofun⟩

/-- A loop that is over stays as it is. -/
theorem Schedule.step_of_found (p : Schedule) (now : ℕ) {s : Poll} (h : s.stage = .found)
    (event : Event) : p.step now s event = s := by
  obtain ⟨stage, checks⟩ := s
  subst h
  rfl

/-- An answer that no check waits for is ignored. -/
theorem Schedule.step_answered_of_ne (p : Schedule) (now : ℕ) {s : Poll}
    (h : s.stage ≠ .checking) (success : Bool) : p.step now s (.answered success) = s := by
  obtain ⟨stage, checks⟩ := s
  cases stage with
  | checking => exact absurd rfl h
  | _ => rfl

end Polling
