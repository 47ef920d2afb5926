/-
# Sections of a list

Headers cut a list into sections, each with a body up to the next header.  A scan goes through
the list once with a state that every header starts again, and asks at the end of each section
whether the state is accepted.

* `SectionAt` : a section of a list;
* `scan_iff` : a scan accepts if and only if it accepts the body of one section, or the part
  before the first header;
* `LastValue` : the last value of a key in a body; `foldl_lastFlag_iff` : what a flag that every
  entry of the key sets anew is at the end.
-/
import Mathlib

namespace Sections

variable {α σ κ ν : Type*}

/-! ## Sections -/

section Scan

variable {isHeader : α → Bool}

/-- `body` is what stands in the list between the header `h` and the next header or the end. -/
structure SectionAt (isHeader : α → Bool) (l : List α) (h : α) (body : List α) : Prop where
  split : ∃ before after, l = before ++ h :: (body ++ after) ∧
    ∀ x, after.head? = some x → isHeader x = true
  header : isHeader h = true
  body : ∀ x ∈ body, isHeader x = false

/-- The part of a list before its first header. -/
def preamble (isHeader : α → Bool) (l : List α) : List α := l.takeWhile fun x => !isHeader x

theorem preamble_append {body after : List α} (hbody : ∀ x ∈ body, isHeader x = false)
    (hafter : ∀ x, after.head? = some x → isHeader x = true) :
    preamble isHeader (body ++ after) = body := by
  rw [preamble, List.takeWhile_append_of_pos fun x hx => by rw [hbody x hx]; rfl]
  cases after with
  | nil => exact List.append_nil body
  | cons x after =>
    rw [List.takeWhile_cons_of_neg, List.append_nil]
    rw [hafter x rfl]
    exact Bool.false_ne_true

theorem not_sectionAt_nil {h : α} {body : List α} : ¬ SectionAt isHeader [] h body := by
  rintro ⟨⟨before, after, hsplit, -⟩, -, -⟩
  cases before <;> cases hsplit

/-- **The sections of a list** are those of its tail, and one more if it starts with a header. -/
theorem sectionAt_cons {x h : α} {l body : List α} :
    SectionAt isHeader (x :: l) h body ↔
      (isHeader x = true ∧ h = x ∧ body = preamble isHeader l) ∨ SectionAt isHeader l h body := by
  constructor
  · rintro ⟨⟨before, after, hsplit, hafter⟩, hheader, hbody⟩
    cases before with
    | nil =>
      obtain ⟨rfl, rfl⟩ := List.cons.inj hsplit
      exact Or.inl ⟨hheader, rfl, (preamble_append hbody hafter).symm⟩
    | cons y before =>
      obtain ⟨rfl, rfl⟩ := List.cons.inj hsplit
      exact Or.inr ⟨⟨before, after, rfl, hafter⟩, hheader, hbody⟩
  · rintro (⟨hheader, rfl, rfl⟩ | ⟨⟨before, after, rfl, hafter⟩, hheader, hbody⟩)
    · refine ⟨⟨[], l.dropWhile fun x => !isHeader x, ?_, fun x hx => ?_⟩, hheader, fun x hx => ?_⟩
      · rw [preamble, List.takeWhile_append_dropWhile, List.nil_append]
      · have hno := List.head?_dropWhile_not (fun x => !isHeader x) l
        rw [hx] at hno
        simpa using hno
      · have hno := List.mem_takeWhile_imp hx
        simpa using hno
    · exact ⟨⟨x :: before, after, rfl, hafter⟩, hheader, hbody⟩

/-- Go through a list with a state that every header starts again. -/
def scan (isHeader : α → Bool) (accepts : σ → Bool) (start : α → σ) (step : σ → α → σ) :
    σ → List α → Bool
  | st, [] => accepts st
  | st, x :: l =>
    if isHeader x then accepts st || scan isHeader accepts start step (start x) l
    else scan isHeader accepts start step (step st x) l

/-- **A scan looks at one section at a time.** -/
theorem scan_iff {accepts : σ → Bool} {start : α → σ} {step : σ → α → σ} {st : σ}
    {l : List α} :
    scan isHeader accepts start step st l = true ↔
      accepts ((preamble isHeader l).foldl step st) = true ∨
        ∃ h body, SectionAt isHeader l h body ∧ accepts (body.foldl step (start h)) = true := by
  induction l generalizing st with
  | nil =>
    constructor
    · exact Or.inl
    · rintro (h | ⟨h, body, hsection, -⟩)
      · exact h
      · exact absurd hsection not_sectionAt_nil
  | cons x l ih =>
    rw [scan]
    cases hx : isHeader x with
    | true =>
      have hpreamble : preamble isHeader (x :: l) = [] := by
        simp [preamble, hx]
      rw [if_pos rfl, Bool.or_eq_true, ih, hpreamble, List.foldl_nil]
      constructor
      · rintro (h | h | ⟨h, body, hsection, haccepts⟩)
        · exact Or.inl h
        · exact Or.inr ⟨x, _, sectionAt_cons.mpr (Or.inl ⟨hx, rfl, rfl⟩), h⟩
        · exact Or.inr ⟨h, body, sectionAt_cons.mpr (Or.inr hsection), haccepts⟩
      · rintro (h | ⟨h, body, hsection, haccepts⟩)
        · exact Or.inl h
        · rcases sectionAt_cons.mp hsection with ⟨-, rfl, rfl⟩ | hsection
          · exact Or.inr (Or.inl haccepts)
          · exact Or.inr (Or.inr ⟨h, body, hsection, haccepts⟩)
    | false =>
      have hpreamble : preamble isHeader (x :: l) = x :: preamble isHeader l := by
        simp [preamble, hx]
      rw [if_neg Bool.false_ne_true, ih, hpreamble, List.foldl_cons]
      refine or_congr Iff.rfl (exists_congr fun h => exists_congr fun body =>
        and_congr ?_ Iff.rfl)
      rw [sectionAt_cons, hx]
      simp

end Scan

/-! ## The last value of a key -/

section LastValue

variable {entry : α → Option (κ × ν)} {key : κ}

/-- The last entry of the key in the list has the value. -/
def LastValue (entry : α → Option (κ × ν)) (key : κ) (l : List α) (value : ν) : Prop :=
  ∃ before x after, l = before ++ x :: after ∧ entry x = some (key, value) ∧
    ∀ y ∈ after, ∀ v, entry y ≠ some (key, v)

theorem lastValue_concat_of_eq {l : List α} {x : α} {v value : ν}
    (h : entry x = some (key, v)) :
    LastValue entry key (l ++ [x]) value ↔ value = v := by
  constructor
  · rintro ⟨before, y, after, hsplit, hy, hafter⟩
    rcases List.eq_nil_or_concat after with rfl | ⟨after, z, rfl⟩
    · obtain ⟨-, hx⟩ := List.append_inj' hsplit rfl
      obtain rfl := (List.cons.inj hx).1
      rw [h] at hy
      exact (Prod.mk.inj (Option.some.inj hy)).2.symm
    · rw [List.concat_eq_append, ← List.cons_append, ← List.append_assoc] at hsplit
      obtain ⟨-, hx⟩ := List.append_inj' hsplit rfl
      obtain rfl := (List.cons.inj hx).1
      exact absurd h (hafter x (by simp) v)
  · rintro rfl
    exact ⟨l, x, [], rfl, h, fun y hy => by cases hy⟩

theorem lastValue_concat_of_ne {l : List α} {x : α} {value : ν}
    (h : ∀ v, entry x ≠ some (key, v)) :
    LastValue entry key (l ++ [x]) value ↔ LastValue entry key l value := by
  constructor
  · rintro ⟨before, y, after, hsplit, hy, hafter⟩
    rcases List.eq_nil_or_concat after with rfl | ⟨after, z, rfl⟩
    · obtain ⟨-, hx⟩ := List.append_inj' hsplit rfl
      obtain rfl := (List.cons.inj hx).1
      exact absurd hy (h value)
    · rw [List.concat_eq_append, ← List.cons_append, ← List.append_assoc] at hsplit
      obtain ⟨rfl, -⟩ := List.append_inj' hsplit rfl
      refine ⟨before, y, after, rfl, hy, fun w hw => hafter w ?_⟩
      rw [List.concat_eq_append]
      exact List.mem_append_left _ hw
  · rintro ⟨before, y, after, rfl, hy, hafter⟩
    refine ⟨before, y, after ++ [x], by simp, hy, fun w hw => ?_⟩
    rcases List.mem_append.mp hw with hw | hw
    · exact hafter w hw
    · rw [List.mem_singleton.mp hw]
      exact h

variable [DecidableEq κ]

/-- A flag that an entry of the key sets anew, by its value. -/
def lastFlag (entry : α → Option (κ × ν)) (key : κ) (p : ν → Bool) (flag : Bool) (x : α) : Bool :=
  match entry x with
  | some (k, v) => if k = key then p v else flag
  | none => flag

theorem lastFlag_of_ne {p : ν → Bool} {flag : Bool} {x : α}
    (h : ∀ v, entry x ≠ some (key, v)) : lastFlag entry key p flag x = flag := by
  unfold lastFlag
  split
  · rename_i k v hx
    apply if_neg
    rintro rfl
    exact h v hx
  · rfl

theorem lastFlag_of_eq {p : ν → Bool} {flag : Bool} {x : α} {v : ν}
    (h : entry x = some (key, v)) : lastFlag entry key p flag x = p v := by
  rw [lastFlag, h]
  exact if_pos rfl

/-- **The last entry decides.**  The induction is from the end of the list. -/
theorem foldl_lastFlag_iff {p : ν → Bool} {l : List α} :
    l.foldl (lastFlag entry key p) false = true ↔
      ∃ value, LastValue entry key l value ∧ p value = true := by
  induction l using List.reverseRecOn with
  | nil =>
    constructor
    · intro h
      cases h
    · rintro ⟨value, ⟨before, x, after, hsplit, -, -⟩, -⟩
      cases before <;> cases hsplit
  | append_singleton l x ih =>
    rw [List.foldl_append, List.foldl_cons, List.foldl_nil]
    by_cases hx : ∃ v, entry x = some (key, v)
    · obtain ⟨v, hv⟩ := hx
      rw [lastFlag_of_eq hv]
      simp only [lastValue_concat_of_eq hv, exists_eq_left]
    · have hne : ∀ v, entry x ≠ some (key, v) := fun v hv => hx ⟨v, hv⟩
      rw [lastFlag_of_ne hne, ih]
      simp only [lastValue_concat_of_ne hne]

end LastValue

end Sections
