/-
# Lines and fields of a text

A text is a list of characters.  Its lines end at a line feed, with or without a carriage
return before it, and the last line needs no end; its fields are the runs between separators.

* `lines_append_newline` : a line feed cuts a text into two, and the lines add up;
* `fields_append_cons` : so does a separator for the fields.
-/
import Mathlib

namespace TextLines

/-! ## Lines -/

/-- The pieces of a text, each with the line feed that ends it. -/
def splitInclusive : List Char → List (List Char)
  | [] => []
  | c :: s =>
    if c = '\n' then [c] :: splitInclusive s
    else
      match splitInclusive s with
      | [] => [[c]]
      | piece :: pieces => (c :: piece) :: pieces

/-- A piece without the line feed that ends it and a carriage return right before this. -/
def stripEnd (piece : List Char) : List Char :=
  if piece.getLast? = some '\n' then
    if piece.dropLast.getLast? = some '\r' then piece.dropLast.dropLast else piece.dropLast
  else piece

/-- The lines of a text. -/
def lines (s : List Char) : List (List Char) := (splitInclusive s).map stripEnd

theorem splitInclusive_append_newline (s t : List Char) :
    splitInclusive (s ++ '\n' :: t) = splitInclusive (s ++ ['\n']) ++ splitInclusive t := by
  induction s with
  | nil => simp [splitInclusive]
  | cons c s ih =>
    rw [List.cons_append, List.cons_append, splitInclusive, splitInclusive, ih]
    by_cases hc : c = '\n'
    · simp [hc]
    · rw [if_neg hc, if_neg hc]
      -- the first part ends with a line feed, so it has a first piece
      cases hpieces : splitInclusive (s ++ ['\n']) with
      | nil =>
        cases s with
        | nil => simp [splitInclusive] at hpieces
        | cons d s =>
          rw [List.cons_append, splitInclusive] at hpieces
          split at hpieces
          · cases hpieces
          · split at hpieces <;> cases hpieces
      | cons piece pieces => rfl

/-- **A line feed cuts a text**, and its end belongs to what is before it. -/
theorem lines_append_newline (s t : List Char) :
    lines (s ++ '\n' :: t) = lines (s ++ ['\n']) ++ lines t := by
  rw [lines, splitInclusive_append_newline, List.map_append]
  rfl

/-- Each line feed ends a line. -/
theorem count_newline_le_length_lines (s : List Char) : s.count '\n' ≤ (lines s).length := by
  rw [lines, List.length_map]
  induction s with
  | nil => simp
  | cons c s ih =>
    rw [splitInclusive]
    by_cases hc : c = '\n'
    · simpa [hc] using ih
    · rw [if_neg hc, List.count_cons_of_ne hc]
      cases hpieces : splitInclusive s with
      | nil =>
        rw [hpieces] at ih
        exact ih.trans (Nat.zero_le _)
      | cons piece pieces =>
        rw [hpieces] at ih
        exact ih

/-- A line that no reader breaks: without a line feed in it or a carriage return at its end. -/
def Unbroken (line : List Char) : Prop := '\n' ∉ line ∧ line.getLast? ≠ some '\r'

/-- The text of some lines, each with a line feed after it. -/
def joinLines (ls : List (List Char)) : List Char := ls.flatMap fun line => line ++ ['\n']

theorem lines_of_unbroken {line : List Char} (h : Unbroken line) :
    lines (line ++ ['\n']) = [line] := by
  obtain ⟨hfeed, hend⟩ := h
  have hsplit : splitInclusive (line ++ ['\n']) = [line ++ ['\n']] := by
    clear hend
    induction line with
    | nil => rfl
    | cons c line ih =>
      obtain ⟨hc, hline⟩ := List.ne_and_not_mem_of_not_mem_cons hfeed
      rw [List.cons_append, splitInclusive, if_neg (Ne.symm hc), ih hline]
  rw [lines, hsplit, List.map_singleton, stripEnd, List.getLast?_concat, if_pos rfl,
    List.dropLast_concat, if_neg hend]

/-- **Lines that are written are read back.** -/
theorem lines_joinLines {ls : List (List Char)} (h : ∀ line ∈ ls, Unbroken line) :
    lines (joinLines ls) = ls := by
  induction ls with
  | nil => rfl
  | cons line ls ih =>
    have hline := lines_of_unbroken (h line List.mem_cons_self)
    show lines ((line ++ ['\n']) ++ joinLines ls) = _
    rw [List.append_assoc, List.singleton_append, lines_append_newline, hline,
      ih fun line' hline' => h line' (List.mem_cons_of_mem line hline')]
    rfl

/-! ## Fields -/

section Fields

variable {α : Type*} {p : α → Bool}

/-- The runs of a text between its separators. -/
def fields (p : α → Bool) (s : List α) : List (List α) := (s.splitOnP p).filter (· ≠ [])

/-- **A separator cuts a text.** -/
theorem fields_append_cons {c : α} (hc : p c = true) (s t : List α) :
    fields p (s ++ c :: t) = fields p s ++ fields p t := by
  rw [fields, List.splitOnP_append_cons s t hc, List.filter_append]
  rfl

/-- A run without separators is one field. -/
theorem fields_of_forall_not {s : List α} (hne : s ≠ []) (h : ∀ c ∈ s, p c = false) :
    fields p s = [s] := by
  rw [fields, List.splitOnP_eq_singleton fun c hc => by simp [h c hc]]
  simp [hne]

/-- Separators between two texts add nothing. -/
theorem fields_append_append {sep : List α} (hne : sep ≠ []) (hsep : ∀ c ∈ sep, p c = true)
    (s t : List α) : fields p (s ++ sep ++ t) = fields p s ++ fields p t := by
  induction sep generalizing s with
  | nil => exact absurd rfl hne
  | cons c sep ih =>
    have hc := hsep c List.mem_cons_self
    cases hrest : sep with
    | nil => rw [List.append_assoc, List.singleton_append, fields_append_cons hc]
    | cons d rest =>
      rw [← hrest]
      have hnext := ih (by simp [hrest]) (fun d hd => hsep d (List.mem_cons_of_mem _ hd)) (s ++ [c])
      have hend : fields p (s ++ [c]) = fields p s := by
        rw [fields_append_cons hc]
        simp [fields]
      rw [hend] at hnext
      simpa using hnext

end Fields

end TextLines
