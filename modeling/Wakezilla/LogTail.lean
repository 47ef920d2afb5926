/-
# The end of a log

`print_last_log_lines` of `src/service.rs` prints the last lines of a log file.  It does not
read the file from its beginning: `read_tail_for_lines` reads chunks from the end on, until
it has seen more line feeds than lines are wanted or the file is read.

`readTail_spec` is the invariant of that loop, and `log_tail_eq` says that the lines printed
are the last ones of the whole file.
-/
import Wakezilla.Library.TextLines
import Wakezilla.Library.Utf8Lossy

namespace Wakezilla

open TextLines Utf8Lossy

/-! ## Reading and printing -/

/-- `CHUNK_SIZE`. -/
def chunkSize : ℕ := 8192

/-- The bytes of a file from a position on, at most `length` of them. -/
def readAt (contents : List UInt8) (position length : ℕ) : List UInt8 :=
  (contents.drop position).take length

/-- The loop of `read_tail_for_lines`. -/
def readTail (contents : List UInt8) (lineCount remaining newlineCount : ℕ)
    (chunks : List (List UInt8)) : List (List UInt8) :=
  if remaining > 0 ∧ newlineCount ≤ lineCount then
    let readLen := min remaining chunkSize
    let chunk := readAt contents (remaining - readLen) readLen
    readTail contents lineCount (remaining - readLen) (newlineCount + chunk.count newline)
      (chunk :: chunks)
  else chunks
termination_by remaining
decreasing_by
  unfold chunkSize
  omega

/-- `read_tail_for_lines`. -/
def readTailForLines (contents : List UInt8) (lineCount : UInt32) : List UInt8 :=
  (readTail contents lineCount.toNat contents.length 0 []).flatten

/-- `print_last_log_lines`: the lines that it prints. -/
def printLastLogLines (contents : List UInt8) (lineCount : UInt32) : List (List Char) :=
  if lineCount = 0 then []
  else
    let lines := lines (decode (readTailForLines contents lineCount))
    lines.drop (lines.length - lineCount.toNat)

/-! ## What is read -/

/-- **The loop** stops with an end of the file that has more line feeds than lines are wanted, or
with the whole file. -/
theorem readTail_spec {contents : List UInt8} {lineCount remaining newlineCount : ℕ}
    {chunks : List (List UInt8)} (hchunks : chunks.flatten = contents.drop remaining)
    (hcount : newlineCount = chunks.flatten.count newline) (hle : remaining ≤ contents.length) :
    ∃ position, (readTail contents lineCount remaining newlineCount chunks).flatten =
        contents.drop position ∧
      (position = 0 ∨ lineCount < (contents.drop position).count newline) := by
  induction remaining, newlineCount, chunks using readTail.induct contents lineCount with
  | case1 remaining newlineCount chunks hcontinue readLen chunk ih =>
    rw [readTail, if_pos hcontinue]
    have hread : readLen ≤ remaining := Nat.min_le_left _ _
    -- the chunk lies right before what was read
    have hflatten : (chunk :: chunks).flatten = contents.drop (remaining - readLen) := by
      have hrest :
          contents.drop remaining = (contents.drop (remaining - readLen)).drop readLen := by
        rw [List.drop_drop]
        congr 1
        omega
      rw [List.flatten_cons, hchunks, hrest]
      exact List.take_append_drop readLen _
    refine ih hflatten ?_ (by omega)
    rw [List.flatten_cons, List.count_append, hcount, Nat.add_comm]
  | case2 remaining newlineCount chunks hstop =>
    rw [readTail, if_neg hstop]
    refine ⟨remaining, hchunks, ?_⟩
    rw [hchunks] at hcount
    omega

theorem readTailForLines_spec (contents : List UInt8) (lineCount : UInt32) :
    ∃ position, readTailForLines contents lineCount = contents.drop position ∧
      (position = 0 ∨ lineCount.toNat < (contents.drop position).count newline) :=
  readTail_spec (by simp) (by simp) le_rfl

/-! ## What is printed -/

/-- The last lines of a text are those behind a line feed, if there are enough of them. -/
theorem drop_lines_append_newline (s t : List Char) {n : ℕ} (hn : n ≤ (lines t).length) :
    (lines (s ++ '\n' :: t)).drop ((lines (s ++ '\n' :: t)).length - n) =
      (lines t).drop ((lines t).length - n) := by
  rw [lines_append_newline, List.length_append, Nat.add_sub_assoc hn, List.drop_append,
    List.drop_eq_nil_of_le (Nat.le_add_right _ _), List.nil_append, Nat.add_sub_cancel_left]

/-- An end of the file with more line feeds than lines are wanted has the last lines of the
file. -/
theorem drop_lines_decode_drop {contents : List UInt8} {position n : ℕ}
    (h : n < (contents.drop position).count newline) :
    (lines (decode (contents.drop position))).drop
        ((lines (decode (contents.drop position))).length - n) =
      (lines (decode contents)).drop ((lines (decode contents)).length - n) := by
  -- the first line feed that was read; behind it there are still enough
  have hmem : newline ∈ contents.drop position := List.count_pos_iff.mp (by omega)
  obtain ⟨before, after, hread, hbefore⟩ := List.eq_append_cons_of_mem hmem
  have hwhole : contents = (contents.take position ++ before) ++ newline :: after := by
    rw [List.append_assoc, ← hread, List.take_append_drop]
  have hafter : n ≤ (lines (decode after)).length := by
    rw [hread, List.count_append, List.count_eq_zero_of_not_mem hbefore,
      List.count_cons_self] at h
    have hdecoded := (count_newline_le after).trans (count_newline_le_length_lines _)
    omega
  rw [hread, decode_append_newline, drop_lines_append_newline _ _ hafter]
  conv_rhs => rw [hwhole, decode_append_newline, drop_lines_append_newline _ _ hafter]

/-- **The chunked tail equals the plain one.**  For every file and every number of lines, the
lines printed are the last ones of the whole file, as many as are wanted or all of them. -/
theorem log_tail_eq (contents : List UInt8) (lineCount : UInt32) :
    printLastLogLines contents lineCount =
      (lines (decode contents)).drop ((lines (decode contents)).length -
        min lineCount.toNat (lines (decode contents)).length) := by
  have hmin : ∀ total : ℕ, total - min lineCount.toNat total = total - lineCount.toNat := by
    omega
  rw [hmin, printLastLogLines]
  split
  · rename_i hzero
    rw [hzero]
    exact List.drop_length.symm
  · obtain ⟨position, hread, hposition⟩ := readTailForLines_spec contents lineCount
    rw [hread]
    rcases hposition with rfl | hcount
    · rfl
    · exact drop_lines_decode_drop hcount

end Wakezilla
