/-
# A file with several writers

Two programs that have opened the same file write it through offsets of their own.
A write replaces what lies at its offset, lengthens the file if it has to, and fills a
hole with `zero`.

* `writeAt` : the content after a write;
* `OnTrack text offset content` : a writer of `text` that has written `offset` elements
  of it leaves exactly `text`, if no one else writes;
* what keeps a writer on track: its own writes (`OnTrack.advance`), another writer of the
  same text (`OnTrack.writeAt_same`), and writes that it has yet to overwrite
  (`OnTrack.writeAt_ahead`).
-/
import Mathlib

namespace SharedFile

variable {β : Type*} {zero : β}

/-- Write `bytes` at an offset.  Writing nothing does nothing. -/
def writeAt (zero : β) (content : List β) (offset : ℕ) (bytes : List β) : List β :=
  if bytes = [] then content
  else
    content.take offset ++ List.replicate (offset - content.length) zero ++ bytes ++
      content.drop (offset + bytes.length)

/-- The part of `text` that a write of `n` elements at an offset carries. -/
def chunk (text : List β) (offset n : ℕ) : List β := (text.drop offset).take n

/-- The file is no longer than `text` and begins with its first `offset` elements. -/
structure OnTrack (text : List β) (offset : ℕ) (content : List β) : Prop where
  written : offset ≤ content.length
  bounded : content.length ≤ text.length
  agrees : ∀ i < offset, content[i]? = text[i]?

/-! ## What a write does -/

theorem length_chunk {text : List β} {offset n : ℕ} (h : offset + n ≤ text.length) :
    (chunk text offset n).length = n := by
  unfold chunk
  rw [List.length_take, List.length_drop]
  omega

theorem getElem?_chunk {text : List β} {offset n i : ℕ} (h : i < n) :
    (chunk text offset n)[i]? = text[offset + i]? := by
  unfold chunk
  rw [List.getElem?_take_of_lt h, List.getElem?_drop]

theorem length_writeAt (content : List β) (offset : ℕ) {bytes : List β} (h : bytes ≠ []) :
    (writeAt zero content offset bytes).length = max content.length (offset + bytes.length) := by
  unfold writeAt
  rw [if_neg h]
  simp only [List.length_append, List.length_take, List.length_replicate, List.length_drop]
  omega

/-- An element in front of the offset stays. -/
theorem getElem?_writeAt_lt {content : List β} {offset i : ℕ} (bytes : List β)
    (hi : i < offset) (hlen : i < content.length) :
    (writeAt zero content offset bytes)[i]? = content[i]? := by
  unfold writeAt
  split
  · rfl
  · rw [List.getElem?_append_left, List.getElem?_append_left, List.getElem?_append_left,
      List.getElem?_take_of_lt hi]
    all_goals
      simp only [List.length_append, List.length_take, List.length_replicate]
      omega

/-- The written elements. -/
theorem getElem?_writeAt_mid {content : List β} {offset i : ℕ} {bytes : List β}
    (hi : offset ≤ i) (hlen : i < offset + bytes.length) :
    (writeAt zero content offset bytes)[i]? = bytes[i - offset]? := by
  have hne : bytes ≠ [] := by
    rintro rfl
    rw [List.length_nil] at hlen
    omega
  have hfront : (content.take offset ++ List.replicate (offset - content.length) zero).length =
      offset := by
    rw [List.length_append, List.length_take, List.length_replicate]
    omega
  unfold writeAt
  rw [if_neg hne, List.getElem?_append_left, List.getElem?_append_right, hfront]
  · rw [hfront]
    exact hi
  · rw [List.length_append, hfront]
    exact hlen

/-- An element behind what is written stays. -/
theorem getElem?_writeAt_ge {content : List β} {offset i : ℕ} {bytes : List β}
    (hi : offset + bytes.length ≤ i) (hlen : i < content.length) :
    (writeAt zero content offset bytes)[i]? = content[i]? := by
  have hfront : (content.take offset ++ List.replicate (offset - content.length) zero ++
      bytes).length = offset + bytes.length := by
    simp only [List.length_append, List.length_take, List.length_replicate]
    omega
  unfold writeAt
  split
  · rfl
  · rw [List.getElem?_append_right, hfront, List.getElem?_drop, Nat.add_sub_cancel' hi]
    rw [hfront]
    exact hi

/-! ## Writers on track -/

/-- A writer that has just truncated the file is on track. -/
theorem onTrack_truncated (text : List β) : OnTrack text 0 [] :=
  ⟨Nat.le_refl 0, Nat.zero_le _, fun i hi => absurd hi (Nat.not_lt_zero i)⟩

/-- On a file that holds the text every writer of it is on track. -/
theorem onTrack_self {text : List β} {offset : ℕ} (h : offset ≤ text.length) :
    OnTrack text offset text :=
  ⟨h, Nat.le_refl _, fun _ _ => rfl⟩

/-- **A writer on track that has written its whole text** has left exactly that. -/
theorem OnTrack.complete {text content : List β} (h : OnTrack text text.length content) :
    content = text := by
  have hlen : content.length = text.length := Nat.le_antisymm h.bounded h.written
  apply List.ext_getElem?
  intro i
  rcases Nat.lt_or_ge i text.length with hi | hi
  · exact h.agrees i hi
  · rw [List.getElem?_eq_none hi, List.getElem?_eq_none (by omega)]

/-- The length of the file after a write that ends inside the text. -/
theorem OnTrack.length_writeAt_le {text content : List β} {offset : ℕ}
    (h : OnTrack text offset content) {k : ℕ} {bytes : List β}
    (hk : k + bytes.length ≤ text.length) :
    content.length ≤ (writeAt zero content k bytes).length ∧
      (writeAt zero content k bytes).length ≤ text.length := by
  have hbounded := h.bounded
  by_cases hne : bytes = []
  · rw [writeAt, if_pos hne]
    exact ⟨Nat.le_refl _, hbounded⟩
  · rw [length_writeAt content k hne]
    omega

/-- Writes that the writer has yet to overwrite do no harm. -/
theorem OnTrack.writeAt_ahead {text content : List β} {offset : ℕ}
    (h : OnTrack text offset content) {k : ℕ} {bytes : List β} (hk : offset ≤ k)
    (hend : k + bytes.length ≤ text.length) :
    OnTrack text offset (writeAt zero content k bytes) := by
  have hlen : content.length ≤ (writeAt zero content k bytes).length ∧
      (writeAt zero content k bytes).length ≤ text.length := h.length_writeAt_le hend
  have hwritten := h.written
  refine ⟨by omega, hlen.2, fun i hi => ?_⟩
  rw [getElem?_writeAt_lt bytes (by omega) (by omega)]
  exact h.agrees i hi

/-- Another writer of the same text does no harm. -/
theorem OnTrack.writeAt_same {text content : List β} {offset : ℕ}
    (h : OnTrack text offset content) {k n : ℕ} (hk : k + n ≤ text.length) :
    OnTrack text offset (writeAt zero content k (chunk text k n)) := by
  have hchunk := length_chunk hk
  have hlen : content.length ≤ (writeAt zero content k (chunk text k n)).length ∧
      (writeAt zero content k (chunk text k n)).length ≤ text.length :=
    h.length_writeAt_le (hchunk.symm ▸ hk)
  have hwritten := h.written
  refine ⟨by omega, hlen.2, fun i hi => ?_⟩
  rcases Nat.lt_or_ge i k with hfront | hback
  · rw [getElem?_writeAt_lt _ hfront (by omega)]
    exact h.agrees i hi
  · rcases Nat.lt_or_ge i (k + n) with hmid | hbehind
    · rw [getElem?_writeAt_mid hback (by omega), getElem?_chunk (by omega),
        Nat.add_sub_cancel' hback]
    · rw [getElem?_writeAt_ge (by omega) (by omega)]
      exact h.agrees i hi

/-- **The writer's own next write** keeps it on track. -/
theorem OnTrack.advance {text content : List β} {offset : ℕ} (h : OnTrack text offset content)
    {n : ℕ} (hn : offset + n ≤ text.length) :
    OnTrack text (offset + n) (writeAt zero content offset (chunk text offset n)) := by
  have hsame : OnTrack text offset (writeAt zero content offset (chunk text offset n)) :=
    h.writeAt_same hn
  have hchunk := length_chunk hn
  refine ⟨?_, hsame.bounded, fun i hi => ?_⟩
  · by_cases hne : chunk text offset n = []
    · have hwritten := hsame.written
      rw [hne, List.length_nil] at hchunk
      omega
    · rw [length_writeAt content offset hne]
      omega
  · rcases Nat.lt_or_ge i offset with hfront | hback
    · exact hsame.agrees i hfront
    · rw [getElem?_writeAt_mid hback (by omega), getElem?_chunk (by omega),
        Nat.add_sub_cancel' hback]

end SharedFile
