/-
# Histograms

Records are counted one by one into the rows of an ordered map; a record names its row by a
key and its column by a number, and a row comes into being with its first record.

`getElem?_histogram` says what every row holds once all records are counted, so proofs about
programs never look inside the map.
-/
import Mathlib

open Std

namespace Histogram

variable {κ : Type*}

/-! ## Rows -/

section Rows

variable [DecidableEq κ] {columns : ℕ} {records : List (κ × ℕ)} {k : κ}

/-- The number of records of a row in each column. -/
def row (columns : ℕ) (records : List (κ × ℕ)) (k : κ) : List ℕ :=
  (List.range columns).map fun c => records.count (k, c)

@[simp] theorem length_row : (row columns records k).length = columns := by
  simp [row]

theorem getElem?_row {c : ℕ} (hc : c < columns) :
    (row columns records k)[c]? = some (records.count (k, c)) := by
  simp [row, List.getElem?_map, List.getElem?_range hc]

/-- A row without records counts nothing. -/
theorem row_of_not_mem (h : k ∉ records.map Prod.fst) :
    row columns records k = List.replicate columns 0 := by
  have hzero : ∀ c, records.count (k, c) = 0 := fun c =>
    List.count_eq_zero_of_not_mem fun hmem => h (List.mem_map_of_mem (f := Prod.fst) hmem)
  simp [row, hzero]

/-- One more record of the row. -/
theorem modify_row (c : ℕ) :
    (row columns records k).modify c (· + 1) = row columns (records ++ [(k, c)]) k := by
  apply List.ext_getElem?
  intro j
  rw [List.getElem?_modify]
  by_cases hj : j < columns
  · rw [getElem?_row hj, getElem?_row hj, List.count_append, List.count_singleton]
    by_cases hcj : c = j <;> simp [hcj]
  · have hnone : ∀ rs : List (κ × ℕ), (row columns rs k)[j]? = none := fun rs =>
      List.getElem?_eq_none (by simpa using hj)
    simp [hnone]

/-- One more record of another row. -/
theorem row_append_of_ne {r : κ × ℕ} (h : r.1 ≠ k) :
    row columns (records ++ [r]) k = row columns records k := by
  refine List.map_congr_left fun c _ => ?_
  have hne : ¬ r = (k, c) := fun heq => h (congrArg Prod.fst heq)
  simp [List.count_append, hne]

/-- Counting a list under different names that cover it counts each entry once. -/
theorem sum_map_count {keys l : List κ} (hkeys : keys.Nodup) (hcover : ∀ k ∈ l, k ∈ keys) :
    (keys.map fun k => l.count k).sum = l.length := by
  have hsum := Multiset.sum_count_eq_card (s := keys.toFinset) (m := (l : Multiset κ))
    fun k hk => List.mem_toFinset.mpr (hcover k hk)
  rw [List.sum_toFinset _ hkeys] at hsum
  simpa using hsum

end Rows

/-! ## The map -/

section Map

variable [Ord κ] {columns : ℕ} {records : List (κ × ℕ)} {k : κ}

/-- Count one record, in rows of `columns` columns. -/
def tally (columns : ℕ) (rows : TreeMap κ (List ℕ)) (r : κ × ℕ) : TreeMap κ (List ℕ) :=
  rows.alter r.1 fun row => some ((row.getD (List.replicate columns 0)).modify r.2 (· + 1))

/-- Count all records. -/
def histogram (columns : ℕ) (records : List (κ × ℕ)) : TreeMap κ (List ℕ) :=
  records.foldl (tally columns) ∅

/-- The keys are listed in their order. -/
theorem pairwise_keys_histogram [TransOrd κ] :
    ((histogram columns records).toList.map Prod.fst).Pairwise fun k k' =>
      compare k k' = .lt := by
  rw [List.pairwise_map]
  exact TreeMap.ordered_keys_toList

theorem nodup_keys_histogram [TransOrd κ] :
    ((histogram columns records).toList.map Prod.fst).Nodup := by
  refine pairwise_keys_histogram.imp fun {k k'} hlt heq => ?_
  subst heq
  have hself : compare k k = .eq := ReflCmp.compare_self
  rw [hself] at hlt
  cases hlt

variable [TransOrd κ] [LawfulEqOrd κ] [DecidableEq κ]

/-- **What the map holds**: a row for every key with a record, and in it the counts. -/
theorem getElem?_histogram (columns : ℕ) (records : List (κ × ℕ)) (k : κ) :
    (histogram columns records)[k]? =
      if k ∈ records.map Prod.fst then some (row columns records k) else none := by
  induction records using List.reverseRecOn with
  | nil => simp [histogram]
  | append_singleton records r ih =>
    have hstep : histogram columns (records ++ [r]) =
        tally columns (histogram columns records) r := by
      simp [histogram, List.foldl_append]
    rw [hstep, tally, TreeMap.getElem?_alter]
    simp only [LawfulEqCmp.compare_eq_iff_eq]
    by_cases hk : r.1 = k
    · obtain ⟨k', c⟩ := r
      obtain rfl : k' = k := hk
      -- a row that is not there yet counts as one without records
      have hfound : ((histogram columns records)[k']?).getD (List.replicate columns 0) =
          row columns records k' := by
        rw [ih]
        split
        · rfl
        · rename_i hnew
          exact (row_of_not_mem hnew).symm
      simp [hfound, modify_row]
    · have hmem : k ∈ (records ++ [r]).map Prod.fst ↔ k ∈ records.map Prod.fst := by
        rw [List.map_append, List.mem_append, List.map_singleton, List.mem_singleton]
        exact or_iff_left (Ne.symm hk)
      simp only [hk, if_false, ih, hmem, row_append_of_ne hk]

/-- The rows of the map. -/
theorem mem_toList_histogram {b : κ × List ℕ} :
    b ∈ (histogram columns records).toList ↔
      b.1 ∈ records.map Prod.fst ∧ b.2 = row columns records b.1 := by
  obtain ⟨k, counts⟩ := b
  rw [TreeMap.mem_toList_iff_getElem?_eq_some, getElem?_histogram]
  simp [eq_comm]

theorem mem_keys_histogram :
    k ∈ (histogram columns records).toList.map Prod.fst ↔ k ∈ records.map Prod.fst := by
  constructor
  · intro h
    obtain ⟨b, hb, rfl⟩ := List.mem_map.mp h
    exact (mem_toList_histogram.mp hb).1
  · intro h
    exact List.mem_map.mpr ⟨(k, row columns records k), mem_toList_histogram.mpr ⟨h, rfl⟩, rfl⟩

end Map

end Histogram
