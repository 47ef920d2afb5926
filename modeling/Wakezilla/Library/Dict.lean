/-
# Finite dictionaries

A hash map is an association list without repeated keys (`AList`).  This file
adds the two bulk operations that `AList` lacks, mapping over the values
(`Dict.mapVal`) and dropping the entries that fail a test (`Dict.retain`), and
states for every operation what a later `lookup` finds, so that proofs about
programs never look inside the list.
-/
import Mathlib

/-- A dictionary from keys `κ` to values `α`. -/
abbrev Dict (κ α : Type*) := AList (fun _ : κ => α)

namespace Dict

variable {κ α β : Type*} [DecidableEq κ]

/-- Apply `f` to every value. -/
def mapVal (f : κ → α → β) (d : Dict κ α) : Dict κ β where
  entries := d.entries.map fun e => ⟨e.1, f e.1 e.2⟩
  nodupKeys := d.nodupKeys.map₂ f

/-- Keep the entries that pass the test `p`. -/
def retain (p : κ → α → Bool) (d : Dict κ α) : Dict κ α where
  entries := d.entries.filter fun e => p e.1 e.2
  nodupKeys := d.nodupKeys.sublist List.filter_sublist

theorem lookup_eq_some_iff {d : Dict κ α} {k : κ} {v : α} :
    d.lookup k = some v ↔ (⟨k, v⟩ : Sigma fun _ : κ => α) ∈ d.entries :=
  AList.mem_lookup_iff

theorem lookup_insert (d : Dict κ α) (k k' : κ) (v : α) :
    (d.insert k v).lookup k' = if k' = k then some v else d.lookup k' := by
  by_cases h : k' = k
  · rw [if_pos h, h, AList.lookup_insert]
  · rw [if_neg h, AList.lookup_insert_ne h]

theorem lookup_erase (d : Dict κ α) (k k' : κ) :
    (d.erase k).lookup k' = if k' = k then none else d.lookup k' := by
  by_cases h : k' = k
  · rw [if_pos h, h, AList.lookup_erase]
  · rw [if_neg h, AList.lookup_erase_ne h]

theorem lookup_mapVal (f : κ → α → β) (d : Dict κ α) (k : κ) :
    (d.mapVal f).lookup k = (d.lookup k).map (f k) :=
  List.dlookup_map₂ k

theorem lookup_retain (p : κ → α → Bool) (d : Dict κ α) (k : κ) :
    (d.retain p).lookup k = (d.lookup k).filter (p k) := by
  apply Option.ext
  intro v
  rw [Option.filter_eq_some_iff, lookup_eq_some_iff, lookup_eq_some_iff]
  exact List.mem_filter

omit [DecidableEq κ] in
/-- Of two tests in a row only the stronger one counts. -/
theorem retain_retain {p q : κ → α → Bool} (d : Dict κ α) (h : ∀ k v, q k v = true → p k v = true) :
    (d.retain p).retain q = d.retain q := by
  apply AList.ext
  show List.filter _ (List.filter _ _) = List.filter _ _
  rw [List.filter_filter]
  apply List.filter_congr
  intro e _
  cases hq : q e.1 e.2 with
  | false => rfl
  | true => rw [Bool.true_and, h e.1 e.2 hq]

@[simp] theorem lookup_empty (k : κ) : (∅ : Dict κ α).lookup k = none := AList.lookup_empty k

/-- A dictionary that some insertion produced is not empty. -/
theorem insert_entries_ne_nil (d : Dict κ α) (k : κ) (v : α) : (d.insert k v).entries ≠ [] := by
  rw [AList.entries_insert]
  exact List.cons_ne_nil _ _

end Dict
