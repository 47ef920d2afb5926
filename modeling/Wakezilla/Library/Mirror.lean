/-
# Dictionaries that mirror a keyed list

A program often keeps a second store next to a list of records: under the key of
each record that deserves one it holds an entry computed from the record, and
nothing else.  `Mirrors key entry l d` says that the partial map `d` is such a
store for the list `l`.

For every edit of the list (append, remove by key, replace in place) one lemma
says which edit of the map follows it; where a record is replaced by one with
another key, the keys have to be pairwise different.
-/
import Mathlib

namespace Mirror

variable {α κ β : Type*} {key : α → κ} {entry : α → Option β}

/-- The map `d` holds the entry of every member of `l` under its key, and nothing under the
keys that no member has. -/
structure Mirrors (key : α → κ) (entry : α → Option β) (l : List α) (d : κ → Option β) :
    Prop where
  present : ∀ a ∈ l, d (key a) = entry a
  absent : ∀ k, k ∉ l.map key → d k = none

theorem mirrors_nil {d : κ → Option β} (h : ∀ k, d k = none) : Mirrors key entry [] d :=
  ⟨fun _ ha => absurd ha List.not_mem_nil, fun k _ => h k⟩

/-- The map holds something under a key exactly when a member with an entry has the key. -/
theorem Mirrors.eq_some_iff {l : List α} {d : κ → Option β} (h : Mirrors key entry l d) {k : κ}
    {b : β} : d k = some b ↔ ∃ a ∈ l, key a = k ∧ entry a = some b := by
  constructor
  · intro hk
    have hmem : k ∈ l.map key := by
      by_contra hmem
      rw [h.absent k hmem] at hk
      cases hk
    obtain ⟨a, ha, rfl⟩ := List.mem_map.mp hmem
    exact ⟨a, ha, rfl, (h.present a ha).symm.trans hk⟩
  · rintro ⟨a, ha, rfl, hentry⟩
    exact (h.present a ha).trans hentry

/-- Replacing a record by one with the same key leaves the list of keys alone. -/
theorem map_key_set {l : List α} {i : ℕ} {old new : α} (hold : l[i]? = some old)
    (hkey : key new = key old) : (l.set i new).map key = l.map key := by
  obtain ⟨hi, rfl⟩ := List.getElem?_eq_some_iff.mp hold
  rw [List.map_set, hkey, ← List.getElem_map key (h := by simpa using hi), List.set_getElem_self]

/-- Replace a record by one with the same key and entry. -/
theorem Mirrors.set_same {l : List α} {d : κ → Option β} (h : Mirrors key entry l d) {i : ℕ}
    {old new : α} (hold : l[i]? = some old) (hkey : key new = key old)
    (hentry : entry new = entry old) : Mirrors key entry (l.set i new) d := by
  constructor
  · intro a ha
    rcases List.mem_or_eq_of_mem_set ha with ha | rfl
    · exact h.present a ha
    · rw [hkey, hentry]
      exact h.present old (List.mem_of_getElem? hold)
  · intro k hk
    rw [map_key_set hold hkey] at hk
    exact h.absent k hk

/-- The members of a list with pairwise different keys, apart from the one at `i`, have
other keys than that one. -/
theorem key_ne_of_mem_set {l : List α} (hnodup : (l.map key).Nodup) {i : ℕ} {old new a : α}
    (hold : l[i]? = some old) (ha : a ∈ l.set i new) (hne : a ≠ new) :
    a ∈ l ∧ key a ≠ key old := by
  obtain ⟨j, hj, hget⟩ := List.getElem_of_mem ha
  rw [List.length_set] at hj
  obtain ⟨hi, rfl⟩ := List.getElem?_eq_some_iff.mp hold
  by_cases hij : i = j
  · subst hij
    rw [List.getElem_set_self] at hget
    exact absurd hget.symm hne
  · rw [List.getElem_set_ne hij] at hget
    refine ⟨hget ▸ List.getElem_mem hj, fun heq => hij ?_⟩
    have hkeys : (l.map key)[i]? = (l.map key)[j]? := by
      rw [List.getElem?_map, List.getElem?_map, List.getElem?_eq_getElem hi,
        List.getElem?_eq_getElem hj, hget, Option.map_some, Option.map_some, heq]
    exact (List.getElem?_inj (by simpa using hi) hnodup).mp hkeys

/-- The members other than the overwritten one stay. -/
theorem mem_set_of_ne {l : List α} {i : ℕ} {old new a : α} (ha : a ∈ l)
    (hold : l[i]? = some old) (hne : a ≠ old) : a ∈ l.set i new := by
  obtain ⟨j, hj⟩ := List.mem_iff_getElem?.mp ha
  have hij : i ≠ j := by
    rintro rfl
    rw [hold] at hj
    exact hne (Option.some_inj.mp hj).symm
  exact List.mem_iff_getElem?.mpr ⟨j, by rw [List.getElem?_set_ne hij, hj]⟩

variable [DecidableEq κ]

/-- Append a record under a new key. -/
theorem Mirrors.append {l : List α} {d : κ → Option β} (h : Mirrors key entry l d) {a : α}
    (hnew : key a ∉ l.map key) :
    Mirrors key entry (l ++ [a]) (Function.update d (key a) (entry a)) := by
  constructor
  · intro b hb
    rcases List.mem_append.mp hb with hb | hb
    · have hne : key b ≠ key a := fun heq => hnew (heq ▸ List.mem_map_of_mem hb)
      rw [Function.update_of_ne hne]
      exact h.present b hb
    · rw [List.mem_singleton.mp hb, Function.update_self]
  · intro k hk
    rw [List.map_append, List.mem_append, not_or] at hk
    have hne : k ≠ key a := fun heq => hk.2 (by rw [heq]; exact List.mem_singleton_self _)
    rw [Function.update_of_ne hne]
    exact h.absent k hk.1

/-- Remove the records under a key. -/
theorem Mirrors.filter {l : List α} {d : κ → Option β} (h : Mirrors key entry l d) (k : κ) :
    Mirrors key entry (l.filter fun a => key a ≠ k) (Function.update d k none) := by
  constructor
  · intro a ha
    obtain ⟨ha, hne⟩ := List.mem_filter.mp ha
    rw [Function.update_of_ne (by simpa using hne)]
    exact h.present a ha
  · intro k' hk'
    by_cases heq : k' = k
    · rw [heq, Function.update_self]
    · rw [Function.update_of_ne heq]
      refine h.absent k' fun hmem => hk' ?_
      obtain ⟨a, ha, rfl⟩ := List.mem_map.mp hmem
      exact List.mem_map_of_mem (List.mem_filter.mpr ⟨ha, by simpa using heq⟩)

/-- Removing a key that no record has changes nothing. -/
theorem Mirrors.filter_absent {l : List α} {d : κ → Option β} (h : Mirrors key entry l d)
    {k : κ} (hk : k ∉ l.map key) : Mirrors key entry (l.filter fun a => key a ≠ k) d := by
  have hupdate : Function.update d k none = d := by
    rw [← h.absent k hk]
    exact Function.update_eq_self k d
  rw [← hupdate]
  exact h.filter k

/-- Replace a record: its old key is cleared, then its new one is written. -/
theorem Mirrors.set {l : List α} {d : κ → Option β} (h : Mirrors key entry l d)
    (hnodup : (l.map key).Nodup) {i : ℕ} {old new : α} (hold : l[i]? = some old)
    (hnew : ∀ a ∈ l, key a ≠ key old → key a ≠ key new) :
    Mirrors key entry (l.set i new)
      (Function.update (Function.update d (key old) none) (key new) (entry new)) := by
  obtain ⟨hi, -⟩ := List.getElem?_eq_some_iff.mp hold
  constructor
  · intro a ha
    by_cases haNew : a = new
    · rw [haNew, Function.update_self]
    · obtain ⟨hmem, hne⟩ := key_ne_of_mem_set hnodup hold ha haNew
      rw [Function.update_of_ne (hnew a hmem hne), Function.update_of_ne hne]
      exact h.present a hmem
  · intro k hk
    have hkNew : k ≠ key new := fun heq =>
      hk (heq ▸ List.mem_map_of_mem (List.mem_set hi new))
    rw [Function.update_of_ne hkNew]
    by_cases hkOld : k = key old
    · rw [hkOld, Function.update_self]
    · rw [Function.update_of_ne hkOld]
      refine h.absent k fun hmem => hk ?_
      obtain ⟨a, ha, rfl⟩ := List.mem_map.mp hmem
      exact List.mem_map_of_mem (mem_set_of_ne ha hold fun heq => hkOld (congrArg key heq))

end Mirror
