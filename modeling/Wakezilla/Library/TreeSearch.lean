/-
# Searching a tree with a stack

A search keeps a stack of pending items.  It takes the item on top and looks at it; the look
fails, or finds what is searched for, or yields the children of the item, which go on top of
the stack in their order, so that the last one is the next to be looked at.

* `search` : the loop, with fuel;
* `Below` : what can be reached from an item;
* `search_found`, `search_exhausted` : the search finds only what is there, and overlooks
  nothing;
* `search_ne_stopped` : with as much fuel as the items weigh the loop ends.
-/
import Mathlib

namespace TreeSearch

/-- What a look at an item yields. -/
inductive Look (ε α β : Type*)
  | failed (e : ε)
  | found (b : β)
  | children (items : List α)

/-- How a search ends; `stopped` if it ran out of fuel. -/
inductive Outcome (ε β : Type*)
  | failed (e : ε)
  | found (b : β)
  | exhausted
  | stopped

variable {ε α β : Type*}

/-- The loop over the pending items, the top of the stack first. -/
def search (look : α → Look ε α β) : ℕ → List α → Outcome ε β
  | _, [] => .exhausted
  | 0, _ :: _ => .stopped
  | fuel + 1, item :: rest =>
    match look item with
    | .failed e => .failed e
    | .found b => .found b
    | .children items => search look fuel (items.reverse ++ rest)

/-- `Below look a c` : the item `c` is `a`, or a child of what is below `a`. -/
inductive Below (look : α → Look ε α β) : α → α → Prop
  | refl (a : α) : Below look a a
  | child {a b c : α} {items : List α} (h : look a = .children items) (hb : b ∈ items)
      (hc : Below look b c) : Below look a c

variable {look : α → Look ε α β} {fuel : ℕ} {pending : List α}

/-- One look: the search goes on with the children, or ends with what the look yields. -/
theorem search_cons (item : α) (rest : List α) :
    search look (fuel + 1) (item :: rest) =
      match look item with
      | .failed e => .failed e
      | .found b => .found b
      | .children items => search look fuel (items.reverse ++ rest) := rfl

/-- What is below the children of an item is below the item. -/
theorem below_of_pending {item : α} {rest items : List α} (h : look item = .children items)
    {P : α → Prop} (hfound : ∃ a ∈ items.reverse ++ rest, ∃ c, Below look a c ∧ P c) :
    ∃ a ∈ item :: rest, ∃ c, Below look a c ∧ P c := by
  obtain ⟨a, ha, c, hc, hP⟩ := hfound
  rcases List.mem_append.mp ha with ha | ha
  · exact ⟨item, List.mem_cons_self, c, .child h (List.mem_reverse.mp ha) hc, hP⟩
  · exact ⟨a, List.mem_cons_of_mem _ ha, c, hc, hP⟩

/-- **What a search finds is there.** -/
theorem search_found {b : β} (h : search look fuel pending = .found b) :
    ∃ a ∈ pending, ∃ c, Below look a c ∧ look c = .found b := by
  induction fuel generalizing pending with
  | zero => cases pending <;> cases h
  | succ fuel ih =>
    cases pending with
    | nil => cases h
    | cons item rest =>
      rw [search_cons] at h
      cases hlook : look item with
      | failed e =>
        rw [hlook] at h
        cases h
      | found b' =>
        rw [hlook] at h
        cases h
        exact ⟨item, List.mem_cons_self, item, .refl item, hlook⟩
      | children items =>
        rw [hlook] at h
        exact below_of_pending hlook (ih h)

/-- **A search overlooks nothing**: when it comes to an end, every item it can reach has been
looked at. -/
theorem search_exhausted (h : search look fuel pending = .exhausted) :
    ∀ a ∈ pending, ∀ c, Below look a c → ∃ items, look c = .children items := by
  induction fuel generalizing pending with
  | zero =>
    cases pending with
    | nil => exact fun a ha => absurd ha List.not_mem_nil
    | cons item rest => cases h
  | succ fuel ih =>
    cases pending with
    | nil => exact fun a ha => absurd ha List.not_mem_nil
    | cons item rest =>
      rw [search_cons] at h
      cases hlook : look item with
      | failed e =>
        rw [hlook] at h
        cases h
      | found b =>
        rw [hlook] at h
        cases h
      | children items =>
        rw [hlook] at h
        intro a ha c hc
        rcases List.mem_cons.mp ha with rfl | ha
        · cases hc with
          | refl => exact ⟨items, hlook⟩
          | child hchildren hb hc =>
            rw [hlook] at hchildren
            cases hchildren
            exact ih h _ (List.mem_append_left _ (List.mem_reverse.mpr hb)) c hc
        · exact ih h a (List.mem_append_right _ ha) c hc

/-- A search fails only where a look failed. -/
theorem search_failed {e : ε} (h : search look fuel pending = .failed e) :
    ∃ a ∈ pending, ∃ c, Below look a c ∧ look c = .failed e := by
  induction fuel generalizing pending with
  | zero => cases pending <;> cases h
  | succ fuel ih =>
    cases pending with
    | nil => cases h
    | cons item rest =>
      rw [search_cons] at h
      cases hlook : look item with
      | failed e' =>
        rw [hlook] at h
        cases h
        exact ⟨item, List.mem_cons_self, item, .refl item, hlook⟩
      | found b =>
        rw [hlook] at h
        cases h
      | children items =>
        rw [hlook] at h
        exact below_of_pending hlook (ih h)

/-- **Enough fuel.**  Where an item outweighs its children, the weight of what is pending
suffices. -/
theorem search_ne_stopped (weight : α → ℕ) (hpos : ∀ a, 0 < weight a)
    (hchildren : ∀ a items, look a = .children items → (items.map weight).sum < weight a)
    (hfuel : (pending.map weight).sum ≤ fuel) : search look fuel pending ≠ .stopped := by
  induction fuel generalizing pending with
  | zero =>
    cases pending with
    | nil => exact nofun
    | cons item rest =>
      have hitem := hpos item
      rw [List.map_cons, List.sum_cons] at hfuel
      omega
  | succ fuel ih =>
    cases pending with
    | nil => exact nofun
    | cons item rest =>
      rw [search_cons]
      cases hlook : look item with
      | failed e => exact nofun
      | found b => exact nofun
      | children items =>
        have hless := hchildren item items hlook
        apply ih
        rw [List.map_cons, List.sum_cons] at hfuel
        rw [List.map_append, List.sum_append, List.map_reverse, List.sum_reverse]
        omega

end TreeSearch
