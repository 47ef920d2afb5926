/-
# Copies that follow by edits

A primary list is changed by requests, and a copy of it is kept somewhere else.  The primary
answers with edits, and the copy makes each of them when it arrives.  Between two arrivals the
copy lags behind.

Primary and copy may have their members in different orders, but under each key they have the
same members in the same order (`SameByKey`).  An edit looks at the members under its own keys
only (`under_apply`) and leaves the others alone (`under_apply_other`).

`InStep` says that the copy is right once it has made the edits under way.  An edit may be made
before the older ones if it is `Apart` from them (`InStep.overtake`).
-/
import Mathlib

namespace Replica

/-! ## Keyed lists -/

variable {α κ : Type*} [DecidableEq κ] {key : α → κ} {k : κ} {a : α} {l m : List α}

/-- The members of `l` with the key `k`, in their order. -/
def under (key : α → κ) (k : κ) (l : List α) : List α := l.filter fun x => key x = k

/-- Both lists have the same members under each key, in the same order. -/
def SameByKey (key : α → κ) (l m : List α) : Prop := ∀ k, under key k l = under key k m

theorem under_cons (x : α) (l : List α) :
    under key k (x :: l) = if key x = k then x :: under key k l else under key k l := by
  unfold under
  rw [List.filter_cons]
  simp only [decide_eq_true_eq]

theorem under_append (l m : List α) : under key k (l ++ m) = under key k l ++ under key k m :=
  List.filter_append ..

theorem under_eq_nil : under key k l = [] ↔ ∀ x ∈ l, key x ≠ k := by
  unfold under
  simp only [List.filter_eq_nil_iff, decide_eq_true_eq, ne_eq]

/-- Each member counts among those with its own key only. -/
theorem SameByKey.perm (h : SameByKey key l m) : l.Perm m := by
  classical
  rw [List.perm_iff_count]
  intro a
  have hcount : ∀ l : List α, (under key (key a) l).count a = l.count a := by
    intro l
    exact List.count_filter (decide_eq_true rfl)
  rw [← hcount l, h (key a), hcount m]

/-- A member with a new key may stand in front in one list and at the end of the other. -/
theorem SameByKey.cons_append (h : SameByKey key l m) (hnew : ∀ x ∈ m, key x ≠ key a) :
    SameByKey key (a :: l) (m ++ [a]) := by
  intro k
  rw [under_cons, under_append, under_cons, h k]
  by_cases hk : key a = k
  · subst hk
    rw [if_pos rfl, if_pos rfl, under_eq_nil.mpr hnew]
    rfl
  · rw [if_neg hk, if_neg hk]
    exact (List.append_nil _).symm

/-- Nothing is left under a key that is removed, and the rest stays. -/
theorem under_remove (k k' : κ) (l : List α) :
    under key k' (l.filter fun x => key x ≠ k) = if k' = k then [] else under key k' l := by
  split
  next hk =>
    rw [under_eq_nil]
    intro x hx heq
    exact of_decide_eq_true (List.mem_filter.mp hx).2 (heq.trans hk)
  next hk =>
    unfold under
    rw [List.filter_filter]
    apply List.filter_congr
    intro x _
    by_cases hx : key x = k'
    · simp only [hx, decide_true, Bool.true_and, decide_eq_true_eq]
      exact hk
    · simp only [hx, decide_false, Bool.false_and]

/-! ### A member changed in place -/

/-- The first member with the key `k` becomes `a`. -/
def replaceFirst (key : α → κ) (k : κ) (a : α) (l : List α) : List α :=
  match l.findIdx? fun x => key x = k with
  | some i => l.set i a
  | none => l

theorem replaceFirst_cons_self {x : α} (hx : key x = k) :
    replaceFirst key k a (x :: l) = a :: l := by
  unfold replaceFirst
  rw [List.findIdx?_cons, if_pos (decide_eq_true hx)]
  rfl

theorem replaceFirst_cons_ne {x : α} (hx : key x ≠ k) :
    replaceFirst key k a (x :: l) = x :: replaceFirst key k a l := by
  unfold replaceFirst
  rw [List.findIdx?_cons, if_neg (by simpa using hx)]
  cases l.findIdx? fun x => key x = k with
  | none => rfl
  | some i => rfl

/-- Under the key itself the first member goes, and the new one takes its place if it has the
same key. -/
theorem under_replaceFirst_self (l : List α) :
    under key k (replaceFirst key k a l) =
      match under key k l with
      | [] => []
      | _ :: rest => if key a = k then a :: rest else rest := by
  induction l with
  | nil => rfl
  | cons x l ih =>
    by_cases hx : key x = k
    · rw [replaceFirst_cons_self hx, under_cons, under_cons, if_pos hx]
    · rw [replaceFirst_cons_ne hx, under_cons, under_cons, if_neg hx, if_neg hx, ih]

/-- Under a key that neither of the two has, nothing happens. -/
theorem under_replaceFirst_other {k' : κ} (hk : k' ≠ k) (ha : key a ≠ k') (l : List α) :
    under key k' (replaceFirst key k a l) = under key k' l := by
  induction l with
  | nil => rfl
  | cons x l ih =>
    by_cases hx : key x = k
    · have hxk' : key x ≠ k' := fun heq => hk (heq.symm.trans hx)
      rw [replaceFirst_cons_self hx, under_cons, under_cons, if_neg ha, if_neg hxk']
    · rw [replaceFirst_cons_ne hx, under_cons, under_cons, ih]

/-- Under its own key, which is new, the new member is the only one. -/
theorem under_replaceFirst_new (hnew : under key (key a) l = []) :
    under key (key a) (replaceFirst key k a l) = if under key k l = [] then [] else [a] := by
  rw [under_eq_nil] at hnew
  induction l with
  | nil => rfl
  | cons x l ih =>
    have hrest : ∀ y ∈ l, key y ≠ key a := fun y hy => hnew y (List.mem_cons_of_mem x hy)
    by_cases hx : key x = k
    · rw [replaceFirst_cons_self hx, under_cons, if_pos rfl, under_cons, if_pos hx,
        if_neg (List.cons_ne_nil _ _), under_eq_nil.mpr hrest]
    · rw [replaceFirst_cons_ne hx, under_cons, if_neg (hnew x List.mem_cons_self), ih hrest,
        under_cons, if_neg hx]

/-! ## Edits -/

/-- An edit of a keyed list. -/
inductive Edit (α κ : Type*)
  | keep
  | insert (a : α)
  | replace (k : κ) (a : α)
  | remove (k : κ)
  | reset (l : List α)
  deriving DecidableEq, Repr

namespace Edit

/-- What an edit makes of a list. -/
def apply (key : α → κ) (l : List α) : Edit α κ → List α
  | keep => l
  | insert a => a :: l
  | replace k a => replaceFirst key k a l
  | remove k => l.filter fun x => key x ≠ k
  | reset m => m

/-- The keys under which an edit looks and changes something, if it is no reset. -/
def keys (key : α → κ) : Edit α κ → List κ
  | keep => []
  | insert a => [key a]
  | replace k a => [k, key a]
  | remove k => [k]
  | reset _ => []

/-- The edit forgets the list that was there. -/
def isReset : Edit α κ → Bool
  | reset _ => true
  | _ => false

/-- A member that gets another key does not get one that is taken. -/
def Fits (key : α → κ) (l : List α) : Edit α κ → Prop
  | replace k a => key a = k ∨ under key (key a) l = []
  | _ => True

/-- Two edits that may be made in either order: one of them changes nothing, or they are about
different keys. -/
def Apart (key : α → κ) (e e' : Edit α κ) : Prop :=
  e = keep ∨ e' = keep ∨
    e.isReset = false ∧ e'.isReset = false ∧ ∀ k ∈ e.keys key, k ∉ e'.keys key

instance [DecidableEq α] (key : α → κ) (e e' : Edit α κ) : Decidable (e.Apart key e') :=
  inferInstanceAs (Decidable (_ ∨ _ ∨ _ ∧ _ ∧ _))

variable {e e' : Edit α κ}

theorem fits_of_isReset (h : e.isReset = true) : e.Fits key l := by
  cases e with
  | reset m => exact trivial
  | _ => cases h

theorem apply_of_isReset (h : e.isReset = true) : e.apply key l = e.apply key m := by
  cases e with
  | reset n => rfl
  | _ => cases h

/-- Whether an edit fits is seen under its keys. -/
theorem Fits.congr (h : e.Fits key l) (hsame : ∀ k ∈ e.keys key, under key k l = under key k m) :
    e.Fits key m := by
  cases e with
  | replace k a =>
    refine Or.imp_right (fun hnew => ?_) h
    rw [← hsame (key a) (List.mem_cons_of_mem k List.mem_cons_self)]
    exact hnew
  | _ => exact trivial

/-- **An edit leaves the other keys alone.** -/
theorem under_apply_other (hreset : e.isReset = false) (hk : k ∉ e.keys key) (l : List α) :
    under key k (e.apply key l) = under key k l := by
  cases e with
  | keep => rfl
  | insert a =>
    rw [apply, under_cons, if_neg]
    rintro rfl
    exact hk List.mem_cons_self
  | replace k' a =>
    simp only [keys, List.mem_cons, List.not_mem_nil, or_false, not_or] at hk
    exact under_replaceFirst_other hk.1 (fun heq => hk.2 heq.symm) l
  | remove k' =>
    rw [apply, under_remove, if_neg]
    rintro rfl
    exact hk List.mem_cons_self
  | reset m => cases hreset

/-- **Under its own keys** an edit makes the same of the same members. -/
theorem under_apply (hsame : ∀ k ∈ e.keys key, under key k l = under key k m)
    (hfits : e.Fits key l) (hk : k ∈ e.keys key) :
    under key k (e.apply key l) = under key k (e.apply key m) := by
  have hfits' := hfits.congr hsame
  cases e with
  | keep => cases hk
  | insert a =>
    obtain rfl := List.mem_singleton.mp hk
    rw [apply, apply, under_cons, under_cons, hsame (key a) hk]
  | replace k' a =>
    have hself : under key k' l = under key k' m := hsame k' List.mem_cons_self
    show under key k (replaceFirst key k' a l) = under key k (replaceFirst key k' a m)
    by_cases hkk' : k = k'
    · rw [hkk', under_replaceFirst_self, under_replaceFirst_self, hself]
    · have hka : k = key a := (List.mem_pair.mp hk).resolve_left hkk'
      have hmoved : key a ≠ k' := fun heq => hkk' (hka.trans heq)
      rw [hka, under_replaceFirst_new (hfits.resolve_left hmoved),
        under_replaceFirst_new (hfits'.resolve_left hmoved), hself]
  | remove k' =>
    obtain rfl := List.mem_singleton.mp hk
    rw [apply, apply, under_remove, under_remove, if_pos rfl, if_pos rfl]
  | reset n => rfl

end Edit

variable {e e' : Edit α κ}

/-- The same edit of both lists. -/
theorem SameByKey.apply (h : SameByKey key l m) (hfits : e.Fits key l) :
    SameByKey key (e.apply key l) (e.apply key m) := by
  intro k
  by_cases hreset : e.isReset = true
  · rw [Edit.apply_of_isReset hreset]
  rw [Bool.not_eq_true] at hreset
  by_cases hk : k ∈ e.keys key
  · exact Edit.under_apply (fun k _ => h k) hfits hk
  · rw [Edit.under_apply_other hreset hk, Edit.under_apply_other hreset hk, h k]

/-- **Edits about different keys commute.** -/
theorem sameByKey_swap (hreset : e.isReset = false) (hreset' : e'.isReset = false)
    (hapart : ∀ k ∈ e.keys key, k ∉ e'.keys key) (hfits : e.Fits key l) (hfits' : e'.Fits key l) :
    SameByKey key (e'.apply key (e.apply key l)) (e.apply key (e'.apply key l)) := by
  intro k
  by_cases hk : k ∈ e.keys key
  · rw [Edit.under_apply_other hreset' (hapart k hk)]
    refine Edit.under_apply (fun k hk => ?_) hfits hk
    exact (Edit.under_apply_other hreset' (hapart k hk) l).symm
  rw [Edit.under_apply_other hreset hk]
  by_cases hk' : k ∈ e'.keys key
  · refine (Edit.under_apply (fun k hk' => ?_) hfits' hk').symm
    exact (Edit.under_apply_other hreset (fun hk => hapart k hk hk') l).symm
  · rw [Edit.under_apply_other hreset' hk', Edit.under_apply_other hreset' hk',
      Edit.under_apply_other hreset hk]

/-! ## Edits under way -/

variable {copy : List α} {queue : List (Edit α κ)} {primary primary' : List α}

/-- A reset is under way. -/
def HasReset (queue : List (Edit α κ)) : Prop := ∃ e ∈ queue, e.isReset = true

omit [DecidableEq κ] in
theorem HasReset.mono {queue' : List (Edit α κ)} (h : HasReset queue) (hsub : queue ⊆ queue') :
    HasReset queue' := by
  obtain ⟨e, hmem, he⟩ := h
  exact ⟨e, hsub hmem, he⟩

omit [DecidableEq κ] in
theorem HasReset.tail (h : HasReset (e :: queue)) (he : e.isReset = false) : HasReset queue := by
  obtain ⟨e', hmem, he'⟩ := h
  rcases List.mem_cons.mp hmem with rfl | hmem
  · rw [he] at he'
    cases he'
  · exact ⟨e', hmem, he'⟩

/-- The copy is right once it has made the edits under way, each of which fits then, unless a
reset comes later. -/
def InStep (key : α → κ) : List α → List (Edit α κ) → List α → Prop
  | copy, [], primary => SameByKey key copy primary
  | copy, e :: queue, primary =>
    (e.Fits key copy ∨ HasReset queue) ∧ InStep key (e.apply key copy) queue primary

/-- Before a reset it does not matter what the copy is. -/
theorem InStep.of_reset (h : InStep key copy queue primary) (hreset : HasReset queue)
    (copy' : List α) : InStep key copy' queue primary := by
  induction queue generalizing copy copy' with
  | nil =>
    obtain ⟨e, he, -⟩ := hreset
    cases he
  | cons e queue ih =>
    by_cases he : e.isReset = true
    · refine ⟨Or.inl (Edit.fits_of_isReset he), ?_⟩
      rw [Edit.apply_of_isReset he]
      exact h.2
    · have hlater := hreset.tail (Bool.eq_false_of_not_eq_true he)
      exact ⟨Or.inr hlater, ih h.2 hlater _⟩

/-- It does not matter either in which order the copy has members with different keys. -/
theorem InStep.congr (h : InStep key copy queue primary) {copy' : List α}
    (hsame : SameByKey key copy copy') : InStep key copy' queue primary := by
  induction queue generalizing copy copy' with
  | nil => exact fun k => (hsame k).symm.trans (h k)
  | cons e queue ih =>
    rcases h.1 with hfits | hreset
    · exact ⟨Or.inl (hfits.congr fun k _ => hsame k), ih h.2 (hsame.apply hfits)⟩
    · exact ⟨Or.inr hreset, h.2.of_reset hreset _⟩

/-- The primary changes and sends an edit. -/
theorem InStep.send (h : InStep key copy queue primary)
    (hstep : ∀ c, SameByKey key c primary →
      e.Fits key c ∧ SameByKey key (e.apply key c) primary') :
    InStep key copy (queue ++ [e]) primary' := by
  induction queue generalizing copy with
  | nil =>
    obtain ⟨hfits, hsame⟩ := hstep copy h
    exact ⟨Or.inl hfits, hsame⟩
  | cons first queue ih =>
    refine ⟨h.1.imp_right fun hreset => ?_, ih h.2⟩
    exact hreset.mono (List.subset_append_left ..)

/-- Two edits next to each other change places. -/
theorem InStep.swap (h : InStep key copy (e :: e' :: queue) primary) (hapart : e'.Apart key e) :
    InStep key copy (e' :: e :: queue) primary := by
  obtain ⟨hfits, hfits', hrest⟩ := h
  by_cases hreset : HasReset queue
  · refine ⟨Or.inr ?_, Or.inr hreset, hrest.of_reset hreset _⟩
    exact hreset.mono (List.subset_cons_self ..)
  have hfits' : e'.Fits key (e.apply key copy) := hfits'.resolve_right hreset
  rcases hapart with rfl | rfl | ⟨he', he, hdisjoint⟩
  · exact ⟨Or.inl trivial, Or.inl (hfits.resolve_right fun h => hreset (h.tail rfl)), hrest⟩
  · exact ⟨Or.inl hfits', Or.inl trivial, hrest⟩
  · have hfits : e.Fits key copy := hfits.resolve_right fun h => hreset (h.tail he')
    -- neither edit sees what the other one has done
    have hfirst : e'.Fits key copy :=
      hfits'.congr fun k hk => Edit.under_apply_other he (hdisjoint k hk) copy
    have hsecond : e.Fits key (e'.apply key copy) := hfits.congr fun k hk =>
      (Edit.under_apply_other he' (fun hk' => hdisjoint k hk' hk) copy).symm
    refine ⟨Or.inl hfirst, Or.inl hsecond, hrest.congr ?_⟩
    exact sameByKey_swap he he' (fun k hk hk' => hdisjoint k hk' hk) hfits hfirst

/-- **An edit may arrive before older ones** from which it is apart. -/
theorem InStep.overtake {older : List (Edit α κ)}
    (h : InStep key copy (older ++ e :: queue) primary) (hapart : ∀ d ∈ older, e.Apart key d) :
    InStep key (e.apply key copy) (older ++ queue) primary := by
  suffices hfront : InStep key copy (e :: (older ++ queue)) primary from hfront.2
  induction older generalizing copy with
  | nil => exact h
  | cons d older ih =>
    obtain ⟨hd, holder⟩ := List.forall_mem_cons.mp hapart
    refine InStep.swap ⟨?_, ih h.2 holder⟩ hd
    exact h.1.imp_right fun hreset => hreset.mono List.perm_middle.subset

end Replica
