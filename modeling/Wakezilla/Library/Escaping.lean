/-
# Escaping and reading back

A text is escaped by writing a code for each of its symbols, and it is read back by a machine
that takes one symbol after the other.

* `replaceAll` : a replacement in the whole text; one after another they write a code for each
  symbol (`replaceAll_flatMap`);
* `feed` : what a machine makes of a text;
* `feed_flatMap`, `feed_join` : it is enough that the machine reads the code of one symbol, and
  one word with a separator;
* `upTo` : the text before the place where a machine stops; `Passes` : a part of the text in
  which it does not.
-/
import Mathlib

namespace Escaping

variable {α β σ : Type*}

/-! ## Codes for the symbols -/

section Replace

variable [DecidableEq α]

/-- Write `code` for each `c` of a text. -/
def replaceAll (c : α) (code s : List α) : List α :=
  s.flatMap fun d => if d = c then code else [d]

@[simp]
theorem replaceAll_nil (c : α) (code : List α) : replaceAll c code [] = [] := rfl

@[simp]
theorem replaceAll_cons (c : α) (code : List α) (d : α) (s : List α) :
    replaceAll c code (d :: s) = (if d = c then code else [d]) ++ replaceAll c code s := rfl

/-- A replacement after codes have been written acts on each code. -/
theorem replaceAll_flatMap (c : α) (code : List α) (f : β → List α) (s : List β) :
    replaceAll c code (s.flatMap f) = s.flatMap fun d => replaceAll c code (f d) :=
  List.flatMap_assoc

/-- The replacement of a character in a string. -/
def replaceChar (s : String) (c : Char) (code : String) : String :=
  String.ofList (replaceAll c code.toList s.toList)

@[simp]
theorem toList_replaceChar (s : String) (c : Char) (code : String) :
    (replaceChar s c code).toList = replaceAll c code.toList s.toList :=
  String.toList_ofList

end Replace

/-- **A decoder undoes a code** if it does so for the first symbol; it may give other symbols
back. -/
theorem decode_flatMap {γ : Type*} {decode : List α → Option (List γ)} {code : β → List α}
    {value : β → γ} (hnil : decode [] = some [])
    (hcode : ∀ c s t, decode s = some t → decode (code c ++ s) = some (value c :: t))
    (s : List β) : decode (s.flatMap code) = some (s.map value) := by
  induction s with
  | nil => exact hnil
  | cons c s ih =>
    rw [List.flatMap_cons]
    exact hcode c _ _ ih

/-! ## Machines -/

section Feed

variable (step : σ → α → Option σ)

/-- The state a machine is in after a text, if it takes it. -/
def feed : σ → List α → Option σ
  | st, [] => some st
  | st, c :: s => (step st c).bind fun st' => feed st' s

@[simp]
theorem feed_nil (st : σ) : feed step st [] = some st := rfl

@[simp]
theorem feed_cons (st : σ) (c : α) (s : List α) :
    feed step st (c :: s) = (step st c).bind fun st' => feed step st' s := rfl

theorem feed_append (st : σ) (s t : List α) :
    feed step st (s ++ t) = (feed step st s).bind fun st' => feed step st' t := by
  induction s generalizing st with
  | nil => rfl
  | cons c s ih =>
    rw [List.cons_append, feed_cons, feed_cons]
    cases step st c with
    | none => rfl
    | some st' => exact ih st'

variable {step}

theorem feed_append_of_eq {st st' : σ} {s : List α} (h : feed step st s = some st')
    (t : List α) : feed step st (s ++ t) = feed step st' t := by
  rw [feed_append, h]
  rfl

/-- **Symbol by symbol.**  `reading` is the state in which the symbols so far have been read. -/
theorem feed_flatMap {code : β → List α} {reading : List β → σ} {s : List β}
    (h : ∀ read, ∀ c ∈ s, feed step (reading read) (code c) = some (reading (read ++ [c])))
    (read : List β) : feed step (reading read) (s.flatMap code) = some (reading (read ++ s)) := by
  induction s generalizing read with
  | nil =>
    rw [List.append_nil]
    rfl
  | cons c s ih =>
    rw [List.flatMap_cons, feed_append_of_eq (h read c List.mem_cons_self),
      ih (fun read d hd => h read d (List.mem_cons_of_mem c hd)), List.append_assoc]
    rfl

/-- **Word by word.**  `before` is the state between the words, `after` the state at the end of
one. -/
theorem feed_join {write : β → List α} {sep : List α} {before : List β → σ}
    {after : List β → β → σ} {ws : List β} (hne : ws ≠ [])
    (hword : ∀ words, ∀ w ∈ ws, feed step (before words) (write w) = some (after words w))
    (hsep : ∀ words w, feed step (after words w) sep = some (before (words ++ [w])))
    (words : List β) :
    ∃ read last, read ++ [last] = words ++ ws ∧
      feed step (before words) (sep.intercalate (ws.map write)) = some (after read last) := by
  induction ws generalizing words with
  | nil => exact absurd rfl hne
  | cons w rest ih =>
    have hfirst := hword words w List.mem_cons_self
    cases rest with
    | nil =>
      refine ⟨words, w, rfl, ?_⟩
      rw [List.map_singleton, List.intercalate_singleton]
      exact hfirst
    | cons w' rest =>
      obtain ⟨read, last, hread, hfeed⟩ := ih (List.cons_ne_nil w' rest)
        (fun words v hv => hword words v (List.mem_cons_of_mem w hv)) (words ++ [w])
      refine ⟨read, last, ?_, ?_⟩
      · rw [hread, List.append_assoc]
        rfl
      · rw [List.map_cons, List.map_cons, List.intercalate_cons_cons, List.append_assoc,
          feed_append_of_eq hfirst, feed_append_of_eq (hsep words w)]
        exact hfeed

/-- **What every step counts**, a run counts. -/
theorem feed_countP {p : α → Bool} {measure : σ → ℕ}
    (h : ∀ st c st', step st c = some st' → measure st' = measure st + if p c then 1 else 0)
    {st st' : σ} {s : List α} (hfeed : feed step st s = some st') :
    measure st' = measure st + s.countP p := by
  induction s generalizing st with
  | nil =>
    obtain rfl := Option.some.inj hfeed
    rfl
  | cons c s ih =>
    obtain ⟨st₁, hstep, hrest⟩ := Option.bind_eq_some_iff.mp hfeed
    rw [ih hrest, h st c st₁ hstep, List.countP_cons]
    omega

end Feed

/-! ## Where a machine stops -/

section UpTo

variable (next : σ → α → σ) (stop : σ → α → Bool)

/-- The text before the first symbol at which the machine stops. -/
def upTo : σ → List α → List α
  | _, [] => []
  | st, c :: s => if stop st c then [] else c :: upTo (next st c) s

/-- From `st` to `st'` the machine does not stop in the text. -/
def Passes (st : σ) (s : List α) (st' : σ) : Prop :=
  ∀ t, upTo next stop st (s ++ t) = s ++ upTo next stop st' t

variable {next stop}

theorem Passes.nil (st : σ) : Passes next stop st [] st := fun _ => rfl

theorem Passes.cons {st st' : σ} {c : α} {s : List α} (hc : stop st c = false)
    (h : Passes next stop (next st c) s st') : Passes next stop st (c :: s) st' := by
  intro t
  rw [List.cons_append, upTo, hc, h t]
  rfl

theorem Passes.append {st st' st'' : σ} {s s' : List α} (h : Passes next stop st s st')
    (h' : Passes next stop st' s' st'') : Passes next stop st (s ++ s') st'' := by
  intro t
  rw [List.append_assoc, h, h', List.append_assoc]

theorem Passes.flatMap {code : β → List α} {st : σ}
    (h : ∀ c, Passes next stop st (code c) st) (s : List β) :
    Passes next stop st (s.flatMap code) st := by
  induction s with
  | nil => exact Passes.nil st
  | cons c s ih =>
    rw [List.flatMap_cons]
    exact (h c).append ih

theorem Passes.join {write : β → List α} {sep : List α} {st : σ}
    (hword : ∀ w, Passes next stop st (write w) st) (hsep : Passes next stop st sep st)
    (words : List β) : Passes next stop st (sep.intercalate (words.map write)) st := by
  induction words with
  | nil => exact Passes.nil st
  | cons w rest ih =>
    cases rest with
    | nil =>
      rw [List.map_singleton, List.intercalate_singleton]
      exact hword w
    | cons w' rest =>
      rw [List.map_cons, List.map_cons, List.intercalate_cons_cons]
      exact ((hword w).append hsep).append ih

/-- The machine stops right after the part that it passes. -/
theorem Passes.upTo_eq {st st' : σ} {s : List α} (h : Passes next stop st s st') {c : α}
    (hc : stop st' c = true) (t : List α) : upTo next stop st (s ++ c :: t) = s := by
  rw [h, upTo, if_pos hc, List.append_nil]

end UpTo

end Escaping
