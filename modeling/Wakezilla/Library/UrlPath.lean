/-
# Paths of URLs

A path is a list of segments between slashes.

* `encode`, `decode` : percent encoding of the bytes of a segment, with the bytes that stand
  for themselves as a parameter; `decode_encode` reads the segment back;
* `segmentsOf_pathOf` : segments without a slash are those of the path they are written into;
* `isDot`, `isDoubleDot` : the segments that a URL parser removes, in all their spellings;
* `Pattern` : the paths of a table, in which a fixed segment is preferred to a variable one;
* `Stack` : what stands between a client and a handler, the client's URL parser and the server's
  router, as a parameter, and what is known of the two (`Stack.Documented`).
-/
import Wakezilla.Library.Json

namespace UrlPath

/-! ## Percent encoding -/

/-- An upper-case hexadecimal digit. -/
def upperDigit (n : ℕ) : Char := "0123456789ABCDEF".toList.getD n '0'

/-- The code of a byte: the character itself if `keep` allows it. -/
def encodeByte (keep : Char → Bool) (b : UInt8) : List Char :=
  if b.toNat < 128 ∧ keep (Char.ofNat b.toNat) then [Char.ofNat b.toNat]
  else ['%', upperDigit (b.toNat / 16), upperDigit (b.toNat % 16)]

/-- The code of a segment. -/
def encode (keep : Char → Bool) (bytes : List UInt8) : List Char :=
  bytes.flatMap (encodeByte keep)

/-- The byte of two hexadecimal digits. -/
def hexPair (a b : Char) : Option UInt8 := do
  let x ← Json.hexValue a
  let y ← Json.hexValue b
  some (UInt8.ofNat (16 * x + y))

/-- The bytes of a segment; a `%` that no two digits follow stands for itself. -/
def decode : List Char → List UInt8
  | '%' :: a :: b :: rest =>
    match hexPair a b with
    | some byte => byte :: decode rest
    | none => 37 :: decode (a :: b :: rest)
  | c :: s => String.utf8EncodeChar c ++ decode s
  | [] => []

theorem hexValue_upperDigit {n : ℕ} (h : n < 16) : Json.hexValue (upperDigit n) = some n := by
  have hall : ∀ n < 16, Json.hexValue (upperDigit n) = some n := by decide
  exact hall n h

theorem toNat_ofNat_of_lt {n : ℕ} (h : n < 128) : (Char.ofNat n).toNat = n := by
  have hall : ∀ n < 128, (Char.ofNat n).toNat = n := by decide
  exact hall n h

/-- What holds of the ASCII characters by their codes. -/
theorem forall_ascii {P : Char → Prop} (h : ∀ n < 128, P (Char.ofNat n)) {c : Char}
    (hc : c.toNat < 128) : P c := by
  have hcode := h c.toNat hc
  rwa [Char.ofNat_toNat] at hcode

theorem utf8EncodeChar_of_lt {b : UInt8} (h : b.toNat < 128) :
    String.utf8EncodeChar (Char.ofNat b.toNat) = [b] := by
  have hall : ∀ n < 128, String.utf8EncodeChar (Char.ofNat n) = [UInt8.ofNat n] := by decide
  rw [hall b.toNat h, UInt8.ofNat_toNat]

theorem hexPair_upperDigit (b : UInt8) :
    hexPair (upperDigit (b.toNat / 16)) (upperDigit (b.toNat % 16)) = some b := by
  have hlt := b.toNat_lt
  have hhigh : Json.hexValue (upperDigit (b.toNat / 16)) = some (b.toNat / 16) :=
    hexValue_upperDigit (by omega)
  have hlow : Json.hexValue (upperDigit (b.toNat % 16)) = some (b.toNat % 16) :=
    hexValue_upperDigit (by omega)
  rw [hexPair, hhigh, hlow]
  show some (UInt8.ofNat (16 * (b.toNat / 16) + b.toNat % 16)) = some b
  rw [Nat.div_add_mod, UInt8.ofNat_toNat]

theorem decode_encodeByte {keep : Char → Bool} (hkeep : keep '%' = false) (b : UInt8)
    (s : List Char) : decode (encodeByte keep b ++ s) = b :: decode s := by
  unfold encodeByte
  split
  · next h =>
    have hpercent : Char.ofNat b.toNat ≠ '%' := by
      intro heq
      rw [heq, hkeep] at h
      exact Bool.false_ne_true h.2
    rw [List.singleton_append, decode, utf8EncodeChar_of_lt h.1, List.singleton_append]
    exact fun _ _ _ heq => absurd heq hpercent
  · show decode ('%' :: upperDigit (b.toNat / 16) :: upperDigit (b.toNat % 16) :: s) = _
    rw [decode, hexPair_upperDigit]

/-- **Decoding undoes encoding.** -/
theorem decode_encode {keep : Char → Bool} (hkeep : keep '%' = false) (bytes : List UInt8) :
    decode (encode keep bytes) = bytes := by
  induction bytes with
  | nil => rfl
  | cons b bytes ih =>
    rw [encode, List.flatMap_cons, decode_encodeByte hkeep]
    exact congrArg _ ih

/-- The characters of a code. -/
theorem mem_encode {keep : Char → Bool} {bytes : List UInt8} {c : Char}
    (hc : c ∈ encode keep bytes) :
    (c.toNat < 128 ∧ keep c = true) ∨ c = '%' ∨ c ∈ "0123456789ABCDEF".toList := by
  have hdigit : ∀ n < 16, upperDigit n ∈ "0123456789ABCDEF".toList := by decide
  obtain ⟨b, -, hb⟩ := List.mem_flatMap.mp hc
  have hlt := b.toNat_lt
  unfold encodeByte at hb
  split at hb
  · next h =>
    have hnat : (Char.ofNat b.toNat).toNat = b.toNat := toNat_ofNat_of_lt h.1
    rw [List.mem_singleton.mp hb, hnat]
    exact Or.inl h
  · simp only [List.mem_cons, List.not_mem_nil, or_false] at hb
    rcases hb with rfl | rfl | rfl
    · exact Or.inr (Or.inl rfl)
    · exact Or.inr (Or.inr (hdigit _ (by omega)))
    · exact Or.inr (Or.inr (hdigit _ (by omega)))

/-- A segment without a `%` stands for itself. -/
theorem decode_of_not_mem {s : List Char} (h : '%' ∉ s) :
    decode s = s.flatMap String.utf8EncodeChar := by
  induction s with
  | nil => rfl
  | cons c s ih =>
    rw [List.mem_cons, not_or] at h
    rw [decode, ih h.2, List.flatMap_cons]
    exact fun _ _ _ heq => absurd heq.symm h.1

/-! ## Segments -/

/-- The segments of a path. -/
def split (path : List Char) : List (List Char) := path.splitOn '/'

/-- The path of some segments. -/
def join (segments : List (List Char)) : List Char := ['/'].intercalate segments

theorem split_join {segments : List (List Char)} (hne : segments ≠ [])
    (hslash : ∀ s ∈ segments, '/' ∉ s) : split (join segments) = segments :=
  List.splitOn_intercalate '/' hslash hne

/-- The path from the root through some segments. -/
def pathOf (segments : List (List Char)) : String := String.ofList (join ([] :: segments))

/-- The segments of a path from the root. -/
def segmentsOf (path : String) : List (List Char) := (split path.toList).tail

theorem segmentsOf_pathOf {segments : List (List Char)} (hslash : ∀ s ∈ segments, '/' ∉ s) :
    segmentsOf (pathOf segments) = segments := by
  rw [segmentsOf, pathOf, String.toList_ofList, split_join (List.cons_ne_nil _ _)]
  · rfl
  · exact List.forall_mem_cons.mpr ⟨List.not_mem_nil, hslash⟩

/-! ## Dot segments -/

/-- The ways to write a dot. -/
def dots : List (List Char) := [".", "%2e", "%2E"].map String.toList

/-- The segment for the directory itself. -/
def isDot (s : List Char) : Bool := s ∈ dots

/-- The segment for the directory above. -/
def isDoubleDot (s : List Char) : Bool := s ∈ dots.flatMap fun a => dots.map fun b => a ++ b

theorem decode_of_isDot {s : List Char} (h : isDot s = true) : decode s = [46] := by
  have hall : ∀ s ∈ dots, decode s = [46] := by decide
  exact hall s (of_decide_eq_true h)

theorem decode_of_isDoubleDot {s : List Char} (h : isDoubleDot s = true) : decode s = [46, 46] := by
  have hall : ∀ s ∈ dots.flatMap fun a => dots.map fun b => a ++ b, decode s = [46, 46] := by decide
  exact hall s (of_decide_eq_true h)

theorem eq_of_utf8EncodeChar_append {c d : Char} {s t : List UInt8}
    (h : String.utf8EncodeChar c ++ s = String.utf8EncodeChar d ++ t) : c = d ∧ s = t := by
  have hc := ByteArray.utf8DecodeChar?_utf8EncodeChar_append (b := s.toByteArray) (c := c)
  have hd := ByteArray.utf8DecodeChar?_utf8EncodeChar_append (b := t.toByteArray) (c := d)
  rw [← List.toByteArray_append, h, List.toByteArray_append, hd] at hc
  obtain rfl := Option.some.inj hc
  exact ⟨rfl, List.append_cancel_left h⟩

theorem hexValue_spec {c : Char} {n : ℕ} (h : Json.hexValue c = some n) :
    c.toNat < 128 ∧ n < 16 := by
  have hcodes : '9'.toNat = 57 ∧ '0'.toNat = 48 ∧ 'a'.toNat = 97 ∧ 'f'.toNat = 102 ∧
      'A'.toNat = 65 ∧ 'F'.toNat = 70 := by decide
  unfold Json.hexValue at h
  simp only [Char.isDigit, Bool.and_eq_true, decide_eq_true_eq] at h
  split_ifs at h with hdigit hlower hupper
  · cases h
    have hhigh : c.toNat ≤ '9'.toNat := hdigit.2
    omega
  · cases h
    have hhigh : c.toNat ≤ 'f'.toNat := hlower.2
    omega
  · cases h
    have hhigh : c.toNat ≤ 'F'.toNat := hupper.2
    omega

/-- The codes of a dot. -/
theorem hexPair_eq_dot {a b : Char} (h : hexPair a b = some 46) : ['%', a, b] ∈ dots := by
  obtain ⟨x, hx, y, hy, hbyte⟩ : ∃ x, Json.hexValue a = some x ∧
      ∃ y, Json.hexValue b = some y ∧ UInt8.ofNat (16 * x + y) = 46 := by
    simpa [hexPair, Option.bind_eq_some_iff] using h
  obtain ⟨ha, hxlt⟩ := hexValue_spec hx
  obtain ⟨hb, hylt⟩ := hexValue_spec hy
  have hcode : (16 * x + y) % 256 = 46 := by
    have hnat := congrArg UInt8.toNat hbyte
    rwa [UInt8.toNat_ofNat'] at hnat
  obtain ⟨rfl, rfl⟩ : x = 2 ∧ y = 14 := by omega
  obtain rfl : a = '2' := forall_ascii (P := fun c => Json.hexValue c = some 2 → c = '2')
    (by decide) ha hx
  have hletter : b = 'e' ∨ b = 'E' :=
    forall_ascii (P := fun c => Json.hexValue c = some 14 → c = 'e' ∨ c = 'E') (by decide) hb hy
  rcases hletter with rfl | rfl <;> decide

/-- What is read as a dot is written as one. -/
theorem decode_eq_dot_cons {s : List Char} {t : List UInt8} (h : decode s = 46 :: t) :
    ∃ d ∈ dots, ∃ rest, s = d ++ rest ∧ decode rest = t := by
  have hdot : String.utf8EncodeChar '.' = [46] := by decide
  unfold decode at h
  split at h
  next a b rest =>
    split at h
    next byte hpair =>
      obtain ⟨rfl, hrest⟩ := List.cons.inj h
      exact ⟨_, hexPair_eq_dot hpair, rest, rfl, hrest⟩
    next => exact absurd (List.cons.inj h).1 (by decide)
  next c rest _ =>
    obtain ⟨rfl, hrest⟩ := eq_of_utf8EncodeChar_append (d := '.') (t := t) (by rw [h, hdot]; rfl)
    exact ⟨['.'], by decide, rest, rfl, hrest⟩
  next => cases h

theorem eq_nil_of_decode {s : List Char} (h : decode s = []) : s = [] := by
  unfold decode at h
  split at h
  next => split at h <;> cases h
  next => exact absurd (List.append_eq_nil_iff.mp h).1 String.utf8EncodeChar_ne_nil
  next => rfl

theorem isDot_of_decode {s : List Char} (h : decode s = [46]) : isDot s = true := by
  obtain ⟨d, hd, rest, rfl, hrest⟩ := decode_eq_dot_cons h
  obtain rfl := eq_nil_of_decode hrest
  rw [List.append_nil]
  exact decide_eq_true hd

theorem isDoubleDot_of_decode {s : List Char} (h : decode s = [46, 46]) :
    isDoubleDot s = true := by
  obtain ⟨d, hd, rest, rfl, hrest⟩ := decode_eq_dot_cons h
  obtain ⟨e, he, last, rfl, hlast⟩ := decode_eq_dot_cons hrest
  obtain rfl := eq_nil_of_decode hlast
  rw [List.append_nil]
  exact decide_eq_true (List.mem_flatMap.mpr ⟨d, hd, List.mem_map.mpr ⟨e, he, rfl⟩⟩)

theorem length_le_of_isDot {s : List Char} (h : isDot s = true) : s.length ≤ 3 := by
  have hall : ∀ s ∈ dots, s.length ≤ 3 := by decide
  exact hall s (of_decide_eq_true h)

theorem length_le_of_isDoubleDot {s : List Char} (h : isDoubleDot s = true) : s.length ≤ 6 := by
  have hall : ∀ s ∈ dots.flatMap fun a => dots.map fun b => a ++ b, s.length ≤ 6 := by decide
  exact hall s (of_decide_eq_true h)

/-! ## Plain segments -/

/-- A character that a URL parser writes into a path as it is, and that does not end a segment. -/
def plainChar (c : Char) : Bool := c.isAlphanum || c ∈ ['-', '.', '_', '~', ':', '%']

/-- A segment that a URL parser leaves as it is. -/
structure PlainSegment (s : List Char) : Prop where
  ne_nil : s ≠ []
  chars : ∀ c ∈ s, plainChar c = true
  notDot : isDot s = false
  notDoubleDot : isDoubleDot s = false

theorem PlainSegment.slash_not_mem {s : List Char} (h : PlainSegment s) : '/' ∉ s :=
  fun hmem => absurd (h.chars '/' hmem) (by decide)

/-! ## Tables of paths -/

/-- A segment of a pattern: fixed, or a variable. -/
inductive Pattern
  | fixed (segment : String)
  | param
  deriving DecidableEq, Repr

/-- What the variables of a pattern stand for in a path. -/
def Pattern.bind : List Pattern → List (List Char) → Option (List (List Char))
  | [], [] => some []
  | .fixed segment :: ps, s :: rest => if s = segment.toList then bind ps rest else none
  | .param :: ps, s :: rest => (bind ps rest).map (s :: ·)
  | _, _ => none

/-- Of two patterns for one path, the one with the fixed segment where they first differ. -/
def Pattern.preferred : List Pattern → List Pattern → Bool
  | .fixed _ :: ps, .fixed _ :: qs => preferred ps qs
  | .param :: ps, .param :: qs => preferred ps qs
  | .fixed _ :: _, .param :: _ => true
  | _, _ => false

/-- Of two different patterns for one path, one is preferred. -/
theorem Pattern.eq_of_not_preferred {ps qs : List Pattern} {path values values' : List (List Char)}
    (hps : bind ps path = some values) (hqs : bind qs path = some values')
    (hpq : preferred ps qs = false) (hqp : preferred qs ps = false) : ps = qs := by
  induction path generalizing ps qs values values' with
  | nil =>
    cases ps with
    | cons p ps => cases p <;> cases hps
    | nil =>
      cases qs with
      | cons q qs => cases q <;> cases hqs
      | nil => rfl
  | cons s path ih =>
    cases ps with
    | nil => cases hps
    | cons p ps =>
      cases qs with
      | nil => cases hqs
      | cons q qs =>
        cases p with
        | fixed segment =>
          cases q with
          | fixed segment' =>
            rw [bind] at hps hqs
            split_ifs at hps hqs with hs hs'
            rw [String.toList_inj.mp (hs.symm.trans hs'), ih hps hqs hpq hqp]
          | param => cases hpq
        | param =>
          cases q with
          | fixed segment' => cases hqp
          | param =>
            obtain ⟨rest, hrest, -⟩ := Option.map_eq_some_iff.mp hps
            obtain ⟨rest', hrest', -⟩ := Option.map_eq_some_iff.mp hqs
            rw [ih hrest hrest' hpq hqp]

/-- The values of the variables are segments of the path. -/
theorem Pattern.mem_of_bind {ps : List Pattern} {path values : List (List Char)}
    (h : bind ps path = some values) {s : List Char} (hs : s ∈ values) : s ∈ path := by
  induction path generalizing ps values with
  | nil =>
    cases ps with
    | cons p ps => cases p <;> cases h
    | nil => cases h; cases hs
  | cons first path ih =>
    cases ps with
    | nil => cases h
    | cons p ps =>
      cases p with
      | fixed segment =>
        rw [bind] at h
        split_ifs at h
        exact List.mem_cons_of_mem first (ih h hs)
      | param =>
        obtain ⟨rest, hrest, rfl⟩ := Option.map_eq_some_iff.mp h
        rcases List.mem_cons.mp hs with rfl | hs
        · exact List.mem_cons_self
        · exact List.mem_cons_of_mem first (ih hrest hs)

/-- An entry of a table: which handler gets the requests of a method for a pattern. -/
structure Entry (μ α : Type*) where
  pattern : List Pattern
  method : μ
  handler : α
  deriving DecidableEq, Repr

variable {μ α : Type*} {table : List (Entry μ α)} {entry : Entry μ α}
  {path values : List (List Char)}

/-- The entry is for the path, and no entry that is preferred to it is. -/
structure Entry.Best (table : List (Entry μ α)) (path : List (List Char)) (entry : Entry μ α)
    (values : List (List Char)) : Prop where
  mem : entry ∈ table
  bound : Pattern.bind entry.pattern path = some values
  best : ∀ other ∈ table, (Pattern.bind other.pattern path).isSome = true →
    Pattern.preferred other.pattern entry.pattern = false

/-- A segment whose percent-decoded bytes are the UTF-8 of the text. -/
def Decodes (segment : List Char) (text : String) : Prop :=
  decode segment = text.toUTF8.data.toList

/-- What stands between a client and a handler: the path that the client sends for a reference, if
it sends a request, and the handler of a table that the server chooses for a method and a path,
with its arguments. -/
structure Stack (μ α : Type*) where
  sentPath : String → Option String
  choose : List (Entry μ α) → μ → String → Option (α × List String)

/-- The way of a request from its reference to a handler. -/
def Stack.dispatch (stack : Stack μ α) (table : List (Entry μ α)) (method : μ)
    (reference : String) : Option (α × List String) :=
  (stack.sentPath reference).bind (stack.choose table method)

/-- What is documented of the two sides for a table: the client sends plain segments as they are,
and no dot segments; the server calls the handler of the best entry if that has the method, with
the decoded values as its arguments.  Nothing is said of a request whose path has empty segments,
but that it gets no handler which the table does not have for it. -/
structure Stack.Documented (stack : Stack μ α) (table : List (Entry μ α)) : Prop where
  keepsPlain : ∀ segments, segments ≠ [] → (∀ s ∈ segments, PlainSegment s) →
    stack.sentPath (pathOf segments) = some (pathOf segments)
  sendsNoDots : ∀ reference path, stack.sentPath reference = some path →
    ∀ s ∈ segmentsOf path, isDot s = false ∧ isDoubleDot s = false
  chooses : ∀ path (entry : Entry μ α) values arguments, [] ∉ segmentsOf path →
    entry.Best table (segmentsOf path) values → List.Forall₂ Decodes values arguments →
      stack.choose table entry.method path = some (entry.handler, arguments)
  chosen : ∀ method path handler arguments,
    stack.choose table method path = some (handler, arguments) →
      ∃ (entry : Entry μ α) (values : _), entry.Best table (segmentsOf path) values ∧
        entry.method = method ∧ entry.handler = handler ∧ List.Forall₂ Decodes values arguments

/-- A request for plain segments gets the handler of the best entry. -/
theorem Stack.Documented.dispatch_plain {stack : Stack μ α} (h : stack.Documented table)
    (hbest : entry.Best table path values) (hplain : ∀ s ∈ path, PlainSegment s)
    (hne : path ≠ []) {arguments : List String}
    (hdecodes : List.Forall₂ Decodes values arguments) :
    stack.dispatch table entry.method (pathOf path) = some (entry.handler, arguments) := by
  have hsegments : segmentsOf (pathOf path) = path :=
    segmentsOf_pathOf fun s hs => (hplain s hs).slash_not_mem
  rw [Stack.dispatch, h.keepsPlain path hne hplain, Option.bind_some]
  refine h.chooses (pathOf path) entry values arguments ?_ ?_ hdecodes
  · rw [hsegments]
    exact fun hmem => (hplain [] hmem).ne_nil rfl
  · rwa [hsegments]

/-- A handler is that of an entry for the path that was sent. -/
theorem Stack.Documented.of_dispatch {stack : Stack μ α} (h : stack.Documented table) {method : μ}
    {reference : String} {handler : α} {arguments : List String}
    (hdispatch : stack.dispatch table method reference = some (handler, arguments)) :
    ∃ (path : String) (entry : Entry μ α) (values : List (List Char)),
      stack.sentPath reference = some path ∧
      entry.Best table (segmentsOf path) values ∧ entry.method = method ∧
        entry.handler = handler ∧ List.Forall₂ Decodes values arguments ∧
          ∀ s ∈ values, isDot s = false ∧ isDoubleDot s = false := by
  obtain ⟨path, hpath, hchoose⟩ := Option.bind_eq_some_iff.mp hdispatch
  obtain ⟨entry, values, hbest, hmethod, hhandler, hdecodes⟩ := h.chosen _ _ _ _ hchoose
  exact ⟨path, entry, values, hpath, hbest, hmethod, hhandler, hdecodes, fun s hs =>
    h.sendsNoDots reference path hpath s (Pattern.mem_of_bind hbest.bound hs)⟩

/-! ## A plain stack

A client that asks only for paths without dot segments, and a server that looks for the best entry
of its table: what is documented can be had for every table with one entry for each method of a
pattern. -/

/-- The text of a segment. -/
def textOf (segment : List Char) : Option String := String.fromUTF8? ⟨(decode segment).toArray⟩

theorem textOf_eq_some {segment : List Char} {text : String} :
    textOf segment = some text ↔ Decodes segment text := by
  rw [textOf, Json.fromUTF8_eq_some, Decodes]
  constructor
  · intro h
    rw [← h, List.toList_toArray]
  · intro h
    rw [h, Array.toArray_toList]

theorem mapM_textOf {values : List (List Char)} {arguments : List String} :
    values.mapM textOf = some arguments ↔ List.Forall₂ Decodes values arguments := by
  induction values generalizing arguments with
  | nil => simp [eq_comm]
  | cons s values ih =>
    simp only [List.mapM_cons, Option.bind_eq_bind, Option.bind_eq_some_iff, Option.pure_def,
      Option.some.injEq, textOf_eq_some, ih, List.forall₂_cons_left_iff]
    constructor
    · rintro ⟨text, htext, rest, hrest, rfl⟩
      exact ⟨text, rest, htext, hrest, rfl⟩
    · rintro ⟨text, rest, htext, hrest, rfl⟩
      exact ⟨text, htext, rest, hrest, rfl⟩

/-- No entry that is preferred is for the path, too. -/
def Entry.isBest (table : List (Entry μ α)) (path : List (List Char)) (entry : Entry μ α) : Bool :=
  (Pattern.bind entry.pattern path).isSome && table.all fun other =>
    !((Pattern.bind other.pattern path).isSome && Pattern.preferred other.pattern entry.pattern)

theorem Entry.best_iff :
    (∃ values, entry.Best table path values) ↔ entry ∈ table ∧ entry.isBest table path = true := by
  simp only [isBest, Bool.and_eq_true, Option.isSome_iff_exists, List.all_eq_true,
    Bool.not_eq_true', Bool.and_eq_false_imp]
  constructor
  · rintro ⟨values, hmem, hbound, hbest⟩
    exact ⟨hmem, ⟨values, hbound⟩, fun other hother ⟨v, hv⟩ =>
      hbest other hother (by rw [hv]; rfl)⟩
  · rintro ⟨hmem, ⟨values, hbound⟩, hbest⟩
    exact ⟨values, hmem, hbound, fun other hother hsome =>
      hbest other hother (Option.isSome_iff_exists.mp hsome)⟩

/-- The plain stack. -/
def Stack.plain [DecidableEq μ] : Stack μ α where
  sentPath reference :=
    if (segmentsOf reference).all fun s => !isDot s && !isDoubleDot s then some reference else none
  choose table method path :=
    (table.find? fun entry => decide (entry.method = method) &&
      entry.isBest table (segmentsOf path)).bind fun entry =>
        ((Pattern.bind entry.pattern (segmentsOf path)).bind fun values =>
          values.mapM textOf).map fun arguments => (entry.handler, arguments)

/-- **It is as documented** for a table with one entry for each method of a pattern. -/
theorem Stack.plain_documented [DecidableEq μ]
    (hnodup : (table.map fun entry => (entry.pattern, entry.method)).Nodup) :
    (Stack.plain : Stack μ α).Documented table where
  keepsPlain segments _ hplain := by
    have hsegments : segmentsOf (pathOf segments) = segments :=
      segmentsOf_pathOf fun s hs => (hplain s hs).slash_not_mem
    refine if_pos (List.all_eq_true.mpr fun s hs => ?_)
    rw [hsegments] at hs
    rw [(hplain s hs).notDot, (hplain s hs).notDoubleDot]
    rfl
  sendsNoDots reference path hsent s hs := by
    have hall : ((segmentsOf reference).all fun s => !isDot s && !isDoubleDot s) = true := by
      by_contra hnot
      rw [Stack.plain] at hsent
      simp only [if_neg hnot] at hsent
      cases hsent
    obtain rfl : reference = path := by
      rw [Stack.plain] at hsent
      simpa only [if_pos hall, Option.some.injEq] using hsent
    simpa using List.all_eq_true.mp hall s hs
  chooses path entry values arguments _ hbest hdecodes := by
    obtain ⟨hmem, hisBest⟩ := Entry.best_iff.mp ⟨values, hbest⟩
    obtain ⟨found, hfound⟩ : ∃ found, (table.find? fun x => decide (x.method = entry.method) &&
        x.isBest table (segmentsOf path)) = some found := by
      refine Option.isSome_iff_exists.mp (List.find?_isSome.mpr ⟨entry, hmem, ?_⟩)
      rw [decide_eq_true rfl, hisBest]
      rfl
    have hholds := List.find?_some hfound
    obtain ⟨hmethod, hfoundBest⟩ := Bool.and_eq_true_iff.mp hholds
    have hfoundMem := List.mem_of_find?_eq_some hfound
    obtain ⟨values', hbest'⟩ := Entry.best_iff.mpr ⟨hfoundMem, hfoundBest⟩
    -- both are the best one, so they have one pattern, and the table has them once
    have hpattern : found.pattern = entry.pattern :=
      Pattern.eq_of_not_preferred hbest'.bound hbest.bound
        (hbest.best found hfoundMem (by rw [hbest'.bound]; rfl))
        (hbest'.best entry hmem (by rw [hbest.bound]; rfl))
    obtain rfl : found = entry := List.inj_on_of_nodup_map hnodup hfoundMem hmem
      (Prod.ext hpattern (of_decide_eq_true hmethod))
    simp only [Stack.plain, hfound, Option.bind_some, hbest.bound, mapM_textOf.mpr hdecodes,
      Option.map_some]
  chosen method path handler arguments hchoose := by
    obtain ⟨entry, hfound, hrest⟩ := Option.bind_eq_some_iff.mp hchoose
    obtain ⟨arguments', hvalues, heq⟩ := Option.map_eq_some_iff.mp hrest
    obtain ⟨values, hbound, hdecodes⟩ := Option.bind_eq_some_iff.mp hvalues
    cases heq
    have hholds := List.find?_some hfound
    obtain ⟨hmethod, hisBest⟩ := Bool.and_eq_true_iff.mp hholds
    obtain ⟨values', hbest⟩ := Entry.best_iff.mpr ⟨List.mem_of_find?_eq_some hfound, hisBest⟩
    obtain rfl : values' = values := Option.some.inj (hbest.bound.symm.trans hbound)
    exact ⟨entry, values', hbest, of_decide_eq_true hmethod, rfl, mapM_textOf.mp hdecodes⟩

end UrlPath
