/-
# JSON documents and their text

Values, the pretty printer that indents by two blanks, the printer without any blanks, and
a parser for JSON text with any white space between tokens.  Numbers are integers; a number
with a fraction or an exponent is refused.

* `Json.toStringPretty`, `Json.toStringCompact`, `Json.fromStr`;
* `Json.fromStr_toStringPretty`, `Json.fromStr_toStringCompact` : parsing undoes printing.

What the parser reads back is proved once, for every layout of the blanks (`Json.Layout`).

The parser takes fuel, one unit a value or list element; the length of the text is
always enough for a text that the printer produced.
-/
import Mathlib

inductive Json where
  | null
  | bool (b : Bool)
  | number (n : ℤ)
  | string (s : String)
  | array (items : List Json)
  | object (members : List (String × Json))

namespace Json

/-! ## Printing -/

def hexDigit (n : ℕ) : Char := "0123456789abcdef".toList.getD n '0'

/-- A character inside a string literal. -/
def escapeChar (c : Char) : List Char :=
  if c = '"' then ['\\', '"']
  else if c = '\\' then ['\\', '\\']
  else if c = '\n' then ['\\', 'n']
  else if c = '\r' then ['\\', 'r']
  else if c = '\t' then ['\\', 't']
  else if c.toNat = 8 then ['\\', 'b']
  else if c.toNat = 12 then ['\\', 'f']
  else if c.toNat < 32 then
    ['\\', 'u', '0', '0', hexDigit (c.toNat / 16), hexDigit (c.toNat % 16)]
  else [c]

/-- A string literal after its opening quote. -/
def printString (s : String) : List Char := s.toList.flatMap escapeChar ++ ['"']

def printNumber : ℤ → List Char
  | .ofNat n => Nat.toDigits 10 n
  | .negSucc n => '-' :: Nat.toDigits 10 (n + 1)

/-- A line break and the indentation of a nesting level. -/
def newline (level : ℕ) : List Char := '\n' :: List.replicate (2 * level) ' '

mutual

def print (level : ℕ) : Json → List Char
  | null => ['n', 'u', 'l', 'l']
  | bool true => ['t', 'r', 'u', 'e']
  | bool false => ['f', 'a', 'l', 's', 'e']
  | number n => printNumber n
  | string s => '"' :: printString s
  | array [] => ['[', ']']
  | array (v :: vs) =>
    '[' :: (newline (level + 1) ++ (print (level + 1) v ++
      (printItems (level + 1) vs ++ (newline level ++ [']']))))
  | object [] => ['{', '}']
  | object ((k, v) :: ms) =>
    '{' :: (newline (level + 1) ++ ('"' :: (printString k ++ (':' :: ' ' :: (print (level + 1) v ++
      (printMembers (level + 1) ms ++ (newline level ++ ['}'])))))))

/-- The elements after the first one. -/
def printItems (level : ℕ) : List Json → List Char
  | [] => []
  | v :: vs => ',' :: (newline level ++ (print level v ++ printItems level vs))

/-- The members after the first one. -/
def printMembers (level : ℕ) : List (String × Json) → List Char
  | [] => []
  | (k, v) :: ms =>
    ',' :: (newline level ++ ('"' :: (printString k ++ (':' :: ' ' :: (print level v ++
      printMembers level ms)))))

end

/-! ## Parsing -/

def isSpace (c : Char) : Bool := c = ' ' || c = '\n' || c = '\r' || c = '\t'

def skipSpace (s : List Char) : List Char := s.dropWhile isSpace

def hexValue (c : Char) : Option ℕ :=
  if c.isDigit then some (c.toNat - '0'.toNat)
  else if 'a' ≤ c && c ≤ 'f' then some (c.toNat - 'a'.toNat + 10)
  else if 'A' ≤ c && c ≤ 'F' then some (c.toNat - 'A'.toNat + 10)
  else none

/-- The code point of four hexadecimal digits. -/
def hexCode (a b c d : Char) : Option ℕ := do
  let a ← hexValue a
  let b ← hexValue b
  let c ← hexValue c
  let d ← hexValue d
  some (((a * 16 + b) * 16 + c) * 16 + d)

/-- The rest of a string literal, and what follows it.  Escapes of surrogates are
refused. -/
def parseString : List Char → Option (List Char × List Char)
  | '"' :: rest => some ([], rest)
  | '\\' :: '"' :: rest => (parseString rest).map fun p => ('"' :: p.1, p.2)
  | '\\' :: '\\' :: rest => (parseString rest).map fun p => ('\\' :: p.1, p.2)
  | '\\' :: '/' :: rest => (parseString rest).map fun p => ('/' :: p.1, p.2)
  | '\\' :: 'n' :: rest => (parseString rest).map fun p => ('\n' :: p.1, p.2)
  | '\\' :: 'r' :: rest => (parseString rest).map fun p => ('\r' :: p.1, p.2)
  | '\\' :: 't' :: rest => (parseString rest).map fun p => ('\t' :: p.1, p.2)
  | '\\' :: 'b' :: rest => (parseString rest).map fun p => (Char.ofNat 8 :: p.1, p.2)
  | '\\' :: 'f' :: rest => (parseString rest).map fun p => (Char.ofNat 12 :: p.1, p.2)
  | '\\' :: 'u' :: a :: b :: c :: d :: rest =>
    match hexCode a b c d with
    | some n =>
      if 0xD800 ≤ n && n ≤ 0xDFFF then none
      else (parseString rest).map fun p => (Char.ofNat n :: p.1, p.2)
    | none => none
  | '\\' :: _ => none
  | c :: rest =>
    if c.toNat < 32 then none else (parseString rest).map fun p => (c :: p.1, p.2)
  | [] => none

/-- Decimal digits without leading zeros, and what follows them. -/
def parseDigits (s : List Char) : Option (ℕ × List Char) :=
  let digits := s.takeWhile Char.isDigit
  let n := Nat.ofDigitChars 10 digits 0
  if Nat.toDigits 10 n = digits then some (n, s.dropWhile Char.isDigit) else none

def parseNumber : List Char → Option (ℤ × List Char)
  | '-' :: s =>
    match parseDigits s with
    | some (n + 1, rest) => some (.negSucc n, rest)
    | _ => none
  | s => (parseDigits s).map fun p => (.ofNat p.1, p.2)

mutual

def parseValue : ℕ → List Char → Option (Json × List Char)
  | 0, _ => none
  | fuel + 1, s =>
    match skipSpace s with
    | 'n' :: 'u' :: 'l' :: 'l' :: rest => some (null, rest)
    | 't' :: 'r' :: 'u' :: 'e' :: rest => some (bool true, rest)
    | 'f' :: 'a' :: 'l' :: 's' :: 'e' :: rest => some (bool false, rest)
    | '"' :: rest => (parseString rest).map fun p => (string (String.ofList p.1), p.2)
    | '[' :: rest =>
      match skipSpace rest with
      | ']' :: rest' => some (array [], rest')
      | _ => (parseItems fuel rest).map fun p => (array p.1, p.2)
    | '{' :: rest =>
      match skipSpace rest with
      | '}' :: rest' => some (object [], rest')
      | _ => (parseMembers fuel rest).map fun p => (object p.1, p.2)
    | rest => (parseNumber rest).map fun p => (number p.1, p.2)

def parseItems : ℕ → List Char → Option (List Json × List Char)
  | 0, _ => none
  | fuel + 1, s =>
    match parseValue fuel s with
    | none => none
    | some (v, rest) =>
      match skipSpace rest with
      | ',' :: rest => (parseItems fuel rest).map fun p => (v :: p.1, p.2)
      | ']' :: rest => some ([v], rest)
      | _ => none

def parseMembers : ℕ → List Char → Option (List (String × Json) × List Char)
  | 0, _ => none
  | fuel + 1, s =>
    match skipSpace s with
    | '"' :: rest =>
      match parseString rest with
      | none => none
      | some (k, rest) =>
        match skipSpace rest with
        | ':' :: rest =>
          match parseValue fuel rest with
          | none => none
          | some (v, rest) =>
            match skipSpace rest with
            | ',' :: rest =>
              (parseMembers fuel rest).map fun p => ((String.ofList k, v) :: p.1, p.2)
            | '}' :: rest => some ([(String.ofList k, v)], rest)
            | _ => none
        | _ => none
    | _ => none

end

/-- The text as bytes, and back: a document that leaves something over is refused. -/
def toStringPretty (v : Json) : List UInt8 := (String.ofList (print 0 v)).toUTF8.data.toList

def fromStr (bytes : List UInt8) : Option Json :=
  match String.fromUTF8? ⟨bytes.toArray⟩ with
  | none => none
  | some text =>
    match parseValue (text.length + 1) text.toList with
    | some (v, rest) => if skipSpace rest = [] then some v else none
    | none => none

/-! ## White space -/

theorem skipSpace_append {sp s : List Char} (h : ∀ c ∈ sp, isSpace c = true) :
    skipSpace (sp ++ s) = skipSpace s :=
  List.dropWhile_append_of_pos h

theorem skipSpace_cons {c : Char} {s : List Char} (h : isSpace c = false) :
    skipSpace (c :: s) = c :: s := by
  rw [skipSpace, List.dropWhile_cons, h]
  rfl

theorem isSpace_of_mem_newline {level : ℕ} {c : Char} (h : c ∈ newline level) :
    isSpace c = true := by
  rcases List.mem_cons.mp h with rfl | h
  · rfl
  · rw [List.eq_of_mem_replicate h]
    rfl

theorem parseValue_space {fuel : ℕ} {sp s : List Char} (h : ∀ c ∈ sp, isSpace c = true) :
    parseValue fuel (sp ++ s) = parseValue fuel s := by
  cases fuel with
  | zero => rfl
  | succ fuel => rw [parseValue, parseValue, skipSpace_append h]

/-! ## Layouts -/

/-- Where a printer puts blanks: between the tokens of a nesting level, and after a colon. -/
structure Layout where
  separator : ℕ → List Char
  gap : List Char
  isSpace_separator : ∀ level, ∀ c ∈ separator level, isSpace c = true
  isSpace_gap : ∀ c ∈ gap, isSpace c = true

namespace Layout

/-- The layout of `toStringPretty`. -/
def pretty : Layout where
  separator := newline
  gap := [' ']
  isSpace_separator _ _ := isSpace_of_mem_newline
  isSpace_gap c hc := by
    rw [List.mem_singleton.mp hc]
    rfl

/-- No blanks at all. -/
def compact : Layout where
  separator _ := []
  gap := []
  isSpace_separator _ _ hc := nomatch hc
  isSpace_gap _ hc := nomatch hc

mutual

def print (l : Layout) (level : ℕ) : Json → List Char
  | null => ['n', 'u', 'l', 'l']
  | bool true => ['t', 'r', 'u', 'e']
  | bool false => ['f', 'a', 'l', 's', 'e']
  | number n => printNumber n
  | string s => '"' :: printString s
  | array [] => ['[', ']']
  | array (v :: vs) =>
    '[' :: (l.separator (level + 1) ++ (print l (level + 1) v ++
      (printItems l (level + 1) vs ++ (l.separator level ++ [']']))))
  | object [] => ['{', '}']
  | object ((k, v) :: ms) =>
    '{' :: (l.separator (level + 1) ++ ('"' :: (printString k ++ (':' :: (l.gap ++
      (print l (level + 1) v ++
        (printMembers l (level + 1) ms ++ (l.separator level ++ ['}']))))))))

def printItems (l : Layout) (level : ℕ) : List Json → List Char
  | [] => []
  | v :: vs => ',' :: (l.separator level ++ (print l level v ++ printItems l level vs))

def printMembers (l : Layout) (level : ℕ) : List (String × Json) → List Char
  | [] => []
  | (k, v) :: ms =>
    ',' :: (l.separator level ++ ('"' :: (printString k ++ (':' :: (l.gap ++ (print l level v ++
      printMembers l level ms))))))

end

theorem skipSpace_separator (l : Layout) (level : ℕ) (s : List Char) :
    skipSpace (l.separator level ++ s) = skipSpace s :=
  skipSpace_append (l.isSpace_separator level)

end Layout

mutual

/-- The pretty printer follows the pretty layout. -/
theorem print_eq_pretty (v : Json) (level : ℕ) : print level v = Layout.pretty.print level v := by
  match v with
  | null => rfl
  | bool true => rfl
  | bool false => rfl
  | number n => rfl
  | string s => rfl
  | array [] => rfl
  | array (v :: vs) =>
    rw [print, Layout.print, print_eq_pretty v, printItems_eq_pretty vs]
    rfl
  | object [] => rfl
  | object ((k, v) :: ms) =>
    rw [print, Layout.print, print_eq_pretty v, printMembers_eq_pretty ms]
    rfl

theorem printItems_eq_pretty (vs : List Json) (level : ℕ) :
    printItems level vs = Layout.pretty.printItems level vs := by
  match vs with
  | [] => rfl
  | v :: vs =>
    rw [printItems, Layout.printItems, print_eq_pretty v, printItems_eq_pretty vs]
    rfl

theorem printMembers_eq_pretty (ms : List (String × Json)) (level : ℕ) :
    printMembers level ms = Layout.pretty.printMembers level ms := by
  match ms with
  | [] => rfl
  | (k, v) :: ms =>
    rw [printMembers, Layout.printMembers, print_eq_pretty v, printMembers_eq_pretty ms]
    rfl

end

/-- The text without blanks, as bytes. -/
def toStringCompact (v : Json) : List UInt8 :=
  (String.ofList (Layout.compact.print 0 v)).toUTF8.data.toList

/-! ## Numbers -/

/-- The text does not go on with a digit. -/
def NoDigit (s : List Char) : Prop := ∀ c, s.head? = some c → c.isDigit = false

theorem noDigit_cons {c : Char} {s : List Char} (h : c.isDigit = false) : NoDigit (c :: s) := by
  intro d hd
  rw [← Option.some.inj hd, h]

theorem parseDigits_toDigits (n : ℕ) {rest : List Char} (h : NoDigit rest) :
    parseDigits (Nat.toDigits 10 n ++ rest) = some (n, rest) := by
  have hdigits : ∀ c ∈ Nat.toDigits 10 n, c.isDigit = true := fun c hc =>
    Nat.isDigit_of_mem_toDigits (by decide) (by decide) hc
  have htake : rest.takeWhile Char.isDigit = [] := by
    cases rest with
    | nil => rfl
    | cons c rest => rw [List.takeWhile_cons, h c rfl]; rfl
  have hdrop : rest.dropWhile Char.isDigit = rest := by
    cases rest with
    | nil => rfl
    | cons c rest => rw [List.dropWhile_cons, h c rfl]; rfl
  simp only [parseDigits, List.takeWhile_append_of_pos hdigits,
    List.dropWhile_append_of_pos hdigits, htake, hdrop, List.append_nil,
    Nat.ofDigitChars_toDigits (by decide : 1 < 10) (le_refl 10), if_true]

/-- A number starts with a digit or a minus sign. -/
theorem printNumber_eq_cons (n : ℤ) :
    ∃ c cs, printNumber n = c :: cs ∧ (c.isDigit = true ∨ c = '-') := by
  cases n with
  | ofNat n =>
    obtain ⟨c, cs, hcs⟩ := List.exists_cons_of_ne_nil (Nat.toDigits_ne_nil (n := n) (b := 10))
    exact ⟨c, cs, hcs, Or.inl (Nat.isDigit_of_mem_toDigits (by decide) (by decide)
      (hcs ▸ List.mem_cons_self))⟩
  | negSucc n => exact ⟨'-', _, rfl, Or.inr rfl⟩

theorem parseNumber_printNumber (n : ℤ) {rest : List Char} (h : NoDigit rest) :
    parseNumber (printNumber n ++ rest) = some (n, rest) := by
  cases n with
  | ofNat n =>
    have hparse := parseDigits_toDigits n h
    obtain ⟨c, cs, hcs⟩ := List.exists_cons_of_ne_nil (Nat.toDigits_ne_nil (n := n) (b := 10))
    have hc : c.isDigit = true :=
      Nat.isDigit_of_mem_toDigits (by decide) (by decide) (hcs ▸ List.mem_cons_self)
    have hne : c ≠ '-' := by
      rintro rfl
      exact absurd hc (by decide)
    show parseNumber (Nat.toDigits 10 n ++ rest) = _
    rw [hcs, List.cons_append] at hparse ⊢
    unfold parseNumber
    split
    · next heq => exact absurd (List.cons.inj heq).1 hne
    · rw [hparse]
      rfl
  | negSucc n =>
    simp only [printNumber, List.cons_append, parseNumber, parseDigits_toDigits (n + 1) h]

theorem isSpace_of_number {c : Char} (hc : c.isDigit = true ∨ c = '-') : isSpace c = false := by
  rcases hc with hc | rfl
  · by_contra h
    simp only [isSpace, Bool.not_eq_false, Bool.or_eq_true, decide_eq_true_eq] at h
    rcases h with ((rfl | rfl) | rfl) | rfl <;> exact absurd hc (by decide)
  · rfl

/-- A text that starts like a number is parsed as one. -/
theorem parseValue_number {fuel : ℕ} {c : Char} {s : List Char}
    (hc : c.isDigit = true ∨ c = '-') :
    parseValue (fuel + 1) (c :: s) = (parseNumber (c :: s)).map fun p => (number p.1, p.2) := by
  rw [parseValue, skipSpace_cons (isSpace_of_number hc)]
  split <;> simp_all

/-! ## Strings -/

theorem hexValue_hexDigit {n : ℕ} (h : n < 16) : hexValue (hexDigit n) = some n := by
  have hall : ∀ n < 16, hexValue (hexDigit n) = some n := by decide
  exact hall n h

/-- The escape of a character reads as that character. -/
theorem parseString_escapeChar (c : Char) (rest : List Char) :
    parseString (escapeChar c ++ rest) = (parseString rest).map fun p => (c :: p.1, p.2) := by
  have hchar : Char.ofNat c.toNat = c := Char.ofNat_toNat c
  unfold escapeChar
  split_ifs with hquote hslash hn hr ht hb hf hcontrol
  · rw [hquote]; rfl
  · rw [hslash]; rfl
  · rw [hn]; rfl
  · rw [hr]; rfl
  · rw [ht]; rfl
  · rw [← hchar, hb]; rfl
  · rw [← hchar, hf]; rfl
  · have hcode : hexCode '0' '0' (hexDigit (c.toNat / 16)) (hexDigit (c.toNat % 16)) =
        some c.toNat := by
      have hzero : hexValue '0' = some 0 := by decide
      have hsum : ((0 * 16 + 0) * 16 + c.toNat / 16) * 16 + c.toNat % 16 = c.toNat := by omega
      simp only [hexCode, hzero, hexValue_hexDigit (show c.toNat / 16 < 16 by omega),
        hexValue_hexDigit (show c.toNat % 16 < 16 by omega), Option.bind_eq_bind,
        Option.bind_some, hsum]
    have hvalid : (0xD800 ≤ c.toNat && c.toNat ≤ 0xDFFF) = false := by
      simp only [Bool.and_eq_false_iff, decide_eq_false_iff_not]
      omega
    simp only [List.cons_append, List.nil_append, parseString, hcode, hvalid, hchar,
      Bool.false_eq_true, if_false]
  · rw [List.singleton_append, parseString.eq_def]
    split <;> simp_all

theorem parseString_printString (s : String) (rest : List Char) :
    parseString (printString s ++ rest) = some (s.toList, rest) := by
  unfold printString
  induction s.toList with
  | nil => rfl
  | cons c cs ih =>
    rw [List.flatMap_cons, List.append_assoc, List.append_assoc, parseString_escapeChar,
      ← List.append_assoc, ih]
    rfl

/-! ## Documents -/

mutual

/-- The fuel a value takes. -/
def size : Json → ℕ
  | null => 1
  | bool _ => 1
  | number _ => 1
  | string _ => 1
  | array vs => 1 + sizeItems vs
  | object ms => 1 + sizeMembers ms

def sizeItems : List Json → ℕ
  | [] => 0
  | v :: vs => 1 + size v + sizeItems vs

def sizeMembers : List (String × Json) → ℕ
  | [] => 0
  | (_, v) :: ms => 1 + size v + sizeMembers ms

end

variable {l : Layout}

/-- A printed value starts with neither a blank nor a closing bracket. -/
theorem print_eq_cons (level : ℕ) (v : Json) :
    ∃ c cs, l.print level v = c :: cs ∧ isSpace c = false ∧ c ≠ ']' := by
  match v with
  | null => exact ⟨_, _, rfl, rfl, by decide⟩
  | bool true => exact ⟨_, _, rfl, rfl, by decide⟩
  | bool false => exact ⟨_, _, rfl, rfl, by decide⟩
  | number n =>
    obtain ⟨c, cs, hcs, hc⟩ := printNumber_eq_cons n
    refine ⟨c, cs, hcs, isSpace_of_number hc, ?_⟩
    rintro rfl
    exact absurd hc (by decide)
  | string s => exact ⟨_, _, rfl, rfl, by decide⟩
  | array [] => exact ⟨_, _, rfl, rfl, by decide⟩
  | array (v :: vs) => exact ⟨_, _, rfl, rfl, by decide⟩
  | object [] => exact ⟨_, _, rfl, rfl, by decide⟩
  | object ((k, v) :: ms) => exact ⟨_, _, rfl, rfl, by decide⟩

/-- No digit is a blank. -/
theorem noDigit_separator (level : ℕ) {s : List Char} (h : NoDigit s) :
    NoDigit (l.separator level ++ s) := by
  intro c hc
  cases hsep : l.separator level with
  | nil =>
    rw [hsep] at hc
    exact h c hc
  | cons d ds =>
    have hspace := l.isSpace_separator level d (by rw [hsep]; exact List.mem_cons_self)
    rw [hsep] at hc
    obtain rfl : d = c := Option.some.inj hc
    cases hdigit : d.isDigit with
    | false => rfl
    | true => exact absurd (isSpace_of_number (Or.inl hdigit)) (by rw [hspace]; decide)

/-- The rest of a printed array: more elements or the closing bracket. -/
theorem noDigit_printItems (level level' : ℕ) (vs : List Json) (rest : List Char) :
    NoDigit (l.printItems level vs ++ (l.separator level' ++ ']' :: rest)) := by
  cases vs with
  | nil => exact noDigit_separator level' (noDigit_cons (by decide))
  | cons v vs => exact noDigit_cons (by decide)

theorem noDigit_printMembers (level level' : ℕ) (ms : List (String × Json)) (rest : List Char) :
    NoDigit (l.printMembers level ms ++ (l.separator level' ++ '}' :: rest)) := by
  cases ms with
  | nil => exact noDigit_separator level' (noDigit_cons (by decide))
  | cons m ms => exact noDigit_cons (by decide)

/-- With this much fuel, printed values are read back. -/
def ReadsValues (l : Layout) (fuel : ℕ) : Prop :=
  ∀ (v : Json) (level : ℕ) (rest : List Char), size v ≤ fuel → NoDigit rest →
    parseValue fuel (l.print level v ++ rest) = some (v, rest)

/-- With this much fuel, the elements of a printed array are read back. -/
def ReadsItems (l : Layout) (fuel : ℕ) : Prop :=
  ∀ (v : Json) (vs : List Json) (level level' : ℕ) (rest : List Char),
    sizeItems (v :: vs) ≤ fuel →
    parseItems fuel (l.separator level ++ (l.print level v ++
      (l.printItems level vs ++ (l.separator level' ++ ']' :: rest)))) = some (v :: vs, rest)

/-- With this much fuel, the members of a printed object are read back. -/
def ReadsMembers (l : Layout) (fuel : ℕ) : Prop :=
  ∀ (k : String) (v : Json) (ms : List (String × Json)) (level level' : ℕ) (rest : List Char),
    sizeMembers ((k, v) :: ms) ≤ fuel →
    parseMembers fuel (l.separator level ++ ('"' :: (printString k ++ (':' :: (l.gap ++
      (l.print level v ++ (l.printMembers level ms ++ (l.separator level' ++ '}' :: rest)))))))) =
      some ((k, v) :: ms, rest)

theorem readsValues_succ {fuel : ℕ} (hitems : ReadsItems l fuel) (hmembers : ReadsMembers l fuel) :
    ReadsValues l (fuel + 1) := by
  intro v level rest hfuel hrest
  match v with
  | null => rfl
  | bool true => rfl
  | bool false => rfl
  | number n =>
    obtain ⟨c, cs, hcs, hc⟩ := printNumber_eq_cons n
    have hparse := parseNumber_printNumber n hrest
    show parseValue (fuel + 1) (printNumber n ++ rest) = _
    rw [hcs, List.cons_append] at hparse ⊢
    rw [parseValue_number hc, hparse]
    rfl
  | string s =>
    have hparse := parseString_printString s rest
    show parseValue (fuel + 1) ('"' :: printString s ++ rest) = _
    rw [List.cons_append, parseValue, skipSpace_cons (by decide)]
    simp only [hparse, Option.map_some, String.ofList_toList]
  | array [] => rfl
  | array (v :: vs) =>
    have hread := hitems v vs (level + 1) level rest (by simp only [size] at hfuel; omega)
    obtain ⟨c, cs, hcs, hspace, hne⟩ := print_eq_cons (l := l) (level + 1) v
    rw [Layout.print, List.cons_append, parseValue, skipSpace_cons (by decide)]
    simp only [List.append_assoc, List.singleton_append, l.skipSpace_separator]
    rw [hread, hcs, List.cons_append, skipSpace_cons hspace]
    split
    · next heq => exact absurd (List.cons.inj heq).1 hne
    · rfl
  | object [] => rfl
  | object ((k, v) :: ms) =>
    have hread := hmembers k v ms (level + 1) level rest (by simp only [size] at hfuel; omega)
    rw [Layout.print, List.cons_append, parseValue, skipSpace_cons (by decide)]
    simp only [List.append_assoc, List.nil_append, List.cons_append, l.skipSpace_separator,
      skipSpace_cons (show isSpace '"' = false by decide), hread]
    rfl

theorem readsItems_succ {fuel : ℕ} (hvalues : ReadsValues l fuel) (hitems : ReadsItems l fuel) :
    ReadsItems l (fuel + 1) := by
  intro v vs level level' rest hfuel
  simp only [sizeItems] at hfuel
  have hvalue := hvalues v level _ (by omega) (noDigit_printItems (l := l) level level' vs rest)
  rw [parseItems, parseValue_space (l.isSpace_separator level), hvalue]
  cases vs with
  | nil =>
    simp only [Layout.printItems, List.nil_append, l.skipSpace_separator,
      skipSpace_cons (show isSpace ']' = false by decide)]
  | cons w ws =>
    have hread := hitems w ws level level' rest (by simp only [sizeItems] at hfuel ⊢; omega)
    simp only [Layout.printItems, List.cons_append, List.append_assoc,
      skipSpace_cons (show isSpace ',' = false by decide), hread, Option.map_some]

theorem readsMembers_succ {fuel : ℕ} (hvalues : ReadsValues l fuel)
    (hmembers : ReadsMembers l fuel) : ReadsMembers l (fuel + 1) := by
  intro k v ms level level' rest hfuel
  simp only [sizeMembers] at hfuel
  have hvalue := hvalues v level _ (by omega) (noDigit_printMembers (l := l) level level' ms rest)
  rw [parseMembers, l.skipSpace_separator, skipSpace_cons (by decide)]
  simp only [parseString_printString, skipSpace_cons (show isSpace ':' = false by decide),
    parseValue_space l.isSpace_gap, hvalue, String.ofList_toList]
  match ms with
  | [] =>
    simp only [Layout.printMembers, List.nil_append, l.skipSpace_separator,
      skipSpace_cons (show isSpace '}' = false by decide)]
  | (k', w) :: ws =>
    have hread := hmembers k' w ws level level' rest
      (by simp only [sizeMembers] at hfuel ⊢; omega)
    simp only [Layout.printMembers, List.cons_append, List.append_assoc,
      skipSpace_cons (show isSpace ',' = false by decide), hread, Option.map_some]

/-- **The parser reads back what was printed**, given enough fuel. -/
theorem reads_print (l : Layout) (fuel : ℕ) :
    ReadsValues l fuel ∧ ReadsItems l fuel ∧ ReadsMembers l fuel := by
  induction fuel with
  | zero =>
    refine ⟨fun v level rest hfuel => ?_, fun v vs level level' rest hfuel => ?_,
      fun k v ms level level' rest hfuel => ?_⟩
    · cases v <;> simp only [size] at hfuel <;> omega
    · simp only [sizeItems] at hfuel
      omega
    · simp only [sizeMembers] at hfuel
      omega
  | succ fuel ih =>
    obtain ⟨hvalues, hitems, hmembers⟩ := ih
    exact ⟨readsValues_succ hitems hmembers, readsItems_succ hvalues hitems,
      readsMembers_succ hvalues hmembers⟩

/-! ## The length of the text is enough fuel -/

mutual

theorem size_le_length_print (v : Json) (level : ℕ) : size v ≤ (l.print level v).length := by
  match v with
  | null => simp [size, Layout.print]
  | bool true => simp [size, Layout.print]
  | bool false => simp [size, Layout.print]
  | number n =>
    obtain ⟨c, cs, hcs, -⟩ := printNumber_eq_cons n
    rw [size, Layout.print, hcs, List.length_cons]
    omega
  | string s => simp [size, Layout.print]
  | array [] => simp [size, Layout.print, sizeItems]
  | array (v :: vs) =>
    have hv := size_le_length_print v (level + 1)
    have hvs := sizeItems_le_length_printItems vs (level + 1)
    simp only [size, sizeItems, Layout.print, List.length_cons, List.length_append]
    omega
  | object [] => simp [size, Layout.print, sizeMembers]
  | object ((k, v) :: ms) =>
    have hv := size_le_length_print v (level + 1)
    have hms := sizeMembers_le_length_printMembers ms (level + 1)
    simp only [size, sizeMembers, Layout.print, List.length_cons, List.length_append]
    omega

theorem sizeItems_le_length_printItems (vs : List Json) (level : ℕ) :
    sizeItems vs ≤ (l.printItems level vs).length := by
  match vs with
  | [] => simp [sizeItems]
  | v :: vs =>
    have hv := size_le_length_print v level
    have hvs := sizeItems_le_length_printItems vs level
    simp only [sizeItems, Layout.printItems, List.length_cons, List.length_append]
    omega

theorem sizeMembers_le_length_printMembers (ms : List (String × Json)) (level : ℕ) :
    sizeMembers ms ≤ (l.printMembers level ms).length := by
  match ms with
  | [] => simp [sizeMembers]
  | (k, v) :: ms =>
    have hv := size_le_length_print v level
    have hms := sizeMembers_le_length_printMembers ms level
    simp only [sizeMembers, Layout.printMembers, List.length_cons, List.length_append]
    omega

end

theorem fromUTF8_toUTF8 (text : String) :
    String.fromUTF8? ⟨text.toUTF8.data.toList.toArray⟩ = some text := by
  have hbytes : (⟨text.toUTF8.data.toList.toArray⟩ : ByteArray) = text.toByteArray := by
    rw [Array.toArray_toList]
    rfl
  rw [hbytes, String.fromUTF8?, dif_pos text.isValidUTF8]
  rfl

/-- The bytes that are read as a text are those of the text. -/
theorem fromUTF8_eq_some {bytes : ByteArray} {text : String} :
    String.fromUTF8? bytes = some text ↔ bytes = text.toUTF8 := by
  constructor
  · intro h
    rw [String.fromUTF8?] at h
    split at h
    · obtain rfl := Option.some.inj h
      rfl
    · cases h
  · rintro rfl
    exact dif_pos text.isValidUTF8

/-- Parsing undoes printing in any layout. -/
theorem fromStr_print (l : Layout) (v : Json) :
    fromStr (String.ofList (l.print 0 v)).toUTF8.data.toList = some v := by
  have hutf8 := fromUTF8_toUTF8 (String.ofList (l.print 0 v))
  have hread := (reads_print l ((String.ofList (l.print 0 v)).length + 1)).1 v 0 []
    (by
      have hsize := size_le_length_print (l := l) v 0
      rw [String.length_ofList]
      omega)
    (fun c hc => by cases hc)
  rw [List.append_nil] at hread
  simp only [fromStr, hutf8, String.toList_ofList, hread]
  rfl

/-- **Parsing undoes printing.** -/
theorem fromStr_toStringPretty (v : Json) : fromStr (toStringPretty v) = some v := by
  rw [toStringPretty, print_eq_pretty]
  exact fromStr_print Layout.pretty v

theorem fromStr_toStringCompact (v : Json) : fromStr (toStringCompact v) = some v :=
  fromStr_print Layout.compact v

end Json
