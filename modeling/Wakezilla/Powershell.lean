/-
# Commands for PowerShell

On Windows the tray starts PowerShell, elevated if need be, with a command line that calls an
executable (`powershell_invocation` of `src/tray/desktop.rs`): after `& ` the path and the
arguments stand as literals in single quotes.

PowerShell takes five characters for a single quote, and `powershell_quote` doubles only one of
them.  `powershell_literals_iff` says exactly when the literals are the path and the arguments.
The half that fails counts quotes: every literal has two of its own and two for each quote in
its value, so a quote that was not doubled is missing in the sum.
-/
import Wakezilla.Library.Escaping
import Wakezilla.Library.Utf16

namespace Wakezilla

open Escaping

/-! ## The command -/

/-- `powershell_quote`. -/
def powershellQuote (value : String) : String := "'" ++ replaceChar value '\'' "''" ++ "'"

/-- A path on Windows: code units, which need not be valid UTF-16. -/
abbrev OsPath := List UInt16

/-- `Path::to_string_lossy`. -/
def toStringLossy (path : OsPath) : String := String.ofList (Utf16.decodeLossy path)

/-- `powershell_invocation`. -/
def powershellInvocation (exe : OsPath) (args : List String) : String :=
  "& " ++ String.intercalate " " ((toStringLossy exe :: args).map powershellQuote)

/-! ## How PowerShell reads it -/

/-- The typographic quotes: U+2018, U+2019, U+201A and U+201B. -/
def isSmartQuote (c : Char) : Bool := 0x2018 ≤ c.toNat && c.toNat ≤ 0x201B

/-- The characters that open or close a literal. -/
def isSingleQuote (c : Char) : Bool := c = '\'' || isSmartQuote c

def isBlankChar (c : Char) : Bool := c = ' ' || c = '\t'

/-- Where the lexer is: between literals, inside one, or after a quote that ends one unless it
is doubled. -/
inductive LiteralMode
  | between
  | inside (read : List Char)
  | closed (read : List Char) (quote : Char)
  deriving DecidableEq

structure LiteralState where
  words : List (List Char)
  mode : LiteralMode

/-- One character of blank-separated literals.  `pairs` says which two quotes in a row stand
for the second one. -/
def literalStep (pairs : Char → Char → Bool) (st : LiteralState) (c : Char) :
    Option LiteralState :=
  match st.mode with
  | .between =>
    if isSingleQuote c then some ⟨st.words, .inside []⟩
    else if isBlankChar c then some st
    else none
  | .inside read =>
    if isSingleQuote c then some ⟨st.words, .closed read c⟩
    else some ⟨st.words, .inside (read ++ [c])⟩
  | .closed read quote =>
    if isSingleQuote c && pairs quote c then some ⟨st.words, .inside (read ++ [c])⟩
    else if isBlankChar c then some ⟨st.words ++ [read], .between⟩
    else none

/-- The literals at the end of a text, if none is left open. -/
def LiteralState.finish (st : LiteralState) : Option (List (List Char)) :=
  match st.mode with
  | .between => some st.words
  | .inside _ => none
  | .closed read _ => some (st.words ++ [read])

/-- The literals of a text, if it is made of literals and blanks. -/
def literals (pairs : Char → Char → Bool) (text : List Char) : Option (List (List Char)) :=
  (feed (literalStep pairs) ⟨[], .between⟩ text).bind LiteralState.finish

/-- The literals after the call operator. -/
def calledLiterals (pairs : Char → Char → Bool) : List Char → Option (List (List Char))
  | '&' :: ' ' :: rest => literals pairs rest
  | _ => none

/-- The invocation carries the path and the arguments and nothing else. -/
def CarriesExactly (pairs : Char → Char → Bool) (exe : OsPath) (args : List String) : Prop :=
  ∃ path, Utf16.encode path = exe ∧
    calledLiterals pairs (powershellInvocation exe args).toList =
      some (path :: args.map String.toList)

/-- The text has no quote that `powershell_quote` does not double. -/
def WithoutSmartQuotes (text : List Char) : Prop := ∀ c ∈ text, isSmartQuote c = false

instance (text : List Char) : Decidable (WithoutSmartQuotes text) :=
  List.decidableBAll _ text

/-! ## The text -/

/-- The code that `powershell_quote` writes for a character. -/
def powershellCode (c : Char) : List Char := if c = '\'' then "''".toList else [c]

/-- A literal with the value `word`, as `powershell_quote` writes it. -/
def writeLiteral (word : List Char) : List Char :=
  '\'' :: (word.flatMap powershellCode ++ ['\''])

theorem toList_powershellQuote (value : String) :
    (powershellQuote value).toList = writeLiteral value.toList := by
  rw [powershellQuote, String.toList_append, String.toList_append, toList_replaceChar]
  rfl

/-- What stands after the call operator. -/
theorem calledLiterals_invocation (pairs : Char → Char → Bool) (exe : OsPath)
    (args : List String) :
    calledLiterals pairs (powershellInvocation exe args).toList =
      literals pairs ([' '].intercalate
        ((Utf16.decodeLossy exe :: args.map String.toList).map writeLiteral)) := by
  have hparts : ((toStringLossy exe :: args).map powershellQuote).map String.toList =
      (Utf16.decodeLossy exe :: args.map String.toList).map writeLiteral := by
    rw [List.map_cons, List.map_cons, List.map_cons, toList_powershellQuote, toStringLossy,
      String.toList_ofList, List.map_map, List.map_map]
    congr 1
    apply List.map_congr_left
    intro arg _
    exact toList_powershellQuote arg
  rw [powershellInvocation, String.toList_append, String.toList_intercalate, hparts]
  rfl

/-! ## Reading the literals back -/

section Reading

variable {pairs : Char → Char → Bool}

theorem isSingleQuote_apostrophe : isSingleQuote '\'' = true := by decide

/-- Inside a literal a code adds its character, if it is no typographic quote. -/
theorem feed_powershellCode (hpairs : pairs '\'' '\'' = true) (words : List (List Char))
    (read : List Char) {c : Char} (hc : isSmartQuote c = false) :
    feed (literalStep pairs) ⟨words, .inside read⟩ (powershellCode c) =
      some ⟨words, .inside (read ++ [c])⟩ := by
  unfold powershellCode
  by_cases hquote : c = '\''
  · rw [if_pos hquote, hquote]
    simp [literalStep, isSingleQuote_apostrophe, hpairs]
  · rw [if_neg hquote]
    have hsingle : isSingleQuote c = false := by
      rw [isSingleQuote, hc, decide_eq_false hquote]
      rfl
    simp [literalStep, hsingle]

/-- **A value is read back** if it has no typographic quote. -/
theorem feed_writeLiteral (hpairs : pairs '\'' '\'' = true) (words : List (List Char))
    {word : List Char} (hword : WithoutSmartQuotes word) :
    feed (literalStep pairs) ⟨words, .between⟩ (writeLiteral word) =
      some ⟨words, .closed word '\''⟩ := by
  have hvalue : feed (literalStep pairs) ⟨words, .inside []⟩ (word.flatMap powershellCode) =
      some ⟨words, .inside ([] ++ word)⟩ :=
    feed_flatMap (fun read c hc => feed_powershellCode hpairs words read (hword c hc)) []
  rw [writeLiteral, feed_cons]
  show feed (literalStep pairs) ⟨words, .inside []⟩ _ = _
  rw [feed_append_of_eq hvalue]
  rfl

theorem literals_join (hpairs : pairs '\'' '\'' = true) {words : List (List Char)}
    (hne : words ≠ []) (hwords : ∀ word ∈ words, WithoutSmartQuotes word) :
    literals pairs ([' '].intercalate (words.map writeLiteral)) = some words := by
  have hsep : ∀ (read : List (List Char)) (word : List Char),
      feed (literalStep pairs) ⟨read, .closed word '\''⟩ [' '] =
        some ⟨read ++ [word], .between⟩ := by
    intro read word
    rfl
  obtain ⟨read, last, hread, hfeed⟩ := feed_join hne
    (fun read word hword => feed_writeLiteral hpairs read (hwords word hword)) hsep []
  rw [List.nil_append] at hread
  rw [literals, hfeed, ← hread]
  rfl

end Reading

/-! ## Counting the quotes -/

section Counting

variable {pairs : Char → Char → Bool}

/-- The quotes of a literal with the value `word`: two of its own, and two for each in it. -/
def literalQuotes (word : List Char) : ℕ := 2 + 2 * word.countP isSingleQuote

/-- The quotes that have been read. -/
def LiteralState.quotes (st : LiteralState) : ℕ :=
  (st.words.map literalQuotes).sum +
    match st.mode with
    | .between => 0
    | .inside read => 1 + 2 * read.countP isSingleQuote
    | .closed read _ => literalQuotes read

theorem isSingleQuote_of_isBlankChar {c : Char} (h : isBlankChar c = true) :
    isSingleQuote c = false := by
  rw [isBlankChar, Bool.or_eq_true, decide_eq_true_eq, decide_eq_true_eq] at h
  rcases h with rfl | rfl
  · decide
  · decide

/-- **Every step counts its quote.** -/
theorem quotes_literalStep (st : LiteralState) (c : Char) (st' : LiteralState)
    (h : literalStep pairs st c = some st') :
    st'.quotes = st.quotes + if isSingleQuote c then 1 else 0 := by
  obtain ⟨words, mode⟩ := st
  unfold literalStep at h
  cases mode with
  | between =>
    dsimp only at h
    split at h
    · rename_i hquote
      obtain rfl := Option.some.inj h
      simp [LiteralState.quotes, hquote]
    · rename_i hquote
      split at h
      · obtain rfl := Option.some.inj h
        simp [hquote]
      · cases h
  | inside read =>
    dsimp only at h
    split at h
    · rename_i hquote
      obtain rfl := Option.some.inj h
      simp [LiteralState.quotes, literalQuotes, hquote]
      omega
    · rename_i hquote
      obtain rfl := Option.some.inj h
      simp [LiteralState.quotes, hquote]
  | closed read quote =>
    dsimp only at h
    split at h
    · rename_i hdoubled
      obtain rfl := Option.some.inj h
      have hquote : isSingleQuote c = true := (Bool.and_eq_true_iff.mp hdoubled).1
      simp [LiteralState.quotes, literalQuotes, hquote]
      omega
    · split at h
      · rename_i hblank
        obtain rfl := Option.some.inj h
        simp [LiteralState.quotes, isSingleQuote_of_isBlankChar hblank]
      · cases h

/-- **The quotes of a text** are those of its literals. -/
theorem countP_of_literals {text : List Char} {words : List (List Char)}
    (h : literals pairs text = some words) :
    text.countP isSingleQuote = (words.map literalQuotes).sum := by
  obtain ⟨st, hfeed, hfinish⟩ := Option.bind_eq_some_iff.mp h
  have hcount := feed_countP quotes_literalStep hfeed
  have hstart : LiteralState.quotes ⟨[], .between⟩ = 0 := rfl
  obtain ⟨read, mode⟩ := st
  cases mode with
  | between =>
    obtain rfl := Option.some.inj hfinish
    rw [hstart] at hcount
    simpa [LiteralState.quotes] using hcount.symm
  | inside current => cases hfinish
  | closed current quote =>
    obtain rfl := Option.some.inj hfinish
    rw [hstart] at hcount
    simpa [LiteralState.quotes] using hcount.symm

/-- A quote is an apostrophe or typographic. -/
theorem countP_isSingleQuote (word : List Char) :
    word.countP isSingleQuote = word.count '\'' + word.countP isSmartQuote := by
  induction word with
  | nil => rfl
  | cons c word ih =>
    rw [List.countP_cons, List.count_cons, List.countP_cons, ih]
    by_cases hc : c = '\''
    · have hsmart : isSmartQuote '\'' = false := by decide
      simp [hc, isSingleQuote_apostrophe, hsmart]
      omega
    · simp [isSingleQuote, hc]
      omega

/-- The quotes that stand in a literal as it is written. -/
theorem countP_writeLiteral (word : List Char) :
    (writeLiteral word).countP isSingleQuote + word.countP isSmartQuote = literalQuotes word := by
  have hcode : (word.flatMap powershellCode).countP isSingleQuote =
      2 * word.count '\'' + word.countP isSmartQuote := by
    induction word with
    | nil => rfl
    | cons c word ih =>
      rw [List.flatMap_cons, List.countP_append, ih, List.count_cons, List.countP_cons]
      unfold powershellCode
      by_cases hc : c = '\''
      · have hsmart : isSmartQuote '\'' = false := by decide
        simp [hc, isSingleQuote_apostrophe, hsmart]
        omega
      · simp [isSingleQuote, hc]
        omega
  have hall := countP_isSingleQuote word
  rw [writeLiteral, List.countP_cons, List.countP_append, hcode, literalQuotes,
    List.countP_singleton, isSingleQuote_apostrophe, if_pos rfl]
  omega

/-- The quotes of a text that was written for the words. -/
theorem countP_join (words : List (List Char)) :
    ([' '].intercalate (words.map writeLiteral)).countP isSingleQuote +
      (words.map (List.countP isSmartQuote)).sum = (words.map literalQuotes).sum := by
  induction words with
  | nil => rfl
  | cons word rest ih =>
    have hword := countP_writeLiteral word
    cases rest with
    | nil => simpa using hword
    | cons next rest =>
      have hblank : [' '].countP isSingleQuote = 0 := by decide
      simp only [List.map_cons, List.sum_cons, List.intercalate_cons_cons,
        List.countP_append] at ih ⊢
      omega

/-- **What is read back as it was written** has no typographic quote. -/
theorem withoutSmartQuotes_of_literals {words : List (List Char)}
    (h : literals pairs ([' '].intercalate (words.map writeLiteral)) = some words) :
    ∀ word ∈ words, WithoutSmartQuotes word := by
  have hread := countP_of_literals h
  have hwritten := countP_join words
  have hnone : (words.map (List.countP isSmartQuote)).sum = 0 := by omega
  intro word hword c hc
  have hzero := List.sum_eq_zero_iff.mp hnone _ (List.mem_map_of_mem hword)
  exact Bool.eq_false_iff.mpr (List.countP_eq_zero.mp hzero c hc)

end Counting

/-- **The exact condition.**  PowerShell reads the path and the arguments, and nothing else, if
and only if the path is valid UTF-16 and there is no typographic quote in any of them. -/
theorem powershell_literals_iff (pairs : Char → Char → Bool)
    (hpairs : ∀ quote, isSingleQuote quote = true → pairs quote quote = true) (exe : OsPath)
    (args : List String) :
    CarriesExactly pairs exe args ↔
      (∃ path, Utf16.encode path = exe ∧ WithoutSmartQuotes path) ∧
        ∀ arg ∈ args, WithoutSmartQuotes arg.toList := by
  have hdouble := hpairs '\'' isSingleQuote_apostrophe
  unfold CarriesExactly
  rw [calledLiterals_invocation]
  constructor
  · rintro ⟨path, rfl, hread⟩
    rw [Utf16.decodeLossy_encode] at hread
    have hwithout := withoutSmartQuotes_of_literals hread
    exact ⟨⟨path, rfl, hwithout path List.mem_cons_self⟩, fun arg harg =>
      hwithout _ (List.mem_cons_of_mem path (List.mem_map_of_mem harg))⟩
  · rintro ⟨⟨path, rfl, hpath⟩, hargs⟩
    refine ⟨path, rfl, ?_⟩
    rw [Utf16.decodeLossy_encode]
    apply literals_join hdouble (List.cons_ne_nil _ _)
    intro word hword
    rcases List.mem_cons.mp hword with rfl | hword
    · exact hpath
    · obtain ⟨arg, harg, rfl⟩ := List.mem_map.mp hword
      exact hargs arg harg

/-- An apostrophe and blanks are carried. -/
theorem apostrophe_carried :
    CarriesExactly (fun _ _ => true) (Utf16.encode "C:\\Program Files\\wakezilla.exe".toList)
      ["setup", "it's", ""] :=
  (powershell_literals_iff _ (fun _ _ => rfl) _ _).mpr
    ⟨⟨"C:\\Program Files\\wakezilla.exe".toList, rfl, by decide⟩, by decide⟩

/-- A home directory that is written with a typographic apostrophe ends the literal. -/
theorem typographic_quote_not_carried :
    ¬ CarriesExactly (fun _ _ => true)
      (Utf16.encode "C:\\Users\\O\u2019Brien\\wakezilla.exe".toList) ["setup"] := by
  rintro ⟨path, -, hread⟩
  have hnone : calledLiterals (fun _ _ => true) (powershellInvocation
      (Utf16.encode "C:\\Users\\O\u2019Brien\\wakezilla.exe".toList) ["setup"]).toList =
        none := by decide
  rw [hnone] at hread
  cases hread

end Wakezilla
