/-
# Commands in a terminal

The tray opens a terminal for an elevated command and has a shell run it there, through
`sudo`.  The command is one text (`shell_script` of `src/tray/desktop.rs`), so that the shell
splits it into words again.

`shellWords` is that splitting, by the quoting rules of a POSIX shell; every character of a
word remembers whether it was quoted.  `shell_script_words` says that the words are the
arguments that were given, whatever characters they have.
-/
import Wakezilla.Library.Escaping

namespace Wakezilla

open Escaping

/-! ## The script -/

/-- `shell_quote`. -/
def shellQuote (value : String) : String := "'" ++ replaceChar value '\'' "'\\''" ++ "'"

/-- What `shell_script` appends to keep the terminal open. -/
def keepOpenSuffix : String := "; echo; printf 'Press Enter to close...'; read _"

/-- `shell_script`. -/
def shellScript (parts : List String) (keepOpen : Bool) : String :=
  let command := String.intercalate " " (parts.map shellQuote)
  if keepOpen then command ++ keepOpenSuffix else command

/-- The parts that `open_command` puts together. -/
def openCommandParts (elevated : Bool) (exe : String) (args : List String) : List String :=
  (if elevated then ["sudo"] else []) ++ exe :: args

/-! ## How a shell splits it -/

/-- How the next character is quoted. -/
inductive Quoting
  | bare
  | single
  | escaped
  deriving DecidableEq

/-- Single quotes hold everything up to the next one; a backslash outside of them escapes one
character. -/
def Quoting.next : Quoting → Char → Quoting
  | .bare, c => if c = '\'' then .single else if c = '\\' then .escaped else .bare
  | .single, c => if c = '\'' then .bare else .single
  | .escaped, _ => .bare

/-- A character of a word. -/
structure WordChar where
  char : Char
  quoted : Bool
  deriving DecidableEq

/-- The words so far, the one that is being read, and how the next character is quoted. -/
structure ShellState where
  words : List (List WordChar)
  current : Option (List WordChar)
  quoting : Quoting

/-- The next character belongs to the word. -/
def ShellState.push (st : ShellState) (c : WordChar) (quoting : Quoting) : ShellState :=
  ⟨st.words, some (st.current.getD [] ++ [c]), quoting⟩

def shellStep (st : ShellState) (c : Char) : Option ShellState :=
  let quoting := st.quoting.next c
  match st.quoting with
  | .bare =>
    if c = ' ' ∨ c = '\t' then some ⟨st.words ++ st.current.toList, none, .bare⟩
    else if quoting = .bare then some (st.push ⟨c, false⟩ .bare)
    else some ⟨st.words, some (st.current.getD []), quoting⟩
  | .single =>
    if quoting = .bare then some ⟨st.words, some (st.current.getD []), .bare⟩
    else some (st.push ⟨c, true⟩ .single)
  | .escaped => some (st.push ⟨c, true⟩ .bare)

/-- The words of a text, unless a quotation is left open. -/
def shellWords (text : List Char) : Option (List (List WordChar)) :=
  (feed shellStep ⟨[], none, .bare⟩ text).bind fun st =>
    if st.quoting = .bare then some (st.words ++ st.current.toList) else none

/-- The characters that mean something to a shell unless they are quoted. -/
def shellMetacharacters : List Char := "|&;<>()$`\\\"' \t\n*?[#~=%".toList

/-- A semicolon that is not quoted ends the command. -/
def endsCommand (quoting : Quoting) (c : Char) : Bool := quoting = .bare ∧ c = ';'

/-- The text up to the first semicolon that is not quoted. -/
def beforeSemicolon (text : List Char) : List Char := upTo Quoting.next endsCommand .bare text

/-- The text splits into the words, and nothing in them is left for the shell to interpret. -/
def SplitsInto (text : List Char) (words : List String) : Prop :=
  ∃ read, shellWords text = some read ∧
    read.map (fun word => word.map WordChar.char) = words.map String.toList ∧
    ∀ word ∈ read, ∀ c ∈ word, c.char ∈ shellMetacharacters → c.quoted = true

/-! ## Reading a quoted word -/

/-- A word all of whose characters are quoted. -/
def quotedWord (word : String) : List WordChar := word.toList.map fun c => ⟨c, true⟩

/-- The code that `shell_quote` writes for a character. -/
def shellCode (c : Char) : List Char := if c = '\'' then "'\\''".toList else [c]

theorem toList_shellQuote (value : String) :
    (shellQuote value).toList = '\'' :: (value.toList.flatMap shellCode ++ ['\'']) := by
  rw [shellQuote, String.toList_append, String.toList_append, toList_replaceChar]
  rfl

theorem toList_shellScript (parts : List String) :
    (shellScript parts false).toList =
      [' '].intercalate (parts.map fun part => (shellQuote part).toList) := by
  show (String.intercalate " " (parts.map shellQuote)).toList = _
  rw [String.toList_intercalate, List.map_map]
  rfl

/-- Inside the quotes of a word, when the characters `read` have been read. -/
def insideQuotes (words : List (List WordChar)) (read : List Char) : ShellState :=
  ⟨words, some (read.map fun c => ⟨c, true⟩), .single⟩

/-- Inside the quotes, a code adds its character to the word. -/
theorem feed_shellCode (words : List (List WordChar)) (read : List Char) (c : Char) :
    feed shellStep (insideQuotes words read) (shellCode c) =
      some (insideQuotes words (read ++ [c])) := by
  unfold shellCode insideQuotes
  rw [List.map_append]
  by_cases hc : c = '\''
  · rw [if_pos hc, hc]
    rfl
  · rw [if_neg hc]
    have hnext : Quoting.single.next c = .single := if_neg hc
    simp [shellStep, hnext, ShellState.push]

/-- **A quoted value is one word**, quoted as a whole. -/
theorem feed_shellQuote (words : List (List WordChar)) (value : String) :
    feed shellStep ⟨words, none, .bare⟩ (shellQuote value).toList =
      some ⟨words, some (quotedWord value), .bare⟩ := by
  rw [toList_shellQuote, feed_cons]
  show feed shellStep (insideQuotes words []) _ = _
  have hvalue : feed shellStep (insideQuotes words []) (value.toList.flatMap shellCode) =
      some (insideQuotes words ([] ++ value.toList)) :=
    feed_flatMap (fun read c _ => feed_shellCode words read c) []
  rw [feed_append_of_eq hvalue]
  rfl

/-- **The words of a command** are its parts. -/
theorem shellWords_shellScript (parts : List String) :
    shellWords (shellScript parts false).toList = some (parts.map quotedWord) := by
  rw [toList_shellScript, shellWords]
  by_cases hne : parts = []
  · rw [hne]
    rfl
  · have hword : ∀ (read : List String), ∀ value ∈ parts,
        feed shellStep ⟨read.map quotedWord, none, .bare⟩ (shellQuote value).toList =
          some ⟨read.map quotedWord, some (quotedWord value), .bare⟩ :=
      fun read value _ => feed_shellQuote _ value
    have hsep : ∀ (read : List String) (value : String),
        feed shellStep ⟨read.map quotedWord, some (quotedWord value), .bare⟩ [' '] =
          some ⟨(read ++ [value]).map quotedWord, none, .bare⟩ := by
      intro read value
      rw [List.map_append]
      rfl
    obtain ⟨read, last, hread, hfeed⟩ := feed_join hne hword hsep []
    rw [List.map_nil] at hfeed
    rw [hfeed, ← List.nil_append parts, ← hread, List.map_append]
    rfl

theorem splitsInto_of_shellWords {text : List Char} {parts : List String}
    (h : shellWords text = some (parts.map quotedWord)) : SplitsInto text parts := by
  refine ⟨parts.map quotedWord, h, ?_, ?_⟩
  · rw [List.map_map]
    apply List.map_congr_left
    intro part _
    show (part.toList.map fun c => (⟨c, true⟩ : WordChar)).map WordChar.char = part.toList
    rw [List.map_map]
    exact List.map_id _
  · intro word hword c hc _
    obtain ⟨part, -, rfl⟩ := List.mem_map.mp hword
    obtain ⟨d, -, rfl⟩ := List.mem_map.mp hc
    rfl

/-! ## The text before a semicolon -/

theorem passes_shellCode (c : Char) :
    Passes Quoting.next endsCommand .single (shellCode c) .single := by
  unfold shellCode
  by_cases hc : c = '\''
  · rw [if_pos hc]
    intro t
    rfl
  · rw [if_neg hc]
    apply Passes.cons rfl
    rw [Quoting.next, if_neg hc]
    exact Passes.nil _

/-- No semicolon of a quoted value ends the command. -/
theorem passes_shellQuote (value : String) :
    Passes Quoting.next endsCommand .bare (shellQuote value).toList .bare := by
  rw [toList_shellQuote]
  apply Passes.cons rfl
  have hvalue : Passes Quoting.next endsCommand .single (value.toList.flatMap shellCode)
      .single := Passes.flatMap passes_shellCode value.toList
  have hclose : Passes Quoting.next endsCommand .single ['\''] .bare :=
    Passes.cons rfl (Passes.nil _)
  exact hvalue.append hclose

/-- **The first command of the script** is the command without what keeps the terminal open. -/
theorem beforeSemicolon_shellScript (parts : List String) :
    beforeSemicolon (shellScript parts true).toList = (shellScript parts false).toList := by
  have hcommand : Passes Quoting.next endsCommand .bare (shellScript parts false).toList
      .bare := by
    rw [toList_shellScript]
    exact Passes.join passes_shellQuote (Passes.cons rfl (Passes.nil _)) parts
  show upTo Quoting.next endsCommand .bare (shellScript parts false ++ keepOpenSuffix).toList = _
  rw [String.toList_append]
  exact hcommand.upTo_eq rfl _

/-- **The shell runs exactly what it was given**: the script splits into the parts, with nothing
left to interpret, and so does, where the terminal is kept open, the text before the first
semicolon that is not quoted. -/
theorem shell_script_words (parts : List String) :
    SplitsInto (shellScript parts false).toList parts ∧
      SplitsInto (beforeSemicolon (shellScript parts true).toList) parts ∧
      ∃ rest, (shellScript parts true).toList =
        beforeSemicolon (shellScript parts true).toList ++ ';' :: rest := by
  have hsplits := splitsInto_of_shellWords (shellWords_shellScript parts)
  rw [beforeSemicolon_shellScript]
  refine ⟨hsplits, hsplits, ?_⟩
  show ∃ rest, (shellScript parts false ++ keepOpenSuffix).toList = _
  rw [String.toList_append]
  exact ⟨_, rfl⟩

example : shellScript ["sudo", "a'b", ""] false = "'sudo' 'a'\\''b' ''" := by decide

/-- An elevated command is run by `sudo`, with the executable and its arguments. -/
theorem openCommand_words (exe : String) (args : List String) :
    SplitsInto (shellScript (openCommandParts true exe args) false).toList
      ("sudo" :: exe :: args) :=
  splitsInto_of_shellWords (shellWords_shellScript _)

end Wakezilla
