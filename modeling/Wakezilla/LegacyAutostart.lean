/-
# Legacy autostart entries

Earlier versions wrote their autostart entry under another name.  The installation removes that
file if it is one of theirs, and its name proves nothing: `linux_legacy_autostart_is_owned` of
`src/tray/desktop.rs` looks at the content, in one pass with four flags.

`OwnedEntry` is what the pass is to find: one group `[Desktop Entry]` whose keys, each by its
last value, are those of the tray.  `legacy_autostart_owned_iff` says that the pass finds it,
whatever the content is, so that the keys of different groups are never put together.
-/
import Wakezilla.Library.Json
import Wakezilla.Library.Sections
import Wakezilla.Library.TextLines
import Wakezilla.Validate

namespace Wakezilla

open Sections TextLines

/-! ## Texts -/

/-- `str::trim`. -/
def trim (s : List Char) : List Char := (s.dropWhile isWhitespace).rdropWhile isWhitespace

/-- `str::split_once`. -/
def splitOnce (c : Char) (s : List Char) : Option (List Char × List Char) :=
  match s.dropWhile (· ≠ c) with
  | [] => none
  | _ :: after => some (s.takeWhile (· ≠ c), after)

/-- `char::is_ascii_whitespace`. -/
def isAsciiWhitespace (c : Char) : Bool :=
  c = ' ' || c = '\t' || c = '\n' || c.toNat = 0x0C || c = '\r'

/-- `Path::file_name`. -/
def fileName (path : List Char) : Option (List Char) :=
  match ((fields (· = '/') path).filter (· ≠ ".".toList)).getLast? with
  | none => none
  | some name => if name = "..".toList then none else some name

/-! ## The tokens of a command -/

/-- The inner loop of `linux_desktop_exec_tokens`: the token, whether it was terminated, and the
characters that are left. -/
def readToken (quoted : Bool) : List Char → List Char → Option (List Char × Bool × List Char)
  | token, [] => some (token, !quoted, [])
  | token, character :: characters =>
    if quoted && character = '"' then some (token, true, characters)
    else if !quoted && isAsciiWhitespace character then some (token, !quoted, characters)
    else if character = '\\' then
      match characters with
      | [] => none
      | escaped :: characters => readToken quoted (token ++ [escaped]) characters
    else readToken quoted (token ++ [character]) characters

/-- The outer loop, with the number of tokens that may still come.  A malformed token ends it
without a result. -/
def execTokens : ℕ → List Char → Option (List (List Char))
  | 0, _ => some []
  | limit + 1, value =>
    match value.dropWhile isAsciiWhitespace with
    | [] => some []
    | character :: characters =>
      let quoted : Bool := character = '"'
      match readToken quoted [] (if quoted then characters else character :: characters) with
      | none => none
      | some (token, terminated, characters) =>
        if !terminated || token.isEmpty then none
        else (execTokens limit characters).map (token :: ·)

/-- `linux_desktop_exec_tokens`. -/
def linuxDesktopExecTokens (value : List Char) (limit : ℕ) : List (List Char) :=
  (execTokens limit value).getD []

/-- `linux_legacy_exec_is_owned`. -/
def linuxLegacyExecIsOwned (value : List Char) : Bool :=
  let tokens := linuxDesktopExecTokens value 2
  match tokens.head? with
  | none => false
  | some executable =>
    match fileName executable with
    | none => false
    | some basename =>
      basename = "wakezilla-tray".toList ||
        (basename = "wakezilla".toList && tokens[1]? = some "tray".toList)

/-! ## The pass over the lines -/

/-- The flags of `linux_legacy_autostart_is_owned`. -/
structure LegacyFlags where
  inDesktopEntry : Bool
  entryType : Bool
  name : Bool
  exec : Bool

/-- A line in brackets. -/
def isHeader (line : List Char) : Bool := line.head? = some '[' && line.getLast? = some ']'

/-- The flags after a header. -/
def LegacyFlags.afterHeader (line : List Char) : LegacyFlags where
  inDesktopEntry := line = "[Desktop Entry]".toList
  entryType := false
  name := false
  exec := false

/-- The flags after another line. -/
def LegacyFlags.afterLine (flags : LegacyFlags) (line : List Char) : LegacyFlags :=
  if !flags.inDesktopEntry then flags
  else
    match splitOnce '=' line with
    | none => flags
    | some (key, value) =>
      let value := trim value
      if trim key = "Type".toList then
        { flags with entryType := value = "Application".toList }
      else if trim key = "Name".toList then
        { flags with name := value = "Wakezilla".toList || value = "Wakezilla Tray".toList }
      else if trim key = "Exec".toList then { flags with exec := linuxLegacyExecIsOwned value }
      else flags

/-- The loop of `linux_legacy_autostart_is_owned`, with the test after it. -/
def ownedLoop : LegacyFlags → List (List Char) → Bool
  | flags, [] => flags.entryType && flags.name && flags.exec
  | flags, rawLine :: rawLines =>
    let line := trim rawLine
    if isHeader line then
      if flags.inDesktopEntry && flags.entryType && flags.name && flags.exec then true
      else ownedLoop (LegacyFlags.afterHeader line) rawLines
    else ownedLoop (flags.afterLine line) rawLines

/-- `linux_legacy_autostart_is_owned`. -/
def linuxLegacyAutostartIsOwned (content : String) : Bool :=
  ownedLoop ⟨false, false, false, false⟩ (lines content.toList)

/-- Whether the installation removes what is at the legacy path: `isFile` is what the metadata
say, if there are any, and `legacyContent` what can be read. -/
def removesLegacyAutostart (isFile : Option Bool) (legacyContent : Option ByteArray) : Bool :=
  isFile.any fun file =>
    file && legacyContent.any fun bytes =>
      (String.fromUTF8? bytes).any linuxLegacyAutostartIsOwned

/-! ## What it is to find -/

/-- Where a token ends: at the quote that closes it or, without quotes, at a white space. -/
def stops (quoted : Bool) (c : Char) : Bool :=
  if quoted then c = '"' else isAsciiWhitespace c

/-- The source stands for the token, each character for itself or after a backslash.  Nothing
in it ends the token. -/
inductive Spells (quoted : Bool) : List Char → List Char → Prop
  | nil : Spells quoted [] []
  | plain {c : Char} {source token : List Char} (hstop : stops quoted c = false) (hc : c ≠ '\\')
      (h : Spells quoted source token) : Spells quoted (c :: source) (c :: token)
  | escaped {c : Char} {source token : List Char}
      (h : Spells quoted source token) : Spells quoted ('\\' :: c :: source) (c :: token)

/-- The text starts with the token, and the rest comes after it. -/
inductive FirstToken : List Char → List Char → List Char → Prop
  | quoted {source token rest : List Char} (h : Spells true source token) (hne : token ≠ []) :
      FirstToken ('"' :: (source ++ '"' :: rest)) token rest
  | bare {source token rest : List Char} {c : Char} (h : Spells false source token)
      (hne : token ≠ []) (hquote : source.head? ≠ some '"') (hc : isAsciiWhitespace c = true) :
      FirstToken (source ++ c :: rest) token rest
  | last {source token : List Char} (h : Spells false source token) (hne : token ≠ [])
      (hquote : source.head? ≠ some '"') : FirstToken source token []

/-- The tokens of a value, up to a number of them.  A value has tokens only if each of them is
well formed. -/
inductive Tokens : ℕ → List Char → List (List Char) → Prop
  | limit {value : List Char} : Tokens 0 value []
  | blank {n : ℕ} {value : List Char} (h : ∀ c ∈ value, isAsciiWhitespace c = true) :
      Tokens (n + 1) value []
  | cons {n : ℕ} {space value token rest : List Char} {tokens : List (List Char)}
      (hspace : ∀ c ∈ space, isAsciiWhitespace c = true) (hfirst : FirstToken value token rest)
      (h : Tokens n rest tokens) : Tokens (n + 1) (space ++ value) (token :: tokens)

/-- The command starts the tray: its file name is that of the tray, or that of the program with
`tray` as the second token. -/
def OwnedExec (value : List Char) : Prop :=
  ∃ executable arguments basename, Tokens 2 value (executable :: arguments) ∧
    fileName executable = some basename ∧
    (basename = "wakezilla-tray".toList ∨
      (basename = "wakezilla".toList ∧ arguments.head? = some "tray".toList))

/-- The key and the value of a line. -/
def keyValue (line : List Char) : Option (List Char × List Char) :=
  (splitOnce '=' line).map fun (key, value) => (trim key, trim value)

/-- The last values of the three keys in a group are those of the tray. -/
structure OwnedGroup (body : List (List Char)) : Prop where
  entryType : LastValue keyValue "Type".toList body "Application".toList
  name : LastValue keyValue "Name".toList body "Wakezilla".toList ∨
    LastValue keyValue "Name".toList body "Wakezilla Tray".toList
  exec : ∃ value, LastValue keyValue "Exec".toList body value ∧ OwnedExec value

/-- One group `[Desktop Entry]` of the content is that of the tray. -/
def OwnedEntry (content : String) : Prop :=
  ∃ body, SectionAt isHeader ((lines content.toList).map trim) "[Desktop Entry]".toList body ∧
    OwnedGroup body

/-! ## The tokens -/

theorem stops_eq (quoted : Bool) (c : Char) :
    stops quoted c = ((quoted && decide (c = '"')) || (!quoted && isAsciiWhitespace c)) := by
  cases quoted <;> simp [stops]

/-- What the loop makes of the end of a token. -/
inductive Ends (quoted : Bool) : List Char → List Char → Bool → Prop
  | stop {c : Char} {rest : List Char} (h : stops quoted c = true) :
      Ends quoted (c :: rest) rest true
  | finished : Ends quoted [] [] (!quoted)

section ReadToken

variable {quoted terminated : Bool} {token token' source spelled after rest : List Char}

theorem readToken_of_stops {c : Char} (h : stops quoted c = true) (s : List Char) :
    readToken quoted token (c :: s) = some (token, true, s) := by
  rw [readToken.eq_def]
  cases quoted with
  | true =>
    have hc : c = '"' := of_decide_eq_true h
    simp [hc]
  | false =>
    have hc : isAsciiWhitespace c = true := h
    simp [hc]

theorem readToken_of_not_stops {c : Char} (h : stops quoted c = false) (s : List Char) :
    readToken quoted token (c :: s) =
      if c = '\\' then
        match s with
        | [] => none
        | escaped :: s => readToken quoted (token ++ [escaped]) s
      else readToken quoted (token ++ [c]) s := by
  rw [stops_eq, Bool.or_eq_false_iff] at h
  rw [readToken.eq_def]
  simp only [h.1, h.2, Bool.false_eq_true, if_false]

theorem not_stops_backslash (quoted : Bool) : stops quoted '\\' = false := by
  cases quoted <;> decide

/-- **The loop reads what is spelled.**  The induction is on the spelling. -/
theorem readToken_complete (hspells : Spells quoted source spelled)
    (hends : Ends quoted after rest terminated) (token : List Char) :
    readToken quoted token (source ++ after) = some (token ++ spelled, terminated, rest) := by
  induction hspells generalizing token with
  | nil =>
    rw [List.append_nil, List.nil_append]
    cases hends with
    | stop h => exact readToken_of_stops h rest
    | finished => rfl
  | plain hstop hc _ ih =>
    rw [List.cons_append, readToken_of_not_stops hstop, if_neg hc, ih, List.append_assoc]
    rfl
  | escaped _ ih =>
    rw [List.cons_append, List.cons_append, readToken_of_not_stops (not_stops_backslash quoted),
      if_pos rfl]
    show readToken quoted _ _ = _
    rw [ih, List.append_assoc]
    rfl

theorem read_inj {terminated' : Bool} {rest' : List Char}
    (h : some (token, terminated, rest) = some (token', terminated', rest')) :
    token' = token ∧ terminated' = terminated ∧ rest' = rest := by
  simp only [Option.some.injEq, Prod.mk.injEq] at h
  exact ⟨h.1.symm, h.2.1.symm, h.2.2.symm⟩

theorem readToken_stopped {c : Char} {s : List Char} (hc : stops quoted c = true)
    (h : readToken quoted token (c :: s) = some (token', terminated, rest)) :
    ∃ source spelled after, c :: s = source ++ after ∧ token' = token ++ spelled ∧
      Spells quoted source spelled ∧ Ends quoted after rest terminated := by
  rw [readToken_of_stops hc] at h
  obtain ⟨rfl, rfl, rfl⟩ := read_inj h
  exact ⟨[], [], c :: rest, rfl, (List.append_nil _).symm, .nil, .stop hc⟩

/-- **What the loop reads is spelled.**  The induction is on the loop. -/
theorem readToken_sound {s : List Char}
    (h : readToken quoted token s = some (token', terminated, rest)) :
    ∃ source spelled after, s = source ++ after ∧ token' = token ++ spelled ∧
      Spells quoted source spelled ∧ Ends quoted after rest terminated := by
  induction token, s using readToken.induct quoted with
  | case1 token =>
    obtain ⟨rfl, rfl, rfl⟩ := read_inj h
    exact ⟨[], [], [], rfl, (List.append_nil _).symm, .nil, .finished⟩
  | case2 token c s hquote =>
    apply readToken_stopped _ h
    rw [stops_eq, hquote, Bool.true_or]
  | case3 token c s _ hspace =>
    apply readToken_stopped _ h
    rw [stops_eq, hspace, Bool.or_true]
  | case4 token =>
    -- nothing comes after the backslash
    rw [readToken_of_not_stops (not_stops_backslash quoted), if_pos rfl] at h
    cases h
  | case5 token c s _ _ ih =>
    rw [readToken_of_not_stops (not_stops_backslash quoted), if_pos rfl] at h
    obtain ⟨source, spelled, after, rfl, rfl, hspells, hends⟩ := ih h
    refine ⟨'\\' :: c :: source, c :: spelled, after, rfl, ?_, .escaped hspells, hends⟩
    rw [List.append_assoc, List.singleton_append]
  | case6 token c s hquote hspace hc ih =>
    have hstop : stops quoted c = false := by
      rw [stops_eq, Bool.eq_false_of_not_eq_true hquote, Bool.eq_false_of_not_eq_true hspace,
        Bool.false_or]
    rw [readToken_of_not_stops hstop, if_neg hc] at h
    obtain ⟨source, spelled, after, rfl, rfl, hspells, hends⟩ := ih h
    refine ⟨c :: source, c :: spelled, after, rfl, ?_, .plain hstop hc hspells, hends⟩
    rw [List.append_assoc, List.singleton_append]

end ReadToken

section FirstToken

variable {c : Char} {s value token rest : List Char}

/-- A token without quotes starts with a character that is no white space. -/
theorem Spells.head (h : Spells false value token) (hne : token ≠ []) :
    ∃ c s, value = c :: s ∧ isAsciiWhitespace c = false := by
  cases h with
  | nil => exact absurd rfl hne
  | plain hstop hc h => exact ⟨_, _, rfl, hstop⟩
  | escaped h => exact ⟨_, _, rfl, not_stops_backslash false⟩

theorem FirstToken.head (h : FirstToken value token rest) :
    ∃ c s, value = c :: s ∧ isAsciiWhitespace c = false := by
  cases h with
  | quoted h hne => exact ⟨_, _, rfl, by decide⟩
  | bare h hne hquote hc =>
    obtain ⟨c, s, rfl, hspace⟩ := h.head hne
    exact ⟨c, _, rfl, hspace⟩
  | last h hne hquote => exact h.head hne

/-- **One turn of the outer loop** reads the token that the text starts with. -/
theorem firstToken_iff :
    FirstToken (c :: s) token rest ↔
      readToken (c = '"') [] (if c = '"' then s else c :: s) = some (token, true, rest) ∧
        token ≠ [] := by
  by_cases hc : c = '"'
  · rw [if_pos hc, decide_eq_true hc, hc]
    constructor
    · generalize hvalue : '"' :: s = value
      intro h
      cases h with
      | quoted h hne =>
        obtain rfl := (List.cons.inj hvalue).2
        exact ⟨readToken_complete h (.stop rfl) [], hne⟩
      | bare h hne hquote _ =>
        obtain ⟨d, source, rfl, -⟩ := h.head hne
        exact absurd (congrArg some (List.cons.inj hvalue).1.symm) hquote
      | last h hne hquote =>
        rw [← hvalue] at hquote
        exact absurd rfl hquote
    · rintro ⟨h, hne⟩
      obtain ⟨source, spelled, after, rfl, rfl, hspells, hends⟩ := readToken_sound h
      rcases hends with hstop | _
      obtain rfl := of_decide_eq_true hstop
      exact .quoted hspells hne
  · rw [if_neg hc, decide_eq_false hc]
    constructor
    · generalize hvalue : c :: s = value
      intro h
      cases h with
      | quoted h hne => exact absurd (List.cons.inj hvalue).1 hc
      | bare h hne _ hspace => exact ⟨readToken_complete h (.stop hspace) [], hne⟩
      | last h hne _ =>
        have hread := readToken_complete h .finished []
        rw [List.append_nil] at hread
        exact ⟨hread, hne⟩
    · rintro ⟨h, hne⟩
      obtain ⟨source, spelled, after, hsplit, rfl, hspells, hends⟩ := readToken_sound h
      have hquote : source.head? ≠ some '"' := by
        intro hhead
        obtain ⟨source, rfl⟩ := List.head?_eq_some_iff.mp hhead
        exact hc (List.cons.inj hsplit).1
      rw [hsplit]
      rcases hends with hstop | _
      · exact .bare hspells hne hquote hstop
      · rw [List.append_nil]
        exact .last hspells hne hquote

end FirstToken

/-- A turn of the outer loop, with the white space skipped. -/
theorem execTokens_cons {n : ℕ} {value s : List Char} {c : Char}
    (hvalue : value.dropWhile isAsciiWhitespace = c :: s) {tokens : List (List Char)} :
    execTokens (n + 1) value = some tokens ↔
      ∃ token rest more, FirstToken (c :: s) token rest ∧ execTokens n rest = some more ∧
        tokens = token :: more := by
  rw [execTokens, hvalue]
  simp only [firstToken_iff, decide_eq_true_eq]
  cases readToken (c = '"') [] (if c = '"' then s else c :: s) with
  | none => simp
  | some read =>
    obtain ⟨token, terminated, rest⟩ := read
    cases terminated with
    | false => simp
    | true =>
      by_cases hempty : token = []
      · simp [hempty]
      · simp only [Bool.not_true, Bool.false_or, List.isEmpty_iff, hempty, if_false,
          Option.map_eq_some_iff]
        constructor
        · rintro ⟨more, hmore, rfl⟩
          exact ⟨token, rest, more, ⟨rfl, hempty⟩, hmore, rfl⟩
        · rintro ⟨token', rest', more, ⟨hread, -⟩, hmore, rfl⟩
          obtain ⟨rfl, -, rfl⟩ := read_inj hread
          exact ⟨more, hmore, rfl⟩

/-- **The tokenizer computes the tokens.** -/
theorem execTokens_iff {n : ℕ} {value : List Char} {tokens : List (List Char)} :
    execTokens n value = some tokens ↔ Tokens n value tokens := by
  constructor
  · intro h
    induction n generalizing value tokens with
    | zero =>
      obtain rfl := Option.some.inj h
      exact .limit
    | succ n ih =>
      have hspace : ∀ c ∈ value.takeWhile isAsciiWhitespace, isAsciiWhitespace c = true :=
        fun c hc => List.mem_takeWhile_imp hc
      cases hvalue : value.dropWhile isAsciiWhitespace with
      | nil =>
        rw [execTokens, hvalue] at h
        obtain rfl := Option.some.inj h
        exact .blank (List.dropWhile_eq_nil_iff.mp hvalue)
      | cons c s =>
        obtain ⟨token, rest, more, hfirst, hmore, rfl⟩ := (execTokens_cons hvalue).mp h
        rw [← List.takeWhile_append_dropWhile (p := isAsciiWhitespace) (l := value), hvalue]
        exact .cons hspace hfirst (ih hmore)
  · intro h
    induction h with
    | limit => rfl
    | blank h =>
      rw [execTokens, List.dropWhile_eq_nil_iff.mpr h]
    | cons hspace hfirst _ ih =>
      obtain ⟨c, s, rfl, hc⟩ := hfirst.head
      refine (execTokens_cons ?_).mpr ⟨_, _, _, hfirst, ih, rfl⟩
      rw [List.dropWhile_append_of_pos hspace, List.dropWhile_cons_of_neg]
      rw [hc]
      exact Bool.false_ne_true

/-- **The check of the command** is what it is to be. -/
theorem linuxLegacyExecIsOwned_iff (value : List Char) :
    linuxLegacyExecIsOwned value = true ↔ OwnedExec value := by
  unfold linuxLegacyExecIsOwned linuxDesktopExecTokens OwnedExec
  simp only [← execTokens_iff]
  constructor
  · intro h
    cases htokens : execTokens 2 value with
    | none =>
      rw [htokens] at h
      cases h
    | some tokens =>
      rw [htokens, Option.getD_some] at h
      cases tokens with
      | nil => cases h
      | cons executable arguments =>
        rw [List.head?_cons] at h
        dsimp only at h
        cases hname : fileName executable with
        | none =>
          rw [hname] at h
          cases h
        | some basename =>
          rw [hname] at h
          simp only [Bool.or_eq_true, Bool.and_eq_true, decide_eq_true_eq] at h
          rw [List.getElem?_cons_succ, ← List.head?_eq_getElem?] at h
          exact ⟨executable, arguments, basename, rfl, hname, h⟩
  · rintro ⟨executable, arguments, basename, htokens, hname, h⟩
    rw [htokens, Option.getD_some, List.head?_cons]
    dsimp only
    rw [hname]
    simp only [Bool.or_eq_true, Bool.and_eq_true, decide_eq_true_eq]
    rw [List.getElem?_cons_succ, ← List.head?_eq_getElem?]
    exact h

/-! ## The flags -/

/-- A flag outlives no group: the flags are off where the pass is not in a group. -/
def LegacyFlags.Scoped (flags : LegacyFlags) : Prop :=
  flags.entryType = true → flags.inDesktopEntry = true

/-- The test at a header. -/
def LegacyFlags.owned (flags : LegacyFlags) : Bool :=
  flags.inDesktopEntry && flags.entryType && flags.name && flags.exec

/-- The value of the type that is accepted. -/
def isTrayType (value : List Char) : Bool := value = "Application".toList

/-- The names that are accepted. -/
def isTrayName (value : List Char) : Bool :=
  value = "Wakezilla".toList || value = "Wakezilla Tray".toList

namespace LegacyFlags

variable {flags : LegacyFlags}

theorem afterLine_of_outside (h : flags.inDesktopEntry = false) (line : List Char) :
    flags.afterLine line = flags := by
  rw [afterLine, h]
  rfl

@[simp]
theorem afterLine_inDesktopEntry (line : List Char) :
    (flags.afterLine line).inDesktopEntry = flags.inDesktopEntry := by
  unfold afterLine
  split
  · rfl
  · split
    · rfl
    · dsimp only
      split_ifs <;> rfl

theorem scoped_afterHeader (line : List Char) : (afterHeader line).Scoped := nofun

theorem Scoped.afterLine (h : flags.Scoped) (line : List Char) :
    (flags.afterLine line).Scoped := by
  cases hin : flags.inDesktopEntry with
  | true =>
    intro _
    rw [afterLine_inDesktopEntry, hin]
  | false =>
    rw [afterLine_of_outside hin]
    exact h

/-- **The test at the end is that at a header.** -/
theorem Scoped.owned_eq (h : flags.Scoped) :
    (flags.entryType && flags.name && flags.exec) = flags.owned := by
  unfold owned
  cases htype : flags.entryType with
  | true =>
    rw [h htype]
    rfl
  | false => rw [Bool.and_false, Bool.false_and, Bool.false_and]

/-- **Inside a group each flag follows its key**, whatever the other lines are. -/
theorem afterLine_inside (entryType name exec : Bool) (line : List Char) :
    afterLine ⟨true, entryType, name, exec⟩ line =
      ⟨true, lastFlag keyValue "Type".toList isTrayType entryType line,
        lastFlag keyValue "Name".toList isTrayName name line,
        lastFlag keyValue "Exec".toList linuxLegacyExecIsOwned exec line⟩ := by
  have hname : "Name".toList ≠ "Type".toList := by decide
  have hexecType : "Exec".toList ≠ "Type".toList := by decide
  have hexecName : "Exec".toList ≠ "Name".toList := by decide
  unfold afterLine lastFlag keyValue
  cases splitOnce '=' line with
  | none => rfl
  | some pair =>
    obtain ⟨key, value⟩ := pair
    simp only [Option.map_some]
    generalize trim key = key
    generalize "Type".toList = typeKey at *
    generalize "Name".toList = nameKey at *
    generalize "Exec".toList = execKey at *
    -- the keys are different, so that a line sets one flag at most
    by_cases htype : key = typeKey
    · rw [htype]
      simp only [Bool.not_true, Bool.false_eq_true, if_false, if_true, hname.symm, hexecType.symm]
      rfl
    · by_cases hkey : key = nameKey
      · rw [hkey]
        simp only [Bool.not_true, Bool.false_eq_true, if_false, if_true, hname, hexecName.symm]
        rfl
      · simp only [Bool.not_true, Bool.false_eq_true, if_false, htype, hkey]
        split <;> rfl

/-- **The flags at the end of a group.** -/
theorem foldl_afterLine_inside (body : List (List Char)) (entryType name exec : Bool) :
    body.foldl afterLine ⟨true, entryType, name, exec⟩ =
      ⟨true, body.foldl (lastFlag keyValue "Type".toList isTrayType) entryType,
        body.foldl (lastFlag keyValue "Name".toList isTrayName) name,
        body.foldl (lastFlag keyValue "Exec".toList linuxLegacyExecIsOwned) exec⟩ := by
  induction body generalizing entryType name exec with
  | nil => rfl
  | cons line body ih =>
    rw [List.foldl_cons, afterLine_inside, ih]
    rfl

theorem foldl_afterLine_outside (h : flags.inDesktopEntry = false) (body : List (List Char)) :
    body.foldl afterLine flags = flags := by
  induction body with
  | nil => rfl
  | cons line body ih => rw [List.foldl_cons, afterLine_of_outside h, ih]

/-- **A group is accepted** if and only if it is one of the tray. -/
theorem owned_group_iff {h : List Char} {body : List (List Char)} :
    (body.foldl afterLine (afterHeader h)).owned = true ↔
      h = "[Desktop Entry]".toList ∧ OwnedGroup body := by
  by_cases hh : h = "[Desktop Entry]".toList
  · have hstart : afterHeader h = ⟨true, false, false, false⟩ := by
      rw [afterHeader, decide_eq_true hh]
    rw [hstart, foldl_afterLine_inside]
    simp only [owned, Bool.true_and, Bool.and_eq_true, foldl_lastFlag_iff]
    constructor
    · rintro ⟨⟨⟨entryType, htype, hvalue⟩, name, hname, hnames⟩, exec, hexec, howned⟩
      obtain rfl := of_decide_eq_true hvalue
      refine ⟨hh, htype, ?_, exec, hexec, (linuxLegacyExecIsOwned_iff exec).mp howned⟩
      rcases (Bool.or_eq_true _ _).mp hnames with hvalue | hvalue
      · obtain rfl := of_decide_eq_true hvalue
        exact Or.inl hname
      · obtain rfl := of_decide_eq_true hvalue
        exact Or.inr hname
    · rintro ⟨-, htype, hname, exec, hexec, howned⟩
      refine ⟨⟨⟨_, htype, decide_eq_true rfl⟩, ?_⟩, exec, hexec,
        (linuxLegacyExecIsOwned_iff exec).mpr howned⟩
      rcases hname with hname | hname
      · exact ⟨_, hname, (Bool.or_eq_true _ _).mpr (Or.inl (decide_eq_true rfl))⟩
      · exact ⟨_, hname, (Bool.or_eq_true _ _).mpr (Or.inr (decide_eq_true rfl))⟩
  · have hout : (afterHeader h).inDesktopEntry = false := decide_eq_false hh
    rw [foldl_afterLine_outside hout]
    constructor
    · intro howned
      rw [owned, hout] at howned
      cases howned
    · rintro ⟨hheader, -⟩
      exact absurd hheader hh

end LegacyFlags

/-! ## The pass -/

/-- **The loop is a scan** of the trimmed lines, one group after the other. -/
theorem ownedLoop_eq_scan {flags : LegacyFlags} (h : flags.Scoped)
    (rawLines : List (List Char)) :
    ownedLoop flags rawLines =
      scan isHeader LegacyFlags.owned LegacyFlags.afterHeader LegacyFlags.afterLine flags
        (rawLines.map trim) := by
  induction rawLines generalizing flags with
  | nil => exact h.owned_eq
  | cons rawLine rawLines ih =>
    rw [ownedLoop, List.map_cons, scan]
    cases isHeader (trim rawLine) with
    | true =>
      rw [if_pos rfl, if_pos rfl, ih (LegacyFlags.scoped_afterHeader _)]
      show (if flags.owned = true then true else _) = _
      cases flags.owned <;> rfl
    | false => rw [if_neg Bool.false_ne_true, if_neg Bool.false_ne_true, ih (h.afterLine _)]

/-- **The pass finds a group of the tray**, if the content has one. -/
theorem ownedLoop_iff (content : String) :
    ownedLoop ⟨false, false, false, false⟩ (lines content.toList) = true ↔ OwnedEntry content := by
  have hscoped : LegacyFlags.Scoped ⟨false, false, false, false⟩ := nofun
  rw [ownedLoop_eq_scan hscoped, scan_iff, LegacyFlags.foldl_afterLine_outside rfl]
  constructor
  · rintro (hnone | ⟨h, body, hsection, howned⟩)
    · cases hnone
    · obtain ⟨rfl, hbody⟩ := LegacyFlags.owned_group_iff.mp howned
      exact ⟨body, hsection, hbody⟩
  · rintro ⟨body, hsection, hbody⟩
    exact Or.inr ⟨_, body, hsection, LegacyFlags.owned_group_iff.mpr ⟨rfl, hbody⟩⟩

/-- **Only owned entries are removed.**  The pass accepts a content if and only if one of its
groups, taken alone, is an entry of the tray, and a file is removed if and only if it is a
regular one with such a content. -/
theorem legacy_autostart_owned_iff :
    (∀ content : String, linuxLegacyAutostartIsOwned content = true ↔ OwnedEntry content) ∧
      ∀ isFile legacyContent, removesLegacyAutostart isFile legacyContent = true ↔
        isFile = some true ∧
          ∃ content : String, legacyContent = some content.toUTF8 ∧ OwnedEntry content := by
  refine ⟨ownedLoop_iff, fun isFile legacyContent => ?_⟩
  constructor
  · intro h
    rw [removesLegacyAutostart, Option.any_eq_true] at h
    obtain ⟨file, rfl, h⟩ := h
    obtain ⟨rfl, h⟩ := (Bool.and_eq_true_iff).mp h
    obtain ⟨bytes, rfl, h⟩ := (Option.any_eq_true _ _).mp h
    obtain ⟨content, hcontent, howned⟩ := (Option.any_eq_true _ _).mp h
    rw [Json.fromUTF8_eq_some] at hcontent
    exact ⟨rfl, content, congrArg some hcontent, (ownedLoop_iff content).mp howned⟩
  · rintro ⟨rfl, content, rfl, howned⟩
    show (String.fromUTF8? content.toUTF8).any linuxLegacyAutostartIsOwned = true
    rw [Json.fromUTF8_eq_some.mpr rfl]
    exact (ownedLoop_iff content).mpr howned

/-- The keys of two groups are not put together. -/
example : linuxLegacyAutostartIsOwned ("[Desktop Entry]\nType=Application\nName=Wakezilla\n" ++
    "[Desktop Entry]\nExec=/old/bin/wakezilla-tray\n") = false := by decide +kernel

end Wakezilla
