/-
# The autostart entry of the tray

On Linux the tray is started by a desktop entry, which holds the path of the helper twice: as a
string (`TryExec`) and as a quoted argument (`Exec`).  The path may have any characters but
control characters, and three readers look at it one after the other: the escapes of string
values, the quoting of arguments and the field codes.

`desktop_entry_quote` escapes for all of them, by replacements in the whole text.
`desktop_encoding_exact` says that the readers give the path back, and `autostartEntry_lines`
that the entry has its lines and no others.
-/
import Wakezilla.Library.Escaping
import Wakezilla.Library.TextLines

namespace Wakezilla

open Escaping TextLines

/-! ## Writing -/

/-- `char::is_ascii_control`. -/
def isAsciiControl (c : Char) : Bool := c.toNat < 0x20 || c.toNat = 0x7F

/-- `reject_desktop_controls`. -/
def rejectDesktopControls (value : String) : Except String Unit :=
  if value.toList.any isAsciiControl then
    .error "desktop entry value contains an ASCII control character"
  else .ok ()

def backtick : Char := Char.ofNat 0x60

/-- `desktop_entry_quote`. -/
def desktopEntryQuote (value : String) : Except String String := do
  rejectDesktopControls value
  let execLayer := replaceChar (replaceChar (replaceChar (replaceChar (replaceChar value
    '\\' "\\\\") '"' "\\\"") backtick "\\`") '$' "\\$") '%' "%%"
  .ok ("\"" ++ replaceChar execLayer '\\' "\\\\" ++ "\"")

/-- `desktop_string_escape`. -/
def desktopStringEscape (value : String) : Except String String := do
  rejectDesktopControls value
  .ok (replaceChar value '\\' "\\\\")

/-- The content of the entry that `install_linux_tray_autostart_at` writes. -/
def autostartEntry (helper : String) : Except String String := do
  let tryExec ← desktopStringEscape helper
  let exec ← desktopEntryQuote helper
  .ok ("[Desktop Entry]\nType=Application\nName=Wakezilla\n" ++
    "Comment=Wakezilla network wake-on-LAN tray application\nTryExec=" ++ tryExec ++
    "\nExec=" ++ exec ++
    "\nIcon=dev.wakezilla.Wakezilla\nTerminal=false\nStartupNotify=false\n")

/-! ## Reading -/

/-- The escape sequences of string values. -/
def stringEscape (c : Char) : Option Char :=
  if c = '\\' then some '\\'
  else if c = 's' then some ' '
  else if c = 'n' then some '\n'
  else if c = 't' then some '\t'
  else if c = 'r' then some '\r'
  else none

/-- The string that a value stands for. -/
def unescapeString : List Char → Option (List Char)
  | [] => some []
  | c :: s =>
    if c = '\\' then
      match s with
      | [] => none
      | e :: s => (stringEscape e).bind fun d => (unescapeString s).map (d :: ·)
    else (unescapeString s).map (c :: ·)

/-- The characters that have to be escaped inside of a quoted argument. -/
def isQuotedSpecial (c : Char) : Bool := c = '"' || c = backtick || c = '$' || c = '\\'

/-- The characters of which an argument that has one has to be quoted. -/
def isReserved (c : Char) : Bool :=
  isQuotedSpecial c || c ∈ " \t\n'><~|&;*?#()".toList

/-- Where the reader of arguments is. -/
inductive ExecMode
  | between
  | bare (read : List Char)
  | quoted (read : List Char)
  | escaped (read : List Char)
  | closed (read : List Char)

structure ExecState where
  arguments : List (List Char)
  mode : ExecMode

/-- Arguments are separated by spaces, and each is quoted as a whole or not at all. -/
def execStep (st : ExecState) (c : Char) : Option ExecState :=
  match st.mode with
  | .between =>
    if c = '"' then some ⟨st.arguments, .quoted []⟩
    else if c = ' ' then some st
    else if isReserved c then none
    else some ⟨st.arguments, .bare [c]⟩
  | .bare read =>
    if c = ' ' then some ⟨st.arguments ++ [read], .between⟩
    else if isReserved c then none
    else some ⟨st.arguments, .bare (read ++ [c])⟩
  | .quoted read =>
    if c = '"' then some ⟨st.arguments, .closed read⟩
    else if c = '\\' then some ⟨st.arguments, .escaped read⟩
    else if isQuotedSpecial c then none
    else some ⟨st.arguments, .quoted (read ++ [c])⟩
  | .escaped read =>
    if isQuotedSpecial c then some ⟨st.arguments, .quoted (read ++ [c])⟩ else none
  | .closed read => if c = ' ' then some ⟨st.arguments ++ [read], .between⟩ else none

def ExecState.finish (st : ExecState) : Option (List (List Char)) :=
  match st.mode with
  | .between => some st.arguments
  | .bare read => some (st.arguments ++ [read])
  | .closed read => some (st.arguments ++ [read])
  | .quoted _ => none
  | .escaped _ => none

/-- The arguments of a command line, before the field codes are looked at. -/
def execArguments (text : List Char) : Option (List (List Char)) :=
  (feed execStep ⟨[], .between⟩ text).bind ExecState.finish

/-- A part of an argument: a character, or a field code to be expanded. -/
inductive ArgumentPart
  | literal (c : Char)
  | fieldCode (c : Char)
  deriving DecidableEq

/-- The letters of the field codes. -/
def fieldCodes : List Char := "fFuUdDnNickvm".toList

/-- Two percent signs are one; before a letter, a percent sign is a field code. -/
def expandFieldCodes : List Char → Option (List ArgumentPart)
  | [] => some []
  | c :: s =>
    if c = '%' then
      match s with
      | [] => none
      | d :: s =>
        if d = '%' then (expandFieldCodes s).map (.literal '%' :: ·)
        else if d ∈ fieldCodes then (expandFieldCodes s).map (.fieldCode d :: ·)
        else none
    else (expandFieldCodes s).map (.literal c :: ·)

/-- The arguments that the value of `Exec` stands for. -/
def decodeExec (value : List Char) : Option (List (List ArgumentPart)) :=
  (unescapeString value).bind fun text =>
    (execArguments text).bind fun arguments => arguments.mapM expandFieldCodes

/-! ## The codes -/

/-- The code of a character in a string value. -/
def stringCode (c : Char) : List Char := if c = '\\' then "\\\\".toList else [c]

/-- The code of a character for the field codes. -/
def percentCode (c : Char) : List Char := if c = '%' then "%%".toList else [c]

/-- The code of a character in a quoted argument. -/
def execCode (c : Char) : List Char :=
  if isQuotedSpecial c then ['\\', c] else percentCode c

/-! ## The string values -/

theorem unescapeString_cons {c : Char} (hc : c ≠ '\\') (s : List Char) :
    unescapeString (c :: s) = (unescapeString s).map (c :: ·) := by
  rw [unescapeString.eq_def]
  exact if_neg hc

theorem stringCode_decoded (c : Char) (s t : List Char) (h : unescapeString s = some t) :
    unescapeString (stringCode c ++ s) = some (c :: t) := by
  unfold stringCode
  by_cases hc : c = '\\'
  · rw [if_pos hc, hc]
    simp [unescapeString, stringEscape, h]
  · rw [if_neg hc, List.singleton_append, unescapeString_cons hc, h]
    rfl

/-- **The escapes of a string value are undone.** -/
theorem unescapeString_flatMap (s : List Char) :
    unescapeString (s.flatMap stringCode) = some s := by
  have hnil : unescapeString [] = some [] := rfl
  have hdecoded : unescapeString (s.flatMap stringCode) = some (s.map id) :=
    decode_flatMap hnil stringCode_decoded s
  rwa [List.map_id] at hdecoded

/-! ## The field codes -/

theorem expandFieldCodes_cons {c : Char} (hc : c ≠ '%') (s : List Char) :
    expandFieldCodes (c :: s) = (expandFieldCodes s).map (.literal c :: ·) := by
  rw [expandFieldCodes.eq_def]
  exact if_neg hc

theorem percentCode_decoded (c : Char) (s : List Char) (t : List ArgumentPart)
    (h : expandFieldCodes s = some t) :
    expandFieldCodes (percentCode c ++ s) = some (.literal c :: t) := by
  unfold percentCode
  by_cases hc : c = '%'
  · rw [if_pos hc, hc]
    simp [expandFieldCodes, h]
  · rw [if_neg hc, List.singleton_append, expandFieldCodes_cons hc, h]
    rfl

/-- **No field code is expanded** where the percent signs are doubled. -/
theorem expandFieldCodes_flatMap (s : List Char) :
    expandFieldCodes (s.flatMap percentCode) = some (s.map .literal) := by
  have hnil : expandFieldCodes [] = some [] := rfl
  exact decode_flatMap hnil percentCode_decoded s

/-! ## The quoted argument -/

/-- **The replacements together** write a code for each character.  The backslash comes first,
so that those of the other codes are not doubled. -/
theorem replaceAll_eq_flatMap (s : List Char) :
    replaceAll '%' "%%".toList (replaceAll '$' "\\$".toList (replaceAll backtick "\\`".toList
      (replaceAll '"' "\\\"".toList (replaceAll '\\' "\\\\".toList s)))) =
        s.flatMap execCode := by
  have hfirst : replaceAll '\\' "\\\\".toList s = s.flatMap stringCode := rfl
  rw [hfirst, replaceAll_flatMap, replaceAll_flatMap, replaceAll_flatMap, replaceAll_flatMap]
  congr 1
  funext c
  unfold stringCode
  by_cases hslash : c = '\\'
  · rw [hslash]
    decide
  · rw [if_neg hslash]
    by_cases hquote : c = '"'
    · rw [hquote]
      decide
    · by_cases hback : c = backtick
      · rw [hback]
        decide
      · by_cases hdollar : c = '$'
        · rw [hdollar]
          decide
        · simp [execCode, isQuotedSpecial, percentCode, hslash, hquote, hback, hdollar]

/-- Inside the quotes a code adds its character, with percent signs still doubled. -/
theorem feed_execCode (arguments : List (List Char)) (read : List Char) (c : Char) :
    feed execStep ⟨arguments, .quoted (read.flatMap percentCode)⟩ (execCode c) =
      some ⟨arguments, .quoted ((read ++ [c]).flatMap percentCode)⟩ := by
  rw [List.flatMap_append, List.flatMap_singleton]
  generalize read.flatMap percentCode = before
  unfold execCode
  cases hspecial : isQuotedSpecial c with
  | true =>
    have hpercent : percentCode c = [c] := by
      apply if_neg
      rintro rfl
      revert hspecial
      decide
    simp [execStep, hspecial, hpercent]
  | false =>
    have hplain : ∀ before, execStep ⟨arguments, .quoted before⟩ c =
        some ⟨arguments, .quoted (before ++ [c])⟩ := by
      intro before
      simp only [isQuotedSpecial, Bool.or_eq_false_iff, decide_eq_false_iff_not] at hspecial
      simp [execStep, isQuotedSpecial, hspecial]
    unfold percentCode
    by_cases hc : c = '%'
    · rw [if_pos hc]
      rw [hc] at hplain ⊢
      simp [hplain]
    · rw [if_neg hc]
      simp [hplain]

/-- **A quoted text is one argument.** -/
theorem execArguments_quoted (s : List Char) :
    execArguments ('"' :: (s.flatMap execCode ++ ['"'])) = some [s.flatMap percentCode] := by
  have hvalue := feed_flatMap (fun read c (_ : c ∈ s) => feed_execCode [] read c) []
  rw [execArguments, feed_cons]
  show (feed execStep ⟨[], .quoted (([] : List Char).flatMap percentCode)⟩ _).bind _ = _
  rw [feed_append_of_eq hvalue]
  rfl

/-! ## What is written -/

/-- A value is refused if and only if it has a control character. -/
theorem rejectDesktopControls_cases (value : String) :
    (rejectDesktopControls value = .ok () ∧ ∀ c ∈ value.toList, isAsciiControl c = false) ∨
      ((∃ e, rejectDesktopControls value = .error e) ∧
        ∃ c ∈ value.toList, isAsciiControl c = true) := by
  unfold rejectDesktopControls
  cases h : value.toList.any isAsciiControl with
  | true => exact Or.inr ⟨⟨_, rfl⟩, List.any_eq_true.mp h⟩
  | false =>
    refine Or.inl ⟨rfl, fun c hc => ?_⟩
    have hno := List.any_eq_false.mp h c hc
    simpa using hno

section Encoder

variable {value written encoded : String}

/-- An encoder fails exactly where a value is refused. -/
theorem encode_fails_iff :
    (∃ e, (do
        rejectDesktopControls value
        .ok written : Except String String) = .error e) ↔
      ∃ c ∈ value.toList, isAsciiControl c = true := by
  rcases rejectDesktopControls_cases value with ⟨hok, hnone⟩ | ⟨⟨e, herror⟩, hsome⟩
  · rw [hok]
    constructor
    · rintro ⟨e, h⟩
      cases h
    · rintro ⟨c, hc, hcontrol⟩
      rw [hnone c hc] at hcontrol
      cases hcontrol
  · rw [herror]
    exact ⟨fun _ => hsome, fun _ => ⟨e, rfl⟩⟩

theorem encode_eq_ok
    (h : (do
      rejectDesktopControls value
      .ok written : Except String String) = .ok encoded) :
    (∀ c ∈ value.toList, isAsciiControl c = false) ∧ encoded = written := by
  rcases rejectDesktopControls_cases value with ⟨hok, hnone⟩ | ⟨⟨e, herror⟩, -⟩
  · rw [hok] at h
    exact ⟨hnone, (Except.ok.inj h).symm⟩
  · rw [herror] at h
    cases h

end Encoder

theorem desktopStringEscape_eq_ok {value encoded : String}
    (h : desktopStringEscape value = .ok encoded) :
    (∀ c ∈ value.toList, isAsciiControl c = false) ∧
      encoded.toList = value.toList.flatMap stringCode := by
  unfold desktopStringEscape at h
  obtain ⟨hplain, rfl⟩ := encode_eq_ok h
  exact ⟨hplain, toList_replaceChar value '\\' "\\\\"⟩

theorem desktopEntryQuote_eq_ok {value encoded : String}
    (h : desktopEntryQuote value = .ok encoded) :
    (∀ c ∈ value.toList, isAsciiControl c = false) ∧
      encoded.toList = ('"' :: (value.toList.flatMap execCode ++ ['"'])).flatMap stringCode := by
  unfold desktopEntryQuote at h
  obtain ⟨hplain, rfl⟩ := encode_eq_ok h
  refine ⟨hplain, ?_⟩
  rw [String.toList_append, String.toList_append, toList_replaceChar, toList_replaceChar,
    toList_replaceChar, toList_replaceChar, toList_replaceChar, toList_replaceChar,
    replaceAll_eq_flatMap, List.flatMap_cons, List.flatMap_append]
  rfl

/-! ## The lines of the entry -/

/-- The text has no control character. -/
def Plain (s : List Char) : Prop := ∀ c ∈ s, isAsciiControl c = false

instance (s : List Char) : Decidable (Plain s) := List.decidableBAll _ s

theorem plain_singleton {c : Char} (h : isAsciiControl c = false) : Plain [c] := by
  intro d hd
  rw [List.mem_singleton.mp hd]
  exact h

theorem Plain.unbroken {s : List Char} (h : Plain s) : Unbroken s := by
  constructor
  · intro hfeed
    have hno := h _ hfeed
    revert hno
    decide
  · intro hend
    have hno := h _ (List.mem_of_getLast? hend)
    revert hno
    decide

theorem Plain.append {s t : List Char} (hs : Plain s) (ht : Plain t) : Plain (s ++ t) := by
  intro c hc
  exact (List.mem_append.mp hc).elim (hs c) (ht c)

/-- A code that writes no control character keeps a text plain. -/
theorem Plain.flatMap {code : Char → List Char} {s : List Char} (hs : Plain s)
    (hcode : ∀ c, isAsciiControl c = false → Plain (code c)) : Plain (s.flatMap code) := by
  intro d hd
  obtain ⟨c, hc, hd⟩ := List.mem_flatMap.mp hd
  exact hcode c (hs c hc) d hd

theorem plain_stringCode (c : Char) (hc : isAsciiControl c = false) : Plain (stringCode c) := by
  unfold stringCode
  split
  · decide
  · exact plain_singleton hc

theorem plain_execCode (c : Char) (hc : isAsciiControl c = false) : Plain (execCode c) := by
  unfold execCode percentCode
  split
  · have hslash : Plain ['\\'] := by decide
    exact hslash.append (plain_singleton hc)
  · split
    · decide
    · exact plain_singleton hc

/-- The lines of an entry with the two forms of the path. -/
def autostartLines (tryExec exec : String) : List String :=
  ["[Desktop Entry]", "Type=Application", "Name=Wakezilla",
    "Comment=Wakezilla network wake-on-LAN tray application", "TryExec=" ++ tryExec,
    "Exec=" ++ exec, "Icon=dev.wakezilla.Wakezilla", "Terminal=false", "StartupNotify=false"]

theorem plain_autostartLines {tryExec exec : String} (htryExec : Plain tryExec.toList)
    (hexec : Plain exec.toList) : ∀ line ∈ autostartLines tryExec exec, Plain line.toList := by
  intro line hline
  simp only [autostartLines, List.mem_cons, List.not_mem_nil, or_false] at hline
  rcases hline with rfl | rfl | rfl | rfl | rfl | rfl | rfl | rfl | rfl
  case inr.inr.inr.inr.inl =>
    rw [String.toList_append]
    exact Plain.append (by decide) htryExec
  case inr.inr.inr.inr.inr.inl =>
    rw [String.toList_append]
    exact Plain.append (by decide) hexec
  all_goals decide

/-- **The entry has its nine lines**, whatever the path of the helper is. -/
theorem autostartEntry_lines {helper text : String} (h : autostartEntry helper = .ok text) :
    ∃ tryExec exec, desktopStringEscape helper = .ok tryExec ∧
      desktopEntryQuote helper = .ok exec ∧
      lines text.toList = (autostartLines tryExec exec).map String.toList := by
  unfold autostartEntry at h
  cases htry : desktopStringEscape helper with
  | error e =>
    rw [htry] at h
    cases h
  | ok tryExec =>
    cases hexec : desktopEntryQuote helper with
    | error e =>
      rw [htry, hexec] at h
      cases h
    | ok exec =>
      rw [htry, hexec] at h
      obtain rfl := Except.ok.inj h
      refine ⟨tryExec, exec, rfl, rfl, ?_⟩
      obtain ⟨hplain, htryExec⟩ := desktopStringEscape_eq_ok htry
      obtain ⟨-, hexec⟩ := desktopEntryQuote_eq_ok hexec
      have hstring : Plain tryExec.toList := by
        rw [htryExec]
        exact Plain.flatMap hplain plain_stringCode
      have hquoted : Plain exec.toList := by
        rw [hexec]
        refine Plain.flatMap ?_ plain_stringCode
        have hvalue : Plain (helper.toList.flatMap execCode) := Plain.flatMap hplain plain_execCode
        have hquote : Plain ['"'] := by decide
        exact hquote.append (hvalue.append hquote)
      have hlines : ∀ line ∈ (autostartLines tryExec exec).map String.toList, Unbroken line := by
        intro line hline
        obtain ⟨line, hmem, rfl⟩ := List.mem_map.mp hline
        exact (plain_autostartLines hstring hquoted line hmem).unbroken
      rw [← lines_joinLines hlines]
      simp [joinLines, autostartLines, String.toList_append]

/-- **Desktop entries are encoded exactly.**  Both encoders fail on a control character and on
nothing else.  What `desktop_entry_quote` writes is read as one argument, the value itself, with
no field code in it; what `desktop_string_escape` writes is read as the value. -/
theorem desktop_encoding_exact (value : String) :
    ((∃ e, desktopEntryQuote value = .error e) ↔
        ∃ c ∈ value.toList, isAsciiControl c = true) ∧
      ((∃ e, desktopStringEscape value = .error e) ↔
        ∃ c ∈ value.toList, isAsciiControl c = true) ∧
      (∀ encoded, desktopEntryQuote value = .ok encoded →
        decodeExec encoded.toList = some [value.toList.map .literal]) ∧
      ∀ encoded, desktopStringEscape value = .ok encoded →
        unescapeString encoded.toList = some value.toList := by
  refine ⟨?_, ?_, fun encoded h => ?_, fun encoded h => ?_⟩
  · unfold desktopEntryQuote
    exact encode_fails_iff
  · unfold desktopStringEscape
    exact encode_fails_iff
  · obtain ⟨-, hencoded⟩ := desktopEntryQuote_eq_ok h
    rw [decodeExec, hencoded, unescapeString_flatMap]
    show (execArguments _).bind _ = _
    rw [execArguments_quoted]
    show [value.toList.flatMap percentCode].mapM expandFieldCodes = _
    rw [List.mapM_cons, expandFieldCodes_flatMap]
    rfl
  · obtain ⟨-, hencoded⟩ := desktopStringEscape_eq_ok h
    rw [hencoded, unescapeString_flatMap]

end Wakezilla
