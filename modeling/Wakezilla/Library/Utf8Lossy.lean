/-
# Lossy decoding of UTF-8

Any bytes are decoded to characters.  Where they are not UTF-8, the longest beginning of a
character that stands there is replaced by one replacement character, and decoding goes on
behind it.

`decode_append_newline` : a line feed is never part of a longer character, so it cuts the
bytes into two that are decoded on their own.
-/
import Mathlib

namespace Utf8Lossy

/-- The replacement character. -/
def replacement : Char := '\uFFFD'

/-- A byte that continues a character. -/
def isContinuation (b : UInt8) : Bool := 0x80 ≤ b && b ≤ 0xBF

/-- The bytes of a character that starts with this byte; 0 when none does. -/
def width (b : UInt8) : ℕ :=
  if b < 0x80 then 1
  else if 0xC2 ≤ b && b ≤ 0xDF then 2
  else if 0xE0 ≤ b && b ≤ 0xEF then 3
  else if 0xF0 ≤ b && b ≤ 0xF4 then 4
  else 0

/-- A byte that may follow the first byte `b`: after some first bytes, a continuation byte would
make a character that has a shorter form, a surrogate, or one that is too large. -/
def isSecond (b c : UInt8) : Bool :=
  if b = 0xE0 then 0xA0 ≤ c && c ≤ 0xBF
  else if b = 0xED then 0x80 ≤ c && c ≤ 0x9F
  else if b = 0xF0 then 0x90 ≤ c && c ≤ 0xBF
  else if b = 0xF4 then 0x80 ≤ c && c ≤ 0x8F
  else isContinuation c

/-- The first byte and what is behind it, if it passes the test. -/
def takeIf (ok : UInt8 → Bool) : List UInt8 → Option (UInt8 × List UInt8)
  | [] => none
  | b :: rest => if ok b then some (b, rest) else none

/-- The character that starts with the byte `b` and what is behind it; the replacement and the
bytes from the first one on that does not fit, if there is none. -/
def decodeChar (b : UInt8) (rest : List UInt8) : Char × List UInt8 :=
  match width b with
  | 1 => (Char.ofNat b.toNat, rest)
  | 2 =>
    match takeIf isContinuation rest with
    | none => (replacement, rest)
    | some (c, rest₁) => (Char.ofNat (b.toNat % 32 * 64 + c.toNat % 64), rest₁)
  | 3 =>
    match takeIf (isSecond b) rest with
    | none => (replacement, rest)
    | some (c, rest₁) =>
      match takeIf isContinuation rest₁ with
      | none => (replacement, rest₁)
      | some (d, rest₂) =>
        (Char.ofNat (b.toNat % 16 * 4096 + c.toNat % 64 * 64 + d.toNat % 64), rest₂)
  | 4 =>
    match takeIf (isSecond b) rest with
    | none => (replacement, rest)
    | some (c, rest₁) =>
      match takeIf isContinuation rest₁ with
      | none => (replacement, rest₁)
      | some (d, rest₂) =>
        match takeIf isContinuation rest₂ with
        | none => (replacement, rest₂)
        | some (e, rest₃) =>
          (Char.ofNat (b.toNat % 8 * 262144 + c.toNat % 64 * 4096 + d.toNat % 64 * 64 +
            e.toNat % 64), rest₃)
  | _ => (replacement, rest)

theorem length_takeIf {ok : UInt8 → Bool} {l rest : List UInt8} {b : UInt8}
    (h : takeIf ok l = some (b, rest)) : rest.length < l.length := by
  cases l with
  | nil => cases h
  | cons c l =>
    rw [takeIf] at h
    split at h
    · cases h
      exact Nat.lt_succ_self _
    · cases h

/-- Decoding a character uses no byte twice. -/
theorem length_decodeChar_le (b : UInt8) (rest : List UInt8) :
    (decodeChar b rest).2.length ≤ rest.length := by
  unfold decodeChar
  split
  · exact le_rfl
  · split
    · exact le_rfl
    · rename_i h
      exact (length_takeIf h).le
  · split
    · exact le_rfl
    · rename_i h
      split
      · exact (length_takeIf h).le
      · rename_i h'
        exact ((length_takeIf h').trans (length_takeIf h)).le
  · split
    · exact le_rfl
    · rename_i h
      split
      · exact (length_takeIf h).le
      · rename_i h'
        split
        · exact ((length_takeIf h').trans (length_takeIf h)).le
        · rename_i h''
          exact (((length_takeIf h'').trans (length_takeIf h')).trans (length_takeIf h)).le
  · exact le_rfl

/-- The characters of the bytes. -/
def decode : List UInt8 → List Char
  | [] => []
  | b :: rest => (decodeChar b rest).1 :: decode (decodeChar b rest).2
termination_by l => l.length
decreasing_by exact Nat.lt_succ_of_le (length_decodeChar_le b rest)

/-! ## Line feeds -/

/-- The byte of a line feed. -/
def newline : UInt8 := 0x0A

/-- What fails at the end of the bytes fails at a line feed as well. -/
theorem takeIf_append_newline {ok : UInt8 → Bool} (hok : ok newline = false)
    (l t : List UInt8) :
    takeIf ok (l ++ newline :: t) =
      (takeIf ok l).map fun found => (found.1, found.2 ++ newline :: t) := by
  cases l with
  | nil => simp [takeIf, hok]
  | cons b l =>
    rw [List.cons_append, takeIf, takeIf]
    cases ok b <;> rfl

theorem isSecond_newline (b : UInt8) : isSecond b newline = false := by
  unfold isSecond
  split_ifs <;> decide

/-- A character does not reach over a line feed. -/
theorem decodeChar_append_newline (b : UInt8) (l t : List UInt8) :
    decodeChar b (l ++ newline :: t) =
      ((decodeChar b l).1, (decodeChar b l).2 ++ newline :: t) := by
  have hcontinuation : isContinuation newline = false := by decide
  unfold decodeChar
  split
  · rfl
  · rw [takeIf_append_newline hcontinuation]
    cases takeIf isContinuation l <;> rfl
  · rw [takeIf_append_newline (isSecond_newline b)]
    cases takeIf (isSecond b) l with
    | none => rfl
    | some found =>
      simp only [Option.map_some, takeIf_append_newline hcontinuation]
      cases takeIf isContinuation found.2 <;> rfl
  · rw [takeIf_append_newline (isSecond_newline b)]
    cases takeIf (isSecond b) l with
    | none => rfl
    | some found =>
      simp only [Option.map_some, takeIf_append_newline hcontinuation]
      cases takeIf isContinuation found.2 with
      | none => rfl
      | some found' =>
        simp only [Option.map_some, takeIf_append_newline hcontinuation]
        cases takeIf isContinuation found'.2 <;> rfl
  · rfl

theorem decode_newline_cons (t : List UInt8) : decode (newline :: t) = '\n' :: decode t := by
  rw [decode]
  rfl

/-- **A line feed cuts the bytes.** -/
theorem decode_append_newline (l t : List UInt8) :
    decode (l ++ newline :: t) = decode l ++ '\n' :: decode t := by
  induction l using decode.induct with
  | case1 =>
    rw [List.nil_append, decode_newline_cons, decode]
    rfl
  | case2 b rest ih =>
    rw [List.cons_append, decode, decode, decodeChar_append_newline, ih]
    rfl

/-- Every line feed is decoded. -/
theorem count_newline_le (l : List UInt8) : l.count newline ≤ (decode l).count '\n' := by
  induction hlength : l.length using Nat.strong_induction_on generalizing l with
  | _ n ih =>
    by_cases hmem : newline ∈ l
    · obtain ⟨before, after, rfl, hbefore⟩ := List.eq_append_cons_of_mem hmem
      have hafter := ih after.length (by simp [← hlength]; omega) after rfl
      rw [decode_append_newline, List.count_append, List.count_append, List.count_cons_self,
        List.count_cons_self, List.count_eq_zero_of_not_mem hbefore]
      omega
    · rw [List.count_eq_zero_of_not_mem hmem]
      exact Nat.zero_le _

example : decode [0x61, 0xE2, 0x82, 0xAC, 0xE2, 0x82, 0x0A, 0xFF] =
    ['a', '€', replacement, '\n', replacement] := by
  decide +kernel

end Utf8Lossy
