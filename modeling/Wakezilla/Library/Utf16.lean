/-
# UTF-16, and reading it leniently

A character is one code unit, or a pair of surrogates; a text of code units need not come from
characters.  `decodeLossy` writes the replacement character for each surrogate that has no
partner, and gives back what was encoded (`decodeLossy_encode`).
-/
import Mathlib

namespace Utf16

/-- The code units of a character. -/
def encodeChar (c : Char) : List UInt16 :=
  if c.toNat < 0x10000 then [UInt16.ofNat c.toNat]
  else
    [UInt16.ofNat (0xD800 + (c.toNat - 0x10000) / 0x400),
      UInt16.ofNat (0xDC00 + (c.toNat - 0x10000) % 0x400)]

def encode (s : List Char) : List UInt16 := s.flatMap encodeChar

/-- The first unit of a pair. -/
def IsHigh (u : UInt16) : Prop := 0xD800 ≤ u.toNat ∧ u.toNat < 0xDC00

/-- The second unit of a pair. -/
def IsLow (u : UInt16) : Prop := 0xDC00 ≤ u.toNat ∧ u.toNat < 0xE000

instance (u : UInt16) : Decidable (IsHigh u) := inferInstanceAs (Decidable (_ ∧ _))

instance (u : UInt16) : Decidable (IsLow u) := inferInstanceAs (Decidable (_ ∧ _))

def replacement : Char := Char.ofNat 0xFFFD

/-- The characters of a text, with the replacement character for each lone surrogate. -/
def decodeLossy : List UInt16 → List Char
  | [] => []
  | [u] => if IsHigh u ∨ IsLow u then [replacement] else [Char.ofNat u.toNat]
  | u :: v :: s =>
    if IsHigh u ∧ IsLow v then
      Char.ofNat (0x10000 + (u.toNat - 0xD800) * 0x400 + (v.toNat - 0xDC00)) :: decodeLossy s
    else if IsHigh u ∨ IsLow u then replacement :: decodeLossy (v :: s)
    else Char.ofNat u.toNat :: decodeLossy (v :: s)

/-- A unit that is no surrogate is a character. -/
theorem decodeLossy_cons {u : UInt16} (hhigh : ¬ IsHigh u) (hlow : ¬ IsLow u)
    (s : List UInt16) : decodeLossy (u :: s) = Char.ofNat u.toNat :: decodeLossy s := by
  have hnone : ¬ (IsHigh u ∨ IsLow u) := by
    rintro (h | h)
    · exact hhigh h
    · exact hlow h
  cases s with
  | nil => exact if_neg hnone
  | cons v s => rw [decodeLossy, if_neg fun h => hhigh h.1, if_neg hnone]

theorem decodeLossy_encodeChar_append (c : Char) (s : List UInt16) :
    decodeLossy (encodeChar c ++ s) = c :: decodeLossy s := by
  have hvalid : c.toNat < 0xD800 ∨ 0xDFFF < c.toNat ∧ c.toNat < 0x110000 := c.valid
  unfold encodeChar
  by_cases hc : c.toNat < 0x10000
  · rw [if_pos hc, List.singleton_append]
    have hunit : (UInt16.ofNat c.toNat).toNat = c.toNat := UInt16.toNat_ofNat_of_lt' hc
    rw [decodeLossy_cons, hunit, Char.ofNat_toNat]
    · rw [IsHigh, hunit]
      omega
    · rw [IsLow, hunit]
      omega
  · rw [if_neg hc]
    obtain ⟨n, hn⟩ : ∃ n, c.toNat = 0x10000 + n := ⟨c.toNat - 0x10000, by omega⟩
    have hlt : n < 0x100000 := by omega
    have hhigh : (UInt16.ofNat (0xD800 + n / 0x400)).toNat = 0xD800 + n / 0x400 := by
      apply UInt16.toNat_ofNat_of_lt'
      show 0xD800 + n / 0x400 < 65536
      omega
    have hlow : (UInt16.ofNat (0xDC00 + n % 0x400)).toNat = 0xDC00 + n % 0x400 := by
      apply UInt16.toNat_ofNat_of_lt'
      show 0xDC00 + n % 0x400 < 65536
      omega
    rw [hn, Nat.add_sub_cancel_left]
    show decodeLossy (_ :: _ :: s) = _
    rw [decodeLossy, if_pos]
    · have hsum : 0x10000 + (0xD800 + n / 0x400 - 0xD800) * 0x400 +
          (0xDC00 + n % 0x400 - 0xDC00) = c.toNat := by omega
      rw [hhigh, hlow, hsum, Char.ofNat_toNat]
    · rw [IsHigh, IsLow, hhigh, hlow]
      omega

/-- **What was encoded is given back.** -/
theorem decodeLossy_encode (s : List Char) : decodeLossy (encode s) = s := by
  induction s with
  | nil => rfl
  | cons c s ih =>
    show decodeLossy (encodeChar c ++ encode s) = _
    rw [decodeLossy_encodeChar_append, ih]

end Utf16
