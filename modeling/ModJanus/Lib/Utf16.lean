/-
  ModJanus.Lib.Utf16

  Characters written as escapes of UTF-16 code units, `\uXXXX`, and as UTF-8.

  `escapes c` are the escapes of the character `c`: one unit, or the two surrogates of a
  character behind the first plane.  The bit lemmas say what a decoder and an encoder
  compute that take the units and the bytes apart with masks and shifts.
-/
import Mathlib.Computability.Language
import Mathlib.Data.UInt

namespace Utf16

/-! ## Hexadecimal digits -/

/-- The value of a hexadecimal digit in either case. -/
def hexDigit (b : UInt8) : Option Nat :=
  if 0x30 ≤ b ∧ b ≤ 0x39 then some (b.toNat - 0x30)
  else if 0x41 ≤ b ∧ b ≤ 0x46 then some (10 + b.toNat - 0x41)
  else if 0x61 ≤ b ∧ b ≤ 0x66 then some (10 + b.toNat - 0x61)
  else none

/-- The value of digits behind those of value `h`. -/
def hexValue (h : Nat) (digits : List UInt8) : Option Nat :=
  digits.foldlM (fun h b => (hexDigit b).map (h * 16 + ·)) h

@[simp] theorem hexValue_nil (h : Nat) : hexValue h [] = some h := rfl

@[simp] theorem hexValue_cons (h : Nat) (b : UInt8) (digits : List UInt8) :
    hexValue h (b :: digits) = (hexDigit b).bind fun d => hexValue (h * 16 + d) digits := by
  simp only [hexValue, List.foldlM_cons]
  cases hexDigit b with
  | none => rfl
  | some d => rfl

/-! ## Code units -/

/-- The first of the two surrogates of a code point behind the first plane. -/
def high (codepoint : Nat) : Nat := 0xD800 + (codepoint - 0x10000) / 0x400

/-- The second one. -/
def low (codepoint : Nat) : Nat := 0xDC00 + (codepoint - 0x10000) % 0x400

/-- `\uXXXX`, four digits in either case. -/
def unitEscape (unit : Nat) : Language UInt8 :=
  {t | ∃ digits : List UInt8, digits.length = 4 ∧ hexValue 0 digits = some unit ∧
    t = 0x5C :: 0x75 :: digits}

/-- The escapes of a character. -/
def escapes (c : Char) : Language UInt8 :=
  if c.toNat < 0x10000 then unitEscape c.toNat
  else unitEscape (high c.toNat) * unitEscape (low c.toNat)

theorem high_bounds {codepoint : Nat} (hle : 0x10000 ≤ codepoint) (hlt : codepoint < 0x110000) :
    0xD800 ≤ high codepoint ∧ high codepoint ≤ 0xDBFF := by
  unfold high
  omega

theorem low_bounds (codepoint : Nat) : 0xDC00 ≤ low codepoint ∧ low codepoint ≤ 0xDFFF := by
  unfold low
  omega

/-- Ten bits behind ten bits. -/
theorem shiftLeft_or (a : Nat) {b : Nat} (hb : b < 2 ^ 10) : a <<< 10 ||| b = a * 0x400 + b := by
  rw [Nat.shiftLeft_eq, Nat.mul_comm a, ← Nat.two_pow_add_eq_or_of_lt hb, Nat.mul_comm]

/-- The payloads of the surrogates make up the code point. -/
theorem surrogates_combine {codepoint : Nat} (hle : 0x10000 ≤ codepoint)
    (hlt : codepoint < 0x110000) :
    0x10000 + (((high codepoint &&& 0x3FF) <<< 10) ||| (low codepoint &&& 0x3FF))
      = codepoint := by
  have hhigh : high codepoint &&& 0x3FF = (codepoint - 0x10000) / 0x400 := by
    rw [show 0x3FF = 2 ^ 10 - 1 by rfl, Nat.and_two_pow_sub_one_eq_mod, high]
    omega
  have hlow : low codepoint &&& 0x3FF = (codepoint - 0x10000) % 0x400 := by
    rw [show 0x3FF = 2 ^ 10 - 1 by rfl, Nat.and_two_pow_sub_one_eq_mod, low]
    omega
  rw [hhigh, hlow, shiftLeft_or _ (by omega)]
  omega

/-- Every character is a code point outside of the surrogates. -/
theorem char_bounds (c : Char) :
    c.toNat < 0xD800 ∨ (0xDFFF < c.toNat ∧ c.toNat < 0x110000) := c.valid

/-! ## UTF-8 -/

/-- The six bits of a continuation byte. -/
theorem or_and_continuation (n : Nat) : (n ||| 0x80) &&& 0xBF = n % 0x40 + 0x80 := by
  have hmod : (n ||| 0x80) &&& 0xBF = (n % 2 ^ 8 ||| 0x80) &&& 0xBF := by
    have h := Nat.and_mod_two_pow (a := n ||| 0x80) (b := 0xBF) (n := 8)
    rw [Nat.or_mod_two_pow, Nat.mod_eq_of_lt (a := 0x80) (by decide),
      Nat.mod_eq_of_lt (a := 0xBF) (by decide)] at h
    rw [← h, Nat.mod_eq_of_lt (Nat.lt_of_le_of_lt Nat.and_le_right (by decide))]
  have hbyte : ∀ r < 2 ^ 8, (r ||| 0x80) &&& 0xBF = r % 0x40 + 0x80 := by decide +kernel
  rw [hmod, hbyte _ (Nat.mod_lt _ (by decide))]
  omega

/-- The mark of a first byte and the bits that it leaves free. -/
theorem or_and_first : ∀ m ∈ [(0xC0, 0x20), (0xE0, 0x10), (0xF0, 0x08)],
    ∀ n < m.2, (n ||| m.1) &&& 0xFF = n + m.1 := by decide

/-- A character of one byte. -/
theorem utf8EncodeChar_one {c : Char} (h : c.toNat < 0x80) :
    String.utf8EncodeChar c = [UInt8.ofNat c.toNat] := by
  have h1 : c.val.toNat ≤ 0x7F := Nat.lt_succ_iff.mp h
  simp only [String.utf8EncodeChar, if_pos h1, Char.toNat]

theorem utf8EncodeChar_two {c : Char} (h : 0x80 ≤ c.toNat) (h' : c.toNat < 0x800) :
    String.utf8EncodeChar c =
      [UInt8.ofNat (c.toNat / 0x40 + 0xC0), UInt8.ofNat (c.toNat % 0x40 + 0x80)] := by
  have h1 : ¬ c.val.toNat ≤ 0x7F := Nat.not_le_of_lt h
  have h2 : c.val.toNat ≤ 0x7FF := Nat.lt_succ_iff.mp h'
  have hfirst : c.val.toNat / 64 % 0x20 = c.val.toNat / 64 := by omega
  simp only [String.utf8EncodeChar, if_neg h1, if_pos h2, Char.toNat, hfirst]

theorem utf8EncodeChar_three {c : Char} (h : 0x800 ≤ c.toNat) (h' : c.toNat < 0x10000) :
    String.utf8EncodeChar c =
      [UInt8.ofNat (c.toNat / 0x40 / 0x40 + 0xE0),
        UInt8.ofNat (c.toNat / 0x40 % 0x40 + 0x80), UInt8.ofNat (c.toNat % 0x40 + 0x80)] := by
  have h1 : ¬ c.val.toNat ≤ 0x7FF := Nat.not_le_of_lt h
  have h2 : c.val.toNat ≤ 0xFFFF := Nat.lt_succ_iff.mp h'
  have h0 : ¬ c.val.toNat ≤ 0x7F := by omega
  have hfirst : c.val.toNat / 4096 % 0x10 = c.val.toNat / 0x40 / 0x40 := by omega
  simp only [String.utf8EncodeChar, if_neg h0, if_neg h1, if_pos h2, Char.toNat, hfirst]

theorem utf8EncodeChar_four {c : Char} (h : 0x10000 ≤ c.toNat) :
    String.utf8EncodeChar c =
      [UInt8.ofNat (c.toNat / 0x40 / 0x40 / 0x40 + 0xF0),
        UInt8.ofNat (c.toNat / 0x40 / 0x40 % 0x40 + 0x80),
        UInt8.ofNat (c.toNat / 0x40 % 0x40 + 0x80), UInt8.ofNat (c.toNat % 0x40 + 0x80)] := by
  have h2 : ¬ c.val.toNat ≤ 0xFFFF := Nat.not_le_of_lt h
  have h0 : ¬ c.val.toNat ≤ 0x7F := by omega
  have h1 : ¬ c.val.toNat ≤ 0x7FF := by omega
  have hmax : c.val.toNat < 0x110000 := by
    rcases char_bounds c with hc | hc
    · exact Nat.lt_trans hc (by decide)
    · exact hc.2
  have hfirst : c.val.toNat / 262144 % 0x08 = c.val.toNat / 0x40 / 0x40 / 0x40 := by omega
  have hsecond : c.val.toNat / 4096 % 0x40 = c.val.toNat / 0x40 / 0x40 % 0x40 := by omega
  simp only [String.utf8EncodeChar, if_neg h0, if_neg h1, if_neg h2, Char.toNat, hfirst, hsecond]

end Utf16
