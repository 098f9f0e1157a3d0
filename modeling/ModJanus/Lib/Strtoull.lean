/-
  ModJanus.Lib.Strtoull

  `strtoull` in base ten: blanks, a sign, digits, and the text behind them.

  A number that does not fit is the greatest one that does; a negative one is negated
  modulo the word.  Text without digits is no number, and nothing of it is consumed.
  `Numeral` says which texts are numbers from end to end.
-/
import Mathlib.Algebra.Group.Nat.Defs
import Mathlib.Data.List.TakeDrop
import Mathlib.Data.List.TakeWhile

namespace Strtoull

/-! ## The function -/

/-- `isspace` in the C locale. -/
def isspace (c : Char) : Bool := c = ' ' || ('\t' ≤ c && c ≤ '\r')

/-- The sign of a number, and what follows it. -/
def signOf : List Char → List Char × List Char
  | '-' :: text => (['-'], text)
  | '+' :: text => (['+'], text)
  | text => ([], text)

/-- The value of digits behind a sign, in 64 bits. -/
def valueOf (sign digits : List Char) : UInt64 :=
  let n := Nat.ofDigitChars 10 digits 0
  if 2 ^ 64 ≤ n then UInt64.ofNat (2 ^ 64 - 1)
  else if sign = ['-'] then -UInt64.ofNat n
  else UInt64.ofNat n

/-- `strtoull(text, &end, 10)`: the value, and what `end` points to. -/
def strtoull (text : List Char) : UInt64 × List Char :=
  let (sign, unsigned) := signOf (text.dropWhile isspace)
  match unsigned.takeWhile Char.isDigit with
  | [] => (0, text)
  | digits => (valueOf sign digits, unsigned.dropWhile Char.isDigit)

/-! ## Numerals -/

/-- Blanks, an optional sign, and digits up to the end of the text. -/
structure Numeral (text blanks sign digits : List Char) : Prop where
  text_eq : text = blanks ++ (sign ++ digits)
  isspace_of_mem : ∀ c ∈ blanks, isspace c = true
  sign_mem : sign ∈ [[], ['+'], ['-']]
  isDigit_of_mem : ∀ c ∈ digits, c.isDigit = true
  digits_ne_nil : digits ≠ []

variable {text blanks sign digits : List Char}

theorem isDigit_toNat {c : Char} (h : c.isDigit = true) : 48 ≤ c.toNat ∧ c.toNat ≤ 57 := by
  simp only [Char.isDigit, Bool.and_eq_true, decide_eq_true_eq] at h
  exact ⟨h.1, h.2⟩

theorem isspace_of_isDigit {c : Char} (h : c.isDigit = true) : isspace c = false := by
  obtain ⟨hlow, -⟩ := isDigit_toNat h
  have hblank : c ≠ ' ' := by
    rintro rfl
    exact absurd hlow (by decide)
  have hbelow : ¬ c ≤ '\r' := fun hle => by
    have hnat : c.toNat ≤ 13 := hle
    omega
  simp [isspace, hblank, hbelow]

/-- What the sign and the digits begin with is not skipped. -/
theorem Numeral.dropWhile_isspace (h : Numeral text blanks sign digits) :
    text.dropWhile isspace = sign ++ digits := by
  rw [h.text_eq, List.dropWhile_append_of_pos h.isspace_of_mem]
  obtain ⟨d, ds, hdigits⟩ := List.exists_cons_of_ne_nil h.digits_ne_nil
  have hd : isspace d = false := isspace_of_isDigit (h.isDigit_of_mem d (by simp [hdigits]))
  have hsign := h.sign_mem
  simp only [List.mem_cons, List.not_mem_nil, or_false] at hsign
  rcases hsign with rfl | rfl | rfl
  · rw [List.nil_append, hdigits, List.dropWhile_cons_of_neg (by simp [hd])]
  · rfl
  · rfl

theorem signOf_append (text : List Char) : (signOf text).1 ++ (signOf text).2 = text := by
  unfold signOf
  split <;> rfl

theorem signOf_mem (text : List Char) : (signOf text).1 ∈ [[], ['+'], ['-']] := by
  unfold signOf
  split <;> simp

theorem Numeral.signOf (h : Numeral text blanks sign digits) :
    Strtoull.signOf (sign ++ digits) = (sign, digits) := by
  obtain ⟨d, ds, hdigits⟩ := List.exists_cons_of_ne_nil h.digits_ne_nil
  have hlow := (isDigit_toNat (h.isDigit_of_mem d (by simp [hdigits]))).1
  have hsign := h.sign_mem
  simp only [List.mem_cons, List.not_mem_nil, or_false] at hsign
  rcases hsign with rfl | rfl | rfl
  · -- a digit is no sign
    rw [List.nil_append, hdigits]
    unfold Strtoull.signOf
    split
    · next heq =>
        cases heq
        exact absurd hlow (by decide)
    · next heq =>
        cases heq
        exact absurd hlow (by decide)
    · rfl
  · rfl
  · rfl

/-- A numeral is consumed to its end. -/
theorem strtoull_numeral (h : Numeral text blanks sign digits) :
    strtoull text = (valueOf sign digits, []) := by
  have htake : digits.takeWhile Char.isDigit = digits :=
    List.takeWhile_eq_self_iff.mpr h.isDigit_of_mem
  have hdrop : digits.dropWhile Char.isDigit = [] :=
    List.dropWhile_eq_nil_iff.mpr h.isDigit_of_mem
  obtain ⟨d, ds, hdigits⟩ := List.exists_cons_of_ne_nil h.digits_ne_nil
  rw [strtoull, h.dropWhile_isspace, h.signOf]
  simp only [htake, hdrop]
  rw [hdigits]

/-- Text that is consumed to its end is a numeral. -/
theorem numeral_of_strtoull (h : (strtoull text).2 = []) (hne : text ≠ []) :
    ∃ blanks sign digits, Numeral text blanks sign digits := by
  have hsplit := signOf_append (text.dropWhile isspace)
  unfold strtoull at h
  simp only at h
  split at h
  · exact absurd h hne
  · next hdigits =>
      have hall := List.dropWhile_eq_nil_iff.mp h
      refine ⟨text.takeWhile isspace, (Strtoull.signOf (text.dropWhile isspace)).1,
        (Strtoull.signOf (text.dropWhile isspace)).2, ?_, ?_, signOf_mem _, hall, ?_⟩
      · rw [hsplit, List.takeWhile_append_dropWhile]
      · exact fun c hc => List.mem_takeWhile_imp hc
      · intro hnil
        rw [hnil] at hdigits
        exact hdigits rfl

/-! ## Zero -/

theorem digit_eq_zero_iff {d : Char} (h : d.isDigit = true) :
    d = '0' ↔ d.toNat - '0'.toNat = 0 := by
  have hzero : '0'.toNat = 48 := rfl
  have hd := isDigit_toNat h
  constructor
  · rintro rfl
    rfl
  · intro hsub
    apply Char.toNat_inj.mp
    omega

/-- Digits have the value 0 when all of them are 0. -/
theorem ofDigitChars_eq_zero_iff (h : ∀ c ∈ digits, c.isDigit = true) :
    Nat.ofDigitChars 10 digits 0 = 0 ↔ ∀ c ∈ digits, c = '0' := by
  induction digits with
  | nil => simp
  | cons d digits ih =>
      have htail := ih fun c hc => h c (List.mem_cons_of_mem d hc)
      rw [Nat.ofDigitChars_cons, Nat.ofDigitChars_eq_ofDigitChars_zero, List.forall_mem_cons,
        ← htail, digit_eq_zero_iff (h d List.mem_cons_self)]
      -- the first digit counts with a power of ten, which is not 0
      have hpos : 0 < 10 ^ digits.length := Nat.pow_pos (by decide)
      rw [Nat.add_eq_zero_iff, Nat.mul_eq_zero]
      simp only [Nat.mul_zero, Nat.zero_add]
      constructor
      · rintro ⟨hpow | hhead, hrest⟩
        · omega
        · exact ⟨hhead, hrest⟩
      · rintro ⟨hhead, hrest⟩
        exact ⟨.inr hhead, hrest⟩

/-- Neither the bound of the word nor a sign makes a number 0. -/
theorem valueOf_eq_zero_iff (h : ∀ c ∈ digits, c.isDigit = true) :
    valueOf sign digits = 0 ↔ ∀ c ∈ digits, c = '0' := by
  rw [← ofDigitChars_eq_zero_iff h]
  unfold valueOf
  generalize Nat.ofDigitChars 10 digits 0 = n
  simp only
  have hword : ∀ n < 2 ^ 64, (UInt64.ofNat n = 0 ↔ n = 0) := by
    intro n hn
    rw [← UInt64.toNat_inj, UInt64.toNat_ofNat_of_lt' hn]
    rfl
  split
  · -- a number that does not fit is the greatest one
    next hle =>
      have hmax : UInt64.ofNat (2 ^ 64 - 1) ≠ 0 := by decide
      constructor
      · intro heq
        exact absurd heq hmax
      · rintro rfl
        omega
  · next hlt =>
      split
      · have hneg : -UInt64.ofNat n = 0 ↔ UInt64.ofNat n = 0 := by grind
        rw [hneg]
        exact hword n (by omega)
      · exact hword n (by omega)

end Strtoull
