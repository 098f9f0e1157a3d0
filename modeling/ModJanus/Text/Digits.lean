/-
  ModJanus.Text.Digits

  Natural numbers in decimal, as JSON and as the C library read and print them.

  `integerLib` is a C library whose doubles are the integers below `10 ^ 15`, which
  `%1.15g` prints without a point or an exponent.
-/
import ModJanus.Text.Grammar

namespace ModJanus

/-- The bytes of a number in decimal. -/
def digits (n : Nat) : Bytes := ascii (toString n)

/-- The number that a row of digits stands for. -/
def decimalValue (t : Bytes) : Nat := Nat.ofDigitChars 10 (t.map fun b => Char.ofNat b.toNat) 0

theorem digits_eq (n : Nat) :
    digits n = (Nat.toDigits 10 n).map fun c => UInt8.ofNat c.toNat := by
  rw [digits, ascii, Nat.toString_eq_repr, Nat.toList_repr]

theorem isDigit_ofNat {c : Char} (h : c.isDigit = true) : isDigit (UInt8.ofNat c.toNat) = true := by
  obtain ⟨hlow, hhigh⟩ := Char.isDigit_iff_toNat.mp h
  have hbyte : (UInt8.ofNat c.toNat).toNat = c.toNat :=
    UInt8.toNat_ofNat_of_lt' (Nat.lt_of_le_of_lt hhigh (by decide))
  simp only [isDigit, Bool.and_eq_true, decide_eq_true_eq, UInt8.le_iff_toNat_le, hbyte]
  exact ⟨hlow, hhigh⟩

theorem digits_mem (n : Nat) : digits n ∈ Digits := by
  rw [digits_eq]
  refine ⟨by simp [Nat.toDigits_ne_nil], fun b hb => ?_⟩
  obtain ⟨c, hc, rfl⟩ := List.mem_map.mp hb
  exact isDigit_ofNat (Nat.isDigit_of_mem_toDigits (by decide) (by decide) hc)

/-- Reading what was printed. -/
theorem decimalValue_digits (n : Nat) : decimalValue (digits n) = n := by
  have hback : ((Nat.toDigits 10 n).map fun c => UInt8.ofNat c.toNat).map
      (fun b => Char.ofNat b.toNat) = Nat.toDigits 10 n := by
    rw [List.map_map]
    refine (List.map_congr_left fun c hc => ?_).trans (List.map_id _)
    have hdigit := Nat.isDigit_of_mem_toDigits (by decide) (by decide) hc
    have hhigh := (Char.isDigit_iff_toNat.mp hdigit).2
    have hbyte : (UInt8.ofNat c.toNat).toNat = c.toNat :=
      UInt8.toNat_ofNat_of_lt' (Nat.lt_of_le_of_lt hhigh (by decide))
    show Char.ofNat (UInt8.ofNat c.toNat).toNat = c
    rw [hbyte, Char.ofNat_toNat]
  rw [decimalValue, digits_eq, hback]
  exact Nat.ofDigitChars_ten_toDigits

theorem digits_inj {m n : Nat} (h : digits m = digits n) : m = n := by
  rw [← decimalValue_digits m, h, decimalValue_digits]

theorem digits_length_le {n k : Nat} (hk : 0 < k) (h : n < 10 ^ k) : (digits n).length ≤ k := by
  rw [digits_eq, List.length_map]
  exact (Nat.length_toDigits_le_iff (by decide) hk).mpr h

/-- Only the number zero begins with one. -/
theorem digits_zero (n : Nat) : (digits n).head? = some 0x30 → digits n = [0x30] := by
  induction n using Nat.strongRecOn with
  | ind n ih =>
      intro hhead
      by_cases hlt : n < 10
      · have hone : ∀ n < 10, (digits n).head? = some 0x30 → digits n = [0x30] := by decide +kernel
        exact hone n hlt hhead
      · -- the digits of `n / 10` stand in front of the last one
        have hsplit : digits n = digits (n / 10) ++ [UInt8.ofNat (n % 10).digitChar.toNat] := by
          rw [digits_eq, digits_eq, Nat.toDigits_of_base_le (by decide) (by omega),
            List.map_append, List.map_singleton]
        have hne : digits (n / 10) ≠ [] := (digits_mem (n / 10)).1
        rw [hsplit, List.head?_append_of_ne_nil _ hne] at hhead
        have hten := ih (n / 10) (by omega) hhead
        have hzero : n / 10 = 0 := digits_inj (hten.trans (by decide))
        omega

/-- A number in decimal is a number of JSON. -/
theorem jsonNumber_digits (n : Nat) : JsonNumber [] (digits n) [] [] where
  sign_mem := .inl rfl
  whole_mem := digits_mem n
  whole_zero := digits_zero n
  fraction_mem := .inl rfl
  exponent_mem := .inl rfl

theorem zero_notMem_digits (n : Nat) : 0 ∉ digits n := fun h =>
  absurd ((digits_mem n).2 0 h) (by decide)

/-! ## Integers as doubles -/

/-- Integers below `10 ^ 15`; anything else is printed as an infinity is. -/
def integerLib : CLib Double where
  strtod t := .ofInt (decimalValue t)
  finite
    | .finite (.ofNat n) 0 => n < 10 ^ 15
    | _ => false
  equal a b := a = b
  sprintf _
    | .finite (.ofNat n) 0 => digits n
    | _ => []

theorem integerLib_finite {d : Double} (h : integerLib.finite d = true) :
    ∃ n : Nat, d = .ofInt n ∧ n < 10 ^ 15 := by
  simp only [integerLib] at h
  split at h
  · rename_i n
    exact ⟨n, rfl, of_decide_eq_true h⟩
  · cases h

theorem integerLib_sprintf (precision n : Nat) :
    integerLib.sprintf precision (.ofInt n) = digits n := rfl

theorem integerLib_strtod (n : Nat) : integerLib.strtod (digits n) = .ofInt n :=
  congrArg (fun m : Nat => Double.ofInt m) (decimalValue_digits n)

end ModJanus
