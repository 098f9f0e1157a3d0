/-
  ModJanus.Lib.Census

  Counting the members of a list while one of them is replaced.

  The parties of a system (threads, calls, sessions) stand in a list, and a step
  replaces one of them.  A counter of those with a property then changes by what the
  replaced one and its replacement contribute.  The rule is stated without
  subtraction, for `omega`.
-/
import Mathlib.Data.List.Basic

namespace Census

variable {α : Type*}

/-- What a member contributes to a count. -/
def weight (p : α → Bool) (a : α) : Nat := if p a then 1 else 0

@[simp] theorem weight_pos {p : α → Bool} {a : α} (h : p a = true) : weight p a = 1 := by
  simp [weight, h]

@[simp] theorem weight_neg {p : α → Bool} {a : α} (h : p a = false) : weight p a = 0 := by
  simp [weight, h]

/-- A member that has the property is counted. -/
theorem weight_le_countP {p : α → Bool} {l : List α} {i : Nat} {a : α} (h : l[i]? = some a) :
    weight p a ≤ l.countP p := by
  cases hp : p a with
  | false => simp [weight_neg hp]
  | true =>
      have hmem : a ∈ l := List.mem_of_getElem? h
      have hpos : 0 < l.countP p := List.countP_pos_iff.mpr ⟨a, hmem, hp⟩
      rw [weight_pos hp]
      omega

/-- Replacing a member changes the count by what the two contribute. -/
theorem countP_set {p : α → Bool} {l : List α} {i : Nat} {a : α} (h : l[i]? = some a) (b : α) :
    (l.set i b).countP p + weight p a = l.countP p + weight p b := by
  obtain ⟨hi, ha⟩ := List.getElem?_eq_some_iff.mp h
  have hset := List.countP_set (p := p) (a := b) hi
  -- the library's count subtracts what `a` contributes; it is there to be subtracted
  have hle := weight_le_countP (p := p) h
  rw [ha] at hset
  unfold weight at hle ⊢
  omega

/-- A new member is counted when it has the property. -/
theorem countP_concat (p : α → Bool) (l : List α) (a : α) :
    (l ++ [a]).countP p = l.countP p + weight p a := by
  simp [List.countP_append, List.countP_singleton, weight]

/-- Two pairs of properties that every member has equally often are counted equally
    often. -/
theorem countP_balance {p q p' q' : α → Bool} {l : List α}
    (h : ∀ a ∈ l, weight p a + weight q a = weight p' a + weight q' a) :
    l.countP p + l.countP q = l.countP p' + l.countP q' := by
  induction l with
  | nil => rfl
  | cons a l ih =>
      have hhead := h a List.mem_cons_self
      have htail := ih fun b hb => h b (List.mem_cons_of_mem a hb)
      simp only [List.countP_cons]
      unfold weight at hhead
      omega

end Census
