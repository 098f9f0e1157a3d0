/-
  ModJanus.Lib.LastWrite

  A list of writes to a record, folded from the left.

  A field that each element overwrites or leaves alone has, after the fold, what the last
  element that wrote to it wrote: `fold_or` for a field that may be empty, `fold_getD` for
  one that starts with a default.  A field that collects a bounded number of values, and
  that some elements clear, has the first values after the last clearing (`fold_collect`).
-/
import Mathlib.Data.List.DropRight

namespace LastWrite

variable {α β σ : Type*}

/-- What the last element that writes, writes. -/
def last (write : α → Option β) (as : List α) : Option β := (as.filterMap write).getLast?

theorem last_concat (write : α → Option β) (as : List α) (a : α) :
    last write (as ++ [a]) = (write a).or (last write as) := by
  unfold last
  rw [List.filterMap_append, List.getLast?_append]
  cases h : write a with
  | none => simp [h]
  | some b => simp [h]

theorem last_isSome (write : α → Option β) (as : List α) :
    (last write as).isSome = as.any fun a => (write a).isSome := by
  induction as using List.reverseRecOn with
  | nil => rfl
  | append_singleton as a ih =>
      rw [last_concat, Option.isSome_or, ih, List.any_append, List.any_cons, List.any_nil,
        Bool.or_false, Bool.or_comm]

variable {step : σ → α → σ} {s : σ}

theorem fold_or (field : σ → Option β) (write : α → Option β) (h0 : field s = none)
    (hstep : ∀ s a, field (step s a) = (write a).or (field s)) (as : List α) :
    field (as.foldl step s) = last write as := by
  induction as using List.reverseRecOn with
  | nil => exact h0
  | append_singleton as a ih =>
      rw [List.foldl_append, List.foldl_cons, List.foldl_nil, hstep, ih, last_concat]

theorem fold_getD (field : σ → β) (write : α → Option β)
    (hstep : ∀ s a, field (step s a) = (write a).getD (field s)) (as : List α) :
    field (as.foldl step s) = (last write as).getD (field s) := by
  induction as using List.reverseRecOn with
  | nil => rfl
  | append_singleton as a ih =>
      rw [List.foldl_append, List.foldl_cons, List.foldl_nil, hstep, ih, last_concat]
      cases write a with
      | none => rfl
      | some b => rfl

/-- What a collecting field does with an element. -/
def collect (bound : Nat) (clears : α → Bool) (value : α → Option β) (kept : List β) (a : α) :
    List β :=
  if clears a then []
  else
    match value a with
    | some b => if kept.length < bound then kept ++ [b] else kept
    | none => kept

theorem length_collect {bound : Nat} {clears : α → Bool} {value : α → Option β} {kept : List β}
    {a : α} (h : kept.length ≤ bound) : (collect bound clears value kept a).length ≤ bound := by
  unfold collect
  split
  · exact Nat.zero_le _
  · split
    · split
      · next hroom =>
          rw [List.length_append]
          exact hroom
      · exact h
    · exact h

/-- The first values after the last element that clears the field. -/
def collected (bound : Nat) (clears : α → Bool) (value : α → Option β) (as : List α) : List β :=
  ((as.rtakeWhile fun a => !clears a).filterMap value).take bound

theorem collected_concat (bound : Nat) (clears : α → Bool) (value : α → Option β) (as : List α)
    (a : α) : collected bound clears value (as ++ [a]) =
      collect bound clears value (collected bound clears value as) a := by
  unfold collected collect
  cases hclears : clears a with
  | true =>
      rw [List.rtakeWhile_concat_neg _ _ _ (by simp [hclears]), if_pos rfl,
        List.filterMap_nil, List.take_nil]
  | false =>
      rw [List.rtakeWhile_concat_pos _ _ _ (by simp [hclears]), if_neg Bool.false_ne_true,
        List.filterMap_append]
      generalize (as.rtakeWhile fun a => !clears a).filterMap value = values
      cases hvalue : value a with
      | none => simp [hvalue]
      | some b =>
          have hone : [a].filterMap value = [b] := by simp [hvalue]
          rw [hone, List.take_append, List.length_take]
          dsimp only
          split
          · next hroom =>
              rw [List.take_of_length_le (by
                rw [List.length_singleton]
                omega : [b].length ≤ bound - values.length)]
          · next hfull =>
              have hzero : bound - values.length = 0 := by omega
              rw [hzero, List.take_zero, List.append_nil]

theorem fold_collect (field : σ → List β) {bound : Nat} {clears : α → Bool}
    {value : α → Option β} (h0 : field s = [])
    (hstep : ∀ s a, field (step s a) = collect bound clears value (field s) a) (as : List α) :
    field (as.foldl step s) = collected bound clears value as := by
  induction as using List.reverseRecOn with
  | nil => simpa [collected] using h0
  | append_singleton as a ih =>
      rw [List.foldl_append, List.foldl_cons, List.foldl_nil, hstep, ih, collected_concat]

end LastWrite
