/-
  ModJanus.Lib.Cursor

  A cursor on a list of keys from which entries may be taken while it is in use.

  The cursor remembers the key of the entry it stands on.  To advance it is to look
  the entry up again and to go on to the one behind it, so that a cursor whose entry
  is gone cannot be advanced.  A cursor that stands nowhere yet goes to the first key.
-/
import Mathlib.Data.List.Nodup

namespace Cursor

variable {κ : Type*} [DecidableEq κ] {keys rest : List κ} {k x : κ} {pos : Option κ}

/-! ## Positions -/

/-- The keys behind `k`; `none` when `k` is not there. -/
def after : List κ → κ → Option (List κ)
  | [], _ => none
  | k' :: rest, k => if k' = k then some rest else after rest k

/-- The keys that a cursor has not come to. -/
def ahead (keys : List κ) : Option κ → Option (List κ)
  | none => some keys
  | some k => after keys k

/-- Advance a cursor: the outer `none` says that its entry is gone, the inner one that
    there is no further entry. -/
def next (keys : List κ) (pos : Option κ) : Option (Option κ) := (ahead keys pos).map List.head?

/-- How many advances there can still be. -/
def distance (keys : List κ) (pos : Option κ) : Nat := ((ahead keys pos).getD []).length

theorem after_eq_none_iff : after keys k = none ↔ k ∉ keys := by
  induction keys with
  | nil => simp [after]
  | cons k' rest ih =>
      by_cases hk : k' = k
      · simp [after, hk]
      · have hk' : k ≠ k' := fun h => hk h.symm
        simp [after, hk, hk', ih]

/-- What stands behind a key is a piece of the list, after what stands before the key. -/
theorem after_eq_some (h : after keys k = some rest) : ∃ front, keys = front ++ k :: rest := by
  induction keys with
  | nil => cases h
  | cons k' tail ih =>
      by_cases hk : k' = k
      · subst hk
        rw [after, if_pos rfl] at h
        cases h
        exact ⟨[], rfl⟩
      · rw [after, if_neg hk] at h
        obtain ⟨front, rfl⟩ := ih h
        exact ⟨k' :: front, rfl⟩

theorem after_append {front : List κ} (h : (front ++ k :: rest).Nodup) :
    after (front ++ k :: rest) k = some rest := by
  induction front with
  | nil => simp [after]
  | cons k' front ih =>
      have hne : k' ≠ k := by
        rintro rfl
        simp at h
      rw [List.cons_append, after, if_neg hne]
      exact ih (List.nodup_cons.mp h).2

/-! ## Advancing -/

/-- A cursor that advances to `k` stands before `k`, and the rest is behind `k`. -/
theorem next_eq_some (hnodup : keys.Nodup) (h : next keys pos = some (some k)) :
    ∃ rest, ahead keys pos = some (k :: rest) ∧ after keys k = some rest := by
  obtain ⟨tail, hahead, hhead⟩ := Option.map_eq_some_iff.mp h
  obtain ⟨rest, rfl⟩ : ∃ rest, tail = k :: rest := List.head?_eq_some_iff.mp hhead
  refine ⟨rest, hahead, ?_⟩
  cases pos with
  | none =>
      cases hahead
      simp [after]
  | some k' =>
      obtain ⟨front, rfl⟩ := after_eq_some hahead
      -- `k'` and what is before it are before `k`
      have hsplit : front ++ k' :: k :: rest = (front ++ [k']) ++ k :: rest := by simp
      rw [hsplit] at hnodup ⊢
      exact after_append hnodup

theorem next_mem (h : next keys pos = some (some k)) : k ∈ keys := by
  obtain ⟨tail, hahead, hhead⟩ := Option.map_eq_some_iff.mp h
  have hmem : k ∈ tail := List.mem_of_mem_head? hhead
  cases pos with
  | none =>
      cases hahead
      exact hmem
  | some k' =>
      obtain ⟨front, rfl⟩ := after_eq_some hahead
      simp [hmem]

/-- A cursor on an entry that is gone cannot be advanced, and only such a cursor. -/
theorem next_eq_none_iff : next keys (some k) = none ↔ k ∉ keys := by
  rw [next, Option.map_eq_none_iff]
  exact after_eq_none_iff

/-! ## Taking entries -/

/-- Taking an entry away takes it from what is behind another. -/
theorem after_erase_sublist (hnodup : keys.Nodup) (h : after (keys.erase x) k = some rest) :
    ∃ rest', after keys k = some rest' ∧ rest.Sublist rest' := by
  induction keys with
  | nil => cases h
  | cons k' tail ih =>
      obtain ⟨-, htail⟩ := List.nodup_cons.mp hnodup
      by_cases hx : k' = x
      · -- the entry that goes is the first: the others stand as they did
        subst hx
        rw [List.erase_cons_head] at h
        have hne : k' ≠ k := by
          rintro rfl
          obtain ⟨front, hsplit⟩ := after_eq_some h
          simp [hsplit] at hnodup
        exact ⟨rest, by rw [after, if_neg hne, h], List.Sublist.refl _⟩
      · rw [List.erase_cons_tail (by simpa using hx)] at h
        by_cases hk : k' = k
        · rw [after, if_pos hk] at h
          cases h
          exact ⟨tail, by rw [after, if_pos hk], List.erase_sublist⟩
        · rw [after, if_neg hk] at h
          obtain ⟨rest', hafter, hsub⟩ := ih htail h
          exact ⟨rest', by rw [after, if_neg hk, hafter], hsub⟩

/-- Advancing brings the cursor closer to the end, whatever entry is taken then. -/
theorem distance_erase_lt (hnodup : keys.Nodup) (h : next keys pos = some (some k)) :
    distance (keys.erase x) (some k) < distance keys pos := by
  obtain ⟨rest, hahead, hafter⟩ := next_eq_some hnodup h
  have hpos : distance keys pos = rest.length + 1 := by
    rw [distance, hahead]
    rfl
  rw [hpos, distance, ahead]
  cases herase : after (keys.erase x) k with
  | none => simp
  | some rest' =>
      obtain ⟨rest'', hafter', hsub⟩ := after_erase_sublist hnodup herase
      rw [hafter] at hafter'
      cases hafter'
      have hle := hsub.length_le
      rw [Option.getD_some]
      omega

/-- Advancing brings the cursor closer to the end when no entry is taken. -/
theorem distance_next_lt (hnodup : keys.Nodup) (h : next keys pos = some (some k)) :
    distance keys (some k) < distance keys pos := by
  obtain ⟨rest, hahead, hafter⟩ := next_eq_some hnodup h
  rw [distance, distance, hahead, ahead, hafter]
  exact Nat.lt_succ_self _

end Cursor
