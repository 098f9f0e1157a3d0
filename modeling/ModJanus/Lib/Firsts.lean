/-
  ModJanus.Lib.Firsts

  The first element of each key.

  `firsts key bound kept l` goes through `l` and adds to `kept` each element whose key is
  not there yet, until `kept` has `bound` elements.  As long as there are no more than
  `bound` keys, what it returns is, for each key, the first element that has it.
-/
import Mathlib.Data.Finset.Card
import Mathlib.Data.Finset.Dedup
import Mathlib.Data.List.TakeWhile

namespace Firsts

variable {α κ : Type*} [DecidableEq κ] (key : α → κ) (bound : Nat)

/-- Some element of the list has the key. -/
def hasKey (l : List α) (k : κ) : Bool := l.any fun a => key a = k

def firsts : List α → List α → List α
  | kept, [] => kept
  | kept, a :: rest =>
      if kept.length < bound then
        if hasKey key kept (key a) then firsts kept rest else firsts (kept ++ [a]) rest
      else kept

variable {key}

theorem hasKey_iff {l : List α} {k : κ} : hasKey key l k = true ↔ k ∈ l.map key := by
  simp [hasKey]

theorem nodup_append_new {kept : List α} {a : α} (h : (kept.map key).Nodup)
    (hnew : ¬ hasKey key kept (key a) = true) : ((kept ++ [a]).map key).Nodup := by
  rw [List.map_append, List.nodup_append]
  refine ⟨h, List.nodup_singleton _, ?_⟩
  rintro k hk last hlast rfl
  rw [List.map_singleton, List.mem_singleton] at hlast
  exact hnew (hasKey_iff.mpr (hlast ▸ hk))

/-- Nothing is added to a full list. -/
theorem firsts_full {kept : List α} (h : ¬ kept.length < bound) (l : List α) :
    firsts key bound kept l = kept := by
  cases l with
  | nil => rfl
  | cons a rest =>
      unfold firsts
      rw [if_neg h]

/-- What has been kept stays. -/
theorem mem_firsts_of_mem {kept l : List α} {a : α} (h : a ∈ kept) :
    a ∈ firsts key bound kept l := by
  induction l generalizing kept with
  | nil => exact h
  | cons b rest ih =>
      unfold firsts
      split
      · split
        · exact ih h
        · exact ih (List.mem_append_left _ h)
      · exact h

/-- No key occurs twice. -/
theorem firsts_nodup {kept l : List α} (h : (kept.map key).Nodup) :
    ((firsts key bound kept l).map key).Nodup := by
  induction l generalizing kept with
  | nil => exact h
  | cons b rest ih =>
      unfold firsts
      split
      · split
        · exact ih h
        · next hnew => exact ih (nodup_append_new h hnew)
      · exact h

/-- What is kept is the first element of its key. -/
theorem find?_of_mem_firsts {kept l : List α} {a : α} (h : a ∈ firsts key bound kept l) :
    a ∈ kept ∨ key a ∉ kept.map key ∧ l.find? (fun b => key b = key a) = some a := by
  induction l generalizing kept with
  | nil => exact .inl h
  | cons b rest ih =>
      unfold firsts at h
      split at h
      · split at h
        · next hold =>
            refine (ih h).imp_right fun hrest => ⟨hrest.1, ?_⟩
            -- the key of `b` has been kept, and that of `a` has not
            have hne : key b ≠ key a := fun heq => hrest.1 (heq ▸ hasKey_iff.mp hold)
            rw [List.find?_cons_of_neg (by simpa using hne)]
            exact hrest.2
        · next hnew =>
            rcases ih h with hmem | ⟨hkept, hfind⟩
            · rcases List.mem_append.mp hmem with hold | hlast
              · exact .inl hold
              · rw [List.mem_singleton.mp hlast]
                refine .inr ⟨fun hk => hnew (hasKey_iff.mpr hk), ?_⟩
                exact List.find?_cons_of_pos (by simp)
            · rw [List.map_append, List.mem_append, not_or] at hkept
              have hne : key b ≠ key a := fun heq => hkept.2 (by simp [heq])
              refine .inr ⟨hkept.1, ?_⟩
              rw [List.find?_cons_of_neg (by simpa using hne)]
              exact hfind
      · exact .inl h

/-- With no more than `bound` keys, the first element of each key is kept. -/
theorem mem_firsts {kept l : List α} {k : κ} {a : α} (hnodup : (kept.map key).Nodup)
    (hcard : ((kept ++ l).map key).toFinset.card ≤ bound) (hk : k ∉ kept.map key)
    (hfind : l.find? (fun b => key b = k) = some a) : a ∈ firsts key bound kept l := by
  induction l generalizing kept with
  | nil => cases hfind
  | cons b rest ih =>
      have hka : k ∈ (b :: rest).map key := by
        have hmem := List.mem_of_find?_eq_some hfind
        have hkey : key a = k := by simpa using List.find?_some hfind
        exact hkey ▸ List.mem_map_of_mem hmem
      have hroom : kept.length < bound := by
        -- the keys that have been kept, and `k`
        have hsub : insert k (kept.map key).toFinset ⊆ ((kept ++ b :: rest).map key).toFinset := by
          intro k' hk'
          rw [Finset.mem_insert, List.mem_toFinset] at hk'
          rw [List.mem_toFinset, List.map_append, List.mem_append]
          rcases hk' with rfl | hold
          · exact .inr hka
          · exact .inl hold
        have hle := Finset.card_le_card hsub
        rw [Finset.card_insert_of_notMem (by simpa using hk), List.toFinset_card_of_nodup hnodup,
          List.length_map] at hle
        omega
      unfold firsts
      rw [if_pos hroom]
      by_cases hb : key b = k
      · have hba : b = a := by
          rw [List.find?_cons_of_pos (by simpa using hb)] at hfind
          exact Option.some.inj hfind
        have hnew : ¬ hasKey key kept (key b) = true := by
          rw [hasKey_iff, hb]
          exact hk
        rw [if_neg hnew]
        exact mem_firsts_of_mem bound (hba ▸ List.mem_append_right _ (List.mem_singleton_self _))
      · rw [List.find?_cons_of_neg (by simpa using hb)] at hfind
        split
        · next hold =>
            apply ih hnodup ?_ hk hfind
            refine Nat.le_trans (Finset.card_le_card ?_) hcard
            intro k' hk'
            simp only [List.map_append, List.map_cons, List.mem_toFinset, List.mem_append,
              List.mem_cons] at hk' ⊢
            exact hk'.imp_right .inr
        · next hnew =>
            apply ih (nodup_append_new hnodup hnew)
            · rw [List.append_assoc]
              exact hcard
            · rw [List.map_append, List.mem_append, not_or]
              exact ⟨hk, by simpa using fun heq => hb heq.symm⟩
            · exact hfind

/-- A key that the list has is kept if and only if fewer than `bound` keys come before its
    first element. -/
theorem mem_firsts_iff {kept l : List α} {k : κ} (hnodup : (kept.map key).Nodup)
    (hk : k ∉ kept.map key) (hmem : k ∈ l.map key) :
    k ∈ (firsts key bound kept l).map key ↔
      ((kept.map key ++ (l.map key).takeWhile (· ≠ k)).toFinset).card < bound := by
  induction l generalizing kept with
  | nil => cases hmem
  | cons b rest ih =>
      have hlength : (kept.map key).toFinset.card = kept.length := by
        rw [List.toFinset_card_of_nodup hnodup, List.length_map]
      rw [List.map_cons]
      by_cases hroom : kept.length < bound
      · unfold firsts
        rw [if_pos hroom]
        by_cases hb : key b = k
        · -- this is its first element
          have hnew : ¬ hasKey key kept (key b) = true := by
            rw [hasKey_iff, hb]
            exact hk
          rw [if_neg hnew, List.takeWhile_cons_of_neg (by simpa using hb), List.append_nil, hlength]
          refine iff_of_true ?_ hroom
          rw [← hb]
          exact List.mem_map_of_mem
            (mem_firsts_of_mem bound (List.mem_append_right _ (List.mem_singleton_self _)))
        · have hrest : k ∈ rest.map key := by
            rw [List.map_cons, List.mem_cons] at hmem
            exact hmem.resolve_left (Ne.symm hb)
          rw [List.takeWhile_cons_of_pos (by simpa using hb)]
          by_cases hold : hasKey key kept (key b) = true
          · rw [if_pos hold, ih hnodup hk hrest]
            have hsame : (kept.map key ++ key b :: (rest.map key).takeWhile (· ≠ k)).toFinset =
                (kept.map key ++ (rest.map key).takeWhile (· ≠ k)).toFinset := by
              have hin := hasKey_iff.mp hold
              ext k'
              simp only [List.mem_toFinset, List.mem_append, List.mem_cons]
              constructor
              · rintro (h | rfl | h)
                · exact .inl h
                · exact .inl hin
                · exact .inr h
              · rintro (h | h)
                · exact .inl h
                · exact .inr (.inr h)
            rw [hsame]
          · have hk' : k ∉ (kept ++ [b]).map key := by
              rw [List.map_append, List.mem_append, not_or]
              exact ⟨hk, by simpa using Ne.symm hb⟩
            rw [if_neg hold, ih (nodup_append_new hnodup hold) hk' hrest, List.map_append,
              List.append_assoc]
            rfl
      · -- the list is full
        rw [firsts_full bound hroom]
        refine iff_of_false hk ?_
        have hsub : (kept.map key).toFinset ⊆
            (kept.map key ++ (key b :: rest.map key).takeWhile (· ≠ k)).toFinset := by
          intro k' hk'
          rw [List.mem_toFinset] at hk' ⊢
          exact List.mem_append_left _ hk'
        have hle := Finset.card_le_card hsub
        omega

/-- What `dropWhile` leaves begins with an element that stopped it. -/
theorem dropWhile_head {β : Type*} {p : β → Bool} {l rest : List β} {b : β}
    (h : l.dropWhile p = b :: rest) : p b = false := by
  have hstop := List.head_dropWhile_not p (l := l) (by rw [h]; exact List.cons_ne_nil b rest)
  simpa [h] using hstop

/-- A list is cut in front of an element of it. -/
theorem exists_takeWhile_append {β : Type*} [DecidableEq β] {l : List β} {a : β} (ha : a ∈ l) :
    ∃ after, l = l.takeWhile (· ≠ a) ++ a :: after := by
  have happend := List.takeWhile_append_dropWhile (p := fun b => decide (b ≠ a)) (l := l)
  cases hdrop : l.dropWhile (· ≠ a) with
  | nil =>
      rw [hdrop, List.append_nil] at happend
      have hne := List.mem_takeWhile_imp (happend ▸ ha)
      simp at hne
  | cons b after =>
      have hb : b = a := by simpa using dropWhile_head hdrop
      rw [hdrop, hb] at happend
      exact ⟨after, happend.symm⟩

/-- An element is among the first `n` that pass a test if it passes and fewer than `n` others
    do before it. -/
theorem mem_take_filter_iff {β : Type*} [DecidableEq β] {l : List β} {p : β → Bool} {n : Nat}
    {a : β} (ha : a ∈ l) :
    a ∈ (l.filter p).take n ↔
      p a = true ∧ ((l.takeWhile (· ≠ a)).filter p).length < n := by
  have hnot : a ∉ (l.takeWhile (· ≠ a)).filter p := by
    intro hmem
    have hne := List.mem_takeWhile_imp (List.mem_of_mem_filter hmem)
    simp at hne
  obtain ⟨after, hsplit⟩ := exists_takeWhile_append ha
  by_cases hp : p a = true
  · have hfilter : l.filter p = (l.takeWhile (· ≠ a)).filter p ++ a :: after.filter p := by
      conv_lhs => rw [hsplit]
      rw [List.filter_append, List.filter_cons_of_pos hp]
    rw [hfilter, List.take_append]
    -- it is the first of what is left when those before it have been taken
    constructor
    · intro hmem
      refine ⟨hp, ?_⟩
      rcases List.mem_append.mp hmem with hbefore | hafter
      · exact absurd (List.mem_of_mem_take hbefore) hnot
      · by_contra hfull
        rw [Nat.sub_eq_zero_of_le (by omega), List.take_zero] at hafter
        cases hafter
    · rintro ⟨-, hroom⟩
      obtain ⟨m, hm⟩ : ∃ m, n - ((l.takeWhile (· ≠ a)).filter p).length = m + 1 :=
        ⟨n - ((l.takeWhile (· ≠ a)).filter p).length - 1, by omega⟩
      rw [hm, List.take_succ_cons]
      exact List.mem_append_right _ List.mem_cons_self
  · refine iff_of_false ?_ (fun h => hp h.1)
    intro hmem
    exact hp (List.mem_filter.mp (List.mem_of_mem_take hmem)).2

end Firsts
