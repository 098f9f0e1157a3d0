/-
  ModJanus.Lib.Separated

  Lists in a text: elements between blanks, a separator between two of them, and a
  closing character behind the last one (`[a, b, c]` without what opens it).

  `Texts` says which texts are the lists of given elements, `list` reads one.  A reader
  of elements takes an element off the front of a text; what it does with the text
  behind may depend on how that begins, so it is asked to be right only in front of
  blanks, the separator and the closing character.

  `list_of_texts` and `texts_of_list` are the two directions; `list_mono` says that a
  reader that accepts more gives a list that accepts more.
-/
import Mathlib.Computability.Language
import Mathlib.Data.List.TakeWhile

namespace Separated

variable {α β : Type*}

/-- Takes a value off the front of a text and gives what remains. -/
abbrev Reader (α β : Type*) := List α → Option (β × List α)

/-- Texts of blanks. -/
def Blanks (blank : α → Bool) : Language α := {w | ∀ c ∈ w, blank c = true}

/-- The lists of elements from the given languages, blanks around each of them. -/
def Texts (blank : α → Bool) (sep : α) : List (Language α) → Language α
  | [] => Blanks blank
  | [l] => Blanks blank * l * Blanks blank
  | l :: ls => Blanks blank * l * Blanks blank * {[sep]} * Texts blank sep ls

section Reading

variable [DecidableEq α]

/-- Elements up to the closing character; every separator costs one unit of fuel. -/
def loop (element : Reader α β) (blank : α → Bool) (sep close : α) :
    Nat → Reader α (List β)
  | 0, _ => none
  | fuel + 1, text =>
      match element (text.dropWhile blank) with
      | none => none
      | some (b, rest) =>
          match rest.dropWhile blank with
          | [] => none
          | c :: rest =>
              if c = sep then
                (loop element blank sep close fuel rest).map fun (bs, rest) => (b :: bs, rest)
              else if c = close then some ([b], rest)
              else none

/-- The elements up to the closing character, which may come at once.  A text has no
    more separators than characters. -/
def list (element : Reader α β) (blank : α → Bool) (sep close : α) : Reader α (List β) :=
  fun text =>
    match text.dropWhile blank with
    | [] => none
    | c :: rest =>
        if c = close then some ([], rest)
        else loop element blank sep close text.length text

end Reading

/-! ## Texts -/

variable {blank : α → Bool} {sep close : α} {L M : β → Language α} {b : β} {bs : List β}
  {w text rest : List α}

theorem nil_mem_blanks (blank : α → Bool) : [] ∈ Blanks blank := fun _ h => nomatch h

theorem mem_singleton {x y : List α} : x ∈ ({y} : Language α) ↔ x = y := Iff.rfl

theorem mem_texts_singleton {l : Language α} :
    text ∈ Texts blank sep [l] ↔
      ∃ w ∈ Blanks blank, ∃ t ∈ l, ∃ w' ∈ Blanks blank, text = w ++ (t ++ w') := by
  simp only [Texts, Language.mem_mul]
  constructor
  · rintro ⟨_, ⟨w, hw, t, ht, rfl⟩, w', hw', rfl⟩
    exact ⟨w, hw, t, ht, w', hw', by simp⟩
  · rintro ⟨w, hw, t, ht, w', hw', rfl⟩
    exact ⟨w ++ t, ⟨w, hw, t, ht, rfl⟩, w', hw', by simp⟩

theorem mem_texts_cons_cons {l l' : Language α} {ls : List (Language α)} :
    text ∈ Texts blank sep (l :: l' :: ls) ↔
      ∃ w ∈ Blanks blank, ∃ t ∈ l, ∃ w' ∈ Blanks blank,
        ∃ more ∈ Texts blank sep (l' :: ls), text = w ++ (t ++ (w' ++ sep :: more)) := by
  simp only [Texts.eq_3 blank sep l (l' :: ls) (by simp), Language.mem_mul, mem_singleton]
  constructor
  · rintro ⟨_, ⟨_, ⟨_, ⟨w, hw, t, ht, rfl⟩, w', hw', rfl⟩, _, rfl, rfl⟩, more, hmore, rfl⟩
    exact ⟨w, hw, t, ht, w', hw', more, hmore, by simp⟩
  · rintro ⟨w, hw, t, ht, w', hw', more, hmore, rfl⟩
    exact ⟨w ++ t ++ w' ++ [sep], ⟨w ++ t ++ w', ⟨w ++ t, ⟨w, hw, t, ht, rfl⟩, w', hw', rfl⟩,
      [sep], rfl, rfl⟩, more, hmore, by simp⟩

/-- A grammar with fewer blanks and fewer elements has fewer lists. -/
theorem texts_mono {blank' : α → Bool} (hblank : ∀ c, blank c = true → blank' c = true)
    (hL : ∀ b ∈ bs, ∀ t ∈ L b, t ∈ M b) (htext : text ∈ Texts blank sep (bs.map L)) :
    text ∈ Texts blank' sep (bs.map M) := by
  have hblanks : ∀ w ∈ Blanks blank, w ∈ Blanks blank' := fun w hw c hc => hblank c (hw c hc)
  induction bs generalizing text with
  | nil => exact hblanks text htext
  | cons b bs ih =>
      cases bs with
      | nil =>
          obtain ⟨w, hw, t, ht, w', hw', rfl⟩ := mem_texts_singleton.mp htext
          exact mem_texts_singleton.mpr
            ⟨w, hblanks w hw, t, hL b (by simp) t ht, w', hblanks w' hw', rfl⟩
      | cons b' bs =>
          obtain ⟨w, hw, t, ht, w', hw', more, hmore, rfl⟩ := mem_texts_cons_cons.mp htext
          have hmore' := ih (fun b hb => hL b (by simp [hb])) hmore
          exact mem_texts_cons_cons.mpr
            ⟨w, hblanks w hw, t, hL b (by simp) t ht, w', hblanks w' hw', more, hmore', rfl⟩

/-- Every element of a list has a text. -/
theorem exists_mem_of_texts (htext : text ∈ Texts blank sep (bs.map L)) (hb : b ∈ bs) :
    ∃ t, t ∈ L b := by
  induction bs generalizing text with
  | nil => simp at hb
  | cons a bs ih =>
      cases bs with
      | nil =>
          obtain ⟨-, -, t, ht, -⟩ := mem_texts_singleton.mp htext
          obtain rfl : b = a := by simpa using hb
          exact ⟨t, ht⟩
      | cons b' bs =>
          obtain ⟨-, -, t, ht, -, -, more, hmore, -⟩ := mem_texts_cons_cons.mp htext
          rcases List.mem_cons.mp hb with rfl | hb
          · exact ⟨t, ht⟩
          · exact ih hmore hb

/-! ## Reading a list -/

variable {element element' : Reader α β} {stop : α → Prop}

theorem dropWhile_blanks_append (hw : w ∈ Blanks blank) (rest : List α) :
    (w ++ rest).dropWhile blank = rest.dropWhile blank :=
  List.dropWhile_append_of_pos hw

theorem exists_blanks (blank : α → Bool) (text : List α) :
    ∃ w ∈ Blanks blank, text = w ++ text.dropWhile blank :=
  ⟨text.takeWhile blank, fun _ hc => List.mem_takeWhile_imp hc,
    (List.takeWhile_append_dropWhile).symm⟩

/-- What a text begins with, if anything, satisfies `p`. -/
def StartsWith (p : α → Prop) (text : List α) : Prop := ∀ c ∈ text.head?, p c

/-- The reader is right about an element in front of every text that begins with a
    character that stops it, and no element begins with a blank or is empty. -/
structure Reads (element : Reader α β) (blank : α → Bool) (stop : α → Prop)
    (L : β → Language α) (b : β) : Prop where
  ne_nil : ∀ t ∈ L b, t ≠ []
  not_blank : ∀ t ∈ L b, StartsWith (fun c => blank c = false) t
  read : ∀ t ∈ L b, ∀ rest, StartsWith stop rest → element (t ++ rest) = some (b, rest)

theorem Reads.dropWhile (h : Reads element blank stop L b) {t : List α} (ht : t ∈ L b)
    (rest : List α) : (t ++ rest).dropWhile blank = t ++ rest := by
  obtain ⟨c, cs, rfl⟩ := List.exists_cons_of_ne_nil (h.ne_nil t ht)
  have hc : blank c = false := h.not_blank _ ht c (by simp)
  rw [List.cons_append, List.dropWhile_cons_of_neg (by simp [hc])]

/-- Blanks and a character that stops a reader stop it. -/
theorem startsWith_blanks (hblank : ∀ c, blank c = true → stop c) {c : α} (hc : stop c)
    (hw : w ∈ Blanks blank) (rest : List α) : StartsWith stop (w ++ c :: rest) := by
  cases w with
  | nil => exact fun d hd => by simpa using (show d = c by simpa using hd.symm) ▸ hc
  | cons d w => exact fun e he => (show e = d by simpa using he.symm) ▸ hblank d (hw d (by simp))

variable [DecidableEq α]

theorem loop_of_texts (hblank : ∀ c, blank c = true → stop c) (hsep : stop sep)
    (hclose : stop close) (hsepBlank : blank sep = false) (hcloseBlank : blank close = false)
    (hne : close ≠ sep) (hbs : bs ≠ []) (hread : ∀ b ∈ bs, Reads element blank stop L b)
    (htext : text ∈ Texts blank sep (bs.map L)) (fuel : Nat) (hfuel : text.length ≤ fuel)
    (rest : List α) :
    loop element blank sep close fuel (text ++ close :: rest) = some (bs, rest) := by
  induction bs generalizing text fuel with
  | nil => exact absurd rfl hbs
  | cons b bs ih =>
      have hb := hread b (by simp)
      cases bs with
      | nil =>
          obtain ⟨w, hw, t, ht, w', hw', rfl⟩ := mem_texts_singleton.mp htext
          have ht0 := List.length_pos_of_ne_nil (hb.ne_nil t ht)
          simp only [List.length_append] at hfuel
          obtain ⟨fuel, rfl⟩ : ∃ m, fuel = m + 1 := ⟨fuel - 1, by omega⟩
          have hstop := startsWith_blanks hblank hclose hw' rest
          rw [loop, List.append_assoc, dropWhile_blanks_append hw, List.append_assoc,
            hb.dropWhile ht, hb.read t ht _ hstop]
          simp only [dropWhile_blanks_append hw', List.dropWhile_cons_of_neg, hcloseBlank,
            Bool.false_eq_true, not_false_eq_true, if_neg hne, if_true]
      | cons b' bs =>
          obtain ⟨w, hw, t, ht, w', hw', more, hmore, rfl⟩ := mem_texts_cons_cons.mp htext
          simp only [List.length_append, List.length_cons] at hfuel
          obtain ⟨fuel, rfl⟩ : ∃ m, fuel = m + 1 := ⟨fuel - 1, by omega⟩
          have hstop := startsWith_blanks hblank hsep hw' (more ++ close :: rest)
          have hrest := ih (by simp) (fun b hb => hread b (by simp [hb])) hmore
            fuel (by omega)
          rw [loop, List.append_assoc, dropWhile_blanks_append hw, List.append_assoc,
            List.append_assoc, List.cons_append, hb.dropWhile ht, hb.read t ht _ hstop]
          simp only [dropWhile_blanks_append hw', List.dropWhile_cons_of_neg, hsepBlank,
            Bool.false_eq_true, not_false_eq_true, if_true, hrest, Option.map_some]

/-- A list of elements that the reader is right about is read as these elements. -/
theorem list_of_texts (hblank : ∀ c, blank c = true → stop c) (hsep : stop sep)
    (hclose : stop close) (hsepBlank : blank sep = false) (hcloseBlank : blank close = false)
    (hne : close ≠ sep) (hread : ∀ b ∈ bs, Reads element blank stop L b)
    (hstart : ∀ b ∈ bs, ∀ t ∈ L b, StartsWith (· ≠ close) t)
    (htext : text ∈ Texts blank sep (bs.map L)) (rest : List α) :
    list element blank sep close (text ++ close :: rest) = some (bs, rest) := by
  cases bs with
  | nil =>
      have hw : text ∈ Blanks blank := htext
      simp only [list, dropWhile_blanks_append hw, List.dropWhile_cons_of_neg, hcloseBlank,
        Bool.false_eq_true, not_false_eq_true, if_true]
  | cons b bs =>
      -- the first element begins with something else than the closing character
      have hfirst : ∃ w ∈ Blanks blank, ∃ t ∈ L b, ∃ more, text = w ++ (t ++ more) := by
        cases bs with
        | nil =>
            obtain ⟨w, hw, t, ht, w', -, rfl⟩ := mem_texts_singleton.mp htext
            exact ⟨w, hw, t, ht, w', rfl⟩
        | cons b' bs =>
            obtain ⟨w, hw, t, ht, w', -, more, -, rfl⟩ := mem_texts_cons_cons.mp htext
            exact ⟨w, hw, t, ht, _, rfl⟩
      have hb := hread b (by simp)
      have hloop := loop_of_texts hblank hsep hclose hsepBlank hcloseBlank hne (by simp) hread
        htext (text ++ close :: rest).length (by simp) rest
      obtain ⟨w, hw, t, ht, more, rfl⟩ := hfirst
      obtain ⟨c, cs, rfl⟩ := List.exists_cons_of_ne_nil (hb.ne_nil t ht)
      have hc : c ≠ close := hstart b (by simp) _ ht c (by simp)
      have hskip : (w ++ (c :: cs ++ more) ++ close :: rest).dropWhile blank
          = c :: cs ++ (more ++ close :: rest) := by
        rw [List.append_assoc, dropWhile_blanks_append hw, List.append_assoc, hb.dropWhile ht]
      rw [list, hskip]
      show (if c = close then some ([], cs ++ _) else loop _ _ _ _ _ _) = _
      rw [if_neg hc]
      exact hloop

/-! ## What was read -/

/-- Everything the reader accepts has a text of the grammar in front. -/
def Sound (element : Reader α β) (L : β → Language α) : Prop :=
  ∀ text b rest, element text = some (b, rest) → ∃ t ∈ L b, text = t ++ rest

theorem texts_of_loop (hsound : Sound element L) {fuel : Nat}
    (h : loop element blank sep close fuel text = some (bs, rest)) :
    bs ≠ [] ∧ ∃ inner ∈ Texts blank sep (bs.map L), text = inner ++ close :: rest := by
  induction fuel generalizing text bs with
  | zero => simp [loop] at h
  | succ fuel ih =>
      obtain ⟨w, hw, htext⟩ := exists_blanks blank text
      rw [loop] at h
      cases hel : element (text.dropWhile blank) with
      | none => simp [hel] at h
      | some result =>
          obtain ⟨b, after⟩ := result
          obtain ⟨t, ht, htail⟩ := hsound _ _ _ hel
          obtain ⟨w', hw', hafter⟩ := exists_blanks blank after
          simp only [hel] at h
          cases hd : after.dropWhile blank with
          | nil => simp [hd] at h
          | cons c more =>
              simp only [hd] at h
              rw [hd] at hafter
              by_cases hc : c = sep
              · rw [if_pos hc] at h
                obtain ⟨⟨bs', rest'⟩, hloop, hpair⟩ := Option.map_eq_some_iff.mp h
                obtain ⟨rfl, rfl⟩ := Prod.mk.inj hpair
                obtain ⟨hne, inner, hinner, rfl⟩ := ih hloop
                refine ⟨by simp, w ++ (t ++ (w' ++ sep :: inner)), ?_, ?_⟩
                · obtain ⟨b', bs, rfl⟩ := List.exists_cons_of_ne_nil hne
                  exact mem_texts_cons_cons.mpr ⟨w, hw, t, ht, w', hw', inner, hinner, rfl⟩
                · rw [htext, htail, hafter, hc]
                  simp
              · rw [if_neg hc] at h
                by_cases hcl : c = close
                · rw [if_pos hcl, Option.some.injEq, Prod.mk.injEq] at h
                  obtain ⟨rfl, rfl⟩ := h
                  refine ⟨by simp, w ++ (t ++ w'), ?_, ?_⟩
                  · exact mem_texts_singleton.mpr ⟨w, hw, t, ht, w', hw', rfl⟩
                  · rw [htext, htail, hafter, hcl]
                    simp
                · rw [if_neg hcl] at h
                  nomatch h

/-- A list that was read is a text of the elements that came out, and the closing
    character. -/
theorem texts_of_list (hsound : Sound element L)
    (h : list element blank sep close text = some (bs, rest)) :
    ∃ inner ∈ Texts blank sep (bs.map L), text = inner ++ close :: rest := by
  obtain ⟨w, hw, htext⟩ := exists_blanks blank text
  rw [list] at h
  cases hd : text.dropWhile blank with
  | nil => simp [hd] at h
  | cons c more =>
      simp only [hd] at h
      by_cases hc : c = close
      · rw [if_pos hc, Option.some.injEq, Prod.mk.injEq] at h
        obtain ⟨rfl, rfl⟩ := h
        exact ⟨w, hw, by rw [htext, hd, hc]⟩
      · rw [if_neg hc] at h
        exact (texts_of_loop hsound h).2

/-- Whatever one reader reads, the other one reads, too. -/
def Extends (element element' : Reader α β) : Prop :=
  ∀ text result, element text = some result → element' text = some result

theorem loop_mono (h : Extends element element') (fuel : Nat) :
    Extends (loop element blank sep close fuel) (loop element' blank sep close fuel) := by
  induction fuel with
  | zero => exact fun text result hres => by simp [loop] at hres
  | succ fuel ih =>
      intro text result hres
      rw [loop] at hres ⊢
      cases hel : element (text.dropWhile blank) with
      | none => simp [hel] at hres
      | some read =>
          rw [h _ _ hel]
          simp only [hel] at hres
          simp only
          split at hres
          · exact absurd hres (by simp)
          · split at hres
            · rename_i hc
              obtain ⟨inner, hinner, rfl⟩ := Option.map_eq_some_iff.mp hres
              rw [if_pos hc, ih _ _ hinner, Option.map_some]
            · rename_i hc
              rw [if_neg hc]
              exact hres

/-- The list inherits it. -/
theorem list_mono (h : Extends element element') :
    Extends (list element blank sep close) (list element' blank sep close) := by
  intro text result hres
  rw [list] at hres ⊢
  split at hres
  · exact absurd hres (by simp)
  · split at hres
    · rename_i hc
      rw [if_pos hc]
      exact hres
    · rename_i hc
      rw [if_neg hc]
      exact loop_mono h _ _ _ hres

end Separated
