/-
  ModJanus.Lib.Fields

  Named fields in a text: `name eq value`, one after the other, each behind a
  separator (`&name=value` of a query string is one instance).

  `values` reads the fields of one name back: the text is split at the separator and
  the fields with the name give their values.  A reader may decode a value before it
  uses it; all that is asked of the decoding is that it makes no value longer.

  `render_read_back` is the round trip.  `read_back_complete` is its converse for a
  text that was possibly cut short: when every name is read back as one value that
  passes for its own, then nothing is missing, no value holds the separator, and the
  decoding leaves every value as it is.

  `pairs` reads all of the fields back in order, with `pairs_render` and `pairs_complete`
  for it.
-/
import Mathlib.Data.List.Infix
import Mathlib.Data.List.Nodup

namespace Fields

variable {α : Type*} [DecidableEq α]

/-- Write the fields, each behind a separator. -/
def render (sep eq : α) : List (List α × List α) → List α
  | [] => []
  | (name, value) :: rest => sep :: (name ++ eq :: (value ++ render sep eq rest))

/-- The value of a field, if the field has the name. -/
def valueOf (eq : α) (name field : List α) : Option (List α) :=
  if name ++ [eq] <+: field then some (field.drop (name.length + 1)) else none

/-- The values of all fields of that name. -/
def values (sep eq : α) (name text : List α) : List (List α) :=
  (text.splitOn sep).filterMap (valueOf eq name)

variable {sep eq : α} {name first : List α}

/-! ## One field -/

@[simp] theorem valueOf_self (eq : α) (name value : List α) :
    valueOf eq name (name ++ eq :: value) = some value := by
  have hpre : name ++ [eq] <+: name ++ eq :: value := ⟨value, by simp⟩
  rw [valueOf, if_pos hpre, show name ++ eq :: value = (name ++ [eq]) ++ value by simp,
    show name.length + 1 = (name ++ [eq]).length by simp, List.drop_left]

/-- A name without `eq` in it does not match the field of another name. -/
theorem valueOf_other {other : List α} (value : List α) (hne : name ≠ other)
    (hname : eq ∉ name) (hother : eq ∉ other) :
    valueOf eq name (other ++ eq :: value) = none := by
  rw [valueOf, if_neg]
  intro hpre
  have hpre' : other ++ [eq] <+: other ++ eq :: value := ⟨value, by simp⟩
  -- of two prefixes of one text, one is a prefix of the other
  rcases List.prefix_or_prefix_of_prefix hpre hpre' with h | h
  · rcases List.prefix_concat_iff.mp h with h | h
    · exact hne (List.append_cancel_right h)
    · exact hother (h.subset (by simp))
  · rcases List.prefix_concat_iff.mp h with h | h
    · exact hne (List.append_cancel_right h).symm
    · exact hname (h.subset (by simp))

/-- Without the whole `name eq` in front there is no field of the name. -/
theorem valueOf_short {field : List α} (h : ¬ name ++ [eq] <+: field) :
    valueOf eq name field = none := if_neg h

@[simp] theorem valueOf_nil (eq : α) (name : List α) : valueOf eq name [] = none :=
  valueOf_short (by simp)

/-! ## A text of several fields -/

theorem values_of_not_mem (h : sep ∉ first) :
    values sep eq name first = (valueOf eq name first).toList := by
  rw [values, List.splitOn_eq_singleton h]
  cases hv : valueOf eq name first <;> simp [hv]

theorem values_append_cons (h : sep ∉ first) (rest : List α) :
    values sep eq name (first ++ sep :: rest) =
      (valueOf eq name first).toList ++ values sep eq name rest := by
  rw [values, List.splitOn_append_cons_self_of_not_mem h]
  cases hv : valueOf eq name first <;> simp [hv, values]

/-- What stands behind the first field, if anything does, starts with a separator. -/
theorem values_append {tail : List α} (h : sep ∉ first)
    (htail : tail = [] ∨ ∃ rest, tail = sep :: rest) :
    values sep eq name (first ++ tail) =
      (valueOf eq name first).toList ++ values sep eq name (tail.drop 1) := by
  rcases htail with rfl | ⟨rest, rfl⟩
  · rw [List.append_nil, values_of_not_mem h, List.drop_nil, values_of_not_mem (by simp)]
    simp
  · exact values_append_cons h rest

/-- The text up to the next separator, and the rest. -/
theorem exists_segment (sep : α) (text : List α) :
    ∃ segment tail, text = segment ++ tail ∧ sep ∉ segment ∧
      (tail = [] ∨ ∃ rest, tail = sep :: rest) := by
  induction text with
  | nil => exact ⟨[], [], rfl, by simp, .inl rfl⟩
  | cons a text ih =>
      obtain ⟨segment, tail, rfl, hsep, htail⟩ := ih
      by_cases ha : a = sep
      · exact ⟨[], a :: (segment ++ tail), rfl, by simp, .inr ⟨_, by rw [ha]⟩⟩
      · exact ⟨a :: segment, tail, rfl, by simp [hsep, Ne.symm ha], htail⟩

/-! ## Round trip -/

/-- Names that tell the fields apart: no two are equal and none holds a sign. -/
structure Names (sep eq : α) (names : List (List α)) : Prop where
  nodup : names.Nodup
  no_sep : ∀ name ∈ names, sep ∉ name
  no_eq : ∀ name ∈ names, eq ∉ name

omit [DecidableEq α] in
theorem Names.tail {names : List (List α)} (h : Names sep eq (name :: names)) :
    Names sep eq names :=
  ⟨h.nodup.of_cons, fun n hn => h.no_sep n (.tail _ hn), fun n hn => h.no_eq n (.tail _ hn)⟩

/-- The field of one of the names is not one of the others. -/
theorem Names.valueOf_head {names : List (List α)} (h : Names sep eq (name :: names))
    (value : List α) : ∀ other ∈ names, valueOf eq other (name ++ eq :: value) = none := by
  intro other hother
  have hne : other ≠ name := by
    rintro rfl
    exact (List.nodup_cons.mp h.nodup).1 hother
  exact valueOf_other value hne (h.no_eq other (.tail _ hother)) (h.no_eq name (.head _))

omit [DecidableEq α] in
/-- Nothing of a value is lost in the text. -/
theorem subset_render {fields : List (List α × List α)} {field : List α × List α}
    (h : field ∈ fields) : field.2 ⊆ render sep eq fields := by
  induction fields with
  | nil => cases h
  | cons head rest ih =>
      intro a ha
      rw [render]
      rcases List.mem_cons.mp h with rfl | h
      · simp [ha]
      · simp [ih h ha]

omit [DecidableEq α] in
/-- And nothing comes from elsewhere. -/
theorem mem_render {a : α} {fields : List (List α × List α)} (h : a ∈ render sep eq fields) :
    a = sep ∨ a = eq ∨ ∃ field ∈ fields, a ∈ field.1 ∨ a ∈ field.2 := by
  induction fields with
  | nil => cases h
  | cons head rest ih =>
      rw [render] at h
      rcases List.mem_cons.mp h with rfl | h
      · exact .inl rfl
      · rcases List.mem_append.mp h with h | h
        · exact .inr (.inr ⟨head, .head _, .inl h⟩)
        · rcases List.mem_cons.mp h with rfl | h
          · exact .inr (.inl rfl)
          · rcases List.mem_append.mp h with h | h
            · exact .inr (.inr ⟨head, .head _, .inr h⟩)
            · rcases ih h with h | h | ⟨field, hf, h⟩
              · exact .inl h
              · exact .inr (.inl h)
              · exact .inr (.inr ⟨field, .tail _ hf, h⟩)

omit [DecidableEq α] in
theorem render_tail (sep eq : α) (fields : List (List α × List α)) :
    render sep eq fields = [] ∨ ∃ rest, render sep eq fields = sep :: rest := by
  cases fields with
  | nil => exact .inl rfl
  | cons field rest => exact .inr ⟨_, rfl⟩

/-- Each name is read back as its one value, and a name that no field has as none. -/
theorem render_read_back (hse : sep ≠ eq) {fields : List (List α × List α)}
    (hnames : Names sep eq (fields.map Prod.fst)) (hvalues : ∀ field ∈ fields, sep ∉ field.2)
    (hname : eq ∉ name) (hfirst : sep ∉ first) (hother : valueOf eq name first = none) :
    values sep eq name (first ++ render sep eq fields) =
      (fields.filter (·.1 = name)).map Prod.snd := by
  induction fields generalizing first with
  | nil => simp [render, values_of_not_mem hfirst, hother]
  | cons field rest ih =>
      obtain ⟨n, v⟩ := field
      have hn : sep ∉ n := hnames.no_sep n (.head _)
      have hv : sep ∉ v := hvalues (n, v) (.head _)
      have hfield : sep ∉ n ++ eq :: v := by simp [hn, hv, hse]
      have hrest : ∀ field ∈ rest, sep ∉ field.2 := fun f hf => hvalues f (.tail _ hf)
      rw [render, values_append_cons hfirst, hother, Option.toList_none, List.nil_append,
        show n ++ eq :: (v ++ render sep eq rest) = (n ++ eq :: v) ++ render sep eq rest by simp]
      by_cases hne : n = name
      · subst hne
        -- the rest holds no second field of this name
        have hnot : rest.filter (·.1 = n) = [] := by
          rw [List.filter_eq_nil_iff]
          intro f hf heq
          have hmem : f.1 ∈ rest.map Prod.fst := List.mem_map_of_mem hf
          rw [of_decide_eq_true heq] at hmem
          exact (List.nodup_cons.mp hnames.nodup).1 hmem
        have hdrop : values sep eq n ((render sep eq rest).drop 1) = [] := by
          have hnil := ih hnames.tail hrest (List.not_mem_nil : sep ∉ []) (valueOf_nil eq n)
          rw [values_append (by simp) (render_tail sep eq rest), hnot] at hnil
          simpa using hnil
        rw [values_append hfield (render_tail sep eq rest), hdrop, valueOf_self]
        simp [hnot]
      · have hnone : valueOf eq name (n ++ eq :: v) = none :=
          valueOf_other v (Ne.symm hne) hname (hnames.no_eq n (.head _))
        rw [ih hnames.tail hrest hfield hnone]
        simp [hne]

/-! ## A text that may have been cut short -/

omit [DecidableEq α] in
/-- A text cut off somewhere in two parts ends in the first or reaches into the second. -/
theorem cut_cases {text front back : List α} (h : text <+: front ++ back) :
    text <+: front ∨ ∃ rest, rest <+: back ∧ text = front ++ rest := by
  have hfront : front <+: front ++ back := List.prefix_append front back
  by_cases hlen : text.length ≤ front.length
  · exact .inl (List.prefix_of_prefix_length_le h hfront hlen)
  · obtain ⟨rest, rfl⟩ := List.prefix_of_prefix_length_le hfront h (by omega)
    exact .inr ⟨rest, by simpa using h, rfl⟩

omit [DecidableEq α] in
/-- A stretch without separators stays in front of what a separator starts. -/
theorem segment_le_of_prefix {segment value more : List α}
    (hmore : more = [] ∨ ∃ rest, more = sep :: rest) (hsep : sep ∉ segment)
    (h : segment <+: value ++ more) : segment <+: value := by
  rcases cut_cases h with h | ⟨rest, hrest, rfl⟩
  · exact h
  · cases rest with
    | nil => simp
    | cons b rest =>
        rcases hmore with rfl | ⟨more, rfl⟩
        · simp at hrest
        · obtain ⟨rfl, -⟩ := List.cons_prefix_cons.mp hrest
          simp at hsep

/-- One field, possibly cut short: when its name is read back as a value that only the
    whole field can give (`accept`), then it is whole, and the reader takes it over
    unchanged. -/
theorem field_complete (hse : sep ≠ eq) {decode : List α → List α}
    (hdecode : ∀ value, (decode value).length ≤ value.length) {value more text : List α}
    {accept : List α → Prop}
    (haccept : ∀ raw, raw <+: value → accept (decode raw) → decode raw = value)
    (hname : sep ∉ name) (hmore : more = [] ∨ ∃ rest, more = sep :: rest)
    (hpre : text <+: (name ++ [eq]) ++ (value ++ more))
    (hread : ∃ read others, (values sep eq name text).map decode = read :: others ∧
      accept read) :
    ∃ tail, text = (name ++ eq :: value) ++ tail ∧ tail <+: more ∧
      sep ∉ value ∧ decode value = value := by
  obtain ⟨read, others, hread, hok⟩ := hread
  have hsign : sep ∉ name ++ [eq] := by simp [hname, hse]
  rcases cut_cases hpre with hshort | ⟨t, ht, rfl⟩
  · -- a text that ends before the value reads back as it, if the value is empty
    have hsep : sep ∉ text := fun hmem => hsign (hshort.subset hmem)
    rw [values_of_not_mem hsep] at hread
    by_cases hwhole : name ++ [eq] <+: text
    · obtain rfl : text = name ++ [eq] := hshort.eq_of_length_le hwhole.length_le
      rw [valueOf_self] at hread
      obtain rfl : decode [] = read := by simpa using (List.cons.inj hread).1
      have hnil : decode [] = value := haccept [] List.nil_prefix hok
      obtain rfl : value = [] := by simpa [hnil] using hdecode []
      exact ⟨[], by simp, List.nil_prefix, by simp, hnil⟩
    · rw [valueOf_short hwhole] at hread
      simp at hread
  · -- what is read is the text up to the next separator
    obtain ⟨segment, tail, rfl, hsep, htail⟩ := exists_segment sep t
    have hfield : sep ∉ name ++ eq :: segment := by simp [hname, hsep, hse]
    rw [show name ++ [eq] ++ (segment ++ tail) = (name ++ eq :: segment) ++ tail by simp,
      values_append hfield htail, valueOf_self] at hread
    obtain rfl : decode segment = read := by simpa using (List.cons.inj hread).1
    have hle : segment <+: value :=
      segment_le_of_prefix hmore hsep ((List.prefix_append segment tail).trans ht)
    have hdec : decode segment = value := haccept segment hle hok
    -- decoding makes nothing longer, so the value is there as it is
    have hlen : value.length ≤ segment.length := hdec ▸ hdecode segment
    obtain rfl : segment = value := hle.eq_of_length_le hlen
    exact ⟨tail, by simp, (List.prefix_append_right_inj segment).mp ht, hsep, hdec⟩

/-- If every name is read back as one value that is accepted, from a text that is at
    most `first` and the fields, then it is all of them, and each value is one that the
    reader takes over unchanged.  A part of a value must not be accepted for it. -/
theorem read_back_complete (hse : sep ≠ eq) {decode : List α → List α}
    (hdecode : ∀ value, (decode value).length ≤ value.length)
    {fields : List (List α × List α)} {accept : List α × List α → List α → Prop}
    (haccept : ∀ field ∈ fields, ∀ raw, raw <+: field.2 → accept field (decode raw) →
      decode raw = field.2)
    (hnames : Names sep eq (fields.map Prod.fst)) (hfirst : sep ∉ first)
    (hother : ∀ name ∈ fields.map Prod.fst, valueOf eq name first = none) {tail : List α}
    (hpre : tail <+: render sep eq fields)
    (hread : ∀ field ∈ fields, ∃ read,
      (values sep eq field.1 (first ++ tail)).map decode = [read] ∧ accept field read) :
    tail = render sep eq fields ∧ ∀ field ∈ fields, sep ∉ field.2 ∧ decode field.2 = field.2 := by
  induction fields generalizing first tail with
  | nil => exact ⟨List.prefix_nil.mp hpre, by simp⟩
  | cons field rest ih =>
      obtain ⟨n, v⟩ := field
      have hn : sep ∉ n := hnames.no_sep n (.head _)
      have hstart : tail = [] ∨ ∃ t, tail = sep :: t := by
        cases tail with
        | nil => exact .inl rfl
        | cons c t => exact .inr ⟨t, by rw [(List.cons_prefix_cons.mp hpre).1]⟩
      -- the fields are read behind `first`, which is none of them
      have hread' : ∀ field ∈ (n, v) :: rest, ∃ read,
          (values sep eq field.1 (tail.drop 1)).map decode = [read] ∧ accept field read := by
        intro field hf
        obtain ⟨read, hvalues, hok⟩ := hread field hf
        rw [values_append hfirst hstart, hother field.1 (List.mem_map_of_mem hf),
          Option.toList_none, List.nil_append] at hvalues
        exact ⟨read, hvalues, hok⟩
      have hpre' : tail.drop 1 <+: (n ++ [eq]) ++ (v ++ render sep eq rest) := by
        rcases hstart with rfl | ⟨t, rfl⟩
        · simp
        · simpa [render] using (List.cons_prefix_cons.mp hpre).2
      obtain ⟨read, hvalues, hok⟩ := hread' (n, v) (.head _)
      obtain ⟨w, hw, hwpre, hv, hdec⟩ := field_complete hse hdecode
        (haccept (n, v) (.head _)) hn (render_tail sep eq rest) hpre' ⟨read, [], hvalues, hok⟩
      have hfield : sep ∉ n ++ eq :: v := by simp [hn, hv, hse]
      have hreadrest : ∀ field ∈ rest, ∃ read,
          (values sep eq field.1 ((n ++ eq :: v) ++ w)).map decode = [read] ∧
            accept field read :=
        fun field hf => hw ▸ hread' field (.tail _ hf)
      obtain ⟨rfl, hrest⟩ := ih (fun f hf => haccept f (.tail _ hf)) hnames.tail hfield
        (hnames.valueOf_head v) hwpre hreadrest
      refine ⟨?_, ?_⟩
      · rcases hstart with rfl | ⟨t, rfl⟩
        · simp at hw
        · simpa [render] using hw
      · rintro f (_ | ⟨_, hf⟩)
        · exact ⟨hv, hdec⟩
        · exact hrest f hf

/-! ## Every field -/

/-- The name and the value of a field, split at the first `eq`. -/
def pair (eq : α) (field : List α) : List α × List α :=
  (field.takeWhile (· ≠ eq), (field.dropWhile (· ≠ eq)).drop 1)

/-- The fields of a text, in order. -/
def pairs (sep eq : α) (text : List α) : List (List α × List α) :=
  (text.splitOn sep).map (pair eq)

theorem pair_self (h : eq ∉ name) (value : List α) :
    pair eq (name ++ eq :: value) = (name, value) := by
  have hkeep : ∀ a ∈ name, decide (a ≠ eq) = true := by
    intro a ha
    rw [decide_eq_true_eq]
    rintro rfl
    exact h ha
  rw [pair, List.takeWhile_append_of_pos hkeep, List.dropWhile_append_of_pos hkeep]
  simp

/-- A field is longer than its name and its value together, unless it has no value. -/
theorem pair_length (eq : α) (field : List α) (h : (pair eq field).2 ≠ []) :
    (pair eq field).1.length + 1 + (pair eq field).2.length ≤ field.length := by
  have hsplit : field.length =
      (field.takeWhile (· ≠ eq)).length + (field.dropWhile (· ≠ eq)).length := by
    rw [← List.length_append, List.takeWhile_append_dropWhile]
  have hpos : 0 < ((field.dropWhile (· ≠ eq)).drop 1).length := List.length_pos_of_ne_nil h
  simp only [pair, List.length_drop] at hpos ⊢
  omega

theorem pairs_of_not_mem (h : sep ∉ first) : pairs sep eq first = [pair eq first] := by
  rw [pairs, List.splitOn_eq_singleton h]
  rfl

theorem pairs_append_cons (front rest : List α) :
    pairs sep eq (front ++ sep :: rest) = pairs sep eq front ++ pairs sep eq rest := by
  rw [pairs, List.splitOn_append_cons_self, List.map_append]
  rfl

theorem pairs_ne_nil (sep eq : α) (text : List α) : pairs sep eq text ≠ [] := by
  rw [pairs, ne_eq, List.map_eq_nil_iff]
  exact List.splitOn_ne_nil sep text

/-- The first field of a text that begins with a name and `eq`. -/
theorem pairs_head (hse : sep ≠ eq) (hsep : sep ∉ name) (heq : eq ∉ name) (text : List α) :
    ∃ value others, pairs sep eq (name ++ eq :: text) = (name, value) :: others := by
  obtain ⟨segment, tail, rfl, hsegment, htail⟩ := exists_segment sep text
  have hfield : sep ∉ name ++ eq :: segment := by simp [hsep, hse, hsegment]
  rw [show name ++ eq :: (segment ++ tail) = (name ++ eq :: segment) ++ tail by simp]
  rcases htail with rfl | ⟨rest, rfl⟩
  · rw [List.append_nil, pairs_of_not_mem hfield, pair_self heq]
    exact ⟨segment, [], rfl⟩
  · rw [pairs_append_cons, pairs_of_not_mem hfield, pair_self heq]
    exact ⟨segment, _, rfl⟩

/-- What is no sign is in some name or value. -/
theorem exists_pair_of_mem {a : α} {text : List α} (h : a ∈ text) (hsep : a ≠ sep)
    (heq : a ≠ eq) : ∃ field ∈ pairs sep eq text, a ∈ field.1 ∨ a ∈ field.2 := by
  induction hn : text.length using Nat.strong_induction_on generalizing text with
  | _ n ih =>
      by_cases hmem : sep ∈ text
      · obtain ⟨front, back, rfl, hfront⟩ := List.eq_append_cons_of_mem hmem
        rw [List.length_append, List.length_cons] at hn
        rw [pairs_append_cons]
        have hparts : a ∈ front ∨ a ∈ back := by simpa [hsep] using h
        rcases hparts with h | h
        · obtain ⟨field, hf, ha⟩ := ih front.length (by omega) h rfl
          exact ⟨field, List.mem_append_left _ hf, ha⟩
        · obtain ⟨field, hf, ha⟩ := ih back.length (by omega) h rfl
          exact ⟨field, List.mem_append_right _ hf, ha⟩
      · refine ⟨pair eq text, by simp [pairs_of_not_mem hmem], ?_⟩
        rw [← List.takeWhile_append_dropWhile (p := (· ≠ eq)) (l := text), List.mem_append] at h
        rcases h with h | h
        · exact .inl h
        · -- the value stands behind the sign
          right
          cases hdrop : text.dropWhile (· ≠ eq) with
          | nil =>
              rw [hdrop] at h
              cases h
          | cons b rest =>
              have hb : b = eq := by
                have hhead := List.head?_dropWhile_not (· ≠ eq) text
                rw [hdrop] at hhead
                simpa using hhead
              rw [hdrop, hb] at h
              rw [pair, hdrop]
              simpa [heq] using h

/-- Fields without signs in their names and separators in their values are read back. -/
theorem pairs_render (hse : sep ≠ eq) {fields : List (List α × List α)} {value : List α}
    (hnames : ∀ field ∈ (name, value) :: fields, sep ∉ field.1 ∧ eq ∉ field.1)
    (hvalues : ∀ field ∈ (name, value) :: fields, sep ∉ field.2) :
    pairs sep eq ((name ++ eq :: value) ++ render sep eq fields) = (name, value) :: fields := by
  induction fields generalizing name value with
  | nil =>
      obtain ⟨hsep, heq⟩ := hnames _ List.mem_cons_self
      have hfield : sep ∉ name ++ eq :: value := by
        simp [hsep, hse, hvalues _ List.mem_cons_self]
      rw [render, List.append_nil, pairs_of_not_mem hfield, pair_self heq]
  | cons field rest ih =>
      obtain ⟨n, v⟩ := field
      obtain ⟨hsep, heq⟩ := hnames _ List.mem_cons_self
      have hfield : sep ∉ name ++ eq :: value := by
        simp [hsep, hse, hvalues _ List.mem_cons_self]
      have hrest := ih (fun f hf => hnames f (List.mem_cons_of_mem _ hf))
        (fun f hf => hvalues f (List.mem_cons_of_mem _ hf))
      rw [render, pairs_append_cons, pairs_of_not_mem hfield, pair_self heq,
        show n ++ eq :: (v ++ render sep eq rest) = (n ++ eq :: v) ++ render sep eq rest by simp,
        hrest]
      rfl

/-- A field in front of `more`, possibly cut short: when it is read back as it is, then it
    is whole, and what is read behind it comes from the rest. -/
theorem pair_complete {decode : List α → List α}
    (hdecode : ∀ value, (decode value).length ≤ value.length) {value more text : List α}
    {others : List (List α × List α)} (heq : eq ∉ name) (hvalue : value ≠ [])
    (hmore : more = [] ∨ ∃ rest, more = sep :: rest)
    (hpre : text <+: (name ++ eq :: value) ++ more)
    (hread : (pairs sep eq text).map (Prod.map decode decode) = (name, value) :: others) :
    sep ∉ value ∧ decode value = value ∧
      (text = name ++ eq :: value ∧ others = [] ∨
        ∃ rest, text = (name ++ eq :: value) ++ sep :: rest ∧ sep :: rest <+: more ∧
          (pairs sep eq rest).map (Prod.map decode decode) = others) := by
  obtain ⟨segment, tail, rfl, hsep, htail⟩ := exists_segment sep text
  -- the first field that is read is the text up to the next separator
  have hfirst : Prod.map decode decode (pair eq segment) = (name, value) := by
    rcases htail with rfl | ⟨rest, rfl⟩
    · rw [List.append_nil, pairs_of_not_mem hsep] at hread
      exact (List.cons.inj hread).1
    · rw [pairs_append_cons, pairs_of_not_mem hsep] at hread
      exact (List.cons.inj hread).1
  obtain ⟨hn, hv⟩ := Prod.mk.inj hfirst
  have hle : segment <+: name ++ eq :: value :=
    segment_le_of_prefix hmore hsep ((List.prefix_append segment tail).trans hpre)
  -- decoding makes nothing longer, so the field is there as it is
  have hnlen : name.length ≤ (pair eq segment).1.length := hn ▸ hdecode _
  have hvlen : value.length ≤ (pair eq segment).2.length := hv ▸ hdecode _
  have hpos : 0 < value.length := List.length_pos_of_ne_nil hvalue
  have hlen := pair_length eq segment (List.ne_nil_of_length_pos (by omega))
  obtain rfl : segment = name ++ eq :: value := hle.eq_of_length_le (by
    rw [List.length_append, List.length_cons]
    omega)
  rw [pair_self heq] at hfirst
  refine ⟨fun hmem => hsep (by simp [hmem]), (Prod.mk.inj hfirst).2, ?_⟩
  rcases htail with rfl | ⟨rest, rfl⟩
  · rw [List.append_nil, pairs_of_not_mem hsep] at hread
    exact .inl ⟨List.append_nil _, ((List.cons.inj hread).2).symm⟩
  · rw [pairs_append_cons, pairs_of_not_mem hsep] at hread
    exact .inr ⟨rest, rfl, (List.prefix_append_right_inj _).mp hpre, (List.cons.inj hread).2⟩

/-- The converse for a text that may have been cut short: if every field is read back as
    it is, then it is whole, no value holds a separator, and the decoding leaves each as
    it is. -/
theorem pairs_complete {decode : List α → List α}
    (hdecode : ∀ value, (decode value).length ≤ value.length)
    {fields : List (List α × List α)} {value text : List α}
    (hnames : ∀ field ∈ (name, value) :: fields, eq ∉ field.1)
    (hvalues : ∀ field ∈ (name, value) :: fields, field.2 ≠ [])
    (hpre : text <+: (name ++ eq :: value) ++ render sep eq fields)
    (hread : (pairs sep eq text).map (Prod.map decode decode) = (name, value) :: fields) :
    text = (name ++ eq :: value) ++ render sep eq fields ∧
      ∀ field ∈ (name, value) :: fields, sep ∉ field.2 ∧ decode field.2 = field.2 := by
  -- `pair_complete` reads the first field and leaves the others as they were read
  induction fields generalizing name value text with
  | nil =>
      obtain ⟨hsep, hdec, ⟨rfl, -⟩ | ⟨rest, -, hrest, -⟩⟩ := pair_complete hdecode
        (hnames _ List.mem_cons_self) (hvalues _ List.mem_cons_self) (.inl rfl) hpre hread
      · refine ⟨by simp [render], fun field hf => ?_⟩
        obtain rfl : field = (name, value) := List.mem_singleton.mp hf
        exact ⟨hsep, hdec⟩
      · exact absurd hrest (by simp)
  | cons field fields ih =>
      obtain ⟨n, v⟩ := field
      obtain ⟨hsep, hdec, ⟨-, hnil⟩ | ⟨rest, rfl, hrest, hread⟩⟩ := pair_complete hdecode
        (hnames _ List.mem_cons_self) (hvalues _ List.mem_cons_self)
        (render_tail sep eq ((n, v) :: fields)) hpre hread
      · cases hnil
      · have hpre' : rest <+: (n ++ eq :: v) ++ render sep eq fields := by
          simpa using (List.cons_prefix_cons.mp hrest).2
        obtain ⟨rfl, hall⟩ := ih (fun f hf => hnames f (List.mem_cons_of_mem _ hf))
          (fun f hf => hvalues f (List.mem_cons_of_mem _ hf)) hpre' hread
        refine ⟨by simp [render], fun f hf => ?_⟩
        rcases List.mem_cons.mp hf with rfl | hf
        · exact ⟨hsep, hdec⟩
        · exact hall f hf

end Fields
