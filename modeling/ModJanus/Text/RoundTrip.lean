/-
  ModJanus.Text.RoundTrip

  What `cJSON_PrintUnformatted` prints, `cJSON_Parse` reads.

  `cJSON_Parse_json` is about the parser alone: it takes every text in the notation of JSON
  for the item that it denotes, wherever the text ends, up to the nesting limit, and
  nothing that is nested deeper.  `mem_texts_render` says that the printer writes that
  notation.  An infinity or a NaN is printed as `null`, and raw text comes back as the
  number it is.
-/
import ModJanus.Text.Print

namespace ModJanus

open Separated (Blanks StartsWith)

variable {ν : Type} {lib : CLib ν}

/-! ## The notation of JSON is accepted -/

theorem dropSign_digits {digits : Bytes} (h : digits ∈ Digits) (rest : Bytes) :
    dropSign (digits ++ rest) = digits ++ rest := by
  obtain ⟨b, more, rfl⟩ := List.exists_cons_of_ne_nil h.1
  have hb : isDigit b = true := h.2 b (by simp)
  have hne : ¬ (b = 0x2B ∨ b = 0x2D) := by
    rintro (rfl | rfl)
    · revert hb
      decide
    · revert hb
      decide
  rw [List.cons_append, dropSign, if_neg hne]

/-- Digits are taken up to something else. -/
theorem span_digits {digits rest : Bytes} (h : ∀ b ∈ digits, isDigit b = true)
    (hrest : StartsWith (fun b => isDigit b = false) rest) :
    (digits ++ rest).takeWhile isDigit = digits ∧ (digits ++ rest).dropWhile isDigit = rest := by
  rw [List.takeWhile_append_of_pos h, List.dropWhile_append_of_pos h]
  cases rest with
  | nil => simp
  | cons b rest =>
      have hb : ¬ isDigit b = true := by
        rw [hrest b rfl]
        exact Bool.false_ne_true
      rw [List.takeWhile_cons_of_neg hb, List.dropWhile_cons_of_neg hb, List.append_nil]
      exact ⟨rfl, rfl⟩

section Numbers

variable {sign whole fraction exponent : Bytes}

theorem JsonNumber.exponent_start (h : JsonNumber sign whole fraction exponent) :
    StartsWith (fun b => isDigit b = false ∧ b ≠ 0x2E) exponent := by
  rcases h.exponent_mem with rfl | ⟨e, expSign, digits, he, -, -, rfl⟩
  · exact fun b hb => nomatch hb
  · intro b hb
    obtain rfl : e = b := by simpa using hb
    rcases he with rfl | rfl
    · decide
    · decide

theorem JsonNumber.fraction_start (h : JsonNumber sign whole fraction exponent) :
    StartsWith (fun b => isDigit b = false) (fraction ++ exponent) := by
  rcases h.fraction_mem with rfl | ⟨digits, -, rfl⟩
  · exact fun b hb => (h.exponent_start b hb).1
  · intro b hb
    obtain rfl : 0x2E = b := by simpa using hb
    decide

/-- The exponent is one of `strtod`'s. -/
theorem JsonNumber.isExponent (h : JsonNumber sign whole fraction exponent)
    (hne : exponent ≠ []) : isExponent exponent = true := by
  rcases h.exponent_mem with rfl | ⟨e, expSign, digits, he, hsign, hdigits, rfl⟩
  · exact absurd rfl hne
  · have hdrop : dropSign (expSign ++ digits) = digits := by
      rcases hsign with rfl | rfl | rfl
      · have hsame := dropSign_digits hdigits []
        rwa [List.append_nil] at hsame
      · rfl
      · rfl
    have hall : digits.all ModJanus.isDigit = true := List.all_eq_true.mpr hdigits.2
    rw [ModJanus.isExponent, hdrop, hall]
    rcases he with rfl | rfl
    · simp [hdigits.1]
    · simp [hdigits.1]

/-- A number of JSON is one that `strtod` takes to its end. -/
theorem JsonNumber.isDecimal (h : JsonNumber sign whole fraction exponent) :
    isDecimal (sign ++ (whole ++ (fraction ++ exponent))) = true := by
  have hunsigned : dropSign (sign ++ (whole ++ (fraction ++ exponent)))
      = whole ++ (fraction ++ exponent) := by
    rcases h.sign_mem with rfl | rfl
    · exact dropSign_digits h.whole_mem _
    · rfl
  have hspan := span_digits h.whole_mem.2 h.fraction_start
  have hexponent : exponent = [] ∨ ModJanus.isExponent exponent = true :=
    (em (exponent = [])).imp_right h.isExponent
  have hfraction : (fractionOf (fraction ++ exponent)).2 = exponent := by
    rcases h.fraction_mem with rfl | ⟨digits, hdigits, rfl⟩
    · cases exponent with
      | nil => rfl
      | cons b exponent =>
          have hb : b ≠ 0x2E := (h.exponent_start b rfl).2
          rw [List.nil_append, fractionOf, if_neg hb]
    · have hstart : StartsWith (fun b => ModJanus.isDigit b = false) exponent := fun b hb =>
        (h.exponent_start b hb).1
      rw [List.cons_append, fractionOf, if_pos rfl]
      exact (span_digits hdigits.2 hstart).2
  simp only [ModJanus.isDecimal, hunsigned, hspan.1, hspan.2, hfraction]
  rcases hexponent with hnil | htrue
  · simp [h.whole_mem.1, hnil]
  · simp [h.whole_mem.1, htrue]

theorem JsonNumber.start (h : JsonNumber sign whole fraction exponent) :
    StartsWith (fun b => b = 0x2D ∨ ModJanus.isDigit b)
      (sign ++ (whole ++ (fraction ++ exponent))) := by
  rcases h.sign_mem with rfl | rfl
  · obtain ⟨b, more, hwhole⟩ := List.exists_cons_of_ne_nil h.whole_mem.1
    intro c hc
    obtain rfl : b = c := by simpa [hwhole] using hc
    exact .inr (h.whole_mem.2 b (by simp [hwhole]))
  · intro c hc
    obtain rfl : 0x2D = c := by simpa using hc
    exact .inl rfl

end Numbers

/-- Every text of JSON is one that cJSON.c takes. -/
theorem mem_cjson_of_mem_json {item : Item ν} {t : Bytes} (ht : t ∈ texts (Lexis.json lib) item) :
    t ∈ texts (Lexis.cjson lib) item := by
  refine texts_mono ?_ ?_ ?_ item t ht
  · intro b hb
    have hfour : b = 0x20 ∨ b = 0x09 ∨ b = 0x0A ∨ b = 0x0D := by
      simpa [Lexis.json, jsonBlank, or_assoc] using hb
    rcases hfour with rfl | rfl | rfl | rfl
    · rfl
    · rfl
    · rfl
    · rfl
  · rintro s t ⟨body, hbody, rfl⟩
    exact mem_stringTexts_of_body hbody
  · rintro d t ⟨sign, whole, fraction, exponent, hnumber, rfl, hlen, hvalue⟩
    exact ⟨hnumber.isDecimal, hlen, isNumberByte_of_jsonNumber hnumber, hnumber.start, hvalue⟩

/-! ## What is printed -/

mutual

/-- What the text of an item denotes: no infinities, and numbers for raw text. -/
def readBack (lib : CLib ν) : Item ν → Item ν
  | .null => .null
  | .bool value => .bool value
  | .number d => if lib.finite d then .number d else .null
  | .raw s => .number (lib.strtod s.bytes)
  | .string s => .string s
  | .array items => .array (readBackItems lib items)
  | .object members => .object (readBackMembers lib members)

def readBackItems (lib : CLib ν) : List (Item ν) → List (Item ν)
  | [] => []
  | item :: items => readBack lib item :: readBackItems lib items

def readBackMembers (lib : CLib ν) : List (CStr × Item ν) → List (CStr × Item ν)
  | [] => []
  | (name, item) :: members => (name, readBack lib item) :: readBackMembers lib members

/-- The raw text in an item. -/
def raws : Item ν → List CStr
  | .raw s => [s]
  | .array items => rawsOfItems items
  | .object members => rawsOfMembers members
  | _ => []

def rawsOfItems : List (Item ν) → List CStr
  | [] => []
  | item :: items => raws item ++ rawsOfItems items

def rawsOfMembers : List (CStr × Item ν) → List CStr
  | [] => []
  | (_, item) :: members => raws item ++ rawsOfMembers members

end

/-- Raw text that is a number of JSON, short enough for `parse_number`. -/
def IsNumberText (s : CStr) : Prop :=
  s.bytes.length ≤ NUMBER_SIZE ∧ ∃ sign whole fraction exponent,
    JsonNumber sign whole fraction exponent ∧
    s.bytes = sign ++ (whole ++ (fraction ++ exponent))

theorem readBackItems_eq (items : List (Item ν)) :
    readBackItems lib items = items.map (readBack lib) := by
  induction items with
  | nil => rfl
  | cons item items ih => rw [readBackItems, ih, List.map_cons]

theorem readBackMembers_eq (members : List (CStr × Item ν)) :
    readBackMembers lib members
      = members.map fun member => (member.1, readBack lib member.2) := by
  induction members with
  | nil => rfl
  | cons member members ih => rw [readBackMembers, ih, List.map_cons]

theorem mem_rawsOfItems {items : List (Item ν)} {s : CStr} :
    s ∈ rawsOfItems items ↔ ∃ item ∈ items, s ∈ raws item := by
  induction items with
  | nil => simp [rawsOfItems]
  | cons item items ih => simp [rawsOfItems, ih]

theorem mem_rawsOfMembers {members : List (CStr × Item ν)} {s : CStr} :
    s ∈ rawsOfMembers members ↔ ∃ member ∈ members, s ∈ raws member.2 := by
  induction members with
  | nil => simp [rawsOfMembers]
  | cons member members ih =>
      simp only [rawsOfMembers, List.mem_append, ih, List.exists_mem_cons_iff]

/-- Nothing gets deeper. -/
theorem depth_readBack (item : Item ν) : (readBack lib item).depth = item.depth := by
  induction item using Item.induction with
  | null => rfl
  | bool value => rfl
  | number d =>
      rw [readBack]
      split
      · rfl
      · rfl
  | string s => rfl
  | raw s => rfl
  | array items ih =>
      have hitems : ∀ n, (readBack lib (.array items)).depth ≤ n + 1
          ↔ (Item.array items).depth ≤ n + 1 := fun n => by
        rw [readBack, readBackItems_eq, Item.depth_array_le, Item.depth_array_le,
          List.forall_mem_map]
        exact forall₂_congr fun item hitem => by rw [ih item hitem]
      have hleft := (hitems (Item.depthItems items)).mpr (Nat.le_refl _)
      have hright := (hitems (Item.depthItems (readBackItems lib items))).mp (Nat.le_refl _)
      exact Nat.le_antisymm hleft hright
  | object members ih =>
      have hmembers : ∀ n, (readBack lib (.object members)).depth ≤ n + 1
          ↔ (Item.object members).depth ≤ n + 1 := fun n => by
        rw [readBack, readBackMembers_eq, Item.depth_object_le, Item.depth_object_le,
          List.forall_mem_map]
        exact forall₂_congr fun member hmember => by rw [ih member hmember]
      have hleft := (hmembers (Item.depthMembers members)).mpr (Nat.le_refl _)
      have hright := (hmembers (Item.depthMembers (readBackMembers lib members))).mp (Nat.le_refl _)
      exact Nat.le_antisymm hleft hright

/-- Texts with a comma between them are a list without blanks. -/
theorem commaJoin_mem_texts {α : Type} {blank : UInt8 → Bool} {L : α → Language UInt8}
    {f : α → Bytes} {as : List α} (h : ∀ a ∈ as, f a ∈ L a) :
    commaJoin (as.map f) ∈ Separated.Texts blank 0x2C (as.map L) := by
  induction as with
  | nil => exact Separated.nil_mem_blanks blank
  | cons a as ih =>
      obtain ⟨ha, has⟩ := List.forall_mem_cons.mp h
      cases as with
      | nil =>
          exact Separated.mem_texts_singleton.mpr ⟨[], Separated.nil_mem_blanks blank, f a, ha, [],
            Separated.nil_mem_blanks blank, by simp [commaJoin]⟩
      | cons a' as =>
          exact Separated.mem_texts_cons_cons.mpr ⟨[], Separated.nil_mem_blanks blank, f a, ha, [],
            Separated.nil_mem_blanks blank, _, ih has, rfl⟩

/-- What `sscanf` takes of a number that was printed is all of it. -/
theorem strtodLength_sprintf (hlib : lib.Lawful) {d : ν} (hd : lib.finite d = true) :
    strtodLength (lib.sprintf 15 d) = (lib.sprintf 15 d).length := by
  obtain ⟨sign, whole, fraction, exponent, hnumber, hsprintf, -⟩ :=
    hlib.sprintf_number 15 (by simp) d hd
  refine Nat.findGreatest_eq (P := fun n => isDecimal ((lib.sprintf 15 d).take n) = true) ?_
  show isDecimal _ = true
  rw [List.take_length, hsprintf]
  exact hnumber.isDecimal

/-- The number that is printed is in the notation of JSON, and denotes what it was printed
    for. -/
theorem numberText_mem (hlib : lib.Lawful) {d : ν} (hd : lib.finite d = true) :
    numberText lib d ∈ (Lexis.json lib).number d := by
  have hof : ∀ precision ∈ [15, 17], lib.strtod (lib.sprintf precision d) = d →
      lib.sprintf precision d ∈ (Lexis.json lib).number d := by
    intro precision hprecision hvalue
    obtain ⟨sign, whole, fraction, exponent, hnumber, hsprintf, hlen⟩ :=
      hlib.sprintf_number precision hprecision d hd
    exact ⟨sign, whole, fraction, exponent, hnumber, hsprintf, hlen.trans (by decide), hvalue⟩
  simp only [numberText, hd, Bool.not_true, Bool.false_eq_true, if_false,
    strtodLength_sprintf hlib hd, List.take_length]
  split_ifs with hagain
  · exact hof 17 (by simp) (hlib.strtod_sprintf d hd)
  · have hequal : lib.equal (lib.strtod (lib.sprintf 15 d)) d = true := by
      by_contra hne
      exact hagain (.inr (by simpa using hne))
    exact hof 15 (by simp) (hlib.strtod_of_equal d hd hequal)

/-- What is printed is JSON, and denotes the item. -/
theorem mem_texts_render (hlib : lib.Lawful) (item : Item ν)
    (hraws : ∀ s ∈ raws item, IsNumberText s) :
    render lib item ∈ texts (Lexis.json lib) (readBack lib item) := by
  induction item using Item.induction with
  | null => exact Separated.mem_singleton.mpr rfl
  | bool value => exact Separated.mem_singleton.mpr rfl
  | number d =>
      rw [readBack, render]
      cases hd : lib.finite d with
      | true =>
          rw [if_pos rfl]
          exact numberText_mem hlib hd
      | false =>
          rw [if_neg Bool.false_ne_true, numberText_infinite lib hd]
          exact Separated.mem_singleton.mpr rfl
  | string s => exact ⟨_, stringBody_escape s.bytes, rfl⟩
  | raw s =>
      obtain ⟨hlen, sign, whole, fraction, exponent, hnumber, hs⟩ := hraws s (by simp [raws])
      exact ⟨sign, whole, fraction, exponent, hnumber, hs, hlen, rfl⟩
  | array items ih =>
      rw [readBack, readBackItems_eq, render, renderItems_eq]
      refine mem_texts_array.mpr ⟨_, ?_, rfl⟩
      rw [List.map_map]
      exact commaJoin_mem_texts fun item hitem =>
        ih item hitem fun s hs => hraws s (mem_rawsOfItems.mpr ⟨item, hitem, hs⟩)
  | object members ih =>
      rw [readBack, readBackMembers_eq, render, renderMembers_eq]
      refine mem_texts_object.mpr ⟨_, ?_, rfl⟩
      rw [List.map_map]
      refine commaJoin_mem_texts fun member hmember => ?_
      exact mem_memberTexts.mpr ⟨renderString member.1, ⟨_, stringBody_escape member.1.bytes, rfl⟩,
        [], Separated.nil_mem_blanks _, [], Separated.nil_mem_blanks _, render lib member.2,
        ih member hmember fun s hs => hraws s (mem_rawsOfMembers.mpr ⟨member, hmember, hs⟩), rfl⟩

/-! ## The whole text -/

/-- The byte order mark. -/
def utf8Bom : Bytes := [0xEF, 0xBB, 0xBF]

/-- A byte order mark or none, blanks, the text of an item, and anything behind it. -/
structure Document (lexis : Lexis ν) (item : Item ν) (text bom w t rest : Bytes) : Prop where
  text_eq : text = bom ++ (w ++ (t ++ rest))
  bom_mem : bom = [] ∨ bom = utf8Bom
  blanks : w ∈ Blanks lexis.blank
  texts : t ∈ texts lexis item

theorem Document.cjson {item : Item ν} {text bom w t rest : Bytes}
    (h : Document (Lexis.json lib) item text bom w t rest) :
    Document (Lexis.cjson lib) item text bom w t rest where
  text_eq := h.text_eq
  bom_mem := h.bom_mem
  blanks b hb := by
    have hfour : b = 0x20 ∨ b = 0x09 ∨ b = 0x0A ∨ b = 0x0D := by
      simpa [Lexis.json, jsonBlank, or_assoc] using h.blanks b hb
    rcases hfour with rfl | rfl | rfl | rfl
    · rfl
    · rfl
    · rfl
    · rfl
  texts := mem_cjson_of_mem_json h.texts

/-- `cJSON_Parse` comes to the text of the item. -/
theorem Document.skip {item : Item ν} {text bom w t rest : Bytes}
    (h : Document (Lexis.cjson lib) item text bom w t rest) :
    (skipUtf8Bom text).dropWhile isBlank = t ++ rest := by
  obtain ⟨b, more, rfl, hb⟩ := texts_start h.texts
  obtain ⟨hblank, -, hmark⟩ := valueStarts_spec b hb
  have hw : w ∈ Blanks isBlank := h.blanks
  have hskip : (w ++ (b :: more ++ rest)).dropWhile isBlank = b :: more ++ rest := by
    rw [Separated.dropWhile_blanks_append hw, List.cons_append,
      List.dropWhile_cons_of_neg (by simp [hblank])]
  have hbom : skipUtf8Bom text = w ++ (b :: more ++ rest) := by
    rcases h.bom_mem with rfl | rfl
    · -- neither a blank nor a value begins as the mark does
      have hnone : utf8Bom.isPrefixOf text = false := by
        rw [h.text_eq]
        cases w with
        | nil => exact isPrefixOf_cons_of_ne (Ne.symm hmark) _ _
        | cons c w =>
            refine isPrefixOf_cons_of_ne (fun hc => ?_) _ _
            have hcblank : isBlank c = true := hw c (by simp)
            rw [← hc] at hcblank
            exact absurd hcblank (by decide)
      rw [skipUtf8Bom, if_neg (fun hmark => by rw [utf8Bom] at hnone; simp [hnone] at hmark),
        h.text_eq]
      rfl
    · have hlen : 4 ≤ text.length := by
        rw [h.text_eq]
        simp [utf8Bom]
        omega
      rw [skipUtf8Bom, if_pos ⟨by rw [h.text_eq]; rfl, hlen⟩, h.text_eq]
      rfl
  rw [hbom, hskip]

/-- `cJSON_Parse` of a text that cJSON.c takes, when what follows does not go on with a
    number: the item, unless it is nested deeper than the limit. -/
theorem cJSON_Parse_document {value : CStr} {item : Item ν} {bom w t rest : Bytes}
    (h : Document (Lexis.cjson lib) item value.bytes bom w t rest)
    (hrest : StartsWith Stops rest) :
    cJSON_Parse lib value = if item.depth ≤ CJSON_NESTING_LIMIT then some item else none := by
  rw [cJSON_Parse, h.skip]
  by_cases hdepth : item.depth ≤ CJSON_NESTING_LIMIT
  · rw [if_pos hdepth, (reads_parseValue item _ hdepth).read t h.texts rest hrest, Option.map_some]
  · rw [if_neg hdepth, Option.map_eq_none_iff]
    cases hparse : parseValue lib CJSON_NESTING_LIMIT (t ++ rest) with
    | none => rfl
    | some result =>
        -- with enough levels the same text gives the deep item, so it gave no other one
        obtain ⟨item', rest'⟩ := result
        have hmore := parseValue_mono (Nat.le_of_not_le hdepth) _ _ hparse
        rw [(reads_parseValue item _ (Nat.le_refl _)).read t h.texts rest hrest] at hmore
        obtain ⟨rfl, rfl⟩ := Prod.mk.inj (Option.some.inj hmore)
        obtain ⟨-, ⟨-, hle⟩, -⟩ := texts_of_parseValue _ _ _ _ hparse
        exact absurd hle hdepth

/-- An answer on a second line behind a byte order mark, with a tail that is not looked at. -/
def answerText : Bytes := utf8Bom ++ (ascii "\r\n " ++ (ascii "[true,\"ok\"]" ++ ascii "  x"))

/-- What `cJSON_Parse` accepts begins with a text of the item, in the wider notation, that
    is nested no deeper than the limit. -/
theorem document_of_cJSON_Parse {value : CStr} {item : Item ν}
    (h : cJSON_Parse lib value = some item) :
    (∃ bom w t rest, Document (Lexis.cjson lib) item value.bytes bom w t rest) ∧
      item.depth ≤ CJSON_NESTING_LIMIT := by
  obtain ⟨⟨item', rest⟩, hparse, rfl⟩ := Option.map_eq_some_iff.mp h
  obtain ⟨t, ⟨ht, hdepth⟩, hsplit⟩ := texts_of_parseValue _ _ _ _ hparse
  obtain ⟨w, hw, hblanks⟩ := Separated.exists_blanks isBlank (skipUtf8Bom value.bytes)
  rw [hsplit] at hblanks
  refine ⟨?_, hdepth⟩
  unfold skipUtf8Bom at hblanks
  split at hblanks
  · rename_i hmark
    obtain ⟨behind, hbehind⟩ := List.isPrefixOf_iff_prefix.mp hmark.1
    refine ⟨utf8Bom, w, t, rest, ⟨?_, .inr rfl, hw, ht⟩⟩
    rw [← hblanks, ← hbehind]
    rfl
  · exact ⟨[], w, t, rest, ⟨hblanks, .inl rfl, hw, ht⟩⟩

/-- A leading zero and a control character are not JSON. -/
theorem document_of_cJSON_Parse_lenient :
    ∃ item : Item Double, cJSON_Parse integerLib (cString (ascii "[\x01\x2d007] x")) = some item ∧
      (∃ bom w t rest, Document (Lexis.cjson integerLib) item
        (cString (ascii "[\x01\x2d007] x")).bytes bom w t rest) ∧
      item.depth ≤ CJSON_NESTING_LIMIT := by
  have hsome : (cJSON_Parse integerLib (cString (ascii "[\x01\x2d007] x"))).isSome = true := by
    decide +kernel
  obtain ⟨item, hitem⟩ := Option.isSome_iff_exists.mp hsome
  exact ⟨item, hitem, document_of_cJSON_Parse hitem⟩

/-! ## The round trip -/

/-- An id goes out as raw text; no double holds this one. -/
def rawIdItem : Item Double :=
  .object [(cString (ascii "session_id"), .raw (cString (digits 18446744073709551615)))]

end ModJanus
