/-
  ModJanus.Text.Grammar

  The texts of an item, and that `cJSON_Parse` reads them.

  `texts` is the grammar of JSON over a `Lexis`: what is blank, and how strings and numbers
  are written.  `Lexis.json` is the notation that JSON defines.  `Lexis.cjson` is the
  wider one of cJSON.c, where every control character is blank, a number may have leading
  zeros or end in a point, and a string may hold what `parse_string` lets pass.

  The parser reads every text of the wider grammar that is not nested too deeply
  (`reads_parseValue`), and whatever it accepts is one (`texts_of_parseValue`).
-/
import ModJanus.Text.Parse

namespace ModJanus

open Separated (Blanks Texts StartsWith Reads Sound)

variable {ν : Type}

/-! ## Grammars -/

/-- What is written between the tokens, and how strings and numbers are. -/
structure Lexis (ν : Type) where
  blank : UInt8 → Bool
  string : CStr → Language UInt8
  number : ν → Language UInt8

/-- A name, a colon and a value. -/
def memberTexts (lexis : Lexis ν) (name : CStr) (value : Language UInt8) : Language UInt8 :=
  lexis.string name * Blanks lexis.blank * {[0x3A]} * Blanks lexis.blank * value

mutual

/-- The texts of an item.  Raw text is not the text of an item of its own. -/
def texts (lexis : Lexis ν) : Item ν → Language UInt8
  | .null => {ascii "null"}
  | .bool value => {ascii (if value then "true" else "false")}
  | .number d => lexis.number d
  | .string s => lexis.string s
  | .raw _ => 0
  | .array items => {[0x5B]} * Texts lexis.blank 0x2C (itemTexts lexis items) * {[0x5D]}
  | .object members => {[0x7B]} * Texts lexis.blank 0x2C (membersTexts lexis members) * {[0x7D]}

/-- The texts of the items of an array. -/
def itemTexts (lexis : Lexis ν) : List (Item ν) → List (Language UInt8)
  | [] => []
  | item :: items => texts lexis item :: itemTexts lexis items

/-- The texts of the members of an object. -/
def membersTexts (lexis : Lexis ν) : List (CStr × Item ν) → List (Language UInt8)
  | [] => []
  | (name, item) :: members =>
      memberTexts lexis name (texts lexis item) :: membersTexts lexis members

end

/-- The texts of a member. -/
abbrev textsOfMember (lexis : Lexis ν) (member : CStr × Item ν) : Language UInt8 :=
  memberTexts lexis member.1 (texts lexis member.2)

/-- JSON: four blanks, string bodies with their escapes, and numbers without leading zeros. -/
def jsonBlank (b : UInt8) : Bool := b = 0x20 || b = 0x09 || b = 0x0A || b = 0x0D

/-- Digits, at least one. -/
def Digits : Language UInt8 := {t | t ≠ [] ∧ ∀ b ∈ t, isDigit b = true}

/-- A number of JSON: a minus or none, digits without a leading zero, a fraction or none
    and an exponent or none. -/
structure JsonNumber (sign whole fraction exponent : Bytes) : Prop where
  sign_mem : sign = [] ∨ sign = [0x2D]
  whole_mem : whole ∈ Digits
  whole_zero : whole.head? = some 0x30 → whole = [0x30]
  fraction_mem : fraction = [] ∨ ∃ digits ∈ Digits, fraction = 0x2E :: digits
  exponent_mem : exponent = [] ∨ ∃ e expSign digits, (e = 0x65 ∨ e = 0x45) ∧
    (expSign = [] ∨ expSign = [0x2B] ∨ expSign = [0x2D]) ∧ digits ∈ Digits ∧
    exponent = e :: (expSign ++ digits)

/-- The notation of JSON.  A number that does not fit into the buffer of `parse_number` is
    cut, so those are left out. -/
def Lexis.json (lib : CLib ν) : Lexis ν where
  blank := jsonBlank
  string s := {t | ∃ body, StringBody body s.bytes ∧ t = quote :: (body ++ [quote])}
  number d := {t | ∃ sign whole fraction exponent, JsonNumber sign whole fraction exponent ∧
    t = sign ++ (whole ++ (fraction ++ exponent)) ∧ t.length ≤ NUMBER_SIZE ∧ lib.strtod t = d}

/-- What cJSON.c takes. -/
def Lexis.cjson (lib : CLib ν) : Lexis ν where
  blank := isBlank
  string := stringTexts
  number d := {t | isDecimal t = true ∧ t.length ≤ NUMBER_SIZE ∧
    (∀ b ∈ t, isNumberByte b = true) ∧ StartsWith (fun b => b = 0x2D ∨ isDigit b) t ∧
    lib.strtod t = d}

/-! ## Languages -/

theorem itemTexts_eq (lexis : Lexis ν) (items : List (Item ν)) :
    itemTexts lexis items = items.map (texts lexis) := by
  induction items with
  | nil => rfl
  | cons item items ih => rw [itemTexts, ih, List.map_cons]

theorem membersTexts_eq (lexis : Lexis ν) (members : List (CStr × Item ν)) :
    membersTexts lexis members = members.map (textsOfMember lexis) := by
  induction members with
  | nil => rfl
  | cons member members ih => rw [membersTexts, ih, List.map_cons]

theorem mem_bracketed {a c : UInt8} {l : Language UInt8} {t : Bytes} :
    t ∈ {[a]} * l * {[c]} ↔ ∃ inner ∈ l, t = a :: (inner ++ [c]) := by
  simp only [Language.mem_mul, Separated.mem_singleton]
  constructor
  · rintro ⟨_, ⟨_, rfl, inner, hinner, rfl⟩, _, rfl, rfl⟩
    exact ⟨inner, hinner, rfl⟩
  · rintro ⟨inner, hinner, rfl⟩
    exact ⟨a :: inner, ⟨[a], rfl, inner, hinner, rfl⟩, [c], rfl, rfl⟩

theorem mem_texts_array {lexis : Lexis ν} {items : List (Item ν)} {t : Bytes} :
    t ∈ texts lexis (.array items) ↔
      ∃ inner ∈ Texts lexis.blank 0x2C (items.map (texts lexis)),
        t = 0x5B :: (inner ++ [0x5D]) := by
  rw [texts, itemTexts_eq, mem_bracketed]

theorem mem_texts_object {lexis : Lexis ν} {members : List (CStr × Item ν)} {t : Bytes} :
    t ∈ texts lexis (.object members) ↔
      ∃ inner ∈ Texts lexis.blank 0x2C (members.map (textsOfMember lexis)),
        t = 0x7B :: (inner ++ [0x7D]) := by
  rw [texts, membersTexts_eq, mem_bracketed]

theorem mem_memberTexts {lexis : Lexis ν} {name : CStr} {l : Language UInt8} {t : Bytes} :
    t ∈ memberTexts lexis name l ↔
      ∃ s ∈ lexis.string name, ∃ w ∈ Blanks lexis.blank, ∃ w' ∈ Blanks lexis.blank, ∃ v ∈ l,
        t = s ++ (w ++ 0x3A :: (w' ++ v)) := by
  simp only [memberTexts, Language.mem_mul, Separated.mem_singleton]
  constructor
  · rintro ⟨_, ⟨_, ⟨_, ⟨s, hs, w, hw, rfl⟩, _, rfl, rfl⟩, w', hw', rfl⟩, v, hv, rfl⟩
    exact ⟨s, hs, w, hw, w', hw', v, hv, by simp⟩
  · rintro ⟨s, hs, w, hw, w', hw', v, hv, rfl⟩
    exact ⟨s ++ w ++ [0x3A] ++ w', ⟨s ++ w ++ [0x3A], ⟨s ++ w, ⟨s, hs, w, hw, rfl⟩, [0x3A], rfl,
      rfl⟩, w', hw', rfl⟩, v, hv, by simp⟩

/-- A notation within another one has its texts there, too. -/
theorem texts_mono {lexis lexis' : Lexis ν}
    (hblank : ∀ b, lexis.blank b = true → lexis'.blank b = true)
    (hstring : ∀ s, ∀ t ∈ lexis.string s, t ∈ lexis'.string s)
    (hnumber : ∀ d, ∀ t ∈ lexis.number d, t ∈ lexis'.number d) (item : Item ν) :
    ∀ t ∈ texts lexis item, t ∈ texts lexis' item := by
  induction item using Item.induction with
  | null => exact fun t ht => ht
  | bool value => exact fun t ht => ht
  | number d => exact hnumber d
  | string s => exact hstring s
  | raw s => exact fun t ht => ht
  | array items ih =>
      intro t ht
      obtain ⟨inner, hinner, rfl⟩ := mem_texts_array.mp ht
      exact mem_texts_array.mpr ⟨inner, Separated.texts_mono hblank ih hinner, rfl⟩
  | object members ih =>
      intro t ht
      obtain ⟨inner, hinner, rfl⟩ := mem_texts_object.mp ht
      refine mem_texts_object.mpr ⟨inner, Separated.texts_mono hblank ?_ hinner, rfl⟩
      intro member hmember t ht
      obtain ⟨s, hs, w, hw, w', hw', v, hv, rfl⟩ := mem_memberTexts.mp ht
      exact mem_memberTexts.mpr ⟨s, hstring _ s hs, w, fun b hb => hblank b (hw b hb), w',
        fun b hb => hblank b (hw' b hb), v, ih member hmember v hv, rfl⟩

/-! ## The parser reads the texts -/

variable {lib : CLib ν}

/-- What ends a number. -/
abbrev Stops (b : UInt8) : Prop := isNumberByte b = false

theorem stops_of_isBlank : ∀ b, isBlank b = true → Stops b := by
  intro b hb
  have hle : b ≤ 32 := by simpa [isBlank] using hb
  have hle' : b.toNat ≤ 32 := hle
  have hlow : ∀ n ≤ 32, isNumberByte (UInt8.ofNat n) = false := by decide
  have hstop := hlow b.toNat hle'
  rwa [UInt8.ofNat_toNat] at hstop

/-- The number is all that `parse_number` copies, and `strtod` takes all of it. -/
theorem parseNumber_of_mem {d : ν} {t : Bytes} (ht : t ∈ (Lexis.cjson lib).number d)
    {rest : Bytes} (hrest : StartsWith Stops rest) :
    parseNumber lib (t ++ rest) = some (.number d, rest) := by
  obtain ⟨hdecimal, hlen, hbytes, -, hvalue⟩ := ht
  have htail : (rest.take (NUMBER_SIZE - t.length)).takeWhile isNumberByte = [] := by
    cases hk : NUMBER_SIZE - t.length with
    | zero => rfl
    | succ k =>
        cases rest with
        | nil => rfl
        | cons b rest =>
            have hb : isNumberByte b = false := hrest b rfl
            rw [List.take_succ_cons, List.takeWhile_cons_of_neg (by simp [hb])]
  have hcopy : numberCString (t ++ rest) = t := by
    rw [numberCString, List.take_append, List.take_of_length_le hlen,
      List.takeWhile_append_of_pos hbytes, htail, List.append_nil]
  have hall : strtodLength t = t.length :=
    Nat.findGreatest_eq (by rw [List.take_length]; exact hdecimal)
  have hpos : t.length ≠ 0 := by
    intro h
    rw [List.eq_nil_of_length_eq_zero h] at hdecimal
    exact absurd hdecimal (by decide)
  simp only [parseNumber, hcopy, hall, if_neg hpos, List.take_length, List.drop_left, hvalue]

/-- What a value can begin with. -/
def valueStarts : Bytes := ascii "nft\"[\x7b-0123456789"

/-- None of it is blank, closes an array or begins the byte order mark. -/
theorem valueStarts_spec : ∀ b ∈ valueStarts, isBlank b = false ∧ b ≠ 0x5D ∧ b ≠ 0xEF :=
  forall_mem_of_all (by decide)

theorem mem_valueStarts_of_number {b : UInt8} (hb : b = 0x2D ∨ isDigit b = true) :
    b ∈ valueStarts := by
  have hall : ∀ n < 256, UInt8.ofNat n = 0x2D ∨ isDigit (UInt8.ofNat n) = true →
      UInt8.ofNat n ∈ valueStarts := by decide +kernel
  have hmem := hall b.toNat b.toNat_lt
  rw [UInt8.ofNat_toNat] at hmem
  exact hmem hb

theorem texts_start {item : Item ν} {t : Bytes} (ht : t ∈ texts (Lexis.cjson lib) item) :
    ∃ b more, t = b :: more ∧ b ∈ valueStarts := by
  cases item with
  | null =>
      obtain rfl := Separated.mem_singleton.mp ht
      exact ⟨0x6E, _, rfl, by decide⟩
  | bool value =>
      obtain rfl := Separated.mem_singleton.mp ht
      cases value with
      | false => exact ⟨0x66, _, rfl, by decide⟩
      | true => exact ⟨0x74, _, rfl, by decide⟩
  | number d =>
      obtain ⟨hdecimal, -, -, hstart, -⟩ := ht
      cases t with
      | nil => exact absurd hdecimal (by decide)
      | cons b more => exact ⟨b, more, rfl, mem_valueStarts_of_number (hstart b rfl)⟩
  | string s =>
      obtain ⟨literal, -, rfl, -⟩ := ht
      exact ⟨quote, _, rfl, by decide⟩
  | raw s => exact absurd ht (Language.notMem_zero t)
  | array items =>
      obtain ⟨inner, -, rfl⟩ := mem_texts_array.mp ht
      exact ⟨0x5B, _, rfl, by decide⟩
  | object members =>
      obtain ⟨inner, -, rfl⟩ := mem_texts_object.mp ht
      exact ⟨0x7B, _, rfl, by decide⟩

theorem members_start {member : CStr × Item ν} {t : Bytes}
    (ht : t ∈ textsOfMember (Lexis.cjson lib) member) : ∃ more, t = quote :: more := by
  obtain ⟨s, ⟨literal, -, rfl, -⟩, w, -, w', -, v, -, rfl⟩ := mem_memberTexts.mp ht
  exact ⟨_, rfl⟩

/-- A parser that is right about an item is one that lists can be read with. -/
theorem reads_of_parses {value : Bytes → Option (Item ν × Bytes)} {item : Item ν}
    (h : ∀ t ∈ texts (Lexis.cjson lib) item, ∀ rest, StartsWith Stops rest →
      value (t ++ rest) = some (item, rest)) :
    Reads value isBlank Stops (texts (Lexis.cjson lib)) item where
  ne_nil t ht := by
    obtain ⟨b, more, rfl, -⟩ := texts_start ht
    exact List.cons_ne_nil b more
  not_blank t ht := by
    obtain ⟨b, more, rfl, hb⟩ := texts_start ht
    intro c hc
    obtain rfl : b = c := by simpa using hc
    exact (valueStarts_spec b hb).1
  read := h

theorem reads_parseMember {value : Bytes → Option (Item ν × Bytes)} {member : CStr × Item ν}
    (h : Reads value isBlank Stops (texts (Lexis.cjson lib)) member.2) :
    Reads (parseMember value) isBlank Stops (textsOfMember (Lexis.cjson lib)) member where
  ne_nil t ht := by
    obtain ⟨more, rfl⟩ := members_start ht
    exact List.cons_ne_nil quote more
  not_blank t ht := by
    obtain ⟨more, rfl⟩ := members_start ht
    intro c hc
    obtain rfl : quote = c := by simpa using hc
    rfl
  read t ht rest hrest := by
    obtain ⟨s, hs, w, hw, w', hw', v, hv, rfl⟩ := mem_memberTexts.mp ht
    have hname : parseString (s ++ (w ++ 0x3A :: (w' ++ v)) ++ rest)
        = some (member.1, w ++ 0x3A :: (w' ++ (v ++ rest))) := by
      rw [List.append_assoc]
      exact parseString_iff.mpr ⟨s, hs, by simp⟩
    have hcolon : (w ++ 0x3A :: (w' ++ (v ++ rest))).dropWhile isBlank
        = 0x3A :: (w' ++ (v ++ rest)) := by
      rw [Separated.dropWhile_blanks_append (show w ∈ Blanks isBlank from hw),
        List.dropWhile_cons_of_neg (by decide)]
    have hvalue : (w' ++ (v ++ rest)).dropWhile isBlank = v ++ rest := by
      rw [Separated.dropWhile_blanks_append (show w' ∈ Blanks isBlank from hw'), h.dropWhile hv]
    simp only [parseMember, hname, Option.bind_eq_bind, Option.bind_some, hcolon, if_true, hvalue,
      h.read v hv rest hrest, Option.map_some]

/-- `parse_value` reads every text of an item that is not nested deeper than the levels
    that are left, in front of anything that does not go on with a number. -/
theorem reads_parseValue (item : Item ν) (levels : Nat) (hdepth : item.depth ≤ levels) :
    Reads (parseValue lib levels) isBlank Stops (texts (Lexis.cjson lib)) item := by
  have hsep : Stops 0x2C := by decide
  induction item using Item.induction generalizing levels with
  | null =>
      refine reads_of_parses fun t ht rest _ => ?_
      obtain rfl := Separated.mem_singleton.mp ht
      cases levels with
      | zero => exact parseValueWith_null rest
      | succ levels => exact parseValueWith_null rest
  | bool value =>
      refine reads_of_parses fun t ht rest _ => ?_
      obtain rfl := Separated.mem_singleton.mp ht
      cases levels with
      | zero => exact parseValueWith_bool value rest
      | succ levels => exact parseValueWith_bool value rest
  | number d =>
      refine reads_of_parses fun t ht rest hrest => ?_
      have hparse := parseNumber_of_mem ht hrest
      obtain ⟨hdecimal, -, -, hstart, -⟩ := ht
      cases t with
      | nil => exact absurd hdecimal (by decide)
      | cons b more =>
          have hb : b = 0x2D ∨ isDigit b = true := hstart b rfl
          have hne : b ≠ 0x6E ∧ b ≠ 0x66 ∧ b ≠ 0x74 ∧ b ≠ quote := by
            refine ⟨?_, ?_, ?_, ?_⟩
            all_goals
              rintro rfl
              revert hb
              decide
          have hwith : ∀ nested, parseValueWith lib nested (b :: more ++ rest)
              = some (.number d, rest) := fun nested => by
            rw [List.cons_append, parseValueWith_of_ne hne.1 hne.2.1 hne.2.2.1, if_neg hne.2.2.2,
              if_pos hb]
            exact hparse
          cases levels with
          | zero => exact hwith _
          | succ levels => exact hwith _
  | string s =>
      refine reads_of_parses fun t ht rest _ => ?_
      have hparse : parseString (t ++ rest) = some (s, rest) := parseString_iff.mpr ⟨t, ht, rfl⟩
      obtain ⟨literal, -, rfl, -⟩ := ht
      have hwith : ∀ nested, parseValueWith lib nested (quote :: (literal ++ [quote]) ++ rest)
          = some (.string s, rest) := fun nested => by
        rw [List.cons_append, parseValueWith_of_ne (by decide) (by decide) (by decide), if_pos rfl]
        rw [List.cons_append] at hparse
        rw [hparse, Option.map_some]
      cases levels with
      | zero => exact hwith _
      | succ levels => exact hwith _
  | raw s => exact reads_of_parses fun t ht => absurd ht (Language.notMem_zero t)
  | array items ih =>
      refine reads_of_parses fun t ht rest _ => ?_
      obtain ⟨inner, hinner, rfl⟩ := mem_texts_array.mp ht
      cases levels with
      | zero => simp [Item.depth] at hdepth
      | succ levels =>
          have hitems := Item.depth_array_le.mp hdepth
          have hread := fun item hitem => ih item hitem levels (hitems item hitem)
          have hlist := Separated.list_of_texts stops_of_isBlank hsep
            (by decide : Stops 0x5D) (by decide) (by decide) (by decide) hread
            (fun item _ t ht => by
              obtain ⟨b, more, rfl, hb⟩ := texts_start ht
              intro c hc
              obtain rfl : b = c := by simpa using hc
              exact (valueStarts_spec b hb).2.1) hinner rest
          show parseValueWith lib _ _ = _
          rw [List.cons_append, List.append_assoc, List.singleton_append,
            parseValueWith_of_ne (by decide) (by decide) (by decide), if_neg (by decide),
            if_neg (by decide), if_pos rfl]
          simp only [parseArray, Option.bind_eq_bind, Option.bind_some, hlist]
          rfl
  | object members ih =>
      refine reads_of_parses fun t ht rest _ => ?_
      obtain ⟨inner, hinner, rfl⟩ := mem_texts_object.mp ht
      cases levels with
      | zero => simp [Item.depth] at hdepth
      | succ levels =>
          have hmembers := Item.depth_object_le.mp hdepth
          have hread := fun member hmember =>
            reads_parseMember (ih member hmember levels (hmembers member hmember))
          have hlist := Separated.list_of_texts stops_of_isBlank hsep
            (by decide : Stops 0x7D) (by decide) (by decide) (by decide) hread
            (fun member _ t ht => by
              obtain ⟨more, rfl⟩ := members_start ht
              intro c hc
              obtain rfl : quote = c := by simpa using hc
              decide) hinner rest
          show parseValueWith lib _ _ = _
          rw [List.cons_append, List.append_assoc, List.singleton_append,
            parseValueWith_of_ne (by decide) (by decide) (by decide), if_neg (by decide),
            if_neg (by decide), if_neg (by decide), if_pos rfl]
          simp only [parseObject, Option.bind_eq_bind, Option.bind_some, hlist]
          rfl

/-! ## What was parsed is a text -/

theorem number_of_parseNumber {text rest : Bytes} {d : ν}
    (hstart : StartsWith (fun b => b = 0x2D ∨ isDigit b) text)
    (h : parseNumber lib text = some (.number d, rest)) :
    ∃ t ∈ (Lexis.cjson lib).number d, text = t ++ rest := by
  simp only [parseNumber] at h
  split_ifs at h with hzero
  obtain ⟨hnumber, rfl⟩ := Prod.mk.inj (Option.some.inj h)
  have hvalue := Item.number.inj hnumber
  set copied := numberCString text with hcopied
  set n := strtodLength copied with hn
  have hdecimal : isDecimal (copied.take n) = true :=
    Nat.findGreatest_of_ne_zero (P := fun n => isDecimal (copied.take n) = true) hn.symm hzero
  have hnle : n ≤ copied.length := Nat.findGreatest_le _
  obtain ⟨behind, hbehind⟩ : copied <+: text :=
    (List.takeWhile_prefix _).trans (List.take_prefix _ _)
  have hlen : copied.length ≤ NUMBER_SIZE :=
    (List.takeWhile_prefix _).length_le.trans (List.length_take_le _ _)
  refine ⟨copied.take n, ⟨hdecimal, ?_, ?_, ?_, hvalue⟩, ?_⟩
  · exact (List.length_take_le _ _).trans (hnle.trans hlen)
  · exact fun b hb => List.mem_takeWhile_imp (List.mem_of_mem_take hb)
  · intro b hb
    refine hstart b ?_
    rw [← hbehind, List.head?_append]
    cases hc : copied with
    | nil => simp [hc] at hb
    | cons c more =>
        obtain ⟨k, hk⟩ : ∃ k, n = k + 1 := ⟨n - 1, by omega⟩
        simpa [hc, hk] using hb
  · have hsplit : text = copied.take n ++ (copied.drop n ++ behind) := by
      rw [← List.append_assoc, List.take_append_drop, hbehind]
    have hdrop : text.drop n = copied.drop n ++ behind := by
      conv_lhs => rw [hsplit]
      rw [List.drop_append_of_le_length (by simp [hnle]), List.drop_take_self, List.nil_append]
    rw [hdrop]
    exact hsplit

theorem sound_parseMember {value : Bytes → Option (Item ν × Bytes)} {P : Item ν → Prop}
    (h : Sound value fun item => {t | t ∈ texts (Lexis.cjson lib) item ∧ P item}) :
    Sound (parseMember value) fun member =>
      {t | t ∈ textsOfMember (Lexis.cjson lib) member ∧ P member.2} := by
  rintro text ⟨name, item⟩ rest hparse
  obtain ⟨after, inner, hname, hafter, hvalue⟩ := parseMember_eq_some hparse
  obtain ⟨s, hs, rfl⟩ := parseString_iff.mp hname
  obtain ⟨w, hw, hsplit⟩ := Separated.exists_blanks isBlank after
  obtain ⟨w', hw', hsplit'⟩ := Separated.exists_blanks isBlank inner
  obtain ⟨v, ⟨hv, hP⟩, hrest⟩ := h _ _ _ hvalue
  refine ⟨s ++ (w ++ 0x3A :: (w' ++ v)), ⟨mem_memberTexts.mpr ⟨s, hs, w, hw, w', hw', v, hv, rfl⟩,
    hP⟩, ?_⟩
  rw [hsplit, hafter, hsplit', hrest]
  simp

/-- What `parse_value` accepts is a text of the item it gives, and that is nested no deeper
    than the levels that were left. -/
theorem texts_of_parseValue (levels : Nat) :
    Sound (parseValue lib levels) fun item =>
      {t | t ∈ texts (Lexis.cjson lib) item ∧ item.depth ≤ levels} := by
  have hleaf : ∀ {nested text rest item}, ParseCase lib nested text rest item →
      nested = none ∨ item.depth = 0 → ∃ t, (t ∈ texts (Lexis.cjson lib) item ∧
        item.depth ≤ 0) ∧ text = t ++ rest := by
    intro nested text rest item hcase hflat
    cases hcase with
    | null htext => exact ⟨_, ⟨rfl, Nat.le_refl 0⟩, htext⟩
    | bool value htext => exact ⟨_, ⟨rfl, Nat.le_refl 0⟩, htext⟩
    | string s hs =>
        obtain ⟨t, ht, rfl⟩ := parseString_iff.mp hs
        exact ⟨t, ⟨ht, Nat.le_refl 0⟩, rfl⟩
    | number d hstart hnumber =>
        obtain ⟨t, ht, rfl⟩ := number_of_parseNumber hstart hnumber
        exact ⟨t, ⟨ht, Nat.le_refl 0⟩, rfl⟩
    | array items value inner hnested htext hlist =>
        rcases hflat with hnone | hdepth
        · rw [hnone] at hnested
          nomatch hnested
        · simp [Item.depth] at hdepth
    | object members value inner hnested htext hlist =>
        rcases hflat with hnone | hdepth
        · rw [hnone] at hnested
          nomatch hnested
        · simp [Item.depth] at hdepth
  induction levels with
  | zero =>
      intro text item rest h
      exact hleaf (parse_case h) (.inl rfl)
  | succ levels ih =>
      intro text item rest h
      have hcase := parse_case h
      by_cases hflat : item.depth = 0
      · obtain ⟨t, ⟨ht, hdepth⟩, hsplit⟩ := hleaf hcase (.inr hflat)
        exact ⟨t, ⟨ht, by omega⟩, hsplit⟩
      · cases hcase with
        | null htext => exact absurd rfl hflat
        | bool value htext => exact absurd rfl hflat
        | string s hs => exact absurd rfl hflat
        | number d hstart hnumber => exact absurd rfl hflat
        | array items value inner hnested htext hlist =>
            obtain rfl := Option.some.inj hnested
            obtain ⟨text', htexts, rfl⟩ := Separated.texts_of_list ih hlist
            have hitems : ∀ item ∈ items, item.depth ≤ levels := fun item hitem =>
              (Separated.exists_mem_of_texts htexts hitem).choose_spec.2
            refine ⟨0x5B :: (text' ++ [0x5D]), ⟨mem_texts_array.mpr ⟨text', ?_, rfl⟩,
              Item.depth_array_le.mpr hitems⟩, by simp [htext]⟩
            exact Separated.texts_mono (fun _ hb => hb) (fun _ _ _ ht => ht.1) htexts
        | object members value inner hnested htext hlist =>
            obtain rfl := Option.some.inj hnested
            obtain ⟨text', htexts, rfl⟩ := Separated.texts_of_list (sound_parseMember ih) hlist
            have hmembers : ∀ member ∈ members, member.2.depth ≤ levels := fun member hmember =>
              (Separated.exists_mem_of_texts htexts hmember).choose_spec.2
            refine ⟨0x7B :: (text' ++ [0x7D]), ⟨mem_texts_object.mpr ⟨text', ?_, rfl⟩,
              Item.depth_object_le.mpr hmembers⟩, by simp [htext]⟩
            exact Separated.texts_mono (fun _ hb => hb) (fun _ _ _ ht => ht.1) htexts

end ModJanus
