/-
  ModJanus.Text.Parse

  `parse_number`, `parse_value`, `parse_array`, `parse_object` and `cJSON_Parse`.

  A buffer is the text that is left of it: its terminator is the end of the list, and an
  `offset` that moves on is a shorter list.  Memory is always there.  Of a number only
  `valuedouble` is kept; nothing reads `valueint`.
-/
import Mathlib.Data.Nat.Find
import ModJanus.Lib.Separated
import ModJanus.Text.Strings

namespace ModJanus

/-- What the C library does with doubles. -/
structure CLib (ν : Type) where
  /-- The value of a decimal number in C's notation. -/
  strtod : Bytes → ν
  /-- `d * 0 == 0`: neither an infinity nor a NaN. -/
  finite : ν → Bool
  /-- `a == b`. -/
  equal : ν → ν → Bool
  /-- `sprintf` with `%1.15g`, `%1.17g`: the digits asked for, and the double. -/
  sprintf : Nat → ν → Bytes

/-! ## Numbers -/

def isDigit (b : UInt8) : Bool := 0x30 ≤ b && b ≤ 0x39

/-- A sign at the front is dropped. -/
def dropSign : Bytes → Bytes
  | [] => []
  | b :: t => if b = 0x2B ∨ b = 0x2D then t else b :: t

/-- `e`, a sign or none, and digits. -/
def isExponent : Bytes → Bool
  | [] => false
  | b :: t => (b = 0x65 || b = 0x45) && dropSign t ≠ [] && (dropSign t).all isDigit

/-- The digits behind a point, and what follows them. -/
def fractionOf : Bytes → Bytes × Bytes
  | [] => ([], [])
  | b :: t => if b = 0x2E then (t.takeWhile isDigit, t.dropWhile isDigit) else ([], b :: t)

/-- The decimal notation that `strtod` expects: digits with a point among them or not, in
    front of it a sign, behind it an exponent.  Hexadecimal numbers, infinities and NaNs
    have bytes that `parse_number` does not let through. -/
def isDecimal (t : Bytes) : Bool :=
  let unsigned := dropSign t
  let whole := unsigned.takeWhile isDigit
  let (fraction, exponent) := fractionOf (unsigned.dropWhile isDigit)
  (whole ≠ [] || fraction ≠ []) && (exponent = [] || isExponent exponent)

/-- How much of the text `strtod` takes: the longest part in front that is a number. -/
def strtodLength (text : Bytes) : Nat :=
  Nat.findGreatest (fun n => isDecimal (text.take n) = true) text.length

/-- The bytes that `parse_number` copies. -/
def isNumberByte (b : UInt8) : Bool :=
  isDigit b || b = 0x2B || b = 0x2D || b = 0x65 || b = 0x45 || b = 0x2E

/-- `sizeof(number_c_string) - 1`. -/
def NUMBER_SIZE : Nat := 63

/-- The bytes at the front of the text that can belong to a number, as many as the buffer
    holds. -/
def numberCString (text : Bytes) : Bytes := (text.take NUMBER_SIZE).takeWhile isNumberByte

variable {ν : Type} (lib : CLib ν)

/-- `parse_number`; only what `strtod` took is behind it. -/
def parseNumber (text : Bytes) : Option (Item ν × Bytes) :=
  let afterEnd := strtodLength (numberCString text)
  if afterEnd = 0 then none
  else some (.number (lib.strtod ((numberCString text).take afterEnd)), text.drop afterEnd)

/-! ## Values -/

/-- `buffer_skip_whitespace`: all control characters are. -/
def isBlank (b : UInt8) : Bool := b ≤ 32

/-- One round of the loop of `parse_object`: a name, a colon and a value. -/
def parseMember (value : Bytes → Option (Item ν × Bytes)) (text : Bytes) :
    Option ((CStr × Item ν) × Bytes) := do
  let (name, rest) ← parseString text
  match rest.dropWhile isBlank with
  | [] => none
  | b :: rest =>
      if b = 0x3A then
        (value (rest.dropWhile isBlank)).map fun (item, rest) => ((name, item), rest)
      else none

/-- `parse_array` behind the bracket.  `value` parses what is one level deeper; there is
    none at `CJSON_NESTING_LIMIT`. -/
def parseArray (value : Option (Bytes → Option (Item ν × Bytes))) (text : Bytes) :
    Option (Item ν × Bytes) := do
  let value ← value
  let (items, rest) ← Separated.list value isBlank 0x2C 0x5D text
  return (.array items, rest)

/-- `parse_object` behind the brace. -/
def parseObject (value : Option (Bytes → Option (Item ν × Bytes))) (text : Bytes) :
    Option (Item ν × Bytes) := do
  let value ← value
  let (members, rest) ← Separated.list (parseMember value) isBlank 0x2C 0x7D text
  return (.object members, rest)

/-- `parse_value`, with what parses the values inside of it. -/
def parseValueWith (nested : Option (Bytes → Option (Item ν × Bytes))) (text : Bytes) :
    Option (Item ν × Bytes) :=
  if (ascii "null").isPrefixOf text then some (.null, text.drop 4)
  else if (ascii "false").isPrefixOf text then some (.bool false, text.drop 5)
  else if (ascii "true").isPrefixOf text then some (.bool true, text.drop 4)
  else
    match text with
    | [] => none
    | b :: rest =>
        if b = quote then (parseString (b :: rest)).map fun (s, rest) => (.string s, rest)
        else if b = 0x2D ∨ isDigit b then parseNumber lib (b :: rest)
        else if b = 0x5B then parseArray nested rest
        else if b = 0x7B then parseObject nested rest
        else none

/-- `parse_value` where so many more levels fit below `CJSON_NESTING_LIMIT`. -/
def parseValue : Nat → Bytes → Option (Item ν × Bytes)
  | 0 => parseValueWith lib none
  | levels + 1 => parseValueWith lib (some (parseValue levels))

/-- `CJSON_NESTING_LIMIT`. -/
def CJSON_NESTING_LIMIT : Nat := 1000

/-- `skip_utf8_bom`, which wants two more bytes in the buffer, one of them the terminator. -/
def skipUtf8Bom (text : Bytes) : Bytes :=
  if [0xEF, 0xBB, 0xBF].isPrefixOf text ∧ 4 ≤ text.length then text.drop 3 else text

/-- `cJSON_Parse`.  What follows the value is not looked at. -/
def cJSON_Parse (value : CStr) : Option (Item ν) :=
  (parseValue lib CJSON_NESTING_LIMIT ((skipUtf8Bom value.bytes).dropWhile isBlank)).map Prod.fst

/-! ## What parse_value looks at -/

variable {lib} {nested nested' : Option (Bytes → Option (Item ν × Bytes))} {text : Bytes}
  {b : UInt8}

theorem isPrefixOf_cons_of_ne {a b : UInt8} (h : a ≠ b) (word rest : Bytes) :
    (a :: word).isPrefixOf (b :: rest) = false := by
  rw [List.isPrefixOf, beq_false_of_ne h, Bool.false_and]

/-- None of the words begins with another byte. -/
theorem parseValueWith_of_ne (hn : b ≠ 0x6E) (hf : b ≠ 0x66) (ht : b ≠ 0x74) (rest : Bytes) :
    parseValueWith lib nested (b :: rest) =
      if b = quote then (parseString (b :: rest)).map fun (s, rest) => (.string s, rest)
      else if b = 0x2D ∨ isDigit b then parseNumber lib (b :: rest)
      else if b = 0x5B then parseArray nested rest
      else if b = 0x7B then parseObject nested rest
      else none := by
  have h1 : (ascii "null").isPrefixOf (b :: rest) = false := isPrefixOf_cons_of_ne (Ne.symm hn) _ _
  have h2 : (ascii "false").isPrefixOf (b :: rest) = false := isPrefixOf_cons_of_ne (Ne.symm hf) _ _
  have h3 : (ascii "true").isPrefixOf (b :: rest) = false := isPrefixOf_cons_of_ne (Ne.symm ht) _ _
  simp only [parseValueWith, h1, h2, h3, Bool.false_eq_true, if_false]

theorem parseValueWith_null (rest : Bytes) :
    parseValueWith lib nested (ascii "null" ++ rest) = some (.null, rest) := by
  have h1 : (ascii "null").isPrefixOf (ascii "null" ++ rest) = true := by simp
  simp only [parseValueWith, h1, if_true]
  rfl

theorem parseValueWith_bool (value : Bool) (rest : Bytes) :
    parseValueWith lib nested (ascii (if value then "true" else "false") ++ rest)
      = some (.bool value, rest) := by
  cases value with
  | false =>
      have h1 : (ascii "null").isPrefixOf (ascii "false" ++ rest) = false := rfl
      have h2 : (ascii "false").isPrefixOf (ascii "false" ++ rest) = true := by simp
      simp only [parseValueWith, Bool.false_eq_true, if_false, h1, h2, if_true]
      rfl
  | true =>
      have h1 : (ascii "null").isPrefixOf (ascii "true" ++ rest) = false := rfl
      have h2 : (ascii "false").isPrefixOf (ascii "true" ++ rest) = false := rfl
      have h3 : (ascii "true").isPrefixOf (ascii "true" ++ rest) = true := by simp
      simp only [parseValueWith, Bool.false_eq_true, if_false, h1, h2, h3, if_true]
      rfl

/-- What a text that was parsed began with. -/
inductive ParseCase (lib : CLib ν) (nested : Option (Bytes → Option (Item ν × Bytes)))
    (text rest : Bytes) : Item ν → Prop where
  | null (htext : text = ascii "null" ++ rest) : ParseCase lib nested text rest .null
  | bool (value : Bool) (htext : text = ascii (if value then "true" else "false") ++ rest) :
      ParseCase lib nested text rest (.bool value)
  | string (s : CStr) (h : parseString text = some (s, rest)) :
      ParseCase lib nested text rest (.string s)
  | number (d : ν) (hstart : Separated.StartsWith (fun b => b = 0x2D ∨ isDigit b) text)
      (h : parseNumber lib text = some (.number d, rest)) :
      ParseCase lib nested text rest (.number d)
  | array (items : List (Item ν)) (value : Bytes → Option (Item ν × Bytes)) (inner : Bytes)
      (hnested : nested = some value) (htext : text = 0x5B :: inner)
      (h : Separated.list value isBlank 0x2C 0x5D inner = some (items, rest)) :
      ParseCase lib nested text rest (.array items)
  | object (members : List (CStr × Item ν)) (value : Bytes → Option (Item ν × Bytes))
      (inner : Bytes) (hnested : nested = some value) (htext : text = 0x7B :: inner)
      (h : Separated.list (parseMember value) isBlank 0x2C 0x7D inner = some (members, rest)) :
      ParseCase lib nested text rest (.object members)

theorem eq_append_of_isPrefixOf {word : Bytes} (h : word.isPrefixOf text = true) :
    text = word ++ text.drop word.length := by
  obtain ⟨rest, rfl⟩ := List.isPrefixOf_iff_prefix.mp h
  rw [List.drop_left]

/-- The branches of `parse_value`. -/
theorem parse_case {item : Item ν} {rest : Bytes}
    (h : parseValueWith lib nested text = some (item, rest)) :
    ParseCase lib nested text rest item := by
  unfold parseValueWith at h
  split at h
  · rename_i hnull
    obtain ⟨rfl, rfl⟩ := Prod.mk.inj (Option.some.inj h)
    exact .null (eq_append_of_isPrefixOf hnull)
  split at h
  · rename_i hfalse
    obtain ⟨rfl, rfl⟩ := Prod.mk.inj (Option.some.inj h)
    exact .bool false (eq_append_of_isPrefixOf hfalse)
  split at h
  · rename_i htrue
    obtain ⟨rfl, rfl⟩ := Prod.mk.inj (Option.some.inj h)
    exact .bool true (eq_append_of_isPrefixOf htrue)
  cases text with
  | nil => exact absurd h (by simp)
  | cons b inner =>
      simp only at h
      split_ifs at h with hq hnumber ha ho
      · obtain ⟨⟨s, rest'⟩, hstring, hpair⟩ := Option.map_eq_some_iff.mp h
        obtain ⟨rfl, rfl⟩ := Prod.mk.inj hpair
        exact .string s hstring
      · have hparse := h
        simp only [parseNumber] at h
        split_ifs at h with hzero
        obtain ⟨rfl, rfl⟩ := Prod.mk.inj (Option.some.inj h)
        exact .number _ (fun c hc => (show c = b by simpa using hc.symm) ▸ hnumber) hparse
      · subst ha
        simp only [parseArray, Option.bind_eq_bind, Option.bind_eq_some_iff, Prod.exists] at h
        obtain ⟨value, hnested, items, rest', hlist, hpair⟩ := h
        obtain ⟨rfl, rfl⟩ := Prod.mk.inj (Option.some.inj hpair)
        exact .array items value inner hnested rfl hlist
      · subst ho
        simp only [parseObject, Option.bind_eq_bind, Option.bind_eq_some_iff, Prod.exists] at h
        obtain ⟨value, hnested, members, rest', hlist, hpair⟩ := h
        obtain ⟨rfl, rfl⟩ := Prod.mk.inj (Option.some.inj hpair)
        exact .object members value inner hnested rfl hlist

/-- A member that was parsed. -/
theorem parseMember_eq_some {value : Bytes → Option (Item ν × Bytes)} {name : CStr}
    {item : Item ν} {rest : Bytes} (h : parseMember value text = some ((name, item), rest)) :
    ∃ after inner, parseString text = some (name, after) ∧
      after.dropWhile isBlank = 0x3A :: inner ∧
      value (inner.dropWhile isBlank) = some (item, rest) := by
  simp only [parseMember, Option.bind_eq_bind, Option.bind_eq_some_iff, Prod.exists] at h
  obtain ⟨name', after, hname, hrest⟩ := h
  split at hrest
  · exact absurd hrest (by simp)
  · rename_i c inner hafter
    split_ifs at hrest with hc
    obtain ⟨⟨item', rest'⟩, hvalue, hpair⟩ := Option.map_eq_some_iff.mp hrest
    obtain ⟨hmember, rfl⟩ := Prod.mk.inj hpair
    obtain ⟨rfl, rfl⟩ := Prod.mk.inj hmember
    exact ⟨after, inner, hname, by rw [hafter, hc], hvalue⟩

/-! ## More levels -/

theorem parseMember_mono {value value' : Bytes → Option (Item ν × Bytes)}
    (h : Separated.Extends value value') :
    Separated.Extends (parseMember value) (parseMember value') := by
  rintro text ⟨⟨name, item⟩, rest⟩ hres
  obtain ⟨after, inner, hname, hafter, hvalue⟩ := parseMember_eq_some hres
  simp only [parseMember, hname, Option.bind_eq_bind, Option.bind_some, hafter, if_true,
    h _ _ hvalue, Option.map_some]

/-- Where the values inside are parsed, the value is. -/
theorem parseValueWith_mono
    (h : ∀ value, nested = some value →
      ∃ value', nested' = some value' ∧ Separated.Extends value value') :
    Separated.Extends (parseValueWith lib nested) (parseValueWith lib nested') := by
  rintro text ⟨item, rest⟩ hres
  cases parse_case hres with
  | null htext => rw [htext, parseValueWith_null]
  | bool value htext => rw [htext, parseValueWith_bool]
  | string s hs =>
      obtain ⟨t, ⟨literal, -, rfl, -⟩, rfl⟩ := parseString_iff.mp hs
      rw [List.cons_append] at hs ⊢
      rw [parseValueWith_of_ne (by decide) (by decide) (by decide), if_pos rfl, hs, Option.map_some]
  | number d hstart hnumber =>
      cases text with
      | nil => simp [parseNumber, numberCString, strtodLength] at hnumber
      | cons b text =>
          have hb : b = 0x2D ∨ isDigit b = true := hstart b rfl
          have hne : b ≠ 0x6E ∧ b ≠ 0x66 ∧ b ≠ 0x74 ∧ b ≠ quote := by
            refine ⟨?_, ?_, ?_, ?_⟩
            all_goals
              rintro rfl
              revert hb
              decide
          rw [parseValueWith_of_ne hne.1 hne.2.1 hne.2.2.1, if_neg hne.2.2.2, if_pos hb, hnumber]
  | array items value inner hnested htext hlist =>
      obtain ⟨value', hnested', hext⟩ := h value hnested
      rw [htext, parseValueWith_of_ne (by decide) (by decide) (by decide), if_neg (by decide),
        if_neg (by decide), if_pos rfl]
      simp only [parseArray, hnested', Option.bind_eq_bind, Option.bind_some,
        Separated.list_mono hext _ _ hlist]
      rfl
  | object members value inner hnested htext hlist =>
      obtain ⟨value', hnested', hext⟩ := h value hnested
      rw [htext, parseValueWith_of_ne (by decide) (by decide) (by decide), if_neg (by decide),
        if_neg (by decide), if_neg (by decide), if_pos rfl]
      simp only [parseObject, hnested', Option.bind_eq_bind, Option.bind_some,
        Separated.list_mono (parseMember_mono hext) _ _ hlist]
      rfl

theorem parseValue_succ (levels : Nat) :
    Separated.Extends (parseValue lib levels) (parseValue lib (levels + 1)) := by
  induction levels with
  | zero => exact parseValueWith_mono fun value h => nomatch h
  | succ levels ih =>
      refine parseValueWith_mono fun value h => ⟨_, rfl, ?_⟩
      obtain rfl := Option.some.inj h
      exact ih

/-- With more levels left, nothing is lost. -/
theorem parseValue_mono {levels levels' : Nat} (hle : levels ≤ levels') :
    Separated.Extends (parseValue lib levels) (parseValue lib levels') := by
  induction hle with
  | refl => exact fun _ _ h => h
  | step _ ih => exact fun text result h => parseValue_succ _ text result (ih text result h)

end ModJanus
