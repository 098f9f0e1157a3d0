/-
  ModJanus.Text.Strings

  String literals: `parse_hex4`, `utf16_literal_to_utf8` and `parse_string` of cJSON.c,
  and the escaping of `print_string_ptr`.

  `StringBody` is the notation that JSON defines, `parseString_of_body` says that
  `parse_string` reads every literal of it as what it denotes, and `stringBody_escape`
  that `print_string_ptr` writes in it.  `parse_string` takes more: a literal may hold
  control characters, and a digit that is none makes a unit of zero, which ends the
  string.
-/
import ModJanus.Lib.Utf16
import ModJanus.Text.Item

namespace ModJanus

/-- `"`. -/
def quote : UInt8 := 0x22

/-- `\`. -/
def backslash : UInt8 := 0x5C

/-! ## Parsing -/

/-- `parse_hex4`: zero when one of the four is no digit. -/
def parseHex4 (input : Bytes) : Nat := (Utf16.hexValue 0 (input.take 4)).getD 0

/-- The loop of `utf16_literal_to_utf8` from the last byte to the second one: what is
    left of the code point, and the bytes. -/
def continuationBytes : Nat → Nat → Bytes → Nat × Bytes
  | 0, codepoint, out => (codepoint, out)
  | n + 1, codepoint, out =>
      continuationBytes n (codepoint >>> 6) (UInt8.ofNat ((codepoint ||| 0x80) &&& 0xBF) :: out)

/-- A code point in `utf8Length` bytes, of which the first has the mark. -/
def markedBytes (utf8Length firstByteMark codepoint : Nat) : Bytes :=
  let (codepoint, out) := continuationBytes (utf8Length - 1) codepoint []
  UInt8.ofNat ((codepoint ||| firstByteMark) &&& 0xFF) :: out

/-- The second half of `utf16_literal_to_utf8`: the code point in UTF-8. -/
def utf8OfCodepoint (codepoint : Nat) : Option Bytes :=
  if codepoint < 0x80 then some [UInt8.ofNat (codepoint &&& 0x7F)]
  else if codepoint < 0x800 then some (markedBytes 2 0xC0 codepoint)
  else if codepoint < 0x10000 then some (markedBytes 3 0xE0 codepoint)
  else if codepoint ≤ 0x10FFFF then some (markedBytes 4 0xF0 codepoint)
  else none

/-- The first half: the code point of the literal, and its `sequence_length`.  `input`
    ends where the string literal does. -/
def codepointOf (input : Bytes) : Option (Nat × Nat) :=
  let firstCode := parseHex4 (input.drop 2)
  let secondSequence := input.drop 6
  let secondCode := parseHex4 (secondSequence.drop 2)
  if input.length < 6 then none
  else if 0xDC00 ≤ firstCode ∧ firstCode ≤ 0xDFFF then none
  else if 0xD800 ≤ firstCode ∧ firstCode ≤ 0xDBFF then
    if secondSequence.length < 6 then none
    else if secondSequence.take 2 ≠ [backslash, 0x75] then none
    else if secondCode < 0xDC00 ∨ 0xDFFF < secondCode then none
    else some (0x10000 + (((firstCode &&& 0x3FF) <<< 10) ||| (secondCode &&& 0x3FF)), 12)
  else some (firstCode, 6)

/-- `utf16_literal_to_utf8`: the bytes, and how much of the input they stood for. -/
def utf16LiteralToUtf8 (input : Bytes) : Option (Bytes × Nat) := do
  let (codepoint, sequenceLength) ← codepointOf input
  let out ← utf8OfCodepoint codepoint
  return (out, sequenceLength)

/-- The escapes of two characters, with what they stand for: `b`, `f`, `n`, `r`, `t`, and
    three that stand for themselves. -/
def shortEscapes : List (UInt8 × UInt8) :=
  [(0x62, 0x08), (0x66, 0x0C), (0x6E, 0x0A), (0x72, 0x0D), (0x74, 0x09),
    (quote, quote), (backslash, backslash), (0x2F, 0x2F)]

/-- The escape sequence at the front of `input`.  Behind the literal stands the closing
    quote, which is what a last backslash sees. -/
def escapeSequence (input : Bytes) : Option (Bytes × Nat) :=
  let e := input.getD 1 quote
  match shortEscapes.lookup e with
  | some b => some ([b], 2)
  | none => if e = 0x75 then utf16LiteralToUtf8 input else none

/-- The loop of `parse_string` through the literal, of which `skip` bytes belong to the
    last escape sequence. -/
def unescape : Nat → Bytes → Option Bytes
  | _, [] => some []
  | skip + 1, _ :: input => unescape skip input
  | 0, b :: input =>
      if b ≠ backslash then (unescape 0 input).map (b :: ·)
      else
        match escapeSequence (b :: input) with
        | none => none
        | some (out, sequenceLength) => (unescape (sequenceLength - 1) input).map (out ++ ·)

/-- The literal up to the closing quote, and what follows that.  A backslash takes the
    next byte with it. -/
def scanString : Bytes → Option (Bytes × Bytes)
  | [] => none
  | b :: input =>
      if b = quote then some ([], input)
      else if b = backslash then
        match input with
        | [] => none
        | e :: input => (scanString input).map fun (literal, rest) => (b :: e :: literal, rest)
      else (scanString input).map fun (literal, rest) => (b :: literal, rest)

/-- `parse_string`: the string, and what follows the closing quote.  The bytes are kept as
    a C string. -/
def parseString (text : Bytes) : Option (CStr × Bytes) :=
  match text with
  | [] => none
  | b :: input =>
      if b ≠ quote then none
      else do
        let (literal, rest) ← scanString input
        let output ← unescape 0 literal
        return (cString output, rest)

/-! ## Printing -/

/-- A hexadecimal digit of `%x`. -/
def hexLower (d : Nat) : UInt8 := UInt8.ofNat (if d < 10 then 0x30 + d else 0x57 + d)

/-- The escapes that `print_string_ptr` writes in two characters. -/
def printEscapes : List (UInt8 × UInt8) :=
  [(backslash, backslash), (quote, quote), (0x08, 0x62), (0x0C, 0x66), (0x0A, 0x6E),
    (0x0D, 0x72), (0x09, 0x74)]

/-- What `print_string_ptr` writes for a byte; `u%04x` for a control character. -/
def escapeByte (b : UInt8) : Bytes :=
  if 31 < b ∧ b ≠ quote ∧ b ≠ backslash then [b]
  else
    match printEscapes.lookup b with
    | some e => [backslash, e]
    | none =>
        [backslash, 0x75, hexLower 0, hexLower 0, hexLower (b.toNat / 16), hexLower (b.toNat % 16)]

/-- A string between its quotes. -/
def renderString (s : CStr) : Bytes := quote :: (s.bytes.flatMap escapeByte ++ [quote])

/-! ## Characters -/

/-- One byte after the other: six bits each, the rest in front. -/
theorem continuationBytes_succ (n codepoint : Nat) (out : Bytes) :
    continuationBytes (n + 1) codepoint out
      = continuationBytes n (codepoint / 0x40) (UInt8.ofNat (codepoint % 0x40 + 0x80) :: out) := by
  rw [continuationBytes, Utf16.or_and_continuation, Nat.shiftRight_eq_div_pow]

theorem continuationBytes_zero (codepoint : Nat) (out : Bytes) :
    continuationBytes 0 codepoint out = (codepoint, out) := rfl

/-- A code point that is a character is encoded as this character. -/
theorem utf8OfCodepoint_toNat (c : Char) :
    utf8OfCodepoint c.toNat = some (String.utf8EncodeChar c) := by
  have hmax : c.toNat ≤ 0x10FFFF := by
    rcases Utf16.char_bounds c with h | h
    · omega
    · omega
  have hfirst := Utf16.or_and_first
  unfold utf8OfCodepoint
  by_cases h1 : c.toNat < 0x80
  · rw [if_pos h1, Utf16.utf8EncodeChar_one h1, show 0x7F = 2 ^ 7 - 1 by rfl,
      Nat.and_two_pow_sub_one_of_lt_two_pow h1]
  · by_cases h2 : c.toNat < 0x800
    · rw [if_neg h1, if_pos h2, Utf16.utf8EncodeChar_two (Nat.le_of_not_lt h1) h2]
      simp only [markedBytes, continuationBytes_succ, continuationBytes_zero,
        hfirst (0xC0, 0x20) (by simp) (c.toNat / 0x40) (by simp; omega)]
    · by_cases h3 : c.toNat < 0x10000
      · rw [if_neg h1, if_neg h2, if_pos h3, Utf16.utf8EncodeChar_three (Nat.le_of_not_lt h2) h3]
        simp only [markedBytes, continuationBytes_succ, continuationBytes_zero,
          hfirst (0xE0, 0x10) (by simp) (c.toNat / 0x40 / 0x40) (by simp; omega)]
      · rw [if_neg h1, if_neg h2, if_neg h3, if_pos hmax,
          Utf16.utf8EncodeChar_four (Nat.le_of_not_lt h3)]
        simp only [markedBytes, continuationBytes_succ, continuationBytes_zero,
          hfirst (0xF0, 0x08) (by simp) (c.toNat / 0x40 / 0x40 / 0x40) (by simp; omega)]

/-- A unit that is written out is read back, whatever follows. -/
theorem parseHex4_unitEscape {unit : Nat} {u : Bytes} (hu : u ∈ Utf16.unitEscape unit)
    (rest : Bytes) : parseHex4 ((u ++ rest).drop 2) = unit := by
  obtain ⟨digits, hlen, hvalue, rfl⟩ := hu
  have htake : (digits ++ rest).take 4 = digits := by rw [← hlen, List.take_left]
  simp only [parseHex4, List.cons_append, List.drop_succ_cons, List.drop_zero, htake, hvalue,
    Option.getD_some]

theorem length_of_mem_unitEscape {unit : Nat} {u : Bytes} (hu : u ∈ Utf16.unitEscape unit) :
    u.length = 6 := by
  obtain ⟨digits, hlen, -, rfl⟩ := hu
  simp [hlen]

/-- `utf16_literal_to_utf8` of an escaped character. -/
theorem utf16LiteralToUtf8_escapes {c : Char} {u : Bytes} (hu : u ∈ Utf16.escapes c)
    (rest : Bytes) :
    utf16LiteralToUtf8 (u ++ rest) = some (String.utf8EncodeChar c, u.length) := by
  have hcodepoint : codepointOf (u ++ rest) = some (c.toNat, u.length) := by
    unfold Utf16.escapes at hu
    by_cases hplane : c.toNat < 0x10000
    · rw [if_pos hplane] at hu
      have hlen := length_of_mem_unitEscape hu
      have hc := Utf16.char_bounds c
      simp only [codepointOf, parseHex4_unitEscape hu]
      rw [if_neg (by simp [hlen]), if_neg (by omega), if_neg (by omega), hlen]
    · rw [if_neg hplane] at hu
      obtain ⟨first, hfirst, second, hsecond, rfl⟩ := Language.mem_mul.mp hu
      have hlen1 := length_of_mem_unitEscape hfirst
      have hlen2 := length_of_mem_unitEscape hsecond
      have hmax : c.toNat < 0x110000 := by
        rcases Utf16.char_bounds c with h | h
        · omega
        · omega
      have hhigh := Utf16.high_bounds (Nat.le_of_not_lt hplane) hmax
      have hlow := Utf16.low_bounds c.toNat
      have hdrop : (first ++ second ++ rest).drop 6 = second ++ rest := by
        rw [List.append_assoc, ← hlen1, List.drop_left]
      have hcode1 : parseHex4 ((first ++ second ++ rest).drop 2) = Utf16.high c.toNat := by
        rw [List.append_assoc, parseHex4_unitEscape hfirst]
      have hcode2 := parseHex4_unitEscape hsecond rest
      have htwo : (second ++ rest).take 2 = [backslash, 0x75] := by
        obtain ⟨digits, -, -, rfl⟩ := hsecond
        rfl
      simp only [codepointOf, hdrop, hcode1, hcode2, htwo]
      rw [if_neg (by simp [hlen1]), if_neg (by omega), if_pos hhigh, if_neg (by simp [hlen2]),
        if_neg (by simp), if_neg (by omega),
        Utf16.surrogates_combine (Nat.le_of_not_lt hplane) hmax]
      simp [hlen1, hlen2]
  rw [utf16LiteralToUtf8, hcodepoint]
  show (utf8OfCodepoint c.toNat).bind _ = _
  rw [utf8OfCodepoint_toNat]
  rfl

/-! ## The notation of JSON -/

/-- The text between the quotes, and the bytes it denotes: bytes for themselves, short
    escapes, and characters in their UTF-16 escapes. -/
inductive StringBody : Bytes → Bytes → Prop where
  | nil : StringBody [] []
  | byte {b : UInt8} {text s : Bytes} (hb : 0x20 ≤ b ∧ b ≠ quote ∧ b ≠ backslash)
      (more : StringBody text s) : StringBody (b :: text) (b :: s)
  | short {e b : UInt8} {text s : Bytes} (he : (e, b) ∈ shortEscapes)
      (more : StringBody text s) : StringBody (backslash :: e :: text) (b :: s)
  | unicode {c : Char} {u text s : Bytes} (hu : u ∈ Utf16.escapes c)
      (more : StringBody text s) : StringBody (u ++ text) (String.utf8EncodeChar c ++ s)

/-- What is skipped is not looked at. -/
theorem unescape_skip (skip : Nat) (input : Bytes) :
    unescape skip input = unescape 0 (input.drop skip) := by
  induction input generalizing skip with
  | nil => simp [unescape]
  | cons b input ih =>
      cases skip with
      | zero => rfl
      | succ skip => rw [unescape, ih, List.drop_succ_cons]

/-- The short escapes are a table: one meaning each, and `u` is none of them. -/
theorem shortEscapes_lookup :
    (∀ p ∈ shortEscapes, shortEscapes.lookup p.1 = some p.2) ∧ shortEscapes.lookup 0x75 = none :=
  ⟨forall_mem_of_all (by decide), by decide⟩

theorem mem_escapes {c : Char} {u : Bytes} (hu : u ∈ Utf16.escapes c) :
    ∃ digits : Bytes, u = backslash :: 0x75 :: digits := by
  unfold Utf16.escapes at hu
  split at hu
  · obtain ⟨digits, -, -, rfl⟩ := hu
    exact ⟨digits, rfl⟩
  · obtain ⟨_, ⟨digits, -, -, rfl⟩, second, -, rfl⟩ := Language.mem_mul.mp hu
    exact ⟨digits ++ second, rfl⟩

/-- The loop of `parse_string` computes what the text denotes. -/
theorem unescape_of_body {text s : Bytes} (h : StringBody text s) : unescape 0 text = some s := by
  induction h with
  | nil => rfl
  | @byte b text s hb more ih =>
      rw [unescape, if_pos hb.2.2, ih]
      rfl
  | @short e b text s he more ih =>
      have hlookup : shortEscapes.lookup e = some b := shortEscapes_lookup.1 (e, b) he
      rw [unescape, if_neg (by simp)]
      simp only [escapeSequence, List.getD_cons_succ, List.getD_cons_zero, hlookup]
      rw [unescape_skip]
      simp [ih]
  | @unicode c u text s hu more ih =>
      have hutf := utf16LiteralToUtf8_escapes hu text
      obtain ⟨digits, rfl⟩ := mem_escapes hu
      have hseq : escapeSequence (backslash :: 0x75 :: (digits ++ text))
          = some (String.utf8EncodeChar c, (backslash :: 0x75 :: digits).length) := by
        simp only [escapeSequence, List.getD_cons_succ, List.getD_cons_zero,
          shortEscapes_lookup.2, if_true]
        exact hutf
      rw [List.cons_append, List.cons_append, unescape, if_neg (by simp), hseq]
      simp only
      rw [unescape_skip]
      simp [ih]

/-- A digit neither closes a literal nor begins an escape. -/
theorem ne_of_hexDigit {b : UInt8} {d : Nat} (h : Utf16.hexDigit b = some d) :
    b ≠ quote ∧ b ≠ backslash := by
  constructor
  · rintro rfl
    simp [Utf16.hexDigit, quote] at h
  · rintro rfl
    simp [Utf16.hexDigit, backslash] at h

theorem scanString_quote (input : Bytes) : scanString (quote :: input) = some ([], input) := by
  rw [scanString.eq_def]
  exact if_pos rfl

theorem scanString_escape (e : UInt8) (input : Bytes) :
    scanString (backslash :: e :: input)
      = (scanString input).map fun (literal, rest) => (backslash :: e :: literal, rest) := by
  rw [scanString.eq_def]
  exact (if_neg (by decide)).trans (if_pos rfl)

theorem scanString_byte {b : UInt8} (hb : b ≠ quote ∧ b ≠ backslash) (input : Bytes) :
    scanString (b :: input)
      = (scanString input).map fun (literal, rest) => (b :: literal, rest) := by
  rw [scanString.eq_def]
  exact (if_neg hb.1).trans (if_neg hb.2)

/-- Bytes that are neither are scanned one by one. -/
theorem scanString_append {plain : Bytes} (h : ∀ b ∈ plain, b ≠ quote ∧ b ≠ backslash)
    (input : Bytes) :
    scanString (plain ++ input)
      = (scanString input).map fun (literal, rest) => (plain ++ literal, rest) := by
  induction plain with
  | nil => simp
  | cons b plain ih =>
      rw [List.cons_append, scanString_byte (h b (by simp)), ih fun b hb => h b (by simp [hb]),
        Option.map_map]
      rfl

theorem hexDigits_of_hexValue {h v : Nat} {digits : Bytes}
    (hvalue : Utf16.hexValue h digits = some v) : ∀ b ∈ digits, b ≠ quote ∧ b ≠ backslash := by
  induction digits generalizing h with
  | nil => simp
  | cons b digits ih =>
      rw [Utf16.hexValue_cons] at hvalue
      obtain ⟨d, hd, hrest⟩ := Option.bind_eq_some_iff.mp hvalue
      exact List.forall_mem_cons.mpr ⟨ne_of_hexDigit hd, ih hrest⟩

theorem scanString_unitEscape {unit : Nat} {u : Bytes} (hu : u ∈ Utf16.unitEscape unit)
    (input : Bytes) :
    scanString (u ++ input)
      = (scanString input).map fun (literal, rest) => (u ++ literal, rest) := by
  obtain ⟨digits, -, hvalue, rfl⟩ := hu
  show scanString (backslash :: 0x75 :: (digits ++ input)) = _
  rw [scanString_escape, scanString_append (hexDigits_of_hexValue hvalue), Option.map_map]
  rfl

/-- The scan for the closing quote finds the end of the text. -/
theorem scanString_of_body {text s : Bytes} (h : StringBody text s) (rest : Bytes) :
    scanString (text ++ quote :: rest) = some (text, rest) := by
  induction h with
  | nil => exact scanString_quote rest
  | @byte b text s hb more ih =>
      rw [List.cons_append, scanString_byte hb.2, ih]
      rfl
  | @short e b text s he more ih =>
      rw [List.cons_append, List.cons_append, scanString_escape, ih]
      rfl
  | @unicode c u text s hu more ih =>
      unfold Utf16.escapes at hu
      split at hu
      · rw [List.append_assoc, scanString_unitEscape hu, ih]
        rfl
      · obtain ⟨first, hfirst, second, hsecond, rfl⟩ := Language.mem_mul.mp hu
        rw [List.append_assoc, List.append_assoc, scanString_unitEscape hfirst,
          scanString_unitEscape hsecond, ih]
        simp

/-- `parse_string` reads every literal as what it denotes. -/
theorem parseString_of_body {text : Bytes} {s : CStr} (h : StringBody text s.bytes)
    (rest : Bytes) : parseString (quote :: (text ++ quote :: rest)) = some (s, rest) := by
  simp only [parseString, ne_eq, not_true_eq_false, if_false, scanString_of_body h,
    Option.bind_eq_bind, Option.bind_some, unescape_of_body h, cString_bytes]
  rfl

/-! ## What is printed -/

/-- The digits that `%x` writes. -/
theorem hexDigit_hexLower : ∀ d < 16, Utf16.hexDigit (hexLower d) = some d := by decide

theorem toNat_ofNat_control : ∀ {n : Nat}, n < 0x80 → (Char.ofNat n).toNat = n := by decide

/-- A control character in its escape is the character. -/
theorem unitEscape_control {b : UInt8} (hb : b.toNat < 0x80) :
    [backslash, 0x75, hexLower 0, hexLower 0, hexLower (b.toNat / 16), hexLower (b.toNat % 16)]
      ∈ Utf16.escapes (Char.ofNat b.toNat) := by
  have hvalid := toNat_ofNat_control hb
  unfold Utf16.escapes
  rw [hvalid, if_pos (by omega)]
  refine ⟨_, rfl, ?_, rfl⟩
  simp only [Utf16.hexValue_cons, Utf16.hexValue_nil, hexDigit_hexLower 0 (by decide),
    hexDigit_hexLower _ (show b.toNat / 16 < 16 by omega),
    hexDigit_hexLower _ (show b.toNat % 16 < 16 by omega), Option.bind_some, Option.some.injEq]
  omega

/-- A byte is printed as text that denotes it. -/
theorem stringBody_escapeByte (b : UInt8) {text s : Bytes} (more : StringBody text s) :
    StringBody (escapeByte b ++ text) (b :: s) := by
  unfold escapeByte
  split
  · rename_i hb
    exact .byte ⟨hb.1, hb.2⟩ more
  · rename_i hb
    cases hlookup : printEscapes.lookup b with
    | some e =>
        have hmem : (e, b) ∈ shortEscapes := by
          obtain ⟨l₁, l₂, hsplit, -⟩ := List.lookup_eq_some_iff.mp hlookup
          have hall : ∀ p ∈ printEscapes, (p.2, p.1) ∈ shortEscapes :=
            forall_mem_of_all (by decide)
          exact hall (b, e) (by rw [hsplit]; simp)
        exact .short hmem more
    | none =>
        have hne : b ≠ quote ∧ b ≠ backslash := by
          constructor
          · rintro rfl
            exact absurd hlookup (by decide)
          · rintro rfl
            exact absurd hlookup (by decide)
        have hlt : b.toNat < 0x20 := by
          have hle : ¬ 31 < b := fun h => hb ⟨h, hne⟩
          have hle' : ¬ 31 < b.toNat := hle
          omega
        have hvalid := toNat_ofNat_control (by omega : b.toNat < 0x80)
        have henc : String.utf8EncodeChar (Char.ofNat b.toNat) = [b] := by
          rw [Utf16.utf8EncodeChar_one (by omega), hvalid, UInt8.ofNat_toNat]
        have hunicode := StringBody.unicode (unitEscape_control (by omega : b.toNat < 0x80)) more
        rw [henc] at hunicode
        exact hunicode

/-- `print_string_ptr` writes a literal that denotes the string. -/
theorem stringBody_escape (s : Bytes) : StringBody (s.flatMap escapeByte) s := by
  induction s with
  | nil => exact .nil
  | cons b s ih => exact stringBody_escapeByte b ih

/-- A string that was printed is read back. -/
theorem parseString_renderString (s : CStr) (rest : Bytes) :
    parseString (renderString s ++ rest) = some (s, rest) := by
  rw [renderString, List.cons_append, List.append_assoc]
  exact parseString_of_body (stringBody_escape s.bytes) rest

/-! ## What is accepted -/

/-- The literals that `parse_string` takes for a string. -/
def stringTexts (s : CStr) : Language UInt8 :=
  {t | ∃ literal output : Bytes, t = quote :: (literal ++ [quote]) ∧
    (∀ rest, scanString (literal ++ quote :: rest) = some (literal, rest)) ∧
    unescape 0 literal = some output ∧ cString output = s}

/-- What was scanned stood in front of a quote, and is scanned again in front of another. -/
theorem scanString_eq_some {text literal rest : Bytes}
    (h : scanString text = some (literal, rest)) :
    text = literal ++ quote :: rest ∧
      ∀ rest', scanString (literal ++ quote :: rest') = some (literal, rest') := by
  fun_induction scanString text generalizing literal with
  | case1 => simp at h
  | case2 input =>
      simp only [Option.some.injEq, Prod.mk.injEq] at h
      obtain ⟨rfl, rfl⟩ := h
      exact ⟨rfl, scanString_quote⟩
  | case3 => simp at h
  | case4 hquote e input ih =>
      obtain ⟨⟨literal', rest'⟩, hscan, hpair⟩ := Option.map_eq_some_iff.mp h
      obtain ⟨rfl, rfl⟩ := Prod.mk.inj hpair
      obtain ⟨rfl, hagain⟩ := ih hscan
      refine ⟨rfl, fun rest' => ?_⟩
      rw [List.cons_append, List.cons_append, scanString_escape, hagain]
      rfl
  | case5 b input hquote hback ih =>
      obtain ⟨⟨literal', rest'⟩, hscan, hpair⟩ := Option.map_eq_some_iff.mp h
      obtain ⟨rfl, rfl⟩ := Prod.mk.inj hpair
      obtain ⟨rfl, hagain⟩ := ih hscan
      refine ⟨rfl, fun rest' => ?_⟩
      rw [List.cons_append, scanString_byte ⟨hquote, hback⟩, hagain]
      rfl

/-- `parse_string` reads exactly the literals of `stringTexts`. -/
theorem parseString_iff {text : Bytes} {s : CStr} {rest : Bytes} :
    parseString text = some (s, rest) ↔ ∃ t ∈ stringTexts s, text = t ++ rest := by
  constructor
  · intro h
    cases text with
    | nil => simp [parseString] at h
    | cons b input =>
        by_cases hb : b = quote
        · subst hb
          simp only [parseString, ne_eq, not_true_eq_false, if_false, Option.bind_eq_bind,
            Option.bind_eq_some_iff, Prod.exists] at h
          obtain ⟨literal, rest', hscan, output, hout, hres⟩ := h
          obtain ⟨rfl, rfl⟩ := Prod.mk.inj (Option.some.inj hres)
          obtain ⟨rfl, hagain⟩ := scanString_eq_some hscan
          exact ⟨_, ⟨literal, output, rfl, hagain, hout, rfl⟩, by simp⟩
        · simp [parseString, hb] at h
  · rintro ⟨t, ⟨literal, output, rfl, hscan, hout, rfl⟩, rfl⟩
    simp only [parseString, List.cons_append, List.append_assoc, List.nil_append, ne_eq,
      not_true_eq_false, if_false, hscan, Option.bind_eq_bind, Option.bind_some, hout]
    rfl

/-- The notation of JSON is among them. -/
theorem mem_stringTexts_of_body {text : Bytes} {s : CStr} (h : StringBody text s.bytes) :
    quote :: (text ++ [quote]) ∈ stringTexts s :=
  ⟨text, s.bytes, rfl, scanString_of_body h, unescape_of_body h, cString_bytes s⟩

end ModJanus
