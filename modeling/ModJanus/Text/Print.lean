/-
  ModJanus.Text.Print

  `cJSON_PrintUnformatted`: the buffer that grows (`ensure`), the offset that follows
  what was written (`update_offset`), and the functions that print an item into it.

  The memory of the buffer is modelled as far as it was written.  A write behind its end,
  a write that leaves a gap and a `strlen` that finds no terminator are the error
  `outOfBounds`.  `render` is the text that an item stands for, without any buffer.

  `printUnformatted_eq` says that nothing is ever out of bounds: the result is the text of
  the item whenever that is at most two bytes shorter than the greatest buffer, and a
  failure otherwise.
-/
import ModJanus.Text.Digits

namespace ModJanus

variable {ν : Type}

/-! ## The buffer -/

/-- Why nothing is printed. -/
inductive PrintError where
  /-- A function returns `false`, or `ensure` null. -/
  | failed
  /-- Memory is used that is not the buffer's, or was never written. -/
  | outOfBounds
  deriving DecidableEq

/-- `printbuffer`, with the bytes that were written to it. -/
structure PrintBuffer where
  memory : Bytes
  length : Nat
  offset : Nat

/-- `INT_MAX`. -/
def INT_MAX : Nat := 2147483647

/-- `ensure`: room for `needed` more bytes and a terminator.  Memory is always there. -/
def ensure (needed : Nat) (p : PrintBuffer) : Except PrintError PrintBuffer :=
  if 0 < p.length ∧ p.length ≤ p.offset then .error .failed
  else if INT_MAX < needed then .error .failed
  else
    let needed := needed + p.offset + 1
    if needed ≤ p.length then .ok p
    else if INT_MAX / 2 < needed then
      if needed ≤ INT_MAX then .ok { p with length := INT_MAX } else .error .failed
    else .ok { p with length := needed * 2 }

/-- Bytes that are written at a position of the buffer. -/
def store (position : Nat) (bytes : Bytes) (p : PrintBuffer) : Except PrintError PrintBuffer :=
  if p.memory.length < position ∨ p.length < position + bytes.length then .error .outOfBounds
  else .ok { p with
    memory := p.memory.take position ++ (bytes ++ p.memory.drop (position + bytes.length)) }

/-- `output_buffer->offset += n`. -/
def advance (n : Nat) (p : PrintBuffer) : PrintBuffer := { p with offset := p.offset + n }

/-- `update_offset`: behind the string that begins at the offset. -/
def updateOffset (p : PrintBuffer) : Except PrintError PrintBuffer :=
  let written := p.memory.drop p.offset
  if 0 ∈ written then .ok (advance (written.takeWhile (· ≠ 0)).length p)
  else .error .outOfBounds

/-! ## Printing into it -/

/-- The first loop of `print_string_ptr`: how many more bytes the escapes take. -/
def escapeCharacters : Bytes → Nat
  | [] => 0
  | b :: input =>
      (if (printEscapes.lookup b).isSome then 1 else if b < 32 then 5 else 0)
        + escapeCharacters input

/-- `print_string_ptr`.  The terminators that `sprintf` leaves are overwritten by what
    comes next. -/
def printStringPtr (input : CStr) (p : PrintBuffer) : Except PrintError PrintBuffer := do
  let outputLength := input.bytes.length + escapeCharacters input.bytes
  let p ← ensure (outputLength + 3) p
  if escapeCharacters input.bytes = 0 then
    store p.offset (quote :: (input.bytes ++ [quote, 0])) p
  else
    let p ← store p.offset (quote :: input.bytes.flatMap escapeByte) p
    store (p.offset + outputLength + 1) [quote, 0] p

/-- `sizeof(number_buffer) - 1`. -/
def NUMBER_BUFFER_SIZE : Nat := 25

/-- What `print_number` prints: 15 digits if `sscanf` reads them back, otherwise 17. -/
def numberText (lib : CLib ν) (d : ν) : Bytes :=
  if !lib.finite d then ascii "null"
  else
    let text := lib.sprintf 15 d
    let scanned := strtodLength text
    if scanned = 0 ∨ !lib.equal (lib.strtod (text.take scanned)) d then lib.sprintf 17 d
    else text

/-- `print_number`. -/
def printNumber (lib : CLib ν) (d : ν) (p : PrintBuffer) : Except PrintError PrintBuffer := do
  let text := numberText lib d
  if NUMBER_BUFFER_SIZE < text.length then .error .failed
  else
    let p ← ensure (text.length + 1) p
    let p ← store p.offset (text ++ [0]) p
    return advance text.length p

/-- A word that `strcpy` or `memcpy` copies, with its terminator. -/
def printWord (word : Bytes) (p : PrintBuffer) : Except PrintError PrintBuffer := do
  let p ← ensure (word.length + 1) p
  store p.offset (word ++ [0]) p

/-- One character of punctuation. -/
def printChar (room : Nat) (c : UInt8) (p : PrintBuffer) : Except PrintError PrintBuffer := do
  let p ← ensure room p
  let p ← store p.offset [c] p
  return advance 1 p

mutual

/-- `print_value`. -/
def printValue (lib : CLib ν) : Item ν → PrintBuffer → Except PrintError PrintBuffer
  | .null, p => printWord (ascii "null") p
  | .bool value, p => printWord (ascii (if value then "true" else "false")) p
  | .number d, p => printNumber lib d p
  | .raw s, p => printWord s.bytes p
  | .string s, p => printStringPtr s p
  | .array items, p => do
      -- `print_array`
      let p ← printChar 1 0x5B p
      let p ← printElements lib items p
      let p ← ensure 2 p
      store p.offset [0x5D, 0] p
  | .object members, p => do
      -- `print_object`
      let p ← printChar 2 0x7B p
      let p ← printMembers lib members p
      let p ← ensure 2 p
      store p.offset [0x7D, 0] p

/-- The loop of `print_array`. -/
def printElements (lib : CLib ν) : List (Item ν) → PrintBuffer → Except PrintError PrintBuffer
  | [], p => .ok p
  | item :: items, p => do
      let p ← printValue lib item p
      let p ← updateOffset p
      if items.isEmpty then printElements lib items p
      else
        let p ← ensure 2 p
        let p ← store p.offset [0x2C, 0] p
        printElements lib items (advance 1 p)

/-- The loop of `print_object`. -/
def printMembers (lib : CLib ν) : List (CStr × Item ν) → PrintBuffer →
    Except PrintError PrintBuffer
  | [], p => .ok p
  | (name, item) :: members, p => do
      let p ← printStringPtr name p
      let p ← updateOffset p
      let p ← printChar 1 0x3A p
      let p ← printValue lib item p
      let p ← updateOffset p
      let comma := if members.isEmpty then [] else [0x2C]
      let p ← ensure (comma.length + 1) p
      let p ← store p.offset (comma ++ [0]) p
      printMembers lib members (advance comma.length p)

end

/-- `default_buffer_size`. -/
def DEFAULT_BUFFER_SIZE : Nat := 256

/-- `cJSON_PrintUnformatted`: the string that the caller gets. -/
def cJSON_PrintUnformatted (lib : CLib ν) (item : Item ν) : Except PrintError CStr := do
  let p ← printValue lib item { memory := [], length := DEFAULT_BUFFER_SIZE, offset := 0 }
  let p ← updateOffset p
  return cString (p.memory.take (p.offset + 1))

/-! ## The text -/

/-- Texts with a comma between two of them. -/
def commaJoin : List Bytes → Bytes
  | [] => []
  | [text] => text
  | text :: texts => text ++ 0x2C :: commaJoin texts

mutual

/-- The text of an item. -/
def render (lib : CLib ν) : Item ν → Bytes
  | .null => ascii "null"
  | .bool value => ascii (if value then "true" else "false")
  | .number d => numberText lib d
  | .raw s => s.bytes
  | .string s => renderString s
  | .array items => 0x5B :: (commaJoin (renderItems lib items) ++ [0x5D])
  | .object members => 0x7B :: (commaJoin (renderMembers lib members) ++ [0x7D])

def renderItems (lib : CLib ν) : List (Item ν) → List Bytes
  | [] => []
  | item :: items => render lib item :: renderItems lib items

def renderMembers (lib : CLib ν) : List (CStr × Item ν) → List Bytes
  | [] => []
  | (name, item) :: members =>
      (renderString name ++ 0x3A :: render lib item) :: renderMembers lib members

end

/-- What is documented of the numbers of the C library. -/
structure CLib.Lawful (lib : CLib ν) : Prop where
  /-- `%g` writes a number of JSON, and 17 digits fit into the buffer. -/
  sprintf_number : ∀ precision ∈ [15, 17], ∀ d, lib.finite d = true →
    ∃ sign whole fraction exponent, JsonNumber sign whole fraction exponent ∧
      lib.sprintf precision d = sign ++ (whole ++ (fraction ++ exponent)) ∧
      (lib.sprintf precision d).length ≤ NUMBER_BUFFER_SIZE
  /-- 17 digits tell a double from every other one. -/
  strtod_sprintf : ∀ d, lib.finite d = true → lib.strtod (lib.sprintf 17 d) = d
  /-- Zeros are equal, but the sign of a zero is printed. -/
  strtod_of_equal : ∀ d, lib.finite d = true →
    lib.equal (lib.strtod (lib.sprintf 15 d)) d = true → lib.strtod (lib.sprintf 15 d) = d

/-! ## Steps that succeed up to a limit -/

/-- The step succeeds, with `Q`, exactly if `bound` is within the limit. -/
def Within (bound : Nat) (r : Except PrintError PrintBuffer) (Q : PrintBuffer → Prop) : Prop :=
  (bound ≤ INT_MAX → ∃ p, r = .ok p ∧ Q p) ∧ (INT_MAX < bound → r = .error .failed)

variable {bound bound' n : Nat} {r : Except PrintError PrintBuffer} {Q Q' : PrintBuffer → Prop}
  {text s : Bytes} {p : PrintBuffer}

/-- A later step needs more. -/
theorem Within.bind {g : PrintBuffer → Except PrintError PrintBuffer} (h : Within bound r Q)
    (hle : bound ≤ bound') (hg : ∀ p, Q p → Within bound' (g p) Q') :
    Within bound' (r >>= g) Q' := by
  constructor
  · intro hwithin
    obtain ⟨p, rfl, hp⟩ := h.1 (hle.trans hwithin)
    exact (hg p hp).1 hwithin
  · intro hover
    by_cases hr : bound ≤ INT_MAX
    · obtain ⟨p, rfl, hp⟩ := h.1 hr
      exact (hg p hp).2 hover
    · rw [h.2 (Nat.lt_of_not_le hr)]
      rfl

theorem Within.of_ok (hr : r = .ok p) (hbound : bound ≤ INT_MAX) (hQ : Q p) : Within bound r Q :=
  ⟨fun _ => ⟨p, hr, hQ⟩, fun h => absurd hbound (Nat.not_le_of_lt h)⟩

theorem Within.mono (h : Within bound r Q) (hQ : ∀ p, Q p → Q' p) : Within bound r Q' :=
  ⟨fun hb => (h.1 hb).imp fun _ hp => ⟨hp.1, hQ _ hp.2⟩, h.2⟩

/-! ## States of the buffer -/

/-- The buffer is large enough for what was written, and not too large. -/
structure PrintBuffer.Wf (p : PrintBuffer) : Prop where
  memory_le : p.memory.length ≤ p.length
  lt : p.offset < p.length
  le : p.length ≤ INT_MAX

/-- The text stands in front of the offset. -/
structure At (text : Bytes) (p : PrintBuffer) : Prop extends p.Wf where
  offset : p.offset = text.length
  memory : p.memory.take p.offset = text

/-- The string `s` is written behind the text, and the offset is somewhere in it. -/
structure Pending (text s : Bytes) (p : PrintBuffer) : Prop extends p.Wf where
  memory : ∃ stale, p.memory = text ++ (s ++ 0 :: stale)
  offset : text.length ≤ p.offset ∧ p.offset ≤ text.length + s.length

theorem At.split (h : At text p) : ∃ stale, p.memory = text ++ stale :=
  ⟨p.memory.drop p.offset, by rw [← h.memory, List.take_append_drop]⟩

/-- `ensure` fails exactly if the room goes beyond the limit. -/
theorem ensure_within (h : At text p) (n : Nat) :
    Within (text.length + n + 1) (ensure n p)
      fun p' => At text p' ∧ text.length + n + 1 ≤ p'.length := by
  have hoffset := h.offset
  have hlt := h.lt
  have hle := h.le
  have hgrow : ∀ length, p.length ≤ length → length ≤ INT_MAX →
      At text { p with length := length } := fun length hp hmax =>
    { memory_le := h.memory_le.trans hp
      lt := Nat.lt_of_lt_of_le h.lt hp
      le := hmax
      offset := h.offset
      memory := h.memory }
  unfold ensure
  rw [if_neg (by omega)]
  constructor
  · intro hbound
    rw [if_neg (by omega)]
    simp only
    split_ifs with hfits hhalf hmax
    · exact ⟨p, rfl, h, by omega⟩
    · exact ⟨_, rfl, hgrow INT_MAX hle (Nat.le_refl _), hbound⟩
    · omega
    · exact ⟨_, rfl, hgrow _ (by omega) (by omega), show _ ≤ (n + p.offset + 1) * 2 by omega⟩
  · intro hover
    by_cases hneeded : INT_MAX < n
    · rw [if_pos hneeded]
    · rw [if_neg hneeded]
      simp only
      rw [if_neg (by omega), if_pos (by omega), if_neg (by omega)]

/-- What is stored at the offset stands behind the text. -/
theorem store_at (h : At text p) (bytes : Bytes) (hroom : text.length + bytes.length ≤ p.length) :
    ∃ stale, store p.offset bytes p = .ok { p with memory := text ++ (bytes ++ stale) } ∧
      text.length + bytes.length + stale.length ≤ p.length := by
  have hmemory : p.offset ≤ p.memory.length := by
    obtain ⟨stale, hstale⟩ := h.split
    rw [h.offset, hstale]
    simp
  have hoffset := h.offset
  refine ⟨p.memory.drop (p.offset + bytes.length), ?_, ?_⟩
  · rw [store, if_neg (by omega), h.memory]
  · have hle := h.memory_le
    rw [List.length_drop]
    omega

/-- A string that is stored with its terminator. -/
theorem store_pending (h : At text p) (hroom : text.length + s.length + 1 ≤ p.length) :
    ∃ p', store p.offset (s ++ [0]) p = .ok p' ∧ Pending text s p' ∧ p'.offset = p.offset := by
  obtain ⟨stale, hstore, hlen⟩ := store_at h (s ++ [0]) (by simp; omega)
  refine ⟨_, hstore, ?_, rfl⟩
  simp only [List.length_append, List.length_singleton] at hlen
  exact
    { memory_le := by simp; omega
      lt := h.lt
      le := h.le
      memory := ⟨stale, by simp⟩
      offset := ⟨h.offset.ge, h.offset.trans_le (Nat.le_add_right _ _)⟩ }

/-- With the offset behind the string, the string belongs to the text. -/
theorem Pending.at_end (h : Pending text s p) {offset : Nat}
    (hoffset : offset = text.length + s.length) : At (text ++ s) { p with offset := offset } := by
  obtain ⟨stale, hmemory⟩ := h.memory
  have hend : offset = (text ++ s).length := by rw [hoffset, List.length_append]
  have htotal : p.memory.length = offset + 1 + stale.length := by
    rw [hmemory, hoffset]
    simp only [List.length_append, List.length_cons]
    omega
  have hle := h.memory_le
  exact
    { memory_le := h.memory_le
      lt := by
        show offset < p.length
        omega
      le := h.le
      offset := hend
      memory := by
        show p.memory.take offset = _
        rw [hend, hmemory, ← List.append_assoc, List.take_left] }

/-- `update_offset` moves behind the string. -/
theorem updateOffset_pending (h : Pending text s p) (hs : 0 ∉ s) :
    ∃ p', updateOffset p = .ok p' ∧ At (text ++ s) p' ∧ p'.memory = p.memory := by
  obtain ⟨stale, hmemory⟩ := h.memory
  obtain ⟨hlow, hhigh⟩ := h.offset
  -- the offset splits the string in two
  set k := p.offset - text.length with hk
  have hdrop : p.memory.drop p.offset = s.drop k ++ 0 :: stale := by
    rw [hmemory, show p.offset = text.length + k by omega, ← List.drop_drop, List.drop_left,
      List.drop_append_of_le_length (by omega)]
  have hnot : ∀ b ∈ s.drop k, decide (b ≠ 0) = true := fun b hb => by
    rw [decide_eq_true_eq]
    rintro rfl
    exact hs (List.mem_of_mem_drop hb)
  have hstring : ((p.memory.drop p.offset).takeWhile (· ≠ 0)).length = s.length - k := by
    rw [hdrop, List.takeWhile_append_of_pos hnot, List.takeWhile_cons_of_neg (by simp),
      List.append_nil, List.length_drop]
  refine ⟨advance (s.length - k) p, ?_, h.at_end (by omega), rfl⟩
  simp only [updateOffset]
  rw [if_pos (by rw [hdrop]; simp), hstring]

/-! ## Escapes -/

/-- The room that the first loop counts is what the second one writes, and no control
    character is written. -/
theorem escapeByte_spec (b : UInt8) :
    (escapeByte b).length = 1 + escapeCharacters [b] ∧ (∀ c ∈ escapeByte b, 32 ≤ c) ∧
      (escapeCharacters [b] = 0 → escapeByte b = [b]) := by
  have hall : ∀ n < 256, (escapeByte (UInt8.ofNat n)).length
        = 1 + escapeCharacters [UInt8.ofNat n] ∧
      (∀ c ∈ escapeByte (UInt8.ofNat n), 32 ≤ c) ∧
      (escapeCharacters [UInt8.ofNat n] = 0 → escapeByte (UInt8.ofNat n) = [UInt8.ofNat n]) := by
    decide +kernel
  have hb := hall b.toNat b.toNat_lt
  rwa [UInt8.ofNat_toNat] at hb

theorem escapeCharacters_cons (b : UInt8) (input : Bytes) :
    escapeCharacters (b :: input) = escapeCharacters [b] + escapeCharacters input := rfl

theorem length_flatMap_escapeByte (input : Bytes) :
    (input.flatMap escapeByte).length = input.length + escapeCharacters input := by
  induction input with
  | nil => rfl
  | cons b input ih =>
      rw [List.flatMap_cons, List.length_append, ih, (escapeByte_spec b).1,
        escapeCharacters_cons b input, List.length_cons]
      omega

/-- Without escapes the string is copied. -/
theorem flatMap_escapeByte_of_zero {input : Bytes} (h : escapeCharacters input = 0) :
    input.flatMap escapeByte = input := by
  induction input with
  | nil => rfl
  | cons b input ih =>
      rw [escapeCharacters_cons b input] at h
      rw [List.flatMap_cons, (escapeByte_spec b).2.2 (by omega), ih (by omega)]
      rfl

theorem length_renderString (s : CStr) :
    (renderString s).length = s.bytes.length + escapeCharacters s.bytes + 2 := by
  rw [renderString, List.length_cons, List.length_append, length_flatMap_escapeByte,
    List.length_singleton]

/-- A printed string has no control character, whatever the string has. -/
theorem le_of_mem_renderString {s : CStr} {c : UInt8} (hc : c ∈ renderString s) : 32 ≤ c := by
  rw [renderString, List.mem_cons, List.mem_append, List.mem_flatMap, List.mem_singleton] at hc
  rcases hc with rfl | ⟨b, -, hb⟩ | rfl
  · decide
  · exact (escapeByte_spec b).2.1 c hb
  · decide

/-! ## The parts of a text -/

theorem zero_notMem_of_le {l : Bytes} (h : ∀ c ∈ l, 32 ≤ c) : 0 ∉ l := fun h0 =>
  absurd (h 0 h0) (by decide)

variable {lib : CLib ν}

theorem isNumberByte_of_jsonNumber {sign whole fraction exponent : Bytes}
    (h : JsonNumber sign whole fraction exponent) :
    ∀ b ∈ sign ++ (whole ++ (fraction ++ exponent)), isNumberByte b = true := by
  have hdigits : ∀ t ∈ Digits, ∀ b ∈ t, isNumberByte b = true := fun t ht b hb => by
    simp [isNumberByte, ht.2 b hb]
  have hsign : ∀ b ∈ sign, isNumberByte b = true := by
    rcases h.sign_mem with rfl | rfl
    · exact fun b hb => nomatch hb
    · exact fun b hb => by
        rw [List.mem_singleton] at hb
        rw [hb]
        decide
  have hfraction : ∀ b ∈ fraction, isNumberByte b = true := by
    rcases h.fraction_mem with rfl | ⟨digits, hd, rfl⟩
    · exact fun b hb => nomatch hb
    · exact List.forall_mem_cons.mpr ⟨by decide, hdigits digits hd⟩
  have hexponent : ∀ b ∈ exponent, isNumberByte b = true := by
    rcases h.exponent_mem with rfl | ⟨e, expSign, digits, he, hs, hd, rfl⟩
    · exact fun b hb => nomatch hb
    · refine List.forall_mem_cons.mpr ⟨?_, List.forall_mem_append.mpr ⟨?_, hdigits digits hd⟩⟩
      · rcases he with rfl | rfl
        · decide
        · decide
      · rcases hs with rfl | rfl | rfl
        · exact fun b hb => nomatch hb
        · exact List.forall_mem_cons.mpr ⟨by decide, fun b hb => nomatch hb⟩
        · exact List.forall_mem_cons.mpr ⟨by decide, fun b hb => nomatch hb⟩
  exact List.forall_mem_append.mpr ⟨hsign, List.forall_mem_append.mpr
    ⟨hdigits whole h.whole_mem, List.forall_mem_append.mpr ⟨hfraction, hexponent⟩⟩⟩

/-- Of a finite double one of the two notations is printed. -/
theorem numberText_finite (lib : CLib ν) {d : ν} (hd : lib.finite d = true) :
    ∃ precision ∈ [15, 17], numberText lib d = lib.sprintf precision d := by
  simp only [numberText, hd, Bool.not_true, Bool.false_eq_true, if_false]
  split_ifs with h
  · exact ⟨17, by simp, rfl⟩
  · exact ⟨15, by simp, rfl⟩

theorem numberText_infinite (lib : CLib ν) {d : ν} (hd : lib.finite d = false) :
    numberText lib d = ascii "null" := by
  simp [numberText, hd]

/-- A number fits into the buffer of `print_number` and has no control character. -/
theorem numberText_spec (hlib : lib.Lawful) (d : ν) :
    (numberText lib d).length ≤ NUMBER_BUFFER_SIZE ∧ ∀ c ∈ numberText lib d, 32 ≤ c := by
  cases hd : lib.finite d with
  | false =>
      rw [numberText_infinite lib hd]
      exact ⟨by decide, forall_mem_of_all (by decide)⟩
  | true =>
      obtain ⟨precision, hprecision, htext⟩ := numberText_finite lib hd
      obtain ⟨sign, whole, fraction, exponent, hnumber, hsprintf, hlen⟩ :=
        hlib.sprintf_number precision hprecision d hd
      rw [htext]
      refine ⟨hlen, fun c hc => ?_⟩
      rw [hsprintf] at hc
      have hbyte := isNumberByte_of_jsonNumber hnumber c hc
      by_contra hlow
      have hle : c.toNat ≤ 32 := by
        have hlt : ¬ 32 ≤ c.toNat := hlow
        omega
      have hblank : isBlank c = true := decide_eq_true (show c ≤ 32 from hle)
      rw [stops_of_isBlank c hblank] at hbyte
      nomatch hbyte

theorem renderItems_eq (items : List (Item ν)) :
    renderItems lib items = items.map (render lib) := by
  induction items with
  | nil => rfl
  | cons item items ih => rw [renderItems, ih, List.map_cons]

/-- A member of an object as it is printed. -/
abbrev renderMember (lib : CLib ν) (member : CStr × Item ν) : Bytes :=
  renderString member.1 ++ 0x3A :: render lib member.2

theorem renderMembers_eq (members : List (CStr × Item ν)) :
    renderMembers lib members = members.map (renderMember lib) := by
  induction members with
  | nil => rfl
  | cons member members ih => rw [renderMembers, ih, List.map_cons]

theorem commaJoin_cons_cons (t t' : Bytes) (ts : List Bytes) :
    commaJoin (t :: t' :: ts) = t ++ 0x2C :: commaJoin (t' :: ts) := rfl

theorem forall_mem_commaJoin {P : UInt8 → Prop} (hcomma : P 0x2C) {ts : List Bytes}
    (h : ∀ t ∈ ts, ∀ c ∈ t, P c) : ∀ c ∈ commaJoin ts, P c := by
  induction ts with
  | nil => exact fun c hc => nomatch hc
  | cons t ts ih =>
      obtain ⟨ht, hts⟩ := List.forall_mem_cons.mp h
      cases ts with
      | nil => exact ht
      | cons t' ts =>
          rw [commaJoin_cons_cons]
          exact List.forall_mem_append.mpr ⟨ht, List.forall_mem_cons.mpr ⟨hcomma, ih hts⟩⟩

/-- The text of an item is a C string. -/
theorem zero_notMem_render (hlib : lib.Lawful) (item : Item ν) : 0 ∉ render lib item := by
  suffices h : ∀ c ∈ render lib item, c ≠ 0 from fun h0 => h 0 h0 rfl
  have hpos : ∀ {c : UInt8}, 32 ≤ c → c ≠ 0 := fun h h0 => by
    subst h0
    exact absurd h (by decide)
  have hstring : ∀ s : CStr, ∀ c ∈ renderString s, c ≠ 0 := fun s c hc =>
    hpos (le_of_mem_renderString hc)
  induction item using Item.induction with
  | null => exact forall_mem_of_all (l := ascii "null") (by decide)
  | bool value =>
      cases value with
      | false => exact forall_mem_of_all (l := ascii "false") (by decide)
      | true => exact forall_mem_of_all (l := ascii "true") (by decide)
  | number d => exact fun c hc => hpos ((numberText_spec hlib d).2 c hc)
  | string s => exact hstring s
  | raw s => exact fun c hc => s.ne_zero_of_mem hc
  | array items ih =>
      rw [render, renderItems_eq]
      refine List.forall_mem_cons.mpr ⟨by decide, List.forall_mem_append.mpr
        ⟨?_, forall_mem_of_all (by decide)⟩⟩
      exact forall_mem_commaJoin (by decide) (List.forall_mem_map.mpr ih)
  | object members ih =>
      rw [render, renderMembers_eq]
      refine List.forall_mem_cons.mpr ⟨by decide, List.forall_mem_append.mpr
        ⟨?_, forall_mem_of_all (by decide)⟩⟩
      refine forall_mem_commaJoin (by decide) (List.forall_mem_map.mpr fun member hmember => ?_)
      exact List.forall_mem_append.mpr ⟨hstring member.1,
        List.forall_mem_cons.mpr ⟨by decide, ih member hmember⟩⟩

/-! ## What the functions write -/

theorem printWord_within (h : At text p) :
    Within (text.length + s.length + 2) (printWord s p) (Pending text s) := by
  refine (ensure_within h (s.length + 1)).bind (by omega) fun p' hp' => ?_
  obtain ⟨hat, hroom⟩ := hp'
  obtain ⟨p'', hstore, hpending, -⟩ := store_pending (s := s) hat (by omega)
  exact .of_ok hstore (le_trans (by omega) (hroom.trans hat.le)) hpending

theorem printNumber_within (hlib : lib.Lawful) (d : ν) (h : At text p) :
    Within (text.length + (numberText lib d).length + 2) (printNumber lib d p)
      (Pending text (numberText lib d)) := by
  have hfits : ¬ NUMBER_BUFFER_SIZE < (numberText lib d).length :=
    Nat.not_lt_of_le (numberText_spec hlib d).1
  simp only [printNumber, if_neg hfits]
  refine (ensure_within h ((numberText lib d).length + 1)).bind (by omega) fun p' hp' => ?_
  obtain ⟨hat, hroom⟩ := hp'
  obtain ⟨p'', hstore, hpending, hoffset⟩ := store_pending (s := numberText lib d) hat (by omega)
  rw [hstore]
  refine .of_ok rfl (le_trans (by omega) (hroom.trans hat.le)) ?_
  obtain ⟨stale, hmemory⟩ := hpending.memory
  have hend : p''.offset = text.length := by rw [hoffset, hat.offset]
  have hle := hpending.memory_le
  rw [hmemory] at hle
  simp only [List.length_append, List.length_cons] at hle
  exact
    { memory_le := hpending.memory_le
      lt := by
        show p''.offset + _ < p''.length
        omega
      le := hpending.le
      memory := ⟨stale, hmemory⟩
      offset := by
        show text.length ≤ p''.offset + _ ∧ p''.offset + _ ≤ _
        omega }

theorem printChar_within (h : At text p) (c : UInt8) {room : Nat} (hroom : 1 ≤ room) :
    Within (text.length + room + 1) (printChar room c p) (At (text ++ [c])) := by
  refine (ensure_within h room).bind (Nat.le_refl _) fun p' hp' => ?_
  obtain ⟨hat, hlength⟩ := hp'
  obtain ⟨stale, hstore, hlen⟩ := store_at hat [c] (by simp; omega)
  rw [hstore]
  refine .of_ok rfl (hlength.trans hat.le) ?_
  have hoffset := hat.offset
  simp only [List.length_singleton] at hlen
  exact
    { memory_le := by
        show (text ++ ([c] ++ stale)).length ≤ p'.length
        simp
        omega
      lt := by
        show p'.offset + 1 < p'.length
        omega
      le := hat.le
      offset := by
        show p'.offset + 1 = _
        simp [hoffset]
      memory := by
        show (text ++ ([c] ++ stale)).take (p'.offset + 1) = _
        rw [hoffset, ← List.append_assoc, show text.length + 1 = (text ++ [c]).length by simp,
          List.take_left] }

theorem printStringPtr_within (h : At text p) (input : CStr) :
    Within (text.length + (renderString input).length + 2) (printStringPtr input p)
      (Pending text (renderString input)) := by
  have hlength := length_renderString input
  set outputLength := input.bytes.length + escapeCharacters input.bytes with hout
  refine (ensure_within h (outputLength + 3)).bind (by omega) fun p' hp' => ?_
  obtain ⟨hat, hroom⟩ := hp'
  have hbound : text.length + (renderString input).length + 2 ≤ INT_MAX :=
    le_trans (by omega) (hroom.trans hat.le)
  by_cases hplain : escapeCharacters input.bytes = 0
  · rw [if_pos hplain]
    obtain ⟨p'', hstore, hpending, -⟩ := store_pending (s := renderString input) hat (by omega)
    refine .of_ok ?_ hbound hpending
    rw [← hstore, renderString, flatMap_escapeByte_of_zero hplain]
    simp
  · rw [if_neg hplain]
    have hbody : (quote :: input.bytes.flatMap escapeByte).length = outputLength + 1 := by
      rw [List.length_cons, length_flatMap_escapeByte]
    obtain ⟨stale, hstore, hlen⟩ :=
      store_at hat (quote :: input.bytes.flatMap escapeByte) (by omega)
    rw [hbody] at hlen
    show Within _ (store p'.offset (quote :: input.bytes.flatMap escapeByte) p' >>= _) _
    rw [hstore]
    have hoffset := hat.offset
    have hposition : p'.offset + outputLength + 1
        = (text ++ quote :: input.bytes.flatMap escapeByte).length := by
      rw [List.length_append, hbody]
      omega
    set memory := text ++ (quote :: input.bytes.flatMap escapeByte ++ stale) with hmemory
    have htake : memory.take (p'.offset + outputLength + 1)
        = text ++ quote :: input.bytes.flatMap escapeByte := by
      rw [hposition, hmemory, ← List.append_assoc, List.take_left]
    have hmemlen : memory.length = p'.offset + outputLength + 1 + stale.length := by
      rw [hmemory, ← List.append_assoc, List.length_append, ← hposition]
    have hclose : store (p'.offset + outputLength + 1) [quote, 0] { p' with memory := memory }
        = .ok { p' with memory := text ++ (renderString input
            ++ 0 :: memory.drop (p'.offset + outputLength + 1 + 2)) } := by
      have hfits : ¬ (memory.length < p'.offset + outputLength + 1 ∨
          p'.length < p'.offset + outputLength + 1 + [quote, 0].length) := by
        simp only [List.length_cons, List.length_nil]
        omega
      simp only [store, if_neg hfits, htake, renderString]
      simp
    refine .of_ok hclose hbound ?_
    have hafter : (text ++ (renderString input
        ++ 0 :: memory.drop (p'.offset + outputLength + 1 + 2))).length ≤ p'.length := by
      simp only [List.length_append, List.length_cons, List.length_drop, hmemlen, hlength]
      omega
    exact
      { memory_le := hafter
        lt := hat.lt
        le := hat.le
        memory := ⟨_, rfl⟩
        offset := ⟨hat.offset.ge, hat.offset.trans_le (Nat.le_add_right _ _)⟩ }

/-- The closing bracket, which is the last thing of the text. -/
theorem close_within (h : At text p) (c : UInt8) :
    Within (text.length + 1 + 2) (ensure 2 p >>= fun p => store p.offset [c, 0] p)
      (Pending text [c]) := by
  refine (ensure_within h 2).bind (by omega) fun p' hp' => ?_
  obtain ⟨hat, hroom⟩ := hp'
  obtain ⟨p'', hstore, hpending, -⟩ := store_pending (s := [c]) hat (by simp; omega)
  exact .of_ok hstore (hroom.trans hat.le) hpending

/-- A string that is pending behind what was printed in front of it. -/
theorem Pending.prepend {s' : Bytes} (h : Pending (text ++ s') s p) : Pending text (s' ++ s) p where
  memory_le := h.memory_le
  lt := h.lt
  le := h.le
  memory := h.memory.imp fun stale hstale => by rw [hstale]; simp
  offset := by
    obtain ⟨hlow, hhigh⟩ := h.offset
    simp only [List.length_append] at hlow hhigh ⊢
    omega

/-- What is asked of the function that prints an item. -/
def Prints (lib : CLib ν) (item : Item ν) : Prop :=
  ∀ text p, At text p → Within (text.length + (render lib item).length + 2)
    (printValue lib item p) (Pending text (render lib item))

/-- The loop of `print_array`, with what comes after it. -/
theorem printElements_within (hlib : lib.Lawful) {items : List (Item ν)}
    (hitems : ∀ item ∈ items, Prints lib item) (h : At text p)
    {k : PrintBuffer → Except PrintError PrintBuffer}
    (hbound : text.length + (commaJoin (items.map (render lib))).length + 2 ≤ bound)
    (hk : ∀ p, At (text ++ commaJoin (items.map (render lib))) p → Within bound (k p) Q) :
    Within bound (printElements lib items p >>= k) Q := by
  induction items generalizing text p with
  | nil =>
      rw [printElements]
      refine hk p ?_
      rw [List.map_nil, commaJoin, List.append_nil]
      exact h
  | cons item items ih =>
      obtain ⟨hitem, hrest⟩ := List.forall_mem_cons.mp hitems
      have hnul := zero_notMem_render hlib item
      cases items with
      | nil =>
          rw [printElements]
          simp only [List.isEmpty_nil, if_true, bind_assoc, printElements]
          refine (hitem text p h).bind hbound fun p' hp' => ?_
          obtain ⟨p'', hupdate, hat, -⟩ := updateOffset_pending hp' hnul
          rw [hupdate]
          exact hk p'' hat
      | cons item' items =>
          rw [List.map_cons, List.map_cons, commaJoin_cons_cons, List.length_append,
            List.length_cons] at hbound
          rw [printElements]
          simp only [List.isEmpty_cons, Bool.false_eq_true, if_false, bind_assoc]
          refine (hitem text p h).bind (by omega) fun p' hp' => ?_
          obtain ⟨p'', hupdate, hat, -⟩ := updateOffset_pending hp' hnul
          rw [hupdate]
          refine (ensure_within hat 2).bind (by simp only [List.length_append]; omega)
            fun p₃ hp₃ => ?_
          obtain ⟨hat₃, hroom⟩ := hp₃
          obtain ⟨p₄, hstore, hpending, hoffset⟩ :=
            store_pending (s := [0x2C]) hat₃ (by simp only [List.length_singleton]; omega)
          have hat₄ : At (text ++ render lib item ++ [0x2C]) (advance 1 p₄) :=
            hpending.at_end (by rw [hoffset, hat₃.offset]; rfl)
          show Within _ (store p₃.offset ([0x2C] ++ [0]) p₃ >>= _) _
          rw [hstore]
          refine ih hrest hat₄ ?_ fun p₅ hp₅ => hk p₅ ?_
          · simp only [List.length_append, List.length_singleton, List.map_cons]
            omega
          · simpa [commaJoin_cons_cons] using hp₅

/-- The loop of `print_object`, with what comes after it. -/
theorem printMembers_within (hlib : lib.Lawful) {members : List (CStr × Item ν)}
    (hmembers : ∀ member ∈ members, Prints lib member.2) (h : At text p)
    {k : PrintBuffer → Except PrintError PrintBuffer}
    (hbound : text.length + (commaJoin (members.map (renderMember lib))).length + 3 ≤ bound)
    (hk : ∀ p, At (text ++ commaJoin (members.map (renderMember lib))) p → Within bound (k p) Q) :
    Within bound (printMembers lib members p >>= k) Q := by
  induction members generalizing text p with
  | nil =>
      rw [printMembers]
      refine hk p ?_
      rw [List.map_nil, commaJoin, List.append_nil]
      exact h
  | cons member members ih =>
      obtain ⟨name, item⟩ := member
      obtain ⟨hitem, hrest⟩ := List.forall_mem_cons.mp hmembers
      have hname : 0 ∉ renderString name := zero_notMem_of_le fun _ => le_of_mem_renderString
      have hvalue := zero_notMem_render hlib item
      -- the text of this member, and of the rest of the loop
      set comma : Bytes := if members.isEmpty then [] else [0x2C] with hcomma
      have hjoin : commaJoin ((name, item) :: members |>.map (renderMember lib))
          = renderMember lib (name, item)
            ++ (comma ++ commaJoin (members.map (renderMember lib))) := by
        cases members with
        | nil => simp [commaJoin, hcomma]
        | cons member' members =>
            rw [List.map_cons, List.map_cons, commaJoin_cons_cons, hcomma]
            rfl
      have hnocomma : 0 ∉ comma := by
        rw [hcomma]
        split
        · exact List.not_mem_nil
        · decide
      rw [hjoin] at hbound hk
      simp only [renderMember, List.length_append, List.length_cons] at hbound
      rw [printMembers]
      simp only [bind_assoc]
      refine (printStringPtr_within h name).bind (by omega) fun p₁ hp₁ => ?_
      obtain ⟨p₂, hupdate₂, hat₂, -⟩ := updateOffset_pending hp₁ hname
      rw [hupdate₂]
      refine (printChar_within hat₂ 0x3A (Nat.le_refl 1)).bind
        (by simp only [List.length_append]; omega) fun p₃ hat₃ => ?_
      refine (hitem _ p₃ hat₃).bind
        (by simp only [List.length_append, List.length_singleton]; omega) fun p₄ hp₄ => ?_
      obtain ⟨p₅, hupdate₅, hat₅, -⟩ := updateOffset_pending hp₄ hvalue
      rw [hupdate₅]
      refine (ensure_within hat₅ (comma.length + 1)).bind
        (by simp only [List.length_append, List.length_singleton]; omega) fun p₆ hp₆ => ?_
      obtain ⟨hat₆, hroom⟩ := hp₆
      obtain ⟨p₇, hstore, hpending, hoffset⟩ := store_pending (s := comma) hat₆ (by omega)
      have hat₇ : At (text ++ renderString name ++ [0x3A] ++ render lib item ++ comma)
          (advance comma.length p₇) :=
        hpending.at_end (by rw [hoffset, hat₆.offset])
      show Within _ (store p₆.offset (comma ++ [0]) p₆ >>= _) _
      rw [hstore]
      refine ih hrest hat₇ ?_ fun p₈ hp₈ => hk p₈ ?_
      · simp only [List.length_append, List.length_singleton]
        omega
      · simpa [renderMember] using hp₈

/-- `print_value` writes the text of the item, and fails exactly if the text is longer
    than the limit less two. -/
theorem prints (hlib : lib.Lawful) (item : Item ν) : Prints lib item := by
  induction item using Item.induction with
  | null => exact fun text p h => printWord_within h
  | bool value => exact fun text p h => printWord_within h
  | number d => exact fun text p h => printNumber_within hlib d h
  | string s => exact fun text p h => printStringPtr_within h s
  | raw s => exact fun text p h => printWord_within h
  | array items ih =>
      intro text p h
      rw [render, renderItems_eq, printValue]
      set inner := commaJoin (items.map (render lib)) with hinner
      have hlength : (0x5B :: (inner ++ [0x5D])).length = inner.length + 2 := by simp
      refine (printChar_within h 0x5B (Nat.le_refl 1)).bind (by omega) fun p₁ hat₁ => ?_
      refine printElements_within hlib ih hat₁
        (by rw [← hinner, List.length_append, List.length_singleton]; omega) fun p₂ hat₂ => ?_
      rw [← hinner] at hat₂
      have hclose := close_within hat₂ 0x5D
      refine Within.mono (show Within _ _ _ by
        rw [hlength, show text.length + (inner.length + 2) + 2
          = (text ++ [0x5B] ++ inner).length + 1 + 2 by simp; omega]
        exact hclose) fun p hp => ?_
      have hpre := (hp.prepend).prepend
      simpa using hpre
  | object members ih =>
      intro text p h
      rw [render, renderMembers_eq, printValue]
      set inner := commaJoin (members.map (renderMember lib)) with hinner
      have hlength : (0x7B :: (inner ++ [0x7D])).length = inner.length + 2 := by simp
      refine (printChar_within h 0x7B (by decide : 1 ≤ 2)).bind (by omega) fun p₁ hat₁ => ?_
      refine printMembers_within hlib ih hat₁
        (by rw [← hinner, List.length_append, List.length_singleton]; omega) fun p₂ hat₂ => ?_
      rw [← hinner] at hat₂
      have hclose := close_within hat₂ 0x7D
      refine Within.mono (show Within _ _ _ by
        rw [hlength, show text.length + (inner.length + 2) + 2
          = (text ++ [0x7B] ++ inner).length + 1 + 2 by simp; omega]
        exact hclose) fun p hp => ?_
      have hpre := (hp.prepend).prepend
      simpa using hpre

/-- The buffer that `print` begins with. -/
theorem at_start : At [] { memory := [], length := DEFAULT_BUFFER_SIZE, offset := 0 } where
  memory_le := Nat.zero_le _
  lt := by decide
  le := by decide
  offset := rfl
  memory := rfl

theorem printUnformatted_of_fits (hlib : lib.Lawful) {item : Item ν}
    (hfits : (render lib item).length + 2 ≤ INT_MAX) :
    cJSON_PrintUnformatted lib item = .ok ⟨render lib item, zero_notMem_render hlib item⟩ := by
  have hvalue := prints hlib item [] _ at_start
  rw [List.length_nil, Nat.zero_add] at hvalue
  obtain ⟨p, hprint, hpending⟩ := hvalue.1 hfits
  obtain ⟨p', hupdate, hat, hmemory⟩ :=
    updateOffset_pending hpending (zero_notMem_render hlib item)
  obtain ⟨stale, hstale⟩ := hpending.memory
  have hoffset : p'.offset = (render lib item).length := hat.offset
  have htake : p'.memory.take (p'.offset + 1) = render lib item ++ 0 :: [] := by
    rw [hmemory, hstale, hoffset, List.nil_append,
      show render lib item ++ 0 :: stale = (render lib item ++ [0]) ++ stale by simp,
      show (render lib item).length + 1 = (render lib item ++ [0]).length by simp,
      List.take_left]
  rw [cJSON_PrintUnformatted, hprint]
  show (updateOffset p >>= _) = _
  rw [hupdate]
  show Except.ok (cString (p'.memory.take (p'.offset + 1))) = _
  rw [htake, cString_append_zero ⟨render lib item, zero_notMem_render hlib item⟩ []]

theorem printUnformatted_of_not_fits (hlib : lib.Lawful) {item : Item ν}
    (hfits : ¬ (render lib item).length + 2 ≤ INT_MAX) :
    cJSON_PrintUnformatted lib item = .error .failed := by
  have hvalue := prints hlib item [] _ at_start
  rw [List.length_nil, Nat.zero_add] at hvalue
  rw [cJSON_PrintUnformatted, hvalue.2 (Nat.lt_of_not_le hfits)]
  rfl

/-- What was printed is the text of the item. -/
theorem bytes_of_printUnformatted (hlib : lib.Lawful) {item : Item ν} {s : CStr}
    (h : cJSON_PrintUnformatted lib item = .ok s) : s.bytes = render lib item := by
  by_cases hfits : (render lib item).length + 2 ≤ INT_MAX
  · rw [printUnformatted_of_fits hlib hfits] at h
    cases h
    rfl
  · rw [printUnformatted_of_not_fits hlib hfits] at h
    cases h

/-- `cJSON_PrintUnformatted` gives the text of the item when the text and two more bytes
    fit into the greatest buffer, and nothing otherwise.  It never leaves the buffer. -/
theorem printUnformatted_eq (hlib : lib.Lawful) (item : Item ν) :
    cJSON_PrintUnformatted lib item =
      if (render lib item).length + 2 ≤ INT_MAX then
        .ok ⟨render lib item, zero_notMem_render hlib item⟩
      else .error .failed := by
  by_cases hfits : (render lib item).length + 2 ≤ INT_MAX
  · rw [if_pos hfits, printUnformatted_of_fits hlib hfits]
  · rw [if_neg hfits, printUnformatted_of_not_fits hlib hfits]

theorem integerLib_lawful : integerLib.Lawful where
  sprintf_number precision hprecision d hd := by
    obtain ⟨n, rfl, hlt⟩ := integerLib_finite hd
    rw [integerLib_sprintf]
    refine ⟨[], digits n, [], [], jsonNumber_digits n, by simp, ?_⟩
    exact (digits_length_le (by decide) hlt).trans (by decide : 15 ≤ NUMBER_BUFFER_SIZE)
  strtod_sprintf d hd := by
    obtain ⟨n, rfl, -⟩ := integerLib_finite hd
    exact integerLib_strtod n
  strtod_of_equal d hd hequal := of_decide_eq_true hequal

/-- A request with a name that has to be escaped, and a number. -/
def joinItem : Item Double :=
  .object [(cString (ascii "request"), .string (cString (ascii "join"))),
    (cString (ascii "display"), .string (cString (ascii "a\"b\n"))),
    (cString (ascii "room"), .number (.ofInt 1234))]

theorem printUnformatted_join :
    ∃ s, cJSON_PrintUnformatted integerLib joinItem = .ok s ∧
      s.bytes = ascii "\x7b\"request\":\"join\",\"display\":\"a\\\"b\\n\",\"room\":1234\x7d" := by
  have hrender : render integerLib joinItem
      = ascii "\x7b\"request\":\"join\",\"display\":\"a\\\"b\\n\",\"room\":1234\x7d" := by
    decide +kernel
  refine ⟨_, (printUnformatted_eq integerLib_lawful joinItem).trans (if_pos ?_), hrender⟩
  rw [hrender]
  decide

end ModJanus
