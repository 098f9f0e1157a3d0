/-
  ModJanus.Text.Item

  The items of cJSON.c, as what it parses from a text and prints to one.

  A string in memory ends at its first terminator; `CStr` is what is left in front of it,
  so that no item holds a string with a terminator inside.  Items are over any type of
  doubles: the file never looks at one but through the C library.

  A `CJson`, the form in which the rest of the model reads a reply, is such an item with
  its strings in UTF-8.
-/
import Mathlib.Data.List.TakeWhile
import Mathlib.Data.UInt
import ModJanus.Json

namespace ModJanus

/-! ## C strings -/

/-- Bytes in memory. -/
abbrev Bytes := List UInt8

/-- A C string, without its terminator. -/
@[ext] structure CStr where
  bytes : Bytes
  zero_notMem : 0 ∉ bytes
  deriving DecidableEq

/-- The C string that begins at these bytes. -/
def cString (bytes : Bytes) : CStr :=
  ⟨bytes.takeWhile (· ≠ 0), fun h => by simpa using List.mem_takeWhile_imp h⟩

/-- The bytes of a text in ASCII. -/
def ascii (s : String) : Bytes := s.toList.map fun c => UInt8.ofNat c.toNat

/-- A property of the members of a fixed list, by testing them. -/
theorem forall_mem_of_all {α : Type} {l : List α} {P : α → Prop} [DecidablePred P]
    (h : (l.all fun a => decide (P a)) = true) : ∀ a ∈ l, P a := fun a ha =>
  of_decide_eq_true (List.all_eq_true.mp h a ha)

theorem CStr.ne_zero_of_mem {s : CStr} {b : UInt8} (hb : b ∈ s.bytes) : b ≠ 0 := by
  rintro rfl
  exact s.zero_notMem hb

/-- A C string ends at the first terminator, whatever stands behind it. -/
theorem cString_append_zero (s : CStr) (rest : Bytes) : cString (s.bytes ++ 0 :: rest) = s := by
  have h : ∀ b ∈ s.bytes, (decide (b ≠ 0)) = true := fun b hb =>
    decide_eq_true (CStr.ne_zero_of_mem hb)
  apply CStr.ext
  show List.takeWhile _ _ = s.bytes
  rw [List.takeWhile_append_of_pos h, List.takeWhile_cons_of_neg (by simp),
    List.append_nil]

theorem cString_of_notMem {bytes : Bytes} (h : 0 ∉ bytes) : cString bytes = ⟨bytes, h⟩ := by
  apply CStr.ext
  refine List.takeWhile_eq_self_iff.mpr fun b hb => ?_
  rw [decide_eq_true_eq]
  rintro rfl
  exact h hb

@[simp] theorem cString_bytes (s : CStr) : cString s.bytes = s :=
  cString_of_notMem s.zero_notMem

/-! ## Items -/

/-- A `cJSON` item with its children; the name of a member is its `string`. -/
inductive Item (ν : Type) where
  | null
  | bool (value : Bool)
  | number (valuedouble : ν)
  | string (valuestring : CStr)
  /-- `cJSON_Raw`, which only `cJSON_CreateRaw` makes: text that is printed as it is. -/
  | raw (valuestring : CStr)
  | array (items : List (Item ν))
  | object (members : List (CStr × Item ν))

namespace Item

variable {ν : Type}

/-- Induction along the children. -/
theorem induction {P : Item ν → Prop} (null : P .null) (bool : ∀ b, P (.bool b))
    (number : ∀ d, P (.number d)) (string : ∀ s, P (.string s)) (raw : ∀ s, P (.raw s))
    (array : ∀ items, (∀ item ∈ items, P item) → P (.array items))
    (object : ∀ members, (∀ member ∈ members, P member.2) → P (.object members)) :
    ∀ item, P item := by
  intro item
  refine Item.rec (motive_1 := P) (motive_2 := fun items => ∀ item ∈ items, P item)
    (motive_3 := fun members => ∀ member ∈ members, P member.2)
    (motive_4 := fun member => P member.2)
    null bool number string raw array object ?_ ?_ ?_ ?_ ?_ item
  · exact fun item h => nomatch h
  · intro item items hitem hitems other hmem
    rcases List.mem_cons.mp hmem with rfl | hmem
    · exact hitem
    · exact hitems other hmem
  · exact fun member h => nomatch h
  · intro member members hmember hmembers other hmem
    rcases List.mem_cons.mp hmem with rfl | hmem
    · exact hmember
    · exact hmembers other hmem
  · exact fun name item hitem => hitem

mutual

/-- How many arrays and objects stand inside each other. -/
def depth : Item ν → Nat
  | .array items => depthItems items + 1
  | .object members => depthMembers members + 1
  | _ => 0

/-- The depth of the deepest item. -/
def depthItems : List (Item ν) → Nat
  | [] => 0
  | item :: items => max (depth item) (depthItems items)

/-- The depth of the deepest member. -/
def depthMembers : List (CStr × Item ν) → Nat
  | [] => 0
  | (_, item) :: members => max (depth item) (depthMembers members)

end

theorem depthItems_le {items : List (Item ν)} {n : Nat} :
    depthItems items ≤ n ↔ ∀ item ∈ items, depth item ≤ n := by
  induction items with
  | nil => simp [depthItems]
  | cons item items ih => simp only [depthItems, Nat.max_le, ih, List.forall_mem_cons]

theorem depthMembers_le {members : List (CStr × Item ν)} {n : Nat} :
    depthMembers members ≤ n ↔ ∀ member ∈ members, depth member.2 ≤ n := by
  induction members with
  | nil => simp [depthMembers]
  | cons member members ih => simp only [depthMembers, Nat.max_le, ih, List.forall_mem_cons]

theorem depth_array_le {items : List (Item ν)} {n : Nat} :
    depth (.array items) ≤ n + 1 ↔ ∀ item ∈ items, depth item ≤ n := by
  rw [depth, Nat.add_le_add_iff_right, depthItems_le]

theorem depth_object_le {members : List (CStr × Item ν)} {n : Nat} :
    depth (.object members) ≤ n + 1 ↔ ∀ member ∈ members, depth member.2 ≤ n := by
  rw [depth, Nat.add_le_add_iff_right, depthMembers_le]

end Item

/-- `cJSON_GetObjectItemCaseSensitive` of an item. -/
def Item.getObjectItem {ν : Type} : Item ν → CStr → Option (Item ν)
  | .object members, name => members.lookup name
  | _, _ => none

/-! ## Replies -/

/-- A string in memory, in UTF-8. -/
def utf8 (s : String) : CStr := cString s.toUTF8.data.toList

mutual

/-- The item that a `CJson` stands for. -/
def CJson.item : CJson → Item Double
  | .null => .null
  | .bool b => .bool b
  | .number d => .number d
  | .string s => .string (utf8 s)
  | .array items => .array (CJson.itemList items)
  | .object members => .object (CJson.memberList members)

/-- The items of an array. -/
def CJson.itemList : List CJson → List (Item Double)
  | [] => []
  | json :: items => CJson.item json :: CJson.itemList items

/-- The members of an object. -/
def CJson.memberList : List (String × CJson) → List (CStr × Item Double)
  | [] => []
  | (name, json) :: members => (utf8 name, CJson.item json) :: CJson.memberList members

end

end ModJanus
