/-
  ModJanus.Json

  The cJSON trees that `cJSON_Parse` returns, and the accessors that the module
  reads them with.

  A C pointer to an item is an `Option CJson`.  Strings are the C strings that
  the parser stores, so a tree holds no string with an embedded terminator; the
  accessors below make no use of that.
-/
import Mathlib.Algebra.Group.Nat.Defs
import Mathlib.Algebra.Ring.Int.Defs
import ModJanus.Basic

namespace ModJanus

/-- `valuedouble`: `mantissa * 2 ^ exponent`, or an infinity when the literal is
    out of range. -/
inductive Double where
  | finite (mantissa exponent : Int)
  | inf (negative : Bool)
  deriving DecidableEq, Repr

namespace Double

/-- `mantissa * 2 ^ exponent`, truncated towards zero. -/
def trunc (mantissa : Int) : Int → Int
  | .ofNat e => mantissa * 2 ^ e
  | .negSucc e => mantissa.tdiv (2 ^ (e + 1))

/-- `(janus_id_t) valuedouble`.  C leaves the conversion of a value that does not
    fit undefined; it is 0 here. -/
def toJanusId : Double → JanusId
  | .finite mantissa exponent =>
      let n := trunc mantissa exponent
      if 0 ≤ n ∧ n < 2 ^ 64 then UInt64.ofNat n.toNat else 0
  | .inf _ => 0

/-- The double of an integer literal. -/
abbrev ofInt (n : Int) : Double := .finite n 0

/-- `(double) id`: 53 bits of mantissa, rounded to the nearest and in a tie to even. -/
def ofJanusId (id : JanusId) : Double :=
  let e := Nat.log2 id.toNat - 52
  let q := id.toNat / 2 ^ e
  let r := id.toNat % 2 ^ e
  if 2 ^ e < 2 * r ∨ (2 ^ e = 2 * r ∧ q % 2 = 1) then .finite (q + 1 : Nat) e
  else .finite q e

end Double

/-- A cJSON item with its children.  An object keeps its members in the order of
    the text, duplicates included. -/
inductive CJson where
  | null
  | bool (value : Bool)
  | number (valuedouble : Double)
  | string (valuestring : String)
  | array (items : List CJson)
  | object (members : List (String × CJson))
  deriving Repr

namespace CJson

/-- The `child` list of an item, keys dropped. -/
def children : CJson → List CJson
  | .array items => items
  | .object members => members.map Prod.snd
  | _ => []

def isObject : CJson → Bool
  | .object _ => true
  | _ => false

def isTrue : CJson → Bool
  | .bool b => b
  | _ => false

/-- `valuestring`, null for an item that is not a string. -/
def valuestring : CJson → Option String
  | .string s => some s
  | _ => none

/-- `valuedouble`, zero for an item that is not a number. -/
def valuedouble : CJson → Double
  | .number d => d
  | _ => .ofInt 0

def isString (json : CJson) : Bool := json.valuestring.isSome

def isNumber : CJson → Bool
  | .number _ => true
  | _ => false

end CJson

/-- `cJSON_GetObjectItemCaseSensitive`: the first member of that name.  A null
    pointer, a scalar and an array, whose children have no name, give null. -/
def getObjectItem : Option CJson → String → Option CJson
  | some (.object members), name => members.lookup name
  | _, _ => none

/-- `cJSON_IsString` of a pointer that may be null. -/
def isString (item : Option CJson) : Bool := item.any CJson.isString

/-- `cJSON_IsNumber` of a pointer that may be null. -/
def isNumber (item : Option CJson) : Bool := item.any CJson.isNumber

/-- `item->valuestring`, as the pointer it is. -/
def valuestring (item : Option CJson) : Option String := item.bind CJson.valuestring

/-- `(janus_id_t) item->valuedouble`. -/
def janusIdOf (item : Option CJson) : JanusId :=
  match item with
  | some json => json.valuedouble.toJanusId
  | none => 0

/-- `!strcmp(expected, s)` for a string `s` that has to be there. -/
def strEq (s : Option String) (expected : String) : Except Fault Bool := do
  return (← mandatory s) == expected

@[simp] theorem getObjectItem_none (name : String) : getObjectItem none name = none := rfl

@[simp] theorem isString_none : isString none = false := rfl

@[simp] theorem isNumber_none : isNumber none = false := rfl

/-- `cJSON_IsString` vouches for the string. -/
theorem isString_iff {item : Option CJson} :
    isString item = true ↔ ∃ s, valuestring item = some s := by
  cases item with
  | none => simp [valuestring]
  | some json => simp [isString, CJson.isString, valuestring, Option.isSome_iff_exists]

theorem strEq_of_isString {item : Option CJson} (h : isString item = true) (expected : String) :
    ∃ b, strEq (valuestring item) expected = .ok b := by
  obtain ⟨s, hs⟩ := isString_iff.mp h
  exact ⟨s == expected, by rw [hs]; rfl⟩

/-- Only an object has members. -/
theorem getObjectItem_eq_some {item : Option CJson} {name : String} {value : CJson}
    (h : getObjectItem item name = some value) :
    ∃ members, item = some (.object members) ∧ (name, value) ∈ members := by
  rcases item with _ | json
  · simp at h
  · cases json with
    | object members =>
        refine ⟨members, rfl, ?_⟩
        simp only [getObjectItem, List.lookup_eq_some_iff] at h
        obtain ⟨l₁, l₂, rfl, -⟩ := h
        simp
    | null => simp [getObjectItem] at h
    | bool b => simp [getObjectItem] at h
    | number d => simp [getObjectItem] at h
    | string s => simp [getObjectItem] at h
    | array items => simp [getObjectItem] at h

/-- A member of an object is one of its children. -/
theorem getObjectItem_mem_children {json value : CJson} {name : String}
    (h : getObjectItem (some json) name = some value) : value ∈ json.children := by
  obtain ⟨members, hjson, hmem⟩ := getObjectItem_eq_some h
  cases hjson
  exact List.mem_map.mpr ⟨(name, value), hmem, rfl⟩

end ModJanus
