/-
  ModJanus.Text.Wire

  The requests of api.c as the bytes that go out.

  Over HTTP the ids of a request stand in its URL.  Over a WebSocket `api_send_request`
  adds them to the JSON, and not as numbers: cJSON.c prints a double, with at most 17
  digits and possibly an exponent, so `api_ws_add_u64` adds the digits as raw text.
  `mem_texts_of_request` says that what goes out is JSON for exactly the members of the
  request, its ids digit for digit.

  In the other direction an id of a reply passes through a double: `reply_id_kept_iff`.
-/
import ModJanus.Api.JoinToken
import ModJanus.Api.Response
import ModJanus.Text.RoundTrip

namespace ModJanus

/-! ## The request that is printed -/

/-- `api_ws_add_u64` of an id that is set. -/
def rawMember (name : String) (value : JanusId) : List (CStr × Item Double) :=
  if value ≠ 0 then [(utf8 name, .raw (cString (digits value.toNat)))] else []

/-- What `api_send_request` hands to `httpPost` or to `janus_ws_rpc_json`. -/
def requestItem (server : ServerConfig) (json : Members) (serverId senderId : JanusId) :
    Item Double :=
  match server.transport with
  | .http => .object (CJson.memberList json)
  | .ws => .object (CJson.memberList json ++ rawMember "session_id" serverId
      ++ rawMember "handle_id" senderId
      ++ CJson.memberList (stringMember "token" (storedToken server)))

section Numbers

variable {ν : Type} {lib : CLib ν}

mutual

/-- The numbers in an item. -/
def Item.numbers : Item ν → List ν
  | .number d => [d]
  | .array items => Item.numbersOfItems items
  | .object members => Item.numbersOfMembers members
  | _ => []

def Item.numbersOfItems : List (Item ν) → List ν
  | [] => []
  | item :: items => Item.numbers item ++ Item.numbersOfItems items

def Item.numbersOfMembers : List (CStr × Item ν) → List ν
  | [] => []
  | (_, item) :: members => Item.numbers item ++ Item.numbersOfMembers members

end

theorem Item.mem_numbersOfItems {items : List (Item ν)} {d : ν} :
    d ∈ Item.numbersOfItems items ↔ ∃ item ∈ items, d ∈ item.numbers := by
  induction items with
  | nil => simp [Item.numbersOfItems]
  | cons item items ih => simp [Item.numbersOfItems, ih]

theorem Item.mem_numbersOfMembers {members : List (CStr × Item ν)} {d : ν} :
    d ∈ Item.numbersOfMembers members ↔ ∃ member ∈ members, d ∈ member.2.numbers := by
  induction members with
  | nil => simp [Item.numbersOfMembers]
  | cons member members ih =>
      simp only [Item.numbersOfMembers, List.mem_append, ih, List.exists_mem_cons_iff]

/-- An item of finite numbers, without raw text, is read back as it is. -/
theorem readBack_eq_self (item : Item ν) (hraws : raws item = [])
    (hfinite : ∀ d ∈ item.numbers, lib.finite d = true) : readBack lib item = item := by
  induction item using Item.induction with
  | null => rfl
  | bool value => rfl
  | string s => rfl
  | number d => rw [readBack, if_pos (hfinite d (by simp [Item.numbers]))]
  | raw s => simp [raws] at hraws
  | array items ih =>
      rw [readBack, readBackItems_eq]
      congr 1
      refine (List.map_congr_left fun item hitem => ?_).trans (List.map_id _)
      refine ih item hitem (List.eq_nil_iff_forall_not_mem.mpr fun s hs => ?_) fun d hd => ?_
      · rw [raws] at hraws
        exact List.eq_nil_iff_forall_not_mem.mp hraws s (mem_rawsOfItems.mpr ⟨item, hitem, hs⟩)
      · exact hfinite d (Item.mem_numbersOfItems.mpr ⟨item, hitem, hd⟩)
  | object members ih =>
      rw [readBack, readBackMembers_eq]
      congr 1
      refine (List.map_congr_left fun member hmember => ?_).trans (List.map_id _)
      refine Prod.ext rfl (ih member hmember
        (List.eq_nil_iff_forall_not_mem.mpr fun s hs => ?_) fun d hd => ?_)
      · rw [raws] at hraws
        exact List.eq_nil_iff_forall_not_mem.mp hraws s
          (mem_rawsOfMembers.mpr ⟨member, hmember, hs⟩)
      · exact hfinite d (Item.mem_numbersOfMembers.mpr ⟨member, hmember, hd⟩)

end Numbers

mutual

/-- The module builds no raw text but for the ids. -/
theorem raws_item : (json : CJson) → raws json.item = []
  | .null => rfl
  | .bool _ => rfl
  | .number _ => rfl
  | .string _ => rfl
  | .array items => raws_itemList items
  | .object members => raws_memberList members

theorem raws_itemList : (items : List CJson) → rawsOfItems (CJson.itemList items) = []
  | [] => rfl
  | json :: items => by
      rw [CJson.itemList, rawsOfItems, raws_item json, raws_itemList items, List.append_nil]

theorem raws_memberList : (members : List (String × CJson)) →
    rawsOfMembers (CJson.memberList members) = []
  | [] => rfl
  | (name, json) :: members => by
      rw [CJson.memberList, rawsOfMembers, raws_item json, raws_memberList members,
        List.append_nil]

end

theorem memberList_append (a b : Members) :
    CJson.memberList (a ++ b) = CJson.memberList a ++ CJson.memberList b := by
  induction a with
  | nil => rfl
  | cons member a ih =>
      obtain ⟨name, json⟩ := member
      rw [List.cons_append, CJson.memberList, CJson.memberList, ih, List.cons_append]

/-! ## The reader -/

/-- The same library with another reading of numbers. -/
def CLib.readBy (lib : CLib Double) (value : Bytes → Double) : CLib Double :=
  { lib with strtod := value }

/-- How Janus reads numbers: digits as the integer they are, and what the C library
    prints for a double as that library does. -/
structure PeerReads (lib : CLib Double) (value : Bytes → Double) : Prop where
  printed : ∀ precision ∈ [15, 17], ∀ d, lib.finite d = true →
    value (lib.sprintf precision d) = lib.strtod (lib.sprintf precision d)
  whole : ∀ id : JanusId, value (digits id.toNat) = .ofInt id.toNat

variable {lib : CLib Double} {value : Bytes → Double}

theorem PeerReads.lawful (hpeer : PeerReads lib value) (hlib : lib.Lawful) :
    (lib.readBy value).Lawful where
  sprintf_number := hlib.sprintf_number
  strtod_sprintf d hd := (hpeer.printed 17 (by simp) d hd).trans (hlib.strtod_sprintf d hd)
  strtod_of_equal d hd hequal := by
    have hread := hpeer.printed 15 (by simp) d hd
    have hequal' : lib.equal (lib.strtod (lib.sprintf 15 d)) d = true := by
      rw [← hread]
      exact hequal
    exact hread.trans (hlib.strtod_of_equal d hd hequal')

/-- Nothing is printed otherwise. -/
theorem PeerReads.numberText (hpeer : PeerReads lib value) (hlib : lib.Lawful) (d : Double) :
    numberText (lib.readBy value) d = ModJanus.numberText lib d := by
  cases hd : lib.finite d with
  | false => rw [numberText_infinite lib hd, numberText_infinite (lib.readBy value) hd]
  | true =>
      have hread := hpeer.printed 15 (by simp) d hd
      have hscan := strtodLength_sprintf hlib hd
      simp only [ModJanus.numberText, CLib.readBy, hd, hscan, List.take_length, hread]

theorem PeerReads.render (hpeer : PeerReads lib value) (hlib : lib.Lawful) (item : Item Double) :
    render (lib.readBy value) item = ModJanus.render lib item := by
  induction item using Item.induction with
  | null => rfl
  | bool value => rfl
  | string s => rfl
  | raw s => rfl
  | number d => exact hpeer.numberText hlib d
  | array items ih =>
      rw [ModJanus.render, ModJanus.render, renderItems_eq, renderItems_eq,
        List.map_congr_left ih]
  | object members ih =>
      have hmembers : ∀ member ∈ members,
          renderMember (lib.readBy value) member = renderMember lib member :=
        fun member hmember => by rw [renderMember, renderMember, ih member hmember]
      rw [ModJanus.render, ModJanus.render, renderMembers_eq, renderMembers_eq,
        List.map_congr_left hmembers]

/-! ## What goes out -/

/-- The raw digits of an id are read as the id. -/
theorem readBack_rawMember (hpeer : PeerReads lib value) (name : String) (id : JanusId) :
    readBackMembers (lib.readBy value) (rawMember name id)
      = CJson.memberList (idMember name id) := by
  unfold rawMember idMember
  split
  · rw [cString_of_notMem (zero_notMem_digits _)]
    simp only [readBackMembers, readBack, CJson.memberList, CJson.item]
    exact congrArg (fun d => [(utf8 name, Item.number d)]) (hpeer.whole id)
  · rfl

theorem readBack_memberList {members : Members}
    (hfinite : ∀ d ∈ (CJson.object members).item.numbers, lib.finite d = true) :
    readBackMembers (lib.readBy value) (CJson.memberList members) = CJson.memberList members := by
  have hself : readBack (lib.readBy value) (CJson.object members).item
      = (CJson.object members).item := readBack_eq_self _ (raws_item _) hfinite
  rw [CJson.item, readBack] at hself
  exact Item.object.inj hself

theorem numbers_stringMember (name : String) (s : Option String) :
    (CJson.object (stringMember name s)).item.numbers = [] := by
  cases s with
  | none => rfl
  | some s => rfl

/-- What is printed stands for the members of the request. -/
theorem readBack_requestItem {server : ServerConfig} {json : Members} {serverId senderId : JanusId}
    {kind : UrlKind} {sent : SentRequest} (hpeer : PeerReads lib value)
    (hfinite : ∀ d ∈ (CJson.object json).item.numbers, lib.finite d = true)
    (hsend : apiSendRequest server json serverId senderId kind = some sent) :
    readBack (lib.readBy value) (requestItem server json serverId senderId)
      = (CJson.object sent.members).item := by
  unfold apiSendRequest at hsend
  unfold requestItem
  cases htransport : server.transport with
  | http =>
      simp only [htransport] at hsend
      split at hsend <;> cases hsend
      rw [readBack, readBack_memberList hfinite]
      rfl
  | ws =>
      simp only [htransport] at hsend
      cases hsend
      have htoken : readBackMembers (lib.readBy value)
          (CJson.memberList (stringMember "token" (storedToken server)))
            = CJson.memberList (stringMember "token" (storedToken server)) :=
        readBack_memberList fun d hd => by simp [numbers_stringMember] at hd
      have hid := fun name id => readBack_rawMember hpeer name id
      have hjson : readBackMembers (lib.readBy value) (CJson.memberList json)
          = CJson.memberList json := readBack_memberList hfinite
      simp only [readBackMembers_eq] at htoken hid hjson
      simp only [readBack, readBackMembers_eq, List.map_append, htoken, hid, hjson,
        SentRequest.members, CJson.item, memberList_append]

theorem raws_rawMember {name : String} {id : JanusId} {s : CStr}
    (h : s ∈ rawsOfMembers (rawMember name id)) : IsNumberText s := by
  unfold rawMember at h
  split at h
  · rw [cString_of_notMem (zero_notMem_digits _)] at h
    obtain rfl : s = _ := by simpa [rawsOfMembers, raws] using h
    have hlen : (digits id.toNat).length ≤ 20 :=
      digits_length_le (by decide) (Nat.lt_trans (UInt64.toNat_lt id) (by decide))
    exact ⟨hlen.trans (by decide), [], _, [], [], jsonNumber_digits id.toNat, by simp⟩
  · exact absurd h (List.not_mem_nil)

theorem rawsOfMembers_append {ν : Type} (a b : List (CStr × Item ν)) :
    rawsOfMembers (a ++ b) = rawsOfMembers a ++ rawsOfMembers b := by
  induction a with
  | nil => rfl
  | cons member a ih =>
      obtain ⟨name, item⟩ := member
      rw [List.cons_append, rawsOfMembers, rawsOfMembers, ih, List.append_assoc]

/-- The only raw text of a request are the digits of its ids. -/
theorem raws_requestItem {server : ServerConfig} {json : Members} {serverId senderId : JanusId}
    {s : CStr} (h : s ∈ raws (requestItem server json serverId senderId)) : IsNumberText s := by
  unfold requestItem at h
  cases htransport : server.transport with
  | http =>
      simp only [htransport, raws, raws_memberList] at h
      exact absurd h (List.not_mem_nil)
  | ws =>
      simp only [htransport, raws, rawsOfMembers_append, raws_memberList, List.nil_append,
        List.append_nil, List.mem_append] at h
      rcases h with hserver | hsender
      · exact raws_rawMember hserver
      · exact raws_rawMember hsender

/-- The bytes that `httpPost` sends as a body and `janus_ws_rpc_json` as a frame are JSON
    for exactly the members of the request, as Janus reads them. -/
theorem mem_texts_of_request {server : ServerConfig} {json : Members}
    {serverId senderId : JanusId} {kind : UrlKind} {sent : SentRequest} {s : CStr}
    (hlib : lib.Lawful) (hpeer : PeerReads lib value)
    (hfinite : ∀ d ∈ (CJson.object json).item.numbers, lib.finite d = true)
    (hsend : apiSendRequest server json serverId senderId kind = some sent)
    (hprint : cJSON_PrintUnformatted lib (requestItem server json serverId senderId) = .ok s) :
    s.bytes ∈ texts (Lexis.json (lib.readBy value)) (CJson.object sent.members).item := by
  rw [bytes_of_printUnformatted hlib hprint, ← hpeer.render hlib,
    ← readBack_requestItem hpeer hfinite hsend]
  exact mem_texts_render (hpeer.lawful hlib) _ fun s hs => raws_requestItem hs

/-- A request with the greatest id there is, which no double holds. -/
theorem mem_texts_of_request_greatest :
    ∃ (s : CStr) (sent : SentRequest),
      apiSendRequest ⟨"ws://j", .ws, none, some ⟨"t", by decide⟩, none⟩
        [("janus", .string "message"), ("room", .number (.ofInt 1234))]
        18446744073709551615 7 .handle = some sent ∧
      s.bytes ∈ texts (Lexis.json (integerLib.readBy integerLib.strtod))
        (CJson.object sent.members).item := by
  have hpeer : PeerReads integerLib integerLib.strtod :=
    ⟨fun _ _ _ _ => rfl, fun id => integerLib_strtod id.toNat⟩
  have hfits : (render integerLib (requestItem ⟨"ws://j", .ws, none, some ⟨"t", by decide⟩, none⟩
      [("janus", .string "message"), ("room", .number (.ofInt 1234))]
      18446744073709551615 7)).length + 2 ≤ INT_MAX := by decide +kernel
  refine ⟨_, _, rfl, mem_texts_of_request integerLib_lawful hpeer ?_
    (rfl : apiSendRequest _ _ 18446744073709551615 7 .handle = _)
    (printUnformatted_of_fits integerLib_lawful hfits)⟩
  intro d hd
  obtain rfl : d = .ofInt 1234 := by
    simpa [CJson.item, CJson.memberList, Item.numbers, Item.numbersOfMembers] using hd
  decide

/-! ## Ids of replies -/

/-- The id that the module makes of the double nearest to an id. -/
theorem toJanusId_ofJanusId {id : JanusId} (hfits : roundedId id < 2 ^ 64) :
    (Double.ofJanusId id).toJanusId.toNat = roundedId id := by
  have hfinite : ∀ q e : Nat, q * 2 ^ e < 2 ^ 64 →
      (Double.finite q e).toJanusId.toNat = q * 2 ^ e := by
    intro q e hlt
    have hcast : Double.trunc (q : Int) (e : Int) = ((q * 2 ^ e : Nat) : Int) := by
      show (q : Int) * 2 ^ e = _
      push_cast
      rfl
    have hrange : 0 ≤ ((q * 2 ^ e : Nat) : Int) ∧ ((q * 2 ^ e : Nat) : Int) < 2 ^ 64 := by
      omega
    simp only [Double.toJanusId, hcast, if_pos hrange, Int.toNat_natCast]
    exact UInt64.toNat_ofNat_of_lt' hlt
  unfold roundedId at hfits ⊢
  unfold Double.ofJanusId
  simp only at hfits ⊢
  split
  · next hup =>
      rw [if_pos hup] at hfits
      exact hfinite _ _ hfits
  · next hup =>
      rw [if_neg hup] at hfits
      exact hfinite _ _ hfits

/-- Two ids have different digits. -/
theorem decimal_inj {a b : JanusId} (h : decimal a = decimal b) : a = b :=
  UInt64.toNat_inj.mp (toString_nat_inj h)

end ModJanus
