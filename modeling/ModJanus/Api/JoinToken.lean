/-
  ModJanus.Api.JoinToken

  The signed token of a join, read back against the room the request asks for.

  `apiJoin` names the room twice: as it is in `body.room`, and in the descriptor
  `room=...` of the token, which is written into `roomDesc[96]` and then joined to the
  other descriptors by commas.  `join_token_exact_iff` says for which rooms a reader of
  the token finds exactly the plugin and the room of the body in it (`RoomFits`).
-/
import ModJanus.Api.Credentials

namespace ModJanus

/-! ## What the token has to say -/

/-- A room as the descriptor writes it: a string as it is, a number in decimal. -/
def roomText : CJson → Option String
  | .string room => some room
  | .number (.finite mantissa exponent) => some (toString (Double.trunc mantissa exponent))
  | _ => none

/-- The JSON of a request; a GET has none. -/
def SentRequest.members : SentRequest → Members
  | .post _ json => json
  | .ws json => json
  | .get _ => []

/-- `body.room` of a request. -/
def SentRequest.bodyRoom (sent : SentRequest) : Option CJson :=
  getObjectItem (getObjectItem (some (.object sent.members)) "body") "room"

/-- The request has one token, its signature matches its data, and its descriptors are
    the plugin package and the room of the body. -/
def JoinTokenExact (hmac : Hmac) (pHmacSecret : String) (sent : SentRequest) : Prop :=
  ∃ token room text, memberStrings "token" sent.members = [some token] ∧
    sent.bodyRoom = some room ∧ roomText room = some text ∧
    hmac.sign pHmacSecret (tokenDataOf token) = some (tokenSignatureOf token) ∧
    tokenDescriptors (tokenDataOf token) = [JANUS_PLUGIN, "room=" ++ text]

/-- `(double) id == id`: what is below the 53 leading bits is zero. -/
def ExactDouble (id : JanusId) : Prop := id.toNat % 2 ^ (Nat.log2 id.toNat - 52) = 0

/-- The rooms that the token names exactly: strings that fit into `roomDesc` and hold
    none of the separators of a token, and numbers that a double takes exactly. -/
def RoomFits (roomId : JanusId) (pRoomIdStr : Option String) : Prop :=
  match pRoomIdStr with
  | some room =>
      if room ≠ "" then room.length ≤ 90 ∧ ',' ∉ room.toList ∧ ':' ∉ room.toList
      else ExactDouble roomId
  | none => ExactDouble roomId

/-! ## The double of a room number -/

/-- The number behind `(double) id`. -/
def roundedId (id : JanusId) : Nat :=
  let e := Nat.log2 id.toNat - 52
  let q := id.toNat / 2 ^ e
  let r := id.toNat % 2 ^ e
  if 2 ^ e < 2 * r ∨ (2 ^ e = 2 * r ∧ q % 2 = 1) then (q + 1) * 2 ^ e else q * 2 ^ e

instance (id : JanusId) : Decidable (ExactDouble id) :=
  inferInstanceAs (Decidable (id.toNat % 2 ^ (Nat.log2 id.toNat - 52) = 0))

instance (roomId : JanusId) (pRoomIdStr : Option String) :
    Decidable (RoomFits roomId pRoomIdStr) :=
  match pRoomIdStr with
  | some room => inferInstanceAs (Decidable (if room ≠ "" then
      room.length ≤ 90 ∧ ',' ∉ room.toList ∧ ':' ∉ room.toList else ExactDouble roomId))
  | none => inferInstanceAs (Decidable (ExactDouble roomId))

theorem roundedId_eq_iff (id : JanusId) : roundedId id = id.toNat ↔ ExactDouble id := by
  unfold roundedId ExactDouble
  generalize Nat.log2 id.toNat - 52 = e
  generalize id.toNat = n
  have hdiv : n / 2 ^ e * 2 ^ e + n % 2 ^ e = n := by
    rw [Nat.mul_comm]
    exact Nat.div_add_mod n (2 ^ e)
  have hlt : n % 2 ^ e < 2 ^ e := Nat.mod_lt n (Nat.two_pow_pos e)
  simp only
  split
  · next hup =>
    rw [Nat.add_mul]
    constructor
    · intro h
      omega
    · intro h
      omega
  · constructor
    · intro h
      omega
    · intro h
      omega

/-- A natural number times a power of two, as the double holds it. -/
theorem roomText_finite (q e : Nat) :
    roomText (.number (.finite q e)) = some (toString (q * 2 ^ e)) := by
  have hcast : (q : Int) * 2 ^ e = ((q * 2 ^ e : Nat) : Int) := by push_cast; rfl
  show some (toString ((q : Int) * 2 ^ e)) = _
  rw [hcast]
  rfl

theorem roomText_number (id : JanusId) :
    roomText (.number (.ofJanusId id)) = some (toString (roundedId id)) := by
  unfold Double.ofJanusId roundedId
  simp only
  split
  · exact roomText_finite _ _
  · exact roomText_finite _ _

/-- The room of a body always has a text. -/
theorem roomText_roomMember (roomId : JanusId) (pRoomIdStr : Option String) :
    ∃ text, roomText (roomMember roomId pRoomIdStr) = some text := by
  unfold roomMember
  cases pRoomIdStr with
  | none => exact ⟨_, roomText_number roomId⟩
  | some room =>
      simp only
      split
      · exact ⟨room, rfl⟩
      · exact ⟨_, roomText_number roomId⟩

theorem toString_nat_inj {m n : Nat} (h : toString m = toString n) : m = n := by
  rw [Nat.toString_eq_repr, Nat.toString_eq_repr] at h
  have hdigits : Nat.toDigits 10 m = Nat.toDigits 10 n := by
    rw [← Nat.toList_repr, h, Nat.toList_repr]
  rw [← Nat.ofDigitChars_ten_toDigits (n := m), hdigits, Nat.ofDigitChars_ten_toDigits]

/-! ## The parts of the token -/

theorem roomDesc_toList (roomId : JanusId) (pRoomIdStr : Option String) :
    ∃ text, roomDesc roomId pRoomIdStr = snprintf ROOM_DESC_SIZE ("room=" ++ text) := by
  unfold roomDesc
  cases pRoomIdStr with
  | none => exact ⟨_, rfl⟩
  | some room =>
      simp only
      split
      · exact ⟨_, rfl⟩
      · exact ⟨_, rfl⟩

theorem roomDesc_ne_empty (roomId : JanusId) (pRoomIdStr : Option String) :
    roomDesc roomId pRoomIdStr ≠ "" := by
  obtain ⟨text, htext⟩ := roomDesc_toList roomId pRoomIdStr
  rw [htext, snprintf, String.toList_append]
  intro h
  have hnil := congrArg String.toList h
  rw [String.toList_ofList] at hnil
  simp [ROOM_DESC_SIZE] at hnil

/-- The data of a join token, up to the room. -/
def joinTokenHead (expiry : Nat) : List Char :=
  (toString expiry).toList ++ ',' :: ("janus".toList ++ ',' :: (JANUS_PLUGIN.toList ++ [',']))

theorem joinTokenData_toList (expiry : Nat) {desc : String} (h : desc ≠ "") :
    (tokenData expiry [JANUS_PLUGIN, desc]).toList = joinTokenHead expiry ++ desc.toList := by
  simp [tokenData, AUTH_REALM, JANUS_PLUGIN, joinTokenHead, h]

theorem colon_not_mem_joinTokenHead (expiry : Nat) : ':' ∉ joinTokenHead expiry := by
  intro hmem
  rcases List.mem_append.mp hmem with hmem | hmem
  · exact absurd (isDigit_of_mem_toString hmem) (by decide)
  · exact absurd hmem (by decide)

/-- The fields of the data behind the realm: the plugin, and what the room splits into. -/
theorem splitOn_joinTokenHead (expiry : Nat) (desc : List Char) :
    ((joinTokenHead expiry ++ desc).splitOn ',').drop 2 =
      JANUS_PLUGIN.toList :: desc.splitOn ',' := by
  have hdigits : ',' ∉ (toString expiry).toList :=
    fun hmem => absurd (isDigit_of_mem_toString hmem) (by decide)
  have hjanus : ',' ∉ "janus".toList := by decide
  have hplugin : ',' ∉ JANUS_PLUGIN.toList := by decide
  have hshape : joinTokenHead expiry ++ desc = (toString expiry).toList ++ ',' ::
      ("janus".toList ++ ',' :: (JANUS_PLUGIN.toList ++ ',' :: desc)) := by
    simp [joinTokenHead]
  rw [hshape, List.splitOn_append_cons_self_of_not_mem hdigits,
    List.splitOn_append_cons_self_of_not_mem hjanus,
    List.splitOn_append_cons_self_of_not_mem hplugin]
  rfl

/-- A text that splits into one piece is that piece. -/
theorem splitOn_eq_single_iff {sep : Char} {text piece : List Char} :
    text.splitOn sep = [piece] ↔ text = piece ∧ sep ∉ piece := by
  constructor
  · intro h
    have hjoin := congrArg (List.intercalate [sep]) h
    have heq : text = piece := by simpa [List.intercalate_splitOn] using hjoin
    refine ⟨heq, fun hmem => ?_⟩
    obtain ⟨front, back, rfl⟩ := List.append_of_mem hmem
    rw [heq, List.splitOn_append_cons_self] at h
    have hlen := congrArg List.length h
    have hfront := List.length_pos_of_ne_nil (List.splitOn_ne_nil sep front)
    have hback := List.length_pos_of_ne_nil (List.splitOn_ne_nil sep back)
    rw [List.length_append, List.length_singleton] at hlen
    omega
  · rintro ⟨rfl, h⟩
    exact List.splitOn_eq_singleton h

/-- Without a colon in its data a token is read as it was put together. -/
theorem token_parts {data code : String} (h : ':' ∉ data.toList) :
    tokenDataOf (data ++ ":" ++ code) = data ∧ tokenSignatureOf (data ++ ":" ++ code) = code := by
  have hkeep : ∀ c ∈ data.toList, decide (c ≠ ':') = true := by
    intro c hc
    rw [decide_eq_true_eq]
    rintro rfl
    exact h hc
  have htoken : (data ++ ":" ++ code).toList = data.toList ++ ':' :: code.toList := by simp
  constructor
  · rw [tokenDataOf, htoken, List.takeWhile_append_of_pos hkeep]
    simp
  · rw [tokenSignatureOf, htoken, List.dropWhile_append_of_pos hkeep]
    simp

/-- With one, the signature that is read holds a colon. -/
theorem colon_mem_tokenSignatureOf {data code : String} (h : ':' ∈ data.toList) :
    ':' ∈ (tokenSignatureOf (data ++ ":" ++ code)).toList := by
  obtain ⟨front, back, hdata, hfront⟩ := List.eq_append_cons_of_mem h
  have hkeep : ∀ c ∈ front, decide (c ≠ ':') = true := by
    intro c hc
    rw [decide_eq_true_eq]
    rintro rfl
    exact hfront hc
  have htoken : (data ++ ":" ++ code).toList = front ++ ':' :: (back ++ ':' :: code.toList) := by
    simp [hdata]
  rw [tokenSignatureOf, htoken, List.dropWhile_append_of_pos hkeep, String.toList_ofList]
  simp

/-- What is read from a token with a room descriptor in it. -/
theorem token_exact_iff {hmac : Hmac} {key desc code : String} {expiry : Nat} (text : String)
    (hdesc : desc ≠ "") (hcode : hmac.sign key (tokenData expiry [JANUS_PLUGIN, desc]) = some code)
    {token : String} (htoken : token = tokenData expiry [JANUS_PLUGIN, desc] ++ ":" ++ code) :
    (hmac.sign key (tokenDataOf token) = some (tokenSignatureOf token) ∧
      tokenDescriptors (tokenDataOf token) = [JANUS_PLUGIN, "room=" ++ text]) ↔
    desc = "room=" ++ text ∧ ',' ∉ text.toList ∧ ':' ∉ text.toList := by
  have hdata := joinTokenData_toList expiry hdesc
  have hroom : ∀ c, c ∈ ("room=" ++ text).toList ↔ c ∈ "room=".toList ∨ c ∈ text.toList := by
    intro c
    rw [String.toList_append, List.mem_append]
  subst htoken
  -- the descriptors of data without a colon
  have hread : ':' ∉ desc.toList →
      (tokenDescriptors (tokenDataOf (tokenData expiry [JANUS_PLUGIN, desc] ++ ":" ++ code)) =
        [JANUS_PLUGIN, "room=" ++ text] ↔ desc = "room=" ++ text ∧ ',' ∉ desc.toList) := by
    intro hcolon
    have hnone : ':' ∉ (tokenData expiry [JANUS_PLUGIN, desc]).toList := by
      rw [hdata, List.mem_append, not_or]
      exact ⟨colon_not_mem_joinTokenHead expiry, hcolon⟩
    rw [(token_parts hnone).1, tokenDescriptors, hdata, splitOn_joinTokenHead, List.map_cons,
      String.ofList_toList, List.cons.injEq]
    constructor
    · rintro ⟨-, h⟩
      obtain ⟨piece, hpiece, hof⟩ := List.map_eq_singleton_iff.mp h
      obtain ⟨heq, hcomma⟩ := splitOn_eq_single_iff.mp hpiece
      subst heq
      rw [String.ofList_toList] at hof
      exact ⟨hof, hcomma⟩
    · rintro ⟨heq, hcomma⟩
      rw [List.splitOn_eq_singleton hcomma, List.map_singleton, String.ofList_toList, heq]
      exact ⟨rfl, rfl⟩
  by_cases hcolon : ':' ∈ desc.toList
  · -- a colon in the room makes the signature end in another signature
    constructor
    · rintro ⟨hsign, -⟩
      have hmem : ':' ∈ (tokenData expiry [JANUS_PLUGIN, desc]).toList := by
        rw [hdata]
        exact List.mem_append_right _ hcolon
      exact absurd (colon_mem_tokenSignatureOf hmem) (hmac.no_colon hsign)
    · rintro ⟨heq, -, hnone⟩
      rw [heq, hroom] at hcolon
      exact absurd hcolon (by simp [hnone])
  · have hnone : ':' ∉ (tokenData expiry [JANUS_PLUGIN, desc]).toList := by
      rw [hdata, List.mem_append, not_or]
      exact ⟨colon_not_mem_joinTokenHead expiry, hcolon⟩
    have hsign : hmac.sign key (tokenDataOf (tokenData expiry [JANUS_PLUGIN, desc] ++ ":" ++ code))
        = some (tokenSignatureOf (tokenData expiry [JANUS_PLUGIN, desc] ++ ":" ++ code)) := by
      rw [(token_parts hnone).1, (token_parts hnone).2, hcode]
    rw [hread hcolon]
    constructor
    · rintro ⟨-, heq, hcomma⟩
      rw [heq, hroom] at hcomma hcolon
      exact ⟨heq, fun h => hcomma (.inr h), fun h => hcolon (.inr h)⟩
    · rintro ⟨heq, hcomma, -⟩
      refine ⟨hsign, heq, ?_⟩
      rw [heq, hroom]
      simp [hcomma]

/-! ## The descriptor and the room -/

theorem snprintf_eq_iff {size : Nat} (hsize : 0 < size) (text : String) :
    snprintf size text = text ↔ text.length < size := by
  constructor
  · intro h
    have hlen := congrArg (fun s : String => s.toList.length) h
    simp only [snprintf, String.toList_ofList, List.length_take, String.length_toList] at hlen
    omega
  · exact snprintf_of_lt

theorem decimal_length_le (id : JanusId) : (decimal id).length ≤ 20 := by
  have hlt : id.toNat < 10 ^ 20 := Nat.lt_trans (UInt64.toNat_lt id) (by decide)
  have hlen := (Nat.length_toDigits_le_iff (by decide) (by decide : 0 < 20)).mpr hlt
  rw [decimal, Nat.toString_eq_repr, ← String.length_toList, Nat.toList_repr]
  exact hlen

theorem room_append_inj {a b : String} (h : "room=" ++ a = "room=" ++ b) : a = b := by
  have hlist := congrArg String.toList h
  rw [String.toList_append, String.toList_append] at hlist
  exact String.toList_inj.mp (List.append_cancel_left hlist)

theorem snprintf_room_eq_iff (room : String) :
    snprintf ROOM_DESC_SIZE ("room=" ++ room) = "room=" ++ room ↔ room.length ≤ 90 := by
  have hlen : ("room=" ++ room).length = 5 + room.length := by
    rw [String.length_append]
    rfl
  rw [snprintf_eq_iff (by decide), hlen]
  unfold ROOM_DESC_SIZE
  omega

/-- The descriptor is the one of the room in the body, and free of separators, exactly
    for the rooms that fit. -/
theorem roomDesc_exact_iff {roomId : JanusId} {pRoomIdStr : Option String} {text : String}
    (htext : roomText (roomMember roomId pRoomIdStr) = some text) :
    (roomDesc roomId pRoomIdStr = "room=" ++ text ∧ ',' ∉ text.toList ∧ ':' ∉ text.toList) ↔
      RoomFits roomId pRoomIdStr := by
  -- a room number: the decimal form of the number that the double holds
  have hnumber : roomText (.number (.ofJanusId roomId)) = some text →
      ((snprintf ROOM_DESC_SIZE ("room=" ++ decimal roomId) = "room=" ++ text ∧
        ',' ∉ text.toList ∧ ':' ∉ text.toList) ↔ ExactDouble roomId) := by
    intro h
    rw [roomText_number, Option.some.injEq] at h
    have hfits : snprintf ROOM_DESC_SIZE ("room=" ++ decimal roomId) = "room=" ++ decimal roomId :=
      (snprintf_room_eq_iff _).mpr (Nat.le_trans (decimal_length_le roomId) (by decide))
    rw [hfits, ← roundedId_eq_iff, ← h]
    constructor
    · rintro ⟨heq, -, -⟩
      exact (toString_nat_inj (room_append_inj heq)).symm
    · intro heq
      rw [heq]
      refine ⟨rfl, ?_, ?_⟩
      · exact fun hmem => absurd (isDigit_of_mem_toString hmem) (by decide)
      · exact fun hmem => absurd (isDigit_of_mem_toString hmem) (by decide)
  unfold roomDesc RoomFits
  unfold roomMember at htext
  cases pRoomIdStr with
  | none => exact hnumber htext
  | some room =>
      simp only at htext ⊢
      by_cases hroom : room ≠ ""
      · rw [if_pos hroom] at htext ⊢
        obtain rfl : room = text := Option.some.inj htext
        rw [if_pos hroom, snprintf_room_eq_iff]
      · rw [if_neg hroom] at htext ⊢
        rw [if_neg hroom]
        exact hnumber htext

/-! ## The join request -/

theorem lookup_stringMember {name other : String} (h : name ≠ other) (value : Option String) :
    (stringMember other value).lookup name = none := by
  cases value with
  | none => rfl
  | some s => simp [stringMember, List.lookup_cons, beq_eq_false_iff_ne.mpr h]

/-- The body of an encoded request. -/
theorem encodeMembers_body {message : RequestMessage} {body : Members} (pToken : Option String)
    (h : message.pJsonBody = some body) :
    (encodeMembers message pToken).lookup "body" = some (.object body) := by
  simp [encodeMembers, List.lookup_append, List.lookup_cons, lookup_stringMember, h, itemMember]

theorem addToBody_body {json body : Members} (added : Members)
    (h : json.lookup "body" = some (.object body)) :
    (addToBody json added).lookup "body" = some (.object (body ++ added)) := by
  induction json with
  | nil => cases h
  | cons member json ih =>
      obtain ⟨name, item⟩ := member
      by_cases hname : name = "body"
      · subst hname
        rw [List.lookup_cons_self, Option.some.injEq] at h
        subst h
        rfl
      · have hcons : addToBody ((name, item) :: json) added =
            (name, item) :: addToBody json added := by
          rw [addToBody, List.map_cons]
          split
          · next heq => exact absurd (congrArg Prod.fst heq) hname
          · rfl
        have hne : ("body" == name) = false := beq_eq_false_iff_ne.mpr (Ne.symm hname)
        rw [List.lookup_cons, hne] at h
        rw [hcons, List.lookup_cons, hne]
        exact ih h

/-- `api_send_request` adds to the end of the request, and no token to a signed one. -/
theorem apiSendRequest_members {server : ServerConfig} {json : Members}
    {serverId senderId : JanusId} {kind : UrlKind} {sent : SentRequest} {key : Credential}
    (hkey : server.pHmacSecret = some key)
    (h : apiSendRequest server json serverId senderId kind = some sent) :
    ∃ more, sent.members = json ++ more ∧ memberStrings "token" more = [] := by
  unfold apiSendRequest at h
  cases htransport : server.transport with
  | ws =>
      rw [htransport] at h
      cases h
      simp only [SentRequest.members, List.append_assoc]
      refine ⟨_, rfl, ?_⟩
      simp [memberStrings_idMember, storedToken, hkey]
  | http =>
      rw [htransport] at h
      simp only at h
      split at h
      · cases h
        exact ⟨[], (List.append_nil json).symm, rfl⟩
      · cases h

theorem lookup_append_some {json : Members} {name : String} {item : CJson} (more : Members)
    (h : json.lookup name = some item) : (json ++ more).lookup name = some item := by
  rw [List.lookup_append, h, Option.some_or]

theorem joinMessage_body (pTransactionId : String) (server : ServerConfig) (hmacTokenTtl : Int)
    (roomId : JanusId) (pDisplay pPin pToken callId pRoomIdStr : Option String) :
    ∃ rest, (joinMessage pTransactionId server hmacTokenTtl roomId pDisplay pPin pToken callId
      pRoomIdStr).pJsonBody =
        some (("request", .string "join") :: ("room", roomMember roomId pRoomIdStr) :: rest) :=
  ⟨_, rfl⟩

/-- The token and the room of a join request of a server that signs. -/
theorem apiJoin_parts {hmac : Hmac} {now : Nat} {pTransactionId : String}
    {server : ServerConfig} {hmacTokenTtl : Int} {serverId senderId roomId : JanusId}
    {pDisplay pPin pToken callId pRoomIdStr : Option String} {key : Credential}
    (hkey : server.pHmacSecret = some key) {sent : SentRequest}
    (h : apiJoin hmac now pTransactionId server hmacTokenTtl serverId senderId roomId pDisplay
      pPin pToken callId pRoomIdStr = some sent) :
    ∃ expiry code,
      hmac.sign key.1 (tokenData expiry [JANUS_PLUGIN, roomDesc roomId pRoomIdStr]) = some code ∧
      memberStrings "token" sent.members =
        [some (tokenData expiry [JANUS_PLUGIN, roomDesc roomId pRoomIdStr] ++ ":" ++ code)] ∧
      sent.bodyRoom = some (roomMember roomId pRoomIdStr) := by
  obtain ⟨⟨json, pSignedToken⟩, henc, hsend⟩ := Option.bind_eq_some_iff.mp h
  obtain ⟨pSigned, htoken, heq⟩ := Option.map_eq_some_iff.mp henc
  cases heq
  -- what `encode` signs
  have hdescs : requestDescriptors (joinMessage pTransactionId server hmacTokenTtl roomId pDisplay
      pPin pToken callId pRoomIdStr) = [JANUS_PLUGIN, roomDesc roomId pRoomIdStr] := by
    simp [requestDescriptors, joinMessage, hkey, roomDesc_ne_empty, MAX_TOKEN_DESCRIPTORS]
  have hsecret : (joinMessage pTransactionId server hmacTokenTtl roomId pDisplay pPin pToken callId
      pRoomIdStr).pHmacSecret = some key.1 := by
    rw [joinMessage, requestOf, hkey]
    rfl
  rw [encodeToken, hsecret] at htoken
  simp only [hdescs] at htoken
  obtain ⟨token, hsign, rfl⟩ := Option.map_eq_some_iff.mp htoken
  obtain ⟨expiry, code, hcode, htok⟩ := authSignToken_parts hsign
  obtain ⟨more, hmembers, hmore⟩ := apiSendRequest_members hkey hsend
  refine ⟨expiry, code, hcode, ?_, ?_⟩
  · rw [hmembers, memberStrings_append, hmore, memberStrings_addToBody (by decide),
      encodeMembers_token, ← htok]
    rfl
  · -- the body is the one that `apiJoin` built, with the token behind it
    obtain ⟨rest, hbuilt⟩ := joinMessage_body pTransactionId server hmacTokenTtl roomId pDisplay
      pPin pToken callId pRoomIdStr
    have hbody := lookup_append_some more (addToBody_body (stringMember "token" (some token))
      (encodeMembers_body (some token) hbuilt))
    rw [SentRequest.bodyRoom, hmembers, getObjectItem, hbody]
    rfl

/-- The token of a join names exactly the plugin and the room of the body if and only if
    the room fits. -/
theorem join_token_exact_iff (hmac : Hmac) (now : Nat) (pTransactionId : String)
    (server : ServerConfig) (hmacTokenTtl : Int) (serverId senderId roomId : JanusId)
    (pDisplay pPin pToken callId pRoomIdStr : Option String) (key : Credential)
    (hkey : server.pHmacSecret = some key) (sent : SentRequest)
    (h : apiJoin hmac now pTransactionId server hmacTokenTtl serverId senderId roomId pDisplay
      pPin pToken callId pRoomIdStr = some sent) :
    JoinTokenExact hmac key.1 sent ↔ RoomFits roomId pRoomIdStr := by
  obtain ⟨expiry, code, hcode, htokens, hroom⟩ := apiJoin_parts hkey h
  obtain ⟨text, htext⟩ := roomText_roomMember roomId pRoomIdStr
  have hread := token_exact_iff text (roomDesc_ne_empty roomId pRoomIdStr) hcode rfl
  rw [← roomDesc_exact_iff htext, ← hread]
  constructor
  · rintro ⟨token, room, text', htoken, hbody, htext', hexact⟩
    rw [htokens, List.cons.injEq, Option.some.injEq] at htoken
    rw [hroom, Option.some.injEq] at hbody
    subst hbody
    obtain rfl : text = text' := Option.some.inj (htext.symm.trans htext')
    rw [htoken.1]
    exact hexact
  · exact fun hexact => ⟨_, _, text, htokens, hroom, htext, hexact⟩

/-- A server that signs with the secret `secret`. -/
def signingServer : ServerConfig where
  pUrl := "http://a/janus"
  transport := .http
  pSecret := none
  pAuthToken := none
  pHmacSecret := some ⟨"secret", by decide⟩

/-- The signatures of two tokens that expire at 7300 s. -/
def knownHmac : Hmac where
  sign := fun key data =>
    if key = "secret" ∧ data = "7300,janus,janus.plugin.audiobridge,room=1234" then
      some "cZvxZ7HmB1RjzdwmjzYBiQsaDoM="
    else if key = "secret" ∧ data = "7300,janus,janus.plugin.audiobridge,room=a,room=b" then
      some "2yXyeAZ0iaCQRj3DZ7Kzjqm9vOg="
    else none
  alphabet := by
    intro key data code h
    split at h
    · obtain rfl := Option.some.inj h
      exact List.all_eq_true.mp (by decide)
    · split at h
      · obtain rfl := Option.some.inj h
        exact List.all_eq_true.mp (by decide)
      · cases h

theorem join_token_exact_number :
    ∃ sent, apiJoin knownHmac 100 "t" signingServer 7200 7 11 1234 none none none none
        (some "1234") = some sent ∧ JoinTokenExact knownHmac "secret" sent := by
  have hsent : (apiJoin knownHmac 100 "t" signingServer 7200 7 11 1234 none none none none
      (some "1234")).isSome = true := by decide
  obtain ⟨sent, hsent⟩ := Option.isSome_iff_exists.mp hsent
  exact ⟨sent, hsent, (join_token_exact_iff knownHmac 100 "t" signingServer 7200 7 11 1234 none none
    none none (some "1234") ⟨"secret", by decide⟩ rfl sent hsent).mpr (by decide)⟩

/-- A comma in the room gives the token two rooms, neither of which is the one asked for. -/
theorem join_token_two_rooms :
    ∃ sent, apiJoin knownHmac 100 "t" signingServer 7200 7 11 0 none none none none
        (some "a,room=b") = some sent ∧ ¬ JoinTokenExact knownHmac "secret" sent := by
  have hsent : (apiJoin knownHmac 100 "t" signingServer 7200 7 11 0 none none none none
      (some "a,room=b")).isSome = true := by decide
  obtain ⟨sent, hsent⟩ := Option.isSome_iff_exists.mp hsent
  refine ⟨sent, hsent, ?_⟩
  rintro ⟨token, room, text, htoken, hbody, htext, hexact⟩
  obtain ⟨expiry, code, hcode, htokens, hroom⟩ := apiJoin_parts rfl hsent
  rw [htokens, List.cons.injEq, Option.some.injEq] at htoken
  rw [hroom, Option.some.injEq] at hbody
  subst hbody
  obtain ⟨-, hcomma, -⟩ := (token_exact_iff text (roomDesc_ne_empty 0 (some "a,room=b"))
    hcode htoken.1.symm).mp hexact
  obtain rfl : "a,room=b" = text := Option.some.inj htext
  exact absurd hcomma (by decide)

end ModJanus
