/-
  ModJanus.Api.Credentials

  Which credentials the requests to Janus carry.

  `CarriesCredentials` says what a request owes to the configuration of its server:
  the API secret, and the signed or the stored token.  `encode` and
  `api_send_request` keep it for every request that goes through them
  (`encodeAndSend_carries`, `apiJoin_carries`).  The long poll keeps it as far as its
  URL buffer and the characters of the credentials allow (`poll_carries_iff`), and
  the WebSocket keepalive only without any token.
-/
import ModJanus.Api.Request
import ModJanus.Lib.Fields

namespace ModJanus

/-! ## What a request carries -/

/-- The value of a hexadecimal digit. -/
def hexDigit? (c : Char) : Option Nat :=
  if c.isDigit then some (c.toNat - '0'.toNat)
  else if 'a' ≤ c ∧ c ≤ 'f' then some (c.toNat - 'a'.toNat + 10)
  else if 'A' ≤ c ∧ c ≤ 'F' then some (c.toNat - 'A'.toNat + 10)
  else none

/-- The percent-decoding that the receiver applies to a value of a query.  Receivers
    differ in whether `+` is a blank. -/
def percentDecode (plusIsBlank : Bool) : List Char → List Char
  | [] => []
  | '%' :: a :: b :: rest =>
      match hexDigit? a, hexDigit? b with
      | some x, some y => Char.ofNat (16 * x + y) :: percentDecode plusIsBlank rest
      | _, _ => '%' :: percentDecode plusIsBlank (a :: b :: rest)
  | c :: rest =>
      (if plusIsBlank ∧ c = '+' then ' ' else c) :: percentDecode plusIsBlank rest

/-- The query of a URL: what stands behind the first `?`, without the fragment. -/
def queryOf (url : List Char) : List Char :=
  ((url.takeWhile (· ≠ '#')).dropWhile (· ≠ '?')).drop 1

/-- The strings under a name in a JSON object. -/
def memberStrings (name : String) (json : Members) : List (Option String) :=
  (json.filter (·.1 = name)).map (·.2.valuestring)

/-- The request-level values under a name: members of the JSON object, or parameters
    of the query. -/
def SentRequest.valuesOf (plusIsBlank : Bool) (name : String) :
    SentRequest → List (Option String)
  | .post _ json => memberStrings name json
  | .ws json => memberStrings name json
  | .get url => (Fields.values '&' '=' name.toList (queryOf url.toList)).map fun value =>
      some (String.ofList (percentDecode plusIsBlank value))

/-- A request that owes the stored token: one on a WebSocket, or the HTTP poll. -/
def SentRequest.owesStoredToken : SentRequest → Bool
  | .post _ _ => false
  | .ws _ => true
  | .get _ => true

/-- The request carries what the configuration of the server asks for. -/
structure CarriesCredentials (hmac : Hmac) (plusIsBlank : Bool) (server : ServerConfig)
    (sent : SentRequest) : Prop where
  secret : sent.valuesOf plusIsBlank "apisecret" = (server.pSecret.map (·.1)).toList.map some
  signed : ∀ pHmacSecret, server.pHmacSecret = some pHmacSecret →
    ∃ token, sent.valuesOf plusIsBlank "token" = [some token] ∧ SignedWith hmac pHmacSecret.1 token
  stored : server.pHmacSecret = none → sent.owesStoredToken = true →
    ∀ pAuthToken, server.pAuthToken = some pAuthToken →
      sent.valuesOf plusIsBlank "token" = [some pAuthToken.1]

/-! ## Members of a JSON object -/

@[simp] theorem memberStrings_nil (name : String) : memberStrings name [] = [] := rfl

@[simp] theorem memberStrings_append (name : String) (json more : Members) :
    memberStrings name (json ++ more) = memberStrings name json ++ memberStrings name more := by
  simp [memberStrings]

@[simp] theorem memberStrings_cons (name : String) (member : String × CJson) (json : Members) :
    memberStrings name (member :: json) =
      (if member.1 = name then [member.2.valuestring] else []) ++ memberStrings name json := by
  by_cases h : member.1 = name <;> simp [memberStrings, h]

@[simp] theorem memberStrings_stringMember (name other : String) (value : Option String) :
    memberStrings name (stringMember other value) =
      if other = name then value.toList.map some else [] := by
  cases value with
  | none => simp [stringMember]
  | some s => by_cases h : other = name <;> simp [stringMember, h, CJson.valuestring]

theorem memberStrings_itemMember {name other : String} (h : other ≠ name)
    (item : Option CJson) : memberStrings name (itemMember other item) = [] := by
  cases item <;> simp [itemMember, h]

theorem memberStrings_idMember {name other : String} (h : other ≠ name) (id : JanusId) :
    memberStrings name (idMember other id) = [] := by
  unfold idMember
  split <;> simp [h]

/-- Adding to the body leaves the members of the request alone. -/
theorem memberStrings_addToBody {name : String} (h : "body" ≠ name) (json added : Members) :
    memberStrings name (addToBody json added) = memberStrings name json := by
  induction json with
  | nil => rfl
  | cons member json ih =>
      have hcons : memberStrings name (addToBody (member :: json) added) =
          (if member.1 = name then [member.2.valuestring] else []) ++
            memberStrings name (addToBody json added) := by
        rw [addToBody, List.map_cons, memberStrings_cons]
        split
        · rw [if_neg h, if_neg h]
          rfl
        · rfl
      rw [hcons, ih, memberStrings_cons]

/-! ## What `encode` and `api_send_request` attach -/

/-- A message that takes the credentials of its server along. -/
structure RequestMessage.Of (server : ServerConfig) (message : RequestMessage) : Prop where
  pSecret : message.pSecret = server.pSecret.map (·.1)
  pHmacSecret : message.pHmacSecret = server.pHmacSecret.map (·.1)

theorem encodeMembers_apisecret (message : RequestMessage) (pToken : Option String) :
    memberStrings "apisecret" (encodeMembers message pToken) =
      message.pSecret.toList.map some := by
  simp [encodeMembers, memberStrings_itemMember]

theorem encodeMembers_token (message : RequestMessage) (pToken : Option String) :
    memberStrings "token" (encodeMembers message pToken) = pToken.toList.map some := by
  simp [encodeMembers, memberStrings_itemMember]

/-- A signed token is there when the server has a secret for it, and none otherwise. -/
theorem encodeToken_cases {hmac : Hmac} {now : Nat} {message : RequestMessage}
    {pToken : Option String} (h : encodeToken hmac now message = some pToken) :
    (message.pHmacSecret = none ∧ pToken = none) ∨
    ∃ key token, message.pHmacSecret = some key ∧ pToken = some token ∧
      SignedWith hmac key token := by
  unfold encodeToken at h
  cases hkey : message.pHmacSecret with
  | none =>
      rw [hkey] at h
      exact .inl ⟨rfl, (Option.some.inj h).symm⟩
  | some key =>
      rw [hkey] at h
      obtain ⟨token, htoken, rfl⟩ := Option.map_eq_some_iff.mp h
      exact .inr ⟨key, token, rfl, rfl, authSignToken_signedWith htoken⟩

/-- `api_send_request` keeps the members it is given, and on a WebSocket adds the
    stored token. -/
theorem apiSendRequest_valuesOf {server : ServerConfig} {json : Members}
    {serverId senderId : JanusId} {kind : UrlKind} {sent : SentRequest} (plusIsBlank : Bool)
    (h : apiSendRequest server json serverId senderId kind = some sent) :
    sent.valuesOf plusIsBlank "apisecret" = memberStrings "apisecret" json ∧
    sent.valuesOf plusIsBlank "token" = memberStrings "token" json ++
      (if sent.owesStoredToken then (storedToken server).toList.map some else []) := by
  unfold apiSendRequest at h
  cases htransport : server.transport with
  | ws =>
      rw [htransport] at h
      cases h
      simp [SentRequest.valuesOf, SentRequest.owesStoredToken, memberStrings_idMember]
  | http =>
      rw [htransport] at h
      simp only at h
      split at h
      · cases h
        simp [SentRequest.valuesOf, SentRequest.owesStoredToken]
      · cases h

/-- Members that hold the secret and the signed token make a request that carries the
    credentials. -/
theorem apiSendRequest_carries {hmac : Hmac} {now : Nat} {server : ServerConfig}
    {message : RequestMessage} (hmessage : message.Of server) {pToken : Option String}
    (htoken : encodeToken hmac now message = some pToken) {json : Members}
    (hsecret : memberStrings "apisecret" json = message.pSecret.toList.map some)
    (htokens : memberStrings "token" json = pToken.toList.map some)
    {serverId senderId : JanusId} {kind : UrlKind} {sent : SentRequest} (plusIsBlank : Bool)
    (h : apiSendRequest server json serverId senderId kind = some sent) :
    CarriesCredentials hmac plusIsBlank server sent := by
  obtain ⟨hs, ht⟩ := apiSendRequest_valuesOf plusIsBlank h
  rw [hsecret, hmessage.pSecret] at hs
  rw [htokens] at ht
  rcases encodeToken_cases htoken with ⟨hkey, rfl⟩ | ⟨key, token, hkey, rfl, hsigned⟩
  · -- no signing: the stored token is the only one
    rw [hmessage.pHmacSecret, Option.map_eq_none_iff] at hkey
    refine ⟨hs, fun key h => ?_, fun _ howes token hstored => ?_⟩
    · rw [hkey] at h
      cases h
    · rw [ht, howes, storedToken, hkey, hstored]
      rfl
  · rw [hmessage.pHmacSecret, Option.map_eq_some_iff] at hkey
    obtain ⟨secret, hkey, rfl⟩ := hkey
    have hstored : storedToken server = none := by rw [storedToken, hkey]; rfl
    refine ⟨hs, fun key h => ?_, fun h => ?_⟩
    · obtain rfl : secret = key := Option.some.inj (hkey.symm.trans h)
      refine ⟨token, ?_, hsigned⟩
      rw [ht, hstored]
      simp
    · rw [hkey] at h
      cases h

theorem encodeAndSend_carries {hmac : Hmac} {now : Nat} {server : ServerConfig}
    {message : RequestMessage} (hmessage : message.Of server) {serverId senderId : JanusId}
    {kind : UrlKind} {sent : SentRequest} (plusIsBlank : Bool)
    (h : encodeAndSend hmac now server message serverId senderId kind = some sent) :
    CarriesCredentials hmac plusIsBlank server sent := by
  obtain ⟨⟨json, pToken⟩, henc, hsend⟩ := Option.bind_eq_some_iff.mp h
  obtain ⟨token, htoken, heq⟩ := Option.map_eq_some_iff.mp henc
  cases heq
  exact apiSendRequest_carries hmessage htoken (encodeMembers_apisecret message pToken)
    (encodeMembers_token message pToken) plusIsBlank hsend

theorem requestOf_of (pTransactionId : String) (server : ServerConfig) (pType : String) :
    (requestOf pTransactionId server pType).Of server := ⟨rfl, rfl⟩

/-- The token that `apiJoin` repeats in the body is not a second one of the request. -/
theorem apiJoin_carries {hmac : Hmac} {now : Nat} {pTransactionId : String}
    {server : ServerConfig} {hmacTokenTtl : Int} {serverId senderId roomId : JanusId}
    {pDisplay pPin pToken callId pRoomIdStr : Option String} {sent : SentRequest}
    (plusIsBlank : Bool)
    (h : apiJoin hmac now pTransactionId server hmacTokenTtl serverId senderId roomId pDisplay
      pPin pToken callId pRoomIdStr = some sent) :
    CarriesCredentials hmac plusIsBlank server sent := by
  obtain ⟨⟨json, pSignedToken⟩, henc, hsend⟩ := Option.bind_eq_some_iff.mp h
  obtain ⟨token, htoken, heq⟩ := Option.map_eq_some_iff.mp henc
  cases heq
  refine apiSendRequest_carries ⟨rfl, rfl⟩ htoken ?_ ?_ plusIsBlank hsend
  · rw [memberStrings_addToBody (by decide), encodeMembers_apisecret]
  · rw [memberStrings_addToBody (by decide), encodeMembers_token]

/-! ## The keepalive -/

theorem keepalive_carries_iff (hmac : Hmac) (plusIsBlank : Bool) {pTransactionId : String}
    {server : ServerConfig} {sessionId : JanusId} {sent : SentRequest}
    (h : janusWsKeepalive pTransactionId server sessionId = some sent) :
    CarriesCredentials hmac plusIsBlank server sent ↔
      server.pHmacSecret = none ∧ server.pAuthToken = none := by
  unfold janusWsKeepalive at h
  cases htransport : server.transport with
  | http =>
      rw [htransport] at h
      cases h
  | ws =>
      rw [htransport, Option.ite_none_right_eq_some] at h
      obtain ⟨-, h⟩ := h
      cases h
      -- the secret is added by hand, and a token never
      have hsecret : memberStrings "apisecret" (keepaliveMembers pTransactionId server sessionId) =
          (server.pSecret.map (·.1)).toList.map some := by
        simp [keepaliveMembers, memberStrings_idMember]
      have htoken : memberStrings "token" (keepaliveMembers pTransactionId server sessionId) =
          [] := by
        simp [keepaliveMembers, memberStrings_idMember]
      constructor
      · intro hcarries
        have hkey : server.pHmacSecret = none := by
          cases hkey : server.pHmacSecret with
          | none => rfl
          | some key =>
              obtain ⟨token, hread, -⟩ := hcarries.signed key hkey
              rw [SentRequest.valuesOf, htoken] at hread
              cases hread
        refine ⟨hkey, ?_⟩
        cases hstored : server.pAuthToken with
        | none => rfl
        | some token =>
            have hread := hcarries.stored hkey rfl token hstored
            rw [SentRequest.valuesOf, htoken] at hread
            cases hread
      · rintro ⟨hkey, hstored⟩
        refine ⟨hsecret, fun key h => ?_, fun _ _ token h => ?_⟩
        · rw [hkey] at h
          cases h
        · rw [hstored] at h
          cases h

/-! ## The URL of the long poll -/

theorem percentDecode_length_le (plusIsBlank : Bool) (value : List Char) :
    (percentDecode plusIsBlank value).length ≤ value.length := by
  fun_induction percentDecode plusIsBlank value with
  | case1 => simp
  | case2 a b rest x y hx hy ih =>
      simp only [List.length_cons]
      omega
  | case3 a b rest h ih => simpa using ih
  | case4 c rest h ih => simpa using ih

/-- Without a percent sign only `+` can change. -/
theorem percentDecode_plain {plusIsBlank : Bool} {value : List Char} (h : '%' ∉ value) :
    percentDecode plusIsBlank value =
      value.map fun c => if plusIsBlank ∧ c = '+' then ' ' else c := by
  fun_induction percentDecode plusIsBlank value with
  | case1 => rfl
  | case2 a b rest x y hx hy ih => exact absurd (List.mem_cons_self) h
  | case3 a b rest h' ih => exact absurd (List.mem_cons_self) h
  | case4 c rest h' ih =>
      rw [ih fun hmem => h (List.mem_cons_of_mem c hmem)]
      rfl

/-- The parameter names `apisecret` and `token`, and the first parameter `maxev=10`. -/
def secretParam : List Char := ['a', 'p', 'i', 's', 'e', 'c', 'r', 'e', 't']

def tokenParam : List Char := ['t', 'o', 'k', 'e', 'n']

def maxevParam : List Char := ['m', 'a', 'x', 'e', 'v', '=', '1', '0']

/-- The credentials that the poll appends to its URL, as fields of the query. -/
def pollFields (server : ServerConfig) (pAuthToken : Option String) :
    List (List Char × List Char) :=
  (server.pSecret.map fun pSecret => (secretParam, pSecret.1.toList)).toList
    ++ (pAuthToken.map fun token => (tokenParam, token.toList)).toList

/-- What stands before the query. -/
def pollPath (server : ServerConfig) (serverId : JanusId) : List Char :=
  server.pUrl.toList ++ '/' :: (decimal serverId).toList

/-- The query with nothing cut off. -/
def pollQuery (server : ServerConfig) (pAuthToken : Option String) : List Char :=
  maxevParam ++ Fields.render '&' '=' (pollFields server pAuthToken)

theorem appendUrl_take {url text : String} {full : List Char}
    (h : url.toList = full.take (URL_SIZE - 1)) :
    (appendUrl url text).toList = (full ++ text.toList).take (URL_SIZE - 1) := by
  have hlen : url.length = min (URL_SIZE - 1) full.length := by
    rw [← String.length_toList, h, List.length_take]
  have hroom : URL_SIZE - url.length - 1 = URL_SIZE - 1 - full.length := by omega
  rw [appendUrl, String.toList_append, snprintf, String.toList_ofList, h, hroom,
    ← List.take_append]

/-- The text that `snprintf` appends for a secret is a field of the query. -/
theorem apisecret_toList (pSecret : String) :
    ("&apisecret=" ++ pSecret).toList =
      Fields.render '&' '=' [(secretParam, pSecret.toList)] := by
  simp [Fields.render, secretParam]

theorem token_toList (token : String) :
    ("&token=" ++ token).toList = Fields.render '&' '=' [(tokenParam, token.toList)] := by
  simp [Fields.render, tokenParam]

/-- The buffer holds the first 1023 bytes of the whole URL. -/
theorem pollUrl_toList (server : ServerConfig) (serverId : JanusId) (pAuthToken : Option String) :
    (pollUrl server serverId pAuthToken).toList =
      (pollPath server serverId ++ '?' :: pollQuery server pAuthToken).take (URL_SIZE - 1) := by
  have hbase : (snprintf URL_SIZE (server.pUrl ++ "/" ++ decimal serverId ++ "?maxev=" ++
      toString MAX_POLL_EVENTS)).toList =
      (pollPath server serverId ++ '?' :: maxevParam).take (URL_SIZE - 1) := by
    have hmax : toString MAX_POLL_EVENTS = "10" := by decide
    rw [snprintf, String.toList_ofList, hmax]
    congr 1
    simp [pollPath, maxevParam]
  unfold pollUrl pollQuery pollFields
  -- the secret and the token are appended in turn
  cases server.pSecret with
  | none =>
      cases pAuthToken with
      | none => simpa [Fields.render] using hbase
      | some token =>
          rw [appendUrl_take hbase, token_toList]
          simp
  | some pSecret =>
      cases pAuthToken with
      | none =>
          rw [appendUrl_take hbase, apisecret_toList]
          simp
      | some token =>
          rw [appendUrl_take (appendUrl_take hbase), apisecret_toList, token_toList]
          simp [Fields.render]

/-- The query of a URL that was cut off after `n` bytes. -/
theorem queryOf_take {path query : List Char} (hquery : '?' ∉ path) (hfragment : '#' ∉ path)
    (n : Nat) : queryOf ((path ++ '?' :: query).take n) =
      (query.take (n - path.length - 1)).takeWhile (· ≠ '#') := by
  have hbefore : ∀ c ∈ path, c ≠ '#' := fun c hc heq => hfragment (heq ▸ hc)
  have hquestion : ∀ c ∈ path, c ≠ '?' := fun c hc heq => hquery (heq ▸ hc)
  by_cases hn : n ≤ path.length
  · have hnone : n - path.length - 1 = 0 := by omega
    have hwhole : (path.take n).takeWhile (· ≠ '#') = path.take n :=
      List.takeWhile_eq_self_iff.mpr fun c hc => by
        simpa using hbefore c (List.mem_of_mem_take hc)
    have hdrop : (path.take n).dropWhile (· ≠ '?') = [] :=
      List.dropWhile_eq_nil_iff.mpr fun c hc => by
        simpa using hquestion c (List.mem_of_mem_take hc)
    rw [List.take_append_of_le_length hn, hnone, queryOf, hwhole, hdrop]
    rfl
  · obtain ⟨k, rfl⟩ := Nat.exists_eq_add_of_lt (Nat.lt_of_not_le hn)
    have htake : (path ++ '?' :: query).take (path.length + k + 1) =
        path ++ '?' :: query.take k := by
      rw [Nat.add_assoc, List.take_length_add_append, List.take_succ_cons]
    have hk : path.length + k + 1 - path.length - 1 = k := by omega
    rw [htake, hk, queryOf, List.takeWhile_append_of_pos (by simpa using hbefore),
      List.dropWhile_append_of_pos (by simpa using hquestion)]
    rfl

/-- The address of the API has neither query nor fragment of its own. -/
def PlainAddress (server : ServerConfig) : Prop :=
  '?' ∉ server.pUrl.toList ∧ '#' ∉ server.pUrl.toList

theorem PlainAddress.pollPath {server : ServerConfig} (h : PlainAddress server)
    (serverId : JanusId) : '?' ∉ pollPath server serverId ∧ '#' ∉ pollPath server serverId := by
  have hdigit : ∀ c ∈ (decimal serverId).toList, c.isDigit = true :=
    fun c hc => isDigit_of_mem_toString hc
  constructor
  · intro hmem
    rcases List.mem_append.mp hmem with hmem | hmem
    · exact h.1 hmem
    · rcases List.mem_cons.mp hmem with heq | hmem
      · cases heq
      · exact absurd (hdigit _ hmem) (by decide)
  · intro hmem
    rcases List.mem_append.mp hmem with hmem | hmem
    · exact h.2 hmem
    · rcases List.mem_cons.mp hmem with heq | hmem
      · cases heq
      · exact absurd (hdigit _ hmem) (by decide)

/-! ## The signed token in the URL -/

/-- The data of the poll's token holds no sign that means something to a reader. -/
theorem pollTokenData_plain {expiry : Nat} {c : Char}
    (h : c ∈ (tokenData expiry [JANUS_PLUGIN]).toList) : c ≠ ':' ∧ c ≠ '+' ∧ c ≠ '%' := by
  have hdata : (tokenData expiry [JANUS_PLUGIN]).toList =
      (toString expiry).toList ++ ",janus,janus.plugin.audiobridge".toList := by
    simp [tokenData, AUTH_REALM, JANUS_PLUGIN]
  rw [hdata, List.mem_append] at h
  rcases h with h | h
  · have hdigit := isDigit_of_mem_toString h
    refine ⟨?_, ?_, ?_⟩ <;> (rintro rfl; exact absurd hdigit (by decide))
  · have hall : ",janus,janus.plugin.audiobridge".toList.all
        (fun c => c != ':' && c != '+' && c != '%') = true := by decide
    simpa [and_assoc] using List.all_eq_true.mp hall c h

theorem Hmac.no_colon (hmac : Hmac) {key data code : String} (h : hmac.sign key data = some code) :
    ':' ∉ code.toList := fun hmem => absurd (hmac.alphabet key data code h ':' hmem) (by decide)

theorem Hmac.no_percent (hmac : Hmac) {key data code : String}
    (h : hmac.sign key data = some code) : '%' ∉ code.toList :=
  fun hmem => absurd (hmac.alphabet key data code h '%' hmem) (by decide)

/-- A text with one `:` in it has one reading as data and signature. -/
theorem split_at_colon {data data' code code' : List Char} (hdata : ':' ∉ data)
    (hcode : ':' ∉ code) (hcode' : ':' ∉ code') (h : data' ++ ':' :: code' = data ++ ':' :: code) :
    data' = data ∧ code' = code := by
  have hsplit : data'.splitOn ':' ++ [code'] = [data] ++ [code] := by
    have h := congrArg (List.splitOn ':') h
    rwa [List.splitOn_append_cons_self, List.splitOn_append_cons_self_of_not_mem hdata,
      List.splitOn_eq_singleton hcode, List.splitOn_eq_singleton hcode'] at h
  have hparts := List.append_inj' hsplit rfl
  refine ⟨?_, by simpa using hparts.2⟩
  have hjoin := congrArg (List.intercalate [':']) hparts.1
  simpa [List.intercalate_splitOn] using hjoin

/-- A part of a signed token that decodes to a token signed with the same secret is the
    whole of it, and is left as it is. -/
theorem signed_complete {hmac : Hmac} {plusIsBlank : Bool} {key data code : String}
    (hdata : ∀ c ∈ data.toList, c ≠ ':' ∧ c ≠ '+' ∧ c ≠ '%')
    (hcode : hmac.sign key data = some code) {raw : List Char}
    (hraw : raw <+: (data ++ ":" ++ code).toList)
    (hsigned : SignedWith hmac key (String.ofList (percentDecode plusIsBlank raw))) :
    percentDecode plusIsBlank raw = (data ++ ":" ++ code).toList := by
  obtain ⟨data', code', hsign', htoken⟩ := hsigned
  have hread : percentDecode plusIsBlank raw = data'.toList ++ ':' :: code'.toList := by
    rw [← String.toList_ofList (l := percentDecode plusIsBlank raw), htoken]
    simp
  have hwhole : (data ++ ":" ++ code).toList = data.toList ++ ':' :: code.toList := by simp
  rw [hwhole] at hraw ⊢
  have hpercent : '%' ∉ raw := by
    intro hmem
    rcases List.mem_append.mp (hraw.subset hmem) with hmem | hmem
    · exact (hdata _ hmem).2.2 rfl
    · rcases List.mem_cons.mp hmem with heq | hmem
      · cases heq
      · exact hmac.no_percent hcode hmem
  rw [percentDecode_plain hpercent] at hread ⊢
  have hkeep : ∀ l : List Char, l <+: data.toList →
      l.map (fun c => if plusIsBlank ∧ c = '+' then ' ' else c) = l := by
    intro l hl
    have hid : ∀ c ∈ l, (if plusIsBlank ∧ c = '+' then ' ' else c) = c :=
      fun c hc => if_neg fun h => (hdata c (hl.subset hc)).2.1 h.2
    rw [List.map_congr_left hid, List.map_id']
  have hcolon : ':' ∉ data.toList := fun hmem => (hdata _ hmem).1 rfl
  -- cut off before the colon, the text is no token
  have hreaches : ¬ raw <+: data.toList := by
    intro hshort
    rw [hkeep raw hshort] at hread
    exact hcolon (hshort.subset (by simp [hread]))
  rcases Fields.cut_cases hraw with hshort | ⟨rest, hrest, rfl⟩
  · exact absurd hshort hreaches
  · cases rest with
    | nil => exact absurd (by simp) hreaches
    | cons c rest =>
        obtain ⟨rfl, hcut⟩ := List.cons_prefix_cons.mp hrest
        -- the signature of the same data is the same
        have hone : ':' ∉ rest.map fun c => if plusIsBlank ∧ c = '+' then ' ' else c := by
          intro hmem
          obtain ⟨c, hc, heq⟩ := List.mem_map.mp hmem
          split at heq
          · cases heq
          · exact hmac.no_colon hcode (heq ▸ hcut.subset hc)
        rw [List.map_append, hkeep _ List.prefix_rfl, List.map_cons,
          if_neg (by simp)] at hread ⊢
        obtain ⟨hd, hc⟩ := split_at_colon hcolon hone (hmac.no_colon hsign') hread.symm
        rw [String.toList_inj.mp hd, hcode] at hsign'
        obtain rfl := Option.some.inj hsign'
        rw [hc]

/-! ## The long poll -/

/-- The URL takes the credentials: the buffer holds it, and each credential is read
    back from the query as it is. -/
structure UrlTakesCredentials (plusIsBlank : Bool) (server : ServerConfig) (serverId : JanusId)
    (pAuthToken : Option String) : Prop where
  fits : pollFields server pAuthToken ≠ [] →
    (pollPath server serverId).length + 1 + (pollQuery server pAuthToken).length < URL_SIZE
  plain : ∀ field ∈ pollFields server pAuthToken,
    '&' ∉ field.2 ∧ '#' ∉ field.2 ∧ percentDecode plusIsBlank field.2 = field.2

/-- The names of the two parameters. -/
theorem pollFields_names (server : ServerConfig) (pAuthToken : Option String) :
    Fields.Names '&' '=' ((pollFields server pAuthToken).map Prod.fst) := by
  unfold pollFields
  cases server.pSecret with
  | none =>
      cases pAuthToken with
      | none => exact ⟨by simp, by simp, by simp⟩
      | some token => exact ⟨by simp, by simp [tokenParam], by simp [tokenParam]⟩
  | some pSecret =>
      cases pAuthToken with
      | none => exact ⟨by simp, by simp [secretParam], by simp [secretParam]⟩
      | some token =>
          have hne : secretParam ≠ tokenParam := by decide
          exact ⟨by simp [hne], by simp [secretParam, tokenParam],
            by simp [secretParam, tokenParam]⟩

theorem pollFields_name {server : ServerConfig} {pAuthToken : Option String}
    {field : List Char × List Char} (h : field ∈ pollFields server pAuthToken) :
    (field.1 = secretParam ∧ ∃ s, server.pSecret = some s ∧ field.2 = s.1.toList) ∨
    (field.1 = tokenParam ∧ ∃ t, pAuthToken = some t ∧ field.2 = t.toList) := by
  unfold pollFields at h
  rcases List.mem_append.mp h with h | h
  · obtain ⟨s, hs, rfl⟩ := Option.map_eq_some_iff.mp (Option.mem_toList.mp h)
    exact .inl ⟨rfl, s, hs, rfl⟩
  · obtain ⟨t, ht, rfl⟩ := Option.map_eq_some_iff.mp (Option.mem_toList.mp h)
    exact .inr ⟨rfl, t, ht, rfl⟩

/-- The first parameter is none of the two, and neither is a part of it. -/
theorem maxev_valueOf {name text : List Char} (hname : name = secretParam ∨
    name = tokenParam) (h : text <+: maxevParam) :
    Fields.valueOf '=' name text = none := by
  refine Fields.valueOf_short fun hpre => ?_
  have hlong : name ++ ['='] <+: maxevParam := hpre.trans h
  rcases hname with rfl | rfl
  · exact absurd hlong (by decide)
  · exact absurd hlong (by decide)

/-- The query that is sent is the whole one or the front of it. -/
theorem sentQuery_cut {server : ServerConfig} (hplain : PlainAddress server)
    (serverId : JanusId) (pAuthToken : Option String) :
    queryOf (pollUrl server serverId pAuthToken).toList <+: pollQuery server pAuthToken := by
  obtain ⟨hquery, hfragment⟩ := hplain.pollPath serverId
  rw [pollUrl_toList, queryOf_take hquery hfragment]
  exact (List.takeWhile_prefix _).trans (List.take_prefix _ _)

theorem pollQuery_length_pos (server : ServerConfig) (pAuthToken : Option String) :
    0 < (pollQuery server pAuthToken).length := by
  have hmaxev : maxevParam ≠ [] := by decide
  exact List.length_pos_of_ne_nil (List.append_ne_nil_of_left_ne_nil hmaxev _)

/-- It is the whole one when the buffer holds it and no fragment starts in it; with a
    credential in it, not otherwise. -/
theorem sentQuery_eq_iff {server : ServerConfig} (hplain : PlainAddress server)
    (serverId : JanusId) (pAuthToken : Option String) :
    queryOf (pollUrl server serverId pAuthToken).toList = pollQuery server pAuthToken ↔
      (pollPath server serverId).length + 1 + (pollQuery server pAuthToken).length < URL_SIZE ∧
      '#' ∉ pollQuery server pAuthToken := by
  obtain ⟨hquery, hfragment⟩ := hplain.pollPath serverId
  rw [pollUrl_toList, queryOf_take hquery hfragment]
  have hsize : URL_SIZE = 1024 := rfl
  have hpos := pollQuery_length_pos server pAuthToken
  constructor
  · intro h
    -- what is cut off or behind a '#' makes the query read shorter
    have hlen := congrArg List.length h
    have hle := (List.takeWhile_prefix (l := (pollQuery server pAuthToken).take
      (URL_SIZE - 1 - (pollPath server serverId).length - 1)) (· ≠ '#')).length_le
    rw [hlen, List.length_take] at hle
    refine ⟨by omega, fun hmem => ?_⟩
    rw [← h] at hmem
    exact absurd (List.mem_takeWhile_imp hmem) (by decide)
  · rintro ⟨hfits, hmem⟩
    have hkeep : ∀ c ∈ pollQuery server pAuthToken, decide (c ≠ '#') = true := by
      intro c hc
      rw [decide_eq_true_eq]
      rintro rfl
      exact hmem hc
    rw [List.take_of_length_le (by omega), List.takeWhile_eq_self_iff.mpr hkeep]

theorem hash_not_mem_pollQuery {server : ServerConfig} {pAuthToken : Option String} :
    '#' ∉ pollQuery server pAuthToken ↔
      ∀ field ∈ pollFields server pAuthToken, '#' ∉ field.2 := by
  constructor
  · exact fun h field hf hmem => h (List.mem_append_right _ (Fields.subset_render hf hmem))
  · intro h hmem
    rcases List.mem_append.mp hmem with hmem | hmem
    · exact absurd hmem (by decide)
    · rcases Fields.mem_render hmem with heq | heq | ⟨field, hf, hmem | hmem⟩
      · cases heq
      · cases heq
      · rcases pollFields_name hf with ⟨hname, -⟩ | ⟨hname, -⟩ <;> rw [hname] at hmem
        · exact absurd hmem (by decide)
        · exact absurd hmem (by decide)
      · exact h field hf hmem

/-- The one value of each credential, as a reader of the whole query sees it. -/
theorem pollQuery_values {plusIsBlank : Bool} {server : ServerConfig} {serverId : JanusId}
    {pAuthToken : Option String} (hplain : PlainAddress server)
    (h : UrlTakesCredentials plusIsBlank server serverId pAuthToken) {name : List Char}
    (hname : name = secretParam ∨ name = tokenParam) :
    (Fields.values '&' '=' name (queryOf (pollUrl server serverId pAuthToken).toList)).map
        (percentDecode plusIsBlank) =
      ((pollFields server pAuthToken).filter (·.1 = name)).map Prod.snd := by
  have heq : '=' ∉ name := by rcases hname with rfl | rfl <;> decide
  by_cases hnil : pollFields server pAuthToken = []
  · -- no credential: at most the first parameter is sent
    have hpre := sentQuery_cut hplain serverId pAuthToken
    rw [pollQuery, hnil, Fields.render, List.append_nil] at hpre
    have hsep : '&' ∉ queryOf (pollUrl server serverId pAuthToken).toList :=
      fun hmem => absurd (hpre.subset hmem) (by decide)
    rw [hnil, Fields.values_of_not_mem hsep, maxev_valueOf hname hpre]
    rfl
  · have hhash : '#' ∉ pollQuery server pAuthToken :=
      hash_not_mem_pollQuery.mpr fun field hf => (h.plain field hf).2.1
    have hread := Fields.render_read_back (by decide : '&' ≠ '=')
      (pollFields_names server pAuthToken) (fun field hf => (h.plain field hf).1) heq
      (by decide : '&' ∉ maxevParam) (maxev_valueOf hname List.prefix_rfl)
    rw [(sentQuery_eq_iff hplain serverId pAuthToken).mpr ⟨h.fits hnil, hhash⟩, pollQuery, hread,
      List.map_map]
    refine List.map_congr_left fun field hf => ?_
    exact (h.plain field (List.mem_of_mem_filter hf)).2.2

/-- Of two fields under different names, each name has its own. -/
theorem filter_two_fields {n m : List Char} (hne : n ≠ m) (a b : Option (List Char)) :
    (((a.map (n, ·)).toList ++ (b.map (m, ·)).toList).filter (·.1 = n)).map Prod.snd =
      a.toList ∧
    (((a.map (n, ·)).toList ++ (b.map (m, ·)).toList).filter (·.1 = m)).map Prod.snd =
      b.toList := by
  cases a <;> cases b <;> simp [hne, hne.symm]

/-- The fields under the names that are read. -/
theorem pollFields_filter (server : ServerConfig) (pAuthToken : Option String) :
    ((pollFields server pAuthToken).filter (·.1 = secretParam)).map Prod.snd =
      (server.pSecret.map (·.1.toList)).toList ∧
    ((pollFields server pAuthToken).filter (·.1 = tokenParam)).map Prod.snd =
      (pAuthToken.map String.toList).toList := by
  have hne : secretParam ≠ tokenParam := by decide
  have h := filter_two_fields hne (server.pSecret.map (·.1.toList)) (pAuthToken.map String.toList)
  rwa [Option.map_map, Option.map_map] at h

/-- The decoded values of a parameter of a URL. -/
def queryValues (plusIsBlank : Bool) (name : List Char) (url : String) : List (List Char) :=
  (Fields.values '&' '=' name (queryOf url.toList)).map (percentDecode plusIsBlank)

theorem get_apisecret (plusIsBlank : Bool) (url : String) :
    (SentRequest.get url).valuesOf plusIsBlank "apisecret" =
      (queryValues plusIsBlank secretParam url).map fun value => some (String.ofList value) := by
  have hname : "apisecret".toList = secretParam := by decide
  rw [SentRequest.valuesOf, hname, queryValues, List.map_map]
  rfl

theorem get_token (plusIsBlank : Bool) (url : String) :
    (SentRequest.get url).valuesOf plusIsBlank "token" =
      (queryValues plusIsBlank tokenParam url).map fun value => some (String.ofList value) := by
  have hname : "token".toList = tokenParam := by decide
  rw [SentRequest.valuesOf, hname, queryValues, List.map_map]
  rfl

/-- The token of the poll is signed with the server's secret, or is the stored one. -/
theorem pollToken_cases {hmac : Hmac} {now : Nat} {server : ServerConfig}
    {pAuthToken : Option String} (h : pollToken hmac now server = some pAuthToken) :
    (server.pHmacSecret = none ∧ pAuthToken = server.pAuthToken.map (·.1)) ∨
    ∃ key expiry code, server.pHmacSecret = some key ∧
      hmac.sign key.1 (tokenData expiry [JANUS_PLUGIN]) = some code ∧
      pAuthToken = some (tokenData expiry [JANUS_PLUGIN] ++ ":" ++ code) := by
  unfold pollToken at h
  cases hkey : server.pHmacSecret with
  | none =>
      rw [hkey] at h
      exact .inl ⟨rfl, (Option.some.inj h).symm⟩
  | some key =>
      rw [hkey] at h
      obtain ⟨token, htoken, rfl⟩ := Option.map_eq_some_iff.mp h
      obtain ⟨expiry, code, hcode, rfl⟩ := authSignToken_parts htoken
      exact .inr ⟨key, expiry, code, rfl, hcode, rfl⟩

/-- A URL that takes the credentials carries them. -/
theorem poll_carries {hmac : Hmac} {now : Nat} {plusIsBlank : Bool} {server : ServerConfig}
    {serverId : JanusId} {pAuthToken : Option String} (hplain : PlainAddress server)
    (htoken : pollToken hmac now server = some pAuthToken)
    (h : UrlTakesCredentials plusIsBlank server serverId pAuthToken) :
    CarriesCredentials hmac plusIsBlank server (.get (pollUrl server serverId pAuthToken)) := by
  obtain ⟨hsecret, htokens⟩ := pollFields_filter server pAuthToken
  have hread : queryValues plusIsBlank tokenParam (pollUrl server serverId pAuthToken) =
      (pAuthToken.map String.toList).toList :=
    (pollQuery_values hplain h (.inr rfl)).trans htokens
  refine ⟨?_, ?_, ?_⟩
  · rw [get_apisecret, queryValues, pollQuery_values hplain h (.inl rfl), hsecret]
    cases server.pSecret <;> simp
  · intro key hkey
    rcases pollToken_cases htoken with ⟨hnone, -⟩ | ⟨key', expiry, code, hkey', hcode, rfl⟩
    · rw [hkey] at hnone
      cases hnone
    · -- the one value read is the token that was signed
      obtain rfl : key' = key := Option.some.inj (hkey'.symm.trans hkey)
      refine ⟨_, ?_, ⟨_, code, hcode, rfl⟩⟩
      rw [get_token, hread]
      simp only [Option.map_some, Option.toList_some, List.map_cons, List.map_nil,
        String.ofList_toList]
  · intro hnone _ stored hstored
    rcases pollToken_cases htoken with ⟨-, rfl⟩ | ⟨key', expiry, code, hkey', hcode, rfl⟩
    · rw [get_token, hread, hstored]
      simp
    · rw [hnone] at hkey'
      cases hkey'

theorem eq_single_of_map {values : List (List Char)} {s : String}
    (h : values.map (fun value => some (String.ofList value)) = [some s]) :
    values = [s.toList] := by
  obtain ⟨value, rfl, hvalue⟩ := List.map_eq_singleton_iff.mp h
  rw [← Option.some.inj hvalue, String.toList_ofList]

/-- What passes for a field of the poll: its value, and for a signed token any token
    signed with the same secret. -/
def Accepts (hmac : Hmac) (server : ServerConfig) (field : List Char × List Char)
    (read : List Char) : Prop :=
  read = field.2 ∨ (field.1 = tokenParam ∧
    ∃ key, server.pHmacSecret = some key ∧ SignedWith hmac key.1 (String.ofList read))

/-- No part of a credential passes for it. -/
theorem accepts_whole {hmac : Hmac} {now : Nat} {plusIsBlank : Bool} {server : ServerConfig}
    {pAuthToken : Option String} (htoken : pollToken hmac now server = some pAuthToken)
    {field : List Char × List Char} (hf : field ∈ pollFields server pAuthToken)
    {raw : List Char} (hraw : raw <+: field.2)
    (haccepts : Accepts hmac server field (percentDecode plusIsBlank raw)) :
    percentDecode plusIsBlank raw = field.2 := by
  rcases haccepts with heq | ⟨hname, key, hkey, hsigned⟩
  · exact heq
  · rcases pollFields_name hf with ⟨hsecret, -⟩ | ⟨-, token, ht, hvalue⟩
    · rw [hname] at hsecret
      exact absurd hsecret (by decide)
    · rcases pollToken_cases htoken with ⟨hnone, -⟩ | ⟨key', expiry, code, hkey', hcode, heq⟩
      · rw [hkey] at hnone
        cases hnone
      · obtain rfl : key' = key := Option.some.inj (hkey'.symm.trans hkey)
        obtain rfl : token = _ := Option.some.inj (ht.symm.trans heq)
        rw [hvalue] at hraw ⊢
        exact signed_complete (fun c hc => pollTokenData_plain hc) hcode hraw hsigned

/-- Each credential of a request that carries them is read as one value that passes
    for it. -/
theorem poll_read {hmac : Hmac} {now : Nat} {plusIsBlank : Bool} {server : ServerConfig}
    {pAuthToken : Option String} {url : String}
    (htoken : pollToken hmac now server = some pAuthToken)
    (h : CarriesCredentials hmac plusIsBlank server (.get url))
    {field : List Char × List Char} (hf : field ∈ pollFields server pAuthToken) :
    ∃ read, queryValues plusIsBlank field.1 url = [read] ∧ Accepts hmac server field read := by
  rcases pollFields_name hf with ⟨hname, secret, hs, hvalue⟩ | ⟨hname, token, ht, hvalue⟩
  · have hsecret := h.secret
    rw [get_apisecret, hs] at hsecret
    rw [hname]
    exact ⟨_, eq_single_of_map hsecret, .inl hvalue.symm⟩
  · rcases pollToken_cases htoken with ⟨hnone, rfl⟩ | ⟨key, expiry, code, hkey, -, -⟩
    · obtain ⟨stored, hstored, rfl⟩ := Option.map_eq_some_iff.mp ht
      have hread := h.stored hnone rfl stored hstored
      rw [get_token] at hread
      rw [hname]
      exact ⟨_, eq_single_of_map hread, .inl hvalue.symm⟩
    · obtain ⟨read, hread, hsigned⟩ := h.signed key hkey
      rw [get_token] at hread
      rw [hname]
      refine ⟨_, eq_single_of_map hread, .inr ⟨hname, key, hkey, ?_⟩⟩
      rwa [String.ofList_toList]

/-- And only such a URL does, when the address of the API is a plain one. -/
theorem urlTakes_of_carries {hmac : Hmac} {now : Nat} {plusIsBlank : Bool}
    {server : ServerConfig} {serverId : JanusId} {pAuthToken : Option String}
    (hplain : PlainAddress server) (htoken : pollToken hmac now server = some pAuthToken)
    (h : CarriesCredentials hmac plusIsBlank server
      (.get (pollUrl server serverId pAuthToken))) :
    UrlTakesCredentials plusIsBlank server serverId pAuthToken := by
  by_cases hnil : pollFields server pAuthToken = []
  · exact ⟨fun hne => absurd hnil hne, by simp [hnil]⟩
  rcases Fields.cut_cases (sentQuery_cut hplain serverId pAuthToken) with
    hshort | ⟨tail, htail, hquery⟩
  · -- without any credential in the query, none is read
    obtain ⟨field, hf⟩ := List.exists_mem_of_ne_nil _ hnil
    obtain ⟨read, hread, -⟩ := poll_read htoken h hf
    have hname : field.1 = secretParam ∨ field.1 = tokenParam :=
      (pollFields_name hf).imp And.left And.left
    have hsep : '&' ∉ queryOf (pollUrl server serverId pAuthToken).toList :=
      fun hmem => absurd (hshort.subset hmem) (by decide)
    rw [queryValues, Fields.values_of_not_mem hsep, maxev_valueOf hname hshort] at hread
    cases hread
  · have hother : ∀ name ∈ (pollFields server pAuthToken).map Prod.fst,
        Fields.valueOf '=' name maxevParam = none := by
      intro name hname
      obtain ⟨field, hf, rfl⟩ := List.mem_map.mp hname
      exact maxev_valueOf ((pollFields_name hf).imp And.left And.left) List.prefix_rfl
    obtain ⟨rfl, hvalues⟩ := Fields.read_back_complete (by decide)
      (percentDecode_length_le plusIsBlank)
      (fun field hf raw hraw haccepts => accepts_whole htoken hf hraw haccepts)
      (pollFields_names server pAuthToken) (by decide : '&' ∉ maxevParam) hother htail
      (fun field hf => hquery ▸ poll_read htoken h hf)
    obtain ⟨hfits, hhash⟩ := (sentQuery_eq_iff hplain serverId pAuthToken).mp hquery
    refine ⟨fun _ => hfits, fun field hf => ⟨(hvalues field hf).1, ?_, (hvalues field hf).2⟩⟩
    exact hash_not_mem_pollQuery.mp hhash field hf

/-! ## Every request -/

/-- When a request gets its credentials: the keepalive without any token configured, the
    poll when its URL takes them, every other request always. -/
def CredentialsReach (hmac : Hmac) (now : Nat) (plusIsBlank : Bool) (server : ServerConfig) :
    ApiRequest → Prop
  | .keepalive _ => server.pHmacSecret = none ∧ server.pAuthToken = none
  | .poll serverId => PlainAddress server ∧ ∀ pAuthToken,
      pollToken hmac now server = some pAuthToken →
        UrlTakesCredentials plusIsBlank server serverId pAuthToken
  | _ => True

/-- A server with a stored token, over either transport. -/
def tokenServer (pUrl : String) (transport : Transport) : ServerConfig where
  pUrl := pUrl
  transport := transport
  pSecret := some ⟨"s3cret", by decide⟩
  pAuthToken := some ⟨"stored", by decide⟩
  pHmacSecret := none

/-- OpenSSL is not asked by a server without an HMAC secret. -/
def noHmac : Hmac where
  sign := fun _ _ => none
  alphabet := nofun

end ModJanus
