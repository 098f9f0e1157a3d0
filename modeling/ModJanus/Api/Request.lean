/-
  ModJanus.Api.Request

  What api.c sends to Janus: `encode`, `api_send_request`, the requests of the
  `api...` functions, the long poll of `apiPoll`, and the keepalive that
  `janus_ws_pump_once` of janus_ws.c builds by hand.

  A request function gives the request it hands to the transport, `none` when it
  gives up before.  Allocation does not fail.  What the functions do with the reply
  is not part of this module.
-/
import ModJanus.Api.Auth
import ModJanus.Api.Dispatch

namespace ModJanus

/-! ## The server -/

/-- `janus_transport_t`. -/
inductive Transport where
  | http
  | ws
  deriving DecidableEq, Repr

/-- A credential of the configuration: `serversAdd` takes no empty one (`!zstr(pValStr)`). -/
abbrev Credential := { s : String // s ≠ "" }

/-- The members of `server_t` that the requests are made of. -/
structure ServerConfig where
  pUrl : String
  transport : Transport
  pSecret : Option Credential
  pAuthToken : Option Credential
  pHmacSecret : Option Credential
  deriving DecidableEq, Repr

/-- `switch_core_strdup` of a parameter value behind `!zstr(pValStr)`. -/
def credential? (pValStr : String) : Option Credential :=
  if h : pValStr ≠ "" then some ⟨pValStr, h⟩ else none

/-- One `<param name=... value=.../>` of `serversAdd`.  The `url` test looks at the name
    twice, so that an empty address is taken. -/
def ServerConfig.setParam (server : ServerConfig) (pVarStr pValStr : String) : ServerConfig :=
  if pVarStr = "url" then { server with pUrl := pValStr }
  else if pVarStr = "secret" then
    { server with pSecret := credential? pValStr <|> server.pSecret }
  else if pVarStr = "auth-token" then
    { server with pAuthToken := credential? pValStr <|> server.pAuthToken }
  else if pVarStr = "hmac-secret" then
    { server with pHmacSecret := credential? pValStr <|> server.pHmacSecret }
  else server

/-- The transport that an address asks for, in upper or lower case. -/
def transportOf (pUrl : String) : Transport :=
  let lower := pUrl.toList.map Char.toLower
  if "ws://".toList.isPrefixOf lower || "wss://".toList.isPrefixOf lower then .ws else .http

/-- The parameters of `serversAdd`, of which `url` is mandatory. -/
def ServerConfig.ofParams (params : List (String × String)) : Option ServerConfig :=
  if params.any (·.1 = "url") then
    let zeroed : ServerConfig := ⟨"", .http, none, none, none⟩
    let server := params.foldl (fun server param => server.setParam param.1 param.2) zeroed
    some { server with transport := transportOf server.pUrl }
  else none

/-! ## Encoding -/

/-- The members of a JSON object in the order they were added. -/
abbrev Members := List (String × CJson)

/-- `cJSON_AddStringToObject` of a string that may be null. -/
def stringMember (name : String) (value : Option String) : Members :=
  (value.map fun s => (name, CJson.string s)).toList

/-- An item that may be null, under a name. -/
def itemMember (name : String) (item : Option CJson) : Members :=
  (item.map fun json => (name, json)).toList

/-- `MAX_TOKEN_DESCRIPTORS`. -/
def MAX_TOKEN_DESCRIPTORS : Nat := 4

/-- `API_HMAC_DEFAULT_CALL_TTL`. -/
def API_HMAC_DEFAULT_CALL_TTL : Int := 7200

/-- `API_HMAC_DEFAULT_LIFECYCLE_TTL`. -/
def API_HMAC_DEFAULT_LIFECYCLE_TTL : Int := 300

/-- The fields of `message_t` that `encode` reads; what is not set keeps the zero of
    `memset`. -/
structure RequestMessage where
  pType : String
  pTransactionId : Option String := none
  opaqueId : Option String := none
  isPlugin : Bool := false
  pSecret : Option String := none
  pHmacSecret : Option String := none
  hmacTokenTtl : Int := 0
  pExtraDescriptors : List String := []
  pJsonBody : Option Members := none
  pJsonJsep : Option CJson := none

/-- The descriptors of the token of a request, the plugin package first. -/
def requestDescriptors (message : RequestMessage) : List String :=
  (JANUS_PLUGIN :: message.pExtraDescriptors.filter (· ≠ "")).take (MAX_TOKEN_DESCRIPTORS + 1)

/-- The token that `encode` signs when there is a secret for it; `none` inside is a
    request without one, `none` outside the failure of `authSignToken`. -/
def encodeToken (hmac : Hmac) (now : Nat) (message : RequestMessage) : Option (Option String) :=
  match message.pHmacSecret with
  | none => some none
  | some pHmacSecret =>
      let ttl := if 0 < message.hmacTokenTtl then message.hmacTokenTtl
        else API_HMAC_DEFAULT_LIFECYCLE_TTL
      (authSignToken hmac now pHmacSecret ttl (requestDescriptors message)).map some

/-- The members of the request, with the token that was signed for it. -/
def encodeMembers (message : RequestMessage) (pToken : Option String) : Members :=
  [("janus", .string message.pType)]
    ++ stringMember "transaction" message.pTransactionId
    ++ stringMember "apisecret" message.pSecret
    ++ stringMember "token" pToken
    ++ stringMember "opaque_id" message.opaqueId
    ++ stringMember "plugin" (if message.isPlugin then some JANUS_PLUGIN else none)
    ++ itemMember "body" (message.pJsonBody.map CJson.object)
    ++ itemMember "jsep" message.pJsonJsep

/-- `encode`: the request, and the signed token that `pSignedTokenOut` receives. -/
def encode (hmac : Hmac) (now : Nat) (message : RequestMessage) :
    Option (Members × Option String) :=
  (encodeToken hmac now message).map fun pToken => (encodeMembers message pToken, pToken)

/-! ## Sending -/

/-- `api_url_kind_t`. -/
inductive UrlKind where
  | root
  | session
  | handle
  deriving DecidableEq, Repr

/-- A request as it is handed to the transport. -/
inductive SentRequest where
  | post (url : String) (json : Members)
  | get (url : String)
  | ws (json : Members)

/-- The address of a request over HTTP. -/
def requestUrl (pUrl : String) (serverId senderId : JanusId) : UrlKind → String
  | .root => pUrl
  | .session => pUrl ++ "/" ++ decimal serverId
  | .handle => pUrl ++ "/" ++ decimal serverId ++ "/" ++ decimal senderId

/-- The size of the URL buffers of `api_send_request` and `apiPoll`. -/
def URL_SIZE : Nat := 1024

/-- `api_ws_add_u64` of an id that is set. -/
def idMember (name : String) (value : JanusId) : Members :=
  if value ≠ 0 then [(name, .number (.ofInt value.toNat))] else []

/-- The stored token, unless tokens are signed. -/
def storedToken (server : ServerConfig) : Option String :=
  if server.pHmacSecret.isNone then server.pAuthToken.map (·.1) else none

/-- `api_send_request`. -/
def apiSendRequest (server : ServerConfig) (json : Members) (serverId senderId : JanusId)
    (kind : UrlKind) : Option SentRequest :=
  match server.transport with
  | .ws => some (.ws (json ++ idMember "session_id" serverId ++ idMember "handle_id" senderId
      ++ stringMember "token" (storedToken server)))
  | .http =>
      let url := requestUrl server.pUrl serverId senderId kind
      if url.length < URL_SIZE then some (.post url json) else none

/-! ## The requests -/

section Requests

variable (hmac : Hmac) (now : Nat) (pTransactionId : String) (server : ServerConfig)

/-- The fields that every request sets. -/
def requestOf (pType : String) : RequestMessage where
  pType := pType
  pTransactionId := some pTransactionId
  pSecret := server.pSecret.map (·.1)
  pHmacSecret := server.pHmacSecret.map (·.1)

/-- `encode` followed by `api_send_request`. -/
def encodeAndSend (message : RequestMessage) (serverId senderId : JanusId) (kind : UrlKind) :
    Option SentRequest := do
  let (json, _) ← encode hmac now message
  apiSendRequest server json serverId senderId kind

/-- The request of `apiGetServerId`. -/
def apiGetServerId : Option SentRequest :=
  encodeAndSend hmac now server (requestOf pTransactionId server "create") 0 0 .root

/-- The request of `apiClaimServerId`. -/
def apiClaimServerId (serverId : JanusId) : Option SentRequest :=
  encodeAndSend hmac now server (requestOf pTransactionId server "claim") serverId 0 .session

/-- The request of `apiGetSenderId`. -/
def apiGetSenderId (serverId : JanusId) (callId : Option String) : Option SentRequest :=
  encodeAndSend hmac now server
    { requestOf pTransactionId server "attach" with opaqueId := callId, isPlugin := true }
    serverId 0 .session

/-- `body.room`: the room as a string, or as a number when the string is empty or not there. -/
def roomMember (roomId : JanusId) (pRoomIdStr : Option String) : CJson :=
  match pRoomIdStr with
  | some room => if room ≠ "" then .string room else .number (.ofJanusId roomId)
  | none => .number (.ofJanusId roomId)

/-- The request of `apiCreateRoom`. -/
def apiCreateRoom (serverId senderId roomId : JanusId) (pDescription : Option String)
    (record : Bool) (pRecordingFile pPin : Option String) (allowWsParticipants : Bool)
    (pRoomIdStr : Option String) : Option SentRequest :=
  let body : Members :=
    [("request", .string "create"), ("room", roomMember roomId pRoomIdStr)]
      ++ stringMember "description" pDescription ++ stringMember "pin" pPin
      ++ [("record", .bool record)] ++ stringMember "record_file" pRecordingFile
      ++ if allowWsParticipants then [("allow_ws_participants", .bool true)] else []
  encodeAndSend hmac now server
    { requestOf pTransactionId server "message" with pJsonBody := some body }
    serverId senderId .handle

/-- The size of `roomDesc`. -/
def ROOM_DESC_SIZE : Nat := 96

/-- `roomDesc`: the descriptor that scopes a token to a room. -/
def roomDesc (roomId : JanusId) (pRoomIdStr : Option String) : String :=
  match pRoomIdStr with
  | some room =>
      if room ≠ "" then snprintf ROOM_DESC_SIZE ("room=" ++ room)
      else snprintf ROOM_DESC_SIZE ("room=" ++ decimal roomId)
  | none => snprintf ROOM_DESC_SIZE ("room=" ++ decimal roomId)

/-- The message that `apiJoin` encodes. -/
def joinMessage (hmacTokenTtl : Int) (roomId : JanusId) (pDisplay pPin pToken callId pRoomIdStr :
    Option String) : RequestMessage :=
  let pToken := if server.pHmacSecret.isSome then none else pToken
  let body : Members :=
    [("request", .string "join"), ("room", roomMember roomId pRoomIdStr)]
      ++ stringMember "pin" pPin ++ stringMember "display" pDisplay
      ++ stringMember "token" pToken ++ stringMember "opaque_id" callId
  { requestOf pTransactionId server "message" with
    hmacTokenTtl := if 0 < hmacTokenTtl then hmacTokenTtl else API_HMAC_DEFAULT_CALL_TTL
    pExtraDescriptors := if server.pHmacSecret.isSome then [roomDesc roomId pRoomIdStr] else []
    pJsonBody := some body }

/-- Add to the body of an encoded request, which shares it with the message. -/
def addToBody (json added : Members) : Members :=
  json.map fun member =>
    match member with
    | ("body", .object body) => ("body", .object (body ++ added))
    | other => other

/-- The request of `apiJoin`; the signed token is repeated in the body. -/
def apiJoin (hmacTokenTtl : Int) (serverId senderId roomId : JanusId)
    (pDisplay pPin pToken callId pRoomIdStr : Option String) : Option SentRequest := do
  let (json, pSignedToken) ← encode hmac now
    (joinMessage pTransactionId server hmacTokenTtl roomId pDisplay pPin pToken callId pRoomIdStr)
  apiSendRequest server (addToBody json (stringMember "token" pSignedToken))
    serverId senderId .handle

/-- The request of `apiConfigure`. -/
def apiConfigure (serverId senderId : JanusId) (muted record : Bool)
    (pRecordingFile pType pSdp callId : Option String) : Option SentRequest :=
  let body : Members :=
    [("request", .string "configure"), ("muted", .bool muted), ("record", .bool record)]
      ++ stringMember "filename" pRecordingFile ++ stringMember "opaque_id" callId
  let jsep : Option CJson :=
    match pType, pSdp with
    | some type, some sdp =>
        some (.object [("type", .string type), ("trickle", .bool false), ("sdp", .string sdp)])
    | _, _ => none
  encodeAndSend hmac now server
    { requestOf pTransactionId server "message" with pJsonBody := some body, pJsonJsep := jsep }
    serverId senderId .handle

/-- The request of `apiLeave`. -/
def apiLeave (serverId senderId : JanusId) (callId : Option String) : Option SentRequest :=
  let body : Members := [("request", .string "leave")] ++ stringMember "opaque_id" callId
  encodeAndSend hmac now server
    { requestOf pTransactionId server "message" with pJsonBody := some body }
    serverId senderId .handle

/-- The request of `apiDetach`. -/
def apiDetach (serverId senderId : JanusId) : Option SentRequest :=
  encodeAndSend hmac now server (requestOf pTransactionId server "detach")
    serverId senderId .handle

/-- `MAX_POLL_EVENTS`. -/
def MAX_POLL_EVENTS : Nat := 10

/-- `snprintf` behind what stands in the URL buffer already. -/
def appendUrl (url text : String) : String := url ++ snprintf (URL_SIZE - url.length) text

/-- The token of the long poll: a fresh signed one, else the stored one.  The outer
    `none` is the failure of `authSignToken`. -/
def pollToken : Option (Option String) :=
  match server.pHmacSecret with
  | some pHmacSecret =>
      (authSignToken hmac now pHmacSecret.1 API_HMAC_DEFAULT_LIFECYCLE_TTL [JANUS_PLUGIN]).map some
  | none => some (server.pAuthToken.map (·.1))

/-- The URL of the long poll with that token. -/
def pollUrl (serverId : JanusId) (pAuthToken : Option String) : String :=
  let url := snprintf URL_SIZE
    (server.pUrl ++ "/" ++ decimal serverId ++ "?maxev=" ++ toString MAX_POLL_EVENTS)
  let url := match server.pSecret with
    | some pSecret => appendUrl url ("&apisecret=" ++ pSecret.1)
    | none => url
  match pAuthToken with
  | some pAuthToken => appendUrl url ("&token=" ++ pAuthToken)
  | none => url

/-- The request of `apiPoll`.  On a WebSocket there is none: events arrive unasked. -/
def apiPoll (serverId : JanusId) : Option SentRequest :=
  match server.transport with
  | .ws => none
  | .http => (pollToken hmac now server).map fun pAuthToken =>
      .get (pollUrl server serverId pAuthToken)

/-- The members of the keepalive of `janus_ws_pump_once`. -/
def keepaliveMembers (sessionId : JanusId) : Members :=
  [("janus", .string "keepalive")] ++ idMember "session_id" sessionId
    ++ stringMember "transaction" (some pTransactionId)
    ++ stringMember "apisecret" (server.pSecret.map (·.1))

/-- The keepalive of `janus_ws_pump_once`, which only a session has. -/
def janusWsKeepalive (sessionId : JanusId) : Option SentRequest :=
  match server.transport with
  | .http => none
  | .ws => if sessionId ≠ 0 then some (.ws (keepaliveMembers pTransactionId server sessionId))
      else none

/-- A request of the module, with the arguments of its function. -/
inductive ApiRequest where
  | create
  | claim (serverId : JanusId)
  | attach (serverId : JanusId) (callId : Option String)
  | createRoom (serverId senderId roomId : JanusId) (pDescription : Option String)
      (record : Bool) (pRecordingFile pPin : Option String) (allowWsParticipants : Bool)
      (pRoomIdStr : Option String)
  | join (hmacTokenTtl : Int) (serverId senderId roomId : JanusId)
      (pDisplay pPin pToken callId pRoomIdStr : Option String)
  | configure (serverId senderId : JanusId) (muted record : Bool)
      (pRecordingFile pType pSdp callId : Option String)
  | leave (serverId senderId : JanusId) (callId : Option String)
  | detach (serverId senderId : JanusId)
  | poll (serverId : JanusId)
  | keepalive (sessionId : JanusId)

/-- The request as it goes out, when it does. -/
def ApiRequest.send : ApiRequest → Option SentRequest
  | .create => apiGetServerId hmac now pTransactionId server
  | .claim serverId => apiClaimServerId hmac now pTransactionId server serverId
  | .attach serverId callId => apiGetSenderId hmac now pTransactionId server serverId callId
  | .createRoom serverId senderId roomId pDescription record pRecordingFile pPin
      allowWsParticipants pRoomIdStr =>
      apiCreateRoom hmac now pTransactionId server serverId senderId roomId pDescription record
        pRecordingFile pPin allowWsParticipants pRoomIdStr
  | .join hmacTokenTtl serverId senderId roomId pDisplay pPin pToken callId pRoomIdStr =>
      apiJoin hmac now pTransactionId server hmacTokenTtl serverId senderId roomId pDisplay pPin
        pToken callId pRoomIdStr
  | .configure serverId senderId muted record pRecordingFile pType pSdp callId =>
      apiConfigure hmac now pTransactionId server serverId senderId muted record pRecordingFile
        pType pSdp callId
  | .leave serverId senderId callId =>
      apiLeave hmac now pTransactionId server serverId senderId callId
  | .detach serverId senderId => apiDetach hmac now pTransactionId server serverId senderId
  | .poll serverId => apiPoll hmac now server serverId
  | .keepalive sessionId => janusWsKeepalive pTransactionId server sessionId

end Requests

end ModJanus
