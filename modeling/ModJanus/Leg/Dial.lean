/-
  ModJanus.Leg.Dial

  The dial string of `channel_outgoing_channel`, and the room of the requests for the leg.

  The string is split at the first slash and then at the first at sign.  The room is kept
  as it was dialled, and its number beside it when `strtoull` takes all of it.  Both go
  into the requests, which send the string of a room unless it is empty.
-/
import ModJanus.Api.JoinToken
import ModJanus.Lib.Strtoull
import ModJanus.Server.Thread

namespace ModJanus

open Strtoull (strtoull Numeral)

/-! ## Dialling -/

/-- The causes that `channel_outgoing_channel` refuses a dial string with. -/
inductive CallCause where
  | protocolError
  | noRouteDestination
  | outgoingCallBarred
  deriving DecidableEq, Repr

/-- What `private_t` keeps of the dial string. -/
structure Dial where
  serverId : JanusId
  pDisplay : String
  pRoomIdStr : String
  roomId : JanusId
  deriving DecidableEq, Repr

/-- `strchr`: the text up to the first `sep`, and the text behind it. -/
def strchr (text : List Char) (sep : Char) : Option (List Char × List Char) :=
  if sep ∈ text then some (text.takeWhile (· ≠ sep), (text.dropWhile (· ≠ sep)).tail) else none

/-- `tech_pvt->roomId`. -/
def dialledRoomId (room : List Char) : JanusId :=
  match strtoull room with
  | (n, []) => n
  | _ => 0

/-- `channel_outgoing_channel`, as far as it reads the dial string. -/
def channelOutgoingChannel (resolveServerForDial : String → Option Servers.Server)
    (pDialStr : String) : Except CallCause Dial :=
  match strchr pDialStr.toList '/' with
  | none => .error .protocolError
  | some (pServerName, pCurr) =>
      match resolveServerForDial (String.ofList pServerName) with
      | none => .error .noRouteDestination
      | some pServer =>
          if !pServer.enabled then .error .outgoingCallBarred
          else
            match strchr pCurr '@' with
            | none => .error .protocolError
            | some (pDisplay, pRoomIdStr) =>
                .ok { serverId := pServer.serverId
                      pDisplay := String.ofList pDisplay
                      pRoomIdStr := String.ofList pRoomIdStr
                      roomId := dialledRoomId pRoomIdStr }

/-- The requests that ask for the room: the create of `channel_on_init` and the join of
    `channel_on_routing`. -/
inductive Dial.RoomRequest (dial : Dial) : ApiRequest → Prop where
  | createRoom (senderId : JanusId) (pDescription : Option String) (record : Bool)
      (pRecordingFile pPin : Option String) (allowWsParticipants : Bool) :
      dial.RoomRequest (.createRoom dial.serverId senderId dial.roomId pDescription record
        pRecordingFile pPin allowWsParticipants (some dial.pRoomIdStr))
  | join (hmacTokenTtl : Int) (senderId : JanusId) (pPin pToken callId : Option String) :
      dial.RoomRequest (.join hmacTokenTtl dial.serverId senderId dial.roomId
        (some dial.pDisplay) pPin pToken callId (some dial.pRoomIdStr))

theorem strchr_eq_some {text front back : List Char} {sep : Char}
    (h : strchr text sep = some (front, back)) : text = front ++ sep :: back ∧ sep ∉ front := by
  unfold strchr at h
  split at h
  · next hmem =>
      cases h
      obtain ⟨front, back, rfl, hfront⟩ := List.eq_append_cons_of_mem hmem
      have hkeep : ∀ c ∈ front, decide (c ≠ sep) = true := by
        intro c hc
        rw [decide_eq_true_eq]
        rintro rfl
        exact hfront hc
      rw [List.takeWhile_append_of_pos hkeep, List.dropWhile_append_of_pos hkeep]
      simp [hfront]
  · cases h

/-- An accepted dial string is `<server>/<display>@<room>`, of an enabled server. -/
theorem channelOutgoingChannel_ok {resolveServerForDial : String → Option Servers.Server}
    {pDialStr : String} {dial : Dial}
    (h : channelOutgoingChannel resolveServerForDial pDialStr = .ok dial) :
    ∃ pServerName pServer, resolveServerForDial pServerName = some pServer ∧
      pServer.enabled = true ∧ dial.serverId = pServer.serverId ∧
      pDialStr = pServerName ++ "/" ++ dial.pDisplay ++ "@" ++ dial.pRoomIdStr ∧
      '/' ∉ pServerName.toList ∧ '@' ∉ dial.pDisplay.toList ∧
      dial.roomId = dialledRoomId dial.pRoomIdStr.toList := by
  unfold channelOutgoingChannel at h
  split at h
  · cases h
  · next pServerName pCurr hslash =>
      split at h
      · cases h
      · next pServer hserver =>
          split at h
          · cases h
          · next henabled =>
              split at h
              · cases h
              · next pDisplay pRoomIdStr hat =>
                  cases h
                  obtain ⟨hdial, hslash⟩ := strchr_eq_some hslash
                  obtain ⟨hcurr, hat⟩ := strchr_eq_some hat
                  refine ⟨_, pServer, hserver, by simpa using henabled, rfl, ?_, ?_, ?_, ?_⟩
                  · apply String.toList_inj.mp
                    simp [hdial, hcurr]
                  · rwa [String.toList_ofList]
                  · rwa [String.toList_ofList]
                  · rw [String.toList_ofList]

/-! ## The room of a request -/

/-- `api_send_request` changes what is in the request by adding to its end only. -/
theorem apiSendRequest_prefix {server : ServerConfig} {json : Members}
    {serverId senderId : JanusId} {kind : UrlKind} {sent : SentRequest}
    (h : apiSendRequest server json serverId senderId kind = some sent) :
    ∃ more, sent.members = json ++ more := by
  unfold apiSendRequest at h
  split at h
  · cases h
    simp only [SentRequest.members, List.append_assoc]
    exact ⟨_, rfl⟩
  · simp only at h
    split at h
    · cases h
      exact ⟨[], (List.append_nil json).symm⟩
    · cases h

/-- An encoded request has the body of its message. -/
theorem encode_body {hmac : Hmac} {now : Nat} {message : RequestMessage} {json body : Members}
    {pToken : Option String} (h : encode hmac now message = some (json, pToken))
    (hbody : message.pJsonBody = some body) : json.lookup "body" = some (.object body) := by
  obtain ⟨pSigned, -, heq⟩ := Option.map_eq_some_iff.mp h
  cases heq
  exact encodeMembers_body pToken hbody

/-- A body that begins with the request and the room is sent with that room. -/
theorem bodyRoom_of_body {server : ServerConfig} {json rest : Members} {request : String}
    {room : CJson} {serverId senderId : JanusId} {kind : UrlKind} {sent : SentRequest}
    (hbody : json.lookup "body" =
      some (.object (("request", .string request) :: ("room", room) :: rest)))
    (h : apiSendRequest server json serverId senderId kind = some sent) :
    sent.bodyRoom = some room := by
  obtain ⟨more, hmembers⟩ := apiSendRequest_prefix h
  rw [SentRequest.bodyRoom, hmembers, getObjectItem, lookup_append_some more hbody]
  rfl

/-- The room of a request is the text that was dialled, whatever it is. -/
theorem roomRequest_bodyRoom {hmac : Hmac} {now : Nat} {pTransactionId : String}
    {server : ServerConfig} {dial : Dial} {request : ApiRequest} {sent : SentRequest}
    (hroom : dial.pRoomIdStr ≠ "") (hrequest : dial.RoomRequest request)
    (h : request.send hmac now pTransactionId server = some sent) :
    sent.bodyRoom = some (.string dial.pRoomIdStr) := by
  have hmember : roomMember dial.roomId (some dial.pRoomIdStr) = .string dial.pRoomIdStr :=
    if_pos hroom
  cases hrequest with
  | createRoom =>
      obtain ⟨⟨json, pToken⟩, henc, hsend⟩ := Option.bind_eq_some_iff.mp h
      have hbody := encode_body henc rfl
      rw [hmember] at hbody
      exact bodyRoom_of_body hbody hsend
  | join hmacTokenTtl senderId pPin pToken callId =>
      obtain ⟨⟨json, pSignedToken⟩, henc, hsend⟩ := Option.bind_eq_some_iff.mp h
      obtain ⟨rest, hbuilt⟩ := joinMessage_body pTransactionId server hmacTokenTtl dial.roomId
        (some dial.pDisplay) pPin pToken callId (some dial.pRoomIdStr)
      rw [hmember] at hbuilt
      have hbody := addToBody_body (stringMember "token" pSignedToken) (encode_body henc hbuilt)
      exact bodyRoom_of_body hbody hsend

/-! ## Numbers and strings -/

/-- The room and the number that are to be in use for a room: a number below 2^53 as an
    integer, any other room as a string. -/
def intendedRoom (room : String) : CJson × JanusId :=
  let n := Nat.ofDigitChars 10 room.toList 0
  if room.toList.all Char.isDigit ∧ n < 2 ^ 53 then (.number (.ofInt n), UInt64.ofNat n)
  else (.string room, 0)

/-- The text is no number for `strtoull`, or is 0 with a blank or a sign in front. -/
def NotANumber (room : String) : Prop :=
  ∀ blanks sign digits, Numeral room.toList blanks sign digits →
    blanks ++ sign ≠ [] ∧ ∀ c ∈ digits, c = '0'

theorem dialledRoomId_numeral {text blanks sign digits : List Char}
    (h : Numeral text blanks sign digits) :
    dialledRoomId text = Strtoull.valueOf sign digits := by
  rw [dialledRoomId, Strtoull.strtoull_numeral h]

/-- Digits are a number without blanks and a sign. -/
theorem numeral_of_digits {text : List Char} (h : text.all Char.isDigit = true)
    (hne : text ≠ []) : Numeral text [] [] text where
  text_eq := rfl
  isspace_of_mem := fun _ hc => absurd hc List.not_mem_nil
  sign_mem := List.mem_cons_self
  isDigit_of_mem := List.all_eq_true.mp h
  digits_ne_nil := hne

theorem dialledRoomId_eq_zero {text : List Char} (hne : text ≠ [])
    (h : ∀ blanks sign digits, Numeral text blanks sign digits → ∀ c ∈ digits, c = '0') :
    dialledRoomId text = 0 := by
  cases hend : (strtoull text).2 with
  | nil =>
      obtain ⟨blanks, sign, digits, hnumeral⟩ := Strtoull.numeral_of_strtoull hend hne
      rw [dialledRoomId_numeral hnumeral, Strtoull.valueOf_eq_zero_iff hnumeral.isDigit_of_mem]
      exact h blanks sign digits hnumeral
  | cons c rest =>
      rw [dialledRoomId]
      split
      · next heq =>
          rw [heq] at hend
          cases hend
      · rfl

/-- A request sends the room that was intended, and its number is in use, exactly for a
    room that is no number. -/
theorem room_intended_iff (resolveServerForDial : String → Option Servers.Server)
    (pDialStr : String) (dial : Dial)
    (hdial : channelOutgoingChannel resolveServerForDial pDialStr = .ok dial)
    (hroom : dial.pRoomIdStr ≠ "") (hmac : Hmac) (now : Nat) (pTransactionId : String)
    (server : ServerConfig) (request : ApiRequest) (hrequest : dial.RoomRequest request)
    (sent : SentRequest) (hsent : request.send hmac now pTransactionId server = some sent) :
    (sent.bodyRoom = some (intendedRoom dial.pRoomIdStr).1 ∧
        dial.roomId = (intendedRoom dial.pRoomIdStr).2) ↔ NotANumber dial.pRoomIdStr := by
  obtain ⟨_, _, -, -, -, -, -, -, hroomId⟩ := channelOutgoingChannel_ok hdial
  have hbody := roomRequest_bodyRoom hroom hrequest hsent
  have hne : dial.pRoomIdStr.toList ≠ [] := fun hnil => hroom (String.toList_eq_nil_iff.mp hnil)
  rw [hbody, hroomId]
  unfold intendedRoom
  simp only
  constructor
  · rintro ⟨hsame, hid⟩ blanks sign digits hnumeral
    split at hsame
    · cases hsame
    · next hnumber =>
        rw [if_neg hnumber, dialledRoomId_numeral hnumeral,
          Strtoull.valueOf_eq_zero_iff hnumeral.isDigit_of_mem] at hid
        refine ⟨fun hnil => hnumber ?_, hid⟩
        -- nothing but digits, all of them 0
        have htext : dial.pRoomIdStr.toList = digits := by
          rw [hnumeral.text_eq, ← List.append_assoc, hnil, List.nil_append]
        rw [htext, (Strtoull.ofDigitChars_eq_zero_iff hnumeral.isDigit_of_mem).mpr hid]
        exact ⟨List.all_eq_true.mpr hnumeral.isDigit_of_mem, by decide⟩
  · intro hnot
    have hnumber : ¬ (dial.pRoomIdStr.toList.all Char.isDigit = true ∧
        Nat.ofDigitChars 10 dial.pRoomIdStr.toList 0 < 2 ^ 53) := by
      rintro ⟨hdigits, -⟩
      exact (hnot _ _ _ (numeral_of_digits hdigits hne)).1 rfl
    rw [if_neg hnumber]
    exact ⟨rfl, dialledRoomId_eq_zero hne fun _ _ _ hnumeral => (hnot _ _ _ hnumeral).2⟩

/-- The pod demo, with a session. -/
def demoServer (pServerName : String) : Option Servers.Server :=
  if pServerName = "demo" then some { name := some "demo", serverId := 7, enabled := true }
  else none

/-- The join of a leg that dialled `room` there. -/
def demoJoin (room : String) (roomId : JanusId) : ApiRequest :=
  .join 0 7 11 roomId (some "MyName") none none none (some room)

/-- A room that begins with digits and goes on. -/
theorem room_intended_uuid :
    ∃ sent, (demoJoin "0d9c4e7a-3c1f" 0).send knownHmac 100 "t"
        (tokenServer "http://a/janus" .http) = some sent ∧
      sent.bodyRoom = some (intendedRoom "0d9c4e7a-3c1f").1 ∧
      (0 : JanusId) = (intendedRoom "0d9c4e7a-3c1f").2 := by
  have hsent : ((demoJoin "0d9c4e7a-3c1f" 0).send knownHmac 100 "t"
      (tokenServer "http://a/janus" .http)).isSome = true := by decide
  obtain ⟨sent, hsent⟩ := Option.isSome_iff_exists.mp hsent
  have hnot : NotANumber "0d9c4e7a-3c1f" := by
    intro blanks sign digits hnumeral
    have hend : (strtoull "0d9c4e7a-3c1f".toList).2 = [] := by
      rw [Strtoull.strtoull_numeral hnumeral]
    exact absurd hend (by decide)
  refine ⟨sent, hsent, (room_intended_iff demoServer "demo/MyName@0d9c4e7a-3c1f"
    ⟨7, "MyName", "0d9c4e7a-3c1f", 0⟩ rfl (by decide) knownHmac 100 "t" _ _ ?_ sent hsent).mpr hnot⟩
  exact .join 0 11 none none none

/-- The room 1234 is sent as the string it was dialled as. -/
theorem room_1234_string :
    ¬ ∀ (resolveServerForDial : String → Option Servers.Server) (pDialStr : String) (dial : Dial),
      channelOutgoingChannel resolveServerForDial pDialStr = .ok dial → dial.pRoomIdStr ≠ "" →
      ∀ (hmac : Hmac) (now : Nat) (pTransactionId : String) (server : ServerConfig)
        (request : ApiRequest), dial.RoomRequest request →
      ∀ sent, request.send hmac now pTransactionId server = some sent →
        sent.bodyRoom = some (intendedRoom dial.pRoomIdStr).1 ∧
          dial.roomId = (intendedRoom dial.pRoomIdStr).2 := by
  intro h
  have hsent : ((demoJoin "1234" 1234).send knownHmac 100 "t"
      (tokenServer "http://a/janus" .http)).isSome = true := by decide
  obtain ⟨sent, hsent⟩ := Option.isSome_iff_exists.mp hsent
  have hjoin : Dial.RoomRequest ⟨7, "MyName", "1234", 1234⟩ (demoJoin "1234" 1234) :=
    .join 0 11 none none none
  have hbody := roomRequest_bodyRoom (by decide) hjoin hsent
  obtain ⟨hroom, -⟩ := h demoServer "demo/MyName@1234" _ rfl (by decide) _ _ _ _ _ hjoin sent hsent
  rw [hbody] at hroom
  cases hroom

end ModJanus
