/-
  ModJanus.Api.Dispatch

  `api_dispatch_poll_event` and `api_dispatch_participants` of api.c: one Janus
  event is turned into calls of the handlers the server thread passed in.

  What a handler returns is only logged, except the answer of
  `pAnswerOnWebrtcupFunc`, which decides whether `pAnsweredFunc` is called next.
  The two are therefore one `HandlerCall` here, and an event is a list of calls
  (`pollEventCalls`) that does not depend on the handlers; `HandlerCall.run`
  makes the calls.  A string that the source compares, or hands on as present,
  goes through `mandatory`.
-/
import ModJanus.Api.Decode

namespace ModJanus

/-- The handlers of the poll, over the state `σ` they work on.  The two function
    pointers that the source tests for null are optional. -/
structure Handlers (σ : Type) where
  joined : JanusId → JanusId → JanusId → JanusId → σ → Status × σ
  accepted : JanusId → JanusId → String → σ → Status × σ
  trickle : JanusId → JanusId → Option String → σ → Status × σ
  answerOnWebrtcup : Option (JanusId → JanusId → σ → Bool)
  answered : JanusId → JanusId → σ → Status × σ
  hungup : JanusId → JanusId → Option String → σ → Status × σ
  participant : Option (JanusId → JanusId → String → Bool → Bool → σ → Status × σ)

/-- A call that the dispatch of an event makes. -/
inductive HandlerCall where
  | joined (serverId senderId roomId participantId : JanusId)
  | accepted (serverId senderId : JanusId) (pSdp : String)
  | trickle (serverId senderId : JanusId) (pCandidate : Option String)
  /-- `pAnsweredFunc` if `pAnswerOnWebrtcupFunc` is there and says yes. -/
  | answeredOnWebrtcup (serverId senderId : JanusId)
  /-- `pAnsweredFunc` unless `pAnswerOnWebrtcupFunc` is there and says yes. -/
  | answeredOnAccept (serverId senderId : JanusId)
  | hungup (serverId senderId : JanusId) (pReason : Option String)
  | participant (serverId senderId : JanusId) (pParticipantIdStr : String) (isSelf setup : Bool)
  deriving DecidableEq, Repr

namespace HandlerCall

variable {σ : Type}

/-- Whether the leg is to be answered only once its WebRTC is up. -/
def onWebrtcup (h : Handlers σ) (serverId senderId : JanusId) (s : σ) : Bool :=
  match h.answerOnWebrtcup with
  | some answerOnWebrtcup => answerOnWebrtcup serverId senderId s
  | none => false

/-- Make one call. -/
def run (h : Handlers σ) (s : σ) : HandlerCall → σ
  | .joined serverId senderId roomId participantId =>
      (h.joined serverId senderId roomId participantId s).2
  | .accepted serverId senderId pSdp => (h.accepted serverId senderId pSdp s).2
  | .trickle serverId senderId pCandidate => (h.trickle serverId senderId pCandidate s).2
  | .answeredOnWebrtcup serverId senderId =>
      if onWebrtcup h serverId senderId s then (h.answered serverId senderId s).2 else s
  | .answeredOnAccept serverId senderId =>
      if onWebrtcup h serverId senderId s then s else (h.answered serverId senderId s).2
  | .hungup serverId senderId pReason => (h.hungup serverId senderId pReason s).2
  | .participant serverId senderId pParticipantIdStr isSelf setup =>
      match h.participant with
      | some report => (report serverId senderId pParticipantIdStr isSelf setup s).2
      | none => s

end HandlerCall

/-! ## Participants -/

/-- The decimal form that `switch_snprintf` gives an id. -/
def decimal (id : JanusId) : String := toString id.toNat

/-- A participant id as a string: a string id as it is, a numeric one in decimal. -/
def participantIdStr (pId : Option CJson) : Option String :=
  if isString pId then valuestring pId
  else if isNumber pId then some (decimal (janusIdOf pId))
  else none

/-- The body of the loop of `api_dispatch_participants`: an entry without a
    usable id is passed over. -/
def participantCall (response : Message) (pItem : CJson) : Option HandlerCall :=
  (participantIdStr (getObjectItem (some pItem) "id")).map fun id =>
    .participant response.serverId response.senderId id false
      ((getObjectItem (some pItem) "setup").any CJson.isTrue)

/-- `api_dispatch_participants`. -/
def apiDispatchParticipants (response : Message) : Option CJson → List HandlerCall
  | some (.array items) => items.filterMap (participantCall response)
  | _ => []

/-- The `participants` member of an audiobridge event. -/
def participantsOf (response : Message) : Option CJson :=
  getObjectItem response.pJsonBody "participants"

/-! ## Events -/

/-- The report of our own id, if there is one. -/
def selfCall (response : Message) (pId : Option CJson) : List HandlerCall :=
  match participantIdStr pId with
  | some id => [.participant response.serverId response.senderId id true true]
  | none => []

/-- A room or participant id as `joined` gets it: zero stands for a string. -/
def numericId (item : Option CJson) : JanusId := if isNumber item then janusIdOf item else 0

/-- The `audiobridge=joined` branch: the own `joined` event carries an id, the
    report that somebody else joined does not. -/
def dispatchJoined (response : Message) : List HandlerCall :=
  let room := getObjectItem response.pJsonBody "room"
  let id := getObjectItem response.pJsonBody "id"
  if !isNumber room && !isString room then []
  else if id.isNone then apiDispatchParticipants response (participantsOf response)
  else if !isNumber id && !isString id then []
  else
    .joined response.serverId response.senderId (numericId room) (numericId id) ::
      selfCall response id ++ apiDispatchParticipants response (participantsOf response)

/-- The `audiobridge=event` branch with a `result`: the answer to our offer. -/
def dispatchResult (response : Message) (result : Option CJson) :
    Except Fault (List HandlerCall) := do
  if !isString result then return []
  if !(← strEq (valuestring result) "ok") then return []
  let type := getObjectItem response.pJsonJsep "type"
  if !isString type then return []
  if !(← strEq (valuestring type) "answer") then return []
  let sdp := getObjectItem response.pJsonJsep "sdp"
  if !isString sdp then return []
  return [.accepted response.serverId response.senderId (← mandatory (valuestring sdp)),
    .answeredOnAccept response.serverId response.senderId]

/-- The `audiobridge=event` branch without a `result`. -/
def dispatchNotice (response : Message) : Except Fault (List HandlerCall) := do
  if (getObjectItem response.pJsonBody "leaving").isSome then return []
  let errorCode := getObjectItem response.pJsonBody "error_code"
  let error := getObjectItem response.pJsonBody "error"
  if errorCode.isSome && error.isSome then
    if !isNumber errorCode || !isString error then return []
    return [.hungup response.serverId response.senderId (← mandatory (valuestring error))]
  return apiDispatchParticipants response (participantsOf response)

/-- The `janus=event` branch, which is an event of the audiobridge plugin. -/
def dispatchAudiobridge (response : Message) : Except Fault (List HandlerCall) := do
  let type := getObjectItem response.pJsonBody "audiobridge"
  if !isString type then return []
  if ← strEq (valuestring type) "joined" then return dispatchJoined response
  if ← strEq (valuestring type) "event" then
    let result := getObjectItem response.pJsonBody "result"
    if result.isSome then dispatchResult response result else dispatchNotice response
  else return []

/-- The `janus=hangup` branch. -/
def dispatchHangup (pEvent : CJson) (response : Message) : Except Fault (List HandlerCall) := do
  let reason := getObjectItem (some pEvent) "reason"
  if !isString reason then return []
  return [.hungup response.serverId response.senderId (← mandatory (valuestring reason))]

/-- The calls of an event whose type has been read. -/
def typedEventCalls (pEvent : CJson) (response : Message) :
    String → Except Fault (List HandlerCall)
  | "hangup" => dispatchHangup pEvent response
  | "detached" => .ok [.hungup response.serverId response.senderId none]
  | "webrtcup" => .ok [.answeredOnWebrtcup response.serverId response.senderId]
  | "trickle" => .ok [.trickle response.serverId response.senderId response.pCandidate]
  | "event" => dispatchAudiobridge response
  -- keepalive, ack and media do nothing, as does a type that is not known
  | _ => .ok []

/-- The handler calls that `api_dispatch_poll_event` makes for an event.  The
    `mandatory` is the first `strcmp` on `pResponse->pType`. -/
def pollEventCalls (pEvent : CJson) : Except Fault (List HandlerCall) :=
  match decode (some pEvent) with
  | none => .ok []
  | some response => do typedEventCalls pEvent response (← mandatory response.pType)

variable {σ : Type}

/-- `api_dispatch_poll_event`: it always returns `SWITCH_STATUS_SUCCESS`. -/
def apiDispatchPollEvent (h : Handlers σ) (pEvent : CJson) (s : σ) :
    Except Fault (Status × σ) := do
  let calls ← pollEventCalls pEvent
  return (.success, calls.foldl (HandlerCall.run h) s)

/-- The child loop of `apiPoll`: every child of the response is dispatched,
    whether the response is an array or not. -/
def dispatchChildren (h : Handlers σ) : List CJson → σ → Except Fault σ
  | [], s => .ok s
  | pEvent :: next, s => do
      let (_, s) ← apiDispatchPollEvent h pEvent s
      dispatchChildren h next s

/-- `apiPoll` over HTTP from the answer of `httpGet` on. -/
def apiPollResponse (h : Handlers σ) (pJsonResponse : Option CJson) (s : σ) :
    Except Fault (Status × σ) :=
  match pJsonResponse with
  | none => .ok (.false, s)
  | some response => do
      let s ← dispatchChildren h response.children s
      return (.success, s)

/-! ## What an event can make the dispatch do -/

/-- The event is our own `joined`: a room and an id, each a number or a string. -/
structure OwnJoined (response : Message) : Prop where
  pType : response.pType = some "event"
  audiobridge : valuestring (getObjectItem response.pJsonBody "audiobridge") = some "joined"
  room : isNumber (getObjectItem response.pJsonBody "room") = true ∨
    isString (getObjectItem response.pJsonBody "room") = true
  id : isNumber (getObjectItem response.pJsonBody "id") = true ∨
    isString (getObjectItem response.pJsonBody "id") = true

/-- The lists of calls that a message can lead to. -/
inductive EventCalls (response : Message) : List HandlerCall → Prop where
  | nothing : EventCalls response []
  | participants :
      EventCalls response (apiDispatchParticipants response (participantsOf response))
  | joined (roomId participantId : JanusId) : OwnJoined response →
      EventCalls response
        (.joined response.serverId response.senderId roomId participantId ::
          selfCall response (getObjectItem response.pJsonBody "id") ++
          apiDispatchParticipants response (participantsOf response))
  | accepted (pSdp : String) :
      EventCalls response [.accepted response.serverId response.senderId pSdp,
        .answeredOnAccept response.serverId response.senderId]
  | webrtcup : EventCalls response [.answeredOnWebrtcup response.serverId response.senderId]
  | trickle :
      EventCalls response [.trickle response.serverId response.senderId response.pCandidate]
  | hungup (pReason : Option String) :
      EventCalls response [.hungup response.serverId response.senderId pReason]

/-- A dispatch that gets to its end, with calls of a known shape. -/
def Dispatches (response : Message) (result : Except Fault (List HandlerCall)) : Prop :=
  ∃ calls, result = .ok calls ∧ EventCalls response calls

theorem dispatches_nothing (response : Message) : Dispatches response (.ok []) :=
  ⟨[], rfl, .nothing⟩

/-- The own id of a `joined` event is always reported. -/
theorem OwnJoined.selfId {response : Message} (h : OwnJoined response) :
    ∃ id, participantIdStr (getObjectItem response.pJsonBody "id") = some id := by
  unfold participantIdStr
  split
  · next hstr => exact isString_iff.mp hstr
  · -- an id that is not a string is a number, which has a decimal form
    next hstr =>
      have hnum := h.id.resolve_right hstr
      exact ⟨_, by rw [if_pos hnum]⟩

theorem dispatchHangup_spec (pEvent : CJson) (response : Message) :
    Dispatches response (dispatchHangup pEvent response) := by
  unfold dispatchHangup
  by_cases hreason : isString (getObjectItem (some pEvent) "reason") = true
  · obtain ⟨reason, hr⟩ := isString_iff.mp hreason
    refine ⟨[.hungup response.serverId response.senderId (some reason)], ?_, .hungup _⟩
    simp only [hreason, hr, Bool.not_true, Bool.false_eq_true, if_false]
    rfl
  · simp only [hreason]
    exact dispatches_nothing response

theorem dispatchJoined_spec {response : Message} (hpType : response.pType = some "event")
    (htype : valuestring (getObjectItem response.pJsonBody "audiobridge") = some "joined") :
    EventCalls response (dispatchJoined response) := by
  unfold dispatchJoined
  dsimp only
  split
  · exact .nothing
  · next hroom =>
      split
      · exact .participants
      · split
        · exact .nothing
        · next hid =>
            refine .joined _ _ ⟨hpType, htype, ?_, ?_⟩
            · cases hn : isNumber (getObjectItem response.pJsonBody "room") <;> simp_all
            · cases hn : isNumber (getObjectItem response.pJsonBody "id") <;> simp_all

theorem dispatchResult_spec (response : Message) (result : Option CJson) :
    Dispatches response (dispatchResult response result) := by
  unfold dispatchResult
  -- each test of the source either leaves or vouches for the string used next
  by_cases hresult : isString result = true
  · obtain ⟨ok, hok⟩ := strEq_of_isString hresult "ok"
    by_cases htype : isString (getObjectItem response.pJsonJsep "type") = true
    · obtain ⟨answer, hanswer⟩ := strEq_of_isString htype "answer"
      by_cases hsdp : isString (getObjectItem response.pJsonJsep "sdp") = true
      · obtain ⟨sdp, hs⟩ := isString_iff.mp hsdp
        cases ok with
        | false =>
            simp only [hresult, hok]
            exact dispatches_nothing response
        | true =>
            cases answer with
            | false =>
                simp only [hresult, hok, htype, hanswer]
                exact dispatches_nothing response
            | true =>
                simp only [hresult, hok, htype, hanswer, hsdp, hs]
                exact ⟨_, rfl, .accepted sdp⟩
      · cases ok <;> cases answer <;> simp only [hresult, hok, htype, hanswer, hsdp] <;>
          exact dispatches_nothing response
    · cases ok <;> simp only [hresult, hok, htype] <;> exact dispatches_nothing response
  · simp only [hresult]
    exact dispatches_nothing response

theorem dispatchNotice_spec (response : Message) :
    Dispatches response (dispatchNotice response) := by
  unfold dispatchNotice
  by_cases hleaving : (getObjectItem response.pJsonBody "leaving").isSome = true
  · simp only [hleaving]
    exact dispatches_nothing response
  · by_cases hboth : ((getObjectItem response.pJsonBody "error_code").isSome &&
        (getObjectItem response.pJsonBody "error").isSome) = true
    · by_cases htyped : (!isNumber (getObjectItem response.pJsonBody "error_code") ||
          !isString (getObjectItem response.pJsonBody "error")) = true
      · simp only [hleaving, hboth, htyped]
        exact dispatches_nothing response
      · have hstr : isString (getObjectItem response.pJsonBody "error") = true := by
          simp only [Bool.or_eq_true, Bool.not_eq_true', not_or, Bool.not_eq_false] at htyped
          exact htyped.2
        obtain ⟨reason, hr⟩ := isString_iff.mp hstr
        simp only [hleaving, hboth, htyped, hr]
        exact ⟨_, rfl, .hungup _⟩
    · simp only [hleaving, hboth]
      exact ⟨_, rfl, .participants⟩

theorem dispatchAudiobridge_spec {response : Message} (hpType : response.pType = some "event") :
    Dispatches response (dispatchAudiobridge response) := by
  unfold dispatchAudiobridge
  by_cases htype : isString (getObjectItem response.pJsonBody "audiobridge") = true
  · obtain ⟨type, ht⟩ := isString_iff.mp htype
    simp only [htype, ht]
    by_cases hjoined : type = "joined"
    · subst hjoined
      exact ⟨_, rfl, dispatchJoined_spec hpType ht⟩
    · by_cases hevent : type = "event"
      · subst hevent
        by_cases hresult : (getObjectItem response.pJsonBody "result").isSome = true
        · simpa [hresult, strEq, bind, Except.bind, pure, Except.pure] using
            dispatchResult_spec response _
        · simpa [hresult, strEq, bind, Except.bind, pure, Except.pure] using
            dispatchNotice_spec response
      · simpa [hjoined, hevent, strEq, bind, Except.bind, pure, Except.pure] using
          dispatches_nothing response
  · simp only [htype]
    exact dispatches_nothing response

/-- Once the type of an event has been read, every other string that is needed
    has been tested for. -/
theorem typedEventCalls_spec (pEvent : CJson) {response : Message} {pType : String}
    (hpType : response.pType = some pType) :
    Dispatches response (typedEventCalls pEvent response pType) := by
  unfold typedEventCalls
  split
  · exact dispatchHangup_spec pEvent response
  · exact ⟨_, rfl, .hungup none⟩
  · exact ⟨_, rfl, .webrtcup⟩
  · exact ⟨_, rfl, .trickle⟩
  · exact dispatchAudiobridge_spec hpType
  · exact dispatches_nothing response

/-- The calls of an event that is dispatched to its end come from its decoded
    message, or there are none. -/
theorem pollEventCalls_shape {pEvent : CJson} {calls : List HandlerCall}
    (h : pollEventCalls pEvent = .ok calls) :
    calls = [] ∨ ∃ response, decode (some pEvent) = some response ∧ EventCalls response calls := by
  unfold pollEventCalls at h
  cases hd : decode (some pEvent) with
  | none =>
      rw [hd] at h
      cases h
      exact .inl rfl
  | some response =>
      rw [hd] at h
      cases ht : response.pType with
      | none => simp [ht, bind, Except.bind] at h
      | some pType =>
          obtain ⟨calls', hcalls, hshape⟩ := typedEventCalls_spec pEvent ht
          simp only [ht, mandatory_some, bind, Except.bind, hcalls, Except.ok.injEq] at h
          exact .inr ⟨response, rfl, h ▸ hshape⟩

/-- The calls of an own `joined` event: the leg has joined, its id is reported, and
    then the participants of the room are. -/
theorem pollEventCalls_ownJoined {pEvent : CJson} {response : Message} {own : String}
    (hd : decode (some pEvent) = some response) (h : OwnJoined response)
    (hown : participantIdStr (getObjectItem response.pJsonBody "id") = some own) :
    pollEventCalls pEvent =
      .ok (.joined response.serverId response.senderId
          (numericId (getObjectItem response.pJsonBody "room"))
          (numericId (getObjectItem response.pJsonBody "id")) ::
        .participant response.serverId response.senderId own true true ::
        apiDispatchParticipants response (participantsOf response)) := by
  have htype : isString (getObjectItem response.pJsonBody "audiobridge") = true :=
    isString_iff.mpr ⟨_, h.audiobridge⟩
  have hroom : (!isNumber (getObjectItem response.pJsonBody "room") &&
      !isString (getObjectItem response.pJsonBody "room")) = false := by
    rcases h.room with hr | hr <;> simp [hr]
  have hid : (!isNumber (getObjectItem response.pJsonBody "id") &&
      !isString (getObjectItem response.pJsonBody "id")) = false := by
    rcases h.id with hr | hr <;> simp [hr]
  have hsome : (getObjectItem response.pJsonBody "id").isNone = false := by
    cases hg : getObjectItem response.pJsonBody "id" with
    | none => simp [hg] at hid
    | some json => rfl
  simp only [pollEventCalls, hd, h.pType, mandatory_some, bind, Except.bind, typedEventCalls,
    dispatchAudiobridge, htype, h.audiobridge, strEq, pure, Except.pure, dispatchJoined, hroom,
    hid, hsome, selfCall, hown]
  rfl

/-- An event of the audiobridge plugin. -/
def audiobridgeEvent (serverId senderId : Int) (data : List (String × CJson)) : CJson :=
  .object [("janus", .string "event"), ("session_id", .number (.ofInt serverId)),
    ("sender", .number (.ofInt senderId)),
    ("plugindata", .object [("plugin", .string JANUS_PLUGIN), ("data", .object data)])]

/-- The own `joined` event of a leg. -/
def ownJoinedEvent (serverId senderId room : Int) (id : CJson) : CJson :=
  audiobridgeEvent serverId senderId
    [("audiobridge", .string "joined"), ("room", .number (.ofInt room)), ("id", id)]

/-- The report of participants whose PeerConnection is up. -/
def setupEvent (serverId senderId : Int) (ids : List CJson) : CJson :=
  audiobridgeEvent serverId senderId
    [("audiobridge", .string "event"),
      ("participants", .array (ids.map fun id => .object [("id", id), ("setup", .bool true)]))]

-- a numeric id is reported in decimal, a string id as it is
example : (pollEventCalls (ownJoinedEvent 1 2 1234 (.number (.ofInt 5)))).toOption =
    some [.joined 1 2 1234 5, .participant 1 2 "5" true true] := by decide

example : (pollEventCalls (setupEvent 1 2 [.string "a", .null])).toOption =
    some [.participant 1 2 "a" false true] := by decide

/-! ## Totality -/

/-- The dispatch can use an event: a type check of `decode` rejects it, or it has
    the `janus` member whose string the dispatch compares. -/
def Dispatchable (pEvent : CJson) : Prop :=
  DecodeRejects pEvent ∨ getObjectItem (some pEvent) "janus" ≠ none

/-- The only string that can be missing is the type of the event. -/
theorem pollEventCalls_ok_iff (pEvent : CJson) :
    (∃ calls, pollEventCalls pEvent = .ok calls) ↔ Dispatchable pEvent := by
  unfold pollEventCalls Dispatchable
  rw [← decode_eq_none_iff]
  cases hd : decode (some pEvent) with
  | none => simp
  | some response =>
      have htype := decode_pType hd
      cases ht : response.pType with
      | none => simp [ht, htype.mp ht, bind, Except.bind]
      | some pType =>
          have hsome : getObjectItem (some pEvent) "janus" ≠ none := by
            intro hnone
            rw [htype.mpr hnone] at ht
            cases ht
          obtain ⟨calls, hcalls, -⟩ := typedEventCalls_spec pEvent ht
          simp [ht, hsome, bind, Except.bind, hcalls]

theorem apiDispatchPollEvent_ok_iff (h : Handlers σ) (pEvent : CJson) (s : σ) :
    (∃ r, apiDispatchPollEvent h pEvent s = .ok r) ↔ Dispatchable pEvent := by
  rw [← pollEventCalls_ok_iff]
  unfold apiDispatchPollEvent
  cases pollEventCalls pEvent with
  | error fault => simp [bind, Except.bind]
  | ok calls => simp [bind, Except.bind, pure, Except.pure]

/-- The child loop gets to its end exactly when every child can be dispatched. -/
theorem dispatchChildren_ok_iff (h : Handlers σ) (events : List CJson) (s : σ) :
    (∃ r, dispatchChildren h events s = .ok r) ↔ ∀ pEvent ∈ events, Dispatchable pEvent := by
  induction events generalizing s with
  | nil => simp [dispatchChildren]
  | cons pEvent next ih =>
      rw [List.forall_mem_cons, ← apiDispatchPollEvent_ok_iff h pEvent s]
      cases hd : apiDispatchPollEvent h pEvent s with
      | error fault => simp [dispatchChildren, hd, bind, Except.bind]
      | ok r => simp [dispatchChildren, hd, bind, Except.bind, ih]

theorem apiPollResponse_ok_iff (h : Handlers σ) (response : CJson) (s : σ) :
    (∃ r, apiPollResponse h (some response) s = .ok r) ↔
      ∀ pEvent ∈ response.children, Dispatchable pEvent := by
  rw [← dispatchChildren_ok_iff h response.children s]
  cases hd : dispatchChildren h response.children s with
  | error fault => simp [apiPollResponse, hd, bind, Except.bind]
  | ok r => simp [apiPollResponse, hd, bind, Except.bind, pure, Except.pure]

end ModJanus
