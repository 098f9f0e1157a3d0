/-
  ModJanus.Leg.Routing

  `channel_on_routing`, which joins the room, and the transfers that call it again.

  FreeSWITCH calls it when a leg starts and again for every transfer.  It looks at the
  call state of the channel, which the handlers of the server's thread move meanwhile,
  and sends a join unless it finds `CCS_EARLY`.  A callback is two steps here, with
  whatever else happens between them: the request goes out, and the response to it
  comes back.
-/
import ModJanus.Api.JoinToken
import ModJanus.Api.Response
import ModJanus.Leg.GateRun
import ModJanus.Lib.Log
import ModJanus.Lib.Transition

namespace ModJanus

namespace Routing

open Transition (exec Always exec_concat_eq_some exec_kept_iff)

/-! ## State -/

/-- `switch_channel_callstate_t`. -/
inductive CallState where
  | down
  | dialing
  | ringing
  | early
  | active
  | held
  | ringWait
  | hangup
  | unheld
  deriving DecidableEq, Repr

/-- Where a leg goes, as it was dialled. -/
structure Destination where
  roomId : JanusId
  pDisplay : String
  pRoomIdStr : String
  deriving DecidableEq, Repr

/-- What is outside the module while a join is encoded. -/
structure JoinEnv where
  hmac : Hmac
  /-- `time(NULL)`, in seconds. -/
  now : Nat
  pTransactionId : String

/-- The joins of all legs: what went out, and what `apiJoin` returned. -/
inductive Entry where
  | sent (session : Nat) (request : SentRequest)
  | returned (session : Nat) (result : Status)

structure State where
  world : World := {}
  /-- `switch_channel_get_callstate`. -/
  callState : Nat → CallState := fun _ => .down
  /-- The transaction of the join that a leg waits for. -/
  pending : Nat → Option String := fun _ => none
  log : List Entry := []

/-- What the run does not change. -/
structure Setting where
  switchTrue : Option String → Bool
  /-- What FreeSWITCH makes of the call state when a handler acts on the channel. -/
  move : CallState → ChannelOp → CallState
  servers : Nat → ServerConfig
  destinations : Nat → Destination

/-- A leg, a server's thread or another thread gets on. -/
inductive Step where
  | routing (session : Nat) (env : JoinEnv)
  | response (session : Nat) (pJsonResponse : Option CJson)
  | input (i : Input)
  | tables (serverIdLookup : Hash Nat) (senderIdLookups : Nat → Hash Nat)

/-! ## `channel_on_routing` -/

/-- `hmacTokenTtl`, from the server and `janus-hmac-token-ttl`. -/
def hmacTokenTtl (pServer : ServerConfig) (pTtlVar : Option String) : Int :=
  if pServer.pHmacSecret.isSome then
    let ttl := if pTtlVar.getD "" = "" then 0 else max 0 (min (atoi (pTtlVar.getD "")) 86400)
    if ttl = 0 then API_HMAC_DEFAULT_CALL_TTL else ttl
  else 0

/-- `switch_channel_hangup` with `SWITCH_CAUSE_INCOMPATIBLE_DESTINATION`. -/
def State.hangup (s : State) (session : Nat) : State :=
  { s with callState := Function.update s.callState session .hangup }

section Steps

variable (setting : Setting)

/-- The join of a leg. -/
def joinRequest (s : State) (session server : Nat) : ApiRequest :=
  let leg := s.world.legs session
  let pServer := setting.servers server
  let destination := setting.destinations session
  .join (hmacTokenTtl pServer (leg.channelVars "janus-hmac-token-ttl")) leg.serverId leg.senderId
    destination.roomId (some destination.pDisplay) (leg.channelVars "janus-room-pin")
    (leg.channelVars "janus-user-token") (some leg.callId) (some destination.pRoomIdStr)

/-- `channel_on_routing` up to the wait of `apiJoin`. -/
def channelOnRouting (s : State) (session : Nat) (env : JoinEnv) : State :=
  if s.callState session = .early then s
  else
    match hashFind s.world.serverIdLookup (s.world.legs session).serverId with
    | none => s.hangup session
    | some server =>
        match (joinRequest setting s session server).send env.hmac env.now env.pTransactionId
            (setting.servers server) with
        | none => s.hangup session
        | some request =>
            { s with
              pending := Function.update s.pending session (some env.pTransactionId)
              log := s.log ++ [.sent session request] }

/-- The rest of `channel_on_routing`: `apiJoin` has a response, or none came. -/
def joinReturned (s : State) (session : Nat) (pTransactionId : String)
    (pJsonResponse : Option CJson) : State :=
  let result := apiJoinResult pTransactionId pJsonResponse
  let s := { s with
    pending := Function.update s.pending session none
    log := s.log ++ [.returned session result] }
  if result = .success then s else s.hangup session

/-- FreeSWITCH follows what the handlers have done to the channels. -/
def State.setWorld (s : State) (w : World) : State :=
  { s with
    world := w
    callState := fun session =>
      ((w.legs session).ops.drop (s.world.legs session).ops.length).foldl setting.move
        (s.callState session) }

/-- One step; there is none when no join is waited for, or the process ends. -/
def step (s : State) : Step → Option State
  | .routing session env => some (channelOnRouting setting s session env)
  | .response session pJsonResponse =>
      (s.pending session).map fun pTransactionId =>
        joinReturned s session pTransactionId pJsonResponse
  | .input i => (s.world.input setting.switchTrue i).toOption.map (s.setWorld setting)
  | .tables serverIdLookup senderIdLookups =>
      some { s with world := { s.world with
        serverIdLookup := serverIdLookup
        servers := fun server =>
          { s.world.servers server with senderIdLookup := senderIdLookups server } } }

end Steps

/-! ## What a routing callback does -/

/-- The time to live of a signed token is positive, and a day at most. -/
theorem hmacTokenTtl_bounds {pServer : ServerConfig} (h : pServer.pHmacSecret.isSome = true)
    (pTtlVar : Option String) :
    0 < hmacTokenTtl pServer pTtlVar ∧ hmacTokenTtl pServer pTtlVar ≤ 86400 := by
  have hdefault : API_HMAC_DEFAULT_CALL_TTL = 7200 := rfl
  unfold hmacTokenTtl
  rw [if_pos h]
  dsimp only
  generalize hread : (if pTtlVar.getD "" = "" then (0 : Int)
    else max 0 (min (atoi (pTtlVar.getD "")) 86400)) = read
  have hread : 0 ≤ read ∧ read ≤ 86400 := by
    rw [← hread]
    split <;> omega
  split <;> omega

/-- The data of the token of a join, which expires after `ttl` seconds. -/
def joinTokenData (now : Nat) (ttl : Int) (roomId : JanusId) (pRoomIdStr : Option String) :
    String :=
  tokenData (now + ttl.toNat) [JANUS_PLUGIN, roomDesc roomId pRoomIdStr]

/-- `apiJoin` gives up before it sends anything when OpenSSL does not sign its token, or
    its address does not fit. -/
theorem apiJoin_eq_none_iff {hmac : Hmac} {now : Nat} {pTransactionId : String}
    {pServer : ServerConfig} {ttl : Int} (httl : pServer.pHmacSecret.isSome = true → 0 < ttl)
    {serverId senderId roomId : JanusId} {pDisplay pPin pToken callId pRoomIdStr : Option String} :
    apiJoin hmac now pTransactionId pServer ttl serverId senderId roomId pDisplay pPin pToken
        callId pRoomIdStr = none ↔
      (∃ pHmacSecret, pServer.pHmacSecret = some pHmacSecret ∧
        hmac.sign pHmacSecret (joinTokenData now ttl roomId pRoomIdStr) = none) ∨
      (pServer.transport = .http ∧
        URL_SIZE ≤ (requestUrl pServer.pUrl serverId senderId .handle).length) := by
  unfold joinTokenData
  cases hsecret : pServer.pHmacSecret with
  | none =>
      -- no token is signed
      simp only [apiJoin, encode, encodeToken, joinMessage, requestOf, hsecret, apiSendRequest]
      cases htransport : pServer.transport <;> simp
  | some pHmacSecret =>
      have hdesc := roomDesc_ne_empty roomId pRoomIdStr
      have httl := httl (by rw [hsecret]; rfl)
      cases hsign : hmac.sign pHmacSecret
          (tokenData (now + ttl.toNat) [JANUS_PLUGIN, roomDesc roomId pRoomIdStr]) with
      | none =>
          simp [apiJoin, encode, encodeToken, joinMessage, requestOf, hsecret,
            requestDescriptors, authSignToken, hdesc, MAX_TOKEN_DESCRIPTORS, pHmacSecret.2, httl,
            hsign]
      | some code =>
          simp only [apiJoin, encode, encodeToken, joinMessage, requestOf, hsecret,
            requestDescriptors, authSignToken, MAX_TOKEN_DESCRIPTORS, apiSendRequest]
          cases htransport : pServer.transport <;>
            simp [hdesc, pHmacSecret.2, httl, hsign]

section Refraining

variable (setting : Setting)

/-- The join of a leg cannot be sent: its token is not signed, or its address does not
    fit. -/
def Unsendable (s : State) (session server : Nat) (env : JoinEnv) : Prop :=
  let leg := s.world.legs session
  let pServer := setting.servers server
  let destination := setting.destinations session
  (∃ pHmacSecret, pServer.pHmacSecret = some pHmacSecret ∧
    env.hmac.sign pHmacSecret (joinTokenData env.now
      (hmacTokenTtl pServer (leg.channelVars "janus-hmac-token-ttl"))
      destination.roomId (some destination.pRoomIdStr)) = none) ∨
  (pServer.transport = .http ∧
    URL_SIZE ≤ (requestUrl pServer.pUrl leg.serverId leg.senderId .handle).length)

/-- A routing callback finds that the call is in its early state, that the server of the
    leg is gone, or that the join cannot be sent. -/
def State.Refrains (s : State) (session : Nat) (env : JoinEnv) : Prop :=
  s.callState session = .early ∨
    ∀ server, hashFind s.world.serverIdLookup (s.world.legs session).serverId = some server →
      Unsendable setting s session server env

theorem joinRequest_send_eq_none_iff {s : State} {session server : Nat} {env : JoinEnv} :
    (joinRequest setting s session server).send env.hmac env.now env.pTransactionId
        (setting.servers server) = none ↔ Unsendable setting s session server env :=
  apiJoin_eq_none_iff fun hsecret => (hmacTokenTtl_bounds hsecret _).1

/-- A routing callback sends one join, or refrains from it. -/
theorem channelOnRouting_log (s : State) (session : Nat) (env : JoinEnv) :
    (s.Refrains setting session env ∧ (channelOnRouting setting s session env).log = s.log) ∨
    (¬ s.Refrains setting session env ∧ ∃ request,
      (channelOnRouting setting s session env).log = s.log ++ [.sent session request]) := by
  unfold channelOnRouting
  split
  · next hearly => exact .inl ⟨.inl hearly, rfl⟩
  · next hearly =>
      split
      · next hgone =>
          -- the server of the leg is not there
          refine .inl ⟨.inr ?_, rfl⟩
          intro server hserver
          rw [hgone] at hserver
          cases hserver
      · next server hserver =>
          split
          · next hsend =>
              refine .inl ⟨.inr ?_, rfl⟩
              intro server' hserver'
              rw [hserver, Option.some.injEq] at hserver'
              subst hserver'
              exact (joinRequest_send_eq_none_iff setting).mp hsend
          · next request hsend =>
              refine .inr ⟨?_, request, rfl⟩
              rintro (h | h)
              · exact hearly h
              · have hnone := (joinRequest_send_eq_none_iff setting).mpr (h server hserver)
                rw [hsend] at hnone
                cases hnone

end Refraining

/-! ## Joins in the log -/

/-- A join of the leg has been accepted. -/
def Accepted (session : Nat) (log : List Entry) : Prop := .returned session .success ∈ log

def Entry.isAcceptance (session : Nat) : Entry → Bool
  | .returned session' result => session' = session && result = .success
  | .sent _ _ => false

theorem any_isAcceptance {session : Nat} {log : List Entry} :
    log.any (Entry.isAcceptance session) = true ↔ Accepted session log := by
  rw [List.any_eq_true]
  constructor
  · rintro ⟨e, hmem, he⟩
    cases e with
    | sent => cases he
    | returned session' result =>
        simp only [Entry.isAcceptance, Bool.and_eq_true, decide_eq_true_eq] at he
        obtain ⟨rfl, rfl⟩ := he
        exact hmem
  · intro hmem
    exact ⟨_, hmem, by simp [Entry.isAcceptance]⟩

instance (session : Nat) (log : List Entry) : Decidable (Accepted session log) :=
  decidable_of_iff _ any_isAcceptance

def Entry.IsJoin (session : Nat) : Entry → Prop
  | .sent session' _ => session' = session
  | .returned _ _ => False

/-- No join of the leg was sent after one was accepted. -/
def JoinedOnce (session : Nat) (log : List Entry) : Prop :=
  Log.Guarded (fun _ e => e.IsJoin session) (fun before => ¬ Accepted session before) log

/-! ## Runs -/

section Runs

variable (setting : Setting)

/-- The step is a routing callback that sends a second join for the leg. -/
def State.JoinsAgain (s : State) (session : Nat) (b : Step) : Prop :=
  ∃ env, b = .routing session env ∧ Accepted session s.log ∧ ¬ s.Refrains setting session env

/-- A step spoils the log only by joining again. -/
theorem step_joinedOnce {s s' : State} {b : Step} (h : step setting s b = some s')
    (session : Nat) :
    JoinedOnce session s'.log ↔
      JoinedOnce session s.log ∧ ¬ s.JoinsAgain setting session b := by
  cases b with
  | routing session' env =>
      cases h
      rcases channelOnRouting_log setting s session' env with ⟨hrefrains, hlog⟩ |
        ⟨hsends, request, hlog⟩
      · rw [hlog]
        refine (and_iff_left ?_).symm
        rintro ⟨env', heq, -, hnot⟩
        cases heq
        exact hnot hrefrains
      · rw [hlog, JoinedOnce, Log.guarded_concat]
        refine and_congr_right fun _ => ?_
        constructor
        · rintro hjoin ⟨env', heq, haccepted, -⟩
          cases heq
          exact hjoin rfl haccepted
        · -- the join is one of this leg, or of another
          intro hnot hsame haccepted
          cases (hsame : session' = session)
          exact hnot ⟨env, rfl, haccepted, hsends⟩
  | response session' pJsonResponse =>
      obtain ⟨pTransactionId, -, rfl⟩ := Option.map_eq_some_iff.mp h
      have hlog : (joinReturned s session' pTransactionId pJsonResponse).log =
          s.log ++ [.returned session' (apiJoinResult pTransactionId pJsonResponse)] := by
        unfold joinReturned
        dsimp only
        split <;> rfl
      rw [hlog, JoinedOnce, Log.guarded_concat]
      refine and_congr_right fun _ => iff_of_true ?_ ?_
      · intro hjoin
        exact absurd hjoin id
      · rintro ⟨env, heq, -⟩
        cases heq
  | input i =>
      obtain ⟨w, -, rfl⟩ := Option.map_eq_some_iff.mp h
      refine (and_iff_left ?_).symm
      rintro ⟨env, heq, -⟩
      cases heq
  | tables serverIdLookup senderIdLookups =>
      cases h
      refine (and_iff_left ?_).symm
      rintro ⟨env, heq, -⟩
      cases heq

/-- In a run that starts before the first join, no join of a leg is sent after one was
    accepted, exactly when every routing callback that comes after that finds the call
    in its early state, the server of the leg gone, or a join that cannot be sent. -/
theorem joined_once_iff (session : Nat) (s : State) (hstart : s.log = []) (steps : List Step)
    (s' : State) (hrun : exec (step setting) Always s steps = some s') :
    JoinedOnce session s'.log ↔
      ∀ before env later v, steps = before ++ .routing session env :: later →
        exec (step setting) Always s before = some v → Accepted session v.log →
        v.Refrains setting session env := by
  have hempty : JoinedOnce session s.log := by
    rw [hstart]
    exact Log.guarded_nil
  rw [exec_kept_iff (fun _ _ _ _ h => step_joinedOnce setting h session) hrun,
    and_iff_right hempty]
  constructor
  · intro hnever before env later v hsteps hv haccepted
    by_contra hnot
    exact hnever before _ later v hsteps hv ⟨env, rfl, haccepted, hnot⟩
  · rintro hrefrains before b later v hsteps hv ⟨env, rfl, haccepted, hnot⟩
    exact hnot (hrefrains before env later v hsteps hv haccepted)

end Runs

/-! ## Transfers -/

/-- FreeSWITCH moves the call state to ringing, early and active until the call is hung
    up. -/
structure Moves (move : CallState → ChannelOp → CallState) : Prop where
  ringing : ∀ callState, callState ≠ .hangup → move callState .markRingReady = .ringing
  early : ∀ callState, callState ≠ .hangup → move callState (.preAnswer true) = .early
  active : ∀ callState, callState ≠ .hangup → move callState (.answer true) = .active

/-- A call state that follows the handlers. -/
def freeSwitch : CallState → ChannelOp → CallState
  | .hangup, _ => .hangup
  | _, .hangup _ => .hangup
  | _, .markRingReady => .ringing
  | _, .preAnswer true => .early
  | _, .answer true => .active
  | callState, _ => callState

theorem freeSwitch_moves : Moves freeSwitch := by
  refine ⟨?_, ?_, ?_⟩
  all_goals
    intro callState h
    cases callState <;> first | rfl | exact absurd rfl h

/-- The legs of one server, on their way to room 1234. -/
def demoSetting : Setting where
  switchTrue := (· == some "true")
  move := freeSwitch
  servers := fun _ => tokenServer "http://a/janus" .http
  destinations := fun _ => ⟨1234, "MyName", "1234"⟩

/-- Leg 0 has the ids 1 and 2. -/
def demoState (answerOnWebrtcup : String) : State where
  world :=
    { serverIdLookup := hashInsert ∅ 1 0
      servers := fun _ => { senderIdLookup := hashInsert ∅ 2 0 }
      legs := fun _ =>
        { serverId := 1
          senderId := 2
          channelVars := fun name =>
            if name = "answer_on_webrtcup" then some answerOnWebrtcup else none } }

/-- No token is signed for these servers. -/
def demoEnv : JoinEnv := ⟨noHmac, 100, "t"⟩

/-- The leg joins, Janus answers its offer, and a transfer comes. -/
def transferRun : List Step :=
  [.routing 0 demoEnv,
    .response 0 (some (.object [("janus", .string "ack"), ("transaction", .string "t")])),
    .input (.event (ownJoinedEvent 1 2 1234 (.number (.ofInt 5))) {}),
    .input (.event (answerEvent 1 2 "a=candidate:1") {}),
    .routing 0 demoEnv]

def Step.isRouting (session : Nat) : Step → Bool
  | .routing session' _ => session' = session
  | _ => false

/-- The transfer of a leg that waits for `webrtcup` comes while it is early. -/
theorem joined_once_iff_early :
    ∃ s', exec (step demoSetting) Always (demoState "true") transferRun = some s' ∧
      Accepted 0 s'.log ∧ JoinedOnce 0 s'.log := by
  have hend : (exec (step demoSetting) Always (demoState "true") transferRun).any
      (fun s' => decide (Accepted 0 s'.log)) = true := by decide
  obtain ⟨s', hrun, haccepted⟩ := (Option.any_eq_true _ _).mp hend
  -- every callback but the first finds the leg early
  have hcheck : ∀ n < 5, transferRun[n]?.any (Step.isRouting 0) = true →
      (exec (step demoSetting) Always (demoState "true") (transferRun.take n)).all
        (fun v => decide (Accepted 0 v.log → v.callState 0 = .early)) = true := by decide
  refine ⟨s', hrun, of_decide_eq_true haccepted, ?_⟩
  refine (joined_once_iff demoSetting 0 (demoState "true") rfl transferRun s' hrun).mpr ?_
  intro before env later v hsteps hv hacc
  have hlt : before.length < 5 := by
    have hlen := congrArg List.length hsteps
    rw [List.length_append, List.length_cons] at hlen
    have hfive : transferRun.length = 5 := rfl
    omega
  have hearly := hcheck before.length hlt (by simp [hsteps, Step.isRouting])
  rw [hsteps, List.take_left, hv] at hearly
  exact .inl (of_decide_eq_true hearly hacc)

/-- The transfer of an answered leg joins the room a second time. -/
theorem joined_again_active :
    ¬ ∀ (setting : Setting) (session : Nat) (s : State), Moves setting.move → s.log = [] →
      ∀ steps s', exec (step setting) Always s steps = some s' → JoinedOnce session s'.log := by
  intro h
  have hend : (exec (step demoSetting) Always (demoState "false") (transferRun.take 4)).any
      (fun v => decide (v.callState 0 = .active ∧ Accepted 0 v.log ∧
        hashFind v.world.serverIdLookup (v.world.legs 0).serverId = some 0 ∧
        (requestUrl "http://a/janus" (v.world.legs 0).serverId (v.world.legs 0).senderId
          .handle).length < URL_SIZE)) = true := by decide
  obtain ⟨v, hv, hfacts⟩ := (Option.any_eq_true _ _).mp hend
  obtain ⟨hactive, haccepted, hserver, hfits⟩ := of_decide_eq_true hfacts
  have hstep : step demoSetting v (.routing 0 demoEnv) =
      some (channelOnRouting demoSetting v 0 demoEnv) := rfl
  have hrun : exec (step demoSetting) Always (demoState "false")
      (transferRun.take 4 ++ [.routing 0 demoEnv]) =
        some (channelOnRouting demoSetting v 0 demoEnv) :=
    exec_concat_eq_some.mpr ⟨v, hv, trivial, hstep⟩
  have hjoined := h demoSetting 0 (demoState "false") freeSwitch_moves rfl _ _ hrun
  -- nothing keeps the callback from joining
  refine ((step_joinedOnce demoSetting hstep 0).mp hjoined).2 ⟨demoEnv, rfl, haccepted, ?_⟩
  rintro (hearly | hunsendable)
  · rw [hactive] at hearly
    cases hearly
  · rcases hunsendable 0 hserver with ⟨pHmacSecret, hsecret, -⟩ | ⟨-, hlong⟩
    · cases hsecret
    · exact absurd hfits (Nat.not_lt.mpr hlong)

end Routing

end ModJanus
