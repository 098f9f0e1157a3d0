/-
  ModJanus.Leg.Handlers

  The handlers of mod_janus.c that the server thread passes to `apiPoll`, and
  `channel_read_frame`.

  A handler finds its leg through `globals.serverIdLookup` and the `senderIdLookup`
  of the server, works on its `private_t` and its channel, and touches no other leg.
  What FreeSWITCH and Janus answer meanwhile is an `Env`, one for each event or
  frame.  The calls that act on the channel are recorded in `ops`.  A C string is a
  `String` with one `Char` for a byte.
-/
import Mathlib.Data.List.Infix
import Mathlib.Logic.Function.Basic
import ModJanus.Api.Dispatch
import ModJanus.Hash
import ModJanus.Leg.Gate

namespace ModJanus

/-! ## Legs -/

/-- `JANUS_ANSWER_PARTICIPANT_TIMEOUT_MS_DEFAULT`. -/
def JANUS_ANSWER_PARTICIPANT_TIMEOUT_MS_DEFAULT : Int := 10000

/-- The size of the SDP buffer of `proceed`. -/
def SDP_SIZE : Nat := 4096

/-- The causes that the handlers hang up with. -/
inductive Cause where
  | networkOutOfOrder
  | mediaTimeout
  | normalClearing
  deriving DecidableEq, Repr

inductive ChannelFlag where
  | audio
  | passRfc2833
  deriving DecidableEq, Repr

/-- A `configure` request, with what it says about the leg. -/
structure Configure where
  serverId : JanusId
  senderId : JanusId
  startMuted : Bool
  userRecord : Bool
  userRecordFile : Option String
  sdp : String
  callId : String
  deriving DecidableEq, Repr

/-- What a handler does to a channel, with the answer it gets. -/
inductive ChannelOp where
  | setFlag (flag : ChannelFlag)
  | addIceAcl (acl : String)
  | choosePorts (ok : Bool)
  | configure (request : Configure) (ok : Bool)
  | markRingReady
  | negotiateSdp (sdp : String) (ok : Bool)
  | activateRtp (ok : Bool)
  | preAnswer (ok : Bool)
  | markPreAnswered
  | answer (ok : Bool)
  | markAnswered
  | hangup (cause : Cause)
  deriving DecidableEq, Repr

def ChannelOp.isAnswer : ChannelOp → Bool
  | .answer _ => true
  | _ => false

/-- `private_t` and the channel of a leg. -/
structure Leg where
  serverId : JanusId := 0
  senderId : JanusId := 0
  callId : String := ""
  pSdpBody : Option String := none
  pSdpCandidates : Option String := none
  isTrickleComplete : Bool := false
  gate : Gate := {}
  /-- `mparams.te` and `mparams.recv_te`. -/
  te : Option Nat := none
  /-- `switch_channel_get_variable`. -/
  channelVars : String → Option String := fun _ => none
  ops : List ChannelOp := []

/-- What the handlers read of a `server_t`. -/
structure LegServer where
  senderIdLookup : Hash Nat := ∅
  codecString : Option String := none
  candAcl : List String := []

/-- Servers and legs are known by their index. -/
structure World where
  serverIdLookup : Hash Nat := ∅
  servers : Nat → LegServer := fun _ => {}
  legs : Nat → Leg := fun _ => {}

/-- What is outside the module while one event is handled, or one frame read. -/
structure Env where
  /-- `switch_time_now`, in microseconds. -/
  now : Int := 0
  /-- The variables of the partner's channel, if the leg has a partner. -/
  partner : Option (String → Option String) := none
  choosePorts : Bool := true
  /-- `mparams.local_sdp_str` once it has been generated. -/
  localSdp : String := ""
  configure : Bool := true
  negotiateSdp : Bool := true
  activateRtp : Bool := true
  preAnswer : Bool := true
  answer : Bool := true

namespace Leg

def op (leg : Leg) (o : ChannelOp) : Leg := { leg with ops := leg.ops ++ [o] }

/-- `switch_channel_set_variable`; a null value removes the variable. -/
def setVariable (leg : Leg) (name : String) (value : Option String) : Leg :=
  { leg with channelVars := Function.update leg.channelVars name value }

/-- How often `switch_channel_answer` was invoked. -/
def answers (leg : Leg) : Nat := leg.ops.countP ChannelOp.isAnswer

end Leg

/-! ## C library -/

/-- The digits at the front of a string, as a number. -/
def digitsValue (s : List Char) : Nat :=
  (s.takeWhile Char.isDigit).foldl (fun n c => 10 * n + (c.toNat - '0'.toNat)) 0

/-- `atoi`: blanks, a sign, digits, and whatever follows them. -/
def atoi (s : String) : Int :=
  match s.toList.dropWhile Char.isWhitespace with
  | '-' :: rest => -digitsValue rest
  | '+' :: rest => digitsValue rest
  | rest => digitsValue rest

/-- `strstr(s, part) != NULL`. -/
def strstr (s part : String) : Bool := decide (part.toList <:+: s.toList)

/-- `strncat(dest, src, n)`. -/
def strncat (dest src : String) (n : Nat) : String := dest ++ String.ofList (src.toList.take n)

/-! ## `joined` -/

section Handlers

-- `switch_true` of FreeSWITCH, through which `switch_channel_var_true` reads a
-- variable too
variable (switchTrue : Option String → Bool)

namespace Leg

/-- `switch_channel_var_true`. -/
def varTrue (leg : Leg) (name : String) : Bool := switchTrue (leg.channelVars name)

/-- The timeout of the answer gate in milliseconds. -/
def answerTimeoutMs (leg : Leg) : Int :=
  let timeoutMs :=
    match leg.channelVars "janus-answer-participant-timeout-ms" with
    | some pTimeout => atoi pTimeout
    | none => 0
  if timeoutMs ≤ 0 then JANUS_ANSWER_PARTICIPANT_TIMEOUT_MS_DEFAULT else timeoutMs

/-- The first branch of `joined`. -/
def armGate (env : Env) (leg : Leg) : Leg :=
  if leg.varTrue switchTrue "janus-answer-on-participant-ready" then
    { leg with gate := leg.gate.arm (env.now + leg.answerTimeoutMs * 1000) }
  else leg

/-- Ask for telephone-event, and let DTMF through. -/
def passDtmf (leg : Leg) : Leg := { leg with te := some 101 }.op (.setFlag .passRfc2833)

/-- `joined`: the codec and the DTMF type of the leg. -/
def chooseCodec (env : Env) (pServer : LegServer) (leg : Leg) : Leg :=
  let bridged := leg.varTrue switchTrue "janus-use-bridged-channel-codec"
  match env.partner with
  | some partner =>
      if bridged then
        -- the codec's name is looked up as if it were the name of a variable
        (leg.passDtmf.setVariable "dtmf_type" (partner "dtmf_type")).setVariable
          "absolute_codec_string" ((partner "ep_codec_string").bind partner)
      else leg.setVariable "absolute_codec_string" pServer.codecString
  | none => if bridged then leg.passDtmf.setVariable "dtmf_type" (some "rfc2833") else leg

/-- `joined` from the ports on: the offer goes to Janus. -/
def offer (env : Env) (leg : Leg) : Status × Leg :=
  let leg := leg.op (.choosePorts env.choosePorts)
  if !env.choosePorts then (.false, leg.op (.hangup .networkOutOfOrder))
  else
    let request : Configure := {
      serverId := leg.serverId
      senderId := leg.senderId
      startMuted := leg.varTrue switchTrue "janus-start-muted"
      userRecord := leg.varTrue switchTrue "janus-user-record"
      userRecordFile := leg.channelVars "janus-user-record-file"
      sdp := env.localSdp
      callId := leg.callId }
    let leg := leg.op (.configure request env.configure)
    -- a request that fails hangs up and then carries on
    let leg := if env.configure then leg else leg.op (.hangup .networkOutOfOrder)
    (.success, leg.op .markRingReady)

def joined (env : Env) (pServer : LegServer) (leg : Leg) : Status × Leg :=
  let leg := leg.armGate switchTrue env
  let leg := (leg.setVariable "media_webrtc" (some "true")).op (.setFlag .audio)
  let leg := leg.chooseCodec switchTrue env pServer
  let leg := pServer.candAcl.foldl (fun leg acl => leg.op (.addIceAcl acl)) leg
  leg.offer switchTrue env

/-! ## `accepted` and `trickle` -/

/-- The SDP that `proceed` puts together. -/
def sdp (pSdpBody : String) (pSdpCandidates : Option String) : String :=
  let sdp := strncat "" pSdpBody (SDP_SIZE - 1)
  match pSdpCandidates with
  | some candidates => strncat sdp candidates (SDP_SIZE - 1)
  | none => sdp

/-- `proceed` once the SDP has been dealt with. -/
def doPreAnswer (env : Env) (leg : Leg) : Status × Leg :=
  let leg := leg.op (.preAnswer env.preAnswer)
  if env.preAnswer then (.success, leg.op .markPreAnswered) else (.false, leg)

def proceed (env : Env) (leg : Leg) : Status × Leg :=
  match leg.pSdpBody with
  | none => (.false, leg.op (.hangup .networkOutOfOrder))
  | some pSdpBody =>
      let leg := leg.op (.negotiateSdp (sdp pSdpBody leg.pSdpCandidates) env.negotiateSdp)
      if env.negotiateSdp then
        let leg := leg.op (.activateRtp env.activateRtp)
        if env.activateRtp then leg.doPreAnswer env
        else (.false, leg.op (.hangup .networkOutOfOrder))
      else
        -- the leg is hung up, but goes on to the pre-answer
        (leg.op (.hangup .mediaTimeout)).doPreAnswer env

def accepted (env : Env) (pSdp : String) (leg : Leg) : Status × Leg :=
  let leg := { leg with pSdpBody := some pSdp }
  let isTrickling := !strstr pSdp "a=candidate:"
  if !isTrickling || leg.isTrickleComplete then leg.proceed env else (.success, leg)

def trickle (env : Env) (pCandidate : Option String) (leg : Leg) : Status × Leg :=
  let candidates := leg.pSdpCandidates.getD ""
  if pCandidate.getD "" = "" then
    let leg := { leg with
      isTrickleComplete := true
      pSdpCandidates := some (candidates ++ "a=end-of-candidates\r\n") }
    if leg.pSdpBody.isSome then leg.proceed env else (.success, leg)
  else
    (.success,
      { leg with pSdpCandidates := some (candidates ++ "a=" ++ pCandidate.getD "" ++ "\r\n") })

/-! ## The answer -/

def answerOnWebrtcup (leg : Leg) : Bool := switchTrue (leg.channelVars "answer_on_webrtcup")

def answered (env : Env) (leg : Leg) : Status × Leg :=
  let (gate, now) := leg.gate.answered
  let leg := { leg with gate := gate }
  if !now then (.success, leg)
  else
    let leg := leg.op (.answer env.answer)
    if env.answer then (.success, leg.op .markAnswered) else (.false, leg)

def hungup (leg : Leg) : Status × Leg := (.success, leg.op (.hangup .normalClearing))

end Leg

/-! ## Finding the leg -/

namespace World

/-- The server and the leg that the two lookups lead to. -/
def find (w : World) (serverId senderId : JanusId) : Option (LegServer × Nat) :=
  match hashFind w.serverIdLookup serverId with
  | none => none
  | some server =>
      (hashFind (w.servers server).senderIdLookup senderId).map fun session =>
        (w.servers server, session)

def setLeg (w : World) (session : Nat) (leg : Leg) : World :=
  { w with legs := Function.update w.legs session leg }

/-- A handler that works on one leg. -/
def onLeg (w : World) (serverId senderId : JanusId) (f : LegServer → Leg → Status × Leg) :
    Status × World :=
  match w.find serverId senderId with
  | none => (.notFound, w)
  | some (pServer, session) =>
      let (status, leg) := f pServer (w.legs session)
      (status, w.setLeg session leg)

end World

/-! ## The handlers -/

def answered (env : Env) (serverId senderId : JanusId) (w : World) : Status × World :=
  w.onLeg serverId senderId fun _ leg => leg.answered env

/-- `participant`: the critical section, and the answer that it may release. -/
def participant (env : Env) (serverId senderId : JanusId) (pParticipantIdStr : String)
    (isSelf setup : Bool) (w : World) : Status × World :=
  if isSelf then
    w.onLeg serverId senderId fun _ leg =>
      (.success, { leg with gate := leg.gate.participantSelf pParticipantIdStr })
  else
    match w.find serverId senderId with
    | none => (.notFound, w)
    | some (_, session) =>
        let leg := w.legs session
        let (gate, shouldAnswer) := leg.gate.participantRemote pParticipantIdStr setup
        let w := w.setLeg session { leg with gate := gate }
        if shouldAnswer then answered env serverId senderId w else (.success, w)

def answerOnWebrtcup (serverId senderId : JanusId) (w : World) : Bool :=
  match w.find serverId senderId with
  | none => false
  | some (_, session) => (w.legs session).answerOnWebrtcup switchTrue

/-- The handlers that `server_thread_run` passes to `apiPoll`. -/
def handlers (env : Env) : Handlers World where
  joined serverId senderId _roomId _participantId w :=
    w.onLeg serverId senderId fun pServer leg => leg.joined switchTrue env pServer
  accepted serverId senderId pSdp w :=
    w.onLeg serverId senderId fun _ leg => leg.accepted env pSdp
  trickle serverId senderId pCandidate w :=
    w.onLeg serverId senderId fun _ leg => leg.trickle env pCandidate
  answerOnWebrtcup := some fun serverId senderId w =>
    answerOnWebrtcup switchTrue serverId senderId w
  answered serverId senderId w := answered env serverId senderId w
  hungup serverId senderId _pReason w := w.onLeg serverId senderId fun _ leg => leg.hungup
  participant := some fun serverId senderId pParticipantIdStr isSelf setup w =>
    participant env serverId senderId pParticipantIdStr isSelf setup w

/-- `channel_read_frame` up to the read itself: the answer once the deadline of the
    gate has passed. -/
def channelReadFrame (env : Env) (session : Nat) (w : World) : World :=
  let leg := w.legs session
  if leg.gate.due env.now then
    let w := w.setLeg session { leg with gate := leg.gate.deadlinePassed }
    (answered env leg.serverId leg.senderId w).2
  else w

end Handlers

end ModJanus
