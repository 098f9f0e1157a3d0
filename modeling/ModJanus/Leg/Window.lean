/-
  ModJanus.Leg.Window

  How long a gated leg waits for a remote participant.

  `joined` stores the end of the wait, counted from its own clock reading; `answered`
  notes that the answer was asked for; and `channel_read_frame` answers once the stored
  end has passed.  A run is followed by two clock readings, that of the last own
  `joined` event and that of the request that was deferred (`Times`), and the stored
  end is always the first of them plus the timeout (`Clocked`).
-/
import ModJanus.Leg.GateRun

namespace ModJanus

/-! ## Clock readings of a run -/

/-- The clock reading at which an input is dealt with. -/
def Input.now : Input → Int
  | .event _ env => env.now
  | .frame _ env => env.now

/-- The call is `joined` for the leg. -/
def HandlerCall.joins (w : World) (session : Nat) : HandlerCall → Bool
  | .joined serverId senderId _ _ => decide (w.Reaches session serverId senderId)
  | _ => false

/-- The input calls `joined` for the leg. -/
def Input.joins (w : World) (session : Nat) : Input → Bool
  | .event pEvent _ =>
      match pollEventCalls pEvent with
      | .ok calls => calls.any (HandlerCall.joins w session)
      | .error _ => false
  | .frame _ _ => false

/-- When the leg joined last, and when its answer was first asked for and deferred. -/
structure Times where
  joined : Option Int := none
  deferred : Option Int := none
  deriving DecidableEq, Repr

/-- The times after an input that made `w'` of the world. -/
def Times.input (session : Nat) (w w' : World) (i : Input) (times : Times) : Times where
  joined := if i.joins w session then some i.now else times.joined
  deferred :=
    if (w'.legs session).gate.answerRequested && !(w.legs session).gate.answerRequested then
      some i.now
    else times.deferred

section Window

variable (switchTrue : Option String → Bool)

/-- The world after a sequence of inputs, with the times of a leg. -/
def World.timed (session : Nat) (w : World) (times : Times) :
    List Input → Except Fault (World × Times)
  | [] => .ok (w, times)
  | i :: rest =>
      match w.input switchTrue i with
      | .ok v => v.timed session (times.input session w v i) rest
      | .error fault => .error fault

/-- The fallback of `channel_read_frame` answers the leg. -/
def FallsBack (w : World) (session : Nat) (env : Env) : Prop :=
  ((channelReadFrame env session w).legs session).answers ≠ (w.legs session).answers

instance (w : World) (session : Nat) (env : Env) : Decidable (FallsBack w session env) :=
  inferInstanceAs (Decidable (_ ≠ _))

/-! ## What the handlers do to the window -/

namespace Leg

/-- The window of the leg is the same, and a request for its answer is not forgotten. -/
structure SameWindow (leg leg' : Leg) : Prop where
  answerGate : leg'.gate.answerGate = leg.gate.answerGate
  answerDeadline : leg'.gate.answerDeadline = leg.gate.answerDeadline
  answerRequested : leg.gate.answerRequested = true → leg'.gate.answerRequested = true
  gateVar : leg'.channelVars "janus-answer-on-participant-ready" =
    leg.channelVars "janus-answer-on-participant-ready"
  timeoutVar : leg'.channelVars "janus-answer-participant-timeout-ms" =
    leg.channelVars "janus-answer-participant-timeout-ms"

namespace SameWindow

theorem refl (leg : Leg) : SameWindow leg leg := ⟨rfl, rfl, id, rfl, rfl⟩

theorem trans {a b c : Leg} (h : SameWindow a b) (h' : SameWindow b c) : SameWindow a c :=
  ⟨h'.answerGate.trans h.answerGate, h'.answerDeadline.trans h.answerDeadline,
    fun hrequested => h'.answerRequested (h.answerRequested hrequested),
    h'.gateVar.trans h.gateVar, h'.timeoutVar.trans h.timeoutVar⟩

/-- Whatever is neither in the gate nor one of its two variables. -/
theorem of_eq {leg leg' : Leg} (hgate : leg'.gate = leg.gate)
    (hvars : leg'.channelVars = leg.channelVars) : SameWindow leg leg' :=
  ⟨by rw [hgate], by rw [hgate], by rw [hgate]; exact id, by rw [hvars], by rw [hvars]⟩

variable {leg leg' : Leg} (h : SameWindow leg leg')

include h

theorem op (o : ChannelOp) : SameWindow leg (leg'.op o) := h.trans (of_eq rfl rfl)

theorem setVariable {name : String} (hgate : name ≠ "janus-answer-on-participant-ready")
    (htimeout : name ≠ "janus-answer-participant-timeout-ms") (value : Option String) :
    SameWindow leg (leg'.setVariable name value) := by
  have hgate := Function.update_of_ne hgate.symm value leg'.channelVars
  have htimeout := Function.update_of_ne htimeout.symm value leg'.channelVars
  exact h.trans ⟨rfl, rfl, id, hgate, htimeout⟩

theorem answerTimeoutMs : leg'.answerTimeoutMs = leg.answerTimeoutMs := by
  unfold Leg.answerTimeoutMs
  rw [h.timeoutVar]

theorem doPreAnswer (env : Env) : SameWindow leg (leg'.doPreAnswer env).2 := by
  unfold Leg.doPreAnswer
  dsimp only
  split
  · exact (h.op _).op _
  · exact h.op _

theorem proceed (env : Env) : SameWindow leg (leg'.proceed env).2 := by
  unfold Leg.proceed
  split
  · exact h.op _
  · dsimp only
    split
    · split
      · exact ((h.op _).op _).doPreAnswer env
      · exact ((h.op _).op _).op _
    · exact ((h.op _).op _).doPreAnswer env

theorem accepted (env : Env) (pSdp : String) : SameWindow leg (leg'.accepted env pSdp).2 := by
  have hbody : SameWindow leg { leg' with pSdpBody := some pSdp } := h.trans (of_eq rfl rfl)
  unfold Leg.accepted
  dsimp only
  split
  · exact hbody.proceed env
  · exact hbody

theorem trickle (env : Env) (pCandidate : Option String) :
    SameWindow leg (leg'.trickle env pCandidate).2 := by
  unfold Leg.trickle
  dsimp only
  split
  · split
    · refine proceed ?_ env
      exact h.trans (of_eq rfl rfl)
    · exact h.trans (of_eq rfl rfl)
  · exact h.trans (of_eq rfl rfl)

theorem answered (env : Env) : SameWindow leg (leg'.answered env).2 := by
  refine h.trans ?_
  have hgate := leg'.answered_gate env
  have hvars : (leg'.answered env).2.channelVars = leg'.channelVars := by
    unfold Leg.answered
    dsimp only
    split
    · rfl
    · split <;> rfl
  have hsection : leg'.gate.answered.1.answerGate = leg'.gate.answerGate ∧
      leg'.gate.answered.1.answerDeadline = leg'.gate.answerDeadline ∧
      (leg'.gate.answerRequested = true → leg'.gate.answered.1.answerRequested = true) := by
    rcases leg'.gate.answered_cases with ⟨-, h⟩ | ⟨-, -, -, h⟩ | ⟨-, -, h⟩
    · rw [h]
      exact ⟨rfl, rfl, id⟩
    · rw [h]
      exact ⟨rfl, rfl, fun _ => rfl⟩
    · rw [h]
      exact ⟨rfl, rfl, id⟩
  rw [← hgate] at hsection
  exact ⟨hsection.1, hsection.2.1, hsection.2.2, by rw [hvars], by rw [hvars]⟩

theorem passDtmf : SameWindow leg leg'.passDtmf := by
  refine op ?_ _
  exact h.trans (of_eq rfl rfl)

theorem candAcl (acls : List String) :
    SameWindow leg (acls.foldl (fun leg acl => leg.op (.addIceAcl acl)) leg') := by
  induction acls generalizing leg' with
  | nil => exact h
  | cons acl acls ih =>
      apply ih
      exact h.op _

theorem chooseCodec (env : Env) (pServer : LegServer) :
    SameWindow leg (leg'.chooseCodec switchTrue env pServer) := by
  have hdtmf : ∀ {leg' : Leg}, SameWindow leg leg' → ∀ value,
      SameWindow leg (leg'.setVariable "dtmf_type" value) :=
    fun h value => h.setVariable (by decide) (by decide) value
  have hcodec : ∀ {leg' : Leg}, SameWindow leg leg' → ∀ value,
      SameWindow leg (leg'.setVariable "absolute_codec_string" value) :=
    fun h value => h.setVariable (by decide) (by decide) value
  unfold Leg.chooseCodec
  dsimp only
  split
  · split
    · exact hcodec (hdtmf h.passDtmf _) _
    · exact hcodec h _
  · split
    · exact hdtmf h.passDtmf _
    · exact h

theorem offer (env : Env) : SameWindow leg (leg'.offer switchTrue env).2 := by
  unfold Leg.offer
  dsimp only
  split
  · exact (h.op _).op _
  · split
    · exact ((h.op _).op _).op _
    · exact (((h.op _).op _).op _).op _

end SameWindow

/-- After it has armed the gate, `joined` leaves the window alone. -/
theorem joined_sameWindow (env : Env) (pServer : LegServer) (leg : Leg) :
    SameWindow (leg.armGate switchTrue env) (leg.joined switchTrue env pServer).2 := by
  unfold joined
  dsimp only
  apply SameWindow.offer
  apply SameWindow.candAcl
  apply SameWindow.chooseCodec
  exact ((SameWindow.refl _).setVariable (by decide) (by decide) _).op _

/-- What `joined` does to the gate of its leg; other calls do nothing to it. -/
def rearmed (env : Env) (joins : Bool) (leg : Leg) : Leg :=
  if joins then leg.armGate switchTrue env else leg

theorem armGate_channelVars (env : Env) (leg : Leg) :
    (leg.armGate switchTrue env).channelVars = leg.channelVars := by
  unfold armGate
  split <;> rfl

theorem armGate_answerRequested (env : Env) (leg : Leg) :
    (leg.armGate switchTrue env).gate.answerRequested = leg.gate.answerRequested := by
  unfold armGate
  split <;> rfl

/-- Two gates that are armed at the same time for the same timeout have one window,
    whatever was in them before. -/
theorem SameWindow.armGate (env : Env) {leg leg' : Leg}
    (h : SameWindow leg leg' ∨ SameWindow (leg.armGate switchTrue env) leg') :
    SameWindow (leg.armGate switchTrue env) (leg'.armGate switchTrue env) := by
  have hvars := armGate_channelVars switchTrue env leg
  have hrequested := armGate_answerRequested switchTrue env leg
  by_cases hvar : leg.varTrue switchTrue "janus-answer-on-participant-ready" = true
  · have hsame : leg'.channelVars "janus-answer-on-participant-ready" =
          leg.channelVars "janus-answer-on-participant-ready" ∧
        leg'.channelVars "janus-answer-participant-timeout-ms" =
          leg.channelVars "janus-answer-participant-timeout-ms" ∧
        (leg.gate.answerRequested = true → leg'.gate.answerRequested = true) := by
      rcases h with h | h
      · exact ⟨h.gateVar, h.timeoutVar, h.answerRequested⟩
      · rw [← hvars, ← hrequested]
        exact ⟨h.gateVar, h.timeoutVar, h.answerRequested⟩
    obtain ⟨hgateVar, htimeoutVar, hkeeps⟩ := hsame
    have hvar' : leg'.varTrue switchTrue "janus-answer-on-participant-ready" = true := by
      rw [varTrue, hgateVar]
      exact hvar
    have htimeout : leg'.answerTimeoutMs = leg.answerTimeoutMs := by
      unfold Leg.answerTimeoutMs
      rw [htimeoutVar]
    unfold Leg.armGate
    rw [if_pos hvar, if_pos hvar', htimeout]
    exact ⟨rfl, rfl, hkeeps, hgateVar, htimeoutVar⟩
  · -- without the variable nothing is armed
    have hleg : leg.armGate switchTrue env = leg := if_neg hvar
    have h : SameWindow leg leg' := by
      rcases h with h | h
      · exact h
      · rwa [hleg] at h
    have hleg' : leg'.armGate switchTrue env = leg' := by
      refine if_neg ?_
      rw [varTrue, h.gateVar]
      exact hvar
    rw [hleg, hleg']
    exact h

theorem SameWindow.rearmed (env : Env) {joins : Bool} {leg leg' : Leg}
    (h : SameWindow (leg.rearmed switchTrue env joins) leg') (again : Bool) :
    SameWindow (leg.rearmed switchTrue env (joins || again))
      (leg'.rearmed switchTrue env again) := by
  cases again with
  | false =>
      rw [Bool.or_false]
      exact h
  | true =>
      rw [Bool.or_true]
      cases joins with
      | false => exact SameWindow.armGate switchTrue env (.inl h)
      | true => exact SameWindow.armGate switchTrue env (.inr h)

end Leg

/-! ## Calls and inputs -/

/-- What ids lead to is not changed by a call. -/
theorem run_joins (env : Env) (w : World) (session : Nat) (c c' : HandlerCall) :
    c'.joins (c.run (handlers switchTrue env) w) session = c'.joins w session := by
  have hreaches : ∀ serverId senderId, (c.run (handlers switchTrue env) w).Reaches session
      serverId senderId ↔ w.Reaches session serverId senderId := by
    intro serverId senderId
    rw [World.Reaches, run_find, ← World.Reaches]
  cases c' with
  | joined => exact decide_eq_decide.mpr (hreaches _ _)
  | _ => rfl

theorem onLeg_sameWindow {w : World} {session : Nat} {serverId senderId : JanusId}
    {f : LegServer → Leg → Status × Leg}
    (hf : ∀ pServer leg, Leg.SameWindow leg (f pServer leg).2) :
    Leg.SameWindow (w.legs session) ((w.onLeg serverId senderId f).2.legs session) := by
  by_cases hreach : w.Reaches session serverId senderId
  · obtain ⟨pServer, hfind⟩ := hreach.find
    rw [World.onLeg_reached hfind]
    exact hf pServer _
  · rw [World.onLeg_unreached hreach]
    exact .refl _

theorem answered_sameWindow (env : Env) (w : World) (session : Nat)
    (serverId senderId : JanusId) :
    Leg.SameWindow (w.legs session)
      ((ModJanus.answered env serverId senderId w).2.legs session) :=
  onLeg_sameWindow fun _ leg => (Leg.SameWindow.refl leg).answered env

theorem setLeg_sameWindow {w : World} (session other : Nat) {leg : Leg}
    (h : Leg.SameWindow (w.legs other) leg) :
    Leg.SameWindow (w.legs session) ((w.setLeg other leg).legs session) := by
  by_cases hsame : session = other
  · subst hsame
    rw [World.setLeg_self]
    exact h
  · rw [World.setLeg_ne w hsame]
    exact .refl _

theorem participantRemote_sameWindow (leg : Leg) (id : String) (setup : Bool) :
    Leg.SameWindow leg { leg with gate := (leg.gate.participantRemote id setup).1 } := by
  rcases leg.gate.participantRemote_cases id setup with hsection | ⟨-, -, -, -, hsection⟩
  · rw [hsection]
    exact .refl _
  · rw [hsection]
    exact ⟨rfl, rfl, fun h => h, rfl, rfl⟩

/-- A call other than `joined` for the leg leaves its window alone, and `joined` arms
    its gate. -/
theorem run_window (env : Env) (w : World) (session : Nat) (c : HandlerCall) :
    Leg.SameWindow ((w.legs session).rearmed switchTrue env (c.joins w session))
      ((c.run (handlers switchTrue env) w).legs session) := by
  cases c with
  | joined serverId senderId roomId participantId =>
      by_cases hreach : w.Reaches session serverId senderId
      · have hjoins : (HandlerCall.joined serverId senderId roomId participantId).joins w session =
            true := decide_eq_true hreach
        obtain ⟨pServer, hfind⟩ := hreach.find
        have hleg := World.onLeg_reached hfind fun pServer leg =>
          leg.joined switchTrue env pServer
        rw [hjoins]
        exact hleg ▸ Leg.joined_sameWindow switchTrue env pServer (w.legs session)
      · have hjoins : (HandlerCall.joined serverId senderId roomId participantId).joins w session =
            false := decide_eq_false hreach
        have hleg := World.onLeg_unreached hreach fun pServer leg =>
          leg.joined switchTrue env pServer
        rw [hjoins]
        exact hleg ▸ .refl _
  | accepted serverId senderId pSdp =>
      exact onLeg_sameWindow fun _ leg => (Leg.SameWindow.refl leg).accepted env pSdp
  | trickle serverId senderId pCandidate =>
      exact onLeg_sameWindow fun _ leg => (Leg.SameWindow.refl leg).trickle env pCandidate
  -- the leg is answered at once, or later
  | answeredOnWebrtcup serverId senderId =>
      rw [run_answeredOnWebrtcup]
      split
      · exact answered_sameWindow env w session serverId senderId
      · exact .refl _
  | answeredOnAccept serverId senderId =>
      rw [run_answeredOnAccept]
      split
      · exact .refl _
      · exact answered_sameWindow env w session serverId senderId
  | hungup serverId senderId pReason =>
      exact onLeg_sameWindow fun _ leg => (Leg.SameWindow.refl leg).op _
  | participant serverId senderId id isSelf setup =>
      rw [run_participant, participant]
      split
      · exact onLeg_sameWindow fun _ leg => ⟨rfl, rfl, fun h => h, rfl, rfl⟩
      · -- somebody else may complete the condition
        split
        · exact .refl _
        · next pServer other hfind =>
            have hset := setLeg_sameWindow session other
              (participantRemote_sameWindow (w.legs other) id setup)
            dsimp only
            split
            · exact hset.trans (answered_sameWindow env _ session serverId senderId)
            · exact hset

/-- The calls of an event arm the gate of a leg if one of them is `joined` for it. -/
theorem calls_window (env : Env) (session : Nat) (calls : List HandlerCall) (w : World)
    {leg : Leg} {joins : Bool}
    (h : Leg.SameWindow (leg.rearmed switchTrue env joins) (w.legs session)) :
    Leg.SameWindow
      (leg.rearmed switchTrue env (joins || calls.any (HandlerCall.joins w session)))
      ((calls.foldl (HandlerCall.run (handlers switchTrue env)) w).legs session) := by
  induction calls generalizing w joins with
  | nil =>
      rw [List.any_nil, Bool.or_false]
      exact h
  | cons c calls ih =>
      have hhead := (h.rearmed switchTrue env (c.joins w session)).trans
        (run_window switchTrue env w session c)
      have hrest := ih (c.run (handlers switchTrue env) w) hhead
      have hjoins : HandlerCall.joins (c.run (handlers switchTrue env) w) session =
          HandlerCall.joins w session := funext (run_joins switchTrue env w session c)
      rw [hjoins] at hrest
      rw [List.any_cons, ← Bool.or_assoc, List.foldl_cons]
      exact hrest

/-- A frame arms nothing. -/
theorem channelReadFrame_window (env : Env) (w : World) (session reader : Nat) :
    Leg.SameWindow (w.legs session) ((channelReadFrame env reader w).legs session) := by
  unfold channelReadFrame
  dsimp only
  split
  · have hset : Leg.SameWindow (w.legs session) ((w.setLeg reader { w.legs reader with
        gate := (w.legs reader).gate.deadlinePassed }).legs session) :=
      setLeg_sameWindow session reader ⟨rfl, rfl, id, rfl, rfl⟩
    exact hset.trans (answered_sameWindow env _ session _ _)
  · exact .refl _

/-- What an input does to the window of a leg. -/
theorem input_window {w w' : World} {i : Input} (h : w.input switchTrue i = .ok w')
    (session : Nat) :
    ∃ env, env.now = i.now ∧ Leg.SameWindow
      ((w.legs session).rearmed switchTrue env (i.joins w session)) (w'.legs session) := by
  cases i with
  | event pEvent env =>
      obtain ⟨calls, hcalls, rfl⟩ := dispatch_eq_ok switchTrue h
      have hwindow := calls_window switchTrue env session calls w
        (Leg.SameWindow.refl ((w.legs session).rearmed switchTrue env false))
      rw [Bool.false_or] at hwindow
      refine ⟨env, rfl, ?_⟩
      simpa only [Input.joins, hcalls] using hwindow
  | frame reader env =>
      cases h
      exact ⟨env, rfl, channelReadFrame_window env w session reader⟩

/-! ## The stored end of the window -/

/-- The times agree with the gate of a leg that waits for `timeoutMs`. -/
structure Clocked (timeoutMs : Int) (leg : Leg) (times : Times) : Prop where
  gateVar : leg.varTrue switchTrue "janus-answer-on-participant-ready" = true
  timeout : leg.answerTimeoutMs = timeoutMs
  notJoined : times.joined = none → leg.gate.answerGate = false
  answerDeadline : ∀ joined, times.joined = some joined →
    leg.gate.answerGate = true ∧ leg.gate.answerDeadline = joined + timeoutMs * 1000
  deferred : leg.gate.answerRequested = true ↔ times.deferred.isSome = true

theorem Clocked.input {w w' : World} {i : Input} {session : Nat} {timeoutMs : Int} {times : Times}
    (h : Clocked switchTrue timeoutMs (w.legs session) times)
    (hw : w.input switchTrue i = .ok w') :
    Clocked switchTrue timeoutMs (w'.legs session) (times.input session w w' i) := by
  obtain ⟨env, hnow, hwindow⟩ := input_window switchTrue hw session
  have hvars : ((w.legs session).rearmed switchTrue env (i.joins w session)).channelVars =
      (w.legs session).channelVars := by
    unfold Leg.rearmed
    split
    · exact Leg.armGate_channelVars switchTrue env _
    · rfl
  have hkeeps : (w.legs session).gate.answerRequested = true →
      (w'.legs session).gate.answerRequested = true := by
    intro hrequested
    apply hwindow.answerRequested
    unfold Leg.rearmed
    split
    · rw [Leg.armGate_answerRequested]
      exact hrequested
    · exact hrequested
  refine ⟨?_, ?_, ?_, ?_, ?_⟩
  · rw [Leg.varTrue, hwindow.gateVar, hvars]
    exact h.gateVar
  · rw [hwindow.answerTimeoutMs, Leg.answerTimeoutMs, hvars]
    exact h.timeout
  · intro hnone
    cases hjoins : i.joins w session with
    | true => simp [Times.input, hjoins] at hnone
    | false =>
        simp only [Times.input, hjoins, Bool.false_eq_true, if_false] at hnone
        rw [hwindow.answerGate, hjoins]
        exact h.notJoined hnone
  · intro joined hjoined
    cases hjoins : i.joins w session with
    | true =>
        -- the gate has just been armed
        simp only [Times.input, hjoins, if_true, Option.some.injEq] at hjoined
        rw [hwindow.answerGate, hwindow.answerDeadline, hjoins, Leg.rearmed, if_pos rfl,
          Leg.armGate, if_pos h.gateVar, h.timeout, hnow, hjoined]
        exact ⟨rfl, rfl⟩
    | false =>
        simp only [Times.input, hjoins, Bool.false_eq_true, if_false] at hjoined
        rw [hwindow.answerGate, hwindow.answerDeadline, hjoins]
        exact h.answerDeadline joined hjoined
  · have hbefore := h.deferred
    unfold Times.input
    dsimp only
    cases hold : (w.legs session).gate.answerRequested with
    | true =>
        rw [hold] at hbefore
        simp [hkeeps hold, hbefore.mp rfl]
    | false =>
        rw [hold] at hbefore
        cases hnew : (w'.legs session).gate.answerRequested with
        | true => simp
        | false => simpa using hbefore

/-- The times agree with the gate after every run. -/
theorem Clocked.timed {session : Nat} {timeoutMs : Int} (inputs : List Input) {w v : World}
    {times times' : Times} (h : Clocked switchTrue timeoutMs (w.legs session) times)
    (hrun : w.timed switchTrue session times inputs = .ok (v, times')) :
    Clocked switchTrue timeoutMs (v.legs session) times' := by
  induction inputs generalizing w times with
  | nil =>
      cases hrun
      exact h
  | cons i rest ih =>
      simp only [World.timed] at hrun
      cases hi : w.input switchTrue i with
      | error fault => simp [hi] at hrun
      | ok u =>
          rw [hi] at hrun
          exact ih (h.input switchTrue hi) hrun

theorem clocked_start {leg : Leg} (hgate : leg.gate = {})
    (hvar : leg.varTrue switchTrue "janus-answer-on-participant-ready" = true) :
    Clocked switchTrue leg.answerTimeoutMs leg {} := by
  refine ⟨hvar, rfl, ?_, ?_, ?_⟩
  · intro _
    rw [hgate]
  · intro joined hnone
    cases hnone
  · rw [hgate]
    decide

/-! ## The fallback -/

theorem answered_of_open (env : Env) {leg : Leg} (h : leg.gate.answered.2 = true) :
    (leg.answered env).2.answers = leg.answers + 1 := by
  unfold Leg.answered
  dsimp only
  rw [h]
  simp only [Bool.not_true, Bool.false_eq_true, if_false]
  split <;> simp [Leg.answers, Leg.op, List.countP_append, List.countP_cons, ChannelOp.isAnswer]

/-- The fallback answers exactly when it is due and the ids of the leg lead to it. -/
theorem fallsBack_iff {w : World} {session : Nat} {env : Env} :
    FallsBack w session env ↔ (w.legs session).gate.due env.now = true ∧
      w.Reaches session (w.legs session).serverId (w.legs session).senderId := by
  unfold FallsBack channelReadFrame
  dsimp only
  by_cases hdue : (w.legs session).gate.due env.now = true
  · rw [if_pos hdue, iff_true_intro hdue, true_and]
    -- the gate is open now, so `answered` answers if it finds the leg
    have hopen : (w.legs session).gate.deadlinePassed.answered.2 = true := by
      simp only [Gate.due, Bool.and_eq_true, Bool.not_eq_true'] at hdue
      simp [Gate.answered, Gate.deadlinePassed, hdue.1.1.2]
    by_cases hreach : w.Reaches session (w.legs session).serverId (w.legs session).senderId
    · obtain ⟨pServer, hfind⟩ := hreach.find
      have hfind' : (w.setLeg session { w.legs session with
          gate := (w.legs session).gate.deadlinePassed }).find (w.legs session).serverId
            (w.legs session).senderId = some (pServer, session) := hfind
      rw [ModJanus.answered, World.onLeg_reached hfind', World.setLeg_self,
        answered_of_open env hopen]
      refine iff_of_true ?_ hreach
      exact Nat.succ_ne_self _
    · have hreach' : ¬ (w.setLeg session { w.legs session with
          gate := (w.legs session).gate.deadlinePassed }).Reaches session
            (w.legs session).serverId (w.legs session).senderId := hreach
      rw [ModJanus.answered, World.onLeg_unreached hreach', World.setLeg_self]
      exact iff_of_false (fun h => h rfl) hreach
  · rw [if_neg hdue]
    exact iff_of_false (fun h => h rfl) fun h => hdue h.1

/-- The leg has not been answered, and its ids lead to it. -/
def Waits (w : World) (session : Nat) : Prop :=
  (w.legs session).gate.answerDone = false ∧
    w.Reaches session (w.legs session).serverId (w.legs session).senderId

/-- What makes the fallback answer, by the times of the run. -/
theorem Clocked.fallsBack_iff {w : World} {session : Nat} {env : Env} {timeoutMs : Int}
    {times : Times} (h : Clocked switchTrue timeoutMs (w.legs session) times) :
    FallsBack w session env ↔ Waits w session ∧ ∃ joined deferred,
      times.joined = some joined ∧ times.deferred = some deferred ∧
      joined + timeoutMs * 1000 ≠ 0 ∧ joined + timeoutMs * 1000 ≤ env.now := by
  rw [ModJanus.fallsBack_iff]
  simp only [Gate.due, Waits, Bool.and_eq_true, Bool.not_eq_true', decide_eq_true_eq]
  constructor
  · rintro ⟨⟨⟨⟨⟨hgate, hrequested⟩, hdone⟩, hset⟩, hpassed⟩, hreach⟩
    obtain ⟨deferred, hdeferred⟩ := Option.isSome_iff_exists.mp (h.deferred.mp hrequested)
    cases hjoined : times.joined with
    | none =>
        rw [h.notJoined hjoined] at hgate
        cases hgate
    | some joined =>
        rw [(h.answerDeadline joined hjoined).2] at hset hpassed
        exact ⟨⟨hdone, hreach⟩, joined, deferred, rfl, hdeferred, hset, hpassed⟩
  · rintro ⟨⟨hdone, hreach⟩, joined, deferred, hjoined, hdeferred, hset, hpassed⟩
    have hrequested := h.deferred.mpr (by rw [hdeferred]; rfl)
    obtain ⟨hgate, hdeadline⟩ := h.answerDeadline joined hjoined
    rw [← hdeadline] at hset hpassed
    exact ⟨⟨⟨⟨⟨hgate, hrequested⟩, hdone⟩, hset⟩, hpassed⟩, hreach⟩

/-- Every time the fallback answers, the timeout has passed since the answer was first
    asked for and deferred. -/
def KeepsWindow (w : World) (session : Nat) (inputs : List Input) : Prop :=
  ∀ before env later v times, inputs = before ++ .frame session env :: later →
    w.timed switchTrue session {} before = .ok (v, times) → FallsBack v session env →
    ∃ deferred, times.deferred = some deferred ∧
      deferred + (w.legs session).answerTimeoutMs * 1000 ≤ env.now

end Window

/-- The input reports nobody as set up. -/
def Input.reportsNobody : Input → Bool
  | .event pEvent _ =>
      match pollEventCalls pEvent with
      | .ok calls => calls.all fun
          | .participant _ _ _ false true => false
          | _ => true
      | .error _ => true
  | .frame _ _ => true

/-- A gated leg with the ids 1 and 2, whose fallback is to come after three seconds. -/
def windowWorld : World where
  serverIdLookup := hashInsert ∅ 1 0
  servers := fun _ => { senderIdLookup := hashInsert ∅ 2 0 }
  legs := fun _ => {
    serverId := 1
    senderId := 2
    channelVars := fun name =>
      if name = "janus-answer-on-participant-ready" then some "true"
      else if name = "janus-answer-participant-timeout-ms" then some "3000" else none }

/-- The leg joins after one second and is answerable half a second later, and a frame is
    read at that time. -/
def windowRun (frame : Int) : List Input :=
  [.event (ownJoinedEvent 1 2 1234 (.number (.ofInt 5))) { now := 1000000 },
    .event (answerEvent 1 2 "a=candidate:1") { now := 1500000 },
    .frame 0 { now := frame }]

theorem windowRun_times {v : World} {times : Times}
    (h : windowWorld.timed (· == some "true") 0 {} ((windowRun 0).take 2) = .ok (v, times)) :
    times = ⟨some 1000000, some 1500000⟩ := by
  have htimes : (windowWorld.timed (· == some "true") 0 {} ((windowRun 0).take 2)).toOption.map
      Prod.snd = some ⟨some 1000000, some 1500000⟩ := by decide
  rw [h] at htimes
  exact Option.some.inj htimes

end ModJanus
