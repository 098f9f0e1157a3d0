/-
  ModJanus.Leg.GateRun

  When a gated leg is answered.

  A run is a sequence of events that `api_dispatch_poll_event` dispatches and of
  frames that are read.  Until the own `joined` event of a leg arrives its gate is
  untouched (`Leg.Fresh`); that event arms the gate and records the own id before it
  reports the other participants (`Leg.Held`); and a held leg stays held until a
  remote participant is reported as set up or a frame is read past the deadline
  (`Releases`).
-/
import ModJanus.Leg.Prepares

namespace ModJanus

/-! ## What the handlers do to the gate -/

section Effects

variable (switchTrue : Option String → Bool)

namespace Leg

/-- The leg has the same gate, and `switch_channel_answer` was not invoked. -/
structure SameGate (leg leg' : Leg) : Prop where
  gate : leg'.gate = leg.gate
  answers : leg'.answers = leg.answers
  answerOnWebrtcup : leg'.channelVars "answer_on_webrtcup" = leg.channelVars "answer_on_webrtcup"

theorem SameGate.refl (leg : Leg) : SameGate leg leg := ⟨rfl, rfl, rfl⟩

theorem SameGate.trans {a b c : Leg} (h : SameGate a b) (h' : SameGate b c) : SameGate a c :=
  ⟨h'.gate.trans h.gate, h'.answers.trans h.answers,
    h'.answerOnWebrtcup.trans h.answerOnWebrtcup⟩

/-- Anything but an answer. -/
theorem SameGate.op {leg leg' : Leg} (h : SameGate leg leg') {o : ChannelOp}
    (ho : o.isAnswer = false) : SameGate leg (leg'.op o) := by
  refine h.trans ⟨rfl, ?_, rfl⟩
  simp [Leg.answers, Leg.op, List.countP_append, ho]

/-- Preparations hold no answer. -/
theorem Prepares.sameGate {leg leg' : Leg} (h : Prepares leg leg') : SameGate leg leg' := by
  obtain ⟨added, hops, hadded⟩ := h.ops
  have hnone : added.countP ChannelOp.isAnswer = 0 := by
    rw [List.countP_eq_zero]
    intro o hmem
    rw [ChannelOp.isAnswer_of_isPreparation (hadded o hmem)]
    exact Bool.false_ne_true
  refine ⟨h.gate, ?_, h.answerOnWebrtcup⟩
  rw [Leg.answers, hops, List.countP_append, hnone, Nat.add_zero, ← Leg.answers]

theorem proceed_sameGate (env : Env) {leg leg' : Leg} (h : SameGate leg leg') :
    SameGate leg (leg'.proceed env).2 := by
  unfold proceed
  split
  · exact h.op rfl
  · dsimp only
    split
    · split
      · exact ((h.op rfl).op rfl).trans ((Prepares.refl _).doPreAnswer env).sameGate
      · exact ((h.op rfl).op rfl).op rfl
    · exact ((h.op rfl).op rfl).trans ((Prepares.refl _).doPreAnswer env).sameGate

theorem accepted_sameGate (env : Env) (pSdp : String) (leg : Leg) :
    SameGate leg (leg.accepted env pSdp).2 := by
  have hbody : SameGate leg { leg with pSdpBody := some pSdp } := ⟨rfl, rfl, rfl⟩
  unfold accepted
  dsimp only
  split
  · exact proceed_sameGate env hbody
  · exact hbody

theorem trickle_sameGate (env : Env) (pCandidate : Option String) (leg : Leg) :
    SameGate leg (leg.trickle env pCandidate).2 := by
  unfold trickle
  dsimp only
  split
  · split
    · exact proceed_sameGate env ⟨rfl, rfl, rfl⟩
    · exact ⟨rfl, rfl, rfl⟩
  · exact ⟨rfl, rfl, rfl⟩

theorem hungup_sameGate (leg : Leg) : SameGate leg leg.hungup.2 :=
  (Prepares.refl leg).hungup.sameGate

/-- After it has dealt with the gate, `joined` leaves it alone. -/
theorem joined_sameGate (env : Env) (pServer : LegServer) (leg : Leg) :
    SameGate (leg.armGate switchTrue env) (leg.joined switchTrue env pServer).2 :=
  (joined_prepares switchTrue env pServer leg).sameGate

theorem answered_gate (env : Env) (leg : Leg) :
    (leg.answered env).2.gate = leg.gate.answered.1 := by
  unfold answered
  dsimp only
  split
  · rfl
  · split <;> rfl

theorem answered_answers (env : Env) {leg : Leg} (h : leg.gate.answered.2 = false) :
    (leg.answered env).2.answers = leg.answers := by
  unfold answered
  simp only [h]
  rfl

end Leg

/-! ## One call of a handler -/

namespace World

/-- The ids lead to the leg. -/
def Reaches (w : World) (session : Nat) (serverId senderId : JanusId) : Prop :=
  (w.find serverId senderId).map Prod.snd = some session

instance (w : World) (session : Nat) (serverId senderId : JanusId) :
    Decidable (w.Reaches session serverId senderId) :=
  inferInstanceAs (Decidable ((w.find serverId senderId).map Prod.snd = some session))

theorem Reaches.find {w : World} {session : Nat} {serverId senderId : JanusId}
    (h : w.Reaches session serverId senderId) :
    ∃ pServer, w.find serverId senderId = some (pServer, session) := by
  obtain ⟨⟨pServer, session'⟩, hfind, rfl⟩ := Option.map_eq_some_iff.mp h
  exact ⟨pServer, hfind⟩

@[simp] theorem setLeg_self (w : World) (session : Nat) (leg : Leg) :
    (w.setLeg session leg).legs session = leg := by
  simp [setLeg]

theorem setLeg_ne (w : World) {session session' : Nat} (h : session' ≠ session) (leg : Leg) :
    (w.setLeg session leg).legs session' = w.legs session' := by
  simp [setLeg, h]

@[simp] theorem onLeg_find (w : World) (serverId senderId : JanusId)
    (f : LegServer → Leg → Status × Leg) (serverId' senderId' : JanusId) :
    (w.onLeg serverId senderId f).2.find serverId' senderId' = w.find serverId' senderId' := by
  unfold onLeg
  split <;> rfl

theorem onLeg_reached {w : World} {session : Nat} {serverId senderId : JanusId}
    {pServer : LegServer} (h : w.find serverId senderId = some (pServer, session))
    (f : LegServer → Leg → Status × Leg) :
    (w.onLeg serverId senderId f).2.legs session = (f pServer (w.legs session)).2 := by
  simp [onLeg, h]

theorem onLeg_unreached {w : World} {session : Nat} {serverId senderId : JanusId}
    (h : ¬ w.Reaches session serverId senderId) (f : LegServer → Leg → Status × Leg) :
    (w.onLeg serverId senderId f).2.legs session = w.legs session := by
  unfold onLeg
  split
  · rfl
  · next pServer session' hfind =>
      have hne : session ≠ session' := by
        rintro rfl
        exact h (by rw [Reaches, hfind]; rfl)
      exact setLeg_ne w hne _

/-- `answered` for whatever leg the ids lead to, after another leg was changed. -/
theorem setLeg_answered (env : Env) (w : World) {session other : Nat} (hne : session ≠ other)
    (leg : Leg) (serverId senderId : JanusId) :
    (ModJanus.answered env serverId senderId (w.setLeg other leg)).2.legs session =
      if w.Reaches session serverId senderId then ((w.legs session).answered env).2
      else w.legs session := by
  rw [ModJanus.answered]
  split
  · next hreach =>
      have hreach' : (w.setLeg other leg).Reaches session serverId senderId := hreach
      obtain ⟨pServer, hfind⟩ := hreach'.find
      rw [onLeg_reached hfind, w.setLeg_ne hne]
  · next hreach =>
      have hreach' : ¬ (w.setLeg other leg).Reaches session serverId senderId := hreach
      rw [onLeg_unreached hreach', w.setLeg_ne hne]

end World

/-- The ids that a call is made with. -/
def HandlerCall.ids : HandlerCall → JanusId × JanusId
  | .joined serverId senderId _ _ => (serverId, senderId)
  | .accepted serverId senderId _ => (serverId, senderId)
  | .trickle serverId senderId _ => (serverId, senderId)
  | .answeredOnWebrtcup serverId senderId => (serverId, senderId)
  | .answeredOnAccept serverId senderId => (serverId, senderId)
  | .hungup serverId senderId _ => (serverId, senderId)
  | .participant serverId senderId _ _ _ => (serverId, senderId)

/-- The call is for the leg. -/
def HandlerCall.For (c : HandlerCall) (w : World) (session : Nat) : Prop :=
  w.Reaches session c.ids.1 c.ids.2

theorem run_answeredOnWebrtcup (env : Env) (w : World) (serverId senderId : JanusId) :
    (HandlerCall.answeredOnWebrtcup serverId senderId).run (handlers switchTrue env) w =
      if answerOnWebrtcup switchTrue serverId senderId w then (answered env serverId senderId w).2
      else w := rfl

theorem run_answeredOnAccept (env : Env) (w : World) (serverId senderId : JanusId) :
    (HandlerCall.answeredOnAccept serverId senderId).run (handlers switchTrue env) w =
      if answerOnWebrtcup switchTrue serverId senderId w then w
      else (answered env serverId senderId w).2 := rfl

theorem run_participant (env : Env) (w : World) (serverId senderId : JanusId) (id : String)
    (isSelf setup : Bool) :
    (HandlerCall.participant serverId senderId id isSelf setup).run (handlers switchTrue env) w =
      (participant env serverId senderId id isSelf setup w).2 := rfl

theorem answered_find (env : Env) (w : World) (serverId senderId serverId' senderId' : JanusId) :
    (answered env serverId senderId w).2.find serverId' senderId' = w.find serverId' senderId' :=
  w.onLeg_find _ _ _ _ _

theorem participant_find (env : Env) (w : World) (serverId senderId : JanusId) (id : String)
    (isSelf setup : Bool) (serverId' senderId' : JanusId) :
    (participant env serverId senderId id isSelf setup w).2.find serverId' senderId' =
      w.find serverId' senderId' := by
  unfold participant
  split
  · exact w.onLeg_find _ _ _ _ _
  · split
    · rfl
    · dsimp only
      split
      · exact World.onLeg_find _ _ _ _ _ _
      · rfl

/-- No call changes who is registered. -/
theorem run_find (env : Env) (w : World) (c : HandlerCall) (serverId senderId : JanusId) :
    (c.run (handlers switchTrue env) w).find serverId senderId = w.find serverId senderId := by
  cases c with
  | joined => exact w.onLeg_find _ _ _ _ _
  | accepted => exact w.onLeg_find _ _ _ _ _
  | trickle => exact w.onLeg_find _ _ _ _ _
  | answeredOnWebrtcup =>
      rw [run_answeredOnWebrtcup]
      split
      · exact answered_find env w _ _ _ _
      · rfl
  | answeredOnAccept =>
      rw [run_answeredOnAccept]
      split
      · rfl
      · exact answered_find env w _ _ _ _
  | hungup => exact w.onLeg_find _ _ _ _ _
  | participant => exact participant_find env w _ _ _ _ _ _ _

/-- A call for another leg leaves the leg as it is. -/
theorem run_unreached (env : Env) {w : World} {session : Nat} {c : HandlerCall}
    (h : ¬ c.For w session) :
    (c.run (handlers switchTrue env) w).legs session = w.legs session := by
  cases c with
  | joined => exact World.onLeg_unreached h _
  | accepted => exact World.onLeg_unreached h _
  | trickle => exact World.onLeg_unreached h _
  | answeredOnWebrtcup =>
      rw [run_answeredOnWebrtcup]
      split
      · exact World.onLeg_unreached h _
      · rfl
  | answeredOnAccept =>
      rw [run_answeredOnAccept]
      split
      · rfl
      · exact World.onLeg_unreached h _
  | hungup => exact World.onLeg_unreached h _
  | participant serverId senderId id isSelf setup =>
      simp only [HandlerCall.run, handlers, participant]
      split
      · exact World.onLeg_unreached h _
      · split
        · rfl
        · next pServer session' hfind =>
            have hne : session ≠ session' := by
              rintro rfl
              exact h (by rw [HandlerCall.For, World.Reaches, HandlerCall.ids, hfind]; rfl)
            split
            · -- the answer that is released is the other leg's
              have hnot : ¬ w.Reaches session serverId senderId := h
              rw [World.setLeg_answered env w hne, if_neg hnot]
            · exact w.setLeg_ne hne _

/-! ## Fresh and held legs -/

/-- Nothing has happened to the gate, and the leg has not been answered. -/
structure Leg.Fresh (leg : Leg) : Prop where
  gate : leg.gate = {}
  answers : leg.answers = 0

/-- The gate is closed, the own id is known, and the leg has not been answered. -/
structure Leg.Held (own : String) (leg : Leg) : Prop where
  answerGate : leg.gate.answerGate = true
  ownId : leg.gate.pParticipantIdStr = some own
  remoteReady : leg.gate.remoteReady = false
  answerDone : leg.gate.answerDone = false
  answers : leg.answers = 0

theorem Leg.SameGate.fresh {leg leg' : Leg} (h : SameGate leg leg') (hf : leg.Fresh) :
    leg'.Fresh :=
  ⟨h.gate.trans hf.gate, h.answers.trans hf.answers⟩

theorem Leg.SameGate.held {leg leg' : Leg} (h : SameGate leg leg') {own : String}
    (hh : leg.Held own) : leg'.Held own := by
  refine ⟨?_, ?_, ?_, ?_, h.answers.trans hh.answers⟩
  · rw [h.gate]
    exact hh.answerGate
  · rw [h.gate]
    exact hh.ownId
  · rw [h.gate]
    exact hh.remoteReady
  · rw [h.gate]
    exact hh.answerDone

/-- A held leg that is asked to answer only takes note of it. -/
theorem Leg.Held.answered (env : Env) {own : String} {leg : Leg} (h : leg.Held own) :
    (leg.answered env).2.Held own := by
  -- the gate is armed and nobody is ready, so the section only sets `answerRequested`
  have hsection : leg.gate.answered = ({ leg.gate with answerRequested := true }, false) := by
    simp [Gate.answered, h.answerDone, h.answerGate, h.remoteReady]
  have hgate := leg.answered_gate env
  have hanswers := leg.answered_answers env (by rw [hsection])
  rw [hsection] at hgate
  refine ⟨?_, ?_, ?_, ?_, hanswers.trans h.answers⟩
  · rw [hgate]
    exact h.answerGate
  · rw [hgate]
    exact h.ownId
  · rw [hgate]
    exact h.remoteReady
  · rw [hgate]
    exact h.answerDone

/-- Another own `joined` event moves the deadline at most. -/
theorem Leg.Held.armGate (env : Env) {own : String} {leg : Leg} (h : leg.Held own) :
    (leg.armGate switchTrue env).Held own := by
  unfold Leg.armGate
  split
  · exact ⟨rfl, h.ownId, h.remoteReady, h.answerDone, h.answers⟩
  · exact h

/-- The call reports a remote participant of the leg as set up. -/
def HandlerCall.Reports (c : HandlerCall) (w : World) (session : Nat) (own : String) : Prop :=
  ∃ serverId senderId id, c = .participant serverId senderId id false true ∧ id ≠ own ∧
    w.Reaches session serverId senderId

/-- The call leads to `answered` for the leg. -/
def HandlerCall.AsksAnswer (c : HandlerCall) (w : World) (session : Nat) : Prop :=
  ∃ serverId senderId, w.Reaches session serverId senderId ∧
    ((c = .answeredOnWebrtcup serverId senderId ∧
        answerOnWebrtcup switchTrue serverId senderId w = true) ∨
      (c = .answeredOnAccept serverId senderId ∧
        answerOnWebrtcup switchTrue serverId senderId w = false))

theorem answered_held (env : Env) {w : World} {session : Nat} {own : String}
    {pServer : LegServer} {serverId senderId : JanusId}
    (hfind : w.find serverId senderId = some (pServer, session))
    (h : (w.legs session).Held own) :
    ((ModJanus.answered env serverId senderId w).2.legs session).Held own := by
  rw [ModJanus.answered, World.onLeg_reached hfind]
  exact h.answered env

/-- A held leg stays held through every call that does not report a remote
    participant of it. -/
theorem run_held (env : Env) {w : World} {session : Nat} {own : String} {c : HandlerCall}
    (h : (w.legs session).Held own) (hc : ¬ c.Reports w session own) :
    ((c.run (handlers switchTrue env) w).legs session).Held own := by
  by_cases hfor : c.For w session
  · obtain ⟨pServer, hfind⟩ := hfor.find
    cases c with
    | joined serverId senderId roomId participantId =>
        have hleg := World.onLeg_reached hfind fun pServer leg =>
          leg.joined switchTrue env pServer
        -- a second own `joined` event arms an armed gate
        have hsame := Leg.joined_sameGate switchTrue env pServer (w.legs session)
        rw [← hleg] at hsame
        exact hsame.held (h.armGate switchTrue env)
    | accepted serverId senderId pSdp =>
        have hsame := Leg.accepted_sameGate env pSdp (w.legs session)
        rw [← World.onLeg_reached hfind fun _ leg => leg.accepted env pSdp] at hsame
        exact hsame.held h
    | trickle serverId senderId pCandidate =>
        have hsame := Leg.trickle_sameGate env pCandidate (w.legs session)
        rw [← World.onLeg_reached hfind fun _ leg => leg.trickle env pCandidate] at hsame
        exact hsame.held h
    | answeredOnWebrtcup serverId senderId =>
        rw [run_answeredOnWebrtcup]
        split
        · exact answered_held env hfind h
        · exact h
    | answeredOnAccept serverId senderId =>
        rw [run_answeredOnAccept]
        split
        · exact h
        · exact answered_held env hfind h
    | hungup serverId senderId pReason =>
        have hsame := Leg.hungup_sameGate (w.legs session)
        rw [← World.onLeg_reached hfind fun _ leg => leg.hungup] at hsame
        exact hsame.held h
    | participant serverId senderId id isSelf setup =>
        dsimp only [HandlerCall.ids] at hfind
        rw [run_participant, participant]
        cases isSelf with
        | true =>
            rw [if_pos rfl, World.onLeg_reached hfind]
            refine ⟨h.answerGate, ?_, h.remoteReady, h.answerDone, h.answers⟩
            -- only the first own id is recorded
            simp [Gate.participantSelf, h.ownId]
        | false =>
            -- a report that releases the gate is one of a remote participant
            have hsection : (w.legs session).gate.participantRemote id setup =
                ((w.legs session).gate, false) := by
              rcases (w.legs session).gate.participantRemote_cases id setup with
                hsame | ⟨-, -, hne, hsetup, -⟩
              · exact hsame
              · rw [h.ownId] at hne
                refine absurd ⟨serverId, senderId, id, by rw [hsetup], ?_, hfor⟩ hc
                rintro rfl
                exact hne rfl
            simp only [hfind, hsection, Bool.false_eq_true, if_false, World.setLeg_self]
            exact h
  · rw [run_unreached switchTrue env hfor]
    exact h

theorem Leg.Fresh.answered_section {leg : Leg} (h : leg.Fresh) (id : String) (setup : Bool) :
    leg.gate.participantRemote id setup = (leg.gate, false) := by
  rw [h.gate]
  rfl

/-- The report of another participant does not change a leg whose gate is not
    armed. -/
theorem participant_fresh (env : Env) {w : World} {session : Nat} (h : (w.legs session).Fresh)
    (serverId senderId : JanusId) (id : String) (setup : Bool) :
    (((HandlerCall.participant serverId senderId id false setup).run (handlers switchTrue env)
      w).legs session).Fresh := by
  by_cases hfor : (HandlerCall.participant serverId senderId id false setup).For w session
  · obtain ⟨pServer, hfind⟩ := hfor.find
    dsimp only [HandlerCall.ids] at hfind
    have hsection := h.answered_section id setup
    rw [run_participant, participant]
    simp only [hfind, hsection, Bool.false_eq_true, if_false, World.setLeg_self]
    exact h
  · rw [run_unreached switchTrue env hfor]
    exact h

theorem answeredOnWebrtcup_fresh (env : Env) {w : World} {session : Nat}
    {serverId senderId : JanusId} (h : (w.legs session).Fresh)
    (hask : ¬ (HandlerCall.answeredOnWebrtcup serverId senderId).AsksAnswer switchTrue w session) :
    (((HandlerCall.answeredOnWebrtcup serverId senderId).run (handlers switchTrue env)
      w).legs session).Fresh := by
  by_cases hfor : (HandlerCall.answeredOnWebrtcup serverId senderId).For w session
  · rw [run_answeredOnWebrtcup]
    split
    · next hup => exact absurd ⟨serverId, senderId, hfor, .inl ⟨rfl, hup⟩⟩ hask
    · exact h
  · rw [run_unreached switchTrue env hfor]
    exact h

theorem answeredOnAccept_fresh (env : Env) {w : World} {session : Nat}
    {serverId senderId : JanusId} (h : (w.legs session).Fresh)
    (hask : ¬ (HandlerCall.answeredOnAccept serverId senderId).AsksAnswer switchTrue w session) :
    (((HandlerCall.answeredOnAccept serverId senderId).run (handlers switchTrue env)
      w).legs session).Fresh := by
  by_cases hfor : (HandlerCall.answeredOnAccept serverId senderId).For w session
  · rw [run_answeredOnAccept]
    split
    · exact h
    · next hup =>
        exact absurd ⟨serverId, senderId, hfor, .inr ⟨rfl, Bool.eq_false_iff.mpr hup⟩⟩ hask
  · rw [run_unreached switchTrue env hfor]
    exact h

/-- `accepted`, `trickle` and `hungup` neither touch the gate nor answer. -/
theorem onLeg_sameGate {w : World} {session : Nat} {serverId senderId : JanusId}
    {f : LegServer → Leg → Status × Leg} (hf : ∀ pServer leg, Leg.SameGate leg (f pServer leg).2) :
    Leg.SameGate (w.legs session) ((w.onLeg serverId senderId f).2.legs session) := by
  by_cases hreach : w.Reaches session serverId senderId
  · obtain ⟨pServer, hfind⟩ := hreach.find
    rw [World.onLeg_reached hfind]
    exact hf pServer _
  · rw [World.onLeg_unreached hreach]
    exact .refl _

/-! ## Events and frames -/

/-- What happens to the module: an event is dispatched, or a leg reads a frame. -/
inductive Input where
  | event (pEvent : CJson) (env : Env)
  | frame (session : Nat) (env : Env)

/-- The world after one input. -/
def World.input (w : World) : Input → Except Fault World
  | .event pEvent env => (apiDispatchPollEvent (handlers switchTrue env) pEvent w).map Prod.snd
  | .frame session env => .ok (channelReadFrame env session w)

/-- The world after a sequence of inputs. -/
def World.after (w : World) : List Input → Except Fault World
  | [] => .ok w
  | i :: rest =>
      match w.input switchTrue i with
      | .ok v => v.after rest
      | .error fault => .error fault

theorem after_append {w v : World} {is js : List Input} {w' : World}
    (his : w.after switchTrue is = .ok v) (h : w.after switchTrue (is ++ js) = .ok w') :
    v.after switchTrue js = .ok w' := by
  induction is generalizing w with
  | nil =>
      cases his
      exact h
  | cons i is ih =>
      simp only [List.cons_append, World.after] at his h
      cases hi : w.input switchTrue i with
      | error fault => simp [hi] at his
      | ok u =>
          rw [hi] at his h
          exact ih his h

theorem after_append_ok {w v w' : World} {is js : List Input}
    (his : w.after switchTrue is = .ok v) (hjs : v.after switchTrue js = .ok w') :
    w.after switchTrue (is ++ js) = .ok w' := by
  induction is generalizing w with
  | nil =>
      cases his
      exact hjs
  | cons i is ih =>
      simp only [List.cons_append, World.after] at his ⊢
      cases hi : w.input switchTrue i with
      | error fault => simp [hi] at his
      | ok u =>
          rw [hi] at his
          exact ih his

/-- The own `joined` event of the leg, with its own id. -/
def OwnJoinedFor (w : World) (session : Nat) (pEvent : CJson) (own : String) : Prop :=
  ∃ response, decode (some pEvent) = some response ∧ OwnJoined response ∧
    w.Reaches session response.serverId response.senderId ∧
    participantIdStr (getObjectItem response.pJsonBody "id") = some own

/-- The input calls `answered` for the leg. -/
def Input.AsksAnswer (w : World) (session : Nat) : Input → Prop
  | .event pEvent _ =>
      ∃ calls, pollEventCalls pEvent = .ok calls ∧ ∃ c ∈ calls, c.AsksAnswer switchTrue w session
  | .frame reader env =>
      (w.legs reader).gate.due env.now = true ∧
        w.Reaches session (w.legs reader).serverId (w.legs reader).senderId

/-- The input is the own `joined` event of the leg. -/
def Input.IsOwnJoined (w : World) (session : Nat) : Input → Prop
  | .event pEvent _ => ∃ own, OwnJoinedFor w session pEvent own
  | .frame _ _ => False

/-- The event hands over a participants array of the leg in which somebody else is
    set up. -/
def RemoteSetup (w : World) (session : Nat) (own : String) (pEvent : CJson) : Prop :=
  ∃ response items pItem id calls,
    decode (some pEvent) = some response ∧
    w.Reaches session response.serverId response.senderId ∧
    participantsOf response = some (.array items) ∧ pItem ∈ items ∧
    participantIdStr (getObjectItem (some pItem) "id") = some id ∧ id ≠ own ∧
    (getObjectItem (some pItem) "setup").any CJson.isTrue = true ∧
    pollEventCalls pEvent = .ok calls ∧
    .participant response.serverId response.senderId id false true ∈ calls

/-- What opens the gate of a leg: a remote participant that is set up, or a frame
    read past the deadline while the answer is requested. -/
def Releases (w : World) (session : Nat) (own : String) : Input → Prop
  | .event pEvent _ => RemoteSetup w session own pEvent
  | .frame reader env =>
      reader = session ∧ (w.legs session).gate.answerRequested = true ∧
        (w.legs session).gate.answerDeadline ≤ env.now

/-- Some input of the run opens the gate. -/
def ReleasedIn (w : World) (session : Nat) (own : String) (inputs : List Input) : Prop :=
  ∃ before i later v, inputs = before ++ i :: later ∧ w.after switchTrue before = .ok v ∧
    Releases v session own i

theorem dispatch_eq_ok {env : Env} {pEvent : CJson} {w w' : World}
    (h : w.input switchTrue (.event pEvent env) = .ok w') :
    ∃ calls, pollEventCalls pEvent = .ok calls ∧
      w' = calls.foldl (HandlerCall.run (handlers switchTrue env)) w := by
  simp only [World.input, apiDispatchPollEvent] at h
  cases hc : pollEventCalls pEvent with
  | error fault => simp [hc, bind, Except.bind, Except.map] at h
  | ok calls =>
      simp only [hc, bind, Except.bind, pure, Except.pure, Except.map, Except.ok.injEq] at h
      exact ⟨calls, rfl, h.symm⟩

theorem participantCall_eq_some {response : Message} {pItem : CJson} {c : HandlerCall}
    (h : participantCall response pItem = some c) :
    ∃ id, participantIdStr (getObjectItem (some pItem) "id") = some id ∧
      c = .participant response.serverId response.senderId id false
        ((getObjectItem (some pItem) "setup").any CJson.isTrue) := by
  obtain ⟨id, hid, rfl⟩ := Option.map_eq_some_iff.mp h
  exact ⟨id, hid, rfl⟩

/-- The calls for the participants of an event come from its array. -/
theorem mem_apiDispatchParticipants {response : Message} {participants : Option CJson}
    {c : HandlerCall} (h : c ∈ apiDispatchParticipants response participants) :
    ∃ items pItem id, participants = some (.array items) ∧ pItem ∈ items ∧
      participantIdStr (getObjectItem (some pItem) "id") = some id ∧
      c = .participant response.serverId response.senderId id false
        ((getObjectItem (some pItem) "setup").any CJson.isTrue) := by
  unfold apiDispatchParticipants at h
  split at h
  · next items =>
      obtain ⟨pItem, hmem, hcall⟩ := List.mem_filterMap.mp h
      obtain ⟨id, hid, rfl⟩ := participantCall_eq_some hcall
      exact ⟨items, pItem, id, rfl, hmem, hid, rfl⟩
  · cases h

/-- A report of a remote participant comes from an entry of the array. -/
theorem remoteSetup_of_reports {w : World} {session : Nat} {own : String} {pEvent : CJson}
    {calls : List HandlerCall} {c : HandlerCall} (hcalls : pollEventCalls pEvent = .ok calls)
    (hc : c ∈ calls) (hr : c.Reports w session own) : RemoteSetup w session own pEvent := by
  obtain ⟨serverId, senderId, id, rfl, hne, hreach⟩ := hr
  rcases pollEventCalls_shape hcalls with hnil | ⟨response, hd, hshape⟩
  · rw [hnil] at hc
    cases hc
  · have hmem : HandlerCall.participant serverId senderId id false true ∈
        apiDispatchParticipants response (participantsOf response) := by
      cases hshape with
      | nothing => cases hc
      | participants => exact hc
      | joined roomId participantId hown =>
          rcases List.mem_append.mp hc with hc | hc
          · -- the own id is reported as our own
            exfalso
            obtain ⟨ownId, hid⟩ := hown.selfId
            simp [selfCall, hid] at hc
          · exact hc
      | accepted pSdp => simp at hc
      | webrtcup => simp at hc
      | trickle => simp at hc
      | hungup pReason => simp at hc
    obtain ⟨items, pItem, id', hparts, hitem, hid, heq⟩ := mem_apiDispatchParticipants hmem
    simp only [HandlerCall.participant.injEq] at heq
    obtain ⟨rfl, rfl, rfl, -, hsetup⟩ := heq
    exact ⟨response, items, pItem, id, calls, hd, hreach, hparts, hitem, hid, hne, hsetup.symm,
      hcalls, hc⟩

/-! ## Runs -/

/-- What a call reports does not depend on the calls before it. -/
theorem run_reports (env : Env) {w : World} {session : Nat} {own : String} {c c' : HandlerCall}
    (h : c'.Reports (c.run (handlers switchTrue env) w) session own) :
    c'.Reports w session own := by
  obtain ⟨serverId, senderId, id, rfl, hne, hreach⟩ := h
  refine ⟨serverId, senderId, id, rfl, hne, ?_⟩
  rwa [World.Reaches, run_find] at hreach

theorem calls_held (env : Env) {session : Nat} {own : String} (calls : List HandlerCall)
    {w : World} (h : (w.legs session).Held own) (hc : ∀ c ∈ calls, ¬ c.Reports w session own) :
    ((calls.foldl (HandlerCall.run (handlers switchTrue env)) w).legs session).Held own := by
  induction calls generalizing w with
  | nil => exact h
  | cons c calls ih =>
      have hhead := run_held switchTrue env h (hc c List.mem_cons_self)
      refine ih hhead ?_
      intro c' hmem hrep
      exact hc c' (List.mem_cons_of_mem _ hmem) (run_reports switchTrue env hrep)

/-- A frame that another leg reads can at most call `answered` for this one. -/
theorem channelReadFrame_other (env : Env) {w : World} {session reader : Nat}
    (hne : session ≠ reader) :
    (channelReadFrame env reader w).legs session = w.legs session ∨
      ((w.legs reader).gate.due env.now = true ∧
        w.Reaches session (w.legs reader).serverId (w.legs reader).senderId ∧
        (channelReadFrame env reader w).legs session = ((w.legs session).answered env).2) := by
  unfold channelReadFrame
  dsimp only
  split
  · next hdue =>
      rw [World.setLeg_answered env w hne]
      split
      · next hreach => exact .inr ⟨hdue, hreach, rfl⟩
      · exact .inl rfl
  · exact .inl rfl

/-- A held leg stays held through every input that does not open its gate. -/
theorem input_held {w w' : World} {session : Nat} {own : String} {i : Input}
    (h : (w.legs session).Held own) (hi : ¬ Releases w session own i)
    (hw : w.input switchTrue i = .ok w') : (w'.legs session).Held own := by
  cases i with
  | event pEvent env =>
      obtain ⟨calls, hcalls, rfl⟩ := dispatch_eq_ok switchTrue hw
      refine calls_held switchTrue env calls h ?_
      intro c hc hrep
      exact hi (remoteSetup_of_reports hcalls hc hrep)
  | frame reader env =>
      cases hw
      by_cases hreader : session = reader
      · subst hreader
        -- a frame that is due opens the gate, which is ruled out
        have hnot : (w.legs session).gate.due env.now = false := by
          by_contra hdue
          have hdue : (w.legs session).gate.due env.now = true := by simpa using hdue
          simp only [Gate.due, Bool.and_eq_true, decide_eq_true_eq] at hdue
          exact hi ⟨rfl, hdue.1.1.1.2, hdue.2⟩
        simp only [channelReadFrame, hnot]
        exact h
      · rcases channelReadFrame_other env (w := w) hreader with hsame | ⟨-, -, hans⟩
        · rw [hsame]
          exact h
        · rw [hans]
          exact h.answered env

/-- A held leg is held at the end of a run, unless an input of the run opened its
    gate. -/
theorem after_held {session : Nat} {own : String} (inputs : List Input) {w w' : World}
    (h : (w.legs session).Held own) (hw : w.after switchTrue inputs = .ok w') :
    ReleasedIn switchTrue w session own inputs ∨ (w'.legs session).Held own := by
  induction inputs generalizing w with
  | nil =>
      cases hw
      exact .inr h
  | cons i rest ih =>
      by_cases hi : Releases w session own i
      · exact .inl ⟨[], i, rest, w, rfl, rfl, hi⟩
      · simp only [World.after] at hw
        cases hu : w.input switchTrue i with
        | error fault => simp [hu] at hw
        | ok u =>
            rw [hu] at hw
            rcases ih (input_held switchTrue h hi hu) hw with hrel | hheld
            · obtain ⟨before, j, later, v, rfl, hv, hj⟩ := hrel
              exact .inl ⟨i :: before, j, later, v, rfl, by simp [World.after, hu, hv], hj⟩
            · exact .inr hheld

/-! ## Before the own `joined` event -/

theorem calls_unreached (env : Env) {session : Nat} (calls : List HandlerCall) {w : World}
    (h : ∀ c ∈ calls, ¬ c.For w session) :
    (calls.foldl (HandlerCall.run (handlers switchTrue env)) w).legs session =
      w.legs session := by
  induction calls generalizing w with
  | nil => rfl
  | cons c calls ih =>
      have hhead := run_unreached switchTrue env (h c List.mem_cons_self)
      rw [List.foldl_cons, ih, hhead]
      intro c' hmem hfor
      refine h c' (List.mem_cons_of_mem _ hmem) ?_
      rwa [HandlerCall.For, World.Reaches, run_find] at hfor

theorem participants_fresh (env : Env) {response : Message} {session : Nat}
    (calls : List HandlerCall) {w : World} (h : (w.legs session).Fresh)
    (hc : ∀ c ∈ calls, ∃ id setup,
      c = .participant response.serverId response.senderId id false setup) :
    ((calls.foldl (HandlerCall.run (handlers switchTrue env)) w).legs session).Fresh := by
  induction calls generalizing w with
  | nil => exact h
  | cons c calls ih =>
      obtain ⟨id, setup, rfl⟩ := hc c List.mem_cons_self
      refine ih (participant_fresh switchTrue env h _ _ id setup) ?_
      intro c' hmem
      exact hc c' (List.mem_cons_of_mem _ hmem)

theorem participants_calls (response : Message) :
    ∀ c ∈ apiDispatchParticipants response (participantsOf response), ∃ id setup,
      c = .participant response.serverId response.senderId id false setup := by
  intro c hc
  obtain ⟨items, pItem, id, -, -, -, rfl⟩ := mem_apiDispatchParticipants hc
  exact ⟨id, _, rfl⟩

/-- Every call of an event is made with the ids of the event. -/
theorem EventCalls.ids {response : Message} {calls : List HandlerCall}
    (h : EventCalls response calls) :
    ∀ c ∈ calls, c.ids = (response.serverId, response.senderId) := by
  intro c hc
  have hparts : ∀ c ∈ apiDispatchParticipants response (participantsOf response),
      c.ids = (response.serverId, response.senderId) := by
    intro c hc
    obtain ⟨id, setup, rfl⟩ := participants_calls response c hc
    rfl
  cases h with
  | nothing => cases hc
  | participants => exact hparts c hc
  | joined roomId participantId hown =>
      -- the leg itself, its own report, and the others in the room
      obtain ⟨ownId, hid⟩ := hown.selfId
      simp only [selfCall, hid, List.cons_append, List.nil_append, List.mem_cons] at hc
      rcases hc with rfl | rfl | hc
      · rfl
      · rfl
      · exact hparts c hc
  | accepted pSdp =>
      simp only [List.mem_cons, List.not_mem_nil, or_false] at hc
      rcases hc with rfl | rfl <;> rfl
  | webrtcup =>
      rw [List.mem_singleton.mp hc]
      rfl
  | trickle =>
      rw [List.mem_singleton.mp hc]
      rfl
  | hungup pReason =>
      rw [List.mem_singleton.mp hc]
      rfl

/-- An event that is neither the own `joined` event of a fresh leg nor a request to
    answer it leaves it fresh. -/
theorem event_fresh {w w' : World} {session : Nat} {pEvent : CJson} {env : Env}
    (h : (w.legs session).Fresh) (hjoined : ¬ (Input.event pEvent env).IsOwnJoined w session)
    (hask : ¬ (Input.event pEvent env).AsksAnswer switchTrue w session)
    (hw : w.input switchTrue (.event pEvent env) = .ok w') : (w'.legs session).Fresh := by
  obtain ⟨calls, hcalls, rfl⟩ := dispatch_eq_ok switchTrue hw
  have hnot : ∀ c ∈ calls, ¬ c.AsksAnswer switchTrue w session := by
    intro c hc hca
    exact hask ⟨calls, hcalls, c, hc, hca⟩
  rcases pollEventCalls_shape hcalls with rfl | ⟨response, hd, hshape⟩
  · exact h
  · have hids := hshape.ids
    cases hshape with
    | nothing => exact h
    | participants =>
        exact participants_fresh switchTrue env _ h (participants_calls response)
    | joined roomId participantId hown =>
        -- it is the own event of some other leg
        have hother : ¬ w.Reaches session response.serverId response.senderId := by
          intro hreach
          obtain ⟨own, hid⟩ := hown.selfId
          exact hjoined ⟨own, response, hd, hown, hreach, hid⟩
        rw [calls_unreached]
        · exact h
        · intro c hc hfor
          rw [HandlerCall.For, hids c hc] at hfor
          exact hother hfor
    | accepted pSdp =>
        -- two calls: `accepted`, which keeps the gate, and perhaps `answered`
        have hsame : Leg.SameGate (w.legs session)
            (((HandlerCall.accepted response.serverId response.senderId pSdp).run
              (handlers switchTrue env) w).legs session) :=
          onLeg_sameGate fun _ leg => Leg.accepted_sameGate env pSdp leg
        refine answeredOnAccept_fresh switchTrue env (hsame.fresh h) ?_
        rintro ⟨serverId, senderId, hreach, ⟨heq, -⟩ | ⟨heq, hup⟩⟩
        · cases heq
        · cases heq
          rw [World.Reaches, run_find] at hreach
          refine hnot _ (by simp) ⟨_, _, hreach, .inr ⟨rfl, ?_⟩⟩
          obtain ⟨pServer, hfind⟩ := World.Reaches.find hreach
          simp only [answerOnWebrtcup, run_find, hfind, Leg.answerOnWebrtcup,
            hsame.answerOnWebrtcup] at hup ⊢
          exact hup
    | webrtcup => exact answeredOnWebrtcup_fresh switchTrue env h (hnot _ (by simp))
    | trickle =>
        have hsame : Leg.SameGate (w.legs session)
            (((HandlerCall.trickle response.serverId response.senderId response.pCandidate).run
              (handlers switchTrue env) w).legs session) :=
          onLeg_sameGate fun _ leg => Leg.trickle_sameGate env response.pCandidate leg
        exact hsame.fresh h
    | hungup pReason =>
        have hsame : Leg.SameGate (w.legs session)
            (((HandlerCall.hungup response.serverId response.senderId pReason).run
              (handlers switchTrue env) w).legs session) :=
          onLeg_sameGate fun _ leg => Leg.hungup_sameGate leg
        exact hsame.fresh h

theorem input_fresh {w w' : World} {session : Nat} {i : Input} (h : (w.legs session).Fresh)
    (hjoined : ¬ i.IsOwnJoined w session) (hask : ¬ i.AsksAnswer switchTrue w session)
    (hw : w.input switchTrue i = .ok w') : (w'.legs session).Fresh := by
  cases i with
  | event pEvent env => exact event_fresh switchTrue h hjoined hask hw
  | frame reader env =>
      cases hw
      by_cases hreader : session = reader
      · subst hreader
        have hnot : (w.legs session).gate.due env.now = false := by
          rw [h.gate]
          rfl
        simp only [channelReadFrame, hnot]
        exact h
      · rcases channelReadFrame_other env (w := w) hreader with hsame | ⟨hdue, hreach, -⟩
        · rw [hsame]
          exact h
        · exact absurd ⟨hdue, hreach⟩ hask

/-- Neither the own `joined` event of the leg nor a request to answer it is among
    the inputs. -/
def Quiet (w : World) (session : Nat) (inputs : List Input) : Prop :=
  ∀ before i later v, inputs = before ++ i :: later → w.after switchTrue before = .ok v →
    ¬ i.IsOwnJoined v session ∧ ¬ i.AsksAnswer switchTrue v session

theorem after_fresh {session : Nat} (inputs : List Input) {w w' : World}
    (h : (w.legs session).Fresh) (hq : Quiet switchTrue w session inputs)
    (hw : w.after switchTrue inputs = .ok w') : (w'.legs session).Fresh := by
  induction inputs generalizing w with
  | nil =>
      cases hw
      exact h
  | cons i rest ih =>
      obtain ⟨hjoined, hask⟩ := hq [] i rest w rfl rfl
      simp only [World.after] at hw
      cases hu : w.input switchTrue i with
      | error fault => simp [hu] at hw
      | ok u =>
          rw [hu] at hw
          refine ih (input_fresh switchTrue h hjoined hask hu) ?_ hw
          intro before j later v hrest hv
          exact hq (i :: before) j later v (by rw [hrest]; rfl) (by simp [World.after, hu, hv])

/-! ## The own `joined` event -/

/-- The gate is armed, and nothing else has happened to it. -/
structure Leg.Armed (leg : Leg) : Prop where
  gate : ∃ answerDeadline, leg.gate = Gate.arm {} answerDeadline
  answers : leg.answers = 0

theorem joined_armed (env : Env) {w : World} {session : Nat} {serverId senderId : JanusId}
    (h : (w.legs session).Fresh) (hreach : w.Reaches session serverId senderId)
    (hvar : (w.legs session).varTrue switchTrue "janus-answer-on-participant-ready" = true)
    (roomId participantId : JanusId) :
    (((HandlerCall.joined serverId senderId roomId participantId).run (handlers switchTrue env)
      w).legs session).Armed := by
  obtain ⟨pServer, hfind⟩ := hreach.find
  have hsame := Leg.joined_sameGate switchTrue env pServer (w.legs session)
  rw [← World.onLeg_reached hfind fun pServer leg => leg.joined switchTrue env pServer,
    Leg.armGate, if_pos hvar] at hsame
  have hgate := hsame.gate
  rw [h.gate] at hgate
  exact ⟨⟨_, hgate⟩, hsame.answers.trans h.answers⟩

theorem self_held (env : Env) {w : World} {session : Nat} {serverId senderId : JanusId}
    {own : String} (h : (w.legs session).Armed) (hreach : w.Reaches session serverId senderId) :
    (((HandlerCall.participant serverId senderId own true true).run (handlers switchTrue env)
      w).legs session).Held own := by
  obtain ⟨pServer, hfind⟩ := hreach.find
  obtain ⟨⟨answerDeadline, hgate⟩, hanswers⟩ := h
  rw [run_participant, participant, if_pos rfl, World.onLeg_reached hfind]
  refine ⟨?_, ?_, ?_, ?_, hanswers⟩
  · rw [hgate]
    rfl
  · rw [hgate]
    rfl
  · rw [hgate]
    rfl
  · rw [hgate]
    rfl

/-- The own `joined` event arms the gate of a fresh leg and records its id before it
    reports anybody else. -/
theorem ownJoined_held {w w' : World} {session : Nat} {pEvent : CJson} {env : Env} {own : String}
    (h : (w.legs session).Fresh) (hown : OwnJoinedFor w session pEvent own)
    (hvar : (w.legs session).varTrue switchTrue "janus-answer-on-participant-ready" = true)
    (hremote : ¬ RemoteSetup w session own pEvent)
    (hw : w.input switchTrue (.event pEvent env) = .ok w') : (w'.legs session).Held own := by
  obtain ⟨response, hd, hjoined, hreach, hid⟩ := hown
  obtain ⟨calls, hcalls, rfl⟩ := dispatch_eq_ok switchTrue hw
  have hquiet : ∀ c ∈ calls, ¬ c.Reports w session own := by
    intro c hc hrep
    exact hremote (remoteSetup_of_reports hcalls hc hrep)
  -- arm the gate, record the own id, then report the others
  have hlist := pollEventCalls_ownJoined hd hjoined hid
  rw [hcalls, Except.ok.injEq] at hlist
  rw [hlist] at hquiet ⊢
  rw [List.foldl_cons, List.foldl_cons]
  refine calls_held switchTrue env _ ?_ ?_
  · refine self_held switchTrue env (joined_armed switchTrue env h hreach hvar _ _) ?_
    rw [World.Reaches, run_find]
    exact hreach
  · intro c hc hrep
    have hrep := run_reports switchTrue env (run_reports switchTrue env hrep)
    exact hquiet c (List.mem_cons_of_mem _ (List.mem_cons_of_mem _ hc)) hrep

/-- A leg that has `janus-answer-on-participant-ready` set, and whose own `joined`
    event comes before any request to answer it, is answered only in runs in which a
    remote participant was reported as set up, or a frame was read past the deadline
    with the answer requested. -/
theorem answered_only_if_released {w w₁ w' : World} {session : Nat} {pre post : List Input}
    {pEvent : CJson} {env : Env} {own : String} (hfresh : (w.legs session).Fresh)
    (hquiet : Quiet switchTrue w session pre) (hpre : w.after switchTrue pre = .ok w₁)
    (hvar : (w₁.legs session).varTrue switchTrue "janus-answer-on-participant-ready" = true)
    (hown : OwnJoinedFor w₁ session pEvent own)
    (hrun : w.after switchTrue (pre ++ .event pEvent env :: post) = .ok w')
    (hanswered : (w'.legs session).answers ≠ 0) :
    ReleasedIn switchTrue w session own (pre ++ .event pEvent env :: post) := by
  have hfresh₁ := after_fresh switchTrue pre hfresh hquiet hpre
  by_cases hremote : RemoteSetup w₁ session own pEvent
  · exact ⟨pre, .event pEvent env, post, w₁, rfl, hpre, hremote⟩
  · have hrest := after_append switchTrue hpre hrun
    simp only [World.after] at hrest
    cases hu : w₁.input switchTrue (.event pEvent env) with
    | error fault => simp [hu] at hrest
    | ok u =>
        rw [hu] at hrest
        have hheld := ownJoined_held switchTrue hfresh₁ hown hvar hremote hu
        -- a release after the own event is one of the whole run
        rcases after_held switchTrue post hheld hrest with hrel | hend
        · obtain ⟨before, i, later, v, rfl, hv, hi⟩ := hrel
          refine ⟨pre ++ .event pEvent env :: before, i, later, v, by simp, ?_, hi⟩
          exact after_append_ok switchTrue hpre (by simp [World.after, hu, hv])
        · exact absurd hend.answers hanswered

end Effects

/-- A gated leg with the ids 1 and 2. -/
def gatedWorld : World where
  serverIdLookup := hashInsert ∅ 1 0
  servers := fun _ => { senderIdLookup := hashInsert ∅ 2 0 }
  legs := fun _ => {
    serverId := 1
    senderId := 2
    channelVars := fun name =>
      if name = "janus-answer-on-participant-ready" then some "true" else none }

/-- The answer of Janus to the offer of a leg. -/
def answerEvent (serverId senderId : Int) (sdp : String) : CJson :=
  .object [("janus", .string "event"), ("session_id", .number (.ofInt serverId)),
    ("sender", .number (.ofInt senderId)),
    ("plugindata", .object [("plugin", .string JANUS_PLUGIN),
      ("data", .object [("audiobridge", .string "event"), ("result", .string "ok")])]),
    ("jsep", .object [("type", .string "answer"), ("sdp", .string sdp)])]

/-- The leg joins as 5; the answer is requested, the leg itself is reported as set
    up, and then participant 7 is. -/
def gatedRun : List Input :=
  [.event (answerEvent 1 2 "a=candidate:1") {}, .event (setupEvent 1 2 [.string "5"]) {},
    .event (setupEvent 1 2 [.number (.ofInt 7)]) {}]

theorem answered_only_if_released_gatedRun :
    ∃ w', gatedWorld.after (· == some "true")
        (.event (ownJoinedEvent 1 2 1234 (.number (.ofInt 5))) {} :: gatedRun) = .ok w' ∧
      (w'.legs 0).answers = 1 ∧
      ReleasedIn (· == some "true") gatedWorld 0 "5"
        (.event (ownJoinedEvent 1 2 1234 (.number (.ofInt 5))) {} :: gatedRun) := by
  have hanswers : (gatedWorld.after (· == some "true")
      (.event (ownJoinedEvent 1 2 1234 (.number (.ofInt 5))) {} :: gatedRun)).toOption.map
        (fun w' => (w'.legs 0).answers) = some 1 := by decide
  cases hrun : gatedWorld.after (· == some "true")
      (.event (ownJoinedEvent 1 2 1234 (.number (.ofInt 5))) {} :: gatedRun) with
  | error fault => simp [hrun, Except.toOption] at hanswers
  | ok w' =>
      have hone : (w'.legs 0).answers = 1 := by
        simpa [hrun, Except.toOption] using hanswers
      have hquiet : Quiet (· == some "true") gatedWorld 0 [] := by
        intro before i later v hnil
        simp at hnil
      have hown : OwnJoinedFor gatedWorld 0 (ownJoinedEvent 1 2 1234 (.number (.ofInt 5))) "5" :=
        ⟨_, rfl, ⟨rfl, rfl, .inl rfl, .inl rfl⟩, by decide, by decide⟩
      have hreleased := answered_only_if_released (· == some "true") ⟨rfl, rfl⟩
        hquiet rfl (by decide) hown hrun (by omega)
      exact ⟨w', rfl, hone, hreleased⟩

end ModJanus
