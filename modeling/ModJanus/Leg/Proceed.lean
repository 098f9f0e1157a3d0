/-
  ModJanus.Leg.Proceed

  Whether a leg has its media when it is answered.

  `proceed` negotiates the SDP and activates RTP, and is reached from `accepted` or
  from the last `trickle`; the decision to answer is taken elsewhere, right after
  `accepted` whatever it did.  A run is cut into the single calls of handlers and the
  frames (`Step`), each with what it does to the channel's log (`Log.Effect`): it
  answers, it negotiates, or it does neither.
-/
import ModJanus.Leg.GateRun
import ModJanus.Lib.Log

namespace ModJanus

/-- Some `proceed` has negotiated the SDP and then activated RTP, both with success. -/
def Proceeded (ops : List ChannelOp) : Prop :=
  ∃ sdp, [.negotiateSdp sdp true, .activateRtp true] <:+: ops

/-- Every answer in the log comes after a `proceed` that succeeded. -/
def AnswersAfterProceed (ops : List ChannelOp) : Prop :=
  Log.Guarded (fun _ o => o.isAnswer = true) Proceeded ops

theorem not_proceeded_nil : ¬ Proceeded [] := by
  rintro ⟨sdp, h⟩
  simp at h

/-- Not an operation that `AnswersAfterProceed` is about, wherever it stands. -/
def ChannelOp.isIdle : ChannelOp → Bool
  | .answer _ => false
  | .activateRtp _ => false
  | _ => true

theorem ChannelOp.not_answer_of_isIdle {o : ChannelOp} (h : o.isIdle = true) :
    ¬ o.isAnswer = true := by
  cases o with
  | answer ok => simp [ChannelOp.isIdle] at h
  | _ => simp [ChannelOp.isAnswer]

/-- The end of a pair that counts is never idle. -/
theorem proceeded_append_idle {ops added : List ChannelOp}
    (h : ∀ o ∈ added, o.isIdle = true) : Proceeded (ops ++ added) ↔ Proceeded ops := by
  have hnot : .activateRtp true ∉ added := by
    intro hmem
    have hidle := h _ hmem
    simp [ChannelOp.isIdle] at hidle
  have hhead : added.head? ≠ some (.activateRtp true) := by
    intro hhead
    exact hnot (List.mem_of_head? hhead)
  have hsplit : ∀ sdp, [ChannelOp.negotiateSdp sdp true, .activateRtp true] <:+: ops ++ added ↔
      [ChannelOp.negotiateSdp sdp true, .activateRtp true] <:+: ops := by
    intro sdp
    rw [Log.pair_infix_append hhead]
    refine or_iff_left fun hin => hnot (hin.subset ?_)
    simp
  exact exists_congr hsplit

/-! ## What a handler adds to the log of its leg -/

namespace Leg

/-- The handler adds nothing but idle operations. -/
def AddsIdle (leg leg' : Leg) : Prop :=
  ∃ added, leg'.ops = leg.ops ++ added ∧ ∀ o ∈ added, o.isIdle = true

theorem AddsIdle.of_ops {leg leg' : Leg} (h : leg'.ops = leg.ops) : AddsIdle leg leg' := by
  refine ⟨[], ?_, by simp⟩
  rw [h, List.append_nil]

theorem AddsIdle.trans {a b c : Leg} (h : AddsIdle a b) (h' : AddsIdle b c) : AddsIdle a c := by
  obtain ⟨added, hops, hidle⟩ := h
  obtain ⟨added', hops', hidle'⟩ := h'
  refine ⟨added ++ added', ?_, ?_⟩
  · rw [hops', hops, List.append_assoc]
  · rw [List.forall_mem_append]
    exact ⟨hidle, hidle'⟩

theorem AddsIdle.op {leg leg' : Leg} (h : AddsIdle leg leg') {o : ChannelOp}
    (ho : o.isIdle = true) : AddsIdle leg (leg'.op o) :=
  h.trans ⟨[o], rfl, by simpa using ho⟩

/-- What a handler does to the log of its leg, as far as the answer is concerned. -/
abbrev Effect (leg leg' : Leg) (demands grants : Prop) : Prop :=
  Log.Effect (fun _ o => o.isAnswer = true) Proceeded leg.ops leg'.ops demands grants

theorem AddsIdle.guarded {leg leg' : Leg} (h : AddsIdle leg leg') :
    AnswersAfterProceed leg'.ops ↔ AnswersAfterProceed leg.ops := by
  obtain ⟨added, hops, hidle⟩ := h
  rw [hops]
  apply Log.guarded_append
  intro o hmem before
  exact ChannelOp.not_answer_of_isIdle (hidle o hmem)

theorem AddsIdle.proceeded {leg leg' : Leg} (h : AddsIdle leg leg') :
    Proceeded leg'.ops ↔ Proceeded leg.ops := by
  obtain ⟨added, hops, hidle⟩ := h
  rw [hops]
  exact proceeded_append_idle hidle

theorem AddsIdle.effect {leg leg' : Leg} (h : AddsIdle leg leg') {demands grants : Prop}
    (hdemands : ¬ demands) (hgrants : ¬ grants) : Effect leg leg' demands grants :=
  Log.Effect.idle h.guarded h.proceeded hdemands hgrants

/-- Idle operations that follow do not matter. -/
theorem AddsIdle.after {leg leg' leg'' : Leg} {demands grants : Prop}
    (h : AddsIdle leg' leg'') (heffect : Effect leg leg' demands grants) :
    Effect leg leg'' demands grants :=
  ⟨h.guarded.trans heffect.guarded, h.proceeded.trans heffect.needs⟩

/-- Preparations are idle. -/
theorem Prepares.addsIdle {leg leg' : Leg} (h : Prepares leg leg') : AddsIdle leg leg' := by
  obtain ⟨added, hops, hadded⟩ := h.ops
  refine ⟨added, hops, ?_⟩
  intro o hmem
  have hprep := hadded o hmem
  cases o with
  | answer ok | activateRtp ok => cases hprep
  | _ => rfl

/-- The two operations that count, next to each other. -/
theorem negotiated_effect (leg : Leg) (sdp : String) (ok : Bool) :
    Effect leg ((leg.op (.negotiateSdp sdp true)).op (.activateRtp ok)) False (ok = true) := by
  have hops : ((leg.op (.negotiateSdp sdp true)).op (.activateRtp ok)).ops =
      leg.ops ++ [.negotiateSdp sdp true, .activateRtp ok] := by
    simp [op]
  constructor
  · rw [hops, false_imp_iff, and_true]
    apply Log.guarded_append
    intro o hmem before
    rcases List.mem_pair.mp hmem with rfl | rfl <;> simp [ChannelOp.isAnswer]
  · rw [hops]
    constructor
    · -- a pair stands in the old log or is the new one
      rintro ⟨sdp', hin⟩
      rcases (Log.pair_infix_append (by simp)).mp hin with hold | hnew
      · exact .inl ⟨sdp', hold⟩
      · have hmem : ChannelOp.activateRtp true ∈
            [ChannelOp.negotiateSdp sdp true, .activateRtp ok] := hnew.subset (by simp)
        exact .inr (by simpa [eq_comm] using hmem)
    · rintro (⟨sdp', hold⟩ | rfl)
      · exact ⟨sdp', hold.trans (List.prefix_append _ _).isInfix⟩
      · exact ⟨sdp, (List.suffix_append _ _).isInfix⟩

/-- `proceed` negotiates and activates exactly when there is an SDP and both go well. -/
theorem proceed_effect (env : Env) (leg : Leg) :
    Effect leg (leg.proceed env).2 False
      (leg.pSdpBody.isSome = true ∧ env.negotiateSdp = true ∧ env.activateRtp = true) := by
  unfold proceed
  split
  · -- without an SDP there is nothing to negotiate
    next hbody =>
      apply AddsIdle.effect ((AddsIdle.of_ops rfl).op rfl) id
      simp [hbody]
  · next pSdpBody hbody =>
      cases hneg : env.negotiateSdp with
      | false =>
          -- the leg is hung up, and RTP is left alone
          apply AddsIdle.effect _ id (by simp)
          exact (((AddsIdle.of_ops rfl).op rfl).op rfl).trans
            ((Prepares.refl _).doPreAnswer env).addsIdle
      | true =>
          have heffect := negotiated_effect leg (sdp pSdpBody leg.pSdpCandidates) env.activateRtp
          cases hact : env.activateRtp with
          | false =>
              -- the leg is hung up after the two operations
              rw [hact] at heffect
              apply AddsIdle.after ((AddsIdle.of_ops rfl).op rfl)
              exact heffect.congr Iff.rfl (by simp)
          | true =>
              rw [hact] at heffect
              apply AddsIdle.after ((Prepares.refl _).doPreAnswer env).addsIdle
              exact heffect.congr Iff.rfl (by simp [hbody])

theorem accepted_effect (env : Env) (pSdp : String) (leg : Leg) :
    Effect leg (leg.accepted env pSdp).2 False
      ((strstr pSdp "a=candidate:" = true ∨ leg.isTrickleComplete = true) ∧
        env.negotiateSdp = true ∧ env.activateRtp = true) := by
  unfold accepted
  dsimp only
  split
  · next hready =>
      have hready' : strstr pSdp "a=candidate:" = true ∨ leg.isTrickleComplete = true := by
        simpa using hready
      exact (proceed_effect env { leg with pSdpBody := some pSdp }).congr Iff.rfl
        (by simp [hready'])
  · -- the SDP is only stored
    next hwait =>
      have hwait' : ¬ (strstr pSdp "a=candidate:" = true ∨ leg.isTrickleComplete = true) := by
        simpa using hwait
      exact (AddsIdle.of_ops rfl).effect id fun h => hwait' h.1

theorem trickle_effect (env : Env) (pCandidate : Option String) (leg : Leg) :
    Effect leg (leg.trickle env pCandidate).2 False
      (pCandidate.getD "" = "" ∧ leg.pSdpBody.isSome = true ∧ env.negotiateSdp = true ∧
        env.activateRtp = true) := by
  unfold trickle
  dsimp only
  split
  · next hlast =>
      split
      · next hbody =>
          have heffect := proceed_effect env { leg with
            isTrickleComplete := true
            pSdpCandidates := some (leg.pSdpCandidates.getD "" ++ "a=end-of-candidates\r\n") }
          exact heffect.congr Iff.rfl (by simp [hlast])
      · next hbody => exact (AddsIdle.of_ops rfl).effect id fun h => hbody h.2.1
  · next hmore => exact (AddsIdle.of_ops rfl).effect id fun h => hmore h.1

/-- `answered` invokes `switch_channel_answer` exactly when the gate lets it. -/
theorem answered_effect (env : Env) (leg : Leg) :
    Effect leg (leg.answered env).2 (leg.gate.answered.2 = true) False := by
  cases hgate : leg.gate.answered.2 with
  | false =>
      have hops : (leg.answered env).2.ops = leg.ops := by
        simp [answered, hgate]
      exact (AddsIdle.of_ops hops).effect (by simp) id
  | true =>
      have hanswer : Effect leg (leg.op (.answer env.answer)) (true = true) False := by
        constructor
        · exact Log.guarded_concat
        · -- an answer completes no pair
          rw [or_false]
          show Proceeded (leg.ops ++ [.answer env.answer]) ↔ Proceeded leg.ops
          refine exists_congr fun sdp => ?_
          rw [Log.pair_infix_append (by simp)]
          refine or_iff_left fun hin => ?_
          have hmem := hin.subset (List.mem_cons_self)
          simp at hmem
      refine AddsIdle.after ?_ hanswer
      unfold answered
      simp only [hgate, Bool.not_true, Bool.false_eq_true, if_false]
      split
      · exact (AddsIdle.of_ops rfl).op rfl
      · exact AddsIdle.of_ops rfl

/-- The own `joined` event neither answers the leg nor negotiates its media. -/
theorem joined_idle (switchTrue : Option String → Bool) (env : Env) (pServer : LegServer)
    (leg : Leg) : AddsIdle leg (leg.joined switchTrue env pServer).2 := by
  have harm : (leg.armGate switchTrue env).ops = leg.ops := by
    unfold armGate
    split <;> rfl
  exact (AddsIdle.of_ops harm).trans (joined_prepares switchTrue env pServer leg).addsIdle

end Leg

/-! ## Steps of a run -/

section Steps

variable (switchTrue : Option String → Bool)

/-- One call of a handler, or one frame, with what is outside meanwhile. -/
inductive Step where
  | call (c : HandlerCall) (env : Env)
  | frame (session : Nat) (env : Env)

def World.step (w : World) : Step → World
  | .call c env => c.run (handlers switchTrue env) w
  | .frame session env => channelReadFrame env session w

/-- The steps that an input is made of. -/
def Input.steps : Input → List Step
  | .event pEvent env =>
      match pollEventCalls pEvent with
      | .ok calls => calls.map (Step.call · env)
      | .error _ => []
  | .frame session env => [.frame session env]

/-- The step gets to `switch_channel_answer` of the leg: its answer is asked for, and
    the gate lets it through. -/
def Step.Answers (session : Nat) (w : World) : Step → Prop
  | .call (.answeredOnWebrtcup serverId senderId) _ =>
      w.Reaches session serverId senderId ∧
        (w.legs session).answerOnWebrtcup switchTrue = true ∧
        (w.legs session).gate.answered.2 = true
  | .call (.answeredOnAccept serverId senderId) _ =>
      w.Reaches session serverId senderId ∧
        (w.legs session).answerOnWebrtcup switchTrue = false ∧
        (w.legs session).gate.answered.2 = true
  | .call (.participant serverId senderId id false setup) _ =>
      w.Reaches session serverId senderId ∧
        ((w.legs session).gate.participantRemote id setup).2 = true
  | .frame reader env =>
      (w.legs reader).gate.due env.now = true ∧
        w.Reaches session (w.legs reader).serverId (w.legs reader).senderId ∧
        (reader = session ∨ (w.legs session).gate.answered.2 = true)
  | _ => False

/-- The step calls `proceed` for the leg with an SDP, and both the negotiation and
    the activation of RTP succeed. -/
def Step.Negotiates (session : Nat) (w : World) : Step → Prop
  | .call (.accepted serverId senderId pSdp) env =>
      w.Reaches session serverId senderId ∧
        (strstr pSdp "a=candidate:" = true ∨ (w.legs session).isTrickleComplete = true) ∧
        env.negotiateSdp = true ∧ env.activateRtp = true
  | .call (.trickle serverId senderId pCandidate) env =>
      w.Reaches session serverId senderId ∧
        pCandidate.getD "" = "" ∧ (w.legs session).pSdpBody.isSome = true ∧
        env.negotiateSdp = true ∧ env.activateRtp = true
  | _ => False

theorem Step.Answers.for_call {session : Nat} {w : World} {c : HandlerCall} {env : Env}
    (h : (Step.call c env).Answers switchTrue session w) : c.For w session := by
  cases c with
  | answeredOnWebrtcup => exact h.1
  | answeredOnAccept => exact h.1
  | participant serverId senderId id isSelf setup =>
      cases isSelf with
      | false => exact h.1
      | true => exact h.elim
  | _ => exact h.elim

theorem Step.Negotiates.for_call {session : Nat} {w : World} {c : HandlerCall} {env : Env}
    (h : (Step.call c env).Negotiates session w) : c.For w session := by
  cases c with
  | accepted => exact h.1
  | trickle => exact h.1
  | _ => exact h.elim

/-- A handler that works on one leg, seen from that leg. -/
theorem onLeg_effect {w : World} {session : Nat} {serverId senderId : JanusId}
    {f : LegServer → Leg → Status × Leg} {demands grants : Prop}
    (hreach : w.Reaches session serverId senderId)
    (hf : ∀ pServer, (w.legs session).Effect (f pServer (w.legs session)).2 demands grants) :
    (w.legs session).Effect ((w.onLeg serverId senderId f).2.legs session) demands grants := by
  obtain ⟨pServer, hfind⟩ := hreach.find
  rw [World.onLeg_reached hfind]
  exact hf pServer

theorem answered_step_effect (env : Env) {w : World} {session : Nat} {serverId senderId : JanusId}
    (hreach : w.Reaches session serverId senderId) :
    (w.legs session).Effect ((answered env serverId senderId w).2.legs session)
      ((w.legs session).gate.answered.2 = true) False :=
  onLeg_effect hreach fun _ => Leg.answered_effect env _

theorem answerOnWebrtcup_reached {w : World} {session : Nat} {serverId senderId : JanusId}
    (hreach : w.Reaches session serverId senderId) :
    answerOnWebrtcup switchTrue serverId senderId w =
      (w.legs session).answerOnWebrtcup switchTrue := by
  obtain ⟨pServer, hfind⟩ := hreach.find
  rw [answerOnWebrtcup, hfind]

/-- `answered` behind a gate that has just been opened. -/
theorem opened_effect (env : Env) {w : World} {session : Nat} {serverId senderId : JanusId}
    (hreach : w.Reaches session serverId senderId) {gate : Gate}
    (hgate : gate.answered.2 = true) {demands : Prop} (hdemands : demands) :
    (w.legs session).Effect ((answered env serverId senderId
      (w.setLeg session { w.legs session with gate := gate })).2.legs session) demands False := by
  have hreach' : World.Reaches (w.setLeg session { w.legs session with gate := gate })
      session serverId senderId := hreach
  have heffect := answered_step_effect env hreach'
  rw [World.setLeg_self] at heffect
  exact heffect.congr (iff_of_true hgate hdemands) Iff.rfl

/-- The report of a remote participant answers the leg exactly when its section
    releases the answer. -/
theorem participant_effect (env : Env) {w : World} {session : Nat} {serverId senderId : JanusId}
    (hreach : w.Reaches session serverId senderId) (id : String) (setup : Bool) :
    (w.legs session).Effect ((participant env serverId senderId id false setup w).2.legs session)
      (((w.legs session).gate.participantRemote id setup).2 = true) False := by
  obtain ⟨pServer, hfind⟩ := hreach.find
  simp only [participant, Bool.false_eq_true, if_false, hfind]
  -- the report changes nothing, or opens the gate
  rcases (w.legs session).gate.participantRemote_cases id setup with
    hsection | ⟨-, hdone, -, -, hsection⟩
  · rw [hsection]
    simp only [Bool.false_eq_true, if_false, World.setLeg_self]
    exact (Leg.AddsIdle.of_ops rfl).effect (fun h => h) fun h => h
  · rw [hsection]
    dsimp only
    split
    · next hasked =>
        refine opened_effect env hreach ?_ hasked
        simp [Gate.answered, hdone]
    · next hasked =>
        rw [World.setLeg_self]
        exact (Leg.AddsIdle.of_ops rfl).effect hasked fun h => h

/-- What a call of a handler does to the log of any leg. -/
theorem call_effect (c : HandlerCall) (env : Env) (w : World) (session : Nat) :
    (w.legs session).Effect ((c.run (handlers switchTrue env) w).legs session)
      ((Step.call c env).Answers switchTrue session w)
      ((Step.call c env).Negotiates session w) := by
  -- every handler looks its leg up first, and leaves the others alone
  by_cases hfor : c.For w session
  · cases c with
    | joined serverId senderId roomId participantId =>
        apply onLeg_effect hfor
        intro pServer
        exact (Leg.joined_idle switchTrue env pServer _).effect id id
    | accepted serverId senderId pSdp =>
        apply onLeg_effect hfor
        intro pServer
        refine (Leg.accepted_effect env pSdp _).congr Iff.rfl ?_
        exact (and_iff_right hfor).symm
    | trickle serverId senderId pCandidate =>
        apply onLeg_effect hfor
        intro pServer
        refine (Leg.trickle_effect env pCandidate _).congr Iff.rfl ?_
        exact (and_iff_right hfor).symm
    | answeredOnWebrtcup serverId senderId =>
        have hup := answerOnWebrtcup_reached switchTrue hfor
        dsimp only [HandlerCall.ids] at hup
        rw [run_answeredOnWebrtcup, hup]
        split
        · next hup =>
            refine (answered_step_effect env hfor).congr ?_ Iff.rfl
            exact ⟨fun h => ⟨hfor, hup, h⟩, fun h => h.2.2⟩
        · next hup => exact (Leg.AddsIdle.of_ops rfl).effect (fun h => hup h.2.1) id
    | answeredOnAccept serverId senderId =>
        have hup := answerOnWebrtcup_reached switchTrue hfor
        dsimp only [HandlerCall.ids] at hup
        rw [run_answeredOnAccept, hup]
        split
        · next hup =>
            refine (Leg.AddsIdle.of_ops rfl).effect (fun h => ?_) id
            exact absurd hup (Bool.eq_false_iff.mp h.2.1)
        · next hup =>
            refine (answered_step_effect env hfor).congr ?_ Iff.rfl
            exact ⟨fun h => ⟨hfor, Bool.eq_false_iff.mpr hup, h⟩, fun h => h.2.2⟩
    | hungup serverId senderId pReason =>
        apply onLeg_effect hfor
        intro pServer
        exact ((Leg.AddsIdle.of_ops rfl).op rfl).effect id id
    | participant serverId senderId id isSelf setup =>
        rw [run_participant]
        cases isSelf with
        | true =>
            rw [participant, if_pos rfl]
            apply onLeg_effect hfor
            intro pServer
            exact (Leg.AddsIdle.of_ops rfl).effect (fun h => h) fun h => h
        | false =>
            refine (participant_effect env hfor id setup).congr ?_ Iff.rfl
            exact (and_iff_right hfor).symm
  · rw [run_unreached switchTrue env hfor]
    refine (Leg.AddsIdle.of_ops rfl).effect (fun h => hfor ?_) fun h => hfor h.for_call
    exact h.for_call

/-- A frame that is due asks for the answer of the leg that the reader's ids lead to. -/
theorem frame_effect (env : Env) (w : World) (reader session : Nat) :
    (w.legs session).Effect ((channelReadFrame env reader w).legs session)
      ((Step.frame reader env).Answers switchTrue session w) False := by
  unfold channelReadFrame
  dsimp only
  split
  · next hdue =>
      by_cases hreach : w.Reaches session (w.legs reader).serverId (w.legs reader).senderId
      · by_cases hreader : session = reader
        · -- the deadline has opened the gate of the leg that is answered
          subst hreader
          have hdone : (w.legs session).gate.answerDone = false := by
            simp only [Gate.due, Bool.and_eq_true, Bool.not_eq_true'] at hdue
            exact hdue.1.1.2
          refine opened_effect env hreach ?_ ⟨hdue, hreach, .inl rfl⟩
          simp [Gate.answered, Gate.deadlinePassed, hdone]
        · rw [World.setLeg_answered env w hreader, if_pos hreach]
          refine (Leg.answered_effect env _).congr ?_ Iff.rfl
          have hne : reader ≠ session := fun h => hreader h.symm
          simp [Step.Answers, hdue, hreach, hne]
      · -- the ids of the reader do not lead to this leg, whoever the reader is
        have hsame : ((answered env (w.legs reader).serverId (w.legs reader).senderId
            (w.setLeg reader { w.legs reader with
              gate := (w.legs reader).gate.deadlinePassed })).2.legs session).ops =
            (w.legs session).ops := by
          by_cases hreader : session = reader
          · subst hreader
            have hreach' : ¬ World.Reaches (w.setLeg session { w.legs session with
                gate := (w.legs session).gate.deadlinePassed })
                session (w.legs session).serverId (w.legs session).senderId := hreach
            rw [answered, World.onLeg_unreached hreach', World.setLeg_self]
          · rw [World.setLeg_answered env w hreader, if_neg hreach]
        exact (Leg.AddsIdle.of_ops hsame).effect (fun h => hreach h.2.1) id
  · next hdue => exact (Leg.AddsIdle.of_ops rfl).effect (fun h => hdue h.1) id

theorem step_effect (session : Nat) (w : World) (s : Step) :
    (w.legs session).Effect ((w.step switchTrue s).legs session)
      (s.Answers switchTrue session w) (s.Negotiates session w) := by
  cases s with
  | call c env => exact call_effect switchTrue c env w session
  | frame reader env => exact frame_effect switchTrue env w reader session

/-! ## Runs -/

/-- A run of events and frames is a run of their steps. -/
theorem after_steps (inputs : List Input) {w w' : World}
    (h : w.after switchTrue inputs = .ok w') :
    w' = (inputs.flatMap Input.steps).foldl (World.step switchTrue) w := by
  induction inputs generalizing w with
  | nil =>
      cases h
      rfl
  | cons i rest ih =>
      simp only [World.after] at h
      cases hu : w.input switchTrue i with
      | error fault => simp [hu] at h
      | ok u =>
          rw [hu] at h
          rw [List.flatMap_cons, List.foldl_append, ih h]
          congr 1
          cases i with
          | event pEvent env =>
              obtain ⟨calls, hcalls, rfl⟩ := dispatch_eq_ok switchTrue hu
              simp only [Input.steps, hcalls, List.foldl_map]
              rfl
          | frame reader env =>
              cases hu
              rfl

/-- No step of the run answers the leg before some step has negotiated its media. -/
def NegotiatesFirst (w : World) (session : Nat) (inputs : List Input) : Prop :=
  Log.GrantedFirst (World.step switchTrue) (Step.Answers switchTrue session)
    (Step.Negotiates session) w (inputs.flatMap Input.steps)

/-- A leg is answered only after a `proceed` that succeeded, exactly in the runs in
    which no step answers it before one has negotiated its media. -/
theorem answersAfterProceed_iff {w w' : World} {session : Nat} {inputs : List Input}
    (hnew : (w.legs session).ops = []) (hrun : w.after switchTrue inputs = .ok w') :
    AnswersAfterProceed (w'.legs session).ops ↔ NegotiatesFirst switchTrue w session inputs := by
  rw [after_steps switchTrue inputs hrun]
  refine Log.guarded_run (World.step switchTrue) (fun v => (v.legs session).ops)
    (step_effect switchTrue session) ?_ ?_ _
  · show ¬ Proceeded (w.legs session).ops
    rw [hnew]
    exact not_proceeded_nil
  · show AnswersAfterProceed (w.legs session).ops
    rw [hnew]
    exact Log.guarded_nil

end Steps

/-- A leg with the ids 1 and 2, and no variable set. -/
def plainWorld : World where
  serverIdLookup := hashInsert ∅ 1 0
  servers := fun _ => { senderIdLookup := hashInsert ∅ 2 0 }

/-- The log of the leg after its SDP answer has been dispatched. -/
def logAfterAnswer (pSdp : String) : Option (List ChannelOp) :=
  (plainWorld.after (· == some "true") [.event (answerEvent 1 2 pSdp) {}]).toOption.map
    fun w' => (w'.legs 0).ops

theorem logAfterAnswer_ok {pSdp : String} {ops : List ChannelOp}
    (h : logAfterAnswer pSdp = some ops) :
    ∃ w', plainWorld.after (· == some "true") [.event (answerEvent 1 2 pSdp) {}] = .ok w' ∧
      (w'.legs 0).ops = ops := by
  unfold logAfterAnswer at h
  cases hrun : plainWorld.after (· == some "true") [.event (answerEvent 1 2 pSdp) {}] with
  | error fault => simp [hrun, Except.toOption] at h
  | ok w' => exact ⟨w', rfl, by simpa [hrun, Except.toOption] using h⟩

/-- An SDP that brings its candidates along is negotiated before the answer. -/
theorem answersAfterProceed_iff_candidates :
    ∃ w', plainWorld.after (· == some "true")
        [.event (answerEvent 1 2 "a=candidate:1") {}] = .ok w' ∧
      AnswersAfterProceed (w'.legs 0).ops ∧
      NegotiatesFirst (· == some "true") plainWorld 0
        [.event (answerEvent 1 2 "a=candidate:1") {}] := by
  have hlog : logAfterAnswer "a=candidate:1" =
      some ([.negotiateSdp "a=candidate:1" true, .activateRtp true, .preAnswer true,
        .markPreAnswered] ++ [.answer true] ++ [.markAnswered]) := by decide
  obtain ⟨w', hrun, hops⟩ := logAfterAnswer_ok hlog
  have hafter : AnswersAfterProceed (w'.legs 0).ops := by
    rw [hops]
    have hmarked : ∀ o ∈ [ChannelOp.markAnswered], ∀ _before : List ChannelOp,
        ¬ o.isAnswer = true := by
      simp [ChannelOp.isAnswer]
    refine (Log.guarded_append hmarked).mpr (Log.guarded_concat.mpr ⟨?_, fun _ => ?_⟩)
    · have hfree : ∀ o ∈ [ChannelOp.negotiateSdp "a=candidate:1" true, .activateRtp true,
          .preAnswer true, .markPreAnswered], ∀ _before : List ChannelOp, ¬ o.isAnswer = true := by
        simp [ChannelOp.isAnswer]
      exact (Log.guarded_append hfree).mpr Log.guarded_nil
    · exact ⟨_, [], _, rfl⟩
  exact ⟨w', hrun, hafter, (answersAfterProceed_iff (· == some "true") rfl hrun).mp hafter⟩

/-- An SDP without candidates is answered at once, although `accepted` waits for them
    and nothing has been negotiated. -/
theorem answered_without_proceed :
    ¬ ∀ (switchTrue : Option String → Bool) (w w' : World) (session : Nat)
        (inputs : List Input), (w.legs session).ops = [] →
      w.after switchTrue inputs = .ok w' → AnswersAfterProceed (w'.legs session).ops := by
  intro h
  have hlog : logAfterAnswer "v=0" = some [.answer true, .markAnswered] := by decide
  obtain ⟨w', hrun, hops⟩ := logAfterAnswer_ok hlog
  have hafter := h _ plainWorld w' 0 _ rfl hrun
  rw [hops] at hafter
  exact not_proceeded_nil (hafter [] (.answer true) [.markAnswered] rfl rfl)

end ModJanus
