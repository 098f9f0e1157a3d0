/-
  ModJanus.Leg.Media

  What a leg keeps of the SDP answer and the candidates, as a machine of its own.

  `accepted` and `trickle` are all that the machine takes, and the SDP that `proceed`
  negotiates is all that it puts out.  Among the calls of the handlers and the frames of
  a run, those that are one of the two for a leg are the steps of its machine; every other
  step leaves its media alone (`run_follows`).
-/
import ModJanus.Leg.Proceed
import ModJanus.Lib.Mealy

namespace ModJanus

/-! ## The machine -/

/-- The fields of `private_t` that wait for the media of the leg. -/
structure Media where
  pSdpBody : Option String := none
  pSdpCandidates : Option String := none
  isTrickleComplete : Bool := false
  deriving DecidableEq, Repr

/-- A call for a leg that brings a part of its media. -/
inductive MediaCall where
  | accepted (pSdp : String)
  | trickle (pCandidate : Option String)
  deriving DecidableEq, Repr

/-- The end of the candidates. -/
def MediaCall.isCompletion : MediaCall → Bool
  | .accepted _ => false
  | .trickle pCandidate => pCandidate.getD "" = ""

/-- The SDP brings candidates of its own. -/
def hasCandidates (pSdp : String) : Bool := strstr pSdp "a=candidate:"

/-- The line of the SDP that a trickle call adds. -/
def candidateLine (pCandidate : Option String) : String :=
  if pCandidate.getD "" = "" then "a=end-of-candidates\r\n"
  else "a=" ++ pCandidate.getD "" ++ "\r\n"

namespace Media

/-- The call, and the SDP that is negotiated when it enters `proceed`. -/
def step (m : Media) : MediaCall → Media × Option String
  | .accepted pSdp =>
      ({ m with pSdpBody := some pSdp },
        if hasCandidates pSdp || m.isTrickleComplete then some (Leg.sdp pSdp m.pSdpCandidates)
        else none)
  | .trickle pCandidate =>
      let candidates := some (m.pSdpCandidates.getD "" ++ candidateLine pCandidate)
      if pCandidate.getD "" = "" then
        ({ m with isTrickleComplete := true, pSdpCandidates := candidates },
          m.pSdpBody.map (Leg.sdp · candidates))
      else ({ m with pSdpCandidates := candidates }, none)

abbrev state (m : Media) (calls : List MediaCall) : Media := Mealy.state step m calls

/-- The SDPs that are negotiated. -/
abbrev negotiated (m : Media) (calls : List MediaCall) : List String :=
  Mealy.outputs step m calls

end Media

/-! ## The machine of a leg -/

/-- The SDP of a negotiation. -/
def ChannelOp.negotiatedSdp : ChannelOp → Option String
  | .negotiateSdp sdp _ => some sdp
  | _ => none

def ChannelOp.activatesRtp : ChannelOp → Bool
  | .activateRtp _ => true
  | _ => false

namespace Leg

def media (leg : Leg) : Media where
  pSdpBody := leg.pSdpBody
  pSdpCandidates := leg.pSdpCandidates
  isTrickleComplete := leg.isTrickleComplete

/-- The SDPs that were given to `switch_core_media_negotiate_sdp`. -/
def negotiated (leg : Leg) : List String := leg.ops.filterMap ChannelOp.negotiatedSdp

/-- How often `switch_core_media_activate_rtp` was invoked. -/
def activations (leg : Leg) : Nat := leg.ops.countP ChannelOp.activatesRtp

/-- Nothing of the media has arrived, and nothing was done with it. -/
structure MediaFresh (leg : Leg) : Prop where
  media : leg.media = {}
  negotiated : leg.negotiated = []
  activations : leg.activations = 0

/-- The handler leaves the media of its leg alone. -/
structure SameMedia (leg leg' : Leg) : Prop where
  media : leg'.media = leg.media
  negotiated : leg'.negotiated = leg.negotiated
  activations : leg'.activations = leg.activations

theorem SameMedia.refl (leg : Leg) : SameMedia leg leg := ⟨rfl, rfl, rfl⟩

theorem SameMedia.of_eq {leg leg' : Leg} (hmedia : leg'.media = leg.media)
    (hops : leg'.ops = leg.ops) : SameMedia leg leg' := by
  refine ⟨hmedia, ?_, ?_⟩
  · rw [Leg.negotiated, hops, Leg.negotiated]
  · rw [Leg.activations, hops, Leg.activations]

theorem SameMedia.trans {a b c : Leg} (h : SameMedia a b) (h' : SameMedia b c) :
    SameMedia a c :=
  ⟨h'.media.trans h.media, h'.negotiated.trans h.negotiated, h'.activations.trans h.activations⟩

/-- Any operation but a negotiation and an activation. -/
theorem SameMedia.op {leg leg' : Leg} (h : SameMedia leg leg') {o : ChannelOp}
    (hsdp : o.negotiatedSdp = none) (hrtp : o.activatesRtp = false) :
    SameMedia leg (leg'.op o) := by
  refine h.trans ⟨rfl, ?_, ?_⟩
  · simp [Leg.negotiated, Leg.op, hsdp]
  · simp [Leg.activations, Leg.op, hrtp]

/-- Preparations neither negotiate nor activate. -/
theorem Prepares.sameMedia {leg leg' : Leg} (h : Prepares leg leg') : SameMedia leg leg' := by
  obtain ⟨added, hops, hadded⟩ := h.ops
  have hsdp : added.filterMap ChannelOp.negotiatedSdp = [] := by
    rw [List.filterMap_eq_nil_iff]
    intro o hmem
    have hprep := hadded o hmem
    cases o with
    | negotiateSdp sdp ok => cases hprep
    | _ => rfl
  have hrtp : added.countP ChannelOp.activatesRtp = 0 := by
    rw [List.countP_eq_zero]
    intro o hmem
    have hprep := hadded o hmem
    cases o with
    | activateRtp ok => cases hprep
    | _ => simp [ChannelOp.activatesRtp]
  refine ⟨?_, ?_, ?_⟩
  · simp only [Leg.media, h.pSdpBody, h.pSdpCandidates, h.isTrickleComplete]
  · rw [Leg.negotiated, hops, List.filterMap_append, hsdp, List.append_nil, ← Leg.negotiated]
  · rw [Leg.activations, hops, List.countP_append, hrtp, Nat.add_zero, ← Leg.activations]

/-- What a step of the machine does to the log of its leg. -/
structure Follows (leg leg' : Leg) (m : Media) (sdps : List String) : Prop where
  media : leg'.media = m
  negotiated : leg'.negotiated = leg.negotiated ++ sdps
  activations : leg'.activations ≤ leg.activations + sdps.length

theorem SameMedia.follows {leg leg' : Leg} (h : SameMedia leg leg') :
    Follows leg leg' leg.media [] :=
  ⟨h.media, by rw [h.negotiated, List.append_nil], by rw [h.activations]; exact Nat.le_add_right ..⟩

theorem Follows.sameMedia {leg leg' leg'' : Leg} {m : Media} {sdps : List String}
    (h : Follows leg leg' m sdps) (h' : SameMedia leg' leg'') : Follows leg leg'' m sdps := by
  refine ⟨h'.media.trans h.media, h'.negotiated.trans h.negotiated, ?_⟩
  rw [h'.activations]
  exact h.activations

/-- `proceed` with an SDP negotiates it once, and activates RTP at most once. -/
theorem proceed_follows (env : Env) {leg : Leg} {pSdpBody : String}
    (hbody : leg.pSdpBody = some pSdpBody) :
    Follows leg (leg.proceed env).2 leg.media [sdp pSdpBody leg.pSdpCandidates] := by
  have hnegotiate : ∀ ok, Follows leg
      (leg.op (.negotiateSdp (sdp pSdpBody leg.pSdpCandidates) ok)) leg.media
      [sdp pSdpBody leg.pSdpCandidates] := by
    intro ok
    refine ⟨rfl, ?_, ?_⟩
    · simp [Leg.negotiated, Leg.op, ChannelOp.negotiatedSdp]
    · simp [Leg.activations, Leg.op, ChannelOp.activatesRtp]
  have hactivate : ∀ ok ok', Follows leg
      ((leg.op (.negotiateSdp (sdp pSdpBody leg.pSdpCandidates) ok)).op (.activateRtp ok'))
      leg.media [sdp pSdpBody leg.pSdpCandidates] := by
    intro ok ok'
    refine ⟨rfl, ?_, ?_⟩
    · simp [Leg.negotiated, Leg.op, ChannelOp.negotiatedSdp]
    · simp [Leg.activations, Leg.op, ChannelOp.activatesRtp]
  -- RTP is activated only after a negotiation that succeeded
  unfold proceed
  rw [hbody]
  dsimp only
  split
  · split
    · exact (hactivate _ _).sameMedia ((Prepares.refl _).doPreAnswer env).sameMedia
    · exact (hactivate _ _).sameMedia ((Prepares.refl _).op rfl).sameMedia
  · apply (hnegotiate _).sameMedia
    exact (((Prepares.refl _).op rfl).doPreAnswer env).sameMedia

theorem Follows.trans {leg leg' leg'' : Leg} {m m' : Media} {sdps sdps' : List String}
    (h : Follows leg leg' m sdps) (h' : Follows leg' leg'' m' sdps') :
    Follows leg leg'' m' (sdps ++ sdps') := by
  refine ⟨h'.media, ?_, ?_⟩
  · rw [h'.negotiated, h.negotiated, List.append_assoc]
  · have hle := h.activations
    have hle' := h'.activations
    rw [List.length_append]
    omega

/-- Only the log of the leg matters before the step. -/
theorem Follows.of_ops {leg leg₀ leg' : Leg} {m : Media} {sdps : List String}
    (h : Follows leg₀ leg' m sdps) (hops : leg₀.ops = leg.ops) : Follows leg leg' m sdps := by
  have hsame : SameMedia leg₀ { leg₀ with ops := leg.ops } := .of_eq rfl hops.symm
  refine ⟨h.media, ?_, ?_⟩
  · rw [h.negotiated, ← hsame.negotiated]
    rfl
  · have hle := h.activations
    rwa [← hsame.activations] at hle

/-- A leg whose log is as it was. -/
theorem follows_nil {leg leg' : Leg} (hops : leg'.ops = leg.ops) :
    Follows leg leg' leg'.media [] := by
  refine ⟨rfl, ?_, ?_⟩
  · rw [Leg.negotiated, hops, List.append_nil, ← Leg.negotiated]
  · rw [Leg.activations, hops, ← Leg.activations]
    exact Nat.le_add_right ..

theorem accepted_follows (env : Env) (pSdp : String) (leg : Leg) :
    Follows leg (leg.accepted env pSdp).2 (leg.media.step (.accepted pSdp)).1
      (leg.media.step (.accepted pSdp)).2.toList := by
  have hready : (!(!strstr pSdp "a=candidate:") || leg.isTrickleComplete) =
      (hasCandidates pSdp || leg.media.isTrickleComplete) := by
    rw [Bool.not_not]
    rfl
  unfold accepted Media.step
  dsimp only
  rw [hready]
  by_cases h : (hasCandidates pSdp || leg.media.isTrickleComplete) = true
  · rw [if_pos h, if_pos h]
    exact (proceed_follows env rfl).of_ops rfl
  · rw [if_neg h, if_neg h]
    exact follows_nil rfl

theorem trickle_follows (env : Env) (pCandidate : Option String) (leg : Leg) :
    Follows leg (leg.trickle env pCandidate).2 (leg.media.step (.trickle pCandidate)).1
      (leg.media.step (.trickle pCandidate)).2.toList := by
  unfold trickle Media.step candidateLine
  dsimp only
  by_cases h : pCandidate.getD "" = ""
  · rw [if_pos h, if_pos h, if_pos h]
    cases hbody : leg.pSdpBody with
    | none =>
        -- the candidates are complete, and the body is still waited for
        have hnone : leg.media.pSdpBody = none := hbody
        rw [hnone]
        exact follows_nil rfl
    | some pSdpBody =>
        have hsome : leg.media.pSdpBody = some pSdpBody := hbody
        rw [hsome, if_pos Option.isSome_some]
        exact (proceed_follows env rfl).of_ops rfl
  · rw [if_neg h, if_neg h, if_neg h]
    have htext : leg.pSdpCandidates.getD "" ++ "a=" ++ pCandidate.getD "" ++ "\r\n" =
        leg.media.pSdpCandidates.getD "" ++ ("a=" ++ pCandidate.getD "" ++ "\r\n") := by
      rw [String.append_assoc, String.append_assoc, String.append_assoc]
      rfl
    rw [htext]
    exact follows_nil rfl

/-! ## The other handlers -/

theorem answered_sameMedia (env : Env) (leg : Leg) : SameMedia leg (leg.answered env).2 := by
  have hgate : SameMedia leg { leg with gate := leg.gate.answered.1 } := .of_eq rfl rfl
  unfold answered
  dsimp only
  split
  · exact hgate
  · split
    · exact (hgate.op rfl rfl).op rfl rfl
    · exact hgate.op rfl rfl

theorem hungup_sameMedia (leg : Leg) : SameMedia leg leg.hungup.2 :=
  (Prepares.refl leg).hungup.sameMedia

theorem joined_sameMedia (switchTrue : Option String → Bool) (env : Env) (pServer : LegServer)
    (leg : Leg) : SameMedia leg (leg.joined switchTrue env pServer).2 := by
  have harm : SameMedia leg (leg.armGate switchTrue env) := by
    unfold armGate
    split
    · exact .of_eq rfl rfl
    · exact .refl leg
  exact harm.trans (joined_prepares switchTrue env pServer leg).sameMedia

end Leg

/-! ## Runs -/

section Runs

variable (switchTrue : Option String → Bool)

/-- The call of the leg's machine that a step is, if it is one. -/
def Step.mediaCall (w : World) (session : Nat) : Step → Option MediaCall
  | .call (.accepted serverId senderId pSdp) _ =>
      if w.Reaches session serverId senderId then some (.accepted pSdp) else none
  | .call (.trickle serverId senderId pCandidate) _ =>
      if w.Reaches session serverId senderId then some (.trickle pCandidate) else none
  | _ => none

/-- The call is one that a machine takes. -/
def HandlerCall.isMedia : HandlerCall → Bool
  | .accepted _ _ _ | .trickle _ _ _ => true
  | _ => false

/-- The calls of the leg's machine in a run. -/
def mediaCalls (w : World) (session : Nat) (steps : List Step) : List MediaCall :=
  steps.filterMap (Step.mediaCall w session)

theorem onLeg_sameMedia {w : World} {session : Nat} {serverId senderId : JanusId}
    {f : LegServer → Leg → Status × Leg}
    (hf : ∀ pServer (leg : Leg), leg.SameMedia (f pServer leg).2) :
    (w.legs session).SameMedia ((w.onLeg serverId senderId f).2.legs session) := by
  by_cases hreach : w.Reaches session serverId senderId
  · obtain ⟨pServer, hfind⟩ := hreach.find
    rw [World.onLeg_reached hfind]
    exact hf pServer _
  · rw [World.onLeg_unreached hreach]
    exact .refl _

/-- Setting the gate of some leg and asking for an answer leaves every media alone. -/
theorem setGate_sameMedia (w : World) (session other : Nat) (gate : Gate) :
    (w.legs session).SameMedia
      ((w.setLeg other { w.legs other with gate := gate }).legs session) := by
  by_cases hsession : session = other
  · subst hsession
    rw [World.setLeg_self]
    exact .of_eq rfl rfl
  · rw [w.setLeg_ne hsession]
    exact .refl _

theorem answered_step_sameMedia (env : Env) (w : World) (session : Nat)
    (serverId senderId : JanusId) :
    (w.legs session).SameMedia ((answered env serverId senderId w).2.legs session) :=
  onLeg_sameMedia fun _ leg => leg.answered_sameMedia env

theorem participant_sameMedia (env : Env) (w : World) (session : Nat)
    (serverId senderId : JanusId) (id : String) (isSelf setup : Bool) :
    (w.legs session).SameMedia
      ((participant env serverId senderId id isSelf setup w).2.legs session) := by
  unfold participant
  split
  · exact onLeg_sameMedia fun _ leg => .of_eq rfl rfl
  · split
    · exact .refl _
    · dsimp only
      split
      · exact (setGate_sameMedia w session _ _).trans (answered_step_sameMedia env _ _ _ _)
      · exact setGate_sameMedia w session _ _

theorem frame_sameMedia (env : Env) (w : World) (reader session : Nat) :
    (w.legs session).SameMedia ((channelReadFrame env reader w).legs session) := by
  unfold channelReadFrame
  dsimp only
  split
  · exact (setGate_sameMedia w session _ _).trans (answered_step_sameMedia env _ _ _ _)
  · exact .refl _

theorem call_sameMedia (env : Env) (w : World) (session : Nat) {c : HandlerCall}
    (h : c.isMedia = false) :
    (w.legs session).SameMedia ((c.run (handlers switchTrue env) w).legs session) := by
  cases c with
  | joined => exact onLeg_sameMedia fun pServer leg => leg.joined_sameMedia switchTrue env pServer
  | accepted | trickle => cases h
  | answeredOnWebrtcup serverId senderId =>
      rw [run_answeredOnWebrtcup]
      split
      · exact answered_step_sameMedia env w _ _ _
      · exact .refl _
  | answeredOnAccept serverId senderId =>
      rw [run_answeredOnAccept]
      split
      · exact .refl _
      · exact answered_step_sameMedia env w _ _ _
  | hungup => exact onLeg_sameMedia fun _ leg => leg.hungup_sameMedia
  | participant => exact participant_sameMedia env w _ _ _ _ _ _

/-- A handler of the machine, for a leg that its ids may lead to. -/
theorem onLeg_follows {w : World} {session : Nat} {serverId senderId : JanusId}
    {f : LegServer → Leg → Status × Leg} (call : MediaCall)
    (hf : ∀ pServer (leg : Leg), leg.Follows (f pServer leg).2 (leg.media.step call).1
      (leg.media.step call).2.toList) :
    (w.legs session).Follows ((w.onLeg serverId senderId f).2.legs session)
      ((w.legs session).media.state
        (if w.Reaches session serverId senderId then some call else none).toList)
      ((w.legs session).media.negotiated
        (if w.Reaches session serverId senderId then some call else none).toList) := by
  by_cases hreach : w.Reaches session serverId senderId
  · obtain ⟨pServer, hfind⟩ := hreach.find
    rw [World.onLeg_reached hfind, if_pos hreach]
    have h := hf pServer (w.legs session)
    simpa [Media.negotiated, Mealy.outputs] using h
  · rw [World.onLeg_unreached hreach, if_neg hreach]
    exact (Leg.SameMedia.refl _).follows

theorem step_follows (w : World) (session : Nat) (s : Step) :
    (w.legs session).Follows ((w.step switchTrue s).legs session)
      ((w.legs session).media.state (s.mediaCall w session).toList)
      ((w.legs session).media.negotiated (s.mediaCall w session).toList) := by
  cases s with
  | call c env =>
      cases c with
      | accepted serverId senderId pSdp =>
          exact onLeg_follows (.accepted pSdp) fun _ leg => leg.accepted_follows env pSdp
      | trickle serverId senderId pCandidate =>
          exact onLeg_follows (.trickle pCandidate) fun _ leg => leg.trickle_follows env pCandidate
      | _ => exact (call_sameMedia switchTrue env w session rfl).follows
  | frame reader env => exact (frame_sameMedia env w reader session).follows

theorem step_find (w : World) (s : Step) (serverId senderId : JanusId) :
    (w.step switchTrue s).find serverId senderId = w.find serverId senderId := by
  cases s with
  | call c env => exact run_find switchTrue env w c serverId senderId
  | frame reader env =>
      simp only [World.step, channelReadFrame]
      split
      · exact answered_find env _ _ _ _ _
      · rfl

/-- The steps find the legs that they found at the beginning. -/
theorem mediaCall_congr {w v : World} (session : Nat)
    (h : ∀ serverId senderId, v.find serverId senderId = w.find serverId senderId) (s : Step) :
    s.mediaCall v session = s.mediaCall w session := by
  have hreach : ∀ serverId senderId, v.Reaches session serverId senderId ↔
      w.Reaches session serverId senderId := by
    intro serverId senderId
    rw [World.Reaches, World.Reaches, h]
  unfold Step.mediaCall
  split <;> simp [hreach]

/-- In a run of calls and frames the media of a leg is that of its machine, and what the
    machine puts out is what is negotiated for the leg. -/
theorem run_follows (w : World) (session : Nat) (steps : List Step) :
    (w.legs session).Follows ((steps.foldl (World.step switchTrue) w).legs session)
      ((w.legs session).media.state (mediaCalls w session steps))
      ((w.legs session).media.negotiated (mediaCalls w session steps)) := by
  induction steps generalizing w with
  | nil => exact (Leg.SameMedia.refl _).follows
  | cons s rest ih =>
      have hstep := step_follows switchTrue w session s
      have hrest := ih (w.step switchTrue s)
      have hlater : mediaCalls (w.step switchTrue s) session rest = mediaCalls w session rest :=
        List.filterMap_congr fun s' _ => mediaCall_congr session (step_find switchTrue w s) s'
      have hcalls : mediaCalls w session (s :: rest) =
          (s.mediaCall w session).toList ++ mediaCalls w session rest := by
        cases hcall : s.mediaCall w session <;> simp [mediaCalls, hcall]
      rw [hlater, hstep.media] at hrest
      rw [List.foldl_cons, hcalls, Media.state, Media.negotiated, Mealy.state_append,
        Mealy.outputs_append]
      exact hstep.trans hrest

/-- From a leg whose media has not begun. -/
theorem run_fresh {w : World} {session : Nat} (hfresh : (w.legs session).MediaFresh)
    (steps : List Step) :
    ((steps.foldl (World.step switchTrue) w).legs session).negotiated =
        Media.negotiated {} (mediaCalls w session steps) ∧
      ((steps.foldl (World.step switchTrue) w).legs session).activations ≤
        (Media.negotiated {} (mediaCalls w session steps)).length := by
  obtain ⟨-, hnegotiated, hactivations⟩ := run_follows switchTrue w session steps
  rw [hfresh.media, hfresh.negotiated, List.nil_append] at hnegotiated
  rw [hfresh.media, hfresh.activations, Nat.zero_add] at hactivations
  exact ⟨hnegotiated, hactivations⟩

end Runs

end ModJanus
