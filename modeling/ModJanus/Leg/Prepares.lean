/-
  ModJanus.Leg.Prepares

  What a handler may do to its leg without answering it and without touching its media.

  `joined`, once it has dealt with the gate, the pre-answer at the end of `proceed`, and a
  hangup only log preparations and set variables of the channel (`Prepares`).  The frame
  facts about the gate, the log and the media all follow from this one.
-/
import ModJanus.Leg.Handlers

namespace ModJanus

/-- Not an answer, and neither a negotiation nor an activation. -/
def ChannelOp.isPreparation : ChannelOp → Bool
  | .answer _ | .negotiateSdp _ _ | .activateRtp _ => false
  | _ => true

theorem ChannelOp.isAnswer_of_isPreparation {o : ChannelOp} (h : o.isPreparation = true) :
    o.isAnswer = false := by
  cases o with
  | answer ok => cases h
  | _ => rfl

namespace Leg

/-- The gate and what has arrived of the media stay, and the log grows by preparations. -/
structure Prepares (leg leg' : Leg) : Prop where
  gate : leg'.gate = leg.gate
  answerOnWebrtcup : leg'.channelVars "answer_on_webrtcup" = leg.channelVars "answer_on_webrtcup"
  pSdpBody : leg'.pSdpBody = leg.pSdpBody
  pSdpCandidates : leg'.pSdpCandidates = leg.pSdpCandidates
  isTrickleComplete : leg'.isTrickleComplete = leg.isTrickleComplete
  ops : ∃ added, leg'.ops = leg.ops ++ added ∧ ∀ o ∈ added, o.isPreparation = true

namespace Prepares

theorem refl (leg : Leg) : Prepares leg leg :=
  ⟨rfl, rfl, rfl, rfl, rfl, [], (List.append_nil _).symm, nofun⟩

theorem trans {a b c : Leg} (h : Prepares a b) (h' : Prepares b c) : Prepares a c := by
  obtain ⟨added, hops, hadded⟩ := h.ops
  obtain ⟨added', hops', hadded'⟩ := h'.ops
  refine ⟨h'.gate.trans h.gate, h'.answerOnWebrtcup.trans h.answerOnWebrtcup,
    h'.pSdpBody.trans h.pSdpBody, h'.pSdpCandidates.trans h.pSdpCandidates,
    h'.isTrickleComplete.trans h.isTrickleComplete, added ++ added', ?_, ?_⟩
  · rw [hops', hops, List.append_assoc]
  · rw [List.forall_mem_append]
    exact ⟨hadded, hadded'⟩

variable {leg leg' : Leg} (h : Prepares leg leg')

include h

theorem op {o : ChannelOp} (ho : o.isPreparation = true) : Prepares leg (leg'.op o) :=
  h.trans ⟨rfl, rfl, rfl, rfl, rfl, [o], rfl, by simpa using ho⟩

theorem setVariable {name : String} (hname : name ≠ "answer_on_webrtcup")
    (value : Option String) : Prepares leg (leg'.setVariable name value) := by
  have hother := Function.update_of_ne hname.symm value leg'.channelVars
  exact h.trans ⟨rfl, hother, rfl, rfl, rfl, [], (List.append_nil _).symm, nofun⟩

/-! ## The handlers -/

theorem hungup : Prepares leg leg'.hungup.2 := h.op rfl

theorem doPreAnswer (env : Env) : Prepares leg (leg'.doPreAnswer env).2 := by
  unfold Leg.doPreAnswer
  split
  · exact (h.op rfl).op rfl
  · exact h.op rfl

theorem passDtmf : Prepares leg leg'.passDtmf := by
  have hte : Prepares leg' { leg' with te := some 101 } :=
    ⟨rfl, rfl, rfl, rfl, rfl, [], (List.append_nil _).symm, nofun⟩
  exact (h.trans hte).op rfl

theorem candAcl (acls : List String) :
    Prepares leg (acls.foldl (fun leg acl => leg.op (.addIceAcl acl)) leg') := by
  induction acls generalizing leg' with
  | nil => exact h
  | cons acl acls ih =>
      apply ih
      exact h.op rfl

variable (switchTrue : Option String → Bool)

theorem chooseCodec (env : Env) (pServer : LegServer) :
    Prepares leg (leg'.chooseCodec switchTrue env pServer) := by
  have hdtmf : "dtmf_type" ≠ "answer_on_webrtcup" := by decide
  have hcodec : "absolute_codec_string" ≠ "answer_on_webrtcup" := by decide
  unfold Leg.chooseCodec
  dsimp only
  split
  · split
    · exact (h.passDtmf.setVariable hdtmf _).setVariable hcodec _
    · exact h.setVariable hcodec _
  · split
    · exact h.passDtmf.setVariable hdtmf _
    · exact h

theorem offer (env : Env) : Prepares leg (leg'.offer switchTrue env).2 := by
  unfold Leg.offer
  dsimp only
  split
  · exact (h.op rfl).op rfl
  · split
    · exact ((h.op rfl).op rfl).op rfl
    · exact (((h.op rfl).op rfl).op rfl).op rfl

end Prepares

/-- After it has dealt with the gate, `joined` only prepares. -/
theorem joined_prepares (switchTrue : Option String → Bool) (env : Env) (pServer : LegServer)
    (leg : Leg) : Prepares (leg.armGate switchTrue env) (leg.joined switchTrue env pServer).2 := by
  have hmedia : "media_webrtc" ≠ "answer_on_webrtcup" := by decide
  unfold joined
  dsimp only
  apply Prepares.offer
  apply Prepares.candAcl
  apply Prepares.chooseCodec
  exact ((Prepares.refl _).setVariable hmedia _).op rfl

end Leg

end ModJanus
