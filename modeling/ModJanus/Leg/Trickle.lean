/-
  ModJanus.Leg.Trickle

  When `proceed` is entered, and with which SDP.

  The media of a leg is what its calls have brought (`state_eq`): the last body, and the
  lines of the candidates in order.  A call enters `proceed` when it is an `accepted` that
  need not wait, or a completion that finds a body (`Enters`), and the SDP is then the one
  that has been gathered with it (`mem_negotiated_iff`).
-/
import ModJanus.Leg.Media

namespace ModJanus

/-! ## What has been gathered -/

namespace MediaCall

def pSdp? : MediaCall → Option String
  | .accepted pSdp => some pSdp
  | .trickle _ => none

/-- The line that the call adds to `pSdpCandidates`. -/
def line? : MediaCall → Option String
  | .accepted _ => none
  | .trickle pCandidate => some (candidateLine pCandidate)

end MediaCall

section Gathered

variable (calls : List MediaCall)

/-- `pSdpBody` after the calls. -/
def lastBody : Option String := (calls.filterMap MediaCall.pSdp?).getLast?

/-- The lines of the candidates. -/
def candidateLines : List String := calls.filterMap MediaCall.line?

/-- `pSdpCandidates` after the calls. -/
def gatheredCandidates : Option String :=
  if candidateLines calls = [] then none else some (String.join (candidateLines calls))

/-- A completion is among the calls. -/
def isComplete : Bool := calls.any MediaCall.isCompletion

/-- The SDP that `proceed` puts together after the calls. -/
def gatheredSdp : String :=
  Leg.sdp ((lastBody calls).getD "") (some (String.join (candidateLines calls)))

end Gathered

/-- The call enters `proceed`, after those before it. -/
def Enters (before : List MediaCall) : MediaCall → Bool
  | .accepted pSdp => hasCandidates pSdp || isComplete before
  | .trickle pCandidate => pCandidate.getD "" = "" && (lastBody before).isSome

section Steps

variable {calls before : List MediaCall} {call : MediaCall} {pSdp : String}
  {pCandidate : Option String}

@[simp] theorem lastBody_accepted : lastBody (calls ++ [.accepted pSdp]) = some pSdp := by
  simp [lastBody, MediaCall.pSdp?]

@[simp] theorem lastBody_trickle : lastBody (calls ++ [.trickle pCandidate]) = lastBody calls := by
  simp [lastBody, MediaCall.pSdp?]

@[simp] theorem candidateLines_accepted :
    candidateLines (calls ++ [.accepted pSdp]) = candidateLines calls := by
  simp [candidateLines, MediaCall.line?]

@[simp] theorem candidateLines_trickle : candidateLines (calls ++ [.trickle pCandidate]) =
    candidateLines calls ++ [candidateLine pCandidate] := by
  simp [candidateLines, MediaCall.line?]

@[simp] theorem isComplete_concat :
    isComplete (calls ++ [call]) = (isComplete calls || call.isCompletion) := by
  simp [isComplete]

theorem gatheredCandidates_getD :
    (gatheredCandidates calls).getD "" = String.join (candidateLines calls) := by
  unfold gatheredCandidates
  split
  · next hnil =>
      rw [hnil]
      rfl
  · rfl

theorem gatheredCandidates_trickle : gatheredCandidates (calls ++ [.trickle pCandidate]) =
    some ((gatheredCandidates calls).getD "" ++ candidateLine pCandidate) := by
  rw [gatheredCandidates_getD, gatheredCandidates, candidateLines_trickle, String.join_append]
  simp

/-- The machine keeps what has been gathered. -/
theorem state_eq (calls : List MediaCall) : Media.state {} calls =
    { pSdpBody := lastBody calls
      pSdpCandidates := gatheredCandidates calls
      isTrickleComplete := isComplete calls } := by
  induction calls using List.reverseRecOn with
  | nil => rfl
  | append_singleton calls call ih =>
      rw [Media.state, Mealy.state_concat, ← Media.state, ih]
      cases call with
      | accepted pSdp =>
          simp [Media.step, gatheredCandidates, MediaCall.isCompletion]
      | trickle pCandidate =>
          rw [gatheredCandidates_trickle]
          by_cases h : pCandidate.getD "" = ""
          · simp [Media.step, h, MediaCall.isCompletion]
          · simp [Media.step, h, MediaCall.isCompletion]

/-- No candidates and no text of candidates are the same to `proceed`. -/
theorem sdp_gathered (body : String) (calls : List MediaCall) :
    Leg.sdp body (gatheredCandidates calls) =
      Leg.sdp body (some (String.join (candidateLines calls))) := by
  unfold gatheredCandidates
  split
  · next hnil =>
      rw [hnil]
      simp [Leg.sdp, strncat]
  · rfl

/-- What a call puts out after others. -/
theorem output_eq (before : List MediaCall) (call : MediaCall) :
    ((Media.state {} before).step call).2 =
      if Enters before call then some (gatheredSdp (before ++ [call])) else none := by
  rw [state_eq]
  cases call with
  | accepted pSdp =>
      simp only [Media.step, Enters, gatheredSdp, lastBody_accepted, candidateLines_accepted,
        sdp_gathered, Option.getD_some]
  | trickle pCandidate =>
      rw [Enters, gatheredSdp, lastBody_trickle, candidateLines_trickle, String.join_append]
      by_cases h : pCandidate.getD "" = ""
      · cases hbody : lastBody before with
        | none => simp [Media.step, h]
        | some body => simp [Media.step, h, gatheredCandidates_getD]
      · simp [Media.step, h]

/-- A negotiated SDP is one that was gathered by a call that entered `proceed`. -/
theorem mem_negotiated_iff {sdp : String} : sdp ∈ Media.negotiated {} calls ↔
    ∃ front call back, calls = front ++ call :: back ∧ Enters front call = true ∧
      sdp = gatheredSdp (front ++ [call]) := by
  rw [Media.negotiated, Mealy.mem_outputs_iff]
  constructor
  · rintro ⟨front, call, back, hcalls, hout⟩
    have hout' : (if Enters front call then some (gatheredSdp (front ++ [call])) else none) =
        some sdp := (output_eq front call).symm.trans hout
    obtain ⟨henters, heq⟩ := Option.ite_none_right_eq_some.mp hout'
    exact ⟨front, call, back, hcalls, henters, (Option.some.inj heq).symm⟩
  · rintro ⟨front, call, back, hcalls, henters, rfl⟩
    refine ⟨front, call, back, hcalls, (output_eq front call).trans ?_⟩
    rw [if_pos henters]

theorem negotiated_concat (calls : List MediaCall) (call : MediaCall) :
    Media.negotiated {} (calls ++ [call]) = Media.negotiated {} calls ++
      if Enters calls call then [gatheredSdp (calls ++ [call])] else [] := by
  have hout : ((Mealy.state Media.step {} calls).step call).2 = _ := output_eq calls call
  rw [Media.negotiated, Mealy.outputs_append, Mealy.outputs, Mealy.outputs, List.append_nil, hout]
  split <;> rfl

end Steps

/-! ## The size of the SDP -/

theorem strncat_length (dest src : String) (n : Nat) :
    (strncat dest src n).length = dest.length + min n src.length := by
  rw [strncat, String.length_append, String.length_ofList, List.length_take, String.length_toList]

/-- Each of the two appends has the whole buffer for its bound. -/
theorem sdp_length (pSdpBody candidates : String) :
    (Leg.sdp pSdpBody (some candidates)).length =
      min (SDP_SIZE - 1) pSdpBody.length + min (SDP_SIZE - 1) candidates.length := by
  rw [Leg.sdp]
  simp only [strncat_length]
  rw [String.length_empty, Nat.zero_add]

/-- The body and the candidates that have been gathered fit into the buffer, or one of
    them is empty. -/
def SdpFits (calls : List MediaCall) : Prop :=
  (lastBody calls).getD "" = "" ∨ String.join (candidateLines calls) = "" ∨
    ((lastBody calls).getD "").length + (String.join (candidateLines calls)).length < SDP_SIZE

theorem gatheredSdp_fits_iff (calls : List MediaCall) :
    (gatheredSdp calls).length + 1 ≤ SDP_SIZE ↔ SdpFits calls := by
  have hempty : ∀ s : String, s = "" ↔ s.length = 0 := by
    intro s
    rw [String.length_eq_zero_iff]
  have hsize : SDP_SIZE = 4096 := rfl
  rw [gatheredSdp, sdp_length, SdpFits, hempty, hempty]
  omega

section Runs

variable (switchTrue : Option String → Bool)

/-- No negotiation of a run overflows the buffer of `proceed` if and only if each of its
    calls that enters `proceed` does so with a body and candidates that fit. -/
theorem sdp_buffer_iff (w : World) (session : Nat) (hfresh : (w.legs session).MediaFresh)
    (steps : List Step) :
    (∀ sdp ∈ ((steps.foldl (World.step switchTrue) w).legs session).negotiated,
        sdp.length + 1 ≤ SDP_SIZE) ↔
      ∀ front call back, mediaCalls w session steps = front ++ call :: back →
        Enters front call = true → SdpFits (front ++ [call]) := by
  rw [(run_fresh switchTrue hfresh steps).1]
  constructor
  · intro h front call back hcalls henters
    rw [← gatheredSdp_fits_iff]
    exact h _ (mem_negotiated_iff.mpr ⟨front, call, back, hcalls, henters, rfl⟩)
  · intro h sdp hmem
    obtain ⟨front, call, back, hcalls, henters, rfl⟩ := mem_negotiated_iff.mp hmem
    exact (gatheredSdp_fits_iff _).mpr (h front call back hcalls henters)

end Runs

instance (calls : List MediaCall) : Decidable (SdpFits calls) :=
  inferInstanceAs (Decidable (_ = _ ∨ _ = _ ∨ _ < _))

/-- The call for the leg with the ids 1 and 2. -/
def MediaCall.toStep : MediaCall → Step
  | .accepted pSdp => .call (.accepted 1 2 pSdp) {}
  | .trickle pCandidate => .call (.trickle 1 2 pCandidate) {}

theorem mediaCalls_toStep (calls : List MediaCall) :
    mediaCalls plainWorld 0 (calls.map MediaCall.toStep) = calls := by
  have hreach : plainWorld.Reaches 0 1 2 := by decide
  have hcall : Step.mediaCall plainWorld 0 ∘ MediaCall.toStep = some := by
    funext call
    cases call with
    | accepted pSdp => simp [MediaCall.toStep, Step.mediaCall, hreach]
    | trickle pCandidate => simp [MediaCall.toStep, Step.mediaCall, hreach]
  rw [mediaCalls, List.filterMap_map, hcall, List.filterMap_some]

theorem plainWorld_fresh : (plainWorld.legs 0).MediaFresh := ⟨rfl, rfl, rfl⟩

/-- A body, a candidate and the completion. -/
theorem sdp_buffer_short :
    ((([.accepted "v=0", .trickle (some "candidate:1"), .trickle none].map
        MediaCall.toStep).foldl (World.step (· == some "true")) plainWorld).legs 0).negotiated.all
      (fun sdp => sdp.length + 1 ≤ SDP_SIZE) = true := by
  simp only [List.all_eq_true, decide_eq_true_eq]
  refine (sdp_buffer_iff (· == some "true") plainWorld 0 plainWorld_fresh _).mpr ?_
  rw [mediaCalls_toStep]
  intro front call back hcalls _
  have hinits : ∀ calls ∈ List.inits [MediaCall.accepted "v=0", .trickle (some "candidate:1"),
      .trickle none], SdpFits calls := by decide
  apply hinits
  rw [List.mem_inits, hcalls]
  exact ⟨back, by simp⟩

/-- A body that fills the buffer, and the end of the candidates behind it. -/
theorem sdp_buffer_overflow :
    ¬ ∀ (switchTrue : Option String → Bool) (w : World) (session : Nat) (steps : List Step),
      (w.legs session).MediaFresh →
      ∀ sdp ∈ ((steps.foldl (World.step switchTrue) w).legs session).negotiated,
        sdp.length + 1 ≤ SDP_SIZE := by
  intro h
  obtain ⟨body, hlength⟩ : ∃ body : String, body.length = 4095 :=
    ⟨String.ofList (List.replicate 4095 'x'), by
      rw [String.length_ofList, List.length_replicate]⟩
  have hrun := h (· == some "true") plainWorld 0
    ([.accepted body, .trickle none].map MediaCall.toStep) plainWorld_fresh
  rw [(run_fresh (· == some "true") plainWorld_fresh _).1, mediaCalls_toStep] at hrun
  have henters : Enters [.accepted body] (.trickle none) = true := rfl
  have hle := hrun _ (mem_negotiated_iff.mpr
    ⟨[.accepted body], .trickle none, [], rfl, henters, rfl⟩)
  have hbody : gatheredSdp ([.accepted body] ++ [.trickle none]) =
      Leg.sdp body (some "a=end-of-candidates\r\n") := rfl
  have hend : "a=end-of-candidates\r\n".length = 21 := by decide
  have hsize : SDP_SIZE = 4096 := rfl
  rw [hbody, sdp_length, hlength, hend] at hle
  omega

end ModJanus
