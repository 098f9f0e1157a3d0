/-
  ModJanus.Leg.Completion

  Which events end the candidates of a leg.

  `decode` leaves `pCandidate` null for a trickle event that has no candidate, for one whose
  candidate has neither of its two fields, and for one whose candidate is hidden behind a
  `data` or a `plugindata` member.  `trickle` takes a null pointer for the end of the
  candidates, as it takes the empty string that `decode` puts there for a completion.
-/
import Mathlib.Logic.Nontrivial.Basic
import ModJanus.Leg.Media

namespace ModJanus

/-! ## What a trickle event says -/

section Events

variable (pEvent : CJson)

/-- The event has a candidate that is completed, or one with an empty string. -/
def SaysComplete : Prop :=
  ∃ candidate, getObjectItem (some pEvent) "candidate" = some candidate ∧
    ((getObjectItem (some candidate) "completed").any CJson.isTrue = true ∨
      valuestring (getObjectItem (some candidate) "candidate") = some "")

/-- The candidate is hidden, is not there, or has neither of its fields. -/
def Candidateless : Prop :=
  (getObjectItem (some pEvent) "data").isSome = true ∨
    (getObjectItem (some pEvent) "plugindata").isSome = true ∨
    ∀ candidate, getObjectItem (some pEvent) "candidate" = some candidate →
      getObjectItem (some candidate) "completed" = none ∧
        getObjectItem (some candidate) "candidate" = none

/-- The text of the candidate is the one that ends the candidates in an SDP. -/
def SpellsEnd : Prop :=
  getObjectItem (some pEvent) "data" = none ∧
    getObjectItem (some pEvent) "plugindata" = none ∧
    ∃ candidate, getObjectItem (some pEvent) "candidate" = some candidate ∧
      getObjectItem (some candidate) "completed" = none ∧
      valuestring (getObjectItem (some candidate) "candidate") = some "end-of-candidates"

/-- The candidate is not seen, and the event does not say that it was the last. -/
def Misread : Prop := Candidateless pEvent ∧ ¬ SaysComplete pEvent

/-- A trickle event with nothing mistyped in it, whose ids lead to the leg. -/
structure TrickleFor (w : World) (session : Nat) : Prop where
  typed : ¬ DecodeRejects pEvent
  janus : valuestring (getObjectItem (some pEvent) "janus") = some "trickle"
  reaches : w.Reaches session (janusIdOf (getObjectItem (some pEvent) "session_id"))
    (janusIdOf (getObjectItem (some pEvent) "sender"))

end Events

/-! ## How it is decoded -/

section Decoding

variable {pEvent candidate : CJson} {response : Message} {body : Option CJson}
  {pCandidate : Option String}

theorem decode_pCandidate (h : decode (some pEvent) = some response) :
    ∃ body, decodeBody pEvent = some (body, response.pCandidate) := by
  simp only [decode, Option.bind_eq_bind, Option.bind_some, Option.bind_eq_some_iff,
    Option.pure_def, Option.some.injEq] at h
  obtain ⟨⟨body, pCandidate⟩, hbody, _, _, _, _, _, _, _, _, _, _, rfl⟩ := h
  exact ⟨body, hbody⟩

/-- An id that is not there is 0, as one that is not a number would be. -/
theorem asId_getD (item : Option CJson) : (item.bind CJson.asId).getD 0 = janusIdOf item := by
  cases item with
  | none => rfl
  | some json => cases json <;> rfl

theorem decode_ids (h : decode (some pEvent) = some response) :
    response.serverId = janusIdOf (getObjectItem (some pEvent) "session_id") ∧
      response.senderId = janusIdOf (getObjectItem (some pEvent) "sender") := by
  obtain ⟨-, -, hserver, hsender⟩ := decode_eq_some h
  rw [hserver, hsender, asId_getD, asId_getD]
  exact ⟨rfl, rfl⟩

/-- A candidate that is seen is completed, or its string is read. -/
theorem decodeCandidate_eq_some (h : decodeCandidate candidate = some pCandidate) :
    ((getObjectItem (some candidate) "completed").any CJson.isTrue = true ∧
        pCandidate = some "") ∨
      (getObjectItem (some candidate) "completed" = none ∧
        pCandidate = valuestring (getObjectItem (some candidate) "candidate") ∧
        (getObjectItem (some candidate) "candidate" = none ↔ pCandidate = none)) := by
  unfold decodeCandidate at h
  split at h
  · cases hcompleted : getObjectItem (some candidate) "completed" with
    | some completed =>
        simp only [hcompleted, Option.ite_none_right_eq_some, Option.some.injEq] at h
        obtain ⟨htrue, rfl⟩ := h
        exact .inl ⟨htrue, rfl⟩
    | none =>
        simp only [hcompleted] at h
        refine .inr ⟨rfl, checked_eq_some h, ?_⟩
        cases hitem : getObjectItem (some candidate) "candidate" with
        | none => simpa [hitem, checked] using h.symm
        | some json =>
            rw [hitem, checked, Option.map_eq_some_iff] at h
            obtain ⟨s, -, rfl⟩ := h
            simp
  · cases h

/-- Where the candidate of a message comes from. -/
theorem decodeBody_eq_some (h : decodeBody pEvent = some (body, pCandidate)) :
    (((getObjectItem (some pEvent) "data").isSome = true ∨
        (getObjectItem (some pEvent) "plugindata").isSome = true ∨
        getObjectItem (some pEvent) "candidate" = none) ∧ pCandidate = none) ∨
      (getObjectItem (some pEvent) "data" = none ∧
        getObjectItem (some pEvent) "plugindata" = none ∧
        ∃ candidate, getObjectItem (some pEvent) "candidate" = some candidate ∧
          decodeCandidate candidate = some pCandidate) := by
  -- the members are tried in the order of the source
  unfold decodeBody at h
  cases hdata : getObjectItem (some pEvent) "data" with
  | some data =>
      simp only [hdata, Option.map_eq_some_iff, Prod.mk.injEq] at h
      obtain ⟨_, -, -, rfl⟩ := h
      exact .inl ⟨.inl rfl, rfl⟩
  | none =>
      cases hplugin : getObjectItem (some pEvent) "plugindata" with
      | some pluginData =>
          simp only [hdata, hplugin, Option.map_eq_some_iff, Prod.mk.injEq] at h
          obtain ⟨_, -, -, rfl⟩ := h
          exact .inl ⟨.inr (.inl rfl), rfl⟩
      | none =>
          cases hcandidate : getObjectItem (some pEvent) "candidate" with
          | none =>
              simp only [hdata, hplugin, hcandidate, Option.some.injEq, Prod.mk.injEq] at h
              exact .inl ⟨.inr (.inr rfl), h.2.symm⟩
          | some candidate =>
              simp only [hdata, hplugin, hcandidate, Option.map_eq_some_iff, Prod.mk.injEq] at h
              obtain ⟨_, hdecode, -, rfl⟩ := h
              exact .inr ⟨rfl, rfl, candidate, rfl, hdecode⟩

/-- The zero length that `trickle` tests for. -/
theorem pCandidate_empty_iff (h : decodeBody pEvent = some (body, pCandidate)) :
    pCandidate.getD "" = "" ↔ Candidateless pEvent ∨ SaysComplete pEvent := by
  rcases decodeBody_eq_some h with ⟨hhidden, rfl⟩ | ⟨hdata, hplugin, candidate, hcandidate, hdecode⟩
  · refine iff_of_true rfl (.inl ?_)
    rcases hhidden with hdata | hplugin | hnone
    · exact .inl hdata
    · exact .inr (.inl hplugin)
    · exact .inr (.inr fun candidate hcandidate => by rw [hnone] at hcandidate; cases hcandidate)
  · have hless : Candidateless pEvent ↔ getObjectItem (some candidate) "completed" = none ∧
        getObjectItem (some candidate) "candidate" = none := by
      simp [Candidateless, hdata, hplugin, hcandidate]
    have hsaid : SaysComplete pEvent ↔
        (getObjectItem (some candidate) "completed").any CJson.isTrue = true ∨
          valuestring (getObjectItem (some candidate) "candidate") = some "" := by
      simp [SaysComplete, hcandidate]
    rw [hless, hsaid]
    rcases decodeCandidate_eq_some hdecode with ⟨htrue, rfl⟩ | ⟨hnone, hread, hmissing⟩
    · exact iff_of_true rfl (.inr (.inl htrue))
    · rw [hnone, hmissing, ← hread]
      cases hc : pCandidate with
      | none => simp
      | some s => simp

/-- The other text that makes the line that ends the candidates. -/
theorem pCandidate_end_iff (h : decodeBody pEvent = some (body, pCandidate)) :
    pCandidate = some "end-of-candidates" ↔ SpellsEnd pEvent := by
  rcases decodeBody_eq_some h with ⟨hhidden, rfl⟩ | ⟨hdata, hplugin, candidate, hcandidate, hdecode⟩
  · refine iff_of_false (by simp) ?_
    rintro ⟨hdata, hplugin, candidate, hcandidate, -⟩
    simp [hdata, hplugin, hcandidate] at hhidden
  · have hspells : SpellsEnd pEvent ↔ getObjectItem (some candidate) "completed" = none ∧
        valuestring (getObjectItem (some candidate) "candidate") = some "end-of-candidates" := by
      simp [SpellsEnd, hdata, hplugin, hcandidate]
    rw [hspells]
    rcases decodeCandidate_eq_some hdecode with ⟨htrue, rfl⟩ | ⟨hnone, hread, -⟩
    · refine iff_of_false (by simp) ?_
      rintro ⟨hnone, -⟩
      rw [hnone] at htrue
      cases htrue
    · rw [← hread]
      exact (and_iff_right hnone).symm

theorem SpellsEnd.says_not (h : SpellsEnd pEvent) : ¬ SaysComplete pEvent := by
  obtain ⟨-, -, candidate, hcandidate, hnone, hend⟩ := h
  simp [SaysComplete, hcandidate, hnone, hend]

/-- The zero length stands for what the event says unless the event is misread. -/
theorem empty_says_iff (h : decodeBody pEvent = some (body, pCandidate)) :
    (pCandidate.getD "" = "" → SaysComplete pEvent) ↔ ¬ Misread pEvent := by
  rw [pCandidate_empty_iff h, Misread]
  tauto

theorem end_says_iff (h : decodeBody pEvent = some (body, pCandidate)) :
    (pCandidate = some "end-of-candidates" → SaysComplete pEvent) ↔ ¬ SpellsEnd pEvent := by
  rw [pCandidate_end_iff h]
  constructor
  · intro hsaid hspells
    exact hspells.says_not (hsaid hspells)
  · intro hnot hspells
    exact absurd hspells hnot

/-- A trickle event for a leg is decoded. -/
theorem TrickleFor.decoded {w : World} {session : Nat} (h : TrickleFor pEvent w session) :
    ∃ response, decode (some pEvent) = some response := by
  rw [← Option.isSome_iff_exists, ← Option.ne_none_iff_isSome, Ne, decode_eq_none_iff]
  exact h.typed

theorem TrickleFor.decodedBody {w : World} {session : Nat} (h : TrickleFor pEvent w session) :
    ∃ body pCandidate, decodeBody pEvent = some (body, pCandidate) := by
  obtain ⟨response, hdecode⟩ := h.decoded
  obtain ⟨body, hbody⟩ := decode_pCandidate hdecode
  exact ⟨body, response.pCandidate, hbody⟩

end Decoding

/-! ## Which events call `trickle` -/

section Dispatch

variable {pEvent : CJson} {response : Message} {calls : List HandlerCall} {pType : String}

/-- A `trickle` among the calls of an event is the only one, and brings what was decoded. -/
theorem EventCalls.eq_trickle (h : EventCalls response calls) {serverId senderId pCandidate}
    (hmem : .trickle serverId senderId pCandidate ∈ calls) :
    calls = [.trickle response.serverId response.senderId response.pCandidate] := by
  have hparticipants : ∀ participants,
      .trickle serverId senderId pCandidate ∉ apiDispatchParticipants response participants := by
    intro participants hmem
    obtain ⟨_, _, _, _, _, _, heq⟩ := mem_apiDispatchParticipants hmem
    cases heq
  cases h with
  | nothing => cases hmem
  | participants => exact (hparticipants _ hmem).elim
  | joined roomId participantId hown =>
      obtain ⟨own, hid⟩ := hown.selfId
      simp [selfCall, hid, hparticipants] at hmem
  | accepted pSdp => simp at hmem
  | webrtcup => simp at hmem
  | trickle => rfl
  | hungup pReason => simp at hmem

/-- Only the trickle branch reads the candidate. -/
theorem typedEventCalls_pCandidate (pEvent : CJson) (response : Message) (h : pType ≠ "trickle")
    (pCandidate : Option String) :
    typedEventCalls pEvent { response with pCandidate } pType =
      typedEventCalls pEvent response pType := by
  unfold typedEventCalls
  split
  · rfl
  · rfl
  · rfl
  · exact absurd rfl h
  · rfl
  · rfl

/-- No event of another type calls `trickle`. -/
theorem typedEventCalls_notTrickle (hpType : response.pType = some pType) (h : pType ≠ "trickle")
    (hcalls : typedEventCalls pEvent response pType = .ok calls) {serverId senderId pCandidate} :
    .trickle serverId senderId pCandidate ∉ calls := by
  intro hmem
  -- with another candidate the calls would be the same
  obtain ⟨other, hother⟩ := exists_ne response.pCandidate
  obtain ⟨calls₁, hcalls₁, hshape₁⟩ := typedEventCalls_spec pEvent hpType
  have hpType' : { response with pCandidate := other }.pType = some pType := hpType
  obtain ⟨calls₂, hcalls₂, hshape₂⟩ := typedEventCalls_spec pEvent hpType'
  rw [typedEventCalls_pCandidate pEvent response h] at hcalls₂
  rw [hcalls, Except.ok.injEq] at hcalls₁ hcalls₂
  subst hcalls₁
  subst hcalls₂
  have heq := (hshape₁.eq_trickle hmem).symm.trans (hshape₂.eq_trickle hmem)
  simp only [List.cons.injEq, HandlerCall.trickle.injEq, and_true, true_and] at heq
  exact hother heq.symm

/-- A call of `trickle` comes from a trickle event, with its ids. -/
theorem trickle_mem_pollEventCalls (hcalls : pollEventCalls pEvent = .ok calls)
    {serverId senderId pCandidate} (hmem : .trickle serverId senderId pCandidate ∈ calls) :
    ¬ DecodeRejects pEvent ∧ valuestring (getObjectItem (some pEvent) "janus") = some "trickle" ∧
      serverId = janusIdOf (getObjectItem (some pEvent) "session_id") ∧
      senderId = janusIdOf (getObjectItem (some pEvent) "sender") := by
  unfold pollEventCalls at hcalls
  cases hdecode : decode (some pEvent) with
  | none =>
      rw [hdecode] at hcalls
      cases hcalls
      cases hmem
  | some response =>
      have htyped : ¬ DecodeRejects pEvent := by
        rw [← decode_eq_none_iff, hdecode]
        exact Option.some_ne_none response
      obtain ⟨hserver, hsender⟩ := decode_ids hdecode
      cases hpType : response.pType with
      | none => simp [hdecode, hpType, bind, Except.bind] at hcalls
      | some pType =>
          simp only [hdecode, hpType, mandatory_some, bind, Except.bind] at hcalls
          by_cases htype : pType = "trickle"
          · subst htype
            cases hcalls
            obtain ⟨rfl, rfl, -⟩ := by simpa using hmem
            exact ⟨htyped, (decode_eq_some hdecode).1.symm.trans hpType, hserver, hsender⟩
          · exact absurd hmem (typedEventCalls_notTrickle hpType htype hcalls)

end Dispatch

/-! ## One input -/

section Inputs

variable (switchTrue : Option String → Bool)

/-- The candidates of the leg are as they were. -/
def Media.SameCandidates (m m' : Media) : Prop :=
  m'.isTrickleComplete = m.isTrickleComplete ∧ m'.pSdpCandidates = m.pSdpCandidates

/-- A body leaves the candidates alone. -/
theorem state_sameCandidates (m : Media) {calls : List MediaCall}
    (h : ∀ pCandidate, .trickle pCandidate ∉ calls) : m.SameCandidates (m.state calls) := by
  induction calls generalizing m with
  | nil => exact ⟨rfl, rfl⟩
  | cons call calls ih =>
      have hrest := ih (m.step call).1 fun pCandidate hmem =>
        h pCandidate (List.mem_cons_of_mem _ hmem)
      cases call with
      | accepted pSdp => exact hrest
      | trickle pCandidate => exact absurd List.mem_cons_self (h pCandidate)

/-- The media calls that an event makes, as handler calls. -/
theorem trickle_mem_mediaCalls {w : World} {session : Nat} {calls : List HandlerCall} {env : Env}
    {pCandidate : Option String}
    (h : .trickle pCandidate ∈ mediaCalls w session (calls.map (Step.call · env))) :
    ∃ serverId senderId, .trickle serverId senderId pCandidate ∈ calls ∧
      w.Reaches session serverId senderId := by
  obtain ⟨s, hs, hcall⟩ := List.mem_filterMap.mp h
  obtain ⟨c, hc, rfl⟩ := List.mem_map.mp hs
  cases c with
  | accepted serverId senderId pSdp => simp [Step.mediaCall] at hcall
  | trickle serverId senderId pCandidate' =>
      simp only [Step.mediaCall, Option.ite_none_right_eq_some, Option.some.injEq,
        MediaCall.trickle.injEq] at hcall
      obtain ⟨hreach, rfl⟩ := hcall
      exact ⟨serverId, senderId, hc, hreach⟩
  | _ => cases hcall

/-- The media of a leg after an input. -/
theorem input_media {v v' : World} {i : Input} (session : Nat)
    (h : v.input switchTrue i = .ok v') :
    (v'.legs session).media = (v.legs session).media.state (mediaCalls v session i.steps) := by
  have hrun : v.after switchTrue [i] = .ok v' := by
    rw [World.after, h]
    rfl
  rw [after_steps switchTrue [i] hrun, List.flatMap_singleton]
  exact (run_follows switchTrue v session i.steps).media

/-- A trickle event for the leg is one step of its machine. -/
theorem trickleFor_input {v : World} {session : Nat} {pEvent : CJson} (env : Env)
    (h : TrickleFor pEvent v session) :
    ∃ v' body pCandidate, v.input switchTrue (.event pEvent env) = .ok v' ∧
      decodeBody pEvent = some (body, pCandidate) ∧
      (v'.legs session).media = ((v.legs session).media.step (.trickle pCandidate)).1 := by
  obtain ⟨response, hdecode⟩ := h.decoded
  obtain ⟨body, hbody⟩ := decode_pCandidate hdecode
  obtain ⟨hserver, hsender⟩ := decode_ids hdecode
  have hpType : response.pType = some "trickle" := (decode_eq_some hdecode).1.trans h.janus
  have hcalls : pollEventCalls pEvent =
      .ok [.trickle response.serverId response.senderId response.pCandidate] := by
    simp only [pollEventCalls, hdecode, hpType, mandatory_some]
    rfl
  obtain ⟨v', hv'⟩ : ∃ v', v.input switchTrue (.event pEvent env) = .ok v' := by
    simp only [World.input, apiDispatchPollEvent, hcalls]
    exact ⟨_, rfl⟩
  refine ⟨v', body, response.pCandidate, hv', hbody, ?_⟩
  have hreach : v.Reaches session response.serverId response.senderId := by
    rw [hserver, hsender]
    exact h.reaches
  rw [input_media switchTrue session hv', Input.steps, hcalls]
  simp [mediaCalls, Step.mediaCall, hreach]

/-- Every other input leaves the candidates of the leg alone. -/
theorem other_input {v v' : World} {session : Nat} {i : Input}
    (hv' : v.input switchTrue i = .ok v')
    (h : ∀ pEvent env, i = .event pEvent env → ¬ TrickleFor pEvent v session) :
    (v.legs session).media.SameCandidates (v'.legs session).media := by
  rw [input_media switchTrue session hv']
  apply state_sameCandidates
  intro pCandidate hmem
  cases i with
  | frame reader env => cases hmem
  | event pEvent env =>
      obtain ⟨calls, hcalls, -⟩ := dispatch_eq_ok switchTrue hv'
      rw [Input.steps, hcalls] at hmem
      obtain ⟨serverId, senderId, hmem, hreach⟩ := trickle_mem_mediaCalls hmem
      obtain ⟨htyped, hjanus, rfl, rfl⟩ := trickle_mem_pollEventCalls hcalls hmem
      exact h pEvent env rfl ⟨htyped, hjanus, hreach⟩

end Inputs

/-! ## The end of the candidates -/

namespace Leg

/-- `isTrickleComplete` becomes true. -/
def Completes (leg leg' : Leg) : Prop :=
  leg.isTrickleComplete = false ∧ leg'.isTrickleComplete = true

/-- The line that ends the candidates is appended to them. -/
def AppendsEnd (leg leg' : Leg) : Prop :=
  leg'.pSdpCandidates = some (leg.pSdpCandidates.getD "" ++ "a=end-of-candidates\r\n")

end Leg

theorem candidateLine_end_iff (pCandidate : Option String) :
    candidateLine pCandidate = "a=end-of-candidates\r\n" ↔
      pCandidate.getD "" = "" ∨ pCandidate = some "end-of-candidates" := by
  by_cases hempty : pCandidate.getD "" = ""
  · exact iff_of_true (if_pos hempty) (.inl hempty)
  · rw [candidateLine, if_neg hempty]
    cases pCandidate with
    | none => exact absurd rfl hempty
    | some text =>
        have hend : "a=end-of-candidates\r\n" = "a=" ++ "end-of-candidates" ++ "\r\n" := rfl
        rw [hend, String.append_left_inj, String.append_right_inj]
        simp only [Option.getD_some] at hempty ⊢
        simp [hempty]

section Steps

variable {leg leg' : Leg} {pCandidate : Option String}

theorem completes_step_iff (h : leg'.media = (leg.media.step (.trickle pCandidate)).1) :
    leg.Completes leg' ↔ leg.isTrickleComplete = false ∧ pCandidate.getD "" = "" := by
  have hflag : leg'.isTrickleComplete =
      (leg.media.step (.trickle pCandidate)).1.isTrickleComplete :=
    congrArg Media.isTrickleComplete h
  rw [Leg.Completes, hflag]
  by_cases hempty : pCandidate.getD "" = ""
  · simp [Media.step, hempty]
  · simp [Media.step, hempty, Leg.media]

theorem appendsEnd_step_iff (h : leg'.media = (leg.media.step (.trickle pCandidate)).1) :
    leg.AppendsEnd leg' ↔ pCandidate.getD "" = "" ∨ pCandidate = some "end-of-candidates" := by
  have hcandidates : leg'.pSdpCandidates =
      some (leg.pSdpCandidates.getD "" ++ candidateLine pCandidate) := by
    have hstep : leg'.pSdpCandidates =
        (leg.media.step (.trickle pCandidate)).1.pSdpCandidates :=
      congrArg Media.pSdpCandidates h
    rw [hstep]
    by_cases hempty : pCandidate.getD "" = ""
    · simp [Media.step, hempty, Leg.media]
    · simp [Media.step, hempty, Leg.media]
  rw [Leg.AppendsEnd, hcandidates, Option.some.injEq, String.append_right_inj,
    candidateLine_end_iff]

/-- Nothing that leaves the candidates alone ends them. -/
theorem Media.SameCandidates.ends_not (h : leg.media.SameCandidates leg'.media) :
    ¬ leg.Completes leg' ∧ ¬ leg.AppendsEnd leg' := by
  obtain ⟨hflag, hcandidates⟩ := h
  have hflag : leg'.isTrickleComplete = leg.isTrickleComplete := hflag
  have hcandidates : leg'.pSdpCandidates = leg.pSdpCandidates := hcandidates
  constructor
  · rintro ⟨hopen, hdone⟩
    rw [hflag, hopen] at hdone
    cases hdone
  · intro happends
    rw [Leg.AppendsEnd, hcandidates] at happends
    -- the text would be longer than itself
    have hlength := congrArg (fun candidates => (candidates.getD "").length) happends
    simp only [Option.getD_some, String.length_append] at hlength
    have hend : "a=end-of-candidates\r\n".length = 21 := rfl
    omega

end Steps

section Runs

variable (switchTrue : Option String → Bool)

/-- The run brings the input, and the world is then `v`. -/
def ArrivesAt (w : World) (inputs : List Input) (v : World) (i : Input) : Prop :=
  ∃ before after, inputs = before ++ i :: after ∧ w.after switchTrue before = .ok v

/-- The input is an event that says that the candidates are complete. -/
def Input.SaysComplete : Input → Prop
  | .event pEvent _ => ModJanus.SaysComplete pEvent
  | .frame _ _ => False

/-- What an effect on the leg depends on, read off the trickle events of a run. -/
theorem said_run_iff {P : Leg → Leg → Prop} {Q : Leg → Option String → Prop}
    (hother : ∀ {leg leg' : Leg}, leg.media.SameCandidates leg'.media → ¬ P leg leg')
    (htrickle : ∀ {leg leg' : Leg} {pCandidate : Option String},
      leg'.media = (leg.media.step (.trickle pCandidate)).1 → (P leg leg' ↔ Q leg pCandidate))
    (w : World) (session : Nat) (inputs : List Input) :
    (∀ v i v', ArrivesAt switchTrue w inputs v i → v.input switchTrue i = .ok v' →
        P (v.legs session) (v'.legs session) → i.SaysComplete) ↔
      ∀ v pEvent env body pCandidate, ArrivesAt switchTrue w inputs v (.event pEvent env) →
        TrickleFor pEvent v session → decodeBody pEvent = some (body, pCandidate) →
        Q (v.legs session) pCandidate → SaysComplete pEvent := by
  constructor
  · intro h v pEvent env body pCandidate harrives hfor hbody hends
    obtain ⟨v', body', pCandidate', hv', hbody', hmedia⟩ := trickleFor_input switchTrue env hfor
    rw [hbody, Option.some.injEq, Prod.mk.injEq] at hbody'
    obtain ⟨-, rfl⟩ := hbody'
    exact h v _ v' harrives hv' ((htrickle hmedia).mpr hends)
  · intro h v i v' harrives hv' heffect
    -- no other input touches the candidates of the leg
    by_cases hfor : ∃ pEvent env, i = .event pEvent env ∧ TrickleFor pEvent v session
    · obtain ⟨pEvent, env, rfl, hfor⟩ := hfor
      obtain ⟨v'', body, pCandidate, hv'', hbody, hmedia⟩ :=
        trickleFor_input switchTrue env hfor
      rw [hv', Except.ok.injEq] at hv''
      subst hv''
      exact h v pEvent env body pCandidate harrives hfor hbody ((htrickle hmedia).mp heffect)
    · have hsame := other_input switchTrue hv' fun pEvent env hi hfor' =>
        hfor ⟨pEvent, env, hi, hfor'⟩
      exact absurd heffect (hother hsame)

/-- In a run `isTrickleComplete` becomes true only by events that say so if and only if no
    trickle event is misread while it is false, and the end of the candidates is appended
    only by such events if and only if none is misread or spells it out at any time. -/
theorem completes_only_said_iff (w : World) (session : Nat) (inputs : List Input) :
    ((∀ v i v', ArrivesAt switchTrue w inputs v i → v.input switchTrue i = .ok v' →
        (v.legs session).Completes (v'.legs session) → i.SaysComplete) ↔
      ∀ v pEvent env, ArrivesAt switchTrue w inputs v (.event pEvent env) →
        TrickleFor pEvent v session → (v.legs session).isTrickleComplete = false →
        ¬ Misread pEvent) ∧
    ((∀ v i v', ArrivesAt switchTrue w inputs v i → v.input switchTrue i = .ok v' →
        (v.legs session).AppendsEnd (v'.legs session) → i.SaysComplete) ↔
      ∀ v pEvent env, ArrivesAt switchTrue w inputs v (.event pEvent env) →
        TrickleFor pEvent v session → ¬ Misread pEvent ∧ ¬ SpellsEnd pEvent) := by
  constructor
  · rw [said_run_iff switchTrue (fun h => h.ends_not.1) completes_step_iff]
    constructor
    · intro h v pEvent env harrives hfor hopen
      obtain ⟨body, pCandidate, hbody⟩ := hfor.decodedBody
      rw [← empty_says_iff hbody]
      intro hempty
      exact h v pEvent env body pCandidate harrives hfor hbody ⟨hopen, hempty⟩
    · intro h v pEvent env body pCandidate harrives hfor hbody hends
      exact (empty_says_iff hbody).mpr (h v pEvent env harrives hfor hends.1) hends.2
  · rw [said_run_iff switchTrue (fun h => h.ends_not.2) appendsEnd_step_iff]
    constructor
    · intro h v pEvent env harrives hfor
      obtain ⟨body, pCandidate, hbody⟩ := hfor.decodedBody
      have hsaid := h v pEvent env body pCandidate harrives hfor hbody
      rw [← empty_says_iff hbody, ← end_says_iff hbody]
      exact ⟨fun hempty => hsaid (.inl hempty), fun hend => hsaid (.inr hend)⟩
    · intro h v pEvent env body pCandidate harrives hfor hbody hends
      obtain ⟨hmisread, hspells⟩ := h v pEvent env harrives hfor
      rcases hends with hempty | hend
      · exact (empty_says_iff hbody).mpr hmisread hempty
      · exact (end_says_iff hbody).mpr hspells hend

end Runs

/-- A trickle event without a candidate. -/
def bareTrickleEvent : CJson :=
  .object [("janus", .string "trickle"), ("session_id", .number (.ofInt 1)),
    ("sender", .number (.ofInt 2))]

/-- It ends the candidates of the leg with the ids 1 and 2. -/
theorem bareTrickleEvent_completes :
    ¬ ∀ (switchTrue : Option String → Bool) (w : World) (session : Nat) (inputs : List Input)
      (v : World) (i : Input) (v' : World), ArrivesAt switchTrue w inputs v i →
      v.input switchTrue i = .ok v' →
      (v.legs session).Completes (v'.legs session) ∧ (v.legs session).AppendsEnd (v'.legs session) →
      i.SaysComplete := by
  intro h
  have hends : (plainWorld.input (· == some "true") (.event bareTrickleEvent {})).toOption.map
      (fun v' => (v'.legs 0).media) = some
        { isTrickleComplete := true, pSdpCandidates := some "a=end-of-candidates\r\n" } := by
    decide
  cases hv' : plainWorld.input (· == some "true") (.event bareTrickleEvent {}) with
  | error fault => simp [hv', Except.toOption] at hends
  | ok v' =>
      have hmedia : (v'.legs 0).media =
          { isTrickleComplete := true, pSdpCandidates := some "a=end-of-candidates\r\n" } := by
        simpa [hv', Except.toOption] using hends
      have hsaid := h (· == some "true") plainWorld 0 [.event bareTrickleEvent {}] plainWorld
        (.event bareTrickleEvent {}) v' ⟨[], [], rfl, rfl⟩ hv'
        ⟨⟨rfl, congrArg Media.isTrickleComplete hmedia⟩, congrArg Media.pSdpCandidates hmedia⟩
      obtain ⟨candidate, hcandidate, -⟩ := hsaid
      cases hcandidate

end ModJanus
