/-
  ModJanus.Leg.Negotiation

  How often `proceed` is entered for a leg, and in which order its media may arrive.

  Nothing is negotiated before there is a body.  Behind the body every completion enters
  `proceed`, whether or not the `accepted` that brought it has done so (`length_split`);
  so an `accepted` with candidates of its own is followed by a second negotiation as soon
  as the candidates end.  With a body that has none, the last of the calls is the one that
  enters `proceed`, wherever `accepted` stands among the candidates.
-/
import ModJanus.Leg.Trickle

namespace ModJanus

namespace MediaCall

def isAccepted : MediaCall → Bool
  | .accepted _ => true
  | .trickle _ => false

@[simp] theorem not_isAccepted_iff {call : MediaCall} :
    call.isAccepted = false ↔ ∃ pCandidate, call = .trickle pCandidate := by
  cases call with
  | accepted pSdp => simp [isAccepted]
  | trickle pCandidate => simp [isAccepted]

end MediaCall

section Entries

variable {calls front back before : List MediaCall} {call : MediaCall} {pSdp : String}

/-- A body has come with an `accepted`. -/
theorem exists_accepted (h : (lastBody calls).isSome = true) : ∃ pSdp, .accepted pSdp ∈ calls := by
  rw [lastBody, List.getLast?_isSome] at h
  obtain ⟨pSdp, hmem⟩ := List.exists_mem_of_ne_nil _ h
  obtain ⟨call, hcall, hsdp⟩ := List.mem_filterMap.mp hmem
  cases call with
  | accepted pSdp => exact ⟨pSdp, hcall⟩
  | trickle pCandidate => cases hsdp

theorem lastBody_isSome (h : .accepted pSdp ∈ calls) : (lastBody calls).isSome = true := by
  rw [lastBody, List.getLast?_isSome]
  exact List.ne_nil_of_mem (List.mem_filterMap.mpr ⟨_, h, rfl⟩)

theorem accepted_of_enters (h : Enters before call = true) :
    ∃ pSdp, .accepted pSdp ∈ before ++ [call] := by
  cases call with
  | accepted pSdp => exact ⟨pSdp, by simp⟩
  | trickle pCandidate =>
      rw [Enters, Bool.and_eq_true] at h
      obtain ⟨pSdp, hmem⟩ := exists_accepted h.2
      exact ⟨pSdp, List.mem_append_left _ hmem⟩

/-- A call enters `proceed` for candidates that have ended or that the body brings. -/
theorem complete_of_enters (h : Enters before call = true)
    (hown : ∀ pSdp, call = .accepted pSdp → hasCandidates pSdp = false) :
    isComplete (before ++ [call]) = true := by
  rw [isComplete_concat]
  cases call with
  | accepted pSdp =>
      rw [Enters, hown pSdp rfl, Bool.false_or] at h
      rw [h, Bool.true_or]
  | trickle pCandidate =>
      rw [Enters, Bool.and_eq_true] at h
      rw [MediaCall.isCompletion, h.1, Bool.or_true]

/-- Nothing is negotiated without a body. -/
theorem negotiated_nil (h : ∀ pSdp, .accepted pSdp ∉ calls) : Media.negotiated {} calls = [] := by
  apply List.eq_nil_iff_forall_not_mem.mpr
  intro sdp hmem
  obtain ⟨front, call, back, rfl, henters, -⟩ := mem_negotiated_iff.mp hmem
  obtain ⟨pSdp, haccepted⟩ := accepted_of_enters henters
  apply h pSdp
  rw [List.append_cons]
  exact List.mem_append_left _ haccepted

/-- Nothing is negotiated while the candidates are waited for. -/
theorem negotiated_nil_of_incomplete (hcomplete : isComplete calls = false)
    (hown : ∀ pSdp, .accepted pSdp ∈ calls → hasCandidates pSdp = false) :
    Media.negotiated {} calls = [] := by
  apply List.eq_nil_iff_forall_not_mem.mpr
  intro sdp hmem
  obtain ⟨front, call, back, rfl, henters, -⟩ := mem_negotiated_iff.mp hmem
  have hfront : isComplete (front ++ [call]) = true := by
    apply complete_of_enters henters
    intro pSdp hcall
    exact hown pSdp (by simp [hcall])
  have hcalls : isComplete (front ++ call :: back) = true := by
    rw [List.append_cons, isComplete, List.any_append, ← isComplete, hfront, Bool.true_or]
  rw [hcalls] at hcomplete
  cases hcomplete

/-- Behind the body every completion negotiates. -/
theorem length_split (hback : ∀ call ∈ back, call.isAccepted = false) :
    (Media.negotiated {} (front ++ .accepted pSdp :: back)).length =
      (Media.negotiated {} (front ++ [.accepted pSdp])).length +
        back.countP MediaCall.isCompletion := by
  induction back using List.reverseRecOn with
  | nil => simp
  | append_singleton back call ih =>
      have hbefore := ih fun call hmem => hback call (List.mem_append_left _ hmem)
      have hmem : .accepted pSdp ∈ front ++ .accepted pSdp :: back := by simp
      obtain ⟨pCandidate, rfl⟩ := MediaCall.not_isAccepted_iff.mp (hback call (by simp))
      have henters : Enters (front ++ .accepted pSdp :: back) (.trickle pCandidate) =
          MediaCall.isCompletion (.trickle pCandidate) := by
        rw [Enters, lastBody_isSome hmem, Bool.and_true]
        rfl
      rw [← List.cons_append, ← List.append_assoc, negotiated_concat, henters,
        List.length_append, hbefore, List.countP_append]
      cases hcompletion : MediaCall.isCompletion (.trickle pCandidate) with
      | false => simp [hcompletion]
      | true =>
          simp [hcompletion]
          omega

/-- The body itself negotiates when it brings candidates or finds them complete. -/
theorem length_accepted (hfront : ∀ call ∈ front, call.isAccepted = false) :
    (Media.negotiated {} (front ++ [.accepted pSdp])).length =
      if hasCandidates pSdp || isComplete front then 1 else 0 := by
  have hnil : Media.negotiated {} front = [] := by
    apply negotiated_nil
    intro pSdp hmem
    exact Bool.noConfusion (hfront _ hmem)
  rw [negotiated_concat, hnil, List.nil_append, Enters]
  split <;> rfl

end Entries

/-! ## At most once -/

section AtMostOnce

variable {calls : List MediaCall}

theorem isComplete_iff_countP (calls : List MediaCall) :
    isComplete calls = true ↔ 0 < calls.countP MediaCall.isCompletion := by
  rw [isComplete, List.any_eq_true, List.countP_pos_iff]

/-- The single `accepted` of a list of calls, with the rest around it. -/
theorem accepted_split (haccepted : calls.countP MediaCall.isAccepted ≤ 1) {front back pSdp}
    (hcalls : calls = front ++ .accepted pSdp :: back) :
    (∀ call ∈ front, call.isAccepted = false) ∧ ∀ call ∈ back, call.isAccepted = false := by
  have hsum : calls.countP MediaCall.isAccepted = front.countP MediaCall.isAccepted +
      (back.countP MediaCall.isAccepted + 1) := by
    rw [hcalls, List.countP_append, List.countP_cons_of_pos rfl]
  have hfront : front.countP MediaCall.isAccepted = 0 := by omega
  have hback : back.countP MediaCall.isAccepted = 0 := by omega
  simp only [List.countP_eq_zero, Bool.not_eq_true] at hfront hback
  exact ⟨hfront, hback⟩

theorem negotiated_once_iff (haccepted : calls.countP MediaCall.isAccepted ≤ 1)
    (hcompletion : calls.countP MediaCall.isCompletion ≤ 1) :
    (Media.negotiated {} calls).length ≤ 1 ↔ ¬ ∃ front pSdp back,
      calls = front ++ .accepted pSdp :: back ∧ hasCandidates pSdp = true ∧
        isComplete back = true := by
  by_cases hsome : ∃ pSdp, .accepted pSdp ∈ calls
  · obtain ⟨pSdp, hmem⟩ := hsome
    obtain ⟨front, back, hcalls⟩ := List.append_of_mem hmem
    obtain ⟨hfront, hback⟩ := accepted_split haccepted hcalls
    -- the completions in front of the body and behind it are at most one together
    have hsum : front.countP MediaCall.isCompletion + back.countP MediaCall.isCompletion ≤ 1 := by
      rw [hcalls, List.countP_append, List.countP_cons_of_neg (by simp [MediaCall.isCompletion])]
        at hcompletion
      exact hcompletion
    have hlength : (Media.negotiated {} calls).length =
        (if hasCandidates pSdp || isComplete front then 1 else 0) +
          back.countP MediaCall.isCompletion := by
      rw [hcalls, length_split hback, length_accepted hfront]
    have hfrontIff := isComplete_iff_countP front
    have hbackIff := isComplete_iff_countP back
    rw [hlength]
    constructor
    · rintro hle ⟨front', pSdp', back', hcalls', hown, hcomplete⟩
      obtain ⟨hfront', hback'⟩ := accepted_split haccepted hcalls'
      have hcount := (isComplete_iff_countP back').mp hcomplete
      have htwice : (Media.negotiated {} calls).length =
          1 + back'.countP MediaCall.isCompletion := by
        rw [hcalls', length_split hback', length_accepted hfront', hown, Bool.true_or, if_pos rfl]
      omega
    · intro hnot
      cases hown : hasCandidates pSdp with
      | true =>
          have hincomplete : ¬ isComplete back = true := fun hcomplete =>
            hnot ⟨front, pSdp, back, hcalls, hown, hcomplete⟩
          rw [hbackIff] at hincomplete
          rw [Bool.true_or, if_pos rfl]
          omega
      | false =>
          rw [Bool.false_or]
          split
          · next hcomplete =>
              have hcount := hfrontIff.mp hcomplete
              omega
          · omega
  · have hnil : Media.negotiated {} calls = [] :=
      negotiated_nil fun pSdp hmem => hsome ⟨pSdp, hmem⟩
    rw [hnil]
    refine iff_of_true (Nat.zero_le 1) ?_
    rintro ⟨front, pSdp, back, rfl, -⟩
    exact hsome ⟨pSdp, by simp⟩

end AtMostOnce

section Runs

variable (switchTrue : Option String → Bool)

/-- With at most one `accepted` and at most one completion, a run negotiates and activates
    at most once if and only if no completion follows an `accepted` that has candidates of
    its own. -/
theorem proceed_once_iff (w : World) (session : Nat) (hfresh : (w.legs session).MediaFresh)
    (steps : List Step)
    (haccepted : (mediaCalls w session steps).countP MediaCall.isAccepted ≤ 1)
    (hcompletion : (mediaCalls w session steps).countP MediaCall.isCompletion ≤ 1) :
    (((steps.foldl (World.step switchTrue) w).legs session).negotiated.length ≤ 1 ∧
        ((steps.foldl (World.step switchTrue) w).legs session).activations ≤ 1) ↔
      ¬ ∃ front pSdp back, mediaCalls w session steps = front ++ .accepted pSdp :: back ∧
        hasCandidates pSdp = true ∧ isComplete back = true := by
  obtain ⟨hnegotiated, hactivations⟩ := run_fresh switchTrue hfresh steps
  rw [← negotiated_once_iff haccepted hcompletion, hnegotiated]
  constructor
  · exact And.left
  · intro hle
    exact ⟨hle, hactivations.trans hle⟩

/-- The candidates have ended before the SDP comes with one of its own. -/
theorem proceed_once_own :
    ((([.trickle none, .accepted "a=candidate:1"].map MediaCall.toStep).foldl
        (World.step (· == some "true")) plainWorld).legs 0).negotiated.length ≤ 1 ∧
      ((([.trickle none, .accepted "a=candidate:1"].map MediaCall.toStep).foldl
        (World.step (· == some "true")) plainWorld).legs 0).activations ≤ 1 := by
  refine (proceed_once_iff (· == some "true") plainWorld 0 plainWorld_fresh _ ?_ ?_).mpr ?_
  · rw [mediaCalls_toStep]
    decide
  · rw [mediaCalls_toStep]
    decide
  · rw [mediaCalls_toStep]
    rintro ⟨front, pSdp, back, hcalls, -, hcomplete⟩
    have hback : back = [] := by
      cases front with
      | nil => cases hcalls
      | cons call front =>
          have hlength := congrArg List.length hcalls
          simp only [List.length_cons, List.length_append, List.length_nil] at hlength
          exact List.eq_nil_of_length_eq_zero (by omega)
    rw [hback] at hcomplete
    cases hcomplete

/-- The candidates end behind an SDP that has one of its own. -/
theorem proceed_twice :
    ¬ ∀ (switchTrue : Option String → Bool) (w : World) (session : Nat) (steps : List Step),
      (w.legs session).MediaFresh →
      (mediaCalls w session steps).countP MediaCall.isAccepted ≤ 1 →
      (mediaCalls w session steps).countP MediaCall.isCompletion ≤ 1 →
      ((steps.foldl (World.step switchTrue) w).legs session).negotiated.length ≤ 1 ∧
        ((steps.foldl (World.step switchTrue) w).legs session).activations ≤ 1 := by
  intro h
  have hrun := h (· == some "true") plainWorld 0
    ([.accepted "a=candidate:1", .trickle none].map MediaCall.toStep) plainWorld_fresh
  rw [mediaCalls_toStep, (run_fresh (· == some "true") plainWorld_fresh _).1,
    mediaCalls_toStep] at hrun
  have htwice : (Media.negotiated {} [.accepted "a=candidate:1", .trickle none]).length = 2 := by
    decide
  have hle := (hrun (by decide) (by decide)).1
  omega

end Runs

/-! ## In any order -/

/-- The trickle calls that bring the candidates one by one, and then their end. -/
def trickleCalls (candidates : List String) (pLast : Option String) : List MediaCall :=
  candidates.map (fun candidate => .trickle (some candidate)) ++ [.trickle pLast]

/-- The calls bring the candidates and their end, and at some place among them the body,
    which has no candidates of its own. -/
structure Interleaved (pSdp : String) (candidates : List String) (pLast : Option String)
    (calls : List MediaCall) : Prop where
  notOwn : hasCandidates pSdp = false
  nonempty : ∀ candidate ∈ candidates, candidate ≠ ""
  last : pLast.getD "" = ""
  calls : ∃ front back, calls = front ++ .accepted pSdp :: back ∧
    front ++ back = trickleCalls candidates pLast

/-- The lines of the SDP that the candidates and their end make up. -/
def completeLines (candidates : List String) : String :=
  String.join (candidates.map fun candidate => "a=" ++ candidate ++ "\r\n") ++
    "a=end-of-candidates\r\n"

section AnyOrder

variable {pSdp : String} {candidates : List String} {pLast : Option String}
  {calls front back : List MediaCall}

theorem strncat_of_le {dest src : String} {n : Nat} (h : src.length ≤ n) :
    strncat dest src n = dest ++ src := by
  have htake : src.toList.take n = src.toList := by
    apply List.take_of_length_le
    rwa [String.length_toList]
  rw [strncat, htake, String.ofList_toList]

/-- Neither append cuts anything off a text that is shorter than the buffer. -/
theorem sdp_of_fits {body lines : String} (h : (body ++ lines).length < SDP_SIZE) :
    Leg.sdp body (some lines) = body ++ lines := by
  rw [String.length_append] at h
  have hbody : body.length ≤ SDP_SIZE - 1 := by omega
  have hlines : lines.length ≤ SDP_SIZE - 1 := by omega
  show strncat (strncat "" body (SDP_SIZE - 1)) lines (SDP_SIZE - 1) = body ++ lines
  rw [strncat_of_le hbody, strncat_of_le hlines, String.empty_append]

/-- The lines of trickle calls that bring candidates. -/
theorem candidateLines_map (hnonempty : ∀ candidate ∈ candidates, candidate ≠ "") :
    candidateLines (candidates.map fun candidate => .trickle (some candidate)) =
      candidates.map fun candidate => "a=" ++ candidate ++ "\r\n" := by
  induction candidates with
  | nil => rfl
  | cons candidate candidates ih =>
      have hcandidate : candidateLine (some candidate) = "a=" ++ candidate ++ "\r\n" :=
        if_neg (hnonempty candidate (by simp))
      have hrest := ih fun candidate' hmem => hnonempty candidate' (List.mem_cons_of_mem _ hmem)
      rw [candidateLines] at hrest ⊢
      simp only [List.map_cons, List.filterMap_cons, MediaCall.line?, hcandidate, hrest]

theorem candidateLines_trickleCalls (hnonempty : ∀ candidate ∈ candidates, candidate ≠ "")
    (hlast : pLast.getD "" = "") :
    String.join (candidateLines (trickleCalls candidates pLast)) = completeLines candidates := by
  have hline : candidateLine pLast = "a=end-of-candidates\r\n" := if_pos hlast
  rw [trickleCalls, candidateLines_trickle, hline, candidateLines_map hnonempty,
    String.join_append, completeLines]
  simp

theorem trickleCalls_notAccepted :
    ∀ call ∈ trickleCalls candidates pLast, call.isAccepted = false := by
  intro call hmem
  rw [trickleCalls, List.mem_append, List.mem_map, List.mem_singleton] at hmem
  rcases hmem with ⟨candidate, -, rfl⟩ | rfl
  · rfl
  · rfl

/-- The body is the only one that arrives. -/
theorem lastBody_split (hrest : ∀ call ∈ front ++ back, call.isAccepted = false) :
    lastBody (front ++ .accepted pSdp :: back) = some pSdp := by
  have hnone : (front ++ back).filterMap MediaCall.pSdp? = [] := by
    rw [List.filterMap_eq_nil_iff]
    intro call hmem
    obtain ⟨pCandidate, rfl⟩ := MediaCall.not_isAccepted_iff.mp (hrest call hmem)
    rfl
  rw [List.filterMap_append, List.append_eq_nil_iff] at hnone
  have hbody : (MediaCall.accepted pSdp).pSdp? = some pSdp := rfl
  rw [lastBody, List.filterMap_append, hnone.1, List.filterMap_cons_some hbody, hnone.2]
  rfl

/-- The lines do not depend on where the body arrives. -/
theorem candidateLines_split :
    candidateLines (front ++ .accepted pSdp :: back) = candidateLines (front ++ back) := by
  have hline : (MediaCall.accepted pSdp).line? = none := rfl
  rw [candidateLines, candidateLines, List.filterMap_append, List.filterMap_append,
    List.filterMap_cons_none hline]

namespace Interleaved

theorem gatheredSdp_eq (h : Interleaved pSdp candidates pLast calls) :
    gatheredSdp calls = Leg.sdp pSdp (some (completeLines candidates)) := by
  obtain ⟨front, back, rfl, hrest⟩ := h.calls
  have hnot : ∀ call ∈ front ++ back, call.isAccepted = false := by
    rw [hrest]
    exact trickleCalls_notAccepted
  rw [gatheredSdp, lastBody_split hnot, candidateLines_split, hrest,
    candidateLines_trickleCalls h.nonempty h.last, Option.getD_some]

/-- Either the body comes last, or the end of the candidates does. -/
theorem cases (h : Interleaved pSdp candidates pLast calls) :
    calls = trickleCalls candidates pLast ++ [.accepted pSdp] ∨
      ∃ front back, calls = (front ++ .accepted pSdp :: back) ++ [.trickle pLast] ∧
        front ++ back = candidates.map fun candidate => .trickle (some candidate) := by
  obtain ⟨front, back, rfl, hrest⟩ := h.calls
  rcases List.eq_nil_or_concat back with rfl | ⟨back, call, rfl⟩
  · rw [List.append_nil] at hrest
    rw [hrest]
    exact .inl rfl
  · rw [trickleCalls, List.concat_eq_append, ← List.append_assoc] at hrest
    obtain ⟨hcandidates, hcall⟩ := List.append_inj' hrest rfl
    refine .inr ⟨front, back, ?_, hcandidates⟩
    rw [List.concat_eq_append, hcall, List.append_assoc, List.cons_append]

/-- Before the end of the candidates there is no completion, and no body but this one. -/
theorem incomplete (h : Interleaved pSdp candidates pLast calls)
    (hcandidates : front ++ back = candidates.map fun candidate => .trickle (some candidate)) :
    isComplete (front ++ .accepted pSdp :: back) = false ∧
      Media.negotiated {} (front ++ .accepted pSdp :: back) = [] := by
  have hnone : isComplete (front ++ back) = false := by
    rw [hcandidates, isComplete, List.any_eq_false]
    intro call hmem
    obtain ⟨candidate, hcandidate, rfl⟩ := List.mem_map.mp hmem
    simp [MediaCall.isCompletion, h.nonempty candidate hcandidate]
  have hincomplete : isComplete (front ++ .accepted pSdp :: back) = false := by
    rw [isComplete, List.any_append] at hnone ⊢
    rw [List.any_cons]
    exact hnone
  have hown : ∀ pSdp', .accepted pSdp' ∈ front ++ .accepted pSdp :: back →
      hasCandidates pSdp' = false := by
    intro pSdp' hmem
    rw [List.mem_append, List.mem_cons, or_left_comm, ← List.mem_append, hcandidates] at hmem
    rcases hmem with heq | hmem
    · rw [MediaCall.accepted.inj heq]
      exact h.notOwn
    · obtain ⟨candidate, -, heq⟩ := List.mem_map.mp hmem
      cases heq
  exact ⟨hincomplete, negotiated_nil_of_incomplete hincomplete hown⟩

/-- The later one of the body and the end of the candidates is the last of the calls, and
    it is the one that enters `proceed`. -/
theorem concat (h : Interleaved pSdp candidates pLast calls) :
    ∃ init last, calls = init ++ [last] ∧ Enters init last = true ∧
      Media.negotiated {} init = [] ∧ ¬ (.accepted pSdp ∈ init ∧ .trickle pLast ∈ init) := by
  have hcompletion : MediaCall.isCompletion (.trickle pLast) = true := by
    simp [MediaCall.isCompletion, h.last]
  rcases h.cases with hbody | ⟨front, back, hend, hcandidates⟩
  · have hnot : ∀ pSdp', .accepted pSdp' ∉ trickleCalls candidates pLast := fun pSdp' hmem =>
      Bool.noConfusion (trickleCalls_notAccepted _ hmem)
    refine ⟨_, _, hbody, ?_, negotiated_nil hnot, fun hmem => hnot pSdp hmem.1⟩
    rw [Enters, trickleCalls, isComplete_concat, hcompletion, Bool.or_true, Bool.or_true]
  · obtain ⟨hincomplete, hnil⟩ := h.incomplete hcandidates
    refine ⟨_, _, hend, ?_, hnil, ?_⟩
    · have hmem : .accepted pSdp ∈ front ++ .accepted pSdp :: back := by simp
      rw [Enters, lastBody_isSome hmem, Bool.and_true]
      exact hcompletion
    · rintro ⟨-, hmem⟩
      have hcomplete : isComplete (front ++ .accepted pSdp :: back) = true :=
        List.any_eq_true.mpr ⟨_, hmem, hcompletion⟩
      rw [hincomplete] at hcomplete
      cases hcomplete

theorem mem (h : Interleaved pSdp candidates pLast calls) :
    .accepted pSdp ∈ calls ∧ .trickle pLast ∈ calls := by
  obtain ⟨front, back, rfl, hrest⟩ := h.calls
  have hlast : .trickle pLast ∈ front ++ back := by
    rw [hrest, trickleCalls]
    exact List.mem_append_right _ (List.mem_singleton_self _)
  rw [List.mem_append] at hlast
  exact ⟨by simp, by simpa using hlast⟩

/-- The whole of the calls negotiates once, with all that has been gathered. -/
theorem negotiated_eq (h : Interleaved pSdp candidates pLast calls) :
    Media.negotiated {} calls = [gatheredSdp calls] := by
  obtain ⟨init, last, hcalls, henters, hnil, -⟩ := h.concat
  rw [hcalls, negotiated_concat, hnil, if_pos henters, List.nil_append]

/-- How much is negotiated by a part of the calls. -/
theorem negotiated_prefix (h : Interleaved pSdp candidates pLast calls) {before after}
    (hcut : calls = before ++ after) :
    (Media.negotiated {} before).length =
      if .accepted pSdp ∈ before ∧ .trickle pLast ∈ before then 1 else 0 := by
  rcases List.eq_nil_or_concat after with rfl | ⟨after, call, rfl⟩
  · rw [List.append_nil] at hcut
    subst hcut
    rw [if_pos h.mem, h.negotiated_eq, List.length_singleton]
  · obtain ⟨init, last, hcalls, -, hnil, hnot⟩ := h.concat
    rw [hcut, List.concat_eq_append, ← List.append_assoc] at hcalls
    obtain ⟨hinit, -⟩ := List.append_inj' hcalls rfl
    have hmem : ¬ (.accepted pSdp ∈ before ∧ .trickle pLast ∈ before) := by
      rintro ⟨hbody, hend⟩
      apply hnot
      rw [← hinit]
      exact ⟨List.mem_append_left _ hbody, List.mem_append_left _ hend⟩
    have hbefore : Media.negotiated {} before = [] := by
      rw [← hinit, Media.negotiated, Mealy.outputs_append, List.append_eq_nil_iff] at hnil
      exact hnil.1
    rw [if_neg hmem, hbefore, List.length_nil]

end Interleaved

variable (switchTrue : Option String → Bool)

/-- Wherever the body arrives among the candidates, `proceed` is entered once, at the later
    one of the body and the end of the candidates, and with all of them when they fit. -/
theorem proceed_any_order (w : World) (session : Nat) (hfresh : (w.legs session).MediaFresh)
    (steps : List Step)
    (h : Interleaved pSdp candidates pLast (mediaCalls w session steps)) :
    (∀ before after, steps = before ++ after →
        ((before.foldl (World.step switchTrue) w).legs session).negotiated.length =
          if .accepted pSdp ∈ mediaCalls w session before ∧
            .trickle pLast ∈ mediaCalls w session before then 1 else 0) ∧
      ((pSdp ++ completeLines candidates).length < SDP_SIZE →
        ((steps.foldl (World.step switchTrue) w).legs session).negotiated =
          [pSdp ++ completeLines candidates]) := by
  constructor
  · intro before after hsteps
    have hcut : mediaCalls w session steps =
        mediaCalls w session before ++ mediaCalls w session after := by
      rw [hsteps, mediaCalls, List.filterMap_append]
      rfl
    rw [(run_fresh switchTrue hfresh before).1, h.negotiated_prefix hcut]
  · intro hfits
    rw [(run_fresh switchTrue hfresh steps).1, h.negotiated_eq, h.gatheredSdp_eq,
      sdp_of_fits hfits]

end AnyOrder

/-- The body between two candidates. -/
theorem proceed_any_order_between :
    (([.trickle (some "candidate:1"), .accepted "v=0\r\n", .trickle (some "candidate:2"),
      .trickle none].map MediaCall.toStep).foldl (World.step (· == some "true")) plainWorld
      |>.legs 0).negotiated = ["v=0\r\n" ++ completeLines ["candidate:1", "candidate:2"]] := by
  have h : Interleaved "v=0\r\n" ["candidate:1", "candidate:2"] none
      (mediaCalls plainWorld 0 ([.trickle (some "candidate:1"), .accepted "v=0\r\n",
        .trickle (some "candidate:2"), .trickle none].map MediaCall.toStep)) := by
    rw [mediaCalls_toStep]
    exact ⟨by decide, by decide, rfl, [.trickle (some "candidate:1")],
      [.trickle (some "candidate:2"), .trickle none], rfl, rfl⟩
  exact (proceed_any_order (· == some "true") plainWorld 0 plainWorld_fresh _ h).2 (by decide)

end ModJanus
