/-
  ModJanus.Leg.Interleaving

  Calls of `answered`, `participant` and `channel_read_frame` for one leg, from any
  number of threads, interleaved at the critical sections of `flag_mutex`.

  A call looks the leg up, takes the mutex once and, if the section says so, goes on:
  `answered` to `switch_channel_answer`, the other two to a call of `answered` that
  releases the answer.  `channel_read_frame` reads the flags one by one without the
  mutex before it takes it.  `joined` may arm the gate at any point, and the leg may
  be registered or not whenever a call looks it up.
-/
import ModJanus.Lib.Census
import ModJanus.Lib.Transition
import ModJanus.Leg.Gate

namespace ModJanus.GateCalls

open Transition (Reach Always)
open Census (weight countP_set countP_concat weight_le_countP)

/-- The tests that `channel_read_frame` makes without the mutex, in their order. -/
inductive FrameTest where
  | answerGate
  | answerRequested
  | answerDone
  | answerDeadline
  | clock
  deriving DecidableEq, Repr

def FrameTest.holds (g : Gate) (now : Int) : FrameTest → Bool
  | .answerGate => g.answerGate
  | .answerRequested => g.answerRequested
  | .answerDone => !g.answerDone
  | .answerDeadline => g.answerDeadline ≠ 0
  | .clock => g.answerDeadline ≤ now

def FrameTest.next : FrameTest → Option FrameTest
  | .answerGate => some .answerRequested
  | .answerRequested => some .answerDone
  | .answerDone => some .answerDeadline
  | .answerDeadline => some .clock
  | .clock => none

/-- Where a call stands.  `released` marks a call of `answered` that `participant`
    or `channel_read_frame` makes after its own critical section. -/
inductive Call where
  /-- `answered`, before it looks the leg up. -/
  | answered (released : Bool)
  /-- `answered`, before it takes the mutex. -/
  | answeredFound (released : Bool)
  /-- `answered`, about to invoke `switch_channel_answer`. -/
  | answering
  | participant (pParticipantIdStr : String) (isSelf setup : Bool)
  | participantFound (pParticipantIdStr : String) (isSelf setup : Bool)
  | readFrame (test : FrameTest)
  /-- `channel_read_frame` with all tests passed, before it takes the mutex. -/
  | readFrameDue
  | returned
  deriving DecidableEq, Repr

/-- The call is about to invoke `switch_channel_answer`. -/
def Call.isAnswering : Call → Bool
  | .answering => true
  | _ => false

/-- The call releases the answer and has not taken the mutex for it yet. -/
def Call.isReleasing : Call → Bool
  | .answered released => released
  | .answeredFound released => released
  | _ => false

/-- The call has been through a critical section and has more to do. -/
def Call.isBetween (c : Call) : Bool := c.isAnswering || c.isReleasing

structure State where
  gate : Gate := {}
  /-- The leg is found through `serverIdLookup` and `senderIdLookup`. -/
  registered : Bool := true
  calls : List Call := []
  /-- How often `switch_channel_answer` was invoked. -/
  answers : Nat := 0
  deriving DecidableEq, Repr

inductive Action where
  | answered
  | participant (pParticipantIdStr : String) (isSelf setup : Bool)
  | readFrame
  /-- Call `i` takes its next step, at the time `now`. -/
  | advance (i : Nat) (now : Int)
  /-- The critical section of `joined`. -/
  | joined (answerDeadline : Int)
  | register (registered : Bool)
  deriving DecidableEq, Repr

/-- A call returns when its leg is not registered. -/
def lookup (registered : Bool) (found : Call) : Call := if registered then found else .returned

/-- `answered` after its critical section. -/
def afterAnswered (section_ : Gate × Bool) : Gate × Call :=
  (section_.1, if section_.2 then .answering else .returned)

/-- `participant` for another participant, after its critical section. -/
def afterParticipant (section_ : Gate × Bool) : Gate × Call :=
  (section_.1, if section_.2 then .answered true else .returned)

/-- The next step of a call: the gate after it, and where the call stands then. -/
def Call.next (g : Gate) (registered : Bool) (now : Int) : Call → Gate × Call
  | .answered released => (g, lookup registered (.answeredFound released))
  | .answeredFound _ => afterAnswered g.answered
  | .answering => (g, .returned)
  | .participant id isSelf setup => (g, lookup registered (.participantFound id isSelf setup))
  | .participantFound id isSelf setup =>
      if isSelf then (g.participantSelf id, .returned)
      else afterParticipant (g.participantRemote id setup)
  | .readFrame test =>
      if test.holds g now then
        match test.next with
        | some test => (g, .readFrame test)
        | none => (g, .readFrameDue)
      else (g, .returned)
  | .readFrameDue => (g.deadlinePassed, .answered true)
  | .returned => (g, .returned)

def State.advance (s : State) (i : Nat) (now : Int) : Option State :=
  match s.calls[i]? with
  | some c =>
      some { s with
        gate := (c.next s.gate s.registered now).1
        calls := s.calls.set i (c.next s.gate s.registered now).2
        answers := s.answers + weight Call.isAnswering c }
  | none => none

/-- A thread makes a call. -/
def State.enter (s : State) (c : Call) : State := { s with calls := s.calls ++ [c] }

def step (s : State) : Action → Option State
  | .answered => some (s.enter (.answered false))
  | .participant id isSelf setup => some (s.enter (.participant id isSelf setup))
  | .readFrame => some (s.enter (.readFrame .answerGate))
  | .advance i now => s.advance i now
  | .joined answerDeadline => some { s with gate := s.gate.arm answerDeadline }
  | .register registered => some { s with registered := registered }

def Initial (s : State) : Prop := s = {}

/-- The leg stays registered. -/
def StaysRegistered (_ : State) (a : Action) : Prop := a ≠ .register false

instance (s : State) (a : Action) : Decidable (StaysRegistered s a) :=
  inferInstanceAs (Decidable (a ≠ .register false))

/-! ## What a call's step can do -/

/-- The answer was requested and the remote participant is ready, but nobody has
    taken it upon itself to answer. -/
def releasable (g : Gate) : Bool := g.answerRequested && g.remoteReady && !g.answerDone

/-- `answerDone` as a number. -/
def doneCount (g : Gate) : Nat := if g.answerDone then 1 else 0

/-- `answerDone` is set by the step that makes a call go on to answer, and by no
    other. -/
theorem next_doneCount (g : Gate) (registered : Bool) (now : Int) (c : Call) :
    doneCount (c.next g registered now).1 =
      doneCount g + weight Call.isAnswering (c.next g registered now).2 := by
  have hret : weight Call.isAnswering .returned = 0 := rfl
  cases c with
  | answered released => cases registered <;> rfl
  | answeredFound released =>
      simp only [Call.next, afterAnswered]
      -- it is done already, it has to wait, or it is decided here
      rcases g.answered_cases with ⟨hdone, h⟩ | ⟨hdone, -, -, h⟩ | ⟨hdone, -, h⟩
      · simp [h, doneCount, hdone, hret]
      · simp [h, doneCount, hdone, hret]
      · simp [h, doneCount, hdone, weight, Call.isAnswering]
  | answering => rfl
  | participant id isSelf setup => cases registered <;> rfl
  | participantFound id isSelf setup =>
      cases isSelf with
      | true => rfl
      | false =>
          simp only [Call.next, afterParticipant]
          rcases g.participantRemote_cases id setup with h | ⟨-, hdone, -, -, h⟩
          · rw [h]
            rfl
          · rw [h]
            cases g.answerRequested <;> rfl
  | readFrame test =>
      simp only [Call.next]
      split
      · cases test <;> rfl
      · rfl
  | readFrameDue => rfl
  | returned => rfl

/-- While the leg is registered, a gate is releasable after a step only if the call
    now releases it, or it was releasable before and the call did not release it. -/
theorem next_releasable {g : Gate} {now : Int} {c : Call}
    (h : releasable (c.next g true now).1 = true) :
    (c.next g true now).2.isReleasing = true ∨ (releasable g = true ∧ c.isReleasing = false) := by
  cases c with
  | answered released =>
      cases released with
      | true => exact .inl rfl
      | false => exact .inr ⟨h, rfl⟩
  | answeredFound released =>
      -- after `answered` the answer is done, or requested but not ready
      exfalso
      simp only [Call.next, afterAnswered] at h
      rcases g.answered_cases with ⟨hdone, hg⟩ | ⟨-, -, hready, hg⟩ | ⟨-, -, hg⟩
      · simp [hg, releasable, hdone] at h
      · simp [hg, releasable, hready] at h
      · simp [hg, releasable] at h
  | answering => exact .inr ⟨h, rfl⟩
  | participant id isSelf setup => exact .inr ⟨h, rfl⟩
  | participantFound id isSelf setup =>
      cases isSelf with
      | true => exact .inr ⟨h, rfl⟩
      | false =>
          simp only [Call.next, afterParticipant] at h ⊢
          rcases g.participantRemote_cases id setup with hg | ⟨-, -, -, -, hg⟩
          · rw [hg] at h
            exact .inr ⟨h, rfl⟩
          · -- the answer was requested, so the report goes on to release it
            rw [hg] at h ⊢
            have hrequested : g.answerRequested = true := by
              simp only [releasable, Bool.and_eq_true] at h
              exact h.1.1
            refine .inl ?_
            rw [hrequested]
            rfl
  | readFrame test =>
      have hsame : (Call.next g true now (.readFrame test)).1 = g := by
        simp only [Call.next]
        split
        · cases test <;> rfl
        · rfl
      rw [hsame] at h
      exact .inr ⟨h, rfl⟩
  | readFrameDue => exact .inl rfl
  | returned => exact .inr ⟨h, rfl⟩

/-! ## Runs -/

/-- Every answer that was decided upon has been made or is about to be. -/
def AnswersDecided (s : State) : Prop :=
  s.answers + s.calls.countP Call.isAnswering = doneCount s.gate

theorem advance_eq_some {s s' : State} {i : Nat} {now : Int} (h : s.advance i now = some s') :
    ∃ c, s.calls[i]? = some c ∧ s' = { s with
      gate := (c.next s.gate s.registered now).1
      calls := s.calls.set i (c.next s.gate s.registered now).2
      answers := s.answers + weight Call.isAnswering c } := by
  unfold State.advance at h
  split at h
  · next c hc =>
      cases h
      exact ⟨c, hc, rfl⟩
  · cases h

theorem enter_answersDecided {s : State} {c : Call} (hi : AnswersDecided s)
    (hc : weight Call.isAnswering c = 0) : AnswersDecided (s.enter c) := by
  unfold AnswersDecided at hi ⊢
  have hcount := countP_concat Call.isAnswering s.calls c
  simp only [State.enter]
  omega

theorem step_answersDecided {s s' : State} {a : Action} (hi : AnswersDecided s)
    (hs : step s a = some s') : AnswersDecided s' := by
  cases a with
  | answered =>
      cases hs
      exact enter_answersDecided hi rfl
  | participant id isSelf setup =>
      cases hs
      exact enter_answersDecided hi rfl
  | readFrame =>
      cases hs
      exact enter_answersDecided hi rfl
  | advance i now =>
      obtain ⟨c, hc, rfl⟩ := advance_eq_some hs
      -- the call may stop answering, which makes an answer, or begin, which sets `answerDone`
      have hcount := countP_set (p := Call.isAnswering) hc (c.next s.gate s.registered now).2
      have hdone := next_doneCount s.gate s.registered now c
      unfold AnswersDecided at hi ⊢
      simp only
      omega
  | joined answerDeadline =>
      cases hs
      exact hi
  | register registered =>
      cases hs
      exact hi

/-- A releasable gate is being released. -/
def ReleasePending (s : State) : Prop :=
  s.registered = true ∧ (releasable s.gate = true → 0 < s.calls.countP Call.isReleasing)

theorem enter_releasePending {s : State} (hi : ReleasePending s) (c : Call) :
    ReleasePending (s.enter c) := by
  obtain ⟨hreg, hrel⟩ := hi
  refine ⟨hreg, ?_⟩
  intro h
  have hcount := countP_concat Call.isReleasing s.calls c
  have hpos := hrel h
  simp only [State.enter]
  omega

theorem step_releasePending {s s' : State} {a : Action} (hi : ReleasePending s)
    (hg : StaysRegistered s a) (hs : step s a = some s') : ReleasePending s' := by
  cases a with
  | answered =>
      cases hs
      exact enter_releasePending hi _
  | participant id isSelf setup =>
      cases hs
      exact enter_releasePending hi _
  | readFrame =>
      cases hs
      exact enter_releasePending hi _
  | advance i now =>
      obtain ⟨c, hc, rfl⟩ := advance_eq_some hs
      obtain ⟨hreg, hrel⟩ := hi
      refine ⟨hreg, ?_⟩
      simp only [hreg]
      intro h
      -- either this call takes up the release, or another one that has is still there
      have hcount := countP_set (p := Call.isReleasing) hc (c.next s.gate true now).2
      rcases next_releasable h with hnew | ⟨hbefore, hold⟩
      · have hw := Census.weight_pos hnew
        have hle := weight_le_countP (p := Call.isReleasing) hc
        omega
      · have hw := Census.weight_neg hold
        have hpos := hrel hbefore
        omega
  | joined answerDeadline =>
      cases hs
      exact hi
  | register registered =>
      cases hs
      cases registered with
      | true => exact ⟨rfl, hi.2⟩
      | false => exact absurd rfl hg

/-- No call is between its critical sections, or between its last one and
    `switch_channel_answer`. -/
def Settled (s : State) : Prop := ∀ c ∈ s.calls, c.isBetween = false

instance (s : State) : Decidable (Settled s) :=
  inferInstanceAs (Decidable (∀ c ∈ s.calls, c.isBetween = false))

theorem Settled.none_answering {s : State} (h : Settled s) :
    s.calls.countP Call.isAnswering = 0 := by
  rw [List.countP_eq_zero]
  intro c hc hans
  have hbetween := h c hc
  simp [Call.isBetween, hans] at hbetween

theorem Settled.none_releasing {s : State} (h : Settled s) :
    s.calls.countP Call.isReleasing = 0 := by
  rw [List.countP_eq_zero]
  intro c hc hrel
  have hbetween := h c hc
  simp [Call.isBetween, hrel] at hbetween

/-- The channel is answered at most once, whatever the calls and their order; and if
    the leg stays registered, then whenever no call is between its critical sections
    and the gate is armed, the answer requested and the remote participant ready, it
    has been answered. -/
theorem answered_exactly_once :
    (∀ s, Reach step Always Initial s → s.answers ≤ 1) ∧
    ∀ s, Reach step StaysRegistered Initial s → Settled s →
      s.gate.answerGate = true → s.gate.answerRequested = true → s.gate.remoteReady = true →
      s.answers = 1 := by
  have hdecided : ∀ {guard : State → Action → Prop} {s : State},
      Reach step guard Initial s → AnswersDecided s := by
    intro guard s h
    refine h.invariant ?_ ?_
    · rintro s rfl
      rfl
    · intro s a s' hi _ hs
      exact step_answersDecided hi hs
  refine ⟨?_, ?_⟩
  · intro s h
    have hans := hdecided h
    have hle : doneCount s.gate ≤ 1 := by
      unfold doneCount
      split <;> omega
    unfold AnswersDecided at hans
    omega
  · intro s h hsettled _ hrequested hready
    have hpending : ReleasePending s := by
      refine h.invariant ?_ ?_
      · rintro s rfl
        exact ⟨rfl, by decide⟩
      · intro s a s' hi hg hs
        exact step_releasePending hi hg hs
    have hdone : s.gate.answerDone = true := by
      by_contra hnot
      -- otherwise somebody would be between two sections to release it
      have hrel : releasable s.gate = true := by
        rw [releasable, hrequested, hready, Bool.eq_false_iff.mpr hnot]
        rfl
      have hpos := hpending.2 hrel
      rw [hsettled.none_releasing] at hpos
      omega
    have hans := hdecided h
    rw [AnswersDecided, hsettled.none_answering, doneCount, if_pos hdone] at hans
    exact hans

/-- The gate is armed; Janus asks for the answer while a frame is being read at the
    deadline and a participant becomes ready: both release the answer. -/
def releasedTwice : List Action :=
  [.joined 100, .answered, .participant "7" false true, .readFrame, .advance 0 0, .advance 1 0,
    .advance 0 0, .advance 2 100, .advance 2 100, .advance 2 100, .advance 2 100, .advance 1 0,
    .advance 2 100, .advance 1 0, .advance 2 100, .advance 2 100, .advance 1 0, .advance 1 0,
    .advance 2 100]

theorem answered_exactly_once_releasedTwice :
    ∃ s, Reach step StaysRegistered Initial s ∧
      (s.gate.answerGate = true ∧ s.gate.answerRequested = true ∧ s.gate.remoteReady = true) ∧
      s.calls.length = 3 ∧ s.answers = 1 := by
  have h0 : Initial {} := rfl
  obtain ⟨s, hs, hp⟩ := Transition.reach_of_exec step StaysRegistered h0 releasedTwice
    (fun s => decide (Settled s ∧ s.gate.answerGate = true ∧ s.gate.answerRequested = true ∧
      s.gate.remoteReady = true ∧ s.calls.length = 3)) (by decide)
  obtain ⟨hsettled, hgate, hrequested, hready, hlength⟩ := of_decide_eq_true hp
  exact ⟨s, hs, ⟨hgate, hrequested, hready⟩, hlength,
    answered_exactly_once.2 s hs hsettled hgate hrequested hready⟩

end ModJanus.GateCalls
