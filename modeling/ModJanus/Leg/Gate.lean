/-
  ModJanus.Leg.Gate

  The answer gate of a leg: the fields of `private_t` that `flag_mutex` protects,
  and what `joined`, `answered`, `participant` and `channel_read_frame` do with them
  while they hold it.

  Each function below is one critical section, so the handlers
  (`Leg.Handlers`) and the interleavings of calls (`Leg.Interleaving`) are made of
  the same pieces.
-/
import ModJanus.Basic

namespace ModJanus

/-- The fields of `private_t` for `janus-answer-on-participant-ready`. -/
structure Gate where
  pParticipantIdStr : Option String := none
  answerGate : Bool := false
  remoteReady : Bool := false
  answerRequested : Bool := false
  answerDone : Bool := false
  answerDeadline : Int := 0
  deriving DecidableEq, Repr

namespace Gate

/-- `joined`: the gate is armed. -/
def arm (g : Gate) (answerDeadline : Int) : Gate :=
  { g with answerGate := true, answerDeadline := answerDeadline }

/-- `answered`: whether the channel is to be answered now. -/
def answered (g : Gate) : Gate × Bool :=
  if g.answerDone then (g, false)
  else if g.answerGate && !g.remoteReady then ({ g with answerRequested := true }, false)
  else ({ g with answerDone := true }, true)

/-- `participant` for our own id: the first one is recorded. -/
def participantSelf (g : Gate) (pParticipantIdStr : String) : Gate :=
  { g with pParticipantIdStr := some (g.pParticipantIdStr.getD pParticipantIdStr) }

/-- `participant` for any other report: whether the answer is released now. -/
def participantRemote (g : Gate) (pParticipantIdStr : String) (setup : Bool) : Gate × Bool :=
  if !g.answerGate || g.answerDone then (g, false)
  else if g.pParticipantIdStr = some pParticipantIdStr then (g, false)
  else if !setup then (g, false)
  else ({ g with remoteReady := true }, g.answerRequested)

/-- `channel_read_frame` once the deadline has passed. -/
def deadlinePassed (g : Gate) : Gate := { g with remoteReady := true }

/-- The test of `channel_read_frame`. -/
def due (g : Gate) (now : Int) : Bool :=
  g.answerGate && g.answerRequested && !g.answerDone && g.answerDeadline ≠ 0 &&
    g.answerDeadline ≤ now

/-! ## What a critical section can do -/

/-- `answered` does one of three things. -/
theorem answered_cases (g : Gate) :
    (g.answerDone = true ∧ g.answered = (g, false)) ∨
    (g.answerDone = false ∧ g.answerGate = true ∧ g.remoteReady = false ∧
      g.answered = ({ g with answerRequested := true }, false)) ∨
    (g.answerDone = false ∧ (g.answerGate = true → g.remoteReady = true) ∧
      g.answered = ({ g with answerDone := true }, true)) := by
  unfold answered
  by_cases hdone : g.answerDone = true
  · exact .inl ⟨hdone, by rw [if_pos hdone]⟩
  · have hnot : g.answerDone = false := Bool.eq_false_iff.mpr hdone
    rw [if_neg hdone]
    by_cases hwait : (g.answerGate && !g.remoteReady) = true
    · have hboth := hwait
      rw [Bool.and_eq_true, Bool.not_eq_true'] at hboth
      exact .inr (.inl ⟨hnot, hboth.1, hboth.2, by rw [if_pos hwait]⟩)
    · refine .inr (.inr ⟨hnot, ?_, by rw [if_neg hwait]⟩)
      intro hgate
      simpa [hgate] using hwait

/-- `participant` either changes nothing or finds a remote participant that is
    ready behind a gate that is still closed. -/
theorem participantRemote_cases (g : Gate) (id : String) (setup : Bool) :
    g.participantRemote id setup = (g, false) ∨
    (g.answerGate = true ∧ g.answerDone = false ∧ g.pParticipantIdStr ≠ some id ∧ setup = true ∧
      g.participantRemote id setup = ({ g with remoteReady := true }, g.answerRequested)) := by
  unfold participantRemote
  by_cases hopen : (!g.answerGate || g.answerDone) = true
  · exact .inl (by rw [if_pos hopen])
  · rw [if_neg hopen]
    by_cases hself : g.pParticipantIdStr = some id
    · exact .inl (by rw [if_pos hself])
    · -- our own id never releases the gate
      rw [if_neg hself]
      by_cases hsetup : (!setup) = true
      · exact .inl (by rw [if_pos hsetup])
      · refine .inr ⟨?_, ?_, hself, by simpa using hsetup, by rw [if_neg hsetup]⟩
        · cases hgate : g.answerGate with
          | true => rfl
          | false => simp [hgate] at hopen
        · cases hdone : g.answerDone with
          | false => rfl
          | true => simp [hdone] at hopen

end Gate

end ModJanus
