/-
  ModJanus.Poll.Cycle

  One call of `apiPoll`, and what it makes of the loss of the session.

  Over HTTP Janus refuses the poll with an error object, and `apiPoll` does not
  return (`apiPollResponse_of_error`).  Over WebSocket the loss is an error reply to
  the pump's keepalive or a timeout event; neither reaches the status, which depends
  on the transport alone (`cycle_status`).
-/
import ModJanus.Poll.Totality
import ModJanus.Ws.Order

namespace ModJanus

/-! ## How Janus reports the loss -/

/-- The `janus` member of a message. -/
def janusType (root : CJson) : Option String := valuestring (getObjectItem (some root) "janus")

/-- A `janus=error` object. -/
def isJanusError (root : CJson) : Bool := janusType root == some "error"

/-- The event that says that a session has timed out. -/
def isTimeoutOf (sessionId : JanusId) (root : CJson) : Bool :=
  janusType root == some "timeout" &&
    janusIdOf (getObjectItem (some root) "session_id") == sessionId

example : isJanusError (noSuchSession 7) = true := by decide

/-! ## HTTP -/

/-- The member that says that the body is an error has itself no type. -/
theorem not_dispatchable_string (s : String) : ¬ Dispatchable (.string s) := by
  intro h
  rcases h with hrejects | hjanus
  · have hnone := (decode_eq_none_iff (.string s)).mpr hrejects
    rw [decode_string] at hnone
    cases hnone
  · exact hjanus rfl

/-- The child loop of `apiPoll` does not survive an error body. -/
theorem apiPollResponse_of_error {σ : Type} (handlers : Handlers σ) (s : σ) {body : CJson}
    (h : isJanusError body = true) : ¬ ∃ r, apiPollResponse handlers (some body) s = .ok r := by
  rw [apiPollResponse_ok_iff]
  intro hall
  have htype : valuestring (getObjectItem (some body) "janus") = some "error" := by
    simpa [isJanusError, janusType] using h
  -- the member that carries the type is a child like the others, and a string has no type
  obtain ⟨item, hitem, hstring⟩ := Option.bind_eq_some_iff.mp htype
  have hmem := getObjectItem_mem_children hitem
  cases item with
  | string text => exact not_dispatchable_string text (hall _ hmem)
  | null | bool _ | number _ | array _ | object _ => cases hstring

/-! ## WebSocket -/

namespace Ws

/-- `HTTP_GET_TIMEOUT`. -/
def HTTP_GET_TIMEOUT : Int := 60000

/-- The arguments with which `apiPoll` calls the pump. -/
def apiPollArgs (sessionId : JanusId) : PumpArgs :=
  { sessionId, waitUs := HTTP_GET_TIMEOUT * 1000, keepaliveIntervalUs := 25 * 1000000 }

/-- The pump's own wait or drain fails. -/
def transportFails (s : State) : Action → Bool
  | .pumpPoll .error | .pumpPoll .hup => true
  | .read .pollError | .read .failed => s.pumpDrains
  | _ => false

/-- The pump gets an error reply to its keepalive, or hands on a timeout event for its
    session. -/
def reportsLoss (sessionId : JanusId) (s s' : State) : Bool :=
  (match s'.pump with
    | .keepaliveReply _ (some resp) => isJanusError resp.root
    | _ => false) ||
  (s'.dispatched.drop s.dispatched.length).any fun frame => isTimeoutOf sessionId frame.root

/-- A call of the pump, with what it has met so far. -/
structure Cycle where
  state : State
  loss : Bool := false
  failed : Bool := false

/-- A step before the pump returns. -/
def Cycle.step (sessionId : JanusId) (c : Cycle) (a : Action) : Option Cycle :=
  if c.state.pump.isOutside then none
  else (Ws.step c.state a).map fun s' =>
    { state := s'
      loss := c.loss || reportsLoss sessionId c.state s'
      failed := c.failed || transportFails c.state a }

/-- `apiPoll` has just called the pump. -/
def Entered (sessionId : JanusId) (c : Cycle) : Prop :=
  ∃ s now, pumpEnter s (apiPollArgs sessionId) now = some c.state ∧ c.loss = false ∧
    c.failed = false

/-- The status the pump has returned. -/
def PumpPc.status : PumpPc → Option Status
  | .returned status => some status
  | _ => none

/-- How a step moves the pump: its transport fails and it returns, or it goes on or
    returns success. -/
inductive PumpMove (s : State) (a : Action) (s' : State) : Prop where
  | failed (hpump : s'.pump = .returned .false) (hfails : transportFails s a = true)
  | going (hpump : s'.pump.isOutside = false) (hfails : transportFails s a = false)
  | succeeded (hpump : s'.pump = .returned .success) (hfails : transportFails s a = false)

variable {s s' : State} {a : Action}

theorem PumpMove.same (hin : s.pump.isOutside = false) (hpump : s'.pump = s.pump)
    (hfails : transportFails s a = false) : PumpMove s a s' :=
  .going (hpump ▸ hin) hfails

/-- A request that returns leaves the pump in its call. -/
@[simp] theorem returnRpc_isOutside (s : State) (call : Rpc) (rest : List Activation)
    (result : Option Frame) :
    (s.returnRpc call rest result).pump.isOutside = s.pump.isOutside := by
  simp only [State.returnRpc]
  split
  · next args _ hpump =>
      rw [hpump]
      rfl
  · rfl

@[simp] theorem finishRpc_isOutside (s : State) (call : Rpc) (rest : List Activation) :
    (s.finishRpc call rest).pump.isOutside = s.pump.isOutside :=
  returnRpc_isOutside ..

theorem rpcRead_pump {call : Rpc} {rest : List Activation} (hin : s.pump.isOutside = false)
    (hstack : s.stack = .rpc call :: rest) (result : ReadResult) :
    PumpMove s (.read result) (rpcRead s call rest result) := by
  have hfails : transportFails s (.read result) = false := by
    cases result <;> simp [transportFails, State.pumpDrains, hstack]
  refine .going ?_ hfails
  cases result with
  | pollError | failed => exact (finishRpc_isOutside ..).trans hin
  | nothing | empty | notText | notJson | text root => exact hin

theorem pumpRead_pump {rest : List Activation} (hin : s.pump.isOutside = false)
    (hstack : s.stack = .pumpDrain :: rest) (result : ReadResult) :
    PumpMove s (.read result) (pumpRead s rest result) := by
  have hdrains : s.pumpDrains = true := by rw [State.pumpDrains, hstack]
  cases result with
  | pollError | failed => exact .failed rfl hdrains
  | nothing | empty | notText | notJson => exact .going hin rfl
  | text root =>
      refine .going ?_ rfl
      simp only [pumpRead]
      split <;> exact hin

theorem step_pump (hin : s.pump.isOutside = false) (h : step s a = some s') : PumpMove s a s' := by
  cases step_case h with
  | notWritten => exact .going ((returnRpc_isOutside ..).trans hin) rfl
  | rpcEnds => exact .going ((finishRpc_isOutside ..).trans hin) rfl
  | rpcPollFails => exact .going ((finishRpc_isOutside ..).trans hin) rfl
  | rpcReads call rest result hstack => exact rpcRead_pump hin hstack result
  | pumpReads rest result hstack => exact pumpRead_pump hin hstack result
  | pumpEnter args now hout =>
      -- the pump is in a cycle already
      rw [hin] at hout
      cases hout
  | keepalive | keepaliveDone | pumpStart | pumpGoesOn | lockPump => exact .going rfl rfl
  | pumpExpires => exact .succeeded rfl rfl
  | pumpPollFails rest args deadline pr hstack hpump hpr =>
      rcases hpr with rfl | rfl
      · exact .failed rfl rfl
      · exact .failed rfl rfl
  | pumpReadable => exact .going hin rfl
  | pumpIdle => exact .going rfl rfl
  | pumpFinish => exact .succeeded rfl rfl
  | lockRpc | written | rpcGoesOn | rpcSlice | rpcReadable | handlerReturn | flushNext | flushEnd =>
      exact .same hin rfl rfl
  | rpcIdle call rest sliceMs pr hstack hpc hpr =>
      rcases hpr with rfl | rfl
      · exact .same hin rfl rfl
      · exact .same hin rfl rfl

/-! ## The status of a cycle -/

/-- The transport has failed exactly if the pump has returned another status than
    success. -/
def StatusInv (c : Cycle) : Prop :=
  (c.failed = false ∧ (c.state.pump.isOutside = false ∨ c.state.pump = .returned .success)) ∨
    (c.failed = true ∧ c.state.pump = .returned .false)

theorem step_statusInv {sessionId : JanusId} {c c' : Cycle} (hi : StatusInv c)
    (h : c.step sessionId a = some c') : StatusInv c' := by
  unfold Cycle.step at h
  split at h
  · cases h
  · next hin =>
      rw [Bool.not_eq_true] at hin
      obtain ⟨s', hs, rfl⟩ := Option.map_eq_some_iff.mp h
      -- a pump whose transport has failed has returned, and takes no step
      have hbefore : c.failed = false := by
        rcases hi with ⟨hfailed, -⟩ | ⟨-, hreturned⟩
        · exact hfailed
        · rw [hreturned] at hin
          cases hin
      cases step_pump hin hs with
      | failed hpump hfails => exact .inr ⟨by simp [hfails], hpump⟩
      | going hpump hfails => exact .inl ⟨by simp [hbefore, hfails], .inl hpump⟩
      | succeeded hpump hfails => exact .inl ⟨by simp [hbefore, hfails], .inr hpump⟩

theorem entered_statusInv {sessionId : JanusId} {c : Cycle} (h : Entered sessionId c) :
    StatusInv c := by
  obtain ⟨s, now, henter, -, hfailed⟩ := h
  unfold pumpEnter at henter
  split at henter
  · refine .inl ⟨hfailed, .inl ?_⟩
    rw [← Option.some.inj henter]
    simp only
    split <;> rfl
  · cases henter

/-- The pump returns another status than success exactly if its transport fails. -/
theorem cycle_status {sessionId : JanusId} {c : Cycle} {status : Status}
    (h : Transition.Reach (Cycle.step sessionId) Transition.Always (Entered sessionId) c)
    (hreturned : c.state.pump.status = some status) :
    status ≠ .success ↔ c.failed = true := by
  have hi : StatusInv c := by
    refine h.invariant (fun _ => entered_statusInv) ?_
    intro c a c' hi _ hs
    exact step_statusInv hi hs
  rcases hi with ⟨hfailed, hin | hsuccess⟩ | ⟨hfailed, hfalse⟩
  · cases hpump : c.state.pump with
    | returned status => simp [hpump, PumpPc.isOutside] at hin
    | _ => simp [hpump, PumpPc.status] at hreturned
  · rw [hsuccess] at hreturned
    cases hreturned
    simp [hfailed]
  · rw [hfalse] at hreturned
    cases hreturned
    simp [hfailed]

end Ws

end ModJanus
