/-
  ModJanus.Ws.Machine

  janus_ws.c as a machine: `janus_ws_rpc_json`, `janus_ws_drain`,
  `janus_ws_flush_deferred` and `janus_ws_pump_once`, one action for each thing
  they do with the context, the socket or the clock.

  `io_mutex` is recursive.  The thread that holds it is `owner`, and what that
  thread is doing under the mutex is `stack`, innermost call first: a handler that
  the pump runs can call `janus_ws_rpc_json` again, on top of the pump.  Other
  threads wait until the stack is empty.  What a handler does otherwise is not
  modelled; it may make any number of requests before it returns.

  The environment decides the rest and is part of the action: the clock readings,
  whether a write succeeds, what a poll reports and what a read returns.  Frames
  read, results handed to callers and frames dispatched are recorded in the order
  in which that happens.
-/
import ModJanus.Lib.Transition
import ModJanus.Ws.Context

namespace ModJanus.Ws

/-! ## State -/

abbrev Thread := Nat

/-- The thread that runs `server_thread_run`, and so the pump. -/
def serverThread : Thread := 0

/-- `JANUS_WS_DEFAULT_RPC_US`. -/
def JANUS_WS_DEFAULT_RPC_US : Int := 15 * 1000000

/-- `JANUS_WS_PUMP_SLICE_MS`. -/
def JANUS_WS_PUMP_SLICE_MS : Int := 200

/-- Where `janus_ws_rpc_json` stands: before its write, at the test of its loop,
    before the slice is computed, in `kws_wait_sock`, or in the drain. -/
inductive RpcPc where
  | write
  | test
  | slice
  | wait (sliceMs : UInt32)
  | drain
  deriving DecidableEq, Repr

/-- A call of `janus_ws_rpc_json`; `keepalive` marks the one the pump makes. -/
structure Rpc where
  transaction : String
  timeoutUs : Int
  keepalive : Bool := false
  deadline : Int := 0
  pc : RpcPc := .write
  deriving DecidableEq, Repr

/-- What the owner of `io_mutex` is doing. -/
inductive Activation where
  | rpc (call : Rpc)
  /-- `janus_ws_flush_deferred`, with the rest of the list it detached. -/
  | flush (node : List Frame)
  /-- The pump in `kws_wait_sock`. -/
  | pumpWait
  /-- The pump in `janus_ws_drain`. -/
  | pumpDrain
  /-- The pump after a drain that succeeded. -/
  | pumpDrained
  /-- `api_dispatch_poll_event` and the handlers it calls. -/
  | handler

/-- The arguments of `janus_ws_pump_once` that do not change between calls. -/
structure PumpArgs where
  sessionId : JanusId
  waitUs : Int
  keepaliveIntervalUs : Int
  deriving DecidableEq, Repr

/-- Where `janus_ws_pump_once` stands. -/
inductive PumpPc where
  | outside
  /-- A keepalive is due. -/
  | keepalive (args : PumpArgs)
  /-- The keepalive's `janus_ws_rpc_json` is running. -/
  | keepaliveSent (args : PumpArgs)
  /-- It returned `resp`. -/
  | keepaliveReply (args : PumpArgs) (resp : Option Frame)
  | start (args : PumpArgs)
  /-- The top of the slice loop, `io_mutex` not held. -/
  | slices (args : PumpArgs) (deadline : Int)
  /-- A slice that waits for `io_mutex`. -/
  | lock (args : PumpArgs) (deadline : Int) (sliceMs : UInt32)
  /-- A slice under `io_mutex`; the stack says where it stands. -/
  | slice (args : PumpArgs) (deadline : Int)
  | returned (status : Status)

/-- No call of `janus_ws_pump_once` is in progress. -/
def PumpPc.isOutside : PumpPc → Bool
  | .outside => true
  | .returned _ => true
  | _ => false

structure State where
  ctx : Ctx := {}
  owner : Option Thread := none
  stack : List Activation := []
  pump : PumpPc := .outside
  /-- `*last_activity_ref`. -/
  lastActivity : Int := 0
  /-- The text frames parsed so far. -/
  read : List CJson := []
  /-- The results that `janus_ws_rpc_json` returned, with the transaction of the
      caller. -/
  handed : List (String × Frame) := []
  /-- The frames handed to `api_dispatch_poll_event`. -/
  dispatched : List Frame := []

/-! ## Actions -/

/-- What `kws_wait_sock` reports: an error (or `INVALID`) without data, a hang-up
    without data, nothing, or data. -/
inductive PollResult where
  | error
  | hup
  | idle
  | readable
  deriving DecidableEq, Repr

/-- One round of the loop of `janus_ws_drain`. -/
inductive ReadResult where
  | pollError
  | nothing
  | failed
  | empty
  | notText
  | notJson
  | text (root : CJson)

inductive Action where
  /-- A thread enters `janus_ws_rpc_json` and gets `io_mutex`. -/
  | lockRpc (thread : Thread) (transaction : String) (timeoutUs : Int)
  /-- `kws_write_frame`; on success the transaction is installed and the clock
      read for the deadline. -/
  | write (ok : Bool) (now : Int)
  | rpcTest (now : Int)
  | rpcSlice (now : Int)
  | rpcPoll (pr : PollResult)
  | read (result : ReadResult)
  | handlerReturn
  | pumpEnter (args : PumpArgs) (now : Int)
  /-- The pump calls `janus_ws_rpc_json` for its keepalive. -/
  | keepalive (transaction : String)
  | keepaliveDone (now : Int)
  | pumpStart (now : Int)
  | pumpTest (now : Int)
  | lockPump
  | flushNext
  | flushEnd
  | pumpPoll (pr : PollResult)
  | pumpFinish (now : Int)

/-- The text frame that the action reads, if it does. -/
def Action.text : Action → Option CJson
  | .read (.text root) => some root
  | _ => none

/-! ## `janus_ws_rpc_json` -/

/-- `(uint32_t) us_to_ms`, the C cast of a signed value. -/
def toUint32 (n : Int) : UInt32 := UInt32.ofNat (n % 2 ^ 32).toNat

/-- The slice of `janus_ws_rpc_json`: C division truncates towards zero. -/
def rpcSliceMs (remaining : Int) : UInt32 :=
  toUint32 ((if remaining < 100000 then remaining else 100000).tdiv 1000)

/-- A thread may enter `janus_ws_rpc_json`: the mutex is free and the thread is not
    inside the pump, or a handler of the thread makes the call. -/
def State.mayCall (s : State) (thread : Thread) : Bool :=
  match s.stack with
  | [] => thread ≠ serverThread || s.pump.isOutside
  | .handler :: _ => s.owner = some thread
  | _ => false

/-- Return from a call on the top of the stack; the last one releases the mutex. -/
def State.pop (s : State) (rest : List Activation) : State :=
  { s with stack := rest, owner := if rest.isEmpty then none else s.owner }

/-- `janus_ws_rpc_json` returns `result`. -/
def State.returnRpc (s : State) (call : Rpc) (rest : List Activation)
    (result : Option Frame) : State :=
  { s.pop rest with
    handed := s.handed ++ result.toList.map fun f => (call.transaction, f)
    pump := match call.keepalive, s.pump with
      | true, .keepaliveSent args => .keepaliveReply args result
      | _, pump => pump }

/-- The end of `janus_ws_rpc_json`: the slot is emptied and its content returned. -/
def State.finishRpc (s : State) (call : Rpc) (rest : List Activation) : State :=
  ({ s with ctx := { s.ctx with rpcTxn := none, rpcResult := none } }).returnRpc call rest
    s.ctx.rpcResult

def State.setRpc (s : State) (call : Rpc) (rest : List Activation) (pc : RpcPc) : State :=
  { s with stack := .rpc { call with pc := pc } :: rest }

def lockRpc (s : State) (thread : Thread) (transaction : String) (timeoutUs : Int) :
    Option State :=
  if s.mayCall thread then
    some { s with owner := some thread, stack := .rpc { transaction, timeoutUs } :: s.stack }
  else none

def rpcWrite (s : State) (ok : Bool) (now : Int) : Option State :=
  match s.stack with
  | .rpc call :: rest =>
      if call.pc = .write then
        if ok then
          some { s with
            ctx := { s.ctx with rpcTxn := some call.transaction, rpcResult := none }
            stack := .rpc { call with deadline := now + call.timeoutUs, pc := .test } :: rest }
        else some (s.returnRpc call rest none)
      else none
  | _ => none

def rpcTest (s : State) (now : Int) : Option State :=
  match s.stack with
  | .rpc call :: rest =>
      if call.pc = .test then
        if s.ctx.rpcResult.isNone && now < call.deadline then some (s.setRpc call rest .slice)
        else some (s.finishRpc call rest)
      else none
  | _ => none

def rpcSlice (s : State) (now : Int) : Option State :=
  match s.stack with
  | .rpc call :: rest =>
      if call.pc = .slice then
        some (s.setRpc call rest (.wait (rpcSliceMs (call.deadline - now))))
      else none
  | _ => none

def rpcPoll (s : State) (pr : PollResult) : Option State :=
  match s.stack with
  | .rpc call :: rest =>
      match call.pc with
      | .wait _ =>
          match pr with
          | .error => some (s.finishRpc call rest)
          | .readable => some (s.setRpc call rest .drain)
          -- a hang-up alone does not end the wait of a request
          | .hup | .idle => some (s.setRpc call rest .test)
      | _ => none
  | _ => none

/-! ## `janus_ws_drain` -/

/-- The drain of a request, `dispatch` null: a frame that is not the reply is put
    off. -/
def rpcRead (s : State) (call : Rpc) (rest : List Activation) : ReadResult → State
  | .pollError | .failed => s.finishRpc call rest
  | .nothing | .empty => s.setRpc call rest .test
  | .notText | .notJson => s
  | .text root =>
      let frame : Frame := ⟨s.read.length, root⟩
      let ctx := (janusWsMatchRpcReply s.ctx frame).getD (janusWsDeferEvent s.ctx frame)
      { s with read := s.read ++ [root], ctx := ctx }

/-- The drain of the pump: a frame that is not a reply is dispatched. -/
def pumpRead (s : State) (rest : List Activation) : ReadResult → State
  | .pollError | .failed => { s.pop rest with pump := .returned .false }
  | .nothing | .empty => { s with stack := .pumpDrained :: rest }
  | .notText | .notJson => s
  | .text root =>
      let frame : Frame := ⟨s.read.length, root⟩
      match janusWsMatchRpcReply s.ctx frame with
      | some ctx => { s with read := s.read ++ [root], ctx := ctx }
      | none =>
          { s with
            read := s.read ++ [root]
            dispatched := s.dispatched ++ [frame]
            stack := .handler :: .pumpDrain :: rest }

def drainRead (s : State) (result : ReadResult) : Option State :=
  match s.stack with
  | .rpc call :: rest => if call.pc = .drain then some (rpcRead s call rest result) else none
  | .pumpDrain :: rest => some (pumpRead s rest result)
  | _ => none

def handlerReturn (s : State) : Option State :=
  match s.stack with
  | .handler :: rest => some { s with stack := rest }
  | _ => none

/-! ## `janus_ws_pump_once` -/

/-- The condition for a keepalive. -/
def keepaliveDue (args : PumpArgs) (lastActivity now : Int) : Bool :=
  0 < args.keepaliveIntervalUs && args.sessionId ≠ 0 && 0 < lastActivity &&
    args.keepaliveIntervalUs < now - lastActivity

/-- The slice of the pump, at least one millisecond. -/
def pumpSliceMs (remainUs : Int) : UInt32 :=
  let sliceMs :=
    if remainUs < JANUS_WS_PUMP_SLICE_MS * 1000 then toUint32 (remainUs.tdiv 1000)
    else toUint32 JANUS_WS_PUMP_SLICE_MS
  if sliceMs = 0 then 1 else sliceMs

def pumpEnter (s : State) (args : PumpArgs) (now : Int) : Option State :=
  if s.pump.isOutside && s.owner ≠ some serverThread then
    some { s with
      pump := if keepaliveDue args s.lastActivity now then .keepalive args else .start args }
  else none

def pumpKeepalive (s : State) (transaction : String) : Option State :=
  match s.pump, s.stack with
  | .keepalive args, [] =>
      some { s with
        owner := some serverThread
        stack := [.rpc { transaction, timeoutUs := JANUS_WS_DEFAULT_RPC_US, keepalive := true }]
        pump := .keepaliveSent args }
  | _, _ => none

/-- The reply of the keepalive is deleted unread. -/
def keepaliveDone (s : State) (now : Int) : Option State :=
  match s.pump with
  | .keepaliveReply args _ => some { s with pump := .start args, lastActivity := now }
  | _ => none

def pumpStart (s : State) (now : Int) : Option State :=
  match s.pump with
  | .start args => some { s with pump := .slices args (now + args.waitUs) }
  | _ => none

def pumpTest (s : State) (now : Int) : Option State :=
  match s.pump with
  | .slices args deadline =>
      if deadline - now ≤ 0 then some { s with pump := .returned .success }
      else some { s with pump := .lock args deadline (pumpSliceMs (deadline - now)) }
  | _ => none

/-- The slice gets `io_mutex`, and `janus_ws_flush_deferred` detaches the list. -/
def lockPump (s : State) : Option State :=
  match s.pump, s.stack with
  | .lock args deadline _, [] =>
      some { s with
        owner := some serverThread
        stack := [.flush s.ctx.deferred]
        ctx := { s.ctx with deferred := [] }
        pump := .slice args deadline }
  | _, _ => none

def flushNext (s : State) : Option State :=
  match s.stack with
  | .flush (node :: next) :: rest =>
      some { s with
        dispatched := s.dispatched ++ [node]
        stack := .handler :: .flush next :: rest }
  | _ => none

def flushEnd (s : State) : Option State :=
  match s.stack with
  | .flush [] :: rest => some { s with stack := .pumpWait :: rest }
  | _ => none

def pumpPoll (s : State) (pr : PollResult) : Option State :=
  match s.stack, s.pump with
  | .pumpWait :: rest, .slice args deadline =>
      match pr with
      | .error | .hup => some { s.pop rest with pump := .returned .false }
      | .readable => some { s with stack := .pumpDrain :: rest }
      | .idle => some { s.pop rest with pump := .slices args deadline }
  | _, _ => none

def pumpFinish (s : State) (now : Int) : Option State :=
  match s.stack with
  | .pumpDrained :: rest =>
      some { s.pop rest with pump := .returned .success, lastActivity := now }
  | _ => none

/-! ## The machine -/

def step (s : State) : Action → Option State
  | .lockRpc thread transaction timeoutUs => lockRpc s thread transaction timeoutUs
  | .write ok now => rpcWrite s ok now
  | .rpcTest now => rpcTest s now
  | .rpcSlice now => rpcSlice s now
  | .rpcPoll pr => rpcPoll s pr
  | .read result => drainRead s result
  | .handlerReturn => handlerReturn s
  | .pumpEnter args now => pumpEnter s args now
  | .keepalive transaction => pumpKeepalive s transaction
  | .keepaliveDone now => keepaliveDone s now
  | .pumpStart now => pumpStart s now
  | .pumpTest now => pumpTest s now
  | .lockPump => lockPump s
  | .flushNext => flushNext s
  | .flushEnd => flushEnd s
  | .pumpPoll pr => pumpPoll s pr
  | .pumpFinish now => pumpFinish s now

/-- A socket that has just been opened; the clock of the last activity is whatever
    the server thread stored. -/
def Initial (s : State) : Prop := ∃ lastActivity, s = { lastActivity }

/-! ## What a step can do -/

/-- What an action finds, and the state that it leads to. -/
inductive StepCase (s : State) : Action → State → Prop where
  | lockRpc (thread : Thread) (transaction : String) (timeoutUs : Int)
      (hmay : s.mayCall thread = true) :
      StepCase s (.lockRpc thread transaction timeoutUs)
        { s with owner := some thread, stack := .rpc { transaction, timeoutUs } :: s.stack }
  | written (call : Rpc) (rest : List Activation) (now : Int) (hstack : s.stack = .rpc call :: rest)
      (hpc : call.pc = .write) :
      StepCase s (.write true now)
        { s with
          ctx := { s.ctx with rpcTxn := some call.transaction, rpcResult := none }
          stack := .rpc { call with deadline := now + call.timeoutUs, pc := .test } :: rest }
  | notWritten (call : Rpc) (rest : List Activation) (now : Int)
      (hstack : s.stack = .rpc call :: rest) (hpc : call.pc = .write) :
      StepCase s (.write false now) (s.returnRpc call rest none)
  | rpcGoesOn (call : Rpc) (rest : List Activation) (now : Int)
      (hstack : s.stack = .rpc call :: rest) (hpc : call.pc = .test)
      (hresult : s.ctx.rpcResult = none) (hnow : now < call.deadline) :
      StepCase s (.rpcTest now) (s.setRpc call rest .slice)
  | rpcEnds (call : Rpc) (rest : List Activation) (now : Int)
      (hstack : s.stack = .rpc call :: rest) (hpc : call.pc = .test)
      (hends : s.ctx.rpcResult = none → call.deadline ≤ now) :
      StepCase s (.rpcTest now) (s.finishRpc call rest)
  | rpcSlice (call : Rpc) (rest : List Activation) (now : Int)
      (hstack : s.stack = .rpc call :: rest) (hpc : call.pc = .slice) :
      StepCase s (.rpcSlice now) (s.setRpc call rest (.wait (rpcSliceMs (call.deadline - now))))
  | rpcPollFails (call : Rpc) (rest : List Activation) (sliceMs : UInt32)
      (hstack : s.stack = .rpc call :: rest) (hpc : call.pc = .wait sliceMs) :
      StepCase s (.rpcPoll .error) (s.finishRpc call rest)
  | rpcReadable (call : Rpc) (rest : List Activation) (sliceMs : UInt32)
      (hstack : s.stack = .rpc call :: rest) (hpc : call.pc = .wait sliceMs) :
      StepCase s (.rpcPoll .readable) (s.setRpc call rest .drain)
  | rpcIdle (call : Rpc) (rest : List Activation) (sliceMs : UInt32) (pr : PollResult)
      (hstack : s.stack = .rpc call :: rest) (hpc : call.pc = .wait sliceMs)
      (hpr : pr = .hup ∨ pr = .idle) : StepCase s (.rpcPoll pr) (s.setRpc call rest .test)
  | rpcReads (call : Rpc) (rest : List Activation) (result : ReadResult)
      (hstack : s.stack = .rpc call :: rest) (hpc : call.pc = .drain) :
      StepCase s (.read result) (rpcRead s call rest result)
  | pumpReads (rest : List Activation) (result : ReadResult)
      (hstack : s.stack = .pumpDrain :: rest) :
      StepCase s (.read result) (pumpRead s rest result)
  | handlerReturn (rest : List Activation) (hstack : s.stack = .handler :: rest) :
      StepCase s .handlerReturn { s with stack := rest }
  | pumpEnter (args : PumpArgs) (now : Int) (hout : s.pump.isOutside = true)
      (howner : s.owner ≠ some serverThread) :
      StepCase s (.pumpEnter args now)
        { s with
          pump := if keepaliveDue args s.lastActivity now then .keepalive args else .start args }
  | keepalive (args : PumpArgs) (transaction : String) (hpump : s.pump = .keepalive args)
      (hstack : s.stack = []) :
      StepCase s (.keepalive transaction)
        { s with
          owner := some serverThread
          stack := [.rpc { transaction, timeoutUs := JANUS_WS_DEFAULT_RPC_US, keepalive := true }]
          pump := .keepaliveSent args }
  | keepaliveDone (args : PumpArgs) (resp : Option Frame) (now : Int)
      (hpump : s.pump = .keepaliveReply args resp) :
      StepCase s (.keepaliveDone now) { s with pump := .start args, lastActivity := now }
  | pumpStart (args : PumpArgs) (now : Int) (hpump : s.pump = .start args) :
      StepCase s (.pumpStart now) { s with pump := .slices args (now + args.waitUs) }
  | pumpExpires (args : PumpArgs) (deadline now : Int) (hpump : s.pump = .slices args deadline)
      (hremain : deadline - now ≤ 0) :
      StepCase s (.pumpTest now) { s with pump := .returned .success }
  | pumpGoesOn (args : PumpArgs) (deadline now : Int) (hpump : s.pump = .slices args deadline)
      (hremain : 0 < deadline - now) :
      StepCase s (.pumpTest now)
        { s with pump := .lock args deadline (pumpSliceMs (deadline - now)) }
  | lockPump (args : PumpArgs) (deadline : Int) (sliceMs : UInt32)
      (hpump : s.pump = .lock args deadline sliceMs) (hstack : s.stack = []) :
      StepCase s .lockPump
        { s with
          owner := some serverThread
          stack := [.flush s.ctx.deferred]
          ctx := { s.ctx with deferred := [] }
          pump := .slice args deadline }
  | flushNext (node : Frame) (next : List Frame) (rest : List Activation)
      (hstack : s.stack = .flush (node :: next) :: rest) :
      StepCase s .flushNext
        { s with
          dispatched := s.dispatched ++ [node]
          stack := .handler :: .flush next :: rest }
  | flushEnd (rest : List Activation) (hstack : s.stack = .flush [] :: rest) :
      StepCase s .flushEnd { s with stack := .pumpWait :: rest }
  | pumpPollFails (rest : List Activation) (args : PumpArgs) (deadline : Int) (pr : PollResult)
      (hstack : s.stack = .pumpWait :: rest) (hpump : s.pump = .slice args deadline)
      (hpr : pr = .error ∨ pr = .hup) :
      StepCase s (.pumpPoll pr) { s.pop rest with pump := .returned .false }
  | pumpReadable (rest : List Activation) (args : PumpArgs) (deadline : Int)
      (hstack : s.stack = .pumpWait :: rest) (hpump : s.pump = .slice args deadline) :
      StepCase s (.pumpPoll .readable) { s with stack := .pumpDrain :: rest }
  | pumpIdle (rest : List Activation) (args : PumpArgs) (deadline : Int)
      (hstack : s.stack = .pumpWait :: rest) (hpump : s.pump = .slice args deadline) :
      StepCase s (.pumpPoll .idle) { s.pop rest with pump := .slices args deadline }
  | pumpFinish (rest : List Activation) (now : Int) (hstack : s.stack = .pumpDrained :: rest) :
      StepCase s (.pumpFinish now)
        { s.pop rest with pump := .returned .success, lastActivity := now }

/-- The requests of `janus_ws_rpc_json`. -/
theorem rpc_case {s s' : State} :
    (∀ ok now, rpcWrite s ok now = some s' → StepCase s (.write ok now) s') ∧
    (∀ now, rpcTest s now = some s' → StepCase s (.rpcTest now) s') ∧
    (∀ now, rpcSlice s now = some s' → StepCase s (.rpcSlice now) s') ∧
    (∀ pr, rpcPoll s pr = some s' → StepCase s (.rpcPoll pr) s') := by
  refine ⟨?_, ?_, ?_, ?_⟩
  · intro ok now h
    unfold rpcWrite at h
    split at h
    · next call rest hstack =>
        rw [Option.ite_none_right_eq_some] at h
        obtain ⟨hpc, h⟩ := h
        cases ok with
        | true =>
            cases h
            exact .written call rest now hstack hpc
        | false =>
            cases h
            exact .notWritten call rest now hstack hpc
    · cases h
  · intro now h
    unfold rpcTest at h
    split at h
    · next call rest hstack =>
        rw [Option.ite_none_right_eq_some] at h
        obtain ⟨hpc, h⟩ := h
        split at h
        · next hwait =>
            cases h
            obtain ⟨hresult, hnow⟩ : s.ctx.rpcResult = none ∧ now < call.deadline := by
              simpa using hwait
            exact .rpcGoesOn call rest now hstack hpc hresult hnow
        · next hwait =>
            cases h
            have hends : s.ctx.rpcResult = none → call.deadline ≤ now := by simpa using hwait
            exact .rpcEnds call rest now hstack hpc hends
    · cases h
  · intro now h
    unfold rpcSlice at h
    split at h
    · next call rest hstack =>
        rw [Option.ite_none_right_eq_some] at h
        obtain ⟨hpc, h⟩ := h
        cases h
        exact .rpcSlice call rest now hstack hpc
    · cases h
  · intro pr h
    unfold rpcPoll at h
    split at h
    · next call rest hstack =>
        split at h
        · next sliceMs hpc =>
            cases pr with
            | error =>
                cases h
                exact .rpcPollFails call rest sliceMs hstack hpc
            | readable =>
                cases h
                exact .rpcReadable call rest sliceMs hstack hpc
            | hup =>
                cases h
                exact .rpcIdle call rest sliceMs .hup hstack hpc (.inl rfl)
            | idle =>
                cases h
                exact .rpcIdle call rest sliceMs .idle hstack hpc (.inr rfl)
        · cases h
    · cases h

theorem drainRead_case {s s' : State} {result : ReadResult} (h : drainRead s result = some s') :
    StepCase s (.read result) s' := by
  unfold drainRead at h
  split at h
  · next call rest hstack =>
      rw [Option.ite_none_right_eq_some] at h
      obtain ⟨hpc, h⟩ := h
      cases h
      exact .rpcReads call rest result hstack hpc
  · next rest hstack =>
      cases h
      exact .pumpReads rest result hstack
  · cases h

theorem pumpPoll_case {s s' : State} {pr : PollResult} (h : pumpPoll s pr = some s') :
    StepCase s (.pumpPoll pr) s' := by
  unfold pumpPoll at h
  split at h
  · next rest args deadline hstack hpump =>
      cases pr with
      | error =>
          cases h
          exact .pumpPollFails rest args deadline .error hstack hpump (.inl rfl)
      | hup =>
          cases h
          exact .pumpPollFails rest args deadline .hup hstack hpump (.inr rfl)
      | readable =>
          cases h
          exact .pumpReadable rest args deadline hstack hpump
      | idle =>
          cases h
          exact .pumpIdle rest args deadline hstack hpump
  · cases h

theorem step_case {s s' : State} {a : Action} (h : step s a = some s') : StepCase s a s' := by
  cases a with
  | lockRpc thread transaction timeoutUs =>
      simp only [step, lockRpc, Option.ite_none_right_eq_some] at h
      obtain ⟨hmay, h⟩ := h
      cases h
      exact .lockRpc thread transaction timeoutUs hmay
  | write ok now => exact rpc_case.1 ok now h
  | rpcTest now => exact rpc_case.2.1 now h
  | rpcSlice now => exact rpc_case.2.2.1 now h
  | rpcPoll pr => exact rpc_case.2.2.2 pr h
  | read result => exact drainRead_case h
  | handlerReturn =>
      simp only [step, handlerReturn] at h
      split at h
      · next rest hstack =>
          cases h
          exact .handlerReturn rest hstack
      · cases h
  | pumpEnter args now =>
      simp only [step, pumpEnter, Option.ite_none_right_eq_some, Bool.and_eq_true] at h
      obtain ⟨⟨hout, howner⟩, h⟩ := h
      cases h
      exact .pumpEnter args now hout (of_decide_eq_true howner)
  | keepalive transaction =>
      simp only [step, pumpKeepalive] at h
      split at h
      · next args hpump hstack =>
          cases h
          exact .keepalive args transaction hpump hstack
      · cases h
  | keepaliveDone now =>
      simp only [step, keepaliveDone] at h
      split at h
      · next args resp hpump =>
          cases h
          exact .keepaliveDone args resp now hpump
      · cases h
  | pumpStart now =>
      simp only [step, pumpStart] at h
      split at h
      · next args hpump =>
          cases h
          exact .pumpStart args now hpump
      · cases h
  | pumpTest now =>
      simp only [step, pumpTest] at h
      split at h
      · next args deadline hpump =>
          split at h
          · next hremain =>
              cases h
              exact .pumpExpires args deadline now hpump hremain
          · next hremain =>
              cases h
              exact .pumpGoesOn args deadline now hpump (by omega)
      · cases h
  | lockPump =>
      simp only [step, lockPump] at h
      split at h
      · next args deadline sliceMs hpump hstack =>
          cases h
          exact .lockPump args deadline sliceMs hpump hstack
      · cases h
  | flushNext =>
      simp only [step, flushNext] at h
      split at h
      · next node next rest hstack =>
          cases h
          exact .flushNext node next rest hstack
      · cases h
  | flushEnd =>
      simp only [step, flushEnd] at h
      split at h
      · next rest hstack =>
          cases h
          exact .flushEnd rest hstack
      · cases h
  | pumpPoll pr => exact pumpPoll_case h
  | pumpFinish now =>
      simp only [step, pumpFinish] at h
      split at h
      · next rest hstack =>
          cases h
          exact .pumpFinish rest now hstack
      · cases h

/-! ## Effects on the stack and the records -/

/-- The moves of the stack that leave the context and the records alone. -/
inductive StackMove (ctx : Ctx) : List Activation → List Activation → Prop where
  | stay (stack) : StackMove ctx stack stack
  | call (call : Rpc) (rest : List Activation) :
      rest = [] ∨ (∃ below, rest = .handler :: below) → call.pc = .write →
      StackMove ctx rest (.rpc call :: rest)
  | advance (call call' : Rpc) (rest) : call.pc ≠ .write → call'.pc ≠ .write →
      call'.transaction = call.transaction → StackMove ctx (.rpc call :: rest) (.rpc call' :: rest)
  | notSent (call : Rpc) (rest) : call.pc = .write → StackMove ctx (.rpc call :: rest) rest
  | handlerReturn (rest) : StackMove ctx (.handler :: rest) rest
  | flushed (rest) : StackMove ctx (.flush [] :: rest) (.pumpWait :: rest)
  | readable (rest) : StackMove ctx (.pumpWait :: rest) (.pumpDrain :: rest)
  | drained (rest) : StackMove ctx (.pumpDrain :: rest) (.pumpDrained :: rest)
  | unlock (a : Activation) (rest) : a = .pumpWait ∨ a = .pumpDrain ∨ a = .pumpDrained →
      StackMove ctx (a :: rest) rest

/-- Everything a step can do to the context, the stack and the records. -/
inductive Effect (s : State) (a : Action) (s' : State) : Prop where
  | move : StackMove s.ctx s.stack s'.stack → s'.ctx = s.ctx → s'.read = s.read →
      s'.handed = s.handed → s'.dispatched = s.dispatched → Effect s a s'
  | install (call call' : Rpc) (rest) : s.stack = .rpc call :: rest → call.pc = .write →
      s'.stack = .rpc call' :: rest → call'.pc = .test → call'.transaction = call.transaction →
      s'.ctx = { s.ctx with rpcTxn := some call.transaction, rpcResult := none } →
      s'.read = s.read → s'.handed = s.handed → s'.dispatched = s.dispatched → Effect s a s'
  | finish (call : Rpc) (rest) : s.stack = .rpc call :: rest → call.pc ≠ .write →
      s'.stack = rest → s'.ctx = { s.ctx with rpcTxn := none, rpcResult := none } →
      s'.read = s.read →
      s'.handed = s.handed ++ s.ctx.rpcResult.toList.map (fun f => (call.transaction, f)) →
      s'.dispatched = s.dispatched → Effect s a s'
  | detach : s.stack = [] → s'.stack = [.flush s.ctx.deferred] →
      s'.ctx = { s.ctx with deferred := [] } →
      s'.read = s.read → s'.handed = s.handed → s'.dispatched = s.dispatched → Effect s a s'
  | flushNext (node : Frame) (next : List Frame) (rest) :
      s.stack = .flush (node :: next) :: rest → s'.stack = .handler :: .flush next :: rest →
      s'.ctx = s.ctx → s'.read = s.read → s'.handed = s.handed →
      s'.dispatched = s.dispatched ++ [node] → Effect s a s'
  | reply (root : CJson) (ctx : Ctx) : a = .read (.text root) →
      janusWsMatchRpcReply s.ctx ⟨s.read.length, root⟩ = some ctx →
      s'.stack = s.stack → s'.ctx = ctx → s'.read = s.read ++ [root] →
      s'.handed = s.handed → s'.dispatched = s.dispatched → Effect s a s'
  | defer (root : CJson) (call : Rpc) (rest) : a = .read (.text root) →
      s.stack = .rpc call :: rest → call.pc = .drain → s'.stack = s.stack →
      s'.ctx = janusWsDeferEvent s.ctx ⟨s.read.length, root⟩ →
      s'.read = s.read ++ [root] → s'.handed = s.handed → s'.dispatched = s.dispatched →
      Effect s a s'
  | dispatch (root : CJson) (rest) : a = .read (.text root) →
      s.stack = .pumpDrain :: rest → s'.stack = .handler :: .pumpDrain :: rest → s'.ctx = s.ctx →
      s'.read = s.read ++ [root] → s'.handed = s.handed →
      s'.dispatched = s.dispatched ++ [⟨s.read.length, root⟩] → Effect s a s'

theorem Effect.ofFinish {s : State} {a : Action} {call : Rpc} {rest : List Activation}
    (hstack : s.stack = .rpc call :: rest) (hpc : call.pc ≠ .write) :
    Effect s a (s.finishRpc call rest) :=
  .finish call rest hstack hpc rfl rfl rfl rfl rfl

theorem Effect.ofSetRpc {s : State} {a : Action} {call : Rpc} {rest : List Activation} {pc : RpcPc}
    (hstack : s.stack = .rpc call :: rest) (hpc : call.pc ≠ .write) (hpc' : pc ≠ .write) :
    Effect s a (s.setRpc call rest pc) := by
  refine .move ?_ rfl rfl rfl rfl
  rw [hstack]
  exact .advance call _ rest hpc hpc' rfl

theorem rpcRead_effect {s : State} {call : Rpc} {rest : List Activation}
    (hstack : s.stack = .rpc call :: rest) (hpc : call.pc = .drain) (result : ReadResult) :
    Effect s (.read result) (rpcRead s call rest result) := by
  have hne : call.pc ≠ .write := by rw [hpc]; decide
  cases result with
  | pollError => exact .ofFinish hstack hne
  | failed => exact .ofFinish hstack hne
  | nothing => exact .ofSetRpc hstack hne (by decide)
  | empty => exact .ofSetRpc hstack hne (by decide)
  | notText => exact .move (.stay _) rfl rfl rfl rfl
  | notJson => exact .move (.stay _) rfl rfl rfl rfl
  | text root =>
      cases hm : janusWsMatchRpcReply s.ctx ⟨s.read.length, root⟩ with
      | some ctx => exact .reply root ctx rfl hm rfl (by simp [rpcRead, hm]) rfl rfl rfl
      | none => exact .defer root call rest rfl hstack hpc rfl (by simp [rpcRead, hm]) rfl rfl rfl

theorem pumpRead_effect {s : State} {rest : List Activation} (hstack : s.stack = .pumpDrain :: rest)
    (result : ReadResult) : Effect s (.read result) (pumpRead s rest result) := by
  cases result with
  | pollError => exact .move (hstack ▸ .unlock _ rest (by simp)) rfl rfl rfl rfl
  | failed => exact .move (hstack ▸ .unlock _ rest (by simp)) rfl rfl rfl rfl
  | nothing => exact .move (hstack ▸ .drained rest) rfl rfl rfl rfl
  | empty => exact .move (hstack ▸ .drained rest) rfl rfl rfl rfl
  | notText => exact .move (.stay _) rfl rfl rfl rfl
  | notJson => exact .move (.stay _) rfl rfl rfl rfl
  | text root =>
      cases hm : janusWsMatchRpcReply s.ctx ⟨s.read.length, root⟩ with
      | some ctx =>
          refine .reply root ctx rfl hm ?_ ?_ ?_ ?_ ?_ <;> simp [pumpRead, hm]
      | none =>
          refine .dispatch root rest rfl hstack ?_ ?_ ?_ ?_ ?_ <;> simp [pumpRead, hm]

/-- The pump's own bookkeeping leaves the context, the stack and the records
    alone. -/
theorem Effect.ofPump {s s' : State} {a : Action} (hctx : s'.ctx = s.ctx)
    (hstack : s'.stack = s.stack) (hread : s'.read = s.read) (hhanded : s'.handed = s.handed)
    (hdispatched : s'.dispatched = s.dispatched) : Effect s a s' :=
  .move (hstack ▸ .stay _) hctx hread hhanded hdispatched

/-- Every step has one of the effects listed above. -/
theorem step_effect {s s' : State} {a : Action} (h : step s a = some s') : Effect s a s' := by
  cases step_case h with
  | lockRpc thread transaction timeoutUs hmay =>
      refine .move (.call _ _ ?_ rfl) rfl rfl rfl rfl
      -- a request comes from outside or from a handler
      unfold State.mayCall at hmay
      split at hmay
      · next hstack => exact .inl hstack
      · next below hstack => exact .inr ⟨below, hstack⟩
      · cases hmay
  | written call rest now hstack hpc =>
      exact .install call _ rest hstack hpc rfl rfl rfl rfl rfl rfl rfl
  | notWritten call rest now hstack hpc =>
      refine .move ?_ rfl rfl (List.append_nil _) rfl
      rw [hstack]
      exact .notSent call rest hpc
  | rpcGoesOn call rest now hstack hpc hresult hnow =>
      exact .ofSetRpc hstack (by simp [hpc]) (by simp)
  | rpcEnds call rest now hstack hpc hends => exact .ofFinish hstack (by simp [hpc])
  | rpcSlice call rest now hstack hpc => exact .ofSetRpc hstack (by simp [hpc]) (by simp)
  | rpcPollFails call rest sliceMs hstack hpc => exact .ofFinish hstack (by simp [hpc])
  | rpcReadable call rest sliceMs hstack hpc => exact .ofSetRpc hstack (by simp [hpc]) (by simp)
  | rpcIdle call rest sliceMs pr hstack hpc hpr =>
      exact .ofSetRpc hstack (by simp [hpc]) (by simp)
  | rpcReads call rest result hstack hpc => exact rpcRead_effect hstack hpc result
  | pumpReads rest result hstack => exact pumpRead_effect hstack result
  | handlerReturn rest hstack => exact .move (hstack ▸ .handlerReturn rest) rfl rfl rfl rfl
  | pumpEnter | keepaliveDone | pumpStart | pumpExpires | pumpGoesOn =>
      exact .ofPump rfl rfl rfl rfl rfl
  | keepalive args transaction hpump hstack =>
      refine .move ?_ rfl rfl rfl rfl
      rw [hstack]
      exact .call _ [] (.inl rfl) rfl
  | lockPump args deadline sliceMs hpump hstack => exact .detach hstack rfl rfl rfl rfl rfl
  | flushNext node next rest hstack => exact .flushNext node next rest hstack rfl rfl rfl rfl rfl
  | flushEnd rest hstack => exact .move (hstack ▸ .flushed rest) rfl rfl rfl rfl
  | pumpPollFails rest args deadline pr hstack hpump hpr =>
      exact .move (hstack ▸ .unlock _ rest (by simp)) rfl rfl rfl rfl
  | pumpReadable rest args deadline hstack hpump =>
      exact .move (hstack ▸ .readable rest) rfl rfl rfl rfl
  | pumpIdle rest args deadline hstack hpump =>
      exact .move (hstack ▸ .unlock _ rest (by simp)) rfl rfl rfl rfl
  | pumpFinish rest now hstack => exact .move (hstack ▸ .unlock _ rest (by simp)) rfl rfl rfl rfl

end ModJanus.Ws
