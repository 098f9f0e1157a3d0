/-
  ModJanus.Ws.Keepalive

  When `janus_ws_pump_once` sends a keepalive.

  Janus drops a session that has sent it nothing for a while.  The pump compares the clock
  with `*last_activity_ref`, which the server thread stores when the session is registered,
  and the pump after each keepalive and after each call that found data on the socket.  The
  requests of other threads do not move it; what is received does.
-/
import Mathlib.Data.List.Induction
import ModJanus.Ws.Order
import ModJanus.Ws.Slices

namespace ModJanus.Ws

open Transition (exec Always exec_cons_eq_some exec_concat_eq_some exec_invariant)

/-! ## The two clocks -/

/-- The reading that the action stores in `*last_activity_ref`. -/
def Action.mark : Action → Option Int
  | .keepaliveDone now | .pumpFinish now => some now
  | _ => none

/-- The time at which the action has written the frame of a request. -/
def Action.written : Action → Option Int
  | .write true now => some now
  | _ => none

/-- `*last_activity_ref` after the actions, when it held `stored` before them. -/
def lastMark (stored : Int) (actions : List Action) : Int :=
  (actions.filterMap Action.mark).getLastD stored

/-- The time of the last request frame that the actions wrote. -/
def lastWritten (actions : List Action) : Option Int :=
  (actions.filterMap Action.written).getLast?

theorem lastMark_concat (stored : Int) (actions : List Action) (a : Action) :
    lastMark stored (actions ++ [a]) = a.mark.getD (lastMark stored actions) := by
  rw [lastMark, List.filterMap_append]
  cases hmark : a.mark with
  | none => simp [hmark, lastMark]
  | some now => simp [hmark]

/-! ## Where the pump and the stack stand -/

/-- The pump is neither in its keepalive's request nor in a slice. -/
def PumpPc.away : PumpPc → Bool
  | .keepaliveSent _ | .slice _ _ => false
  | _ => true

/-- The stack that goes with a place in the pump.  Only the request that the pump makes
    itself is marked as a keepalive. -/
inductive Placed : PumpPc → List Activation → Prop where
  | free (pump : PumpPc) : pump.away = true → Placed pump []
  | other (pump : PumpPc) (call : Rpc) : pump.away = true → call.keepalive = false →
      Placed pump [.rpc call]
  | keepalive (args : PumpArgs) (call : Rpc) : call.keepalive = true →
      Placed (.keepaliveSent args) [.rpc call]
  | slice (args : PumpArgs) (deadline : Int) (a : Activation) : a.ofPump →
      Placed (.slice args deadline) [a]
  | handler (args : PumpArgs) (deadline : Int) (a : Activation) : a.ofPump →
      Placed (.slice args deadline) [.handler, a]
  | nested (args : PumpArgs) (deadline : Int) (call : Rpc) (a : Activation) :
      call.keepalive = false → a.ofPump → Placed (.slice args deadline) [.rpc call, .handler, a]

namespace Placed

variable {pump : PumpPc} {call : Rpc} {rest : List Activation}

/-- A request that goes on. -/
theorem advance (h : Placed pump (.rpc call :: rest)) {call' : Rpc}
    (hsame : call'.keepalive = call.keepalive) : Placed pump (.rpc call' :: rest) := by
  cases h with
  | other pump call haway hother => exact .other pump call' haway (hsame.trans hother)
  | keepalive args call hkeepalive => exact .keepalive args call' (hsame.trans hkeepalive)
  | slice args deadline a ha => cases ha
  | nested args deadline call a hother ha =>
      exact .nested args deadline call' a (hsame.trans hother) ha

/-- A request that returns. -/
theorem returnRpc {s : State} (h : Placed s.pump (.rpc call :: rest)) (result : Option Frame) :
    Placed (s.returnRpc call rest result).pump rest := by
  rw [State.returnRpc]
  generalize hpump : s.pump = pump at h
  cases h with
  | other pump call haway hother =>
      rw [hother]
      exact .free pump haway
  | keepalive args call hkeepalive =>
      rw [hkeepalive]
      exact .free _ rfl
  | slice args deadline a ha => cases ha
  | nested args deadline call a hother ha =>
      rw [hother]
      exact .handler args deadline a ha

/-- Below an activation of the pump there is nothing, and the pump is in a slice. -/
theorem of_pump {a : Activation} (h : Placed pump (a :: rest)) (ha : a.ofPump) :
    rest = [] ∧ ∃ args deadline, pump = .slice args deadline := by
  cases h with
  | other | keepalive | handler | nested => cases ha
  | slice args deadline => exact ⟨rfl, args, deadline, rfl⟩

/-- The pump goes on to another of its activations, with or without a handler. -/
theorem replace {a b : Activation} (h : Placed pump (a :: rest)) (ha : a.ofPump)
    (hb : b.ofPump) : Placed pump (b :: rest) ∧ Placed pump (.handler :: b :: rest) := by
  obtain ⟨rfl, args, deadline, rfl⟩ := h.of_pump ha
  exact ⟨.slice args deadline b hb, .handler args deadline b hb⟩

/-- What a handler of the pump returns to. -/
theorem handlerReturn (h : Placed pump (.handler :: rest)) : Placed pump rest := by
  cases h with
  | slice args deadline a ha => cases ha
  | handler args deadline a ha => exact .slice args deadline a ha

/-- A pump that is not in a slice may move on, as long as it makes no request. -/
theorem move {pump' : PumpPc} {stack : List Activation} (h : Placed pump stack)
    (haway : pump.away = true) (haway' : pump'.away = true) : Placed pump' stack := by
  cases h with
  | free => exact .free pump' haway'
  | other pump call _ hother => exact .other pump' call haway' hother
  | keepalive | slice | handler | nested => cases haway

end Placed

/-! ## Steps -/

section Steps

variable {s s' : State} {a : Action}

theorem finishRpc_placed {call : Rpc} {rest : List Activation}
    (h : Placed s.pump (.rpc call :: rest)) : Placed (s.finishRpc call rest).pump rest :=
  Placed.returnRpc (s := { s with ctx := _ }) h s.ctx.rpcResult

theorem rpcRead_placed {call : Rpc} {rest : List Activation} (hstack : s.stack = .rpc call :: rest)
    (h : Placed s.pump s.stack) (result : ReadResult) :
    Placed (rpcRead s call rest result).pump (rpcRead s call rest result).stack := by
  rw [hstack] at h
  cases result with
  | pollError | failed => exact finishRpc_placed h
  | nothing | empty => exact h.advance rfl
  | notText | notJson | text root => exact hstack ▸ h

theorem pumpRead_placed {rest : List Activation} (hstack : s.stack = .pumpDrain :: rest)
    (h : Placed s.pump s.stack) (result : ReadResult) :
    Placed (pumpRead s rest result).pump (pumpRead s rest result).stack := by
  rw [hstack] at h
  cases result with
  | pollError | failed =>
      rw [(h.of_pump trivial).1]
      exact .free _ rfl
  | nothing | empty => exact (h.replace trivial (b := .pumpDrained) trivial).1
  | notText | notJson => exact hstack ▸ h
  | text root =>
      rw [pumpRead]
      split
      · exact hstack ▸ h
      · exact (h.replace trivial (b := .pumpDrain) trivial).2

theorem lockRpc_placed {thread : Thread} (transaction : String) (timeoutUs : Int)
    (hmay : s.mayCall thread = true) (h : Placed s.pump s.stack) :
    Placed s.pump (.rpc { transaction, timeoutUs } :: s.stack) := by
  -- from outside the mutex, or from a handler that the pump runs
  rw [State.mayCall] at hmay
  generalize s.pump = pump at h
  generalize s.stack = stack at h hmay
  cases h with
  | free pump haway => exact .other pump _ haway rfl
  | handler args deadline a ha => exact .nested args deadline _ a rfl ha
  | other => cases hmay
  | keepalive => cases hmay
  | slice args deadline a ha => cases a <;> cases ha <;> cases hmay
  | nested => cases hmay

theorem step_placed (hs : step s a = some s') (h : Placed s.pump s.stack) :
    Placed s'.pump s'.stack := by
  have hout : s.pump.isOutside = true → s.pump.away = true := by
    cases s.pump <;> simp [PumpPc.isOutside, PumpPc.away]
  cases step_case hs with
  | lockRpc thread transaction timeoutUs hmay => exact lockRpc_placed transaction timeoutUs hmay h
  -- a request goes on, or returns
  | written call rest now hstack => exact (hstack ▸ h).advance rfl
  | rpcGoesOn call rest now hstack => exact (hstack ▸ h).advance rfl
  | rpcSlice call rest now hstack => exact (hstack ▸ h).advance rfl
  | rpcReadable call rest sliceMs hstack => exact (hstack ▸ h).advance rfl
  | rpcIdle call rest sliceMs pr hstack => exact (hstack ▸ h).advance rfl
  | notWritten call rest now hstack => exact (hstack ▸ h).returnRpc none
  | rpcEnds call rest now hstack => exact finishRpc_placed (hstack ▸ h)
  | rpcPollFails call rest sliceMs hstack => exact finishRpc_placed (hstack ▸ h)
  | rpcReads call rest result hstack => exact rpcRead_placed hstack h result
  | pumpReads rest result hstack => exact pumpRead_placed hstack h result
  | handlerReturn rest hstack => exact (hstack ▸ h).handlerReturn
  -- the pump moves outside its slices
  | pumpEnter args now hpump =>
      apply h.move (hout hpump)
      dsimp only
      split <;> rfl
  | keepalive args transaction => exact .keepalive args _ rfl
  | keepaliveDone args resp now hpump => exact h.move (hpump ▸ rfl) rfl
  | pumpStart args now hpump => exact h.move (hpump ▸ rfl) rfl
  | pumpExpires args deadline now hpump => exact h.move (hpump ▸ rfl) rfl
  | pumpGoesOn args deadline now hpump => exact h.move (hpump ▸ rfl) rfl
  -- and in a slice
  | lockPump args deadline => exact .slice args deadline _ trivial
  | flushNext node next rest hstack =>
      rw [hstack] at h
      exact (h.replace trivial (b := .flush next) trivial).2
  | flushEnd rest hstack =>
      rw [hstack] at h
      exact (h.replace trivial (b := .pumpWait) trivial).1
  | pumpReadable rest args deadline hstack =>
      rw [hstack] at h
      exact (h.replace trivial (b := .pumpDrain) trivial).1
  | pumpPollFails rest args deadline pr hstack =>
      rw [hstack] at h
      show Placed _ rest
      rw [(h.of_pump trivial).1]
      exact .free _ rfl
  | pumpIdle rest args deadline hstack =>
      rw [hstack] at h
      show Placed _ rest
      rw [(h.of_pump trivial).1]
      exact .free _ rfl
  | pumpFinish rest now hstack =>
      rw [hstack] at h
      show Placed _ rest
      rw [(h.of_pump trivial).1]
      exact .free _ rfl

/-- Nothing but the two ends of the pump moves the clock of the last activity. -/
theorem step_lastActivity (hs : step s a = some s') :
    s'.lastActivity = a.mark.getD s.lastActivity := by
  cases step_case hs with
  | rpcReads call rest result => cases result <;> rfl
  | pumpReads rest result =>
      cases result with
      | text root =>
          rw [pumpRead]
          split <;> rfl
      | _ => rfl
  | _ => rfl

/-- The actions that the pump takes outside its slices. -/
def Action.byPump : Action → Bool
  | .pumpEnter .. | .keepalive _ | .keepaliveDone _ | .pumpStart _ | .pumpTest _ | .lockPump => true
  | _ => false

/-- A request that is not the pump's keepalive leaves the pump alone. -/
theorem finishRpc_pump {call : Rpc} (rest : List Activation) (hother : call.keepalive = false) :
    (s.finishRpc call rest).pump = s.pump := by
  simp [State.finishRpc, State.returnRpc, State.pop, hother]

/-- Outside its slices and its keepalive's request the pump is moved by its own actions
    only. -/
theorem pump_stays (hs : step s a = some s') (h : Placed s.pump s.stack)
    (haway : s.pump.away = true) (hpump : a.byPump = false) : s'.pump = s.pump := by
  have hrpc : ∀ call rest, s.stack = .rpc call :: rest → call.keepalive = false := by
    intro call rest hstack
    rw [hstack] at h
    generalize s.pump = pump at h haway
    cases h with
    | other _ _ _ hother => exact hother
    | keepalive => cases haway
    | slice args deadline a ha => cases ha
    | nested => cases haway
  have hnone : ∀ x rest, s.stack = x :: rest → ¬ x.ofPump := by
    intro x rest hstack hx
    rw [hstack] at h
    obtain ⟨-, args, deadline, heq⟩ := h.of_pump hx
    rw [heq] at haway
    cases haway
  cases step_case hs with
  | notWritten call rest now hstack =>
      simp [State.returnRpc, State.pop, hrpc call rest hstack]
  | rpcEnds call rest now hstack => exact finishRpc_pump rest (hrpc call rest hstack)
  | rpcPollFails call rest sliceMs hstack => exact finishRpc_pump rest (hrpc call rest hstack)
  | rpcReads call rest result hstack =>
      cases result with
      | pollError | failed => exact finishRpc_pump rest (hrpc call rest hstack)
      | _ => rfl
  -- no slice is in progress
  | pumpReads rest result hstack => exact absurd trivial (hnone .pumpDrain rest hstack)
  | pumpPollFails rest args deadline pr hstack => exact absurd trivial (hnone .pumpWait rest hstack)
  | pumpIdle rest args deadline hstack => exact absurd trivial (hnone .pumpWait rest hstack)
  | pumpFinish rest now hstack => exact absurd trivial (hnone .pumpDrained rest hstack)
  | pumpEnter | keepalive | keepaliveDone | pumpStart | pumpExpires | pumpGoesOn | lockPump =>
      cases hpump
  | _ => rfl

/-! ## From the entry of the pump to its wait -/

/-- A keepalive is due, and its frame has not been written. -/
inductive Awaiting (args : PumpArgs) (s : State) : Prop where
  | due : s.pump = .keepalive args → Awaiting args s
  | called (call : Rpc) : s.pump = .keepaliveSent args → s.stack = [.rpc call] →
      call.pc = .write → Awaiting args s

/-- The state in which the frame of the pump's keepalive is written next. -/
def State.writesKeepalive (s : State) : Prop :=
  ∃ call, s.stack = [.rpc call] ∧ call.keepalive = true ∧ call.pc = .write

/-- A keepalive that is due stays due until its frame is handed to `kws_write_frame`. -/
theorem awaiting_step {args : PumpArgs} (h : Awaiting args s) (hp : Placed s.pump s.stack)
    (hs : step s a = some s') :
    Awaiting args s' ∨ (s.writesKeepalive ∧ ∃ ok now, a = .write ok now) := by
  cases h with
  | due hpump =>
      refine .inl ?_
      cases hby : a.byPump with
      | false =>
          have hstay := pump_stays hs hp (by rw [hpump]; rfl) hby
          exact .due (hstay.trans hpump)
      | true =>
          -- of the pump's actions only the call of its request can be taken
          cases a with
          | keepalive transaction =>
              simp only [step, pumpKeepalive] at hs
              split at hs
              · next args' hargs _ =>
                  cases hs
                  rw [hpump] at hargs
                  cases hargs
                  exact .called _ rfl rfl rfl
              · cases hs
          | pumpEnter args' now =>
              simp [step, pumpEnter, hpump, PumpPc.isOutside] at hs
          | keepaliveDone now => simp [step, keepaliveDone, hpump] at hs
          | pumpStart now => simp [step, pumpStart, hpump] at hs
          | pumpTest now => simp [step, pumpTest, hpump] at hs
          | lockPump => simp [step, lockPump, hpump] at hs
          | _ => cases hby
  | called call hpump hstack hpc =>
      refine .inr ⟨⟨call, hstack, ?_, hpc⟩, ?_⟩
      · rw [hpump, hstack] at hp
        cases hp with
        | other _ _ haway => cases haway
        | keepalive _ _ hkeepalive => exact hkeepalive
      · -- the mutex is held by a request that has not been written
        cases a with
        | write ok now => exact ⟨ok, now, rfl⟩
        | lockRpc thread transaction timeoutUs =>
            simp [step, lockRpc, State.mayCall, hstack] at hs
        | rpcTest now => simp [step, rpcTest, hstack, hpc] at hs
        | rpcSlice now => simp [step, rpcSlice, hstack, hpc] at hs
        | rpcPoll pr => simp [step, rpcPoll, hstack, hpc] at hs
        | read result => simp [step, drainRead, hstack, hpc] at hs
        | handlerReturn => simp [step, handlerReturn, hstack] at hs
        | pumpEnter args' now =>
            simp [step, pumpEnter, hpump, PumpPc.isOutside] at hs
        | keepalive transaction => simp [step, pumpKeepalive, hpump] at hs
        | keepaliveDone now => simp [step, keepaliveDone, hpump] at hs
        | pumpStart now => simp [step, pumpStart, hpump] at hs
        | pumpTest now => simp [step, pumpTest, hpump] at hs
        | lockPump => simp [step, lockPump, hpump] at hs
        | flushNext => simp [step, flushNext, hstack] at hs
        | flushEnd => simp [step, flushEnd, hstack] at hs
        | pumpPoll pr => simp [step, pumpPoll, hstack] at hs
        | pumpFinish now => simp [step, pumpFinish, hstack] at hs

/-- A pump to which no keepalive is due makes no request before its wait. -/
theorem start_stays {args : PumpArgs} (hpump : s.pump = .start args)
    (hp : Placed s.pump s.stack) (hs : step s a = some s') (hstart : ∀ now, a ≠ .pumpStart now) :
    s'.pump = .start args := by
  cases hby : a.byPump with
  | false =>
      have hstay := pump_stays hs hp (by rw [hpump]; rfl) hby
      exact hstay.trans hpump
  | true =>
      cases a with
      | pumpStart now => exact absurd rfl (hstart now)
      | pumpEnter args' now => simp [step, pumpEnter, hpump, PumpPc.isOutside] at hs
      | keepalive transaction => simp [step, pumpKeepalive, hpump] at hs
      | keepaliveDone now => simp [step, keepaliveDone, hpump] at hs
      | pumpTest now => simp [step, pumpTest, hpump] at hs
      | lockPump => simp [step, lockPump, hpump] at hs
      | _ => cases hby

theorem not_writesKeepalive_of_start {args : PumpArgs} (hpump : s.pump = .start args)
    (hp : Placed s.pump s.stack) : ¬ s.writesKeepalive := by
  rintro ⟨call, hstack, hkeepalive, -⟩
  rw [hpump, hstack] at hp
  cases hp with
  | other _ _ _ hother =>
      rw [hkeepalive] at hother
      cases hother

end Steps

/-! ## Runs -/

section Runs

variable {s₀ s : State} {args : PumpArgs}

theorem exec_placed (h : Placed s₀.pump s₀.stack) {actions : List Action}
    (hrun : exec step Always s₀ actions = some s) : Placed s.pump s.stack := by
  refine exec_invariant (I := fun s => Placed s.pump s.stack) ?_ h hrun
  intro v a v' hv _ hs
  exact step_placed hs hv

/-- In every run `*last_activity_ref` is the last reading that the run stored in it. -/
theorem exec_lastActivity {actions : List Action}
    (hrun : exec step Always s₀ actions = some s) :
    s.lastActivity = lastMark s₀.lastActivity actions := by
  induction actions using List.reverseRecOn generalizing s with
  | nil =>
      cases hrun
      rfl
  | append_singleton actions a ih =>
      obtain ⟨v, hv, -, hs⟩ := exec_concat_eq_some.mp hrun
      rw [step_lastActivity hs, ih hv, lastMark_concat]

/-- Among the actions, taken from the state `entered`, the frame of the pump's keepalive is
    handed to `kws_write_frame`. -/
def WritesKeepalive (entered : State) (actions : List Action) : Prop :=
  ∃ before ok now after v, actions = before ++ .write ok now :: after ∧
    exec step Always entered before = some v ∧ v.writesKeepalive

theorem awaiting_run {entered : State} (h : Awaiting args entered)
    (hp : Placed entered.pump entered.stack) {actions : List Action}
    (hrun : exec step Always entered actions = some s) :
    Awaiting args s ∨ WritesKeepalive entered actions := by
  induction actions using List.reverseRecOn generalizing s with
  | nil =>
      cases hrun
      exact .inl h
  | append_singleton actions a ih =>
      obtain ⟨v, hv, -, hs⟩ := exec_concat_eq_some.mp hrun
      rcases ih hv with hawaiting | ⟨before, ok, now, after, u, hactions, hu, hwrites⟩
      · rcases awaiting_step hawaiting (exec_placed hp hv) hs with hstill | ⟨hwrites, ok, now, ha⟩
        · exact .inl hstill
        · -- this action is the write
          rw [ha]
          exact .inr ⟨actions, ok, now, [], v, rfl, hv, hwrites⟩
      · refine .inr ⟨before, ok, now, after ++ [a], u, ?_, hu, hwrites⟩
        simp [hactions]

theorem start_run {entered : State} (h : entered.pump = .start args)
    (hp : Placed entered.pump entered.stack) {actions : List Action}
    (hstart : ∀ now, Action.pumpStart now ∉ actions)
    (hrun : exec step Always entered actions = some s) : s.pump = .start args := by
  induction actions using List.reverseRecOn generalizing s with
  | nil =>
      cases hrun
      exact h
  | append_singleton actions a ih =>
      obtain ⟨v, hv, -, hs⟩ := exec_concat_eq_some.mp hrun
      have hbefore : ∀ now, Action.pumpStart now ∉ actions := fun now hmem =>
        hstart now (List.mem_append_left _ hmem)
      refine start_stays (ih hbefore hv) (exec_placed hp hv) hs ?_
      rintro now rfl
      exact hstart now (by simp)

/-- The states from which the server thread begins to call the pump: a new socket, and any
    state of a run between two calls.  It stores the clock before it does. -/
inductive Registered : State → Prop where
  | opened (stored : Int) : Registered { lastActivity := stored }
  | again (s₀ s : State) (actions : List Action) (stored : Int) : Registered s₀ →
      exec step Always s₀ actions = some s → s.pump.isOutside = true →
      Registered { s with lastActivity := stored }

theorem Registered.placed (h : Registered s₀) : Placed s₀.pump s₀.stack := by
  induction h with
  | opened stored => exact .free _ rfl
  | again s₀ s actions stored _ hrun _ ih =>
      have hplaced : Placed s.pump s.stack := exec_placed ih hrun
      exact hplaced

/-- A call of the pump that gets to its wait has written a keepalive on the way if and only
    if it started more than the interval after the last activity: the registration, the end
    of a keepalive, or the end of a call that found data on the socket. -/
theorem keepalive_when_idle (h0 : Registered s₀) {before during : List Action} {now start : Int}
    (hrun : exec step Always s₀ (before ++ .pumpEnter args now :: during ++ [.pumpStart start]) =
      some s)
    (hduring : ∀ now, Action.pumpStart now ∉ during) :
    ∃ entered, exec step Always s₀ (before ++ [.pumpEnter args now]) = some entered ∧
      (WritesKeepalive entered during ↔
        keepaliveDue args (lastMark s₀.lastActivity before) now = true) := by
  obtain ⟨v, hv, -, hstarts⟩ := exec_concat_eq_some.mp hrun
  rw [Transition.exec_append, Option.bind_eq_some_iff] at hv
  obtain ⟨u, hu, hv⟩ := hv
  obtain ⟨-, entered, henter, hv⟩ := exec_cons_eq_some.mp hv
  have hplaced : Placed entered.pump entered.stack :=
    step_placed henter (exec_placed h0.placed hu)
  refine ⟨entered, exec_concat_eq_some.mpr ⟨u, hu, trivial, henter⟩, ?_⟩
  -- the pump decides on the activity that the run has stored
  have hpump : entered.pump =
      if keepaliveDue args (lastMark s₀.lastActivity before) now then .keepalive args
      else .start args := by
    rw [← exec_lastActivity hu]
    simp only [step, pumpEnter, Option.ite_none_right_eq_some] at henter
    obtain ⟨-, henter⟩ := henter
    cases henter
    rfl
  constructor
  · intro hwrites
    by_contra hdue
    rw [if_neg hdue] at hpump
    obtain ⟨prior, ok, written, after, w, rfl, hw, hwrites⟩ := hwrites
    have hprior : ∀ now, Action.pumpStart now ∉ prior := fun now hmem =>
      hduring now (List.mem_append_left _ hmem)
    have hstart := start_run hpump hplaced hprior hw
    exact not_writesKeepalive_of_start hstart (exec_placed hplaced hw) hwrites
  · intro hdue
    rw [if_pos hdue] at hpump
    rcases awaiting_run (.due hpump) hplaced hv with hawaiting | hwrites
    · -- the pump that computes its deadline is not waiting for its keepalive
      cases hawaiting with
      | due hstill => simp [step, pumpStart, hstill] at hstarts
      | called call hstill => simp [step, pumpStart, hstill] at hstarts
    · exact hwrites

end Runs

/-! ## Two calls -/

/-- The request that creates the session. -/
def created : List Action :=
  [.lockRpc serverThread "create" 15000000, .write true 1000000, .rpcTest 1000000,
    .rpcSlice 1000000, .rpcPoll .readable, .read (.text (reply "success" "create")),
    .read .nothing, .rpcTest 1100000]

/-- The arguments that `apiPoll` passes for session 1. -/
def pollArgs : PumpArgs := ⟨1, 60000000, 25000000⟩

/-- The pump sends its keepalive at 30 s, and the reply comes. -/
def keptAlive : List Action :=
  [.keepalive "keepalive", .write true 30000000, .rpcTest 30000000, .rpcSlice 30000000,
    .rpcPoll .readable, .read (.text (reply "ack" "keepalive")), .read .nothing,
    .rpcTest 30100000, .keepaliveDone 30100000]

theorem keepalive_when_idle_kept :
    ∃ entered, exec step Always { lastActivity := 1200000 }
        (created ++ [.pumpEnter pollArgs 30000000]) = some entered ∧
      WritesKeepalive entered keptAlive := by
  have hrun : ((exec step Always { lastActivity := 1200000 }
      (created ++ .pumpEnter pollArgs 30000000 :: keptAlive ++ [.pumpStart 30100000])).map
        fun s => s.lastActivity) = some 30100000 := by decide
  obtain ⟨s, hs, -⟩ := Option.map_eq_some_iff.mp hrun
  obtain ⟨entered, hentered, hiff⟩ :=
    keepalive_when_idle (.opened 1200000) hs (by simp [keptAlive])
  exact ⟨entered, hentered, hiff.mpr (by decide)⟩

/-- A call of the pump that waits 20 s for an event. -/
def pumped (event : CJson) (now : Int) : List Action :=
  [.pumpEnter pollArgs now, .pumpStart now, .pumpTest now, .lockPump, .flushEnd,
    .pumpPoll .readable, .read (.text event), .handlerReturn, .read .nothing,
    .pumpFinish (now + 20000000)]

/-- An event every 20 s, and no request after the one that creates the session. -/
def receiving : List Action :=
  created ++ pumped (hangupEvent 1 2) 1200000 ++ pumped (hangupEvent 1 3) 21200000

/-- The call that starts 40 s after the last request goes on to its wait. -/
theorem keepalive_put_off :
    ¬ ∀ (s₀ s entered : State) (before during : List Action) (args : PumpArgs)
        (now start written : Int),
      Registered s₀ →
      Clocked (before ++ .pumpEnter args now :: during ++ [.pumpStart start]) →
      exec step Always s₀ (before ++ .pumpEnter args now :: during ++ [.pumpStart start]) = some s →
      (∀ now, Action.pumpStart now ∉ during) →
      exec step Always s₀ (before ++ [.pumpEnter args now]) = some entered →
      args.sessionId ≠ 0 → 0 < args.keepaliveIntervalUs → lastWritten before = some written →
      args.keepaliveIntervalUs < now - written → WritesKeepalive entered during := by
  intro h
  have hrun : ((exec step Always { lastActivity := 1200000 }
      (receiving ++ .pumpEnter pollArgs 41200000 :: [] ++ [.pumpStart 41200000])).map
        fun s => s.lastActivity) = some 41200000 := by decide
  obtain ⟨s, hs, -⟩ := Option.map_eq_some_iff.mp hrun
  have henter : ((exec step Always { lastActivity := 1200000 }
      (receiving ++ [.pumpEnter pollArgs 41200000])).map fun s => s.lastActivity) =
        some 41200000 := by decide
  obtain ⟨entered, hentered, -⟩ := Option.map_eq_some_iff.mp henter
  have hclocked : Clocked (receiving ++ .pumpEnter pollArgs 41200000 :: [] ++
      [.pumpStart 41200000]) := ⟨by decide, by decide⟩
  obtain ⟨before, ok, now, after, v, hnil, -, -⟩ :=
    h { lastActivity := 1200000 } s entered receiving [] pollArgs 41200000 41200000 1000000
      (.opened 1200000) hclocked hs (by simp) hentered (by decide) (by decide) (by decide)
      (by decide)
  simp at hnil

end ModJanus.Ws
