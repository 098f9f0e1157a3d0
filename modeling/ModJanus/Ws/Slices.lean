/-
  ModJanus.Ws.Slices

  How long `kws_wait_sock` is made to wait while `io_mutex` is held.

  The pump tests what is left of its wait and makes its slice of the same reading of the
  clock.  A request tests one reading and makes its slice of the next; when the deadline
  passes in between, what is left is negative, and the cast to an unsigned number turns it
  into a wait of up to 49 days.
-/
import Mathlib.Data.List.Induction
import ModJanus.Ws.Machine

namespace ModJanus.Ws

open Transition (exec Always)

/-! ## One slice -/

theorem toUint32_toNat (n : Int) : (toUint32 n).toNat = (n % 2 ^ 32).toNat := by
  have hlt : (n % 2 ^ 32).toNat < 2 ^ 32 := by omega
  rw [toUint32, UInt32.toNat_ofNat_of_lt' hlt]

/-- The slice is made less than a millisecond after the deadline, or so many milliseconds
    after it that the cast comes round to a short wait. -/
def InTime (deadline now : Int) : Prop :=
  now < deadline + 1000 ∨ (now - deadline) / 1000 % 2 ^ 32 = 0 ∨
    2 ^ 32 - 100 ≤ (now - deadline) / 1000 % 2 ^ 32

theorem rpcSliceMs_le_iff (deadline now : Int) :
    (rpcSliceMs (deadline - now)).toNat ≤ 100 ↔ InTime deadline now := by
  rw [rpcSliceMs, toUint32_toNat, InTime]
  by_cases hleft : 0 ≤ deadline - now
  · have hnonneg : 0 ≤ if deadline - now < 100000 then deadline - now else 100000 := by
      split <;> omega
    rw [Int.tdiv_eq_ediv_of_nonneg hnonneg]
    split <;> omega
  · -- what is left is negative, and the division rounds it up to zero
    have hlate : deadline - now = -(now - deadline) := by omega
    have hnonneg : 0 ≤ now - deadline := by omega
    rw [if_pos (by omega), hlate, Int.neg_tdiv, Int.tdiv_eq_ediv_of_nonneg hnonneg]
    omega

/-- The pump makes a slice only of what is left, and of at least a millisecond. -/
theorem pumpSliceMs_bounds {remainUs : Int} (h : 0 < remainUs) :
    1 ≤ (pumpSliceMs remainUs).toNat ∧
      ((pumpSliceMs remainUs).toNat : Int) ≤ JANUS_WS_PUMP_SLICE_MS := by
  have hslice : ∀ ms : UInt32, (ms.toNat : Int) ≤ JANUS_WS_PUMP_SLICE_MS →
      1 ≤ (if ms = 0 then 1 else ms).toNat ∧
        ((if ms = 0 then 1 else ms).toNat : Int) ≤ JANUS_WS_PUMP_SLICE_MS := by
    intro ms hle
    split
    · decide
    · next hne =>
        have hpos : ms.toNat ≠ 0 := fun hzero => hne (UInt32.toNat_inj.mp hzero)
        exact ⟨by omega, hle⟩
  apply hslice
  have hmax : JANUS_WS_PUMP_SLICE_MS = 200 := rfl
  split
  · rw [toUint32_toNat, Int.tdiv_eq_ediv_of_nonneg (Int.le_of_lt h)]
    omega
  · decide

/-! ## The slices of a state -/

/-- The slice that a request waits for. -/
def Activation.slice : Activation → Option UInt32
  | .rpc call =>
      match call.pc with
      | .wait sliceMs => some sliceMs
      | _ => none
  | _ => none

namespace State

/-- The slices that requests wait for under the mutex. -/
def rpcSlices (s : State) : List UInt32 := s.stack.filterMap Activation.slice

/-- The slice that the pump takes into the mutex. -/
def pumpSlice (s : State) : Option UInt32 :=
  match s.pump with
  | .lock _ _ sliceMs => some sliceMs
  | _ => none

/-- The waits are as short as they are meant to be. -/
structure ShortSlices (s : State) : Prop where
  rpc : ∀ sliceMs ∈ s.rpcSlices, sliceMs.toNat ≤ 100
  pump : ∀ sliceMs ∈ s.pumpSlice,
    1 ≤ sliceMs.toNat ∧ (sliceMs.toNat : Int) ≤ JANUS_WS_PUMP_SLICE_MS

end State

/-- A slice that the action makes for a request is made in time. -/
def MadeInTime (s : State) : Action → Prop
  | .rpcSlice now => ∀ call rest, s.stack = .rpc call :: rest → InTime call.deadline now
  | _ => True

/-! ## Steps -/

section Steps

variable {s s' : State} {a : Action} {sliceMs : UInt32}

/-- No slice is made: what is new on the stack does not wait, and the pump has no slice
    that it did not have before. -/
structure MakesNone (s s' : State) : Prop where
  stack : ∃ old new rest, s.stack = old ++ rest ∧ s'.stack = new ++ rest ∧
    ∀ x ∈ new, Activation.slice x = none
  pump : s'.pumpSlice = s.pumpSlice ∨ s'.pumpSlice = none

namespace MakesNone

theorem mem_rpcSlices (h : MakesNone s s') (hmem : sliceMs ∈ s'.rpcSlices) :
    sliceMs ∈ s.rpcSlices := by
  obtain ⟨old, new, rest, hstack, hstack', hnew⟩ := h.stack
  have hnil : new.filterMap Activation.slice = [] := List.filterMap_eq_nil_iff.mpr hnew
  rw [State.rpcSlices, hstack', List.filterMap_append, hnil, List.nil_append] at hmem
  rw [State.rpcSlices, hstack, List.filterMap_append]
  exact List.mem_append_right _ hmem

theorem mem_pumpSlice (h : MakesNone s s') (hmem : sliceMs ∈ s'.pumpSlice) :
    sliceMs ∈ s.pumpSlice := by
  rcases h.pump with hsame | hnone
  · exact hsame ▸ hmem
  · rw [hnone] at hmem
    cases hmem

variable (hpump : s'.pumpSlice = s.pumpSlice ∨ s'.pumpSlice = none)

include hpump

theorem stay (h : s'.stack = s.stack) : MakesNone s s' :=
  ⟨⟨[], [], s.stack, rfl, h, nofun⟩, hpump⟩

/-- The top of the stack returns. -/
theorem pop {x : Activation} {rest : List Activation} (hstack : s.stack = x :: rest)
    (hstack' : s'.stack = rest) : MakesNone s s' :=
  ⟨⟨[x], [], rest, hstack, hstack', nofun⟩, hpump⟩

/-- The top of the stack goes on to something else than a wait. -/
theorem replace {x y : Activation} {rest : List Activation} (hstack : s.stack = x :: rest)
    (hstack' : s'.stack = y :: rest) (hy : y.slice = none) : MakesNone s s' :=
  ⟨⟨[x], [y], rest, hstack, hstack', by simpa using hy⟩, hpump⟩

/-- Something is called that does not wait yet. -/
theorem push {y : Activation} {rest : List Activation} (hstack : s.stack = rest)
    (hstack' : s'.stack = y :: rest) (hy : y.slice = none) : MakesNone s s' :=
  ⟨⟨[], [y], rest, hstack, hstack', by simpa using hy⟩, hpump⟩

end MakesNone

/-- A request that returns leaves the slice of the pump alone. -/
theorem pumpSlice_returnRpc (s : State) (call : Rpc) (rest : List Activation)
    (result : Option Frame) : (s.returnRpc call rest result).pumpSlice = s.pumpSlice := by
  cases hkeepalive : call.keepalive with
  | false => simp [State.pumpSlice, State.returnRpc, hkeepalive]
  | true => cases hpump : s.pump <;> simp [State.pumpSlice, State.returnRpc, hkeepalive, hpump]

theorem finishRpc_makesNone {call : Rpc} {rest : List Activation}
    (hstack : s.stack = .rpc call :: rest) : MakesNone s (s.finishRpc call rest) :=
  .pop (.inl (pumpSlice_returnRpc _ call rest _)) hstack rfl

theorem setRpc_makesNone {call : Rpc} {rest : List Activation} {pc : RpcPc}
    (hstack : s.stack = .rpc call :: rest)
    (hpc : Activation.slice (.rpc { call with pc := pc }) = none) :
    MakesNone s (s.setRpc call rest pc) :=
  .replace (.inl rfl) hstack rfl hpc

theorem rpcRead_makesNone {call : Rpc} {rest : List Activation}
    (hstack : s.stack = .rpc call :: rest) (result : ReadResult) :
    MakesNone s (rpcRead s call rest result) := by
  cases result with
  | pollError | failed => exact finishRpc_makesNone hstack
  | nothing | empty => exact setRpc_makesNone hstack rfl
  | notText | notJson | text => exact .stay (.inl rfl) rfl

theorem pumpRead_makesNone {rest : List Activation} (hstack : s.stack = .pumpDrain :: rest)
    (result : ReadResult) : MakesNone s (pumpRead s rest result) := by
  cases result with
  | pollError | failed => exact .pop (.inr rfl) hstack rfl
  | nothing | empty => exact .replace (.inl rfl) hstack rfl rfl
  | notText | notJson => exact .stay (.inl rfl) rfl
  | text root =>
      rw [pumpRead]
      split
      · exact .stay (.inl rfl) rfl
      · exact .push (.inl rfl) hstack rfl rfl

/-- Every action but the two that make a slice. -/
theorem step_makesNone (h : step s a = some s') (hrpc : ∀ now, a ≠ .rpcSlice now)
    (hpump : ∀ now, a ≠ .pumpTest now) : MakesNone s s' := by
  cases step_case h with
  | lockRpc => exact .push (.inl rfl) rfl rfl rfl
  | written call rest now hstack hpc => exact .replace (.inl rfl) hstack rfl rfl
  | notWritten call rest now hstack hpc =>
      exact .pop (.inl (pumpSlice_returnRpc s call rest none)) hstack rfl
  | rpcGoesOn call rest now hstack => exact setRpc_makesNone hstack rfl
  | rpcEnds call rest now hstack => exact finishRpc_makesNone hstack
  | rpcSlice call rest now => exact absurd rfl (hrpc now)
  | rpcPollFails call rest sliceMs hstack => exact finishRpc_makesNone hstack
  | rpcReadable call rest sliceMs hstack => exact setRpc_makesNone hstack rfl
  | rpcIdle call rest sliceMs pr hstack => exact setRpc_makesNone hstack rfl
  | rpcReads call rest result hstack => exact rpcRead_makesNone hstack result
  | pumpReads rest result hstack => exact pumpRead_makesNone hstack result
  | handlerReturn rest hstack => exact .pop (.inl rfl) hstack rfl
  | pumpEnter args now =>
      refine .stay (.inr ?_) rfl
      rw [State.pumpSlice]
      split
      · next heq => split at heq <;> cases heq
      · rfl
  | keepalive args transaction hpump hstack => exact .push (.inr rfl) hstack rfl rfl
  | keepaliveDone => exact .stay (.inr rfl) rfl
  | pumpStart => exact .stay (.inr rfl) rfl
  | pumpExpires args deadline now => exact absurd rfl (hpump now)
  | pumpGoesOn args deadline now => exact absurd rfl (hpump now)
  | lockPump args deadline sliceMs hpump hstack => exact .push (.inr rfl) hstack rfl rfl
  | flushNext node next rest hstack =>
      have hnew : ∀ x ∈ [.handler, .flush next], Activation.slice x = none := by
        simp [Activation.slice]
      exact ⟨⟨[.flush (node :: next)], [.handler, .flush next], rest, hstack, rfl, hnew⟩, .inl rfl⟩
  | flushEnd rest hstack => exact .replace (.inl rfl) hstack rfl rfl
  | pumpPollFails rest args deadline pr hstack => exact .pop (.inr rfl) hstack rfl
  | pumpReadable rest args deadline hstack => exact .replace (.inl rfl) hstack rfl rfl
  | pumpIdle rest args deadline hstack => exact .pop (.inr rfl) hstack rfl
  | pumpFinish rest now hstack => exact .pop (.inr rfl) hstack rfl

/-- A request that makes a slice waits for it next. -/
theorem rpcSlice_eq {now : Int} (h : step s (.rpcSlice now) = some s') :
    ∃ call rest, s.stack = .rpc call :: rest ∧ s'.pump = s.pump ∧
      s.rpcSlices = rest.filterMap Activation.slice ∧
      s'.rpcSlices = rpcSliceMs (call.deadline - now) :: rest.filterMap Activation.slice := by
  cases step_case h with
  | rpcSlice call rest _ hstack hpc =>
      refine ⟨call, rest, hstack, rfl, ?_, rfl⟩
      have hnone : Activation.slice (.rpc call) = none := by simp [Activation.slice, hpc]
      rw [State.rpcSlices, hstack, List.filterMap_cons_none hnone]

/-- The pump makes its slice of a reading that is before its deadline. -/
theorem pumpTest_eq {now : Int} (h : step s (.pumpTest now) = some s') :
    s'.stack = s.stack ∧ ∀ sliceMs ∈ s'.pumpSlice,
      ∃ remainUs, 0 < remainUs ∧ sliceMs = pumpSliceMs remainUs := by
  cases step_case h with
  | pumpExpires =>
      refine ⟨rfl, ?_⟩
      intro sliceMs hmem
      cases hmem
  | pumpGoesOn args deadline _ hpump hremain =>
      refine ⟨rfl, ?_⟩
      intro sliceMs hmem
      cases hmem
      exact ⟨deadline - now, hremain, rfl⟩

theorem rpcSlice_short {now : Int} (h : step s (.rpcSlice now) = some s') (hs : s.ShortSlices) :
    s'.ShortSlices ↔ MadeInTime s (.rpcSlice now) := by
  obtain ⟨call, rest, hstack, hpump, hbefore, hafter⟩ := rpcSlice_eq h
  have hintime : MadeInTime s (.rpcSlice now) ↔ InTime call.deadline now := by
    rw [MadeInTime, hstack]
    constructor
    · intro h
      exact h call rest rfl
    · rintro h _ _ ⟨⟩
      exact h
  rw [hintime, ← rpcSliceMs_le_iff]
  constructor
  · intro hshort
    apply hshort.rpc
    rw [hafter]
    exact List.mem_cons_self
  · intro hle
    refine ⟨?_, ?_⟩
    · intro sliceMs hmem
      rw [hafter, List.mem_cons, ← hbefore] at hmem
      rcases hmem with rfl | hmem
      · exact hle
      · exact hs.rpc sliceMs hmem
    · intro sliceMs hmem
      rw [State.pumpSlice, hpump] at hmem
      exact hs.pump sliceMs hmem

theorem pumpTest_short {now : Int} (h : step s (.pumpTest now) = some s') (hs : s.ShortSlices) :
    s'.ShortSlices := by
  obtain ⟨hstack, hmade⟩ := pumpTest_eq h
  refine ⟨?_, ?_⟩
  · intro sliceMs hmem
    rw [State.rpcSlices, hstack] at hmem
    exact hs.rpc sliceMs hmem
  · intro sliceMs hmem
    obtain ⟨remainUs, hpos, rfl⟩ := hmade sliceMs hmem
    exact pumpSliceMs_bounds hpos

theorem MakesNone.short (h : MakesNone s s') (hs : s.ShortSlices) : s'.ShortSlices :=
  ⟨fun sliceMs hmem => hs.rpc sliceMs (h.mem_rpcSlices hmem),
    fun sliceMs hmem => hs.pump sliceMs (h.mem_pumpSlice hmem)⟩

/-- A step keeps the slices short if and only if it makes its slice in time. -/
theorem step_short (h : step s a = some s') (hs : s.ShortSlices) :
    s'.ShortSlices ↔ MadeInTime s a := by
  by_cases hrpc : ∃ now, a = .rpcSlice now
  · obtain ⟨now, rfl⟩ := hrpc
    exact rpcSlice_short h hs
  · have hmade : MadeInTime s a := by
      cases a with
      | rpcSlice now => exact absurd ⟨now, rfl⟩ hrpc
      | _ => trivial
    refine iff_of_true ?_ hmade
    by_cases hpump : ∃ now, a = .pumpTest now
    · obtain ⟨now, rfl⟩ := hpump
      exact pumpTest_short h hs
    · -- the other actions make no slice
      apply MakesNone.short _ hs
      exact step_makesNone h (fun now heq => hrpc ⟨now, heq⟩) fun now heq => hpump ⟨now, heq⟩

end Steps

/-! ## Runs -/

/-- The state after a list of actions on a socket that has just been opened, with the clock
    of the last activity as the server thread stored it. -/
def run (lastActivity : Int) (actions : List Action) : Option State :=
  exec step Always { lastActivity } actions

theorem run_concat (lastActivity : Int) (actions : List Action) (a : Action) :
    run lastActivity (actions ++ [a]) = (run lastActivity actions).bind (step · a) := by
  rw [run, Transition.exec_concat, run]
  rfl

/-- In every state of a run the waits are short if and only if no request of the run makes
    a slice too late. -/
theorem slices_short_iff (lastActivity : Int) (actions : List Action) :
    (∀ before after s, actions = before ++ after → run lastActivity before = some s →
        s.ShortSlices) ↔
      ∀ before a after s s', actions = before ++ a :: after → run lastActivity before = some s →
        step s a = some s' → MadeInTime s a := by
  constructor
  · -- the step ends in a state of the run, whose waits are short
    intro h before a after s s' hactions hs hs'
    have hnext : run lastActivity (before ++ [a]) = some s' := by
      rw [run_concat, hs]
      exact hs'
    have hshort := h before (a :: after) s hactions hs
    exact (step_short hs' hshort).mp (h (before ++ [a]) after s' (by simp [hactions]) hnext)
  · -- from the beginning of the run, one step at a time
    intro h before
    induction before using List.reverseRecOn with
    | nil =>
        intro after s _ hs
        cases hs
        exact ⟨nofun, nofun⟩
    | append_singleton before a ih =>
        intro after s' hactions hs'
        rw [run_concat] at hs'
        obtain ⟨s, hs, hstep⟩ := Option.bind_eq_some_iff.mp hs'
        rw [List.append_assoc, List.singleton_append] at hactions
        have hshort := ih (a :: after) s hactions hs
        exact (step_short hstep hshort).mpr (h before a after s s' hactions hs hstep)

/-- The reading of the clock that the action makes. -/
def Action.now : Action → Option Int
  | .write _ now | .rpcTest now | .rpcSlice now | .pumpEnter _ now | .keepaliveDone now
  | .pumpStart now | .pumpTest now | .pumpFinish now => some now
  | _ => none

def Action.timeoutUs : Action → Option Int
  | .lockRpc _ _ timeoutUs => some timeoutUs
  | .pumpEnter args _ => some args.waitUs
  | _ => none

/-- The clock does not go back, and no timeout is negative. -/
structure Clocked (actions : List Action) : Prop where
  now : (actions.filterMap Action.now).Pairwise (· ≤ ·)
  timeout : ∀ a ∈ actions, ∀ timeoutUs ∈ a.timeoutUs, 0 ≤ timeoutUs

/-- A request with a timeout of 10 µs makes its slice 2 ms later. -/
def lateSlice : List Action :=
  [.lockRpc 1 "attach" 10, .write true 0, .rpcTest 5, .rpcSlice 2000]

/-- It waits for 2^32 - 1 ms. -/
theorem lateSlice_long :
    ¬ ∀ (lastActivity : Int) (actions : List Action) (s : State), Clocked actions →
      run lastActivity actions = some s → s.ShortSlices := by
  intro h
  have hslices : (run 0 lateSlice).map State.rpcSlices = some [4294967295] := by decide
  obtain ⟨s, hs, hwait⟩ := Option.map_eq_some_iff.mp hslices
  have hclocked : Clocked lateSlice := ⟨by decide, by decide⟩
  have hshort := (h 0 lateSlice s hclocked hs).rpc 4294967295 (by rw [hwait]; decide)
  exact absurd hshort (by decide)

end ModJanus.Ws
