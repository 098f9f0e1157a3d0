/-
  ModJanus.Ws.Slot

  The single slot for the request in flight.

  `io_mutex` is recursive, so the mutex alone would let a nested request take the
  slot over.  What rules it out is how calls nest (`Nesting`): only a handler makes
  a nested request, only the pump runs handlers, and a request never dispatches.
  A request that has installed its transaction is therefore always the innermost
  call, and the slot is its own until it returns (`SlotInv`).
-/
import ModJanus.Ws.Machine

namespace ModJanus.Ws

open Transition (Reach Always)

/-! ## Nesting -/

/-- The activations of `janus_ws_pump_once` itself. -/
def Activation.ofPump : Activation → Prop
  | .flush _ | .pumpWait | .pumpDrain | .pumpDrained => True
  | .rpc _ | .handler => False

/-- The stacks that `io_mutex` ever protects: a request, or the pump, a handler
    that it runs, and a request of that handler. -/
inductive Nesting : List Activation → Prop where
  | idle : Nesting []
  | call (call : Rpc) : Nesting [.rpc call]
  | pump (a : Activation) : a.ofPump → Nesting [a]
  | handler (a : Activation) : a.ofPump → Nesting [.handler, a]
  | nested (call : Rpc) (a : Activation) : a.ofPump → Nesting [.rpc call, .handler, a]

/-- Below a call of the pump there is nothing. -/
theorem Nesting.pump_bottom {a : Activation} {rest : List Activation} (h : Nesting (a :: rest))
    (ha : a.ofPump) : rest = [] := by
  cases h with
  | call call => cases ha
  | pump a _ => rfl
  | handler b _ => cases ha
  | nested call b _ => cases ha

/-- What a request returns to. -/
theorem Nesting.below_rpc {call : Rpc} {rest : List Activation}
    (h : Nesting (.rpc call :: rest)) : rest = [] ∨ ∃ a, a.ofPump ∧ rest = [.handler, a] := by
  cases h with
  | call call => exact .inl rfl
  | pump a ha => cases ha
  | nested call a ha => exact .inr ⟨a, ha, rfl⟩

/-- What a handler returns to. -/
theorem Nesting.below_handler {rest : List Activation} (h : Nesting (.handler :: rest)) :
    ∃ a, a.ofPump ∧ rest = [a] := by
  cases h with
  | pump a ha => cases ha
  | handler a ha => exact ⟨a, ha, rfl⟩

/-- The pump may be replaced by another of its activations, with or without a
    handler on top. -/
theorem Nesting.ofPump {a : Activation} {rest : List Activation} (h : Nesting (a :: rest))
    (ha : a.ofPump) {b : Activation} (hb : b.ofPump) :
    Nesting rest ∧ Nesting (b :: rest) ∧ Nesting (.handler :: b :: rest) := by
  rw [h.pump_bottom ha]
  exact ⟨.idle, .pump b hb, .handler b hb⟩

/-- Whatever the request on the top of the stack is, and whether it is there. -/
theorem Nesting.ofRpc {call : Rpc} {rest : List Activation} (h : Nesting (.rpc call :: rest))
    (call' : Rpc) : Nesting rest ∧ Nesting (.rpc call' :: rest) := by
  rcases h.below_rpc with hrest | ⟨a, ha, hrest⟩
  · rw [hrest]
    exact ⟨.idle, .call call'⟩
  · rw [hrest]
    exact ⟨.handler a ha, .nested call' a ha⟩

theorem StackMove.nesting {ctx : Ctx} {stack stack' : List Activation}
    (h : StackMove ctx stack stack') (hn : Nesting stack) : Nesting stack' := by
  cases h with
  | stay => exact hn
  | call call rest hrest hpc =>
      -- under an idle mutex, or under a handler, which only the pump runs
      rcases hrest with hrest | ⟨below, hrest⟩
      · rw [hrest]
        exact .call call
      · rw [hrest] at hn ⊢
        obtain ⟨a, ha, hbelow⟩ := hn.below_handler
        rw [hbelow]
        exact .nested call a ha
  | advance call call' rest hpc hpc' htxn => exact (hn.ofRpc call').2
  | notSent call rest hpc => exact (hn.ofRpc call).1
  | handlerReturn rest =>
      obtain ⟨a, ha, hrest⟩ := hn.below_handler
      rw [hrest]
      exact .pump a ha
  | flushed rest => exact (hn.ofPump trivial (b := .pumpWait) trivial).2.1
  | readable rest => exact (hn.ofPump trivial (b := .pumpDrain) trivial).2.1
  | drained rest => exact (hn.ofPump trivial (b := .pumpDrained) trivial).2.1
  | unlock a rest ha =>
      have hpump : a.ofPump := by rcases ha with rfl | rfl | rfl <;> trivial
      exact (hn.ofPump hpump hpump).1

theorem Effect.nesting {s s' : State} {a : Action} (h : Effect s a s') (hn : Nesting s.stack) :
    Nesting s'.stack := by
  cases h with
  | move hmove => exact hmove.nesting hn
  | install call call' rest hstack hpc hstack' =>
      rw [hstack] at hn
      rw [hstack']
      exact (hn.ofRpc call').2
  | finish call rest hstack hpc hstack' =>
      rw [hstack] at hn
      rw [hstack']
      exact (hn.ofRpc call).1
  | detach hstack hstack' =>
      rw [hstack']
      exact .pump _ trivial
  | flushNext node next rest hstack hstack' =>
      rw [hstack] at hn
      rw [hstack']
      exact (hn.ofPump trivial (b := .flush next) trivial).2.2
  | reply root ctx ha hm hstack' =>
      -- the frame goes to the slot, and the stack stays
      rw [hstack']
      exact hn
  | defer root call rest ha hstack hpc hstack' =>
      rw [hstack']
      exact hn
  | dispatch root rest ha hstack hstack' =>
      rw [hstack] at hn
      rw [hstack']
      exact (hn.ofPump trivial (b := .pumpDrain) trivial).2.2

/-! ## The slot -/

/-- The transaction of the innermost call, if that is a request past its write. -/
def inFlight : List Activation → Option String
  | .rpc call :: _ => if call.pc = .write then none else some call.transaction
  | _ => none

@[simp] theorem inFlight_nil : inFlight [] = none := rfl

@[simp] theorem inFlight_handler (rest : List Activation) : inFlight (.handler :: rest) = none :=
  rfl

theorem inFlight_ofPump {a : Activation} (h : a.ofPump) (rest : List Activation) :
    inFlight (a :: rest) = none := by
  cases a with
  | rpc call => cases h
  | handler => cases h
  | flush nodes => rfl
  | pumpWait => rfl
  | pumpDrain => rfl
  | pumpDrained => rfl

theorem inFlight_write {call : Rpc} (h : call.pc = .write) (rest : List Activation) :
    inFlight (.rpc call :: rest) = none := by
  simp [inFlight, h]

theorem inFlight_sent {call : Rpc} (h : call.pc ≠ .write) (rest : List Activation) :
    inFlight (.rpc call :: rest) = some call.transaction := by
  simp [inFlight, h]

/-- Something in flight is the innermost call. -/
theorem inFlight_eq_some {stack : List Activation} {txn : String} (h : inFlight stack = some txn) :
    ∃ call rest, stack = .rpc call :: rest ∧ call.pc ≠ .write ∧ call.transaction = txn := by
  unfold inFlight at h
  split at h
  · next call rest =>
      by_cases hpc : call.pc = .write
      · simp [hpc] at h
      · simp only [hpc, if_false, Option.some.injEq] at h
        exact ⟨call, rest, rfl, hpc, h⟩
  · cases h

/-- When a request returns, none is in flight any more. -/
theorem Nesting.inFlight_below {call : Rpc} {rest : List Activation}
    (h : Nesting (.rpc call :: rest)) : inFlight rest = none := by
  rcases h.below_rpc with hrest | ⟨a, -, hrest⟩
  · rw [hrest, inFlight_nil]
  · rw [hrest, inFlight_handler]

theorem StackMove.inFlight {ctx : Ctx} {stack stack' : List Activation}
    (h : StackMove ctx stack stack') (hn : Nesting stack) :
    Ws.inFlight stack' = Ws.inFlight stack := by
  cases h with
  | stay => rfl
  | call call rest hrest hpc =>
      rw [inFlight_write hpc]
      rcases hrest with hrest | ⟨below, hrest⟩
      · rw [hrest, inFlight_nil]
      · rw [hrest, inFlight_handler]
  | advance call call' rest hpc hpc' htxn => rw [inFlight_sent hpc, inFlight_sent hpc', htxn]
  -- a request whose write failed never had the slot
  | notSent call rest hpc => rw [inFlight_write hpc, hn.inFlight_below]
  | handlerReturn rest =>
      obtain ⟨a, ha, hrest⟩ := hn.below_handler
      rw [hrest, inFlight_ofPump ha, inFlight_handler]
  | flushed rest => rfl
  | readable rest => rfl
  | drained rest => rfl
  | unlock a rest ha =>
      have hpump : a.ofPump := by rcases ha with rfl | rfl | rfl <;> trivial
      rw [hn.pump_bottom hpump, inFlight_ofPump hpump, inFlight_nil]

/-- The slot belongs to the innermost call, and what was put into it or taken out
    of it answers the transaction of its owner. -/
structure SlotInv (s : State) : Prop where
  nesting : Nesting s.stack
  txn : s.ctx.rpcTxn = inFlight s.stack
  result : ∀ f, s.ctx.rpcResult = some f → s.ctx.rpcTxn = replyTo f.root ∧ s.ctx.rpcTxn ≠ none
  read : ∀ f, s.ctx.rpcResult = some f → f.root ∈ s.read
  handed : ∀ p ∈ s.handed, replyTo p.2.root = some p.1

theorem SlotInv.initial {s : State} (h : Initial s) : SlotInv s := by
  obtain ⟨lastActivity, rfl⟩ := h
  exact ⟨.idle, rfl, by simp, by simp, by simp⟩

/-- A slot without an owner is empty. -/
theorem SlotInv.free {s : State} (h : SlotInv s) (hfree : inFlight s.stack = none) :
    s.ctx.rpcTxn = none ∧ s.ctx.rpcResult = none := by
  have htxn : s.ctx.rpcTxn = none := by rw [h.txn, hfree]
  refine ⟨htxn, ?_⟩
  cases hr : s.ctx.rpcResult with
  | none => rfl
  | some f => exact absurd htxn (h.result f hr).2

/-- A step that keeps the content of the slot or empties it, and the results
    handed over, keeps what is known about both. -/
theorem SlotInv.keep {s s' : State} (hi : SlotInv s) (hnesting : Nesting s'.stack)
    (htxn : s'.ctx.rpcTxn = inFlight s'.stack)
    (hresult : s'.ctx.rpcResult = none ∨
      s'.ctx.rpcResult = s.ctx.rpcResult ∧ s'.ctx.rpcTxn = s.ctx.rpcTxn)
    (hread : ∃ more, s'.read = s.read ++ more) (hhanded : s'.handed = s.handed) :
    SlotInv s' := by
  refine ⟨hnesting, htxn, ?_, ?_, ?_⟩
  · intro f hf
    rcases hresult with hnone | ⟨hres, htxn'⟩
    · rw [hnone] at hf
      cases hf
    · rw [hres] at hf
      rw [htxn']
      exact hi.result f hf
  · intro f hf
    obtain ⟨more, hmore⟩ := hread
    rw [hmore]
    rcases hresult with hnone | ⟨hres, -⟩
    · rw [hnone] at hf
      cases hf
    · rw [hres] at hf
      exact List.mem_append_left _ (hi.read f hf)
  · rw [hhanded]
    exact hi.handed

theorem Effect.slotInv {s s' : State} {a : Action} (h : Effect s a s') (hi : SlotInv s) :
    SlotInv s' := by
  have hn := h.nesting hi.nesting
  cases h with
  | move hmove hctx hread hhanded hdispatched =>
      have hfl := hmove.inFlight hi.nesting
      refine hi.keep hn ?_ (.inr ?_) ⟨[], by simp [hread]⟩ hhanded
      · rw [hctx, hfl, hi.txn]
      · rw [hctx]
        exact ⟨rfl, rfl⟩
  | install call call' rest hstack hpc hstack' hpc' htxn hctx hread hhanded hdispatched =>
      -- past its write the request owns the slot, which is emptied for it
      have hne : call'.pc ≠ .write := by rw [hpc']; decide
      refine hi.keep hn ?_ (.inl ?_) ⟨[], by simp [hread]⟩ hhanded
      · rw [hctx, hstack', inFlight_sent hne, htxn]
      · rw [hctx]
  | finish call rest hstack hpc hstack' hctx hread hhanded hdispatched =>
      have hnest := hi.nesting
      rw [hstack] at hnest
      have htxn : s'.ctx.rpcTxn = inFlight s'.stack := by
        rw [hctx, hstack', hnest.inFlight_below]
      refine ⟨hn, htxn, ?_, ?_, ?_⟩
      · rw [hctx]
        intro f hf
        cases hf
      · rw [hctx]
        intro f hf
        cases hf
      · rw [hhanded]
        intro p hp
        rcases List.mem_append.mp hp with hp | hp
        · exact hi.handed p hp
        · -- the result that is handed over answers the owner of the slot
          obtain ⟨f, hf, rfl⟩ := List.mem_map.mp hp
          have hslot := (hi.result f (Option.mem_toList.mp hf)).1
          rw [hi.txn, hstack, inFlight_sent hpc] at hslot
          exact hslot.symm
  | detach hstack hstack' hctx hread hhanded hdispatched =>
      -- nobody holds the mutex, so nobody owns the slot
      have hfree := hi.free (by rw [hstack, inFlight_nil])
      refine hi.keep hn ?_ (.inr ?_) ⟨[], by simp [hread]⟩ hhanded
      · rw [hctx, hstack', inFlight_ofPump (a := .flush _) trivial]
        exact hfree.1
      · rw [hctx]
        exact ⟨rfl, rfl⟩
  | flushNext node next rest hstack hstack' hctx hread hhanded hdispatched =>
      refine hi.keep hn ?_ (.inr ?_) ⟨[], by simp [hread]⟩ hhanded
      · rw [hctx, hstack', inFlight_handler, hi.txn, hstack,
          inFlight_ofPump (a := .flush _) trivial]
      · rw [hctx]
        exact ⟨rfl, rfl⟩
  | reply root ctx ha hm hstack' hctx hread hhanded hdispatched =>
      -- what enters the slot answers the transaction that is there
      obtain ⟨rfl, txn, htxn, hreply⟩ := janusWsMatchRpcReply_eq_some hm
      refine ⟨hn, ?_, ?_, ?_, ?_⟩
      · rw [hctx, hstack']
        exact hi.txn
      · rw [hctx]
        intro f hf
        cases hf
        exact ⟨by rw [hreply]; exact htxn, by simp [htxn]⟩
      · rw [hctx, hread]
        intro f hf
        cases hf
        exact List.mem_append_right _ (List.mem_singleton.mpr rfl)
      · rw [hhanded]
        exact hi.handed
  | defer root call rest ha hstack hpc hstack' hctx hread hhanded hdispatched =>
      refine hi.keep hn ?_ (.inr ?_) ⟨[root], hread⟩ hhanded
      · rw [hctx, hstack']
        exact hi.txn
      · rw [hctx]
        exact ⟨rfl, rfl⟩
  | dispatch root rest ha hstack hstack' hctx hread hhanded hdispatched =>
      refine hi.keep hn ?_ (.inr ?_) ⟨[root], hread⟩ hhanded
      · rw [hctx, hstack', inFlight_handler, hi.txn, hstack,
          inFlight_ofPump (a := .pumpDrain) trivial]
      · rw [hctx]
        exact ⟨rfl, rfl⟩

/-- The slot is in order in every state that is reached. -/
theorem slotInv {guard : State → Action → Prop} {s : State}
    (h : Reach step guard Initial s) : SlotInv s := by
  refine h.invariant (fun s h0 => .initial h0) ?_
  intro s a s' hi _ hs
  exact (step_effect hs).slotInv hi

/-- Frames are dispatched only while the slot is free. -/
theorem Effect.dispatched_eq {s s' : State} {a : Action} (h : Effect s a s') {txn : String}
    (hbusy : inFlight s.stack = some txn) : s'.dispatched = s.dispatched := by
  obtain ⟨call, rest, hstack, -, -⟩ := inFlight_eq_some hbusy
  cases h with
  | move _ _ _ _ hdispatched => exact hdispatched
  | install _ _ _ _ _ _ _ _ _ _ _ hdispatched => exact hdispatched
  | finish _ _ _ _ _ _ _ _ hdispatched => exact hdispatched
  | detach _ _ _ _ _ hdispatched => exact hdispatched
  | flushNext node next rest' hstack' =>
      rw [hstack] at hstack'
      cases hstack'
  | reply _ _ _ _ _ _ _ _ hdispatched => exact hdispatched
  | defer _ _ _ _ _ _ _ _ _ _ hdispatched => exact hdispatched
  | dispatch root rest' ha hstack' =>
      rw [hstack] at hstack'
      cases hstack'

/-- A write step has a request before its write on the top of the stack. -/
theorem rpcWrite_inFlight {s s' : State} {ok : Bool} {now : Int}
    (h : rpcWrite s ok now = some s') : inFlight s.stack = none := by
  unfold rpcWrite at h
  split at h
  · next call rest hstack =>
      split at h
      · next hpc => rw [hstack, inFlight_write hpc]
      · cases h
  · cases h

/-- In every reached state: a request that installs its transaction finds the slot
    empty; while the slot is in use the innermost call is a request, so that no
    handler runs, and no step dispatches; and what callers got answers their own
    transaction. -/
theorem slot_never_shared {s : State} (h : Reach step Always Initial s) :
    (∀ now s', step s (.write true now) = some s' →
      s.ctx.rpcTxn = none ∧ s.ctx.rpcResult = none) ∧
    (s.ctx.rpcTxn ≠ none ∨ s.ctx.rpcResult ≠ none →
      (∃ call rest, s.stack = .rpc call :: rest ∧ s.ctx.rpcTxn = some call.transaction) ∧
      ∀ a s', step s a = some s' → s'.dispatched = s.dispatched) ∧
    ∀ p ∈ s.handed,
      valuestring (getObjectItem (some p.2.root) "transaction") = some p.1 ∧
      ∃ jt, valuestring (getObjectItem (some p.2.root) "janus") = some jt ∧
        (jt = "success" ∨ jt = "ack" ∨ jt = "error") := by
  have hi := slotInv h
  refine ⟨?_, ?_, ?_⟩
  · intro now s' hs
    exact hi.free (rpcWrite_inFlight hs)
  · intro hbusy
    -- a result in the slot has an owner as well
    have htxn : s.ctx.rpcTxn ≠ none := by
      rcases hbusy with htxn | hresult
      · exact htxn
      · obtain ⟨f, hf⟩ := Option.ne_none_iff_exists'.mp hresult
        exact (hi.result f hf).2
    obtain ⟨txn, htxn⟩ := Option.ne_none_iff_exists'.mp htxn
    have hfl : inFlight s.stack = some txn := by rw [← hi.txn, htxn]
    refine ⟨?_, ?_⟩
    · obtain ⟨call, rest, hstack, -, rfl⟩ := inFlight_eq_some hfl
      exact ⟨call, rest, hstack, htxn⟩
    · intro a s' hs
      exact (step_effect hs).dispatched_eq hfl
  · intro p hp
    exact replyTo_eq_some (hi.handed p hp)

/-- A slice of the pump reads the `joined` event of a leg, and the handler sends the
    `configure` request of that leg and waits. -/
def nestedRequest : List Action :=
  [.pumpEnter ⟨1, 60000000, 0⟩ 0, .pumpStart 0, .pumpTest 0, .lockPump, .flushEnd,
    .pumpPoll .readable, .read (.text (ownJoinedEvent 1 2 1234 (.number (.ofInt 5)))),
    .lockRpc serverThread "configure" 5000000, .write true 0, .rpcTest 0, .rpcSlice 0,
    .rpcPoll .readable]

theorem slot_never_shared_nested :
    ∃ s, Reach step Always Initial s ∧ s.ctx.rpcTxn = some "configure" ∧
      (∃ call rest, s.stack = .rpc call :: rest ∧ s.ctx.rpcTxn = some call.transaction) ∧
      ∀ a s', step s a = some s' → s'.dispatched = s.dispatched := by
  have h0 : Initial {} := ⟨0, rfl⟩
  obtain ⟨s, hs, hp⟩ := Transition.reach_of_exec step Always h0 nestedRequest
    (fun s => s.ctx.rpcTxn == some "configure") (by decide)
  have htxn : s.ctx.rpcTxn = some "configure" := eq_of_beq hp
  have hbusy := (slot_never_shared hs).2.1 (.inl (by simp [htxn]))
  exact ⟨s, hs, htxn, hbusy⟩

end ModJanus.Ws
