/-
  ModJanus.Ws.Order

  The order in which frames are dispatched.

  Frames reach `api_dispatch_poll_event` from the deferred list, which the pump
  flushes before it polls, and directly from its drain.  A frame that the drain
  dispatches overtakes what a nested request of an earlier handler put off during
  the same drain (`dispatch_overtakes`).  As long as that does not happen, frames
  are dispatched in the order of arrival: every step is an in-order move of the
  mailbox that the machine refines.
-/
import ModJanus.Ws.Conservation

namespace ModJanus.Ws

open Transition (Reach Always)

/-- The pump is in `janus_ws_drain`, and no handler is running. -/
def State.pumpDrains (s : State) : Bool :=
  match s.stack with
  | .pumpDrain :: _ => true
  | _ => false

/-- A frame that the drain of the pump reads finds the deferred list empty. -/
def NothingPutOff (s : State) (a : Action) : Prop :=
  a.text.isSome = true → s.pumpDrains = true → s.ctx.deferred.isEmpty = true

instance (s : State) (a : Action) : Decidable (NothingPutOff s a) :=
  inferInstanceAs (Decidable
    (a.text.isSome = true → s.pumpDrains = true → s.ctx.deferred.isEmpty = true))

/-- Then the moves that the machine makes are in order. -/
theorem MoveOf.inOrder {s : State} {a : Action} {m : Mailbox.Move CJson} (h : MoveOf s a m)
    (hi : SlotInv s) (hg : NothingPutOff s a) : Mailbox.InOrder s.box m := by
  cases m with
  | deliver root =>
      obtain ⟨rfl, rest, hstack⟩ := h
      have hdrains : s.pumpDrains = true := by rw [State.pumpDrains, hstack]
      have hdeferred : s.ctx.deferred = [] := List.isEmpty_iff.mp (hg rfl hdrains)
      -- nothing is below the pump, so no flush is going on either
      have hnest := hi.nesting
      rw [hstack] at hnest
      have hrest : rest = [] := hnest.pump_bottom trivial
      refine ⟨?_, ?_⟩
      · simp [State.box, hdeferred]
      · simp [State.box, State.detached, hstack, hrest, Activation.detached]
  | detach => exact walking_of_idle h
  | take => trivial
  | defer root => trivial
  | reply root => trivial
  | walk => trivial

/-- In every run whose drains find nothing put off, frames are dispatched in the
    order in which they arrived. -/
theorem dispatched_in_order {s : State} (h : Reach step NothingPutOff Initial s) :
    s.dispatched.Pairwise fun e₁ e₂ => e₁.idx < e₂.idx := by
  have hbox : Reach Mailbox.step Mailbox.InOrder Mailbox.Empty s.box := by
    refine h.simulate State.box (fun s hs => slotInv hs) ?_ ?_
    · intro s h0
      exact box_initial h0
    · intro s a s' hi hg hs
      rcases step_refines hi (step_effect hs) with heq | ⟨m, hm, hstep⟩
      · exact .inl heq
      · exact .inr ⟨m, hm.inOrder hi hg, hstep⟩
  have hordered : (s.dispatched.map Frame.letter).Pairwise fun m n => m.2 < n.2 :=
    Mailbox.Reach.ordered hbox
  rw [List.pairwise_map] at hordered
  exact hordered

/-- The request that the handler of the `joined` event makes reads the report of a
    participant, which is put off, and its reply; then the handler returns. -/
def putOff : List Action :=
  nestedRequest ++
    [.read (.text (setupEvent 1 2 [.string "a"])), .read (.text (reply "ack" "configure")),
      .read .nothing, .rpcTest 0, .handlerReturn]

/-- The `hangup` event of a leg. -/
def hangupEvent (serverId senderId : Int) : CJson :=
  .object [("janus", .string "hangup"), ("session_id", .number (.ofInt serverId)),
    ("sender", .number (.ofInt senderId)), ("reason", .string "DTLS alert")]

/-- The drain of the pump ends, and the next slice begins to flush. -/
def nextSlice : List Action :=
  [.read .nothing, .pumpFinish 0, .pumpEnter ⟨1, 60000000, 0⟩ 0, .pumpStart 0, .pumpTest 0,
    .lockPump, .flushNext]

theorem dispatched_in_order_twoEvents :
    ∃ s, Reach step NothingPutOff Initial s ∧ s.dispatched.map Frame.idx = [0, 1] ∧
      s.dispatched.Pairwise fun e₁ e₂ => e₁.idx < e₂.idx := by
  have h0 : Initial {} := ⟨0, rfl⟩
  obtain ⟨s, hs, hp⟩ := Transition.reach_of_exec step NothingPutOff h0
    (putOff ++ nextSlice) (fun s => s.dispatched.map Frame.idx == [0, 1]) (by decide)
  exact ⟨s, hs, eq_of_beq hp, dispatched_in_order hs⟩

/-- When the drain goes on to read the `hangup` event, it dispatches it before the
    report that was put off. -/
theorem dispatch_overtakes :
    ¬ ∀ s, Reach step Always Initial s → s.dispatched.Pairwise fun e₁ e₂ => e₁.idx < e₂.idx := by
  intro hall
  have h0 : Initial {} := ⟨0, rfl⟩
  obtain ⟨s, hs, hp⟩ := Transition.reach_of_exec step Always h0
    (putOff ++ [.read (.text (hangupEvent 1 2)), .handlerReturn] ++ nextSlice)
    (fun s => s.dispatched.map Frame.idx == [0, 3, 1]) (by decide)
  have hidx : s.dispatched.map Frame.idx = [0, 3, 1] := eq_of_beq hp
  have hsorted : (s.dispatched.map Frame.idx).Pairwise (· < ·) :=
    List.pairwise_map.mpr (hall s hs)
  rw [hidx] at hsorted
  exact absurd hsorted (by decide)

end ModJanus.Ws
