/-
  ModJanus.Ws.Conservation

  No frame is lost and none is dispatched twice.

  The machine refines the mailbox of `Lib.Mailbox`: the result slot is its slot,
  the deferred list its queue, and the list that `janus_ws_flush_deferred` has
  detached its walk (`step_refines`).  The mailbox conserves messages as long as no
  reply finds the slot taken; here one never does, because the frame in the slot
  would have answered the same transaction.
-/
import ModJanus.Lib.Mailbox
import ModJanus.Ws.Slot

namespace ModJanus.Ws

open Transition (Reach)
open Mailbox (Box)

/-! ## The machine as a mailbox -/

/-- A frame as a message of the mailbox. -/
def Frame.letter (f : Frame) : CJson × Nat := (f.root, f.idx)

/-- The list that an activation of `janus_ws_flush_deferred` still has to walk. -/
def Activation.detached : Activation → List Frame
  | .flush node => node
  | _ => []

/-- The frames that `janus_ws_flush_deferred` has detached and not yet reached. -/
def State.detached (s : State) : List Frame := s.stack.flatMap Activation.detached

def State.box (s : State) : Box CJson where
  arrived := s.read
  slot := s.ctx.rpcResult.map Frame.letter
  taken := s.handed.map fun p => p.2.letter
  queue := s.ctx.deferred.map Frame.letter
  walking := s.detached.map Frame.letter
  delivered := s.dispatched.map Frame.letter

theorem box_initial {s : State} (h : Initial s) : Mailbox.Empty s.box := by
  obtain ⟨lastActivity, rfl⟩ := h
  rfl

/-- Two states whose context, detached list and records agree are one mailbox. -/
theorem box_congr {s s' : State} (hslot : s'.ctx.rpcResult = s.ctx.rpcResult)
    (hqueue : s'.ctx.deferred = s.ctx.deferred) (hwalk : s'.detached = s.detached)
    (hread : s'.read = s.read) (hhanded : s'.handed = s.handed)
    (hdispatched : s'.dispatched = s.dispatched) : s'.box = s.box := by
  simp only [State.box, hslot, hqueue, hwalk, hread, hhanded, hdispatched]

theorem StackMove.detached {ctx : Ctx} {stack stack' : List Activation}
    (h : StackMove ctx stack stack') :
    stack'.flatMap Activation.detached = stack.flatMap Activation.detached := by
  cases h with
  | stay => rfl
  | call call rest hrest hpc => rfl
  | advance call call' rest hpc hpc' htxn => rfl
  | notSent call rest hpc => rfl
  | handlerReturn rest => rfl
  | flushed rest => rfl
  | readable rest => rfl
  | drained rest => rfl
  | unlock a rest ha => rcases ha with rfl | rfl | rfl <;> rfl

/-- What the machine is doing when the mailbox makes a move. -/
def MoveOf (s : State) (a : Action) : Mailbox.Move CJson → Prop
  | .reply root =>
      a = .read (.text root) ∧ ∃ txn, s.ctx.rpcTxn = some txn ∧ replyTo root = some txn
  | .detach => s.stack = []
  | .deliver root => a = .read (.text root) ∧ ∃ rest, s.stack = .pumpDrain :: rest
  | _ => True

/-- One step of the machine is at most one move of the mailbox. -/
theorem step_refines {s s' : State} {a : Action} (hi : SlotInv s) (h : Effect s a s') :
    s'.box = s.box ∨ ∃ m, MoveOf s a m ∧ Mailbox.step s.box m = some s'.box := by
  cases h with
  | move hmove hctx hread hhanded hdispatched =>
      refine .inl (box_congr ?_ ?_ hmove.detached hread hhanded hdispatched)
      · rw [hctx]
      · rw [hctx]
  | install call call' rest hstack hpc hstack' hpc' htxn hctx hread hhanded hdispatched =>
      -- the slot is free, so that emptying it loses nothing
      have hfree := hi.free (by rw [hstack, inFlight_write hpc])
      have hwalk : s'.detached = s.detached := by
        simp only [State.detached, hstack, hstack']
        rfl
      refine .inl (box_congr ?_ ?_ hwalk hread hhanded hdispatched)
      · rw [hctx, hfree.2]
      · rw [hctx]
  | finish call rest hstack hpc hstack' hctx hread hhanded hdispatched =>
      have hwalk : s'.detached = s.detached := by
        simp only [State.detached, hstack, hstack']
        rfl
      refine .inr ⟨.take, trivial, ?_⟩
      simp only [State.box, Mailbox.step, hwalk, hctx, hread, hhanded, hdispatched]
      -- a request that gives up takes an empty slot
      cases s.ctx.rpcResult <;> simp
  | detach hstack hstack' hctx hread hhanded hdispatched =>
      have hwalk : s'.detached = s.ctx.deferred := by
        simp [State.detached, hstack', Activation.detached]
      refine .inr ⟨.detach, hstack, ?_⟩
      simp only [State.box, Mailbox.step, hwalk, hctx, hread, hhanded, hdispatched]
      rfl
  | flushNext node next rest hstack hstack' hctx hread hhanded hdispatched =>
      have hbefore : s.detached = node :: (next ++ rest.flatMap Activation.detached) := by
        simp [State.detached, hstack, Activation.detached]
      have hafter : s'.detached = next ++ rest.flatMap Activation.detached := by
        simp [State.detached, hstack', Activation.detached]
      refine .inr ⟨.walk, trivial, ?_⟩
      simp [State.box, Mailbox.step, hbefore, hafter, hctx, hread, hhanded, hdispatched]
  | reply root ctx ha hm hstack' hctx hread hhanded hdispatched =>
      obtain ⟨rfl, txn, htxn, hreply⟩ := janusWsMatchRpcReply_eq_some hm
      have hwalk : s'.detached = s.detached := by rw [State.detached, hstack', State.detached]
      refine .inr ⟨.reply root, ⟨ha, txn, htxn, hreply⟩, ?_⟩
      simp [State.box, Mailbox.step, Box.next, Frame.letter, hwalk, hctx, hread, hhanded,
        hdispatched]
  | defer root call rest ha hstack hpc hstack' hctx hread hhanded hdispatched =>
      have hwalk : s'.detached = s.detached := by rw [State.detached, hstack', State.detached]
      refine .inr ⟨.defer root, trivial, ?_⟩
      simp [State.box, Mailbox.step, Box.next, Frame.letter, hwalk, hctx, hread, hhanded,
        hdispatched]
  | dispatch root rest ha hstack hstack' hctx hread hhanded hdispatched =>
      have hwalk : s'.detached = s.detached := by
        simp only [State.detached, hstack, hstack']
        rfl
      refine .inr ⟨.deliver root, ⟨ha, rest, hstack⟩, ?_⟩
      simp [State.box, Mailbox.step, Box.next, Frame.letter, hwalk, hctx, hread, hhanded,
        hdispatched]

/-- A mailbox without a call under the mutex walks nothing. -/
theorem walking_of_idle {s : State} (h : s.stack = []) : s.box.walking = [] := by
  simp [State.box, State.detached, h]

/-! ## Conservation -/

/-- Janus answers a request at most once: a frame that answers the request in
    flight is the first that carries its transaction. -/
def AnswersOnce (s : State) (a : Action) : Prop :=
  ∀ root ∈ a.text, s.ctx.rpcTxn ≠ none → replyTo root = s.ctx.rpcTxn →
    ∀ earlier ∈ s.read, replyTo earlier ≠ s.ctx.rpcTxn

instance (s : State) (a : Action) : Decidable (AnswersOnce s a) :=
  inferInstanceAs (Decidable (∀ root ∈ a.text, s.ctx.rpcTxn ≠ none → replyTo root = s.ctx.rpcTxn →
    ∀ earlier ∈ s.read, replyTo earlier ≠ s.ctx.rpcTxn))

/-- When Janus answers once, a reply finds the slot empty. -/
theorem slot_empty_of_answersOnce {s : State} {root : CJson} {txn : String} (hi : SlotInv s)
    (hg : AnswersOnce s (.read (.text root))) (htxn : s.ctx.rpcTxn = some txn)
    (hreply : replyTo root = some txn) : s.ctx.rpcResult = none := by
  cases hr : s.ctx.rpcResult with
  | none => rfl
  | some f =>
      -- the frame in the slot was read earlier and answers the same request
      have hne : s.ctx.rpcTxn ≠ none := (hi.result f hr).2
      have hsame : replyTo f.root = s.ctx.rpcTxn := (hi.result f hr).1.symm
      exact absurd hsame (hg root rfl hne (by rw [hreply, htxn]) f.root (hi.read f hr))

/-- The moves that the machine makes are careful ones. -/
theorem MoveOf.careful {s : State} {a : Action} {m : Mailbox.Move CJson} (h : MoveOf s a m)
    (hi : SlotInv s) (hg : AnswersOnce s a) : Mailbox.Careful s.box m := by
  cases m with
  | reply root =>
      obtain ⟨rfl, txn, htxn, hreply⟩ := h
      have hslot := slot_empty_of_answersOnce hi hg htxn hreply
      simp [Mailbox.Careful, State.box, hslot]
  | detach => exact walking_of_idle h
  | take => trivial
  | defer root => trivial
  | deliver root => trivial
  | walk => trivial

theorem box_conserved {s : State} (h : Reach step AnswersOnce Initial s) :
    Mailbox.Conserved s.box := by
  refine Mailbox.Reach.conserved (h.simulate State.box (fun s hs => slotInv hs) ?_ ?_)
  · intro s h0
    exact box_initial h0
  · intro s a s' hi hg hs
    rcases step_refines hi (step_effect hs) with heq | ⟨m, hm, hbox⟩
    · exact .inl heq
    · exact .inr ⟨m, hm.careful hi hg, hbox⟩

/-- How often the frame at position `i` is counted: as not yet read, in the result
    slot, as a result handed over, on the deferred list, on the detached list, and
    as dispatched. -/
def State.occurrences (s : State) (i : Nat) : Nat :=
  (if s.read.length ≤ i then 1 else 0) +
  (s.ctx.rpcResult.toList.map Frame.idx).count i +
  (s.handed.map fun p => p.2.idx).count i +
  (s.ctx.deferred.map Frame.idx).count i +
  (s.detached.map Frame.idx).count i +
  (s.dispatched.map Frame.idx).count i

/-- The frames that are somewhere. -/
def State.frames (s : State) : List Frame :=
  s.ctx.rpcResult.toList ++ s.handed.map Prod.snd ++ s.ctx.deferred ++ s.detached ++ s.dispatched

theorem places_box (s : State) : s.box.places = s.frames.map Frame.letter := by
  simp only [State.box, Box.places, State.frames, List.map_append, List.map_map]
  cases s.ctx.rpcResult <;> rfl

theorem occurrences_eq (s : State) (i : Nat) :
    s.occurrences i =
      (if s.read.length ≤ i then 1 else 0) + (s.box.places.map Prod.snd).count i := by
  have hidx : s.box.places.map Prod.snd = s.frames.map Frame.idx := by
    rw [places_box, List.map_map]
    rfl
  have htaken : (s.handed.map Prod.snd).map Frame.idx = s.handed.map fun p => p.2.idx := by
    rw [List.map_map]
    rfl
  rw [hidx]
  simp only [State.occurrences, State.frames, List.map_append, List.count_append, htaken]
  omega

/-- In every reached state each position on the socket is in exactly one place,
    exactly once; the frame there is the one that was read at that position; and a
    frame in the slot, or handed over, answers the request it is held for. -/
theorem frame_in_one_place {s : State} (h : Reach step AnswersOnce Initial s) :
    (∀ i, s.occurrences i = 1) ∧
    (∀ f ∈ s.frames, s.read[f.idx]? = some f.root) ∧
    (∀ f, s.ctx.rpcResult = some f →
      ∃ call rest, s.stack = .rpc call :: rest ∧ replyTo f.root = some call.transaction) ∧
    ∀ p ∈ s.handed, replyTo p.2.root = some p.1 := by
  have hi := slotInv h
  have hbox := box_conserved h
  refine ⟨?_, ?_, ?_, hi.handed⟩
  · intro i
    have hcount := hbox.count_position i
    have hlength : s.box.arrived.length = s.read.length := rfl
    -- not yet read, or in one of the places of the mailbox
    rw [occurrences_eq, hcount, hlength]
    split <;> split <;> omega
  · intro f hf
    have hmem : f.letter ∈ s.box.places := by
      rw [places_box]
      exact List.mem_map_of_mem hf
    exact hbox.getElem? hmem
  · intro f hf
    obtain ⟨htxn, hne⟩ := hi.result f hf
    obtain ⟨txn, htxn'⟩ := Option.ne_none_iff_exists'.mp hne
    have hfl : inFlight s.stack = some txn := by rw [← hi.txn, htxn']
    obtain ⟨call, rest, hstack, -, rfl⟩ := inFlight_eq_some hfl
    exact ⟨call, rest, hstack, by rw [← htxn, htxn']⟩

/-- The reply of Janus to a request. -/
def reply (janus transaction : String) : CJson :=
  .object [("janus", .string janus), ("transaction", .string transaction)]

/-- A first request reads two `joined` events and its reply; the pump walks the
    events, and the request of the first handler reads another event and its own
    reply. -/
def everyPlace : List Action :=
  [.lockRpc 1 "attach" 5000000, .write true 0, .rpcTest 0, .rpcSlice 0, .rpcPoll .readable,
    .read (.text (ownJoinedEvent 1 2 1234 (.number (.ofInt 5)))),
    .read (.text (ownJoinedEvent 1 3 1234 (.number (.ofInt 6)))),
    .read (.text (reply "success" "attach")), .read .nothing, .rpcTest 0,
    .pumpEnter ⟨1, 60000000, 0⟩ 0, .pumpStart 0, .pumpTest 0, .lockPump, .flushNext,
    .lockRpc serverThread "configure" 5000000, .write true 0, .rpcTest 0, .rpcSlice 0,
    .rpcPoll .readable, .read (.text (setupEvent 1 2 [.string "a"])),
    .read (.text (reply "ack" "configure"))]

theorem frame_in_one_place_everyPlace :
    ∃ s, Reach step AnswersOnce Initial s ∧
      (s.ctx.rpcResult.isSome ∧ s.handed ≠ [] ∧ s.ctx.deferred ≠ [] ∧ s.detached ≠ [] ∧
        s.dispatched ≠ []) ∧ ∀ i, s.occurrences i = 1 := by
  have h0 : Initial {} := ⟨0, rfl⟩
  obtain ⟨s, hs, hp⟩ := Transition.reach_of_exec step AnswersOnce h0 everyPlace
    (fun s => s.ctx.rpcResult.isSome && !s.handed.isEmpty && !s.ctx.deferred.isEmpty &&
      !s.detached.isEmpty && !s.dispatched.isEmpty) (by decide)
  refine ⟨s, hs, ?_, (frame_in_one_place hs).1⟩
  simpa [and_assoc] using hp

end ModJanus.Ws
