/-
  ModJanus.Poll.Transports

  The two transports deliver the same events.

  Over HTTP Janus packs the events of a session into the arrays that answer the long
  polls.  On a WebSocket each event is a frame of its own, between the replies to the
  requests of any thread, and may be put off while such a reply is waited for.
  `transports_agree` compares the two on the same events: the handlers end in the same
  state, and a frame that one of them could not dispatch is one for the other too.
-/
import ModJanus.Ws.Order

namespace ModJanus

variable {σ : Type} {handlers : Handlers σ}

/-! ## HTTP -/

/-- One long poll after the other, each with the body that it got. -/
def httpPolls (handlers : Handlers σ) : List CJson → σ → Except Fault σ
  | [], s => .ok s
  | body :: bodies, s => do
      let (_, s) ← apiPollResponse handlers (some body) s
      httpPolls handlers bodies s

theorem dispatchChildren_append (events more : List CJson) (s : σ) :
    dispatchChildren handlers (events ++ more) s
      = (dispatchChildren handlers events s).bind (dispatchChildren handlers more) := by
  induction events generalizing s with
  | nil => rfl
  | cons event events ih =>
      simp only [List.cons_append, dispatchChildren]
      cases apiDispatchPollEvent handlers event s with
      | error fault => rfl
      | ok r => exact ih r.2

/-- How the events are spread over the polls makes no difference. -/
theorem httpPolls_eq (bodies : List CJson) (s : σ) :
    httpPolls handlers bodies s
      = dispatchChildren handlers (bodies.flatMap CJson.children) s := by
  induction bodies generalizing s with
  | nil => rfl
  | cons body bodies ih =>
      rw [List.flatMap_cons, dispatchChildren_append, httpPolls, apiPollResponse]
      cases dispatchChildren handlers body.children s with
      | error fault => rfl
      | ok s' => exact ih s'

/-! ## WebSocket -/

namespace Ws

open Transition (Reach)

/-- Janus answers each request once, and a drain of the pump finds nothing put off. -/
def Regular (s : State) (a : Action) : Prop := AnswersOnce s a ∧ NothingPutOff s a

instance (s : State) (a : Action) : Decidable (Regular s a) :=
  inferInstanceAs (Decidable (_ ∧ _))

/-- The frames that were read and not handed to a request, in the order of arrival. -/
def State.events (s : State) : List CJson :=
  (s.read.zipIdx.filter fun m => decide (m.2 ∉ s.handed.map fun p => p.2.idx)).map Prod.fst

/-- What the handlers make of the frames that were dispatched. -/
def dispatchFrames (handlers : Handlers σ) (frames : List Frame) (s : σ) : Except Fault σ :=
  dispatchChildren handlers (frames.map Frame.root) s

variable {s : State}

theorem delivered_ordered (h : Reach step NothingPutOff Initial s) :
    s.box.delivered.Pairwise fun m n => m.2 < n.2 := by
  refine Mailbox.Reach.ordered (h.simulate State.box (fun s hs => slotInv hs) ?_ ?_)
  · exact fun s h0 => box_initial h0
  · intro s a s' hi hg hs
    rcases step_refines hi (step_effect hs) with heq | ⟨m, hm, hstep⟩
    · exact .inl heq
    · exact .inr ⟨m, hm.inOrder hi hg, hstep⟩

/-- Once nobody holds the mutex and nothing is put off, what was dispatched is every frame
    that answered no request, in the order of arrival. -/
theorem dispatched_eq_events (h : Reach step Regular Initial s) (hidle : s.stack = [])
    (hflushed : s.ctx.deferred = []) : s.dispatched.map Frame.root = s.events := by
  have hslot : s.ctx.rpcResult = none := ((slotInv h).free (by rw [hidle]; rfl)).2
  have hconserved := box_conserved (h.mono fun s a hg => hg.1)
  have hordered := delivered_ordered (h.mono fun s a hg => hg.2)
  have hdelivered := hconserved.delivered_eq hordered (by simp [State.box, hslot])
    (by simp [State.box, hflushed]) (walking_of_idle hidle)
  have htaken : s.box.taken.map Prod.snd = s.handed.map fun p => p.2.idx := by
    simp [State.box, Frame.letter, Function.comp_def]
  have hroots := congrArg (List.map Prod.fst) hdelivered
  rw [Mailbox.Box.events, htaken] at hroots
  rw [State.events, ← show s.box.arrived = s.read from rfl, ← hroots]
  simp [State.box, Frame.letter, Function.comp_def]

/-- A session whose events come in the bodies of long polls and one whose events come as
    frames, in whatever company, end with the same state of the handlers. -/
theorem transports_agree (h : Reach step Regular Initial s) (hidle : s.stack = [])
    (hflushed : s.ctx.deferred = []) (handlers : Handlers σ) (bodies : List CJson)
    (hbodies : bodies.flatMap CJson.children = s.events) (s₀ : σ) :
    dispatchFrames handlers s.dispatched s₀ = httpPolls handlers bodies s₀ := by
  rw [httpPolls_eq, hbodies, dispatchFrames, dispatched_eq_events h hidle hflushed]

/-- The report that was put off is dispatched by the next slice, which then waits in
    vain. -/
def settled : List Action :=
  putOff ++ nextSlice ++ [.handlerReturn, .flushEnd, .pumpPoll .idle]

/-- Handlers that note the legs that they are called for. -/
def noting : Handlers (List JanusId) where
  joined _ senderId _ _ s := (.success, s ++ [senderId])
  accepted _ senderId _ s := (.success, s ++ [senderId])
  trickle _ senderId _ s := (.success, s ++ [senderId])
  answerOnWebrtcup := none
  answered _ senderId s := (.success, s ++ [senderId])
  hungup _ senderId _ s := (.success, s ++ [senderId])
  participant := none

theorem transports_agree_settled :
    ∃ s, Reach step Regular Initial s ∧ s.dispatched.map Frame.idx = [0, 1] ∧
      (dispatchFrames noting s.dispatched []).toOption = some [2] ∧
      dispatchFrames noting s.dispatched []
        = httpPolls noting (s.events.map fun event => .array [event]) [] := by
  have h0 : Initial {} := ⟨0, rfl⟩
  obtain ⟨s, hs, hp⟩ := Transition.reach_of_exec step Regular h0 settled
    (fun s => s.stack.isEmpty && (s.ctx.deferred.isEmpty &&
      (s.dispatched.map Frame.idx == [0, 1] &&
        (dispatchFrames noting s.dispatched []).toOption == some [2]))) (by decide)
  simp only [Bool.and_eq_true, List.isEmpty_iff, beq_iff_eq] at hp
  obtain ⟨hidle, hflushed, hidx, hlegs⟩ := hp
  refine ⟨s, hs, hidx, hlegs, transports_agree hs hidle hflushed noting _ ?_ []⟩
  rw [List.flatMap_map]
  exact List.flatMap_singleton' s.events

end Ws

end ModJanus
