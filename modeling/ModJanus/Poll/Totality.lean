/-
  ModJanus.Poll.Totality

  Which input a poll survives.

  `apiPoll` hands every child of the body to `api_dispatch_poll_event`, and the
  drain every text frame that is not a reply.  The dispatch tests each string
  before it uses it, with one exception: the type of the message, which `decode`
  leaves null when there is no `janus` member.  The body with which Janus refuses a
  session is an object, so that its members are dispatched one by one, and none of
  them has a type.
-/
import ModJanus.Ws.Context

namespace ModJanus

/-- The body with which Janus refuses a poll of a session it does not know. -/
def noSuchSession (sessionId : Int) : CJson :=
  .object [("janus", .string "error"), ("session_id", .number (.ofInt sessionId)),
    ("transaction", .string "poll"),
    ("error", .object [("code", .number (.ofInt 458)), ("reason", .string "No such session")])]

/-- Handlers without a state. -/
def idleHandlers : Handlers Unit where
  joined _ _ _ _ _ := (.success, ())
  accepted _ _ _ _ := (.success, ())
  trickle _ _ _ _ := (.success, ())
  answerOnWebrtcup := some fun _ _ _ => false
  answered _ _ _ := (.success, ())
  hungup _ _ _ _ := (.success, ())
  participant := some fun _ _ _ _ _ _ => (.success, ())

variable {σ : Type}

/-- A body, a frame and a deferred list get through the dispatch exactly when
    everything in them that is dispatched has a type or fails a type check of
    `decode`. -/
theorem poll_total_iff (handlers : Handlers σ) (s : σ) :
    (∀ body, (∃ r, apiPollResponse handlers (some body) s = .ok r) ↔
      ∀ pEvent ∈ body.children, Dispatchable pEvent) ∧
    (∀ dispatch ctx frame, (∃ r, Ws.drainFrame dispatch ctx frame s = .ok r) ↔
      (dispatch.isSome = true → Ws.janusWsMatchRpcReply ctx frame = none →
        Dispatchable frame.root)) ∧
    ∀ nodes, (∃ r, Ws.flushDeferred (some handlers) nodes s = .ok r) ↔
      ∀ node ∈ nodes, Dispatchable node.root := by
  refine ⟨?_, ?_, ?_⟩
  · intro body
    exact apiPollResponse_ok_iff handlers body s
  · intro dispatch ctx frame
    exact Ws.drainFrame_ok_iff dispatch ctx frame s
  · intro nodes
    exact Ws.flushDeferred_ok_iff handlers nodes s

/-- The refusal of a session ends the process on the first member of the body, and
    so does a frame that is an empty object. -/
theorem poll_not_total :
    (¬ ∀ body, ∃ r, apiPollResponse idleHandlers (some body) () = .ok r) ∧
    ¬ ∀ root, ∃ r, Ws.drainFrame (some idleHandlers) {} ⟨0, root⟩ () = .ok r := by
  refine ⟨?_, ?_⟩
  · intro hall
    obtain ⟨r, hr⟩ := hall (noSuchSession 1)
    have hfault : apiPollResponse idleHandlers (some (noSuchSession 1)) () =
        .error .nullDereference := rfl
    rw [hfault] at hr
    cases hr
  · intro hall
    obtain ⟨r, hr⟩ := hall (.object [])
    have hfault : Ws.drainFrame (some idleHandlers) {} ⟨0, .object []⟩ () =
        .error .nullDereference := rfl
    rw [hfault] at hr
    cases hr

end ModJanus
