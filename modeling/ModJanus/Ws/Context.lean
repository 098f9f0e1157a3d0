/-
  ModJanus.Ws.Context

  `janus_ws_ctx_t` of janus_ws.c and the helpers that route one text frame: the
  reply of the request in flight goes into the result slot, any other frame is
  dispatched or, while a request waits for its reply, put off.

  A frame is kept together with its position among the text frames read from the
  socket.  The position is not in the source; it tells apart two frames with the
  same text, and the order in which frames arrived.
-/
import ModJanus.Api.Dispatch

namespace ModJanus.Ws

/-- A text frame that parsed, with its position on the socket. -/
structure Frame where
  idx : Nat
  root : CJson

/-- The fields of `janus_ws_ctx_t` that `io_mutex` protects: the request in
    flight, its result, and the list from `deferred_head` to `deferred_tail`. -/
structure Ctx where
  rpcTxn : Option String := none
  rpcResult : Option Frame := none
  deferred : List Frame := []

/-- `janus_ws_defer_event`, with an allocation that succeeds. -/
def janusWsDeferEvent (ctx : Ctx) (root : Frame) : Ctx :=
  { ctx with deferred := ctx.deferred ++ [root] }

/-- The transaction a frame answers: a string, in a message of one of the three
    types that end a request. -/
def replyTo (root : CJson) : Option String :=
  match valuestring (getObjectItem (some root) "transaction"),
    valuestring (getObjectItem (some root) "janus") with
  | some txn, some jt =>
      if jt = "success" ∨ jt = "ack" ∨ jt = "error" then some txn else none
  | _, _ => none

/-- `janus_ws_match_rpc_reply`: the context with the result stored, or null when
    the frame is not the reply of the request in flight. -/
def janusWsMatchRpcReply (ctx : Ctx) (root : Frame) : Option Ctx :=
  match ctx.rpcTxn with
  | none => none
  | some rpcTxn =>
      if replyTo root.root = some rpcTxn then some { ctx with rpcResult := some root } else none

@[simp] theorem janusWsDeferEvent_rpcResult (ctx : Ctx) (root : Frame) :
    (janusWsDeferEvent ctx root).rpcResult = ctx.rpcResult := rfl

@[simp] theorem janusWsDeferEvent_deferred (ctx : Ctx) (root : Frame) :
    (janusWsDeferEvent ctx root).deferred = ctx.deferred ++ [root] := rfl

/-- A match stores the frame, which answers the transaction in flight. -/
theorem janusWsMatchRpcReply_eq_some {ctx ctx' : Ctx} {root : Frame}
    (h : janusWsMatchRpcReply ctx root = some ctx') :
    ctx' = { ctx with rpcResult := some root } ∧
      ∃ txn, ctx.rpcTxn = some txn ∧ replyTo root.root = some txn := by
  unfold janusWsMatchRpcReply at h
  cases htxn : ctx.rpcTxn with
  | none => simp [htxn] at h
  | some txn =>
      simp only [htxn] at h
      split at h
      · next hreply =>
          cases h
          exact ⟨rfl, txn, rfl, hreply⟩
      · cases h

/-- A reply carries its transaction and one of the three types. -/
theorem replyTo_eq_some {root : CJson} {txn : String} (h : replyTo root = some txn) :
    valuestring (getObjectItem (some root) "transaction") = some txn ∧
      ∃ jt, valuestring (getObjectItem (some root) "janus") = some jt ∧
        (jt = "success" ∨ jt = "ack" ∨ jt = "error") := by
  unfold replyTo at h
  split at h
  · next ht hj =>
      split at h
      · next hjt =>
          cases h
          exact ⟨ht, _, hj, hjt⟩
      · cases h
  · cases h

/-! ## One frame through the drain, one list through the flush -/

variable {σ : Type}

/-- What `janus_ws_drain` does with a text frame that parses.  `dispatch` is null
    while a request waits for its reply. -/
def drainFrame (dispatch : Option (Handlers σ)) (ctx : Ctx) (root : Frame) (s : σ) :
    Except Fault (Ctx × σ) :=
  match janusWsMatchRpcReply ctx root with
  | some ctx' => .ok (ctx', s)
  | none =>
      match dispatch with
      | some handlers => do
          let (_, s) ← apiDispatchPollEvent handlers root.root s
          return (ctx, s)
      | none => .ok (janusWsDeferEvent ctx root, s)

/-- The loop of `janus_ws_flush_deferred` over the list it has detached. -/
def flushDeferred (dispatch : Option (Handlers σ)) : List Frame → σ → Except Fault σ
  | [], s => .ok s
  | node :: next, s =>
      match dispatch with
      | some handlers => do
          let (_, s) ← apiDispatchPollEvent handlers node.root s
          flushDeferred dispatch next s
      | none => flushDeferred dispatch next s

/-- A frame gets through the drain unless it is dispatched and cannot be. -/
theorem drainFrame_ok_iff (dispatch : Option (Handlers σ)) (ctx : Ctx) (root : Frame) (s : σ) :
    (∃ r, drainFrame dispatch ctx root s = .ok r) ↔
      (dispatch.isSome = true → janusWsMatchRpcReply ctx root = none → Dispatchable root.root) := by
  unfold drainFrame
  cases hm : janusWsMatchRpcReply ctx root with
  | some ctx' => simp
  | none =>
      cases dispatch with
      | none => simp
      | some handlers =>
          simp only [Option.isSome_some, forall_const]
          -- not a reply, so it is dispatched
          rw [← apiDispatchPollEvent_ok_iff handlers root.root s]
          cases apiDispatchPollEvent handlers root.root s with
          | error fault => simp [bind, Except.bind]
          | ok r => simp [bind, Except.bind, pure, Except.pure]

/-- The flush gets to the end of the list exactly when every frame on it can be
    dispatched. -/
theorem flushDeferred_ok_iff (handlers : Handlers σ) (nodes : List Frame) (s : σ) :
    (∃ r, flushDeferred (some handlers) nodes s = .ok r) ↔
      ∀ node ∈ nodes, Dispatchable node.root := by
  induction nodes generalizing s with
  | nil => simp [flushDeferred]
  | cons node next ih =>
      rw [List.forall_mem_cons, ← apiDispatchPollEvent_ok_iff handlers node.root s]
      cases hd : apiDispatchPollEvent handlers node.root s with
      | error fault => simp [flushDeferred, hd, bind, Except.bind]
      | ok r => simp [flushDeferred, hd, bind, Except.bind, ih]

end ModJanus.Ws
