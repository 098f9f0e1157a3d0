/-
  ModJanus.Poll.SessionLoss

  The server threads, with the calls of `apiPoll` they make.

  A poll that meets the loss of its session and fails in transport takes the thread
  out of its poll loop.  A poll that meets the loss alone returns success, or does
  not return, and the thread goes on polling a session that Janus has forgotten.
-/
import ModJanus.Poll.Cycle
import ModJanus.Server.Lookup

namespace ModJanus

open Transition (Reach Always)

/-! ## A poll -/

/-- What a call of `apiPoll` meets. -/
inductive Poll where
  /-- The body of the answer, if there is one. -/
  | http (response : Option CJson)
  /-- A connection, and what happens from the call of the pump to its return. -/
  | ws (start : Ws.State) (now : Int) (actions : List Ws.Action)

/-- What came of it. -/
structure Outcome where
  status : Status
  /-- Janus has reported the loss of the session. -/
  loss : Bool
  /-- The transport has failed. -/
  failed : Bool
  deriving DecidableEq, Repr

/-- The call of the pump, as far as the actions take it. -/
def wsCycle (sessionId : JanusId) (start : Ws.State) (now : Int) (actions : List Ws.Action) :
    Option Ws.Cycle :=
  (Ws.pumpEnter start (Ws.apiPollArgs sessionId) now).bind fun entered =>
    Transition.exec (Ws.Cycle.step sessionId) Always { state := entered } actions

/-- `apiPoll`, if it returns.  The handlers do not enter into the status. -/
def Poll.outcome (sessionId : JanusId) : Poll → Option Outcome
  | .http response =>
      match apiPollResponse idleHandlers response () with
      | .ok (status, _) =>
          some { status, loss := response.any isJanusError, failed := response.isNone }
      | .error _ => none
  | .ws start now actions =>
      (wsCycle sessionId start now actions).bind fun c =>
        c.state.pump.status.map fun status => { status, loss := c.loss, failed := c.failed }

theorem apiPollResponse_status {σ : Type} (handlers : Handlers σ) (s : σ)
    {response : Option CJson} {r : Status × σ}
    (h : apiPollResponse handlers response s = .ok r) :
    r.1 = if response.isNone then .false else .success := by
  cases response with
  | none =>
      cases h
      rfl
  | some body =>
      simp only [apiPollResponse] at h
      cases hd : dispatchChildren handlers body.children s with
      | error fault =>
          rw [hd] at h
          cases h
      | ok s' =>
          rw [hd] at h
          cases h
          rfl

/-- A poll returns another status than success exactly if its transport fails. -/
theorem outcome_status {sessionId : JanusId} {poll : Poll} {o : Outcome}
    (h : poll.outcome sessionId = some o) : o.status ≠ .success ↔ o.failed = true := by
  cases poll with
  | http response =>
      simp only [Poll.outcome] at h
      split at h
      · next status _ hbody =>
          cases h
          have hstatus := apiPollResponse_status idleHandlers () hbody
          simp only at hstatus
          cases response <;> simp [hstatus]
      · cases h
  | ws start now actions =>
      simp only [Poll.outcome] at h
      obtain ⟨c, hc, h⟩ := Option.bind_eq_some_iff.mp h
      obtain ⟨status, hreturned, rfl⟩ := Option.map_eq_some_iff.mp h
      obtain ⟨entered, henter, hrun⟩ := Option.bind_eq_some_iff.mp hc
      have hentered : Ws.Entered sessionId { state := entered } :=
        ⟨start, now, henter, rfl, rfl⟩
      exact Ws.cycle_status ((Reach.start hentered).exec hrun) hreturned

/-! ## The threads -/

/-- The servers, and which of their threads hold a session that Janus has reported
    lost. -/
structure System where
  servers : Servers.State
  gone : Nat → Bool := fun _ => false

inductive Event where
  /-- `apiPoll` returns to the thread of server `S`. -/
  | polled (S : Nat) (poll : Poll)
  | other (a : Servers.Action)

/-- The return of `apiPoll` has an event of its own. -/
def isPolled : Servers.Action → Bool
  | .server _ (.thread (.polled _)) => true
  | _ => false

/-- The thread of which server has its session confirmed, or gives it up for a new one. -/
def renews : Servers.Action → Option Nat
  | .server S (.thread (.claim .success _)) => some S
  | .server S (.thread (.create _ _)) => some S
  | _ => none

/-- The session id that the thread of server `S` polls. -/
def System.sessionOf (x : System) (S : Nat) : JanusId := (x.servers.servers S).threadServerId

def System.step (x : System) : Event → Option System
  | .polled S poll =>
      (poll.outcome (x.sessionOf S)).bind fun o =>
        (Servers.step x.servers (.server S (.thread (.polled o.status)))).map fun servers =>
          { servers, gone := if o.loss then Function.update x.gone S true else x.gone }
  | .other a =>
      if isPolled a then none
      else (Servers.step x.servers a).map fun servers =>
        { servers
          gone := match renews a with
            | some S => Function.update x.gone S false
            | none => x.gone }

def System.Initial (x : System) : Prop := Servers.Initial x.servers ∧ x.gone = fun _ => false

/-- A poll that meets the loss of its session also fails in transport, and Janus does
    not hand out a session id that a thread holds already. -/
def LossFails (x : System) : Event → Prop
  | .polled S poll => ∀ o ∈ poll.outcome (x.sessionOf S), o.loss = true → o.failed = true
  | .other a => Servers.FreshSession x.servers a

instance (x : System) (e : Event) : Decidable (LossFails x e) := by
  unfold LossFails
  split <;> infer_instance

variable {x x' : System} {e : Event}

/-- The servers of a system are a run of the servers. -/
theorem servers_reach (h : Reach System.step LossFails System.Initial x) :
    Reach Servers.step Servers.FreshSession Servers.Initial x.servers := by
  refine h.simulate System.servers (fun _ h => h) (fun _ h0 => h0.1) ?_
  intro x e x' _ hg hs
  refine .inr ?_
  cases e with
  | polled S poll =>
      obtain ⟨o, -, hs⟩ := Option.bind_eq_some_iff.mp hs
      obtain ⟨servers, hstep, rfl⟩ := Option.map_eq_some_iff.mp hs
      exact ⟨.server S (.thread (.polled o.status)), trivial, hstep⟩
  | other a =>
      simp only [System.step] at hs
      split at hs
      · cases hs
      · obtain ⟨servers, hstep, rfl⟩ := Option.map_eq_some_iff.mp hs
        exact ⟨a, hg, hstep⟩

/-- A thread whose session is gone has no entry. -/
def GoneInv (x : System) : Prop :=
  ∀ S, x.gone S = true → ∀ id, hashFind x.servers.serverIdLookup id ≠ some S

/-- A server without an entry gets one only when its session is renewed. -/
theorem no_entry_step {s s' : Servers.State} {a : Servers.Action} {S : Nat}
    (hnone : ∀ id, hashFind s.serverIdLookup id ≠ some S) (hrenews : renews a ≠ some S)
    (h : Servers.step s a = some s') : ∀ id, hashFind s'.serverIdLookup id ≠ some S := by
  intro id hfind
  cases Servers.step_session h with
  | session T hother hserver hmove =>
      by_cases hT : S = T
      · subst hT
        cases hmove with
        | kept hlookup hserverId hthread hhold => exact hnone id (hlookup ▸ hfind)
        | idle hsubset hhold hthread => exact hnone id (hsubset id S hfind)
        | registered hlookup hhold hid horigin hserverId hhold' =>
            -- only a claim or a creation registers, and both renew the session
            refine hrenews ?_
            rcases horigin with ⟨inserted, hclaim, -⟩ | ⟨inserted, hcreate⟩
            · obtain ⟨U, rfl⟩ := Servers.thread_eq_some hclaim
              rw [(hserver U _ rfl).1]
              rfl
            · obtain ⟨U, rfl⟩ := Servers.thread_eq_some hcreate
              rw [(hserver U _ rfl).1]
              rfl
        | dropped hsubset hnone' hthread => exact hnone id (hsubset id S hfind)
        | forgotten hsubset hserverId hnone' hthread hhold =>
            exact hnone id (hsubset id S hfind)
      · exact hnone id (hmove.other hT hfind)
  | attachFailed T l haction hserver hother hlookup hserverId hthread hhold =>
      exact hnone id (hlookup ▸ hfind)

/-- A failed poll takes the entry of its server away. -/
theorem no_entry_polled {s s' : Servers.State} {S : Nat} {status : Status}
    (hi : Servers.EntryInv s) (hstatus : status ≠ .success)
    (h : Servers.step s (.server S (.thread (.polled status))) = some s') :
    ∀ id, hashFind s'.serverIdLookup id ≠ some S := by
  have hlookup : s'.serverIdLookup =
      (hashDelete s.serverIdLookup (s.servers S).threadServerId).1 := by
    cases Servers.step_case h with
    | added name enabled dynamic haction hstep => rcases haction with heq | heq <;> cases heq
    | server _ _ hS heffect =>
        cases heffect with
        | thread _ v L heffect =>
            cases heffect with
            | polled _ hpc => rw [Servers.polled_failed _ _ _ hstatus]
  intro id hfind
  rw [hlookup] at hfind
  obtain ⟨hne, hbefore⟩ := hashFind_hashDelete_eq_some hfind
  exact hne (hi id S hbefore).1.symm

theorem step_goneInv (hreach : Reach System.step LossFails System.Initial x) (hi : GoneInv x)
    (hg : LossFails x e) (hs : x.step e = some x') : GoneInv x' := by
  cases e with
  | polled S poll =>
      obtain ⟨o, ho, hs⟩ := Option.bind_eq_some_iff.mp hs
      obtain ⟨servers, hstep, rfl⟩ := Option.map_eq_some_iff.mp hs
      intro T hgone
      cases hloss : o.loss with
      | false =>
          -- no loss is met, so `gone` stays as it is
          simp only [hloss, Bool.false_eq_true, if_false] at hgone
          exact no_entry_step (hi T hgone) (by simp [renews]) hstep
      | true =>
          -- the poll has failed in transport, so the thread deletes its entry
          have hfailed := hg o ho hloss
          have hstatus := (outcome_status ho).mpr hfailed
          by_cases hT : T = S
          · subst hT
            exact no_entry_polled (Servers.reach_entryInv (servers_reach hreach)) hstatus hstep
          · simp only [hloss, if_true, Function.update_of_ne hT] at hgone
            exact no_entry_step (hi T hgone) (by simp [renews]) hstep
  | other a =>
      simp only [System.step] at hs
      split at hs
      · cases hs
      · obtain ⟨servers, hstep, rfl⟩ := Option.map_eq_some_iff.mp hs
        intro T hgone
        -- a thread that is still marked has not renewed its session
        have hrenews : renews a ≠ some T ∧ x.gone T = true := by
          cases hr : renews a with
          | none => exact ⟨nofun, by simpa [hr] using hgone⟩
          | some S =>
              simp only [hr] at hgone
              by_cases hT : T = S
              · subst hT
                rw [Function.update_self] at hgone
                cases hgone
              · rw [Function.update_of_ne hT] at hgone
                exact ⟨fun heq => hT (Option.some.inj heq).symm, hgone⟩
        exact no_entry_step (hi T hrenews.2) hrenews.1 hstep

theorem reach_goneInv (h : Reach System.step LossFails System.Initial x) : GoneInv x := by
  refine h.invariant_of (J := Reach System.step LossFails System.Initial) (fun _ h => h) ?_ ?_
  · rintro x ⟨-, hgone⟩ S hS
    rw [hgone] at hS
    cases hS
  · intro x e x' hreach hi hg hs
    exact step_goneInv hreach hi hg hs

/-! ## What becomes of a lost session -/

/-- A poll that an error body answers never returns; a poll that returns and has met the
    loss of its session returns another status than success exactly if its transport
    fails; and in a run where the polls that meet a loss do fail, no thread keeps polling
    a session that Janus has reported lost. -/
theorem loss_detected {σ : Type} (handlers : Handlers σ) (s : σ) :
    (∀ body, isJanusError body = true →
      ¬ ∃ r, apiPollResponse handlers (some body) s = .ok r) ∧
    (∀ (sessionId : JanusId) (poll : Poll) (o : Outcome), poll.outcome sessionId = some o →
      o.loss = true → (o.status ≠ .success ↔ o.failed = true)) ∧
    ∀ x, Reach System.step LossFails System.Initial x → ∀ S,
      (x.servers.servers S).isPolling x.servers.serverIdLookup = true → x.gone S = false := by
  refine ⟨?_, ?_, ?_⟩
  · intro body herror
    exact apiPollResponse_of_error handlers s herror
  · intro sessionId poll o ho _
    exact outcome_status ho
  · intro x h S hpolling
    have hentry := Servers.isPolling_entry (fun _ _ hg => hg) (servers_reach h) hpolling
    rw [← Bool.not_eq_true]
    intro hgone
    exact reach_goneInv h S hgone _ hentry

/-- The error reply to the keepalive `k`. -/
def keepaliveRefused : CJson :=
  .object [("janus", .string "error"), ("transaction", .string "k"),
    ("error", .object [("code", .number (.ofInt 458)), ("reason", .string "No such session")])]

/-- The event that says that session 7 has timed out. -/
def timedOut : CJson := .object [("janus", .string "timeout"), ("session_id", .number (.ofInt 7))]

/-- From the call of the pump, 30 s after the last activity, to the first slice; the
    keepalive is refused. -/
def keepaliveActions : List Ws.Action :=
  [.keepalive "k", .write true 30000000, .rpcTest 30000000, .rpcSlice 30000000,
    .rpcPoll .readable, .read (.text keepaliveRefused), .read .nothing, .rpcTest 30000000,
    .keepaliveDone 30000000, .pumpStart 30000000, .pumpTest 30000000, .lockPump, .flushEnd]

/-- The connection breaks after the refusal. -/
def lostAndBroken : Poll :=
  .ws { lastActivity := 1 } 30000000 (keepaliveActions ++ [.pumpPoll .error])

/-- The connection stays, and another event arrives. -/
def lostAndKept : Poll :=
  .ws { lastActivity := 1 } 30000000
    (keepaliveActions ++ [.pumpPoll .readable, .read .nothing, .pumpFinish 30000000])

/-- The session times out while the pump waits. -/
def timedOutPoll : Poll :=
  .ws {} 0 [.pumpStart 0, .pumpTest 0, .lockPump, .flushEnd, .pumpPoll .readable,
    .read (.text timedOut), .handlerReturn, .read .nothing, .pumpFinish 0]

/-- The server of pod a registers under 7 and polls. -/
def registered : List Event :=
  [.other (.serversAdd "a" true), .other (.server 0 (.thread (.start true))),
    .other (.server 0 (.thread (.outer true))), .other (.server 0 (.thread (.create 7 true))),
    .other (.server 0 (.thread .inner))]

/-- The session is lost with the connection, its claim is refused, and a new one is
    created. -/
def replaced : List Event :=
  registered ++ [.polled 0 lostAndBroken, .other (.server 0 (.thread .inner)),
    .other (.server 0 (.thread (.outer true))),
    .other (.server 0 (.thread (.claim .notInitialized true))),
    .other (.server 0 (.thread (.refuse none))), .other (.server 0 (.thread .inner)),
    .other (.server 0 (.thread (.outer true))), .other (.server 0 (.thread (.create 8 true))),
    .other (.server 0 (.thread .inner))]

theorem loss_detected_replaced :
    (¬ ∃ r, apiPollResponse idleHandlers (some (noSuchSession 7)) () = .ok r) ∧
    (Status.false ≠ .success ↔ true = true) ∧
    ∃ x : System, x.sessionOf 0 = 8 ∧ x.gone 0 = false := by
  have h0 : System.Initial { servers := {} } := ⟨⟨0, rfl⟩, rfl⟩
  obtain ⟨x, hx, hp⟩ := Transition.reach_of_exec System.step LossFails h0 replaced
    (fun x => x.sessionOf 0 = 8 ∧
      (x.servers.servers 0).isPolling x.servers.serverIdLookup = true) (by decide)
  obtain ⟨hsession, hpolling⟩ := of_decide_eq_true hp
  obtain ⟨herror, hpoll, hrun⟩ := loss_detected idleHandlers ()
  exact ⟨herror (noSuchSession 7) (by decide),
    hpoll 7 lostAndBroken ⟨.false, true, true⟩ (by decide) rfl, x, hsession, hrun x hx 0 hpolling⟩

/-- Over HTTP the refusal ends the process; over WebSocket the refused keepalive and the
    timeout event end in success, and the thread polls on. -/
theorem loss_missed :
    (¬ ∀ body, isJanusError body = true →
      ∃ r, apiPollResponse idleHandlers (some body) () = .ok r ∧ r.1 ≠ .success) ∧
    (¬ ∀ (sessionId : JanusId) (poll : Poll) (o : Outcome), poll.outcome sessionId = some o →
      o.loss = true → o.status ≠ .success) ∧
    ¬ ∀ x, Reach System.step Always System.Initial x → ∀ S,
      (x.servers.servers S).isPolling x.servers.serverIdLookup = true → x.gone S = false := by
  refine ⟨?_, ?_, ?_⟩
  · intro hclaim
    obtain ⟨r, hr, -⟩ := hclaim (noSuchSession 7) (by decide)
    have hfault : apiPollResponse idleHandlers (some (noSuchSession 7)) () =
        .error .nullDereference := rfl
    rw [hfault] at hr
    cases hr
  · intro hclaim
    exact hclaim 7 lostAndKept ⟨.success, true, false⟩ (by decide) rfl rfl
  · intro hclaim
    have h0 : System.Initial { servers := {} } := ⟨⟨0, rfl⟩, rfl⟩
    obtain ⟨x, hx, hp⟩ := Transition.reach_of_exec System.step Always h0
      (registered ++ [.polled 0 timedOutPoll])
      (fun x => (x.servers.servers 0).isPolling x.servers.serverIdLookup = true ∧
        x.gone 0 = true) (by decide)
    obtain ⟨hpolling, hgone⟩ := of_decide_eq_true hp
    rw [hclaim x hx 0 hpolling] at hgone
    cases hgone

end ModJanus
