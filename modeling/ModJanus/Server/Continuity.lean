/-
  ModJanus.Server.Continuity

  A thread that loses its connection keeps its session and its legs.

  The id of the session is a local variable of `server_thread_run`; it outlives a failed
  poll, which clears `server_t.serverId` and the entry of `serverIdLookup`, and is what
  the thread claims on its next round.  It is given up when a claim is refused or an
  entry cannot be inserted, and the create branch, which resets the counter, is for a
  thread without an id.
-/
import ModJanus.Api.Response
import ModJanus.Server.Machine

namespace ModJanus.Servers

open Transition (Reach Always)

variable {s s' : State} {S : Nat} {id : JanusId}

/-! ## Lost connections -/

/-- What `apiClaimServerId` returns for a claim that gets no decodable reply, or one that
    says that it succeeded. -/
def ClaimNotRefused (status : Status) : Prop :=
  ∃ (pTransactionId : String) (reply : Option CJson),
    (decode reply = none ∨ Answered "success" pTransactionId reply) ∧
      status = apiClaimServerIdResult pTransactionId reply

/-- Whatever happens, as long as server `S` is not told to terminate and no claim of its
    session is refused, nor the entry for it. -/
def LosesConnection (S : Nat) (s : State) (a : Action) : Prop :=
  (s.servers S).terminating = false ∧
    ∀ status inserted, a = .server S (.thread (.claim status inserted)) →
      ClaimNotRefused status ∧ inserted = true

/-- The thread of server `S` has just got the session `id`. -/
def SessionCreated (S : Nat) (id : JanusId) (s : State) : Prop :=
  id ≠ 0 ∧ ∃ s₀, Reach step Always Initial s₀ ∧
    step s₀ (.server S (.thread (.create id true))) = some s

/-- A step of the thread of server `S` that costs no call: no leg is hung up, the table of
    the legs and the counter stay, and so does the id, under which alone the server is
    registered anew. -/
structure SessionKept (S : Nat) (id : JanusId) (s : State) (a : ThreadAction) (s' : State) :
    Prop where
  hangsUpNone : ∀ senderId, a ≠ .refuse senderId
  senderIdLookup : (s'.servers S).senderIdLookup = (s.servers S).senderIdLookup
  callsInProgress : (s'.servers S).callsInProgress = (s.servers S).callsInProgress
  threadServerId : (s'.servers S).threadServerId = id
  entries : ∀ id', hashFind s'.serverIdLookup id' = some S →
    id' = id ∨ hashFind s.serverIdLookup id' = some S

theorem ClaimNotRefused.cases {status : Status} (h : ClaimNotRefused status) :
    status = .sockErr ∨ status = .success := by
  obtain ⟨pTransactionId, reply, hnone | ⟨pResponse, hdecode, htransaction, htype⟩, rfl⟩ := h
  · left
    rw [apiClaimServerIdResult, hnone]
  · right
    rw [apiClaimServerIdResult, hdecode]
    simp only [htype, htransaction, ne_eq, not_true_eq_false, if_false, if_true]

/-- Both are what a reply can make of a claim. -/
theorem claimNotRefused_iff {status : Status} :
    ClaimNotRefused status ↔ status = .sockErr ∨ status = .success := by
  constructor
  · exact ClaimNotRefused.cases
  · rintro (rfl | rfl)
    · exact ⟨"t", none, .inl rfl, rfl⟩
    · exact ⟨"t", some (.object [("janus", .string "success"), ("transaction", .string "t")]),
        .inr ⟨_, rfl, rfl, rfl⟩, rfl⟩

/-- A step that is not the end of a claim, or of one that is not refused. -/
def Action.claimsWell (S : Nat) : Action → Bool
  | .server T (.thread (.claim status inserted)) =>
      T ≠ S || ((status = .sockErr || status = .success) && inserted)
  | _ => true

theorem losesConnection_iff {a : Action} :
    LosesConnection S s a ↔ (s.servers S).terminating = false ∧ a.claimsWell S = true := by
  refine and_congr_right fun _ => ?_
  constructor
  · intro h
    unfold Action.claimsWell
    split
    · next T status inserted =>
        by_cases hT : T = S
        · subst hT
          obtain ⟨hstatus, hinserted⟩ := h status inserted rfl
          simpa [hinserted] using claimNotRefused_iff.mp hstatus
        · simp [hT]
    · rfl
  · rintro h status inserted rfl
    simpa [Action.claimsWell, claimNotRefused_iff] using h

instance (S : Nat) (s : State) (a : Action) : Decidable (LosesConnection S s a) :=
  decidable_of_iff _ losesConnection_iff.symm

/-! ## The thread -/

/-- Where a thread with a session stands, as long as it is not refused and not told to
    terminate. -/
def ThreadPc.goesOn : ThreadPc → Bool
  | .outer | .connect | .inner | .polling => true
  | _ => false

/-- The create branch is for a thread without an id. -/
theorem create_without_id {v : Server} {L : Hash Nat} {podServerFailMax : Nat}
    {senderIdOf : Nat → Option JanusId} {serverId : JanusId} {inserted : Bool}
    {after : Server × Hash Nat}
    (h : v.threadStep S L podServerFailMax senderIdOf (.create serverId inserted) = some after) :
    v.threadServerId = 0 := by
  simp only [Server.threadStep] at h
  split at h
  · next hcreate => exact hcreate.2
  · cases h

/-- What a round of the loops does to a thread with a session. -/
structure ThreadKept (S : Nat) (a : ThreadAction) (v : Server) (L : Hash Nat) (v' : Server)
    (L' : Hash Nat) : Prop where
  hangsUpNone : ∀ senderId, a ≠ .refuse senderId
  senderIdLookup : v'.senderIdLookup = v.senderIdLookup
  callsInProgress : v'.callsInProgress = v.callsInProgress
  threadServerId : v'.threadServerId = v.threadServerId
  goesOn : v'.pc.goesOn = true
  entries : ∀ id', hashFind L' id' = some S → id' = v.threadServerId ∨ hashFind L id' = some S

theorem threadStep_kept {v v' : Server} {L L' : Hash Nat} {podServerFailMax : Nat}
    {senderIdOf : Nat → Option JanusId} {a : ThreadAction} (hid : v.threadServerId ≠ 0)
    (hpc : v.pc.goesOn = true) (hterminating : v.terminating = false)
    (hclaim : ∀ status inserted, a = .claim status inserted →
      ClaimNotRefused status ∧ inserted = true)
    (h : v.threadStep S L podServerFailMax senderIdOf a = some (v', L')) :
    ThreadKept S a v L v' L' := by
  have hold : ∀ id', hashFind L id' = some S →
      id' = v.threadServerId ∨ hashFind L id' = some S := fun _ => .inr
  have hnotAt : ∀ pc : ThreadPc, pc.goesOn = false → v.pc ≠ pc := by
    rintro pc hstop rfl
    rw [hpc] at hstop
    cases hstop
  cases threadStep_effect h with
  | started force hat => exact absurd hat (hnotAt _ rfl)
  | left opened hat hleft =>
      rw [hterminating] at hleft
      cases hleft
  | opened hat => exact ⟨nofun, rfl, rfl, rfl, rfl, hold⟩
  | notOpened hat => exact ⟨nofun, rfl, rfl, rfl, hpc, hold⟩
  | claimed status inserted hat =>
      obtain ⟨hstatus, rfl⟩ := hclaim status inserted rfl
      rcases hstatus.cases with rfl | rfl
      · exact ⟨nofun, rfl, rfl, rfl, rfl, hold⟩
      · refine ⟨nofun, rfl, rfl, rfl, rfl, fun id' hfind => ?_⟩
        -- the entry is the new one, or was there before
        rcases hashFind_hashInsert_eq_some hfind with ⟨rfl, -⟩ | ⟨-, hfind⟩
        · exact .inl rfl
        · exact .inr hfind
  | hungUp pIndex senderId ofLeg hat => exact absurd hat (hnotAt _ rfl)
  | refused pIndex hat => exact absurd hat (hnotAt _ rfl)
  | createFailed inserted hat => exact absurd (create_without_id h) hid
  | created serverId inserted hat => exact absurd (create_without_id h) hid
  | polling hat => exact ⟨nofun, rfl, rfl, rfl, rfl, hold⟩
  | stopped hat => exact ⟨nofun, rfl, rfl, rfl, rfl, hold⟩
  | polled status hat =>
      by_cases hsuccess : status = .success
      · subst hsuccess
        exact ⟨nofun, rfl, rfl, rfl, rfl, hold⟩
      · rw [polled_failed v L status hsuccess]
        refine ⟨nofun, rfl, rfl, rfl, rfl, fun id' hfind => ?_⟩
        exact .inr (hashFind_hashDelete_eq_some hfind).2
  | sendersDestroyed hat => exact absurd hat (hnotAt _ rfl)
  | entryDeleted hat => exact absurd hat (hnotAt _ rfl)

/-! ## The other parties -/

/-- The thread of server `S` is where it was, with the id that it had. -/
structure ThreadWaits (S : Nat) (s s' : State) : Prop where
  pc : (s'.servers S).pc = (s.servers S).pc
  threadServerId : (s'.servers S).threadServerId = (s.servers S).threadServerId

theorem ThreadWaits.of_eq (h : s'.servers S = s.servers S) : ThreadWaits S s s' :=
  ⟨by rw [h], by rw [h]⟩

theorem ThreadWaits.setServer {T : Nat} {pServer : Server}
    (hservers : s'.servers = (s.setServer T pServer).servers)
    (hpc : pServer.pc = (s.servers T).pc)
    (hid : pServer.threadServerId = (s.servers T).threadServerId) : ThreadWaits S s s' := by
  by_cases hS : S = T
  · subst hS
    refine ⟨?_, ?_⟩
    · rw [hservers, State.setServer_self, hpc]
    · rw [hservers, State.setServer_self, hid]
  · apply ThreadWaits.of_eq
    rw [hservers, State.setServer_ne _ _ hS]

theorem removed_waits (s : State) (S T : Nat) :
    ThreadWaits S s (s.serversDynamicRemoveFromLookup T) := by
  rcases s.serversDynamicRemoveFromLookup_cases T with h | ⟨names, h⟩
  · rw [h]
    exact .of_eq rfl
  · rw [h]
    exact .setServer rfl rfl rfl

theorem CallEffect.waits {l : Nat} {c : Call} {action : CallAction}
    (h : CallEffect s l c action s') : ThreadWaits S s s' := by
  cases h with
  | attachFailed | inserted | counted | hangupDeleted | hangupUncounted =>
      exact .setServer rfl rfl rfl
  | _ => exact .of_eq rfl

/-- A step of a server that is not one of its running thread. -/
theorem ServerEffect.waits {action : ServerAction} (h : ServerEffect s S action s')
    (hpc : (s.servers S).pc.goesOn = true) (hthread : ∀ a, action ≠ .thread a) :
    ThreadWaits S s s' := by
  cases h with
  | thread a v L heffect => exact absurd rfl (hthread a)
  | returned hat | returnedRemoved hat =>
      rw [hat] at hpc
      cases hpc
  | terminated | joined | evicted => exact .setServer rfl rfl rfl
  | removed => exact removed_waits s S S
  | untouched => exact .of_eq rfl

theorem step_waits {a : Action} (hpc : (s.servers S).pc.goesOn = true)
    (hthread : ∀ action, a ≠ .server S (.thread action)) (h : step s a = some s') :
    ThreadWaits S s s' := by
  cases step_case h with
  | added name enabled dynamic haction hstep =>
      unfold State.addServer at hstep
      split at hstep <;> cases hstep
      exact .setServer rfl rfl rfl
  | server T action hT heffect =>
      by_cases hST : S = T
      · subst hST
        apply heffect.waits hpc
        rintro action' rfl
        exact hthread action' rfl
      · exact .of_eq ((serverStep_frame heffect).other S hST)
  | resolved T active hactive hstate =>
      subst hstate
      exact .of_eq rfl
  | call l c action hc heffect => exact heffect.waits

/-! ## Runs -/

/-- The thread of server `S` goes on with the session `id`. -/
def GoesOn (S : Nat) (id : JanusId) (s : State) : Prop :=
  (s.servers S).pc.goesOn = true ∧ (s.servers S).threadServerId = id

theorem SessionCreated.goesOn (h : SessionCreated S id s) : GoesOn S id s := by
  obtain ⟨hid, s₀, -, hstep⟩ := h
  simp only [step] at hstep
  split at hstep
  · obtain ⟨⟨v, L⟩, hthread, rfl⟩ := Option.map_eq_some_iff.mp hstep
    have hself : ({ s₀.setServer S v with serverIdLookup := L } : State).servers S = v :=
      s₀.setServer_self S v
    have hv : v.pc.goesOn = true ∧ v.threadServerId = id := by
      simp only [Server.threadStep] at hthread
      split at hthread
      · cases hthread
        exact ⟨rfl, rfl⟩
      · cases hthread
    rw [← hself] at hv
    exact hv
  · cases hstep

/-- A step of the thread of a server that goes on. -/
theorem thread_kept {a : ThreadAction} (hid : id ≠ 0) (hi : GoesOn S id s)
    (hg : LosesConnection S s (.server S (.thread a)))
    (h : step s (.server S (.thread a)) = some s') :
    SessionKept S id s a s' ∧ (s'.servers S).pc.goesOn = true := by
  obtain ⟨hpc, rfl⟩ := hi
  simp only [step] at h
  split at h
  · obtain ⟨⟨v, L⟩, hthread, rfl⟩ := Option.map_eq_some_iff.mp h
    have hkept := threadStep_kept hid hpc hg.1 (fun status inserted heq => hg.2 status inserted
      (by rw [heq])) hthread
    have hself : ({ s.setServer S v with serverIdLookup := L } : State).servers S = v :=
      s.setServer_self S v
    refine ⟨⟨hkept.hangsUpNone, ?_, ?_, ?_, hkept.entries⟩, ?_⟩
    · rw [hself]
      exact hkept.senderIdLookup
    · rw [hself]
      exact hkept.callsInProgress
    · rw [hself]
      exact hkept.threadServerId
    · rw [hself]
      exact hkept.goesOn
  · cases h

theorem step_goesOn {a : Action} (hid : id ≠ 0) (hi : GoesOn S id s)
    (hg : LosesConnection S s a) (h : step s a = some s') : GoesOn S id s' := by
  by_cases hthread : ∃ action, a = .server S (.thread action)
  · obtain ⟨action, rfl⟩ := hthread
    obtain ⟨hkept, hpc⟩ := thread_kept hid hi hg h
    exact ⟨hpc, hkept.threadServerId⟩
  · have hwaits := step_waits hi.1 (fun action heq => hthread ⟨action, heq⟩) h
    refine ⟨?_, ?_⟩
    · rw [hwaits.pc]
      exact hi.1
    · rw [hwaits.threadServerId]
      exact hi.2

/-- Once the thread has a session, and until it is told to terminate, no step of it costs
    a call, through any loss of the connection. -/
theorem session_kept {a : ThreadAction}
    (h : Reach step (LosesConnection S) (SessionCreated S id) s)
    (hg : LosesConnection S s (.server S (.thread a)))
    (hs : step s (.server S (.thread a)) = some s') : SessionKept S id s a s' := by
  have hgoesOn : id ≠ 0 ∧ GoesOn S id s := by
    refine h.invariant (I := fun s => id ≠ 0 ∧ GoesOn S id s) ?_ ?_
    · exact fun s h0 => ⟨h0.1, h0.goesOn⟩
    · exact fun s a s' hi hg hs => ⟨hi.1, step_goesOn hi.1 hi.2 hg hs⟩
  exact (thread_kept hgoesOn.1 hgoesOn.2 hg hs).1

/-- The thread of pod a is about to ask for a session. -/
def asksForSession : List Action :=
  [.serversAdd "a" true, .server 0 (.thread (.start true)), .server 0 (.thread (.outer true))]

/-- A leg attaches as 11, a poll fails, the connection cannot be opened, and a claim gets no
    reply. -/
def connectionLost : List Action :=
  [.server 0 (.thread .inner), .resolve 0, .call 0 .dial, .call 0 .initLookup,
    .call 0 (.attach 11), .call 0 (.insert true), .call 0 (.createRoom true),
    .call 0 .countServer, .server 0 (.thread (.polled .false)), .server 0 (.thread .inner),
    .server 0 (.thread (.outer false)), .server 0 (.thread (.outer true)),
    .server 0 (.thread (.claim .sockErr true)), .server 0 (.thread .inner),
    .server 0 (.thread (.outer true))]

theorem session_kept_claimed :
    ∃ s s', step s (.server 0 (.thread (.claim .success true))) = some s' ∧
      hashFind (s.servers 0).senderIdLookup 11 = some 0 ∧ (s.servers 0).callsInProgress = 1 ∧
      SessionKept 0 7 s (.claim .success true) s' := by
  have h0 : Initial {} := ⟨0, rfl⟩
  obtain ⟨s₀, hs₀, hp⟩ := Transition.reach_of_exec step Always h0 asksForSession
    (fun s => ((step s (.server 0 (.thread (.create 7 true)))).bind fun s =>
      (Transition.exec step (LosesConnection 0) s connectionLost).bind fun s =>
        (step s (.server 0 (.thread (.claim .success true)))).map fun _ =>
          decide (hashFind (s.servers 0).senderIdLookup 11 = some 0 ∧
            (s.servers 0).callsInProgress = 1 ∧
            LosesConnection 0 s (.server 0 (.thread (.claim .success true))))) = some true)
    (by decide)
  obtain ⟨s₁, hcreate, hrun⟩ := Option.bind_eq_some_iff.mp (of_decide_eq_true hp)
  obtain ⟨s, hrun, hclaim⟩ := Option.bind_eq_some_iff.mp hrun
  obtain ⟨s', hclaim, hs⟩ := Option.map_eq_some_iff.mp hclaim
  obtain ⟨hleg, hcalls, hguard⟩ := of_decide_eq_true hs
  have hcreated : SessionCreated 0 7 s₁ := ⟨by decide, s₀, hs₀, hcreate⟩
  have hreach : Transition.Reach step (LosesConnection 0) (SessionCreated 0 7) s :=
    (Reach.start hcreated).exec hrun
  exact ⟨s, s', hclaim, hleg, hcalls, session_kept hreach hguard hclaim⟩

end ModJanus.Servers
