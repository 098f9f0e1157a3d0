/-
  ModJanus.Leg.Outgoing

  `channel_outgoing_channel` and what it leaves behind when it fails.

  The function runs on a thread of its own.  Each time it reads what other threads
  write, a server's flags and id or one of the two tables, is a step here, and between
  two of them the registry does whatever it can: a console command that stops the
  server, a refresh that evicts it, its thread.  What it holds of FreeSWITCH and of the
  heap is a session and a copy of the dial string.
-/
import ModJanus.Leg.Dial
import ModJanus.Leg.Handlers
import ModJanus.Lib.Transition
import ModJanus.Server.Verify

namespace ModJanus.Outgoing

open Transition (exec Always exec_invariant exec_kept_iff)
open Verify (VerifierPc copyAddress)

/-! ## State -/

/-- The members of `switch_call_cause_t` that `channel_outgoing_channel` returns. -/
inductive DialCause where
  | success
  | destinationOutOfOrder
  | protocolError
  | noRouteDestination
  | outgoingCallBarred
  deriving DecidableEq, Repr

/-- Where `resolveServerForDial` stands.  `mismatch` says that a pod has failed its
    identity check before. -/
inductive ResolvePc where
  /-- Before `serversFind`. -/
  | find (refreshed mismatch : Bool)
  /-- Before `serversRegistryRefresh`. -/
  | refresh (mismatch : Bool)
  /-- In `serversRegistryRefresh`, as caller `c` of the registry. -/
  | refreshing (c : Nat) (mismatch : Bool)
  /-- In `serversVerifyDynamicIdentity`, for server `S`. -/
  | verify (S : Nat) (pc : VerifierPc) (mismatch : Bool)
  /-- In the loop of `waitServerActive`. -/
  | wait (S waited : Nat)
  /-- The id of `S` has been read: before `hashFind`. -/
  | lookUp (S waited : Nat) (serverId : JanusId)
  | result (pServer : Option Nat)
  deriving DecidableEq, Repr

/-- Where `channel_outgoing_channel` stands. -/
inductive Pc where
  | start
  | resolving (pc : ResolvePc)
  /-- Before the test of `SFLAG_ENABLED`. -/
  | testEnabled (S : Nat)
  | enabled (S : Nat)
  | returned (status : DialCause)
  deriving DecidableEq, Repr

/-- The session of the new leg. -/
structure NewSession where
  channelName : String := "janus/"
  techPvt : Option Dial := none
  deriving DecidableEq, Repr

structure State where
  registry : Registry.State
  pc : Pc := .start
  /-- `*new_session`. -/
  newSession : Option NewSession := none
  /-- The copy of the dial string, while it is allocated. -/
  pDialStr : Option (List Char) := none
  pServerName : List Char := []
  /-- What follows the slash. -/
  pCurr : List Char := []

/-- What is outside the module while a step is taken. -/
structure DialEnv where
  sessionRequest : Bool := true
  strdup : Bool := true
  sessionAlloc : Bool := true
  /-- `serversRegistryRefresh` has its settings and an answer of DNS. -/
  refreshes : Bool := true
  now : Nat := 0
  /-- What the pod that is probed reports. -/
  reported : Option String := none
  deriving DecidableEq, Repr

/-- The dialling thread takes a step, or anybody else does. -/
inductive Step where
  | dial (env : DialEnv)
  | other (a : Registry.Action)
  deriving DecidableEq

/-! ## `resolveServerForDial` -/

/-- The timeout of `waitServerActive`, in milliseconds. -/
def SERVER_ACTIVE_TIMEOUT_MS : Nat := 10000

/-- The second section of `serversVerifyDynamicIdentity`. -/
def storeVerified (registry : Registry.State) (S now : Nat) : Registry.State :=
  registry.setServer S
    { registry.servers S with lastVerified := now, connectFailures := 0 }

/-- A step of `resolveServerForDial`; `headless` says that a headless service is
    configured. -/
def resolveStep (headless : Bool) (registry : Registry.State) (pServerName : String)
    (env : DialEnv) : ResolvePc → Option (Registry.State × ResolvePc)
  | .find refreshed mismatch =>
      match registry.pServerNameLookup.lookup pServerName with
      | some S => some (registry, .verify S .start mismatch)
      | none =>
          some (registry, if headless && !refreshed then .refresh mismatch else .result none)
  | .refresh mismatch =>
      if env.refreshes then
        (Registry.step registry .refresh).map fun registry' =>
          (registry', .refreshing registry.callers.length mismatch)
      else some (registry, .find true mismatch)
  | .refreshing c mismatch =>
      if (registry.callers[c]?).any fun x => x.pc = .done then
        some (registry, .find true mismatch)
      else none
  | .verify S .start mismatch =>
      some (registry, .verify S (copyAddress (registry.servers S) env.now) mismatch)
  | .verify S (.probing podIp url) mismatch =>
      some (registry, .verify S
        (VerifierPc.probed (registry.servers S).name podIp url env.reported) mismatch)
  | .verify S (.matched _ _ _) mismatch =>
      some (storeVerified registry S env.now, .verify S .trusted mismatch)
  | .verify S .trusted _ => some (registry, .wait S 0)
  | .verify S .refused mismatch =>
      some (registry,
        if mismatch then .result none
        else if headless then .refresh true
        else .verify S .start true)
  | .wait S waited =>
      some (registry,
        if waited < SERVER_ACTIVE_TIMEOUT_MS then
          .lookUp S waited (registry.servers S).serverId
        else .result none)
  | .lookUp S waited serverId =>
      match if serverId ≠ 0 then hashFind registry.serverIdLookup serverId else none with
      | some pServer => some (registry, .result (some pServer))
      | none => some (registry, .wait S (waited + 100))
  | .result _ => none

/-! ## `channel_outgoing_channel` -/

/-- The label `error`. -/
def State.error (s : State) (status : DialCause) : State :=
  { s with pDialStr := none, newSession := none, pc := .returned status }

/-- Where the function stands once `resolveServerForDial` does. -/
def State.resolved (s : State) : ResolvePc → State
  | .result (some S) => { s with pc := .testEnabled S }
  | .result none => s.error .noRouteDestination
  | pc => { s with pc := .resolving pc }

/-- A piece of memory that ends a string where `sep` was. -/
def cut (front back : List Char) : List Char := front ++ Char.ofNat 0 :: back

section Steps

variable (headless : Bool) (outboundProfile : Option String)

/-- From the request of the session to the first slash. -/
def requestSession (s : State) (env : DialEnv) : State :=
  if !env.sessionRequest then { s with pc := .returned .destinationOutOfOrder }
  else
    match outboundProfile with
    | none => s.error .destinationOutOfOrder
    | some destinationNumber =>
        let s := { s with newSession := some {
          channelName := strncat "janus/" destinationNumber (2048 - 7) } }
        if !env.strdup then s.error .destinationOutOfOrder
        else
          let s := { s with pDialStr := some destinationNumber.toList }
          match strchr destinationNumber.toList '/' with
          | none => s.error .protocolError
          | some (pServerName, pCurr) =>
              { s with
                pc := .resolving (.find false false)
                pDialStr := some (cut pServerName pCurr)
                pServerName := pServerName
                pCurr := pCurr }

/-- From the allocation of `private_t` to the end. -/
def fillSession (s : State) (S : Nat) (env : DialEnv) : State :=
  if !env.sessionAlloc then s.error .destinationOutOfOrder
  else
    match strchr s.pCurr '@' with
    | none => s.error .protocolError
    | some (pDisplay, pRoomIdStr) =>
        let dial : Dial := {
          serverId := (s.registry.servers S).serverId
          pDisplay := String.ofList pDisplay
          pRoomIdStr := String.ofList pRoomIdStr
          roomId := dialledRoomId pRoomIdStr }
        { s with
          registry := { s.registry with
            legs := s.registry.legs ++ [{ serverId := dial.serverId }] }
          newSession := s.newSession.map fun newSession => { newSession with techPvt := some dial }
          pDialStr := none
          pc := .returned .success }

/-- A step of `channel_outgoing_channel`; there is none when it has returned, or waits for
    another thread. -/
def dialStep (s : State) (env : DialEnv) : Option State :=
  match s.pc with
  | .start => some (requestSession outboundProfile s env)
  | .resolving pc =>
      (resolveStep headless s.registry (String.ofList s.pServerName) env pc).map fun next =>
        { s with registry := next.1 }.resolved next.2
  | .testEnabled S =>
      some (if (s.registry.servers S).enabled then { s with pc := .enabled S }
        -- nothing is released here
        else { s with pc := .returned .outgoingCallBarred })
  | .enabled S => some (fillSession s S env)
  | .returned _ => none

def step (s : State) : Step → Option State
  | .dial env => dialStep headless outboundProfile s env
  | .other a => (Registry.step s.registry a).map fun registry => { s with registry := registry }

end Steps

/-! ## What a step can do -/

section Cases

variable (headless : Bool) (outboundProfile : Option String)

/-- Who takes a step, and what it does. -/
inductive StepCase (s s' : State) : Step → Prop where
  | other (a : Registry.Action) (registry : Registry.State)
      (hstep : Registry.step s.registry a = some registry)
      (hstate : s' = { s with registry := registry }) : StepCase s s' (.other a)
  | requests (env : DialEnv) (hpc : s.pc = .start)
      (hstate : s' = requestSession outboundProfile s env) : StepCase s s' (.dial env)
  | resolves (env : DialEnv) (pc next : ResolvePc) (registry : Registry.State)
      (hpc : s.pc = .resolving pc)
      (hresolve : resolveStep headless s.registry (String.ofList s.pServerName) env pc =
        some (registry, next))
      (hstate : s' = { s with registry := registry }.resolved next) : StepCase s s' (.dial env)
  | findsEnabled (env : DialEnv) (S : Nat) (hpc : s.pc = .testEnabled S)
      (henabled : (s.registry.servers S).enabled = true)
      (hstate : s' = { s with pc := .enabled S }) : StepCase s s' (.dial env)
  | findsDisabled (env : DialEnv) (S : Nat) (hpc : s.pc = .testEnabled S)
      (henabled : (s.registry.servers S).enabled = false)
      (hstate : s' = { s with pc := .returned .outgoingCallBarred }) : StepCase s s' (.dial env)
  | fills (env : DialEnv) (S : Nat) (hpc : s.pc = .enabled S)
      (hstate : s' = fillSession s S env) : StepCase s s' (.dial env)

variable {headless : Bool} {outboundProfile : Option String}

theorem step_case {s s' : State} {b : Step}
    (h : step headless outboundProfile s b = some s') :
    StepCase headless outboundProfile s s' b := by
  cases b with
  | other a =>
      obtain ⟨registry, hstep, rfl⟩ := Option.map_eq_some_iff.mp h
      exact .other a registry hstep rfl
  | dial env =>
      simp only [step, dialStep] at h
      cases hpc : s.pc with
      | start =>
          rw [hpc] at h
          cases h
          exact .requests env hpc rfl
      | resolving pc =>
          rw [hpc] at h
          obtain ⟨⟨registry, next⟩, hresolve, rfl⟩ := Option.map_eq_some_iff.mp h
          exact .resolves env pc next registry hpc hresolve rfl
      | testEnabled S =>
          rw [hpc] at h
          cases h
          cases henabled : (s.registry.servers S).enabled with
          | true => exact .findsEnabled env S hpc henabled rfl
          | false => exact .findsDisabled env S hpc henabled rfl
      | enabled S =>
          rw [hpc] at h
          cases h
          exact .fills env S hpc rfl
      | returned status =>
          rw [hpc] at h
          cases h

end Cases

/-! ## What is held -/

/-- Neither a session nor a copy of the dial string is left. -/
def State.LeavesNothing (s : State) : Prop := s.newSession = none ∧ s.pDialStr = none

/-- What the function holds while it runs, and when it returns. -/
def State.Holds (s : State) : Prop :=
  match s.pc with
  | .start => s.newSession = none ∧ s.pDialStr = none
  | .resolving _ | .testEnabled _ | .enabled _ =>
      s.newSession.isSome = true ∧ s.pDialStr.isSome = true
  | .returned .success => s.newSession.isSome = true ∧ s.pDialStr = none
  | .returned .outgoingCallBarred => s.newSession.isSome = true ∧ s.pDialStr.isSome = true
  | .returned _ => s.newSession = none ∧ s.pDialStr = none

/-- The label `error` releases both. -/
theorem State.error_holds (s : State) {status : DialCause} (hsuccess : status ≠ .success)
    (hbarred : status ≠ .outgoingCallBarred) : (s.error status).Holds := by
  cases status with
  | success => exact absurd rfl hsuccess
  | outgoingCallBarred => exact absurd rfl hbarred
  | _ => exact ⟨rfl, rfl⟩

theorem State.resolved_holds {s : State} (hsession : s.newSession.isSome = true)
    (hdialStr : s.pDialStr.isSome = true) (pc : ResolvePc) : (s.resolved pc).Holds := by
  unfold State.resolved
  split
  · exact ⟨hsession, hdialStr⟩
  · exact s.error_holds nofun nofun
  · exact ⟨hsession, hdialStr⟩

section Runs

variable (headless : Bool) (outboundProfile : Option String)

theorem requestSession_holds {s : State} (h : s.LeavesNothing) (env : DialEnv) :
    (requestSession outboundProfile s env).Holds := by
  unfold requestSession
  split
  · exact h
  · split
    · exact s.error_holds nofun nofun
    · dsimp only
      split
      · exact State.error_holds _ nofun nofun
      · split
        · exact State.error_holds _ nofun nofun
        · exact ⟨rfl, rfl⟩

theorem fillSession_holds {s : State} (hsession : s.newSession.isSome = true) (S : Nat)
    (env : DialEnv) : (fillSession s S env).Holds := by
  unfold fillSession
  split
  · exact s.error_holds nofun nofun
  · split
    · exact s.error_holds nofun nofun
    · refine ⟨?_, rfl⟩
      rw [Option.isSome_map]
      exact hsession

/-- Every step keeps account of what is held. -/
theorem StepCase.holds {s s' : State} {b : Step} (hcase : StepCase headless outboundProfile s s' b)
    (h : s.Holds) : s'.Holds := by
  unfold State.Holds at h
  cases hcase with
  | other a registry hstep hstate =>
      rw [hstate]
      exact h
  | requests env hpc hstate =>
      rw [hpc] at h
      rw [hstate]
      exact requestSession_holds outboundProfile h env
  | resolves env pc next registry hpc hresolve hstate =>
      rw [hpc] at h
      rw [hstate]
      apply State.resolved_holds
      · exact h.1
      · exact h.2
  | findsEnabled env S hpc henabled hstate =>
      rw [hpc] at h
      rw [hstate]
      exact h
  | findsDisabled env S hpc henabled hstate =>
      -- nothing has been released
      rw [hpc] at h
      rw [hstate]
      exact h
  | fills env S hpc hstate =>
      rw [hpc] at h
      rw [hstate]
      exact fillSession_holds h.1 S env

theorem run_holds {s s' : State} (h : s.Holds) (steps : List Step)
    (hrun : exec (step headless outboundProfile) Always s steps = some s') : s'.Holds := by
  refine exec_invariant ?_ h hrun
  intro v b v' hv _ hstep
  exact (step_case hstep).holds headless outboundProfile hv

/-! ## The exit without a cleanup -/

/-- The step tests a server that has been disabled. -/
def State.FindsDisabled (s : State) (b : Step) : Prop :=
  ∃ env S, b = .dial env ∧ s.pc = .testEnabled S ∧ (s.registry.servers S).enabled = false

theorem requestSession_not_barred (s : State) (env : DialEnv) :
    (requestSession outboundProfile s env).pc ≠ .returned .outgoingCallBarred := by
  unfold requestSession
  split
  · simp
  · split
    · simp [State.error]
    · dsimp only
      split
      · simp [State.error]
      · split <;> simp [State.error]

theorem fillSession_not_barred (s : State) (S : Nat) (env : DialEnv) :
    (fillSession s S env).pc ≠ .returned .outgoingCallBarred := by
  unfold fillSession
  split
  · simp [State.error]
  · split <;> simp [State.error]

theorem resolved_not_barred (s : State) (pc : ResolvePc) :
    (s.resolved pc).pc ≠ .returned .outgoingCallBarred := by
  unfold State.resolved
  split <;> simp [State.error]

/-- A step returns `SWITCH_CAUSE_OUTGOING_CALL_BARRED` only where it finds the server
    disabled. -/
theorem StepCase.barred {s s' : State} {b : Step}
    (hcase : StepCase headless outboundProfile s s' b) :
    s'.pc = .returned .outgoingCallBarred ↔
      s.pc = .returned .outgoingCallBarred ∨ s.FindsDisabled b := by
  unfold State.FindsDisabled
  cases hcase with
  | other a registry hstep hstate =>
      rw [hstate]
      refine (or_iff_left ?_).symm
      rintro ⟨env, S, heq, -⟩
      cases heq
  | requests env hpc hstate =>
      rw [hstate]
      simp [requestSession_not_barred, hpc]
  | resolves env pc next registry hpc hresolve hstate =>
      rw [hstate]
      simp [resolved_not_barred, hpc]
  | findsEnabled env S hpc henabled hstate =>
      rw [hstate]
      simp [hpc, henabled]
  | findsDisabled env S hpc henabled hstate =>
      -- the one exit that skips `error`
      rw [hstate]
      simp [hpc, henabled]
  | fills env S hpc hstate =>
      rw [hstate]
      simp [fillSession_not_barred, hpc]

/-- A run does not return that way exactly when none of its steps finds the server
    disabled. -/
theorem run_not_barred {s s' : State} (hstart : s.pc ≠ .returned .outgoingCallBarred)
    (steps : List Step)
    (hrun : exec (step headless outboundProfile) Always s steps = some s') :
    s'.pc ≠ .returned .outgoingCallBarred ↔ ∀ before b later v, steps = before ++ b :: later →
      exec (step headless outboundProfile) Always s before = some v → ¬ v.FindsDisabled b := by
  have hstep : ∀ s b s', Always s b → step headless outboundProfile s b = some s' →
      (s'.pc ≠ .returned .outgoingCallBarred ↔
        s.pc ≠ .returned .outgoingCallBarred ∧ ¬ s.FindsDisabled b) := by
    intro s b s' _ h
    rw [ne_eq, (step_case h).barred headless outboundProfile, not_or]
  rw [exec_kept_iff hstep hrun, and_iff_right hstart]

/-- The call of `channel_outgoing_channel` with some registry. -/
def called (registry : Registry.State) : State := { registry := registry }

theorem called_holds (registry : Registry.State) : (called registry).Holds := ⟨rfl, rfl⟩

/-- A dial that fails leaves neither its session nor its copy of the dial string behind,
    exactly when the server that was resolved is still enabled where the function tests
    it. -/
theorem failed_dial_iff (registry : Registry.State) (steps : List Step) (s' : State)
    (hrun : exec (step headless outboundProfile) Always (called registry) steps = some s')
    (status : DialCause) (hreturned : s'.pc = .returned status) (hfailed : status ≠ .success) :
    s'.LeavesNothing ↔ ∀ before env later v S, steps = before ++ .dial env :: later →
      exec (step headless outboundProfile) Always (called registry) before = some v →
      v.pc = .testEnabled S → (v.registry.servers S).enabled = true := by
  have hholds : s'.Holds := run_holds headless outboundProfile (called_holds registry) steps hrun
  have hbarred := run_not_barred headless outboundProfile (s := called registry) nofun steps hrun
  have hleaves : s'.LeavesNothing ↔ s'.pc ≠ .returned .outgoingCallBarred := by
    unfold State.Holds at hholds
    rw [hreturned] at hholds ⊢
    cases status with
    | success => exact absurd rfl hfailed
    | outgoingCallBarred =>
        -- the session is still held
        refine iff_of_false ?_ fun h => h rfl
        rintro ⟨hnone, -⟩
        rw [hnone] at hholds
        cases hholds.1
    | _ => exact iff_of_true hholds nofun
  rw [hleaves, hbarred]
  constructor
  · intro henabled before env later v S hsteps hv hpc
    by_contra hnot
    exact henabled before _ later v hsteps hv ⟨env, S, rfl, hpc, Bool.eq_false_iff.mpr hnot⟩
  · rintro henabled before b later v hsteps hv ⟨env, S, rfl, hpc, hdisabled⟩
    have htrue := henabled before env later v S hsteps hv hpc
    rw [hdisabled] at htrue
    cases htrue

end Runs

/-! ## The dial string -/

/-- The cause that a reading of the dial string ends with. -/
def DialCause.of : Except CallCause Dial → DialCause
  | .ok _ => .success
  | .error .protocolError => .protocolError
  | .error .noRouteDestination => .noRouteDestination
  | .error .outgoingCallBarred => .outgoingCallBarred

/-- The function returned what `channelOutgoingChannel` makes of the dial string, for some
    result of the resolution. -/
def State.Read (s : State) (destinationNumber : String) (status : DialCause) : Prop :=
  ∃ pServer, let result := channelOutgoingChannel (fun _ => pServer) destinationNumber
    status = .of result ∧
      ∀ dial, result = .ok dial → s.newSession.bind NewSession.techPvt = some dial

/-- How far the dial string has been read. -/
def State.Reads (outboundProfile : Option String) (s : State) : Prop :=
  match s.pc with
  | .start => True
  | .resolving _ | .testEnabled _ | .enabled _ =>
      s.newSession.isSome = true ∧ ∃ destinationNumber, outboundProfile = some destinationNumber ∧
        strchr destinationNumber.toList '/' = some (s.pServerName, s.pCurr)
  | .returned status =>
      status = .destinationOutOfOrder ∨ ∃ destinationNumber,
        outboundProfile = some destinationNumber ∧ s.Read destinationNumber status

section Reading

variable {headless : Bool} {outboundProfile : Option String}

theorem requestSession_reads (s : State) (env : DialEnv) :
    (requestSession outboundProfile s env).Reads outboundProfile := by
  unfold requestSession
  split
  · exact .inl rfl
  · split
    · exact .inl rfl
    · next destinationNumber =>
        dsimp only
        split
        · exact .inl rfl
        · split
          · next hslash =>
              refine .inr ⟨destinationNumber, rfl, none, ?_⟩
              simp [channelOutgoingChannel, hslash, DialCause.of]
          · next pServerName pCurr hslash => exact ⟨rfl, destinationNumber, rfl, hslash⟩

theorem fillSession_reads {s : State} {destinationNumber : String}
    (hsession : s.newSession.isSome = true)
    (hslash : strchr destinationNumber.toList '/' = some (s.pServerName, s.pCurr)) (S : Nat)
    (env : DialEnv) : (fillSession s S env).Reads (some destinationNumber) := by
  obtain ⟨newSession, hsession⟩ := Option.isSome_iff_exists.mp hsession
  unfold fillSession
  split
  · exact .inl rfl
  · -- the server was enabled when it was tested, and its id is read here
    split
    · next hat =>
        refine .inr ⟨destinationNumber, rfl, some { enabled := true }, ?_⟩
        simp [channelOutgoingChannel, hslash, hat, DialCause.of]
    · next pDisplay pRoomIdStr hat =>
        refine .inr ⟨destinationNumber, rfl,
          some { enabled := true, serverId := (s.registry.servers S).serverId }, ?_⟩
        simp [channelOutgoingChannel, hslash, hat, DialCause.of, hsession]

theorem resolved_reads {s : State} {destinationNumber : String}
    (hsession : s.newSession.isSome = true)
    (hslash : strchr destinationNumber.toList '/' = some (s.pServerName, s.pCurr))
    (pc : ResolvePc) : (s.resolved pc).Reads (some destinationNumber) := by
  unfold State.resolved
  split
  · exact ⟨hsession, destinationNumber, rfl, hslash⟩
  · refine .inr ⟨destinationNumber, rfl, none, ?_⟩
    simp [channelOutgoingChannel, hslash, DialCause.of]
  · exact ⟨hsession, destinationNumber, rfl, hslash⟩

theorem StepCase.reads {s s' : State} {b : Step} (hcase : StepCase headless outboundProfile s s' b)
    (h : s.Reads outboundProfile) : s'.Reads outboundProfile := by
  unfold State.Reads at h
  cases hcase with
  | other a registry hstep hstate =>
      rw [hstate]
      exact h
  | requests env hpc hstate =>
      rw [hstate]
      exact requestSession_reads s env
  | resolves env pc next registry hpc hresolve hstate =>
      rw [hpc] at h
      obtain ⟨hsession, destinationNumber, rfl, hslash⟩ := h
      rw [hstate]
      apply resolved_reads
      · exact hsession
      · exact hslash
  | findsEnabled env S hpc henabled hstate =>
      rw [hpc] at h
      rw [hstate]
      exact h
  | findsDisabled env S hpc henabled hstate =>
      -- as if the server had been resolved disabled
      rw [hpc] at h
      obtain ⟨-, destinationNumber, hprofile, hslash⟩ := h
      rw [hstate]
      refine .inr ⟨destinationNumber, hprofile, some { enabled := false }, ?_⟩
      simp [channelOutgoingChannel, hslash, DialCause.of]
  | fills env S hpc hstate =>
      rw [hpc] at h
      obtain ⟨hsession, destinationNumber, rfl, hslash⟩ := h
      rw [hstate]
      exact fillSession_reads hsession hslash S env

/-- However the registry changes meanwhile, the function returns what
    `channelOutgoingChannel` makes of the dial string, unless FreeSWITCH or the heap has
    nothing to give. -/
theorem run_reads {registry : Registry.State} (steps : List Step) {s' : State}
    (hrun : exec (step headless outboundProfile) Always (called registry) steps = some s') :
    s'.Reads outboundProfile := by
  have hstart : (called registry).Reads outboundProfile := trivial
  refine exec_invariant ?_ hstart hrun
  intro v b v' hv _ hstep
  exact (step_case hstep).reads hv

end Reading

/-! ## A stop in between -/

/-- The server demo is loaded, and its thread polls the session 7. -/
def loadDemo : List Registry.Action :=
  [.serversAdd "demo" "http://a/janus" true, .load, .caller 0 .startTest, .caller 0 .create,
    .loaded, .thread 0 (.outer true), .thread 0 .request, .thread 0 (.created 7 true),
    .thread 0 .inner]

/-- The command that disables it runs to its end. -/
def disableDemo : List Registry.Action :=
  [.disable "demo", .caller 1 .stopTest, .caller 1 .readThread, .thread 0 (.polled .success),
    .thread 0 .inner, .thread 0 (.outer true), .thread 0 .deleteEntry, .thread 0 .testEvicted,
    .caller 1 .join, .caller 1 .clearThread, .caller 1 .clearFlags]

/-- A dial of demo, with `stop` between the resolution and the test of the flag. -/
def dialRun (stop : List Registry.Action) (steps : Nat) : List Step :=
  loadDemo.map .other ++ List.replicate 6 (.dial {}) ++ stop.map .other ++
    List.replicate steps (.dial {})

/-- The server that is about to be tested, if there is one, is enabled. -/
def State.testsEnabled (s : State) : Bool :=
  match s.pc with
  | .testEnabled S => (s.registry.servers S).enabled
  | _ => true

/-- A dial string without a room is refused, and nothing is left behind. -/
theorem failed_dial_iff_noRoom :
    ∃ s', exec (step false (some "demo/a")) Always (called {}) (dialRun [] 2) = some s' ∧
      s'.pc = .returned .protocolError ∧ s'.LeavesNothing := by
  have hend : (exec (step false (some "demo/a")) Always (called {}) (dialRun [] 2)).any
      (fun s' => decide (s'.pc = .returned .protocolError)) = true := by decide
  obtain ⟨s', hrun, hpc⟩ := (Option.any_eq_true _ _).mp hend
  have hpc : s'.pc = .returned .protocolError := of_decide_eq_true hpc
  have hcheck : ∀ n < 17, (exec (step false (some "demo/a")) Always (called {})
      ((dialRun [] 2).take n)).all State.testsEnabled = true := by decide
  refine ⟨s', hrun, hpc, ?_⟩
  refine (failed_dial_iff false (some "demo/a") {} (dialRun [] 2) s' hrun .protocolError hpc
    nofun).mpr ?_
  intro before env later v S hsteps hv htest
  have hlt : before.length < 17 := by
    have hlen := congrArg List.length hsteps
    rw [List.length_append, List.length_cons] at hlen
    have hall : (dialRun [] 2).length = 17 := rfl
    omega
  have henabled := hcheck before.length hlt
  rw [hsteps, List.take_left, hv] at henabled
  simpa [State.testsEnabled, htest] using henabled

/-- The server is disabled after it has been resolved, and the session and the copy of the
    dial string stay. -/
theorem barred_dial_leaves :
    ¬ ∀ (headless : Bool) (outboundProfile : Option String) (registry : Registry.State)
        (steps : List Step) (s' : State),
      exec (step headless outboundProfile) Always (called registry) steps = some s' →
      ∀ status, s'.pc = .returned status → status ≠ .success → s'.LeavesNothing := by
  intro h
  have hend : (exec (step false (some "demo/a@1")) Always (called {})
      (dialRun disableDemo 1)).any
      (fun s' => decide (s'.pc = .returned .outgoingCallBarred ∧ s'.newSession ≠ none)) =
        true := by decide
  obtain ⟨s', hrun, hfacts⟩ := (Option.any_eq_true _ _).mp hend
  obtain ⟨hpc, hsession⟩ := of_decide_eq_true hfacts
  exact hsession (h false (some "demo/a@1") {} _ s' hrun _ hpc nofun).1

end ModJanus.Outgoing
