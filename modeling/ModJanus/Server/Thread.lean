/-
  ModJanus.Server.Thread

  mod_janus.c: `server_thread_run`, the thread that registers a server with its
  Janus and polls it.

  The Janus session id of a server is held in three places: the local variable of
  the thread, `server_t.serverId` and the key in `serverIdLookup`.  The two updates
  of one branch (set and insert, delete and clear) are one step here.  What Janus
  and the connection answer, and whether a hash insertion succeeds, is part of the
  action.
-/
import ModJanus.Hash

namespace ModJanus.Servers

/-! ## The server -/

/-- Where `server_thread_run` stands. -/
inductive ThreadPc where
  | notRunning
  /-- The test of the outer loop. -/
  | outer
  /-- About to claim the session, or to create one. -/
  | connect
  /-- In the loop over the legs after a refused claim, with the sender ids that
      `hashIterate` still has before it. -/
  | refusing (pIndex : List JanusId)
  /-- The test of the inner loop. -/
  | inner
  /-- In `apiPoll`. -/
  | polling
  | threadDone
  /-- `senderIdLookup` is destroyed. -/
  | destroyed
  /-- The entry of `serverIdLookup` is deleted too. -/
  | exiting
  deriving DecidableEq, Repr

/-- `server_t`, as far as sessions and legs go.  A leg is the index of its call. -/
structure Server where
  name : Option String := none
  serverId : JanusId := 0
  callsInProgress : Nat := 0
  totalCalls : Nat := 0
  connectFailures : Nat := 0
  senderIdLookup : Hash Nat := ∅
  /-- `SFLAG_ENABLED`, `SFLAG_TERMINATING`, `SFLAG_DYNAMIC` and `SFLAG_EVICTED`. -/
  enabled : Bool := false
  terminating : Bool := false
  dynamic : Bool := false
  evicted : Bool := false
  /-- The thread was created and not joined. -/
  pThread : Bool := false
  pc : ThreadPc := .notRunning
  /-- The local variable `serverId` of the thread. -/
  threadServerId : JanusId := 0

/-- `senderIdLookup` exists; using it otherwise ends the process. -/
def Server.hasSenderIdLookup (pServer : Server) : Bool :=
  match pServer.pc with
  | .notRunning | .destroyed | .exiting => false
  | _ => true

/-- `serversDynamicEvictable`, with its verdict on connect failures. -/
def Server.serversDynamicEvictable (pServer : Server) (podServerFailMax : Nat) : Bool :=
  pServer.dynamic && pServer.callsInProgress == 0 &&
    (podServerFailMax ≠ 0 && podServerFailMax ≤ pServer.connectFailures && pServer.serverId == 0)

/-! ## The thread -/

inductive ThreadAction where
  /-- `startServerThread`, and the thread up to its outer loop. -/
  | start (force : Bool)
  /-- The outer loop's test and, without a transport, `janus_ws_server_open`. -/
  | outer (opened : Bool)
  | claim (status : Status) (inserted : Bool)
  /-- A round of the loop that hangs up the legs; `none` ends the loop. -/
  | refuse (senderId : Option JanusId)
  /-- The create branch, with what `apiGetServerId` returned. -/
  | create (serverId : JanusId) (inserted : Bool)
  | inner
  /-- `apiPoll` returns. -/
  | polled (status : Status)
  | destroySenders
  | deleteEntry
  deriving DecidableEq, Repr

/-- `apiClaimServerId` returned `status`. -/
def Server.claimed (pServer : Server) (S : Nat) (serverIdLookup : Hash Nat) (inserted : Bool) :
    Status → Server × Hash Nat
  | .sockErr => ({ pServer with pc := .inner }, serverIdLookup)
  | .success =>
      if inserted then
        ({ pServer with pc := .inner, serverId := pServer.threadServerId },
          hashInsert serverIdLookup pServer.threadServerId S)
      else ({ pServer with pc := .inner, serverId := 0, threadServerId := 0 }, serverIdLookup)
  | _ => ({ pServer with pc := .refusing (hashIds pServer.senderIdLookup) }, serverIdLookup)

/-- `apiGetServerId` returned no id. -/
def Server.createFailed (pServer : Server) (podServerFailMax : Nat) : Server :=
  if pServer.dynamic then
    let counted := { pServer with connectFailures := pServer.connectFailures + 1 }
    if counted.serversDynamicEvictable podServerFailMax then
      { counted with evicted := true, pc := .threadDone }
    else { counted with pc := .inner }
  else { pServer with pc := .inner }

/-- `apiGetServerId` returned an id. -/
def Server.created (pServer : Server) (S : Nat) (serverIdLookup : Hash Nat) (serverId : JanusId)
    (inserted : Bool) : Server × Hash Nat :=
  let fresh := { pServer with
    connectFailures := if pServer.dynamic then 0 else pServer.connectFailures
    callsInProgress := 0
    pc := .inner }
  if inserted then
    ({ fresh with serverId := serverId, threadServerId := serverId },
      hashInsert serverIdLookup serverId S)
  else ({ fresh with serverId := 0, threadServerId := 0 }, serverIdLookup)

/-- A round of the loop that hangs up the legs.  Legs inserted since it began may be
    visited too; those there at its beginning are, unless they are gone. -/
def Server.refuse (pServer : Server) (pIndex : List JanusId) (senderIdOf : Nat → Option JanusId) :
    Option JanusId → Option Server
  | some senderId =>
      match (hashFind pServer.senderIdLookup senderId).bind senderIdOf with
      | some ofLeg =>
          some { pServer with
            senderIdLookup := (hashDelete pServer.senderIdLookup ofLeg).1
            pc := .refusing (pIndex.erase senderId) }
      | none => none
  | none =>
      if pIndex.all fun senderId => (hashFind pServer.senderIdLookup senderId).isNone then
        some { pServer with pc := .inner, threadServerId := 0 }
      else none

/-- `apiPoll` returned `status`. -/
def Server.polled (pServer : Server) (serverIdLookup : Hash Nat) :
    Status → Server × Hash Nat
  | .success => ({ pServer with pc := .inner }, serverIdLookup)
  | _ =>
      ({ pServer with pc := .inner, serverId := 0 },
        (hashDelete serverIdLookup pServer.threadServerId).1)

/-- The thread goes on polling. -/
def Server.keepsPolling (pServer : Server) (serverIdLookup : Hash Nat) : Bool :=
  !pServer.terminating && (hashFind serverIdLookup pServer.threadServerId).isSome

/-! ### What the branches leave alone -/

section Branches

variable (v : Server) (S : Nat) (L : Hash Nat) (inserted : Bool) (status : Status)

@[simp] theorem claimed_senderIdLookup :
    (v.claimed S L inserted status).1.senderIdLookup = v.senderIdLookup := by
  cases status <;> cases inserted <;> rfl

@[simp] theorem claimed_callsInProgress :
    (v.claimed S L inserted status).1.callsInProgress = v.callsInProgress := by
  cases status <;> cases inserted <;> rfl

theorem claimed_threadServerId :
    (v.claimed S L inserted status).1.threadServerId = v.threadServerId ∨
      (v.claimed S L inserted status).1.threadServerId = 0 := by
  cases status with
  | success =>
      cases inserted with
      | true => exact .inl rfl
      | false => exact .inr rfl
  -- the id is given up only after the loop over the legs
  | sockErr | false | notFound | notInitialized => exact .inl rfl

@[simp] theorem polled_threadServerId :
    (v.polled L status).1.threadServerId = v.threadServerId := by
  cases status <;> rfl

@[simp] theorem polled_senderIdLookup :
    (v.polled L status).1.senderIdLookup = v.senderIdLookup := by
  cases status <;> rfl

@[simp] theorem polled_callsInProgress :
    (v.polled L status).1.callsInProgress = v.callsInProgress := by
  cases status <;> rfl

theorem polled_failed (h : status ≠ .success) :
    v.polled L status =
      ({ v with pc := .inner, serverId := 0 }, (hashDelete L v.threadServerId).1) := by
  cases status with
  | success => exact absurd rfl h
  | sockErr | false | notFound | notInitialized => rfl

@[simp] theorem created_senderIdLookup (serverId : JanusId) :
    (v.created S L serverId inserted).1.senderIdLookup = v.senderIdLookup := by
  cases inserted <;> rfl

@[simp] theorem created_callsInProgress (serverId : JanusId) :
    (v.created S L serverId inserted).1.callsInProgress = 0 := by
  cases inserted <;> rfl

theorem created_threadServerId (serverId : JanusId) :
    (v.created S L serverId inserted).1.threadServerId = serverId ∨
      (v.created S L serverId inserted).1.threadServerId = 0 := by
  cases inserted with
  | true => exact .inl rfl
  | false => exact .inr rfl

variable (podServerFailMax : Nat)

@[simp] theorem createFailed_threadServerId :
    (v.createFailed podServerFailMax).threadServerId = v.threadServerId := by
  unfold Server.createFailed
  split
  · simp only
    split <;> rfl
  · rfl

@[simp] theorem createFailed_senderIdLookup :
    (v.createFailed podServerFailMax).senderIdLookup = v.senderIdLookup := by
  unfold Server.createFailed
  split
  · simp only
    split <;> rfl
  · rfl

@[simp] theorem createFailed_callsInProgress :
    (v.createFailed podServerFailMax).callsInProgress = v.callsInProgress := by
  unfold Server.createFailed
  split
  · simp only
    split <;> rfl
  · rfl

end Branches

/-- A step of the thread of server `S`: the server and `serverIdLookup` after it. -/
def Server.threadStep (pServer : Server) (S : Nat) (serverIdLookup : Hash Nat)
    (podServerFailMax : Nat) (senderIdOf : Nat → Option JanusId) :
    ThreadAction → Option (Server × Hash Nat)
  | .start force =>
      if pServer.pc = .notRunning ∧ (force ∨ pServer.enabled = false) then
        some ({ pServer with
          enabled := true, pThread := true, pc := .outer, threadServerId := 0,
          senderIdLookup := ∅ }, serverIdLookup)
      else none
  | .outer opened =>
      if pServer.pc = .outer then
        if pServer.terminating then some ({ pServer with pc := .threadDone }, serverIdLookup)
        else if opened then some ({ pServer with pc := .connect }, serverIdLookup)
        else some (pServer, serverIdLookup)
      else none
  | .claim status inserted =>
      if pServer.pc = .connect ∧ pServer.threadServerId ≠ 0 then
        some (pServer.claimed S serverIdLookup inserted status)
      else none
  | .refuse senderId =>
      match pServer.pc with
      | .refusing pIndex =>
          (pServer.refuse pIndex senderIdOf senderId).map fun after => (after, serverIdLookup)
      | _ => none
  | .create serverId inserted =>
      if pServer.pc = .connect ∧ pServer.threadServerId = 0 then
        if serverId = 0 then some (pServer.createFailed podServerFailMax, serverIdLookup)
        else some (pServer.created S serverIdLookup serverId inserted)
      else none
  | .inner =>
      if pServer.pc = .inner then
        if pServer.keepsPolling serverIdLookup then
          some ({ pServer with pc := .polling }, serverIdLookup)
        else some ({ pServer with pc := .outer }, serverIdLookup)
      else none
  | .polled status =>
      if pServer.pc = .polling then some (pServer.polled serverIdLookup status) else none
  | .destroySenders =>
      if pServer.pc = .threadDone then
        some ({ pServer with pc := .destroyed, senderIdLookup := ∅ }, serverIdLookup)
      else none
  | .deleteEntry =>
      if pServer.pc = .destroyed then
        some ({ pServer with pc := .exiting },
          (hashDelete serverIdLookup pServer.threadServerId).1)
      else none

/-- Everything a step of the thread can do. -/
inductive ThreadEffect (v : Server) (S : Nat) (L : Hash Nat) (podServerFailMax : Nat) :
    ThreadAction → Server → Hash Nat → Prop where
  | started (force : Bool) (hpc : v.pc = .notRunning) :
      ThreadEffect v S L podServerFailMax (.start force)
        { v with
          enabled := true, pThread := true, pc := .outer, threadServerId := 0,
          senderIdLookup := ∅ } L
  | left (opened : Bool) (hpc : v.pc = .outer) (hterminating : v.terminating = true) :
      ThreadEffect v S L podServerFailMax (.outer opened) { v with pc := .threadDone } L
  | opened (hpc : v.pc = .outer) (hterminating : v.terminating = false) :
      ThreadEffect v S L podServerFailMax (.outer true) { v with pc := .connect } L
  | notOpened (hpc : v.pc = .outer) (hterminating : v.terminating = false) :
      ThreadEffect v S L podServerFailMax (.outer false) v L
  | claimed (status : Status) (inserted : Bool) (hpc : v.pc = .connect)
      (hid : v.threadServerId ≠ 0) :
      ThreadEffect v S L podServerFailMax (.claim status inserted)
        (v.claimed S L inserted status).1 (v.claimed S L inserted status).2
  /-- A leg is hung up and removed. -/
  | hungUp (pIndex : List JanusId) (senderId ofLeg : JanusId) (hpc : v.pc = .refusing pIndex) :
      ThreadEffect v S L podServerFailMax (.refuse (some senderId))
        { v with
          senderIdLookup := (hashDelete v.senderIdLookup ofLeg).1
          pc := .refusing (pIndex.erase senderId) } L
  | refused (pIndex : List JanusId) (hpc : v.pc = .refusing pIndex) :
      ThreadEffect v S L podServerFailMax (.refuse none)
        { v with pc := .inner, threadServerId := 0 } L
  | createFailed (inserted : Bool) (hpc : v.pc = .connect) :
      ThreadEffect v S L podServerFailMax (.create 0 inserted)
        (v.createFailed podServerFailMax) L
  | created (serverId : JanusId) (inserted : Bool) (hpc : v.pc = .connect) (hid : serverId ≠ 0) :
      ThreadEffect v S L podServerFailMax (.create serverId inserted)
        (v.created S L serverId inserted).1 (v.created S L serverId inserted).2
  | polling (hpc : v.pc = .inner) :
      ThreadEffect v S L podServerFailMax .inner { v with pc := .polling } L
  | stopped (hpc : v.pc = .inner) (hstop : v.keepsPolling L = false) :
      ThreadEffect v S L podServerFailMax .inner { v with pc := .outer } L
  | polled (status : Status) (hpc : v.pc = .polling) :
      ThreadEffect v S L podServerFailMax (.polled status)
        (v.polled L status).1 (v.polled L status).2
  | sendersDestroyed (hpc : v.pc = .threadDone) :
      ThreadEffect v S L podServerFailMax .destroySenders
        { v with pc := .destroyed, senderIdLookup := ∅ } L
  | entryDeleted (hpc : v.pc = .destroyed) :
      ThreadEffect v S L podServerFailMax .deleteEntry { v with pc := .exiting }
        (hashDelete L v.threadServerId).1

theorem refuse_effect {v v' : Server} {S podServerFailMax : Nat} {L : Hash Nat}
    {pIndex : List JanusId} {senderIdOf : Nat → Option JanusId} {senderId : Option JanusId}
    (hpc : v.pc = .refusing pIndex) (h : v.refuse pIndex senderIdOf senderId = some v') :
    ThreadEffect v S L podServerFailMax (.refuse senderId) v' L := by
  cases senderId with
  | none =>
      simp only [Server.refuse] at h
      split at h <;> cases h
      exact .refused pIndex hpc
  | some senderId =>
      simp only [Server.refuse] at h
      split at h <;> cases h
      exact .hungUp pIndex senderId _ hpc

theorem threadStep_effect {v v' : Server} {S podServerFailMax : Nat} {L L' : Hash Nat}
    {senderIdOf : Nat → Option JanusId} {a : ThreadAction}
    (h : v.threadStep S L podServerFailMax senderIdOf a = some (v', L')) :
    ThreadEffect v S L podServerFailMax a v' L' := by
  cases a with
  | start force =>
      simp only [Server.threadStep] at h
      split at h <;> cases h
      next hstart => exact .started force hstart.1
  | outer opened =>
      simp only [Server.threadStep] at h
      split at h
      · next hpc =>
          split at h
          · next hterminating =>
              cases h
              exact .left opened hpc hterminating
          · next hterminating =>
              rw [Bool.not_eq_true] at hterminating
              cases opened <;> cases h
              · exact .notOpened hpc hterminating
              · exact .opened hpc hterminating
      · cases h
  | claim status inserted =>
      simp only [Server.threadStep] at h
      split at h
      · next hclaim =>
          have heffect : ThreadEffect v S L podServerFailMax (.claim status inserted)
              (v.claimed S L inserted status).1 (v.claimed S L inserted status).2 :=
            .claimed status inserted hclaim.1 hclaim.2
          rwa [Option.some.inj h] at heffect
      · cases h
  | refuse senderId =>
      simp only [Server.threadStep] at h
      split at h
      · next pIndex hpc =>
          obtain ⟨after, hrefuse, hafter⟩ := Option.map_eq_some_iff.mp h
          cases hafter
          exact refuse_effect hpc hrefuse
      · cases h
  | create serverId inserted =>
      simp only [Server.threadStep] at h
      split at h
      · next hcreate =>
          split at h
          · next hzero =>
              cases h
              rw [hzero]
              exact .createFailed inserted hcreate.1
          · next hid =>
              have heffect : ThreadEffect v S L podServerFailMax (.create serverId inserted)
                  (v.created S L serverId inserted).1 (v.created S L serverId inserted).2 :=
                .created serverId inserted hcreate.1 hid
              rwa [Option.some.inj h] at heffect
      · cases h
  | inner =>
      simp only [Server.threadStep] at h
      split at h
      · next hpc =>
          split at h
          · cases h
            exact .polling hpc
          · next hstop =>
              cases h
              exact .stopped hpc (Bool.eq_false_iff.mpr hstop)
      · cases h
  | polled status =>
      simp only [Server.threadStep] at h
      split at h
      · next hpc =>
          have heffect : ThreadEffect v S L podServerFailMax (.polled status)
              (v.polled L status).1 (v.polled L status).2 :=
            .polled status hpc
          rwa [Option.some.inj h] at heffect
      · cases h
  | destroySenders =>
      simp only [Server.threadStep] at h
      split at h <;> cases h
      next hpc => exact .sendersDestroyed hpc
  | deleteEntry =>
      simp only [Server.threadStep] at h
      split at h <;> cases h
      next hpc => exact .entryDeleted hpc

end ModJanus.Servers
