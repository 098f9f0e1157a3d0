/-
  ModJanus.Server.Registry

  Who starts, stops, registers and removes servers: `startServerThread`,
  `stopServerThread` and `server_thread_run` of mod_janus.c, and the registry of
  servers.c, run by any number of console commands, registry refreshes and legs at
  once.

  A caller takes one step for each section under `flag_mutex`, each test of a flag and
  each section under `globals.mutex`; a refresh keeps `globals.mutex` through its first
  phase.  Nothing says that a server has one thread: a thread is an index, and more than
  one may run for the same server.  What DNS, the probes and Janus answer is part of the
  action.  The legs that a thread hangs up, and `senderIdLookup`, are those of
  `Server.Machine`.
-/
import Mathlib.Data.List.AList
import Mathlib.Logic.Function.Basic
import ModJanus.Hash
import ModJanus.Lib.Transition

namespace ModJanus.Registry

/-! ## Servers -/

/-- `REGISTRY_MAX_ENDPOINTS`. -/
def REGISTRY_MAX_ENDPOINTS : Nat := 64

/-- `server_t`, as far as the registry goes. -/
structure Server where
  name : String := ""
  pUrl : String := ""
  podIp : Option String := none
  /-- `SFLAG_ENABLED`, `SFLAG_TERMINATING`, `SFLAG_DYNAMIC` and `SFLAG_EVICTED`. -/
  enabled : Bool := false
  terminating : Bool := false
  dynamic : Bool := false
  evicted : Bool := false
  /-- The thread that was created last and not joined. -/
  pThread : Option Nat := none
  serverId : JanusId := 0
  callsInProgress : Nat := 0
  connectFailures : Nat := 0
  lastVerified : Nat := 0
  deriving DecidableEq, Repr

namespace Server

/-- The `server_t` that `serversAdd` makes. -/
def configured (pName pUrl : String) (enabled : Bool) : Server where
  name := pName
  pUrl := pUrl
  enabled := enabled

/-- The `server_t` that `serversCreateRegistryServer` makes. -/
def registered (podName podIp url : String) : Server where
  name := podName
  pUrl := url
  podIp := some podIp
  enabled := true
  dynamic := true

/-- `serversUpdateRegistryServer`. -/
def serversUpdateRegistryServer (pServer : Server) (podIp url : String) : Server :=
  let pServer :=
    if podIp ≠ "" ∧ pServer.podIp ≠ some podIp then { pServer with podIp := some podIp }
    else pServer
  let pServer :=
    if url ≠ "" ∧ pServer.pUrl ≠ url then { pServer with pUrl := url, lastVerified := 0 }
    else pServer
  { pServer with connectFailures := 0 }

/-- `serversDynamicEvictable`, with its verdict on connect failures. -/
def serversDynamicEvictable (pServer : Server) (podServerFailMax : Nat) : Bool :=
  pServer.dynamic && pServer.callsInProgress == 0 &&
    (podServerFailMax ≠ 0 && podServerFailMax ≤ pServer.connectFailures && pServer.serverId == 0)

/-- `stopServerThread` takes the branch that stops the thread. -/
def stoppable (pServer : Server) : Bool :=
  pServer.enabled && !pServer.terminating && pServer.pThread.isSome

end Server

/-! ## Threads, callers and legs -/

/-- Where a run of `server_thread_run` stands. -/
inductive ThreadPc where
  /-- The test of the outer loop. -/
  | outer
  | connect
  /-- In `apiGetServerId` or `apiClaimServerId`, which was sent to `url`. -/
  | requesting (url : String)
  /-- The test of the inner loop. -/
  | inner
  | polling
  | threadDone
  /-- The entry of `serverIdLookup` is deleted. -/
  | exiting
  /-- `SFLAG_EVICTED` is set: before `serversDynamicRemoveFromLookup`. -/
  | removing
  | returned
  deriving DecidableEq, Repr

structure Thread where
  server : Nat
  /-- The local variable `serverId`. -/
  serverId : JanusId := 0
  pc : ThreadPc := .outer
  deriving DecidableEq, Repr

/-- Who calls `startServerThread`. -/
inductive StartCall where
  | load
  | console
  /-- `serversCreateRegistryServer`. -/
  | registered
  /-- The refresh, for a server of a reported pod that is not enabled. -/
  | restart
  deriving DecidableEq, Repr

def StartCall.force : StartCall → Bool
  | .console => false
  | _ => true

/-- Where a caller stands; `S` is the server that it works on. -/
inductive CallerPc where
  /-- In the first phase of a refresh, which holds `globals.mutex`. -/
  | locked
  /-- In the loop of a refresh over `evict_list`. -/
  | evicting
  /-- Before the section of `startServerThread`. -/
  | starting (S : Nat) (call : StartCall)
  /-- Before `switch_thread_create`. -/
  | creating (S : Nat)
  /-- Before the section of `stopServerThread`. -/
  | stopping (S : Nat)
  /-- `SFLAG_TERMINATING` is set. -/
  | terminating (S : Nat)
  /-- In `switch_thread_join`. -/
  | joining (S t : Nat)
  | joined (S : Nat)
  /-- Before the two flags are cleared. -/
  | clearing (S : Nat)
  /-- In the other branch of `stopServerThread`. -/
  | notStopped (S : Nat)
  /-- Before `serversDynamicRemoveFromLookup`. -/
  | removing (S : Nat)
  | done
  deriving DecidableEq, Repr

/-- The server of `startServerThread` that is running. -/
def CallerPc.start : CallerPc → Option Nat
  | .starting S _ | .creating S => some S
  | _ => none

/-- The server of `stopServerThread` that is running. -/
def CallerPc.stop : CallerPc → Option Nat
  | .stopping S | .terminating S | .joining S _ | .joined S | .clearing S | .notStopped S
  | .removing S => some S
  | _ => none

/-- A console command, a refresh, or a round of the loop of `mod_janus_load`. -/
structure Caller where
  pc : CallerPc
  inRefresh : Bool := false
  seenPods : List String := []
  evictList : List Nat := []
  deriving DecidableEq, Repr

/-- `startServerThread` returns. -/
def Caller.started (x : Caller) : Caller :=
  { x with pc := if x.inRefresh then .locked else .done }

/-- `stopServerThread` returns. -/
def Caller.stopped (x : Caller) : Caller :=
  { x with pc := if x.inRefresh then .evicting else .done }

/-- The caller has a pointer to `S`. -/
def Caller.holds (x : Caller) (S : Nat) : Bool :=
  x.pc.start == some S || x.pc.stop == some S || x.evictList.contains S

/-- Where a leg stands, as far as its server's counter and address go. -/
inductive LegPc where
  | dialled
  /-- `channel_on_init` has found `S`: before `apiGetSenderId`. -/
  | found (S : Nat)
  | attached (S : Nat)
  | counted (S : Nat)
  /-- `channel_on_init` returned success. -/
  | established (S : Nat)
  | failed
  /-- In `channel_on_hangup`, which has found `S`. -/
  | leaving (S : Nat)
  | gone
  deriving DecidableEq, Repr

structure Leg where
  serverId : JanusId
  pc : LegPc := .dialled
  deriving DecidableEq, Repr

/-! ## State -/

/-- `globals`, the servers, and everything that runs.  `obtained` is kept for the
    statements only: the session ids that Janus gave out or confirmed, each with the
    server it was for and the address it was asked at. -/
structure State where
  servers : Nat → Server := fun _ => {}
  serverCount : Nat := 0
  pServerNameLookup : AList fun _ : String => Nat := ∅
  serverIdLookup : Hash Nat := ∅
  threads : List Thread := []
  callers : List Caller := []
  legs : List Leg := []
  /-- The caller that holds `globals.mutex`. -/
  mutex : Option Nat := none
  /-- The names that the loop of `mod_janus_load` has yet to start, until it is through. -/
  loading : Option (List String) := some []
  podServerFailMax : Nat := 0
  obtained : List (Nat × JanusId × String) := []

namespace State

def setServer (s : State) (S : Nat) (pServer : Server) : State :=
  { s with servers := Function.update s.servers S pServer }

def setThread (s : State) (t : Nat) (thread : Thread) : State :=
  { s with threads := s.threads.set t thread }

def setCaller (s : State) (c : Nat) (x : Caller) : State :=
  { s with callers := s.callers.set c x }

def setLeg (s : State) (l : Nat) (leg : Leg) : State :=
  { s with legs := s.legs.set l leg }

/-- The server is found under its name. -/
def Registered (s : State) (S : Nat) : Prop :=
  s.pServerNameLookup.lookup (s.servers S).name = some S

instance (s : State) (S : Nat) : Decidable (s.Registered S) :=
  inferInstanceAs (Decidable (s.pServerNameLookup.lookup (s.servers S).name = some S))

/-- A new `server_t` under its name. -/
def addServer (s : State) (pServer : Server) : State :=
  { s.setServer s.serverCount pServer with
    serverCount := s.serverCount + 1
    pServerNameLookup := s.pServerNameLookup.insert pServer.name s.serverCount }

/-- `serversDynamicRemoveFromLookup`. -/
def serversDynamicRemoveFromLookup (s : State) (S : Nat) : State :=
  let pServer := s.servers S
  if pServer.dynamic ∧ (s.pServerNameLookup.lookup pServer.name).isSome then
    { s.setServer S { pServer with serverId := 0, enabled := false } with
      serverIdLookup :=
        if pServer.serverId ≠ 0 then (hashDelete s.serverIdLookup pServer.serverId).1
        else s.serverIdLookup
      pServerNameLookup := s.pServerNameLookup.erase pServer.name }
  else s

end State

/-! ## `server_thread_run` -/

inductive ThreadAction where
  /-- The outer loop's test and, without a transport, `janus_ws_server_open`. -/
  | outer (opened : Bool)
  | request
  /-- `apiGetServerId` returned `serverId`. -/
  | created (serverId : JanusId) (inserted : Bool)
  /-- `apiClaimServerId` returned `status`. -/
  | claimed (status : Status) (inserted : Bool)
  | inner
  /-- `apiPoll` returned `status`. -/
  | polled (status : Status)
  | deleteEntry
  | testEvicted
  | remove
  deriving DecidableEq, Repr

namespace State

/-- `apiGetServerId` returned no id. -/
def createFailed (s : State) (t : Nat) (thread : Thread) : State :=
  let pServer := s.servers thread.server
  if pServer.dynamic then
    let counted := { pServer with connectFailures := pServer.connectFailures + 1 }
    if counted.serversDynamicEvictable s.podServerFailMax then
      (s.setServer thread.server { counted with evicted := true }).setThread t
        { thread with pc := .threadDone }
    else (s.setServer thread.server counted).setThread t { thread with pc := .inner }
  else s.setThread t { thread with pc := .inner }

/-- `apiGetServerId`, which was sent to `url`, returned an id. -/
def created (s : State) (t : Nat) (thread : Thread) (url : String) (serverId : JanusId)
    (inserted : Bool) : State :=
  let pServer := s.servers thread.server
  let fresh := { pServer with
    connectFailures := if pServer.dynamic then 0 else pServer.connectFailures
    callsInProgress := 0
    serverId := if inserted then serverId else 0 }
  { (s.setServer thread.server fresh).setThread t
      { thread with pc := .inner, serverId := if inserted then serverId else 0 } with
    serverIdLookup :=
      if inserted then hashInsert s.serverIdLookup serverId thread.server else s.serverIdLookup
    obtained := s.obtained ++ [(thread.server, serverId, url)] }

/-- `apiClaimServerId`, which was sent to `url`, returned `status`. -/
def claimed (s : State) (t : Nat) (thread : Thread) (url : String) (inserted : Bool) :
    Status → State
  | .success =>
      { (s.setServer thread.server { s.servers thread.server with
            serverId := if inserted then thread.serverId else 0 }).setThread t
          { thread with pc := .inner, serverId := if inserted then thread.serverId else 0 } with
        serverIdLookup :=
          if inserted then hashInsert s.serverIdLookup thread.serverId thread.server
          else s.serverIdLookup
        obtained := s.obtained ++ [(thread.server, thread.serverId, url)] }
  | .sockErr => s.setThread t { thread with pc := .inner }
  -- the legs of the server are hung up, and the session is given up
  | _ => s.setThread t { thread with pc := .inner, serverId := 0 }

/-- `apiPoll` returned `status`. -/
def polled (s : State) (t : Nat) (thread : Thread) : Status → State
  | .success => s.setThread t { thread with pc := .inner }
  | _ =>
      { (s.setServer thread.server { s.servers thread.server with serverId := 0 }).setThread t
          { thread with pc := .inner } with
        serverIdLookup := (hashDelete s.serverIdLookup thread.serverId).1 }

/-- A step of thread `t`, which is `thread`. -/
def threadStep (s : State) (t : Nat) (thread : Thread) (a : ThreadAction) : Option State :=
  let pServer := s.servers thread.server
  match thread.pc, a with
  | .outer, .outer opened =>
      some (s.setThread t { thread with
        pc := if pServer.terminating then .threadDone else if opened then .connect else .outer })
  | .connect, .request => some (s.setThread t { thread with pc := .requesting pServer.pUrl })
  | .requesting url, .created serverId inserted =>
      if thread.serverId = 0 then
        some (if serverId = 0 then s.createFailed t thread
          else s.created t thread url serverId inserted)
      else none
  | .requesting url, .claimed status inserted =>
      if thread.serverId ≠ 0 then some (s.claimed t thread url inserted status) else none
  | .inner, .inner =>
      let keepsPolling :=
        !pServer.terminating && (hashFind s.serverIdLookup thread.serverId).isSome
      some (s.setThread t { thread with pc := if keepsPolling then .polling else .outer })
  | .polling, .polled status => some (s.polled t thread status)
  | .threadDone, .deleteEntry =>
      some { s.setThread t { thread with pc := .exiting } with
        serverIdLookup := (hashDelete s.serverIdLookup thread.serverId).1 }
  | .exiting, .testEvicted =>
      some (s.setThread t { thread with pc := if pServer.evicted then .removing else .returned })
  | .removing, .remove =>
      if s.mutex = none then
        some ((s.serversDynamicRemoveFromLookup thread.server).setThread t
          { thread with pc := .returned })
      else none
  | _, _ => none

end State

/-- Everything a step of thread `t` can do. -/
inductive ThreadEffect (s : State) (t : Nat) (thread : Thread) : ThreadAction → State → Prop where
  | terminated (opened : Bool) (hpc : thread.pc = .outer)
      (hterminating : (s.servers thread.server).terminating = true) :
      ThreadEffect s t thread (.outer opened) (s.setThread t { thread with pc := .threadDone })
  | opened (opened : Bool) (hpc : thread.pc = .outer) :
      ThreadEffect s t thread (.outer opened)
        (s.setThread t { thread with pc := if opened then .connect else .outer })
  | requested (hpc : thread.pc = .connect) :
      ThreadEffect s t thread .request
        (s.setThread t { thread with pc := .requesting (s.servers thread.server).pUrl })
  | createFailed (url : String) (inserted : Bool) (connectFailures : Nat)
      (hpc : thread.pc = .requesting url) :
      ThreadEffect s t thread (.created 0 inserted)
        ((s.setServer thread.server { s.servers thread.server with
          connectFailures := connectFailures }).setThread t { thread with pc := .inner })
  | evicted (url : String) (inserted : Bool) (connectFailures : Nat)
      (hpc : thread.pc = .requesting url)
      (hdynamic : (s.servers thread.server).dynamic = true) :
      ThreadEffect s t thread (.created 0 inserted)
        ((s.setServer thread.server { s.servers thread.server with
          connectFailures := connectFailures, evicted := true }).setThread t
            { thread with pc := .threadDone })
  | created (url : String) (serverId : JanusId) (inserted : Bool)
      (hpc : thread.pc = .requesting url) :
      ThreadEffect s t thread (.created serverId inserted)
        (s.created t thread url serverId inserted)
  | claimed (url : String) (inserted : Bool) (hpc : thread.pc = .requesting url) :
      ThreadEffect s t thread (.claimed .success inserted)
        (s.claimed t thread url inserted .success)
  | claimFailed (url : String) (status : Status) (inserted : Bool) (serverId : JanusId)
      (hpc : thread.pc = .requesting url) :
      ThreadEffect s t thread (.claimed status inserted)
        (s.setThread t { thread with pc := .inner, serverId := serverId })
  | inner (polls : Bool) (hpc : thread.pc = .inner) :
      ThreadEffect s t thread .inner
        (s.setThread t { thread with pc := if polls then .polling else .outer })
  | polled (hpc : thread.pc = .polling) :
      ThreadEffect s t thread (.polled .success) (s.setThread t { thread with pc := .inner })
  | pollFailed (status : Status) (hpc : thread.pc = .polling) :
      ThreadEffect s t thread (.polled status)
        { (s.setServer thread.server { s.servers thread.server with serverId := 0 }).setThread t
            { thread with pc := .inner } with
          serverIdLookup := (hashDelete s.serverIdLookup thread.serverId).1 }
  | deletedEntry (hpc : thread.pc = .threadDone) :
      ThreadEffect s t thread .deleteEntry
        { s.setThread t { thread with pc := .exiting } with
          serverIdLookup := (hashDelete s.serverIdLookup thread.serverId).1 }
  | toRemove (hpc : thread.pc = .exiting)
      (hevicted : (s.servers thread.server).evicted = true) :
      ThreadEffect s t thread .testEvicted (s.setThread t { thread with pc := .removing })
  | returned (hpc : thread.pc = .exiting)
      (hevicted : (s.servers thread.server).evicted = false) :
      ThreadEffect s t thread .testEvicted (s.setThread t { thread with pc := .returned })
  | removed (hpc : thread.pc = .removing) (hmutex : s.mutex = none) :
      ThreadEffect s t thread .remove
        ((s.serversDynamicRemoveFromLookup thread.server).setThread t
          { thread with pc := .returned })

theorem createFailed_effect {s : State} {t : Nat} {thread : Thread} {url : String}
    (inserted : Bool) (hpc : thread.pc = .requesting url) :
    ThreadEffect s t thread (.created 0 inserted) (s.createFailed t thread) := by
  have hsame : s.setServer thread.server { s.servers thread.server with
      connectFailures := (s.servers thread.server).connectFailures } = s := by
    simp [State.setServer]
  unfold State.createFailed
  dsimp only
  split
  · next hdynamic =>
      split
      · exact .evicted url inserted _ hpc hdynamic
      · exact .createFailed url inserted _ hpc
  · have heffect := ThreadEffect.createFailed (s := s) (t := t) url inserted
      (s.servers thread.server).connectFailures hpc
    rw [hsame] at heffect
    exact heffect

theorem threadStep_effect {s s' : State} {t : Nat} {thread : Thread} {a : ThreadAction}
    (h : s.threadStep t thread a = some s') : ThreadEffect s t thread a s' := by
  unfold State.threadStep at h
  split at h
  · next opened hpc =>
      cases h
      cases hterminating : (s.servers thread.server).terminating with
      | true => exact .terminated opened hpc hterminating
      | false => exact .opened opened hpc
  · next hpc =>
      cases h
      exact .requested hpc
  · next url serverId inserted hpc =>
      split at h <;> cases h
      split
      · next hzero =>
          -- an id of 0 stands for a failed create
          rw [hzero]
          exact createFailed_effect inserted hpc
      · exact .created url serverId inserted hpc
  · next url status inserted hpc =>
      split at h <;> cases h
      cases status with
      | success => exact .claimed url inserted hpc
      | sockErr => exact .claimFailed url _ inserted thread.serverId hpc
      | _ => exact .claimFailed url _ inserted 0 hpc
  · next hpc =>
      cases h
      exact .inner _ hpc
  · next status hpc =>
      cases h
      cases status with
      | success => exact .polled hpc
      | _ => exact .pollFailed _ hpc
  · next hpc =>
      cases h
      exact .deletedEntry hpc
  · next hpc =>
      cases h
      cases hevicted : (s.servers thread.server).evicted with
      | true => exact .toRemove hpc hevicted
      | false => exact .returned hpc hevicted
  · next hpc =>
      split at h <;> cases h
      next hmutex => exact .removed hpc hmutex
  · cases h

/-! ## `startServerThread`, `stopServerThread` and `serversRegistryRefresh` -/

inductive CallerAction where
  /-- A reported pod that is not known: `serversCreateRegistryServer`. -/
  | register (podName podIp url : String)
  /-- A reported pod that is known: `serversUpdateRegistryServer`, and the test of
      `SFLAG_ENABLED`. -/
  | update (podName podIp url : String)
  /-- A server that was not reported and has no calls: into `evict_list`. -/
  | collect (name : String)
  | unlock
  /-- The next server of `evict_list` is marked. -/
  | evict
  | refreshed
  | startTest
  | create
  | stopTest
  | readThread
  | join
  | clearThread
  | clearFlags
  | testEvicted
  | remove
  deriving DecidableEq, Repr

/-- A step of caller `c`, which is `x`. -/
def State.callerStep (s : State) (c : Nat) (x : Caller) (a : CallerAction) : Option State :=
  match x.pc, a with
  | .locked, .register podName podIp url =>
      if (s.pServerNameLookup.lookup podName).isNone then
        some ((s.addServer (.registered podName podIp url)).setCaller c { x with
          pc := .starting s.serverCount .registered
          seenPods := podName :: x.seenPods })
      else none
  | .locked, .update podName podIp url =>
      match s.pServerNameLookup.lookup podName with
      | some S =>
          let seen := { x with seenPods := podName :: x.seenPods }
          if (s.servers S).dynamic then
            let s := s.setServer S ((s.servers S).serversUpdateRegistryServer podIp url)
            if (s.servers S).enabled then some (s.setCaller c seen)
            else some (s.setCaller c { seen with pc := .starting S .restart })
          else some (s.setCaller c seen)
      | none => none
  | .locked, .collect name =>
      match s.pServerNameLookup.lookup name with
      | some S =>
          if (s.servers S).dynamic ∧ name ∉ x.seenPods ∧ (s.servers S).callsInProgress = 0 ∧
              x.evictList.length < REGISTRY_MAX_ENDPOINTS then
            some (s.setCaller c { x with evictList := x.evictList ++ [S] })
          else none
      | none => none
  | .locked, .unlock => some { s.setCaller c { x with pc := .evicting } with mutex := none }
  | .evicting, .evict =>
      match x.evictList with
      | S :: evictList =>
          some ((s.setServer S { s.servers S with evicted := true }).setCaller c
            { x with pc := .stopping S, evictList := evictList })
      | [] => none
  | .evicting, .refreshed =>
      if x.evictList = [] then some (s.setCaller c { x with pc := .done }) else none
  | .starting S call, .startTest =>
      if call.force ∨ (s.servers S).enabled = false then
        some ((s.setServer S { s.servers S with enabled := true }).setCaller c
          { x with pc := .creating S })
      else some (s.setCaller c x.started)
  | .creating S, .create =>
      some { (s.setServer S { s.servers S with pThread := some s.threads.length }).setCaller c
          x.started with
        threads := s.threads ++ [{ server := S }] }
  | .stopping S, .stopTest =>
      if (s.servers S).stoppable then
        some ((s.setServer S { s.servers S with terminating := true }).setCaller c
          { x with pc := .terminating S })
      else some (s.setCaller c { x with pc := .notStopped S })
  | .terminating S, .readThread =>
      match (s.servers S).pThread with
      | some t => some (s.setCaller c { x with pc := .joining S t })
      | none => none
  | .joining S t, .join =>
      if (s.threads[t]?).any fun thread => thread.pc = .returned then
        some (s.setCaller c { x with pc := .joined S })
      else none
  | .joined S, .clearThread =>
      some ((s.setServer S { s.servers S with pThread := none }).setCaller c
        { x with pc := .clearing S })
  | .clearing S, .clearFlags =>
      some ((s.setServer S { s.servers S with terminating := false, enabled := false }).setCaller
        c x.stopped)
  | .notStopped S, .testEvicted =>
      some (s.setCaller c (if (s.servers S).evicted then { x with pc := .removing S }
        else x.stopped))
  | .removing S, .remove =>
      if s.mutex = none then
        some ((s.serversDynamicRemoveFromLookup S).setCaller c x.stopped)
      else none
  | _, _ => none

/-- Everything a step of caller `c` can do. -/
inductive CallerEffect (s : State) (c : Nat) (x : Caller) : CallerAction → State → Prop where
  | registered (podName podIp url : String) (hpc : x.pc = .locked)
      (hnew : s.pServerNameLookup.lookup podName = none) :
      CallerEffect s c x (.register podName podIp url)
        ((s.addServer (.registered podName podIp url)).setCaller c { x with
          pc := .starting s.serverCount .registered
          seenPods := podName :: x.seenPods })
  | updated (S : Nat) (podName podIp url : String) (hpc : x.pc = .locked)
      (hfind : s.pServerNameLookup.lookup podName = some S)
      (hdynamic : (s.servers S).dynamic = true) :
      CallerEffect s c x (.update podName podIp url)
        ((s.setServer S ((s.servers S).serversUpdateRegistryServer podIp url)).setCaller c
          { x with seenPods := podName :: x.seenPods })
  | restarting (S : Nat) (podName podIp url : String) (hpc : x.pc = .locked)
      (hfind : s.pServerNameLookup.lookup podName = some S)
      (hdynamic : (s.servers S).dynamic = true) :
      CallerEffect s c x (.update podName podIp url)
        ((s.setServer S ((s.servers S).serversUpdateRegistryServer podIp url)).setCaller c
          { x with pc := .starting S .restart, seenPods := podName :: x.seenPods })
  | seen (podName podIp url : String) (hpc : x.pc = .locked) :
      CallerEffect s c x (.update podName podIp url)
        (s.setCaller c { x with seenPods := podName :: x.seenPods })
  | collected (S : Nat) (name : String) (hpc : x.pc = .locked)
      (hfind : s.pServerNameLookup.lookup name = some S)
      (hdynamic : (s.servers S).dynamic = true)
      (hcalls : (s.servers S).callsInProgress = 0) :
      CallerEffect s c x (.collect name)
        (s.setCaller c { x with evictList := x.evictList ++ [S] })
  | unlocked (hpc : x.pc = .locked) :
      CallerEffect s c x .unlock { s.setCaller c { x with pc := .evicting } with mutex := none }
  | evicting (S : Nat) (evictList : List Nat) (hpc : x.pc = .evicting)
      (hlist : x.evictList = S :: evictList) :
      CallerEffect s c x .evict
        ((s.setServer S { s.servers S with evicted := true }).setCaller c
          { x with pc := .stopping S, evictList := evictList })
  | refreshed (hpc : x.pc = .evicting) (hlist : x.evictList = []) :
      CallerEffect s c x .refreshed (s.setCaller c { x with pc := .done })
  | startPassed (S : Nat) (call : StartCall) (hpc : x.pc = .starting S call)
      (htest : call.force = true ∨ (s.servers S).enabled = false) :
      CallerEffect s c x .startTest
        ((s.setServer S { s.servers S with enabled := true }).setCaller c
          { x with pc := .creating S })
  | startRefused (S : Nat) (call : StartCall) (hpc : x.pc = .starting S call) :
      CallerEffect s c x .startTest (s.setCaller c x.started)
  | created (S : Nat) (hpc : x.pc = .creating S) :
      CallerEffect s c x .create
        { (s.setServer S { s.servers S with pThread := some s.threads.length }).setCaller c
            x.started with
          threads := s.threads ++ [{ server := S }] }
  | terminated (S : Nat) (hpc : x.pc = .stopping S) (hstop : (s.servers S).stoppable = true) :
      CallerEffect s c x .stopTest
        ((s.setServer S { s.servers S with terminating := true }).setCaller c
          { x with pc := .terminating S })
  | notStoppable (S : Nat) (hpc : x.pc = .stopping S) :
      CallerEffect s c x .stopTest (s.setCaller c { x with pc := .notStopped S })
  | threadRead (S t : Nat) (hpc : x.pc = .terminating S)
      (hthread : (s.servers S).pThread = some t) :
      CallerEffect s c x .readThread (s.setCaller c { x with pc := .joining S t })
  | joined (S t : Nat) (thread : Thread) (hpc : x.pc = .joining S t)
      (hthread : s.threads[t]? = some thread) (hreturned : thread.pc = .returned) :
      CallerEffect s c x .join (s.setCaller c { x with pc := .joined S })
  | threadCleared (S : Nat) (hpc : x.pc = .joined S) :
      CallerEffect s c x .clearThread
        ((s.setServer S { s.servers S with pThread := none }).setCaller c
          { x with pc := .clearing S })
  | flagsCleared (S : Nat) (hpc : x.pc = .clearing S) :
      CallerEffect s c x .clearFlags
        ((s.setServer S { s.servers S with terminating := false, enabled := false }).setCaller c
          x.stopped)
  | toRemove (S : Nat) (hpc : x.pc = .notStopped S) (hevicted : (s.servers S).evicted = true) :
      CallerEffect s c x .testEvicted (s.setCaller c { x with pc := .removing S })
  | notEvicted (S : Nat) (hpc : x.pc = .notStopped S) :
      CallerEffect s c x .testEvicted (s.setCaller c x.stopped)
  | removed (S : Nat) (hpc : x.pc = .removing S) (hmutex : s.mutex = none) :
      CallerEffect s c x .remove
        ((s.serversDynamicRemoveFromLookup S).setCaller c x.stopped)

theorem callerStep_effect {s s' : State} {c : Nat} {x : Caller} {a : CallerAction}
    (h : s.callerStep c x a = some s') : CallerEffect s c x a s' := by
  unfold State.callerStep at h
  split at h
  · next podName podIp url hpc =>
      split at h <;> cases h
      next hnew => exact .registered podName podIp url hpc (Option.isNone_iff_eq_none.mp hnew)
  · next podName podIp url hpc =>
      split at h
      · next S hfind =>
          dsimp only at h
          split at h
          · next hdynamic =>
              split at h <;> cases h
              · exact .updated S podName podIp url hpc hfind hdynamic
              · exact .restarting S podName podIp url hpc hfind hdynamic
          · cases h
            exact .seen podName podIp url hpc
      · cases h
  · next name hpc =>
      split at h
      · next S hfind =>
          split at h <;> cases h
          next htests => exact .collected S name hpc hfind htests.1 htests.2.2.1
      · cases h
  · next hpc =>
      cases h
      exact .unlocked hpc
  · next hpc =>
      split at h <;> cases h
      next S evictList hlist => exact .evicting S evictList hpc hlist
  · next hpc =>
      split at h <;> cases h
      next hlist => exact .refreshed hpc hlist
  · next S call hpc =>
      split at h <;> cases h
      · next htest => exact .startPassed S call hpc htest
      · exact .startRefused S call hpc
  · next S hpc =>
      cases h
      exact .created S hpc
  · next S hpc =>
      split at h <;> cases h
      · next hstop => exact .terminated S hpc hstop
      · exact .notStoppable S hpc
  · next S hpc =>
      split at h <;> cases h
      next t hthread => exact .threadRead S t hpc hthread
  · next S t hpc =>
      split at h <;> cases h
      next hreturned =>
        -- a join waits for a thread that exists
        cases hthread : s.threads[t]? with
        | none => simp [hthread] at hreturned
        | some thread => exact .joined S t thread hpc hthread (by simpa [hthread] using hreturned)
  · next S hpc =>
      cases h
      exact .threadCleared S hpc
  · next S hpc =>
      cases h
      exact .flagsCleared S hpc
  · next S hpc =>
      cases h
      cases hevicted : (s.servers S).evicted with
      | true => exact .toRemove S hpc hevicted
      | false => exact .notEvicted S hpc
  · next S hpc =>
      split at h <;> cases h
      next hmutex => exact .removed S hpc hmutex
  · cases h

/-! ## Legs -/

inductive LegAction where
  | initLookup
  /-- `apiGetSenderId` returned an id, or none. -/
  | attach (ok : Bool)
  /-- `hashInsert` or `apiCreateRoom` failed. -/
  | fail
  | countServer
  | countGlobal
  | hangupLookup
  | uncountServer
  deriving DecidableEq, Repr

/-- A step of leg `l`, which is `leg`: `channel_on_init` and `channel_on_hangup`. -/
def State.legStep (s : State) (l : Nat) (leg : Leg) (a : LegAction) : Option State :=
  match leg.pc, a with
  | .dialled, .initLookup =>
      match hashFind s.serverIdLookup leg.serverId with
      | some S => some (s.setLeg l { leg with pc := .found S })
      | none => some (s.setLeg l { leg with pc := .failed })
  | .found S, .attach ok =>
      if ok then some (s.setLeg l { leg with pc := .attached S })
      else
        some ((s.setServer S { s.servers S with serverId := 0 }).setLeg l
          { leg with pc := .failed })
  | .attached _, .fail => some (s.setLeg l { leg with pc := .failed })
  | .attached S, .countServer =>
      some ((s.setServer S { s.servers S with
        callsInProgress := (s.servers S).callsInProgress + 1 }).setLeg l
          { leg with pc := .counted S })
  | .counted S, .countGlobal =>
      if s.mutex = none then some (s.setLeg l { leg with pc := .established S }) else none
  | .established _, .hangupLookup | .failed, .hangupLookup =>
      match hashFind s.serverIdLookup leg.serverId with
      | some S => some (s.setLeg l { leg with pc := .leaving S })
      | none => some (s.setLeg l { leg with pc := .gone })
  | .leaving S, .uncountServer =>
      some ((s.setServer S { s.servers S with
        callsInProgress := (s.servers S).callsInProgress - 1 }).setLeg l
          { leg with pc := .gone })
  | _, _ => none

/-- Everything a step of leg `l` can do. -/
inductive LegEffect (s : State) (l : Nat) (leg : Leg) : LegAction → State → Prop where
  | found (S : Nat) (hpc : leg.pc = .dialled)
      (hfind : hashFind s.serverIdLookup leg.serverId = some S) :
      LegEffect s l leg .initLookup (s.setLeg l { leg with pc := .found S })
  | notFound (hpc : leg.pc = .dialled) :
      LegEffect s l leg .initLookup (s.setLeg l { leg with pc := .failed })
  | attached (S : Nat) (hpc : leg.pc = .found S) :
      LegEffect s l leg (.attach true) (s.setLeg l { leg with pc := .attached S })
  | attachFailed (S : Nat) (hpc : leg.pc = .found S) :
      LegEffect s l leg (.attach false)
        ((s.setServer S { s.servers S with serverId := 0 }).setLeg l { leg with pc := .failed })
  | failed (S : Nat) (hpc : leg.pc = .attached S) :
      LegEffect s l leg .fail (s.setLeg l { leg with pc := .failed })
  | counted (S : Nat) (hpc : leg.pc = .attached S) :
      LegEffect s l leg .countServer
        ((s.setServer S { s.servers S with
          callsInProgress := (s.servers S).callsInProgress + 1 }).setLeg l
            { leg with pc := .counted S })
  | established (S : Nat) (hpc : leg.pc = .counted S) :
      LegEffect s l leg .countGlobal (s.setLeg l { leg with pc := .established S })
  | hangupFound (S : Nat) (hfind : hashFind s.serverIdLookup leg.serverId = some S) :
      LegEffect s l leg .hangupLookup (s.setLeg l { leg with pc := .leaving S })
  | hangupNotFound : LegEffect s l leg .hangupLookup (s.setLeg l { leg with pc := .gone })
  | uncounted (S : Nat) (hpc : leg.pc = .leaving S) :
      LegEffect s l leg .uncountServer
        ((s.setServer S { s.servers S with
          callsInProgress := (s.servers S).callsInProgress - 1 }).setLeg l
            { leg with pc := .gone })

theorem legStep_effect {s s' : State} {l : Nat} {leg : Leg} {a : LegAction}
    (h : s.legStep l leg a = some s') : LegEffect s l leg a s' := by
  unfold State.legStep at h
  split at h
  · next hpc =>
      split at h <;> cases h
      · next S hfind => exact .found S hpc hfind
      · exact .notFound hpc
  · next S ok hpc =>
      cases ok <;> cases h
      · exact .attachFailed S hpc
      · exact .attached S hpc
  · next S hpc =>
      cases h
      exact .failed S hpc
  · next S hpc =>
      cases h
      exact .counted S hpc
  · next S hpc =>
      split at h <;> cases h
      exact .established S hpc
  · split at h <;> cases h
    · next S hfind => exact .hangupFound S hfind
    · exact .hangupNotFound
  · split at h <;> cases h
    · next S hfind => exact .hangupFound S hfind
    · exact .hangupNotFound
  · next S hpc =>
      cases h
      exact .uncounted S hpc
  · cases h

/-! ## The system -/

inductive Action where
  /-- `serversAdd`, for a server of the configuration. -/
  | serversAdd (pName pUrl : String) (enabled : Bool)
  /-- The next round of the loop of `mod_janus_load`. -/
  | load
  | loaded
  /-- `janus server NAME enable` and `disable`. -/
  | enable (name : String)
  | disable (name : String)
  /-- A refresh, by the registry thread or while dialling, takes `globals.mutex`. -/
  | refresh
  /-- `channel_outgoing_channel` takes the id of a server. -/
  | dial (S : Nat)
  | thread (t : Nat) (a : ThreadAction)
  | caller (c : Nat) (a : CallerAction)
  | leg (l : Nat) (a : LegAction)
  deriving DecidableEq, Repr

def State.call (s : State) (x : Caller) : State := { s with callers := s.callers ++ [x] }

def step (s : State) : Action → Option State
  | .serversAdd pName pUrl enabled =>
      match s.loading with
      | some rest =>
          if s.callers = [] ∧ s.threads = [] ∧ (s.pServerNameLookup.lookup pName).isNone then
            some { s.addServer (.configured pName pUrl enabled) with
              loading := some (if enabled then rest ++ [pName] else rest) }
          else none
      | none => none
  | .load =>
      match s.loading with
      | some (name :: rest) =>
          (s.pServerNameLookup.lookup name).map fun S =>
            { s.call { pc := .starting S .load } with loading := some rest }
      | _ => none
  | .loaded =>
      if s.loading = some [] ∧ ∀ x ∈ s.callers, x.pc = .done then
        some { s with loading := none }
      else none
  | .enable name =>
      if s.loading = none then
        (s.pServerNameLookup.lookup name).map fun S => s.call { pc := .starting S .console }
      else none
  | .disable name =>
      if s.loading = none then
        (s.pServerNameLookup.lookup name).map fun S => s.call { pc := .stopping S }
      else none
  | .refresh =>
      if s.loading = none ∧ s.mutex = none then
        some { s.call { pc := .locked, inRefresh := true } with mutex := some s.callers.length }
      else none
  | .dial S => some { s with legs := s.legs ++ [{ serverId := (s.servers S).serverId }] }
  | .thread t a =>
      match s.threads[t]? with
      | some thread => s.threadStep t thread a
      | none => none
  | .caller c a =>
      match s.callers[c]? with
      | some x => s.callerStep c x a
      | none => none
  | .leg l a =>
      match s.legs[l]? with
      | some leg => s.legStep l leg a
      | none => none

/-- Who takes a step, and what it does. -/
inductive StepCase (s : State) (s' : State) : Action → Prop where
  | added (pName pUrl : String) (enabled : Bool) (rest : List String)
      (hnew : s.pServerNameLookup.lookup pName = none)
      (hstate : s' = { s.addServer (.configured pName pUrl enabled) with
        loading := some (if enabled then rest ++ [pName] else rest) })
      (hloading : s.loading = some rest) (hcallers : s.callers = []) (hthreads : s.threads = []) :
      StepCase s s' (.serversAdd pName pUrl enabled)
  | loads (name : String) (S : Nat) (rest : List String)
      (hloading : s.loading = some (name :: rest))
      (hfind : s.pServerNameLookup.lookup name = some S)
      (hstate : s' = { s.call { pc := .starting S .load } with loading := some rest }) :
      StepCase s s' .load
  | loaded (hloading : s.loading = some []) (hcallers : ∀ x ∈ s.callers, x.pc = .done)
      (hstate : s' = { s with loading := none }) : StepCase s s' .loaded
  | enables (name : String) (S : Nat) (hloading : s.loading = none)
      (hfind : s.pServerNameLookup.lookup name = some S)
      (hstate : s' = s.call { pc := .starting S .console }) : StepCase s s' (.enable name)
  | disables (name : String) (S : Nat) (hloading : s.loading = none)
      (hfind : s.pServerNameLookup.lookup name = some S)
      (hstate : s' = s.call { pc := .stopping S }) : StepCase s s' (.disable name)
  | refreshes (hloading : s.loading = none) (hmutex : s.mutex = none)
      (hstate : s' = { s.call { pc := .locked, inRefresh := true } with
        mutex := some s.callers.length }) : StepCase s s' .refresh
  | dials (S : Nat)
      (hstate : s' = { s with legs := s.legs ++ [{ serverId := (s.servers S).serverId }] }) :
      StepCase s s' (.dial S)
  | thread (t : Nat) (thread : Thread) (action : ThreadAction) (ht : s.threads[t]? = some thread)
      (heffect : ThreadEffect s t thread action s') : StepCase s s' (.thread t action)
  | caller (c : Nat) (x : Caller) (action : CallerAction) (hc : s.callers[c]? = some x)
      (heffect : CallerEffect s c x action s') : StepCase s s' (.caller c action)
  | leg (l : Nat) (leg : Leg) (action : LegAction) (hl : s.legs[l]? = some leg)
      (heffect : LegEffect s l leg action s') : StepCase s s' (.leg l action)

theorem step_case {s s' : State} {a : Action} (h : step s a = some s') : StepCase s s' a := by
  cases a with
  | serversAdd pName pUrl enabled =>
      simp only [step] at h
      split at h
      · next rest hloading =>
          split at h <;> cases h
          next htests =>
            exact .added pName pUrl enabled rest (Option.isNone_iff_eq_none.mp htests.2.2) rfl
              hloading htests.1 htests.2.1
      · cases h
  | load =>
      simp only [step] at h
      split at h
      · next name rest hloading =>
          obtain ⟨S, hfind, rfl⟩ := Option.map_eq_some_iff.mp h
          exact .loads name S rest hloading hfind rfl
      · cases h
  | loaded =>
      simp only [step] at h
      split at h <;> cases h
      next htests => exact .loaded htests.1 htests.2 rfl
  | enable name =>
      simp only [step] at h
      split at h
      · next hloading =>
          obtain ⟨S, hfind, rfl⟩ := Option.map_eq_some_iff.mp h
          exact .enables name S hloading hfind rfl
      · cases h
  | disable name =>
      simp only [step] at h
      split at h
      · next hloading =>
          obtain ⟨S, hfind, rfl⟩ := Option.map_eq_some_iff.mp h
          exact .disables name S hloading hfind rfl
      · cases h
  | refresh =>
      simp only [step] at h
      split at h <;> cases h
      next htests => exact .refreshes htests.1 htests.2 rfl
  | dial S =>
      cases h
      exact .dials S rfl
  | thread t action =>
      simp only [step] at h
      split at h
      · next thread ht => exact .thread t thread action ht (threadStep_effect h)
      · cases h
  | caller c action =>
      simp only [step] at h
      split at h
      · next x hc => exact .caller c x action hc (callerStep_effect h)
      · cases h
  | leg l action =>
      simp only [step] at h
      split at h
      · next leg hl => exact .leg l leg action hl (legStep_effect h)
      · cases h

/-- The module is being loaded: no server is defined yet. -/
def Initial (s : State) : Prop := ∃ podServerFailMax, s = { podServerFailMax := podServerFailMax }

end ModJanus.Registry
