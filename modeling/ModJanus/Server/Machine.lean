/-
  ModJanus.Server.Machine

  The servers, their threads and the legs, interleaved: `server_thread_run`,
  `channel_outgoing_channel`, `channel_on_init` and `channel_on_hangup` of
  mod_janus.c, and the removal of dynamic servers of servers.c.

  A leg takes one step for each thing that others can observe: a lookup, an update
  of a table, a section under a mutex.  FreeSWITCH runs `channel_on_hangup` once for
  a leg, after `channel_on_init`; when it does so is open.  A server has at most one
  thread: it is started when there is none.
-/
import Mathlib.Logic.Function.Basic
import ModJanus.Lib.Transition
import ModJanus.Server.Thread

namespace ModJanus.Servers

/-! ## Legs -/

/-- Where a leg stands; `S` is the server that the running function has found. -/
inductive CallPc where
  /-- `channel_outgoing_channel`, after `waitServerActive`. -/
  | resolved (S : Nat)
  /-- Dialled, before `channel_on_init`. -/
  | ready
  | found (S : Nat)
  | attached (S : Nat)
  | inserted (S : Nat)
  /-- The room exists. -/
  | roomReady (S : Nat)
  /-- Counted by its server. -/
  | counted (S : Nat)
  /-- `channel_on_init` returned success. -/
  | established
  /-- `channel_on_init` returned another status. -/
  | failed
  | hangupFound (S : Nat)
  | hangupDeleted (S : Nat)
  | hangupUncounted (S : Nat)
  /-- `channel_on_hangup` returned, or the leg was never dialled. -/
  | gone
  deriving DecidableEq, Repr

/-- `private_t` of a leg. -/
structure Call where
  serverId : JanusId := 0
  senderId : JanusId := 0
  pc : CallPc
  /-- The server that `channel_on_init` found. -/
  home : Option Nat := none
  /-- `channel_on_init` returned success. -/
  established : Bool := false
  deriving DecidableEq, Repr

/-! ## State -/

/-- `globals` and the servers; a server is its index, below `serverCount`. -/
structure State where
  servers : Nat → Server := fun _ => {}
  serverCount : Nat := 0
  pServerNameLookup : AList fun _ : String => Nat := ∅
  serverIdLookup : Hash Nat := ∅
  calls : List Call := []
  callsInProgress : Nat := 0
  totalCalls : Nat := 0
  podServerFailMax : Nat := 0

def State.setServer (s : State) (S : Nat) (pServer : Server) : State :=
  { s with servers := Function.update s.servers S pServer }

def State.setCall (s : State) (l : Nat) (c : Call) : State :=
  { s with calls := s.calls.set l c }

section Updates

variable (s : State) (S : Nat) (pServer : Server) (l : Nat) (c : Call)

@[simp] theorem State.setServer_self : (s.setServer S pServer).servers S = pServer :=
  Function.update_self ..

@[simp] theorem State.setServer_serverIdLookup :
    (s.setServer S pServer).serverIdLookup = s.serverIdLookup := rfl

@[simp] theorem State.setServer_callsInProgress :
    (s.setServer S pServer).callsInProgress = s.callsInProgress := rfl

@[simp] theorem State.setCall_servers : (s.setCall l c).servers = s.servers := rfl

variable {S}

theorem State.setServer_ne {T : Nat} (h : T ≠ S) :
    (s.setServer S pServer).servers T = s.servers T :=
  Function.update_of_ne h ..

end Updates

/-- `tech_pvt->senderId` of a leg. -/
def State.senderIdOf (s : State) (l : Nat) : Option JanusId := s.calls[l]?.map Call.senderId

/-! ## Servers -/

/-- `serversDynamicRemoveFromLookup`. -/
def State.serversDynamicRemoveFromLookup (s : State) (S : Nat) : State :=
  let pServer := s.servers S
  match pServer.dynamic, pServer.name with
  | true, some name =>
      if (s.pServerNameLookup.lookup name).isSome then
        { s.setServer S { pServer with serverId := 0, enabled := false } with
          serverIdLookup :=
            if pServer.serverId ≠ 0 then (hashDelete s.serverIdLookup pServer.serverId).1
            else s.serverIdLookup
          pServerNameLookup := s.pServerNameLookup.erase name }
      else s
  | _, _ => s

/-- A new `server_t`, unless there is one of that name. -/
def State.addServer (s : State) (name : String) (enabled dynamic : Bool) : Option State :=
  if (s.pServerNameLookup.lookup name).isNone then
    some { s.setServer s.serverCount { s.servers s.serverCount with
        name := some name, enabled := enabled, dynamic := dynamic } with
      serverCount := s.serverCount + 1
      pServerNameLookup := s.pServerNameLookup.insert name s.serverCount }
  else none

/-- The removal either finds nothing to do, or clears the server and the entry of its
    session id. -/
theorem State.serversDynamicRemoveFromLookup_cases (s : State) (S : Nat) :
    s.serversDynamicRemoveFromLookup S = s ∨
      ∃ names, s.serversDynamicRemoveFromLookup S =
        { s.setServer S { s.servers S with serverId := 0, enabled := false } with
          serverIdLookup :=
            if (s.servers S).serverId ≠ 0 then
              (hashDelete s.serverIdLookup (s.servers S).serverId).1
            else s.serverIdLookup
          pServerNameLookup := names } := by
  unfold State.serversDynamicRemoveFromLookup
  simp only
  split
  · split
    · exact .inr ⟨_, rfl⟩
    · exact .inl rfl
  · exact .inl rfl

inductive ServerAction where
  | thread (a : ThreadAction)
  /-- The thread returns, after the removal of an evicted server. -/
  | threadReturn
  /-- `stopServerThread` sets `SFLAG_TERMINATING`. -/
  | terminate
  /-- `stopServerThread` has joined the thread. -/
  | joined
  /-- `serversRegistryRefresh` marks the server for eviction. -/
  | evict
  /-- `stopServerThread` finds the thread stopped, or being stopped. -/
  | alreadyStopped
  deriving DecidableEq, Repr

/-- `stopServerThread` takes the branch that stops the thread. -/
def Server.stoppable (pServer : Server) : Bool :=
  pServer.enabled && !pServer.terminating && pServer.pThread

def State.serverStep (s : State) (S : Nat) : ServerAction → Option State
  | .thread a =>
      ((s.servers S).threadStep S s.serverIdLookup s.podServerFailMax s.senderIdOf a).map
        fun after => { s.setServer S after.1 with serverIdLookup := after.2 }
  | .threadReturn =>
      if (s.servers S).pc = .exiting then
        let returned := s.setServer S { s.servers S with pc := .notRunning, threadServerId := 0 }
        some (if (s.servers S).evicted then returned.serversDynamicRemoveFromLookup S
          else returned)
      else none
  | .terminate =>
      if (s.servers S).stoppable then
        some (s.setServer S { s.servers S with terminating := true })
      else none
  | .joined =>
      if (s.servers S).terminating ∧ (s.servers S).pc = .notRunning then
        some (s.setServer S { s.servers S with
          terminating := false, enabled := false, pThread := false })
      else none
  | .evict =>
      if (s.servers S).dynamic then
        some (s.setServer S { s.servers S with evicted := true })
      else none
  | .alreadyStopped =>
      if (s.servers S).stoppable then none
      else if (s.servers S).evicted then some (s.serversDynamicRemoveFromLookup S)
      else some s

/-- Everything a step of server `S` can do. -/
inductive ServerEffect (s : State) (S : Nat) : ServerAction → State → Prop where
  | thread (a : ThreadAction) (v : Server) (L : Hash Nat)
      (heffect : ThreadEffect (s.servers S) S s.serverIdLookup s.podServerFailMax a v L) :
      ServerEffect s S (.thread a) { s.setServer S v with serverIdLookup := L }
  | returned (hpc : (s.servers S).pc = .exiting) :
      ServerEffect s S .threadReturn
        (s.setServer S { s.servers S with pc := .notRunning, threadServerId := 0 })
  | returnedRemoved (hpc : (s.servers S).pc = .exiting) :
      ServerEffect s S .threadReturn
        ((s.setServer S { s.servers S with
          pc := .notRunning, threadServerId := 0 }).serversDynamicRemoveFromLookup S)
  | terminated :
      ServerEffect s S .terminate (s.setServer S { s.servers S with terminating := true })
  | joined (hpc : (s.servers S).pc = .notRunning) :
      ServerEffect s S .joined (s.setServer S { s.servers S with
        terminating := false, enabled := false, pThread := false })
  | evicted : ServerEffect s S .evict (s.setServer S { s.servers S with evicted := true })
  | removed : ServerEffect s S .alreadyStopped (s.serversDynamicRemoveFromLookup S)
  | untouched : ServerEffect s S .alreadyStopped s

theorem serverStep_effect {s s' : State} {S : Nat} {a : ServerAction}
    (h : s.serverStep S a = some s') : ServerEffect s S a s' := by
  cases a with
  | thread a =>
      obtain ⟨⟨v, L⟩, hstep, rfl⟩ := Option.map_eq_some_iff.mp h
      exact .thread a v L (threadStep_effect hstep)
  | threadReturn =>
      simp only [State.serverStep] at h
      split at h <;> cases h
      next hpc =>
        split
        · exact .returnedRemoved hpc
        · exact .returned hpc
  | terminate =>
      simp only [State.serverStep] at h
      split at h <;> cases h
      exact .terminated
  | joined =>
      simp only [State.serverStep] at h
      split at h <;> cases h
      next hjoined => exact .joined hjoined.2
  | evict =>
      simp only [State.serverStep] at h
      split at h <;> cases h
      exact .evicted
  | alreadyStopped =>
      simp only [State.serverStep] at h
      split at h
      · cases h
      · split at h <;> cases h
        · exact .removed
        · exact .untouched

/-- What a step of server `S` leaves alone. -/
structure ServerFrame (s : State) (S : Nat) (s' : State) : Prop where
  calls : s'.calls = s.calls
  callsInProgress : s'.callsInProgress = s.callsInProgress
  serverCount : s.serverCount ≤ s'.serverCount
  other : ∀ T, T ≠ S → s'.servers T = s.servers T

theorem ServerFrame.refl (s : State) (S : Nat) : ServerFrame s S s :=
  ⟨rfl, rfl, Nat.le_refl _, fun _ _ => rfl⟩

theorem ServerFrame.setServer (s : State) (S : Nat) (pServer : Server) :
    ServerFrame s S (s.setServer S pServer) :=
  ⟨rfl, rfl, Nat.le_refl _, fun _ hT => s.setServer_ne pServer hT⟩

theorem ServerFrame.trans {s s' s'' : State} {S : Nat} (h : ServerFrame s S s')
    (h' : ServerFrame s' S s'') : ServerFrame s S s'' where
  calls := h'.calls.trans h.calls
  callsInProgress := h'.callsInProgress.trans h.callsInProgress
  serverCount := Nat.le_trans h.serverCount h'.serverCount
  other T hT := (h'.other T hT).trans (h.other T hT)

theorem addServer_frame {s s' : State} {name : String} {enabled dynamic : Bool}
    (h : s.addServer name enabled dynamic = some s') : ServerFrame s s.serverCount s' := by
  unfold State.addServer at h
  split at h <;> cases h
  exact ⟨rfl, rfl, Nat.le_succ _, fun T hT => s.setServer_ne _ hT⟩

theorem removed_frame (s : State) (S : Nat) :
    ServerFrame s S (s.serversDynamicRemoveFromLookup S) := by
  rcases s.serversDynamicRemoveFromLookup_cases S with h | ⟨names, h⟩
  · rw [h]
    exact .refl s S
  · rw [h]
    exact ⟨rfl, rfl, Nat.le_refl _, fun T hT => s.setServer_ne _ hT⟩

theorem serverStep_frame {s s' : State} {S : Nat} {a : ServerAction}
    (h : ServerEffect s S a s') : ServerFrame s S s' := by
  cases h with
  | thread a v L heffect => exact ⟨rfl, rfl, Nat.le_refl _, fun T hT => s.setServer_ne _ hT⟩
  | returnedRemoved hpc => exact (ServerFrame.setServer s S _).trans (removed_frame _ S)
  | removed => exact removed_frame s S
  | untouched => exact .refl s S
  | _ => exact .setServer s S _

/-- A step that keeps a server's legs and counter, and its thread's session id unless it
    ends the thread. -/
structure Quiet (s : State) (S : Nat) (s' : State) : Prop where
  senderIdLookup : (s'.servers S).senderIdLookup = (s.servers S).senderIdLookup
  callsInProgress : (s'.servers S).callsInProgress = (s.servers S).callsInProgress
  threadServerId : (s'.servers S).threadServerId = (s.servers S).threadServerId ∨
    (s'.servers S).threadServerId = 0

theorem Quiet.refl (s : State) (S : Nat) : Quiet s S s := ⟨rfl, rfl, .inl rfl⟩

theorem Quiet.setServer {s : State} {S : Nat} {pServer : Server}
    (hsenders : pServer.senderIdLookup = (s.servers S).senderIdLookup)
    (hcalls : pServer.callsInProgress = (s.servers S).callsInProgress)
    (hthread : pServer.threadServerId = (s.servers S).threadServerId ∨
      pServer.threadServerId = 0) :
    Quiet s S (s.setServer S pServer) := by
  refine ⟨?_, ?_, ?_⟩
  · rw [State.setServer_self, hsenders]
  · rw [State.setServer_self, hcalls]
  · rw [State.setServer_self]
    exact hthread

theorem Quiet.trans {s s' s'' : State} {S : Nat} (h : Quiet s S s') (h' : Quiet s' S s'') :
    Quiet s S s'' where
  senderIdLookup := h'.senderIdLookup.trans h.senderIdLookup
  callsInProgress := h'.callsInProgress.trans h.callsInProgress
  threadServerId := by
    rcases h'.threadServerId with hsame | hzero
    · rw [hsame]
      exact h.threadServerId
    · exact .inr hzero

theorem removed_quiet (s : State) (S : Nat) : Quiet s S (s.serversDynamicRemoveFromLookup S) := by
  rcases s.serversDynamicRemoveFromLookup_cases S with h | ⟨names, h⟩
  · rw [h]
    exact .refl s S
  · rw [h]
    have hset : Quiet s S (s.setServer S { s.servers S with serverId := 0, enabled := false }) :=
      .setServer rfl rfl (.inl rfl)
    exact ⟨hset.senderIdLookup, hset.callsInProgress, hset.threadServerId⟩

theorem addServer_quiet {s s' : State} {name : String} {enabled dynamic : Bool}
    (h : s.addServer name enabled dynamic = some s') : Quiet s s.serverCount s' := by
  unfold State.addServer at h
  split at h <;> cases h
  have hset : Quiet s s.serverCount (s.setServer s.serverCount
      { s.servers s.serverCount with name := some name, enabled := enabled, dynamic := dynamic }) :=
    .setServer rfl rfl (.inl rfl)
  exact ⟨hset.senderIdLookup, hset.callsInProgress, hset.threadServerId⟩

/-- A step of a server is one of its thread, or it is quiet. -/
theorem serverStep_cases {s s' : State} {S : Nat} {a : ServerAction}
    (h : ServerEffect s S a s') :
    (∃ action L', a = .thread action ∧
      ThreadEffect (s.servers S) S s.serverIdLookup s.podServerFailMax action (s'.servers S) L') ∨
    Quiet s S s' := by
  have hreturned : Quiet s S
      (s.setServer S { s.servers S with pc := .notRunning, threadServerId := 0 }) :=
    .setServer rfl rfl (.inr rfl)
  cases h with
  | thread action v L heffect =>
      refine .inl ⟨action, L, rfl, ?_⟩
      rwa [← s.setServer_self S v] at heffect
  | returned hpc => exact .inr hreturned
  | returnedRemoved hpc => exact .inr (hreturned.trans (removed_quiet _ S))
  | removed => exact .inr (removed_quiet s S)
  | untouched => exact .inr (.refl s S)
  | terminated | joined hpc | evicted => exact .inr (.setServer rfl rfl (.inl rfl))

/-- One look of `waitServerActive`. -/
def waitServerActive (s : State) (S : Nat) : Option Nat :=
  if (s.servers S).serverId ≠ 0 then hashFind s.serverIdLookup (s.servers S).serverId else none

/-! ## `channel_on_init` and `channel_on_hangup` -/

inductive CallAction where
  /-- `channel_outgoing_channel`, with the server resolved. -/
  | dial
  | initLookup
  /-- `apiGetSenderId` returned `senderId`. -/
  | attach (senderId : JanusId)
  | insert (inserted : Bool)
  /-- `apiCreateRoom` made the room, or the room existed. -/
  | createRoom (created : Bool)
  | countServer
  | countGlobal
  | hangupLookup
  /-- After `apiLeave` and `apiDetach`. -/
  | hangupDelete
  | uncountServer
  | uncountGlobal
  deriving DecidableEq, Repr

/-- A step of leg `l`, which is `c`. -/
def State.callStep (s : State) (l : Nat) (c : Call) (a : CallAction) : Option State :=
  match c.pc, a with
  | .resolved S, .dial =>
      if (s.servers S).enabled then
        some (s.setCall l { c with pc := .ready, serverId := (s.servers S).serverId })
      else some (s.setCall l { c with pc := .gone })
  | .ready, .initLookup =>
      match hashFind s.serverIdLookup c.serverId with
      | some S => some (s.setCall l { c with pc := .found S, home := some S })
      | none => some (s.setCall l { c with pc := .failed })
  | .found S, .attach senderId =>
      if senderId = 0 then
        some ((s.setServer S { s.servers S with serverId := 0 }).setCall l { c with pc := .failed })
      else some (s.setCall l { c with pc := .attached S, senderId := senderId })
  | .attached S, .insert inserted =>
      if (s.servers S).hasSenderIdLookup then
        if inserted then
          some ((s.setServer S { s.servers S with
            senderIdLookup := hashInsert (s.servers S).senderIdLookup c.senderId l }).setCall l
              { c with pc := .inserted S })
        else some (s.setCall l { c with pc := .failed })
      else none
  | .inserted S, .createRoom created =>
      some (s.setCall l { c with pc := if created then .roomReady S else .failed })
  | .roomReady S, .countServer =>
      some ((s.setServer S { s.servers S with
        callsInProgress := (s.servers S).callsInProgress + 1
        totalCalls := (s.servers S).totalCalls + 1 }).setCall l { c with pc := .counted S })
  | .counted _, .countGlobal =>
      some { s.setCall l { c with pc := .established, established := true } with
        callsInProgress := s.callsInProgress + 1
        totalCalls := s.totalCalls + 1 }
  | .established, .hangupLookup | .failed, .hangupLookup =>
      match hashFind s.serverIdLookup c.serverId with
      | some S => some (s.setCall l { c with pc := .hangupFound S })
      | none => some (s.setCall l { c with pc := .gone })
  | .hangupFound S, .hangupDelete =>
      if (s.servers S).hasSenderIdLookup then
        some ((s.setServer S { s.servers S with
          senderIdLookup := (hashDelete (s.servers S).senderIdLookup c.senderId).1 }).setCall l
            { c with pc := .hangupDeleted S })
      else none
  | .hangupDeleted S, .uncountServer =>
      some ((s.setServer S { s.servers S with
        callsInProgress := (s.servers S).callsInProgress - 1 }).setCall l
          { c with pc := .hangupUncounted S })
  | .hangupUncounted _, .uncountGlobal =>
      some { s.setCall l { c with pc := .gone } with callsInProgress := s.callsInProgress - 1 }
  | _, _ => none

/-- What a step of a leg does to the system. -/
inductive CallEffect (s : State) (l : Nat) (c : Call) : CallAction → State → Prop where
  | dialled (S : Nat) (hpc : c.pc = .resolved S) :
      CallEffect s l c .dial
        (s.setCall l { c with pc := .ready, serverId := (s.servers S).serverId })
  | barred (S : Nat) (hpc : c.pc = .resolved S) :
      CallEffect s l c .dial (s.setCall l { c with pc := .gone })
  | found (S : Nat) (hpc : c.pc = .ready)
      (hfind : hashFind s.serverIdLookup c.serverId = some S) :
      CallEffect s l c .initLookup (s.setCall l { c with pc := .found S, home := some S })
  | notFound (hpc : c.pc = .ready) :
      CallEffect s l c .initLookup (s.setCall l { c with pc := .failed })
  | attachFailed (S : Nat) (hpc : c.pc = .found S) :
      CallEffect s l c (.attach 0)
        ((s.setServer S { s.servers S with serverId := 0 }).setCall l { c with pc := .failed })
  | attached (S : Nat) (hpc : c.pc = .found S) (senderId : JanusId) :
      CallEffect s l c (.attach senderId)
        (s.setCall l { c with pc := .attached S, senderId := senderId })
  | inserted (S : Nat) (hpc : c.pc = .attached S) :
      CallEffect s l c (.insert true)
        ((s.setServer S { s.servers S with
          senderIdLookup := hashInsert (s.servers S).senderIdLookup c.senderId l }).setCall l
            { c with pc := .inserted S })
  | insertFailed (S : Nat) (hpc : c.pc = .attached S) :
      CallEffect s l c (.insert false) (s.setCall l { c with pc := .failed })
  | roomReady (S : Nat) (hpc : c.pc = .inserted S) :
      CallEffect s l c (.createRoom true) (s.setCall l { c with pc := .roomReady S })
  | roomFailed (S : Nat) (hpc : c.pc = .inserted S) :
      CallEffect s l c (.createRoom false) (s.setCall l { c with pc := .failed })
  | counted (S : Nat) (hpc : c.pc = .roomReady S) :
      CallEffect s l c .countServer
        ((s.setServer S { s.servers S with
          callsInProgress := (s.servers S).callsInProgress + 1
          totalCalls := (s.servers S).totalCalls + 1 }).setCall l { c with pc := .counted S })
  | established (S : Nat) (hpc : c.pc = .counted S) :
      CallEffect s l c .countGlobal
        { s.setCall l { c with pc := .established, established := true } with
          callsInProgress := s.callsInProgress + 1
          totalCalls := s.totalCalls + 1 }
  | hangupFound (S : Nat) (hpc : c.pc = .established ∨ c.pc = .failed)
      (hfind : hashFind s.serverIdLookup c.serverId = some S) :
      CallEffect s l c .hangupLookup (s.setCall l { c with pc := .hangupFound S })
  | hangupNotFound (hpc : c.pc = .established ∨ c.pc = .failed)
      (hfind : hashFind s.serverIdLookup c.serverId = none) :
      CallEffect s l c .hangupLookup (s.setCall l { c with pc := .gone })
  | hangupDeleted (S : Nat) (hpc : c.pc = .hangupFound S) :
      CallEffect s l c .hangupDelete
        ((s.setServer S { s.servers S with
          senderIdLookup := (hashDelete (s.servers S).senderIdLookup c.senderId).1 }).setCall l
            { c with pc := .hangupDeleted S })
  | hangupUncounted (S : Nat) (hpc : c.pc = .hangupDeleted S) :
      CallEffect s l c .uncountServer
        ((s.setServer S { s.servers S with
          callsInProgress := (s.servers S).callsInProgress - 1 }).setCall l
            { c with pc := .hangupUncounted S })
  | gone (S : Nat) (hpc : c.pc = .hangupUncounted S) :
      CallEffect s l c .uncountGlobal
        { s.setCall l { c with pc := .gone } with callsInProgress := s.callsInProgress - 1 }

theorem callStep_effect {s s' : State} {l : Nat} {c : Call} {a : CallAction}
    (h : s.callStep l c a = some s') : CallEffect s l c a s' := by
  unfold State.callStep at h
  split at h
  · next S hpc =>
      split at h <;> cases h
      · exact .dialled S hpc
      · exact .barred S hpc
  · next hpc =>
      split at h <;> cases h
      · next S hfind => exact .found S hpc hfind
      · exact .notFound hpc
  · next S senderId hpc =>
      split at h <;> cases h
      · next hzero =>
          -- a sender id of 0 stands for a failed attach
          rw [hzero]
          exact .attachFailed S hpc
      · exact .attached S hpc senderId
  · next S inserted hpc =>
      split at h
      · cases inserted <;> cases h
        · exact .insertFailed S hpc
        · exact .inserted S hpc
      · cases h
  · next S created hpc =>
      cases created <;> cases h
      · exact .roomFailed S hpc
      · exact .roomReady S hpc
  · next S hpc =>
      cases h
      exact .counted S hpc
  · next S hpc =>
      cases h
      exact .established S hpc
  · next hpc =>
      split at h <;> cases h
      · next S hfind => exact .hangupFound S (.inl hpc) hfind
      · next hfind => exact .hangupNotFound (.inl hpc) hfind
  · next hpc =>
      split at h <;> cases h
      · next S hfind => exact .hangupFound S (.inr hpc) hfind
      · next hfind => exact .hangupNotFound (.inr hpc) hfind
  · next S hpc =>
      split at h
      · cases h
        exact .hangupDeleted S hpc
      · cases h
  · next S hpc =>
      cases h
      exact .hangupUncounted S hpc
  · next S hpc =>
      cases h
      exact .gone S hpc
  · cases h

/-! ## The system -/

inductive Action where
  | serversAdd (name : String) (enabled : Bool)
  /-- `serversCreateRegistryServer`, up to the start of the thread. -/
  | serversCreateRegistryServer (name : String)
  | server (S : Nat) (a : ServerAction)
  /-- `resolveServerForDial` succeeds for a new leg: `waitServerActive` found a server. -/
  | resolve (S : Nat)
  | call (l : Nat) (a : CallAction)
  deriving DecidableEq, Repr

def step (s : State) : Action → Option State
  | .serversAdd name enabled => s.addServer name enabled false
  | .serversCreateRegistryServer name => s.addServer name true true
  | .server S a => if S < s.serverCount then s.serverStep S a else none
  | .resolve S =>
      (waitServerActive s S).map fun active =>
        { s with calls := s.calls ++ [{ pc := .resolved active }] }
  | .call l a =>
      match s.calls[l]? with
      | some c => s.callStep l c a
      | none => none

/-- Who takes a step, and what it does. -/
inductive StepCase (s : State) (s' : State) : Action → Prop where
  | added {a : Action} (name : String) (enabled dynamic : Bool)
      (haction : a = .serversAdd name enabled ∨ a = .serversCreateRegistryServer name)
      (hstep : s.addServer name enabled dynamic = some s') : StepCase s s' a
  | server (S : Nat) (action : ServerAction) (hS : S < s.serverCount)
      (heffect : ServerEffect s S action s') : StepCase s s' (.server S action)
  | resolved (S active : Nat) (hactive : waitServerActive s S = some active)
      (hstate : s' = { s with calls := s.calls ++ [{ pc := .resolved active }] }) :
      StepCase s s' (.resolve S)
  | call (l : Nat) (c : Call) (action : CallAction) (hc : s.calls[l]? = some c)
      (heffect : CallEffect s l c action s') : StepCase s s' (.call l action)

theorem step_case {s s' : State} {a : Action} (h : step s a = some s') : StepCase s s' a := by
  cases a with
  | serversAdd name enabled => exact .added name enabled false (.inl rfl) h
  | serversCreateRegistryServer name => exact .added name true true (.inr rfl) h
  | server S action =>
      simp only [step] at h
      split at h
      · next hS => exact .server S action hS (serverStep_effect h)
      · cases h
  | resolve S =>
      obtain ⟨active, hactive, rfl⟩ := Option.map_eq_some_iff.mp h
      exact .resolved S active hactive rfl
  | call l action =>
      simp only [step] at h
      split at h
      · next c hc => exact .call l c action hc (callStep_effect h)
      · cases h

/-- The rule for what holds of every leg: a new leg has it, and a step of a leg keeps
    it for that leg. -/
theorem StepCase.everyCall {P : Call → Prop} {s s' : State} {a : Action} (h : StepCase s s' a)
    (hi : ∀ c ∈ s.calls, P c) (hnew : ∀ active, P { pc := .resolved active })
    (hcall : ∀ l c action, a = .call l action → s.calls[l]? = some c →
      CallEffect s l c action s' → ∃ c', s'.calls = s.calls.set l c' ∧ P c') :
    ∀ c ∈ s'.calls, P c := by
  intro d hd
  cases h with
  | added name enabled dynamic haction hstep =>
      rw [(addServer_frame hstep).calls] at hd
      exact hi d hd
  | server S action hS heffect =>
      rw [(serverStep_frame heffect).calls] at hd
      exact hi d hd
  | resolved S active hactive hstate =>
      subst hstate
      rcases List.mem_append.mp hd with hold | hlast
      · exact hi d hold
      · rw [List.mem_singleton.mp hlast]
        exact hnew active
  | call l c action hc heffect =>
      obtain ⟨c', hcalls, hc'⟩ := hcall l c action rfl hc heffect
      rw [hcalls] at hd
      -- another leg is as it was
      rcases List.mem_or_eq_of_mem_set hd with hold | heq
      · exact hi d hold
      · rw [heq]
        exact hc'

/-- The module is loaded: no server is defined yet. -/
def Initial (s : State) : Prop := ∃ podServerFailMax, s = { podServerFailMax := podServerFailMax }

end ModJanus.Servers
