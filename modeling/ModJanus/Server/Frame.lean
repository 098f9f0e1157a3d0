/-
  ModJanus.Server.Frame

  What the steps of threads, callers and legs leave alone, and what they refer to.

  No step renames a server or makes it static; only a thread puts an entry into
  `serverIdLookup`, and it is one of its own server; and a caller comes to hold a server
  only by finding it under its name.  So whatever is referred to exists (`Bounded`).
-/
import ModJanus.Server.Registry

namespace ModJanus.Registry

/-! ## What every step leaves alone -/

section Updates

variable (s : State) (S : Nat) (pServer : Server)

@[simp] theorem State.setServer_self : (s.setServer S pServer).servers S = pServer :=
  Function.update_self ..

variable {S}

theorem State.setServer_ne {T : Nat} (h : T ≠ S) :
    (s.setServer S pServer).servers T = s.servers T :=
  Function.update_of_ne h ..

/-- The removal either finds nothing to do, or clears the server and takes the entry of
    its name away, whoever's entry that is. -/
theorem State.serversDynamicRemoveFromLookup_cases (S : Nat) :
    s.serversDynamicRemoveFromLookup S = s ∨
      ((s.servers S).dynamic = true ∧ ∃ ids, (∀ id T, hashFind ids id = some T →
          hashFind s.serverIdLookup id = some T) ∧
        s.serversDynamicRemoveFromLookup S =
          { s.setServer S { s.servers S with serverId := 0, enabled := false } with
            serverIdLookup := ids
            pServerNameLookup := s.pServerNameLookup.erase (s.servers S).name }) := by
  unfold State.serversDynamicRemoveFromLookup
  dsimp only
  split
  · next hfound =>
      refine .inr ⟨hfound.1, _, ?_, rfl⟩
      intro id T hfind
      split at hfind
      · exact (hashFind_hashDelete_eq_some hfind).2
      · exact hfind
  · exact .inl rfl

end Updates

theorem removed_lists (s : State) (S : Nat) :
    (s.serversDynamicRemoveFromLookup S).callers = s.callers ∧
      (s.serversDynamicRemoveFromLookup S).threads = s.threads := by
  rcases s.serversDynamicRemoveFromLookup_cases S with heq | ⟨-, ids, -, heq⟩
  · rw [heq]
    exact ⟨rfl, rfl⟩
  · rw [heq]
    exact ⟨rfl, rfl⟩

/-- What no step takes from a server that exists. -/
structure Server.Keeps (v v' : Server) : Prop where
  name : v'.name = v.name
  dynamic : v'.dynamic = v.dynamic
  evicted : v.evicted = true → v'.evicted = true

theorem Server.Keeps.refl (v : Server) : v.Keeps v := ⟨rfl, rfl, id⟩

theorem keeps_update (s : State) (S : Nat) {v : Server} (h : (s.servers S).Keeps v) (T : Nat) :
    (s.servers T).Keeps (Function.update s.servers S v T) := by
  by_cases hT : T = S
  · subst hT
    rw [Function.update_self]
    exact h
  · rw [Function.update_of_ne hT]
    exact .refl _

theorem keeps_removed (s : State) (S T : Nat) :
    (s.servers T).Keeps ((s.serversDynamicRemoveFromLookup S).servers T) := by
  rcases s.serversDynamicRemoveFromLookup_cases S with h | ⟨-, ids, -, h⟩
  · rw [h]
    exact .refl _
  · rw [h]
    refine keeps_update s S ?_ T
    exact ⟨rfl, rfl, id⟩

theorem updated_keeps (v : Server) (podIp url : String) :
    v.Keeps (v.serversUpdateRegistryServer podIp url) := by
  unfold Server.serversUpdateRegistryServer
  dsimp only
  split
  · split <;> exact ⟨rfl, rfl, id⟩
  · split <;> exact ⟨rfl, rfl, id⟩

/-- What is found after a name was taken away was there before. -/
theorem lookup_of_erase {names : AList fun _ : String => Nat} {name name' : String} {S : Nat}
    (h : (names.erase name).lookup name' = some S) : names.lookup name' = some S := by
  by_cases hname : name' = name
  · rw [hname, AList.lookup_erase] at h
    cases h
  · rwa [AList.lookup_erase_ne hname] at h

/-- An entry is the one that has been inserted, or was there before. -/
theorem inserted_entry {ids : Hash Nat} {inserted : Bool} {id id' : JanusId} {S T : Nat}
    (h : hashFind (if inserted then hashInsert ids id S else ids) id' = some T) :
    T = S ∨ hashFind ids id' = some T := by
  split at h
  · exact (hashFind_hashInsert_eq_some h).imp And.right And.right
  · exact .inr h

/-- What a step of a thread leaves alone. -/
structure ThreadFrame (s : State) (t : Nat) (thread : Thread) (s' : State) : Prop where
  callers : s'.callers = s.callers
  legs : s'.legs = s.legs
  mutex : s'.mutex = s.mutex
  loading : s'.loading = s.loading
  serverCount : s'.serverCount = s.serverCount
  threads : ∃ thread', s'.threads = s.threads.set t thread' ∧ thread'.server = thread.server
  names : ∀ name S, s'.pServerNameLookup.lookup name = some S →
    s.pServerNameLookup.lookup name = some S
  entries : ∀ id S, hashFind s'.serverIdLookup id = some S →
    S = thread.server ∨ hashFind s.serverIdLookup id = some S
  servers : ∀ S, (s.servers S).Keeps (s'.servers S)

theorem ThreadEffect.frame {s s' : State} {t : Nat} {thread : Thread} {a : ThreadAction}
    (h : ThreadEffect s t thread a s') : ThreadFrame s t thread s' := by
  cases h with
  | removed hpc hmutex =>
      -- the removal finds its server under its name, or does nothing
      have hkeeps := keeps_removed s thread.server
      rcases s.serversDynamicRemoveFromLookup_cases thread.server with heq | ⟨-, ids, hids, heq⟩
      · rw [heq]
        exact ⟨rfl, rfl, rfl, rfl, rfl, ⟨_, rfl, rfl⟩, fun _ _ => id, fun _ _ => .inr,
          fun S => .refl _⟩
      · rw [heq] at hkeeps ⊢
        exact ⟨rfl, rfl, rfl, rfl, rfl, ⟨_, rfl, rfl⟩, fun _ _ => lookup_of_erase,
          fun id S hS => .inr (hids id S hS), hkeeps⟩
  | evicted url inserted connectFailures hpc hdynamic =>
      refine ⟨rfl, rfl, rfl, rfl, rfl, ⟨_, rfl, rfl⟩, fun _ _ => id, fun _ _ => .inr, fun S => ?_⟩
      refine keeps_update s thread.server ?_ S
      exact ⟨rfl, rfl, fun _ => rfl⟩
  | createFailed =>
      refine ⟨rfl, rfl, rfl, rfl, rfl, ⟨_, rfl, rfl⟩, fun _ _ => id, fun _ _ => .inr, fun S => ?_⟩
      refine keeps_update s thread.server ?_ S
      exact ⟨rfl, rfl, id⟩
  | created url serverId inserted hpc =>
      refine ⟨rfl, rfl, rfl, rfl, rfl, ⟨_, rfl, rfl⟩, fun _ _ => id,
        fun _ _ => inserted_entry, fun S => ?_⟩
      refine keeps_update s thread.server ?_ S
      exact ⟨rfl, rfl, id⟩
  | claimed url inserted hpc =>
      refine ⟨rfl, rfl, rfl, rfl, rfl, ⟨_, rfl, rfl⟩, fun _ _ => id,
        fun _ _ => inserted_entry, fun S => ?_⟩
      refine keeps_update s thread.server ?_ S
      exact ⟨rfl, rfl, id⟩
  | pollFailed =>
      refine ⟨rfl, rfl, rfl, rfl, rfl, ⟨_, rfl, rfl⟩, fun _ _ => id,
        fun _ _ hS => .inr (hashFind_hashDelete_eq_some hS).2, fun S => ?_⟩
      refine keeps_update s thread.server ?_ S
      exact ⟨rfl, rfl, id⟩
  | deletedEntry hpc =>
      exact ⟨rfl, rfl, rfl, rfl, rfl, ⟨_, rfl, rfl⟩, fun _ _ => id,
        fun _ _ hS => .inr (hashFind_hashDelete_eq_some hS).2, fun S => .refl _⟩
  | _ =>
      exact ⟨rfl, rfl, rfl, rfl, rfl, ⟨_, rfl, rfl⟩, fun _ _ => id, fun _ _ => .inr,
        fun S => .refl _⟩

/-- What a step of a leg leaves alone. -/
structure LegFrame (s : State) (l : Nat) (s' : State) : Prop where
  callers : s'.callers = s.callers
  threads : s'.threads = s.threads
  mutex : s'.mutex = s.mutex
  loading : s'.loading = s.loading
  serverCount : s'.serverCount = s.serverCount
  pServerNameLookup : s'.pServerNameLookup = s.pServerNameLookup
  serverIdLookup : s'.serverIdLookup = s.serverIdLookup
  obtained : s'.obtained = s.obtained
  legs : ∃ leg', s'.legs = s.legs.set l leg'
  servers : ∀ S, ∃ serverId callsInProgress, s'.servers S = { s.servers S with
    serverId := serverId, callsInProgress := callsInProgress }

theorem legServers_setServer {s : State} {S : Nat} (serverId : JanusId) (callsInProgress T : Nat) :
    ∃ id calls, (s.setServer S { s.servers S with
        serverId := serverId, callsInProgress := callsInProgress }).servers T =
      { s.servers T with serverId := id, callsInProgress := calls } := by
  by_cases hT : T = S
  · rw [hT, State.setServer_self]
    exact ⟨serverId, callsInProgress, rfl⟩
  · rw [s.setServer_ne _ hT]
    exact ⟨_, _, rfl⟩

theorem LegEffect.frame {s s' : State} {l : Nat} {leg : Leg} {a : LegAction}
    (h : LegEffect s l leg a s') : LegFrame s l s' := by
  cases h with
  | attachFailed S hpc =>
      exact ⟨rfl, rfl, rfl, rfl, rfl, rfl, rfl, rfl, ⟨_, rfl⟩,
        legServers_setServer 0 (s.servers S).callsInProgress⟩
  | counted S hpc | uncounted S hpc =>
      exact ⟨rfl, rfl, rfl, rfl, rfl, rfl, rfl, rfl, ⟨_, rfl⟩,
        legServers_setServer (s.servers S).serverId _⟩
  | _ => exact ⟨rfl, rfl, rfl, rfl, rfl, rfl, rfl, rfl, ⟨_, rfl⟩, fun S => ⟨_, _, rfl⟩⟩

theorem Caller.holds_iff {x : Caller} {S : Nat} :
    x.holds S = true ↔ x.pc.start = some S ∨ x.pc.stop = some S ∨ S ∈ x.evictList := by
  simp [Caller.holds, or_assoc]

theorem Caller.holds_started {x : Caller} {S : Nat} (h : x.started.holds S = true) :
    x.holds S = true := by
  rw [Caller.holds_iff] at h ⊢
  unfold Caller.started at h
  split at h <;> simp only [CallerPc.start, CallerPc.stop, reduceCtorEq, false_or] at h <;>
    exact .inr (.inr h)

theorem Caller.holds_stopped {x : Caller} {S : Nat} (h : x.stopped.holds S = true) :
    x.holds S = true := by
  rw [Caller.holds_iff] at h ⊢
  unfold Caller.stopped at h
  split at h <;> simp only [CallerPc.start, CallerPc.stop, reduceCtorEq, false_or] at h <;>
    exact .inr (.inr h)

/-- A caller that works on one server and goes on with it. -/
theorem Caller.holds_pc {x x' : Caller} {S T : Nat} (hx : x.holds S = true)
    (h : x'.holds T = true) (hlist : x'.evictList = x.evictList)
    (hstart : ∀ U, x'.pc.start = some U → U = S)
    (hstop : ∀ U, x'.pc.stop = some U → U = S) : x.holds T = true := by
  rw [Caller.holds_iff, hlist] at h
  rcases h with hT | hT | hT
  · rw [hstart T hT]
    exact hx
  · rw [hstop T hT]
    exact hx
  · rw [Caller.holds_iff]
    exact .inr (.inr hT)

theorem Caller.holds_of_start {x : Caller} {S : Nat} (h : x.pc.start = some S) :
    x.holds S = true := by
  rw [Caller.holds_iff]
  exact .inl h

theorem Caller.holds_of_stop {x : Caller} {S : Nat} (h : x.pc.stop = some S) :
    x.holds S = true := by
  rw [Caller.holds_iff]
  exact .inr (.inl h)

/-- A caller that works on no server holds those of its list. -/
theorem Caller.holds_list {x x' : Caller} {S : Nat} (h : x'.holds S = true)
    (hlist : x'.evictList = x.evictList) (hstart : x'.pc.start = none)
    (hstop : x'.pc.stop = none) : x.holds S = true := by
  rw [Caller.holds_iff, hstart, hstop] at h
  simp only [reduceCtorEq, false_or] at h
  rw [Caller.holds_iff, ← hlist]
  exact .inr (.inr h)

/-- What the callers come to hold. -/
theorem CallerEffect.callers {s s' : State} {c : Nat} {x : Caller} {a : CallerAction}
    (h : CallerEffect s c x a s') : ∃ x', s'.callers = s.callers.set c x' ∧
      ∀ S, x'.holds S = true →
        x.holds S = true ∨ ∃ name, s'.pServerNameLookup.lookup name = some S := by
  cases h with
  | registered podName podIp url hpc hnew =>
      refine ⟨_, rfl, fun S hS => ?_⟩
      rcases Caller.holds_iff.mp hS with hstart | hstop | hlist
      · -- the new server is found under its name
        refine .inr ⟨podName, ?_⟩
        cases hstart
        exact AList.lookup_insert _
      · cases hstop
      · exact .inl (Caller.holds_iff.mpr (.inr (.inr hlist)))
  | restarting S podName podIp url hpc hfind hdynamic =>
      refine ⟨_, rfl, fun T hT => ?_⟩
      rcases Caller.holds_iff.mp hT with hstart | hstop | hlist
      · -- and the one that is started again was found under the name of its pod
        cases hstart
        exact .inr ⟨podName, hfind⟩
      · cases hstop
      · exact .inl (Caller.holds_iff.mpr (.inr (.inr hlist)))
  | collected S name hpc hfind hdynamic hcalls =>
      refine ⟨_, rfl, fun T hT => ?_⟩
      rcases Caller.holds_iff.mp hT with hstart | hstop | hlist
      · exact .inl (Caller.holds_of_start hstart)
      · exact .inl (Caller.holds_of_stop hstop)
      · rcases List.mem_append.mp hlist with hold | hnew
        · exact .inl (Caller.holds_iff.mpr (.inr (.inr hold)))
        · rw [List.mem_singleton.mp hnew]
          exact .inr ⟨name, hfind⟩
  | evicting S evictList hpc hlist =>
      refine ⟨_, rfl, fun T hT => .inl ?_⟩
      rw [Caller.holds_iff, hlist]
      rcases Caller.holds_iff.mp hT with hstart | hstop | hmem
      · cases hstart
      · -- the server that is stopped now was the first of the list
        cases hstop
        exact .inr (.inr List.mem_cons_self)
      · exact .inr (.inr (List.mem_cons_of_mem _ hmem))
  | updated | seen => exact ⟨_, rfl, fun T hT => .inl hT⟩
  | unlocked | refreshed =>
      exact ⟨_, rfl, fun T hT => .inl (Caller.holds_list hT rfl rfl rfl)⟩
  | startRefused => exact ⟨_, rfl, fun T hT => .inl (Caller.holds_started hT)⟩
  | created => exact ⟨_, rfl, fun T hT => .inl (Caller.holds_started hT)⟩
  | flagsCleared | notEvicted => exact ⟨_, rfl, fun T hT => .inl (Caller.holds_stopped hT)⟩
  | removed S hpc hmutex =>
      refine ⟨x.stopped, ?_, fun T hT => .inl (Caller.holds_stopped hT)⟩
      exact congrArg (List.set · c x.stopped) (removed_lists s S).1
  -- the steps within a start or a stop stay with their server
  | startPassed S call hpc htest =>
      refine ⟨_, rfl, fun T hT => .inl ?_⟩
      have hheld : x.holds S = true := Caller.holds_of_start (by rw [hpc]; rfl)
      apply Caller.holds_pc hheld hT rfl
      · rintro U ⟨⟩
        rfl
      · rintro U ⟨⟩
  | terminated S hpc | notStoppable S hpc | threadRead S t hpc | joined S t thread hpc
  | threadCleared S hpc | toRemove S hpc =>
      refine ⟨_, rfl, fun T hT => .inl ?_⟩
      have hheld : x.holds S = true := Caller.holds_of_stop (by rw [hpc]; rfl)
      apply Caller.holds_pc hheld hT rfl
      · rintro U ⟨⟩
      · rintro U ⟨⟩
        rfl

/-- What a step of a caller leaves alone. -/
structure CallerFrame (s : State) (x : Caller) (s' : State) : Prop where
  legs : s'.legs = s.legs
  loading : s'.loading = s.loading
  obtained : s'.obtained = s.obtained
  serverCount : s.serverCount ≤ s'.serverCount
  entries : ∀ id S, hashFind s'.serverIdLookup id = some S → hashFind s.serverIdLookup id = some S
  names : ∀ name S, s'.pServerNameLookup.lookup name = some S →
    s.pServerNameLookup.lookup name = some S ∨
      (S = s.serverCount ∧ s'.serverCount = s.serverCount + 1 ∧ (s'.servers S).name = name)
  threads : s'.threads = s.threads ∨
    ∃ S, x.pc = .creating S ∧ s'.threads = s.threads ++ [{ server := S }]
  servers : ∀ S, S < s.serverCount → (s.servers S).Keeps (s'.servers S)

/-- What is found after a server was added is the new server, or was there before. -/
theorem addServer_names {s : State} {pServer : Server} {name : String} {S : Nat}
    (h : (s.addServer pServer).pServerNameLookup.lookup name = some S) :
    s.pServerNameLookup.lookup name = some S ∨ (S = s.serverCount ∧ pServer.name = name) := by
  by_cases hname : name = pServer.name
  · subst hname
    rw [State.addServer, AList.lookup_insert] at h
    exact .inr ⟨(Option.some.inj h).symm, rfl⟩
  · rw [State.addServer, AList.lookup_insert_ne hname] at h
    exact .inl h

theorem addServer_self (s : State) (pServer : Server) :
    (s.addServer pServer).servers s.serverCount = pServer :=
  s.setServer_self s.serverCount pServer

theorem addServer_old (s : State) (pServer : Server) {S : Nat} (hS : S < s.serverCount) :
    (s.addServer pServer).servers S = s.servers S :=
  s.setServer_ne pServer (Nat.ne_of_lt hS)

theorem CallerEffect.frame {s s' : State} {c : Nat} {x : Caller} {a : CallerAction}
    (h : CallerEffect s c x a s') : CallerFrame s x s' := by
  cases h with
  | registered podName podIp url hpc hnew =>
      refine ⟨rfl, rfl, rfl, Nat.le_succ _, fun _ _ => id, fun name S hS => ?_, .inl rfl,
        fun S hS => ?_⟩
      · refine (addServer_names hS).imp_right ?_
        rintro ⟨rfl, hname⟩
        refine ⟨rfl, rfl, ?_⟩
        show ((s.addServer (.registered podName podIp url)).servers s.serverCount).name = name
        rw [addServer_self]
        exact hname
      · show (s.servers S).Keeps ((s.addServer (.registered podName podIp url)).servers S)
        rw [addServer_old s _ hS]
        exact .refl _
  | updated S podName podIp url hpc hfind hdynamic
  | restarting S podName podIp url hpc hfind hdynamic =>
      refine ⟨rfl, rfl, rfl, Nat.le_refl _, fun _ _ => id, fun _ _ => .inl, .inl rfl,
        fun T _ => ?_⟩
      exact keeps_update s S (updated_keeps _ podIp url) T
  | evicting S evictList hpc hlist =>
      refine ⟨rfl, rfl, rfl, Nat.le_refl _, fun _ _ => id, fun _ _ => .inl, .inl rfl,
        fun T _ => ?_⟩
      refine keeps_update s S ?_ T
      exact ⟨rfl, rfl, fun _ => rfl⟩
  | created S hpc =>
      refine ⟨rfl, rfl, rfl, Nat.le_refl _, fun _ _ => id, fun _ _ => .inl, .inr ⟨S, hpc, rfl⟩,
        fun T _ => ?_⟩
      refine keeps_update s S ?_ T
      exact ⟨rfl, rfl, id⟩
  | startPassed S | terminated S | threadCleared S | flagsCleared S =>
      refine ⟨rfl, rfl, rfl, Nat.le_refl _, fun _ _ => id, fun _ _ => .inl, .inl rfl,
        fun T _ => ?_⟩
      refine keeps_update s S ?_ T
      exact ⟨rfl, rfl, id⟩
  | removed S hpc hmutex =>
      -- the removal does nothing, or it takes entries away
      have hkeeps := keeps_removed s S
      rcases s.serversDynamicRemoveFromLookup_cases S with heq | ⟨-, ids, hids, heq⟩
      · rw [heq]
        exact ⟨rfl, rfl, rfl, Nat.le_refl _, fun _ _ => id, fun _ _ => .inl, .inl rfl,
          fun T _ => .refl _⟩
      · rw [heq] at hkeeps ⊢
        exact ⟨rfl, rfl, rfl, Nat.le_refl _, hids, fun _ _ hS => .inl (lookup_of_erase hS),
          .inl rfl, fun T _ => hkeeps T⟩
  | _ =>
      exact ⟨rfl, rfl, rfl, Nat.le_refl _, fun _ _ => id, fun _ _ => .inl, .inl rfl,
        fun T _ => .refl _⟩

theorem StepCase.keeps {s s' : State} {a : Action} (h : StepCase s s' a) {S : Nat}
    (hS : S < s.serverCount) : (s.servers S).Keeps (s'.servers S) := by
  cases h with
  | added pName pUrl enabled rest hnew hstate hloading hcallers hthreads =>
      subst hstate
      have hold := addServer_old s (.configured pName pUrl enabled) hS
      show (s.servers S).Keeps ((s.addServer (.configured pName pUrl enabled)).servers S)
      rw [hold]
      exact .refl _
  | thread t thread action ht heffect => exact heffect.frame.servers S
  | caller c x action hc heffect => exact heffect.frame.servers S hS
  | leg l leg action hl heffect =>
      obtain ⟨serverId, callsInProgress, heq⟩ := heffect.frame.servers S
      rw [heq]
      exact ⟨rfl, rfl, id⟩
  | loads | loaded | enables | disables | refreshes | dials => subst_vars; exact .refl _

/-! ## Servers that exist -/

/-- The server of a leg. -/
def LegPc.server : LegPc → Option Nat
  | .found S | .attached S | .counted S | .established S | .leaving S => some S
  | _ => none

theorem LegEffect.server {s s' : State} {l : Nat} {leg : Leg} {a : LegAction}
    (h : LegEffect s l leg a s') : ∃ leg', s'.legs = s.legs.set l leg' ∧
      ∀ S, leg'.pc.server = some S →
        leg.pc.server = some S ∨ ∃ id, hashFind s.serverIdLookup id = some S := by
  cases h with
  | found S hpc hfind =>
      refine ⟨_, rfl, fun T hT => .inr ⟨leg.serverId, ?_⟩⟩
      cases hT
      exact hfind
  | hangupFound S hfind =>
      refine ⟨_, rfl, fun T hT => .inr ⟨leg.serverId, ?_⟩⟩
      cases hT
      exact hfind
  | attached S hpc | counted S hpc | established S hpc =>
      refine ⟨_, rfl, fun T hT => .inl ?_⟩
      rw [hpc]
      exact hT
  | _ => exact ⟨_, rfl, nofun⟩

/-- Whatever is referred to exists, and a server is found under its own name only. -/
structure Bounded (s : State) : Prop where
  names : ∀ name S, s.pServerNameLookup.lookup name = some S →
    S < s.serverCount ∧ (s.servers S).name = name
  entries : ∀ id S, hashFind s.serverIdLookup id = some S → S < s.serverCount
  threads : ∀ thread ∈ s.threads, thread.server < s.serverCount
  callers : ∀ x ∈ s.callers, ∀ S, x.holds S = true → S < s.serverCount
  legs : ∀ leg ∈ s.legs, ∀ S, leg.pc.server = some S → S < s.serverCount

theorem addServer_bounded_names {s : State} (hi : Bounded s) (pServer : Server) (name : String)
    (S : Nat) (h : (s.addServer pServer).pServerNameLookup.lookup name = some S) :
    S < s.serverCount + 1 ∧ ((s.addServer pServer).servers S).name = name := by
  rcases addServer_names h with hold | ⟨rfl, hname⟩
  · obtain ⟨hS, hname⟩ := hi.names name S hold
    rw [addServer_old s pServer hS]
    exact ⟨by omega, hname⟩
  · rw [addServer_self]
    exact ⟨by omega, hname⟩

/-- A new caller that holds what is found under some name, or nothing. -/
theorem call_bounded {s : State} (hi : Bounded s) {x : Caller}
    (hx : ∀ S, x.holds S = true → S < s.serverCount) : Bounded (s.call x) := by
  refine ⟨hi.names, hi.entries, hi.threads, fun y hy => ?_, hi.legs⟩
  rcases List.mem_append.mp hy with hold | hnew
  · exact hi.callers y hold
  · rw [List.mem_singleton.mp hnew]
    exact hx

/-- A call that starts by finding its server under a name holds that server only. -/
theorem Caller.holds_found {x : Caller} {S : Nat}
    (hpc : x.pc.start = some S ∧ x.pc.stop = none ∨ x.pc.start = none ∧ x.pc.stop = some S)
    (hlist : x.evictList = []) {T : Nat} (h : x.holds T = true) : T = S := by
  rw [Caller.holds_iff, hlist] at h
  rcases hpc with ⟨hstart, hstop⟩ | ⟨hstart, hstop⟩ <;> rw [hstart, hstop] at h <;>
    simpa [eq_comm] using h

theorem found_bounded {s : State} (hi : Bounded s) {name : String} {S : Nat} {x : Caller}
    (hfind : s.pServerNameLookup.lookup name = some S) (hx : ∀ T, x.holds T = true → T = S) :
    Bounded (s.call x) := by
  apply call_bounded hi
  intro T hT
  rw [hx T hT]
  exact (hi.names name S hfind).1

theorem thread_bounded {s s' : State} {t : Nat} {thread : Thread} (hi : Bounded s)
    (ht : s.threads[t]? = some thread) (h : ThreadFrame s t thread s') : Bounded s' := by
  have hthread := hi.threads thread (List.mem_of_getElem? ht)
  refine ⟨fun name S hS => ?_, fun id S hS => ?_, fun other hother => ?_, ?_, ?_⟩
  · obtain ⟨hlt, hname⟩ := hi.names name S (h.names name S hS)
    rw [h.serverCount, (h.servers S).name]
    exact ⟨hlt, hname⟩
  · rw [h.serverCount]
    rcases h.entries id S hS with rfl | hold
    · exact hthread
    · exact hi.entries id S hold
  · obtain ⟨thread', hthreads, hserver⟩ := h.threads
    rw [h.serverCount]
    rw [hthreads] at hother
    rcases List.mem_or_eq_of_mem_set hother with hold | rfl
    · exact hi.threads other hold
    · rw [hserver]
      exact hthread
  · rw [h.callers, h.serverCount]
    exact hi.callers
  · rw [h.legs, h.serverCount]
    exact hi.legs

theorem caller_bounded {s s' : State} {c : Nat} {x : Caller} {a : CallerAction} (hi : Bounded s)
    (hc : s.callers[c]? = some x) (h : CallerEffect s c x a s') : Bounded s' := by
  have hframe := h.frame
  have hx := hi.callers x (List.mem_of_getElem? hc)
  have hnames : ∀ name S, s'.pServerNameLookup.lookup name = some S →
      S < s'.serverCount ∧ (s'.servers S).name = name := by
    intro name S hS
    rcases hframe.names name S hS with hold | ⟨rfl, hcount, hname⟩
    · obtain ⟨hlt, hname⟩ := hi.names name S hold
      rw [(hframe.servers S hlt).name]
      exact ⟨Nat.lt_of_lt_of_le hlt hframe.serverCount, hname⟩
    · exact ⟨by omega, hname⟩
  -- no server goes away
  have hold : ∀ S, S < s.serverCount → S < s'.serverCount := by
    intro S hS
    exact Nat.lt_of_lt_of_le hS hframe.serverCount
  refine ⟨hnames, fun id S hS => hold S (hi.entries id S (hframe.entries id S hS)), ?_, ?_, ?_⟩
  · intro thread hthread
    rcases hframe.threads with heq | ⟨S, hpc, heq⟩
    · rw [heq] at hthread
      exact hold _ (hi.threads thread hthread)
    · rw [heq] at hthread
      rcases List.mem_append.mp hthread with hmem | hnew
      · exact hold _ (hi.threads thread hmem)
      · -- the new thread is of a server that the caller holds
        rw [List.mem_singleton.mp hnew]
        exact hold _ (hx S (Caller.holds_of_start (by rw [hpc]; rfl)))
  · obtain ⟨x', hcallers, hholds⟩ := h.callers
    intro y hy S hS
    rw [hcallers] at hy
    rcases List.mem_or_eq_of_mem_set hy with hmem | rfl
    · exact hold S (hi.callers y hmem S hS)
    · rcases hholds S hS with hheld | ⟨name, hfind⟩
      · exact hold S (hx S hheld)
      · exact (hnames name S hfind).1
  · rw [hframe.legs]
    intro leg hleg S hS
    exact hold S (hi.legs leg hleg S hS)

theorem leg_bounded {s s' : State} {l : Nat} {leg : Leg} {a : LegAction} (hi : Bounded s)
    (hl : s.legs[l]? = some leg) (h : LegEffect s l leg a s') : Bounded s' := by
  have hframe := h.frame
  obtain ⟨leg', hlegs, hserver⟩ := h.server
  refine ⟨fun name S hS => ?_, ?_, ?_, ?_, fun other hother S hS => ?_⟩
  · rw [hframe.pServerNameLookup] at hS
    obtain ⟨serverId, callsInProgress, heq⟩ := hframe.servers S
    rw [hframe.serverCount, heq]
    exact hi.names name S hS
  · rw [hframe.serverIdLookup, hframe.serverCount]
    exact hi.entries
  · rw [hframe.threads, hframe.serverCount]
    exact hi.threads
  · rw [hframe.callers, hframe.serverCount]
    exact hi.callers
  · rw [hframe.serverCount]
    rw [hlegs] at hother
    rcases List.mem_or_eq_of_mem_set hother with hmem | rfl
    · exact hi.legs other hmem S hS
    · -- the leg has its server from before, or from the entry of its id
      rcases hserver S hS with hsame | ⟨id, hfind⟩
      · exact hi.legs leg (List.mem_of_getElem? hl) S hsame
      · exact hi.entries id S hfind

theorem step_bounded {s s' : State} {a : Action} (hi : Bounded s) (h : StepCase s s' a) :
    Bounded s' := by
  cases h with
  | added pName pUrl enabled rest hnew hstate hloading hcallers hthreads =>
      subst hstate
      -- nobody refers to the new server yet but its name
      refine ⟨addServer_bounded_names hi _, fun id S hS => ?_, fun thread hthread => ?_,
        fun x hx S hS => ?_, fun leg hleg S hS => ?_⟩
      · exact Nat.lt_succ_of_lt (hi.entries id S hS)
      · exact Nat.lt_succ_of_lt (hi.threads thread hthread)
      · exact Nat.lt_succ_of_lt (hi.callers x hx S hS)
      · exact Nat.lt_succ_of_lt (hi.legs leg hleg S hS)
  | loads name S rest hloading hfind hstate =>
      subst hstate
      have hcall : Bounded (s.call { pc := .starting S .load }) :=
        found_bounded hi hfind fun _ => Caller.holds_found (.inl ⟨rfl, rfl⟩) rfl
      exact ⟨hcall.names, hcall.entries, hcall.threads, hcall.callers, hcall.legs⟩
  | loaded hloading hcallers hstate =>
      subst hstate
      exact ⟨hi.names, hi.entries, hi.threads, hi.callers, hi.legs⟩
  | enables name S hloading hfind hstate =>
      subst hstate
      exact found_bounded hi hfind fun _ => Caller.holds_found (.inl ⟨rfl, rfl⟩) rfl
  | disables name S hloading hfind hstate =>
      subst hstate
      exact found_bounded hi hfind fun _ => Caller.holds_found (.inr ⟨rfl, rfl⟩) rfl
  | refreshes hloading hmutex hstate =>
      subst hstate
      have hcall : Bounded (s.call { pc := .locked, inRefresh := true }) := by
        apply call_bounded hi
        intro T hT
        simp [Caller.holds, CallerPc.start, CallerPc.stop] at hT
      exact ⟨hcall.names, hcall.entries, hcall.threads, hcall.callers, hcall.legs⟩
  | dials S hstate =>
      subst hstate
      refine ⟨hi.names, hi.entries, hi.threads, hi.callers, fun leg hleg T hT => ?_⟩
      rcases List.mem_append.mp hleg with hmem | hnew
      · exact hi.legs leg hmem T hT
      · rw [List.mem_singleton.mp hnew] at hT
        cases hT
  | thread t thread action ht heffect => exact thread_bounded hi ht heffect.frame
  | caller c x action hc heffect => exact caller_bounded hi hc heffect
  | leg l leg action hl heffect => exact leg_bounded hi hl heffect

theorem reach_bounded {guard : State → Action → Prop} {s : State}
    (h : Transition.Reach step guard Initial s) : Bounded s := by
  refine h.invariant ?_ ?_
  · rintro _ ⟨podServerFailMax, rfl⟩
    exact ⟨nofun, nofun, nofun, nofun, nofun⟩
  · intro s a s' hi _ hs
    exact step_bounded hi (step_case hs)

end ModJanus.Registry
