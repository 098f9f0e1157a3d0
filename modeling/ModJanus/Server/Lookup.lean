/-
  ModJanus.Server.Lookup

  `serverIdLookup` against the servers it names.

  An entry for a server has the thread's own session id as its key, whatever the
  legs and the evictions do.  That `server_t.serverId` says the same is what a
  failed attach can break: it clears the id of a server that is still registered,
  so that the thread polls on and `waitServerActive` finds nothing.
-/
import ModJanus.Server.Machine

namespace ModJanus.Servers

open Transition (Reach Always)

/-! ## What a step does to a session -/

/-- The thread stands where an entry for its server may exist. -/
def Server.mayHold (pServer : Server) : Bool :=
  match pServer.pc with
  | .inner | .polling | .threadDone | .destroyed => true
  | .outer => pServer.terminating
  | _ => false

/-- The copies of the session id in `v`, the server `S`, and in the lookup `L`, before
    and after a step, which `t` is if the thread takes it. -/
inductive SessionMove (S : Nat) (t : Option ThreadAction) (v : Server) (L : Hash Nat)
    (v' : Server) (L' : Hash Nat) : Prop where
  | kept (hlookup : L' = L) (hserverId : v'.serverId = v.serverId)
      (hthread : v'.threadServerId = v.threadServerId)
      (hhold : v.mayHold = true → v'.mayHold = true)
  /-- No entry for the server can exist, and none is made. -/
  | idle (hsubset : HashSubset L' L) (hhold : v.mayHold = false)
      (hthread : v'.threadServerId = v.threadServerId ∨ v'.threadServerId = 0)
  | registered (hlookup : L' = hashInsert L v'.threadServerId S) (hhold : v.mayHold = false)
      (hid : v'.threadServerId ≠ 0)
      (horigin : (∃ inserted, t = some (.claim .success inserted) ∧
          v'.threadServerId = v.threadServerId) ∨
        ∃ inserted, t = some (.create v'.threadServerId inserted))
      (hserverId : v'.serverId = v'.threadServerId)
      (hhold' : v'.mayHold = true)
  /-- The entry of the thread's session is gone. -/
  | dropped (hsubset : HashSubset L' L) (hnone : hashFind L' v.threadServerId = none)
      (hthread : v'.threadServerId = v.threadServerId)
  /-- `server_t.serverId` is cleared, and the entry it named removed. -/
  | forgotten (hsubset : HashSubset L' L) (hserverId : v'.serverId = 0)
      (hnone : v.serverId ≠ 0 → hashFind L' v.serverId = none)
      (hthread : v'.threadServerId = v.threadServerId) (hhold : v'.mayHold = v.mayHold)

variable {S : Nat} {t : Option ThreadAction} {v v' : Server} {L L' : Hash Nat}

theorem SessionMove.same (hlookup : L' = L) (hserverId : v'.serverId = v.serverId)
    (hthread : v'.threadServerId = v.threadServerId) (hhold : v'.mayHold = v.mayHold) :
    SessionMove S t v L v' L' :=
  .kept hlookup hserverId hthread fun h => hhold.trans h

theorem claimed_session {inserted : Bool} {status : Status} (hpc : v.pc = .connect)
    (hid : v.threadServerId ≠ 0) :
    SessionMove S (some (.claim status inserted)) v L (v.claimed S L inserted status).1
      (v.claimed S L inserted status).2 := by
  have hhold : v.mayHold = false := by simp [Server.mayHold, hpc]
  have hrefl := HashSubset.refl L
  cases status with
  | success =>
      cases inserted with
      | true => exact .registered rfl hhold hid (.inl ⟨true, rfl, rfl⟩) rfl rfl
      | false => exact .idle hrefl hhold (.inr rfl)
  | sockErr => exact .idle hrefl hhold (.inl rfl)
  | false => exact .idle hrefl hhold (.inl rfl)
  | notFound => exact .idle hrefl hhold (.inl rfl)
  | notInitialized => exact .idle hrefl hhold (.inl rfl)

theorem created_session {serverId : JanusId} {inserted : Bool} (hpc : v.pc = .connect)
    (hid : serverId ≠ 0) :
    SessionMove S (some (.create serverId inserted)) v L (v.created S L serverId inserted).1
      (v.created S L serverId inserted).2 := by
  have hhold : v.mayHold = false := by simp [Server.mayHold, hpc]
  cases inserted with
  | true => exact .registered rfl hhold hid (.inr ⟨true, rfl⟩) rfl rfl
  | false => exact .idle (HashSubset.refl L) hhold (.inr rfl)

theorem polled_session {status : Status} (hpc : v.pc = .polling) :
    SessionMove S t v L (v.polled L status).1 (v.polled L status).2 := by
  have hhold : v.mayHold = true := by simp [Server.mayHold, hpc]
  have hsubset := hashSubset_hashDelete L v.threadServerId
  have hnone := hashFind_hashDelete L v.threadServerId
  cases status with
  | success => exact .kept rfl rfl rfl fun _ => rfl
  | sockErr => exact .dropped hsubset hnone rfl
  | false => exact .dropped hsubset hnone rfl
  | notFound => exact .dropped hsubset hnone rfl
  | notInitialized => exact .dropped hsubset hnone rfl

theorem threadStep_session {podServerFailMax : Nat} {a : ThreadAction}
    (h : ThreadEffect v S L podServerFailMax a v' L') : SessionMove S (some a) v L v' L' := by
  have hrefl := HashSubset.refl L
  cases h with
  | started force hpc => exact .idle hrefl (by simp [Server.mayHold, hpc]) (.inr rfl)
  | left opened hpc hterminating => exact .kept rfl rfl rfl fun _ => rfl
  | opened hpc hterminating | notOpened hpc hterminating =>
      exact .idle hrefl (by simp [Server.mayHold, hpc, hterminating]) (.inl rfl)
  | claimed status inserted hpc hid => exact claimed_session hpc hid
  | hungUp pIndex senderId ofLeg hpc =>
      exact .idle hrefl (by simp [Server.mayHold, hpc]) (.inl rfl)
  | refused pIndex hpc => exact .idle hrefl (by simp [Server.mayHold, hpc]) (.inr rfl)
  | createFailed inserted hpc =>
      exact .idle hrefl (by simp [Server.mayHold, hpc]) (.inl (createFailed_threadServerId ..))
  | created serverId inserted hpc hid => exact created_session hpc hid
  | polling hpc => exact .kept rfl rfl rfl fun _ => rfl
  | stopped hpc hstop =>
      -- either the thread is to terminate, or its entry is gone
      by_cases hterminating : v.terminating = true
      · exact .kept rfl rfl rfl fun _ => hterminating
      · have hnone : hashFind L v.threadServerId = none := by
          simpa [Server.keepsPolling, hterminating] using hstop
        exact .dropped hrefl hnone rfl
  | polled status hpc => exact polled_session hpc
  | sendersDestroyed hpc => exact .kept rfl rfl rfl fun _ => rfl
  | entryDeleted hpc =>
      exact .dropped (hashSubset_hashDelete L v.threadServerId) (hashFind_hashDelete ..) rfl

/-! ## Steps of the system -/

/-- The server whose attach leg `l` is waiting for. -/
def State.attaching (s : State) (l : Nat) : Option Nat :=
  match s.calls[l]?.map Call.pc with
  | some (.found S) => some S
  | _ => none

def Action.thread : Action → Option ThreadAction
  | .server _ (.thread a) => some a
  | _ => none

theorem thread_eq_some {a : Action} {t : ThreadAction} (h : a.thread = some t) :
    ∃ S, a = .server S (.thread t) := by
  unfold Action.thread at h
  split at h <;> cases h
  exact ⟨_, rfl⟩

/-- A step moves the session of one server, or is a failed attach. -/
inductive SystemMove (s : State) (a : Action) (s' : State) : Prop where
  | session (S : Nat) (hother : ∀ T, T ≠ S → s'.servers T = s.servers T)
      (hserver : ∀ T t, a = .server T (.thread t) → T = S ∧ S < s.serverCount)
      (hmove : SessionMove S a.thread (s.servers S) s.serverIdLookup
        (s'.servers S) s'.serverIdLookup)
  | attachFailed (S l : Nat) (haction : a = .call l (.attach 0)) (hserver : s.attaching l = some S)
      (hother : ∀ T, T ≠ S → s'.servers T = s.servers T)
      (hlookup : s'.serverIdLookup = s.serverIdLookup)
      (hserverId : (s'.servers S).serverId = 0)
      (hthread : (s'.servers S).threadServerId = (s.servers S).threadServerId)
      (hhold : (s'.servers S).mayHold = (s.servers S).mayHold)

variable {s s' : State} {a : Action}

theorem SystemMove.ofServer (hserver : ∀ T t, a = .server T (.thread t) → T = S ∧ S < s.serverCount)
    (hservers : s'.servers = (s.setServer S v').servers)
    (hmove : SessionMove S a.thread (s.servers S) s.serverIdLookup v' s'.serverIdLookup) :
    SystemMove s a s' := by
  refine .session S ?_ hserver ?_
  · intro T hT
    rw [hservers]
    exact s.setServer_ne v' hT
  · rw [hservers, State.setServer_self]
    exact hmove

theorem SystemMove.untouched
    (hserver : ∀ T t, a = .server T (.thread t) → T = S ∧ S < s.serverCount)
    (hservers : s'.servers = s.servers) (hlookup : s'.serverIdLookup = s.serverIdLookup) :
    SystemMove s a s' := by
  have hsame : SessionMove S a.thread (s.servers S) s.serverIdLookup (s.servers S)
      s'.serverIdLookup := .same hlookup rfl rfl rfl
  refine .ofServer hserver ?_ hsame
  rw [hservers]
  exact (Function.update_eq_self S s.servers).symm

theorem removed_session (hserver : ∀ T t, a = .server T (.thread t) → T = S ∧ S < s.serverCount) :
    SystemMove s a (s.serversDynamicRemoveFromLookup S) := by
  rcases s.serversDynamicRemoveFromLookup_cases S with h | ⟨names, h⟩
  · rw [h]
    exact .untouched hserver rfl rfl
  · rw [h]
    refine .ofServer hserver rfl ?_
    by_cases hid : (s.servers S).serverId = 0
    · exact .forgotten (by simp [hid, HashSubset.refl]) rfl (fun hne => absurd hid hne) rfl rfl
    · refine .forgotten ?_ rfl ?_ rfl rfl
      · simpa [hid] using hashSubset_hashDelete s.serverIdLookup (s.servers S).serverId
      · simp [hid]

/-- An evicted server is removed on the way out of its thread. -/
theorem returnedRemoved_session
    (hserver : ∀ T t, a = .server T (.thread t) → T = S ∧ S < s.serverCount)
    (hpc : (s.servers S).pc = .exiting) :
    SystemMove s a ((s.setServer S { s.servers S with
      pc := .notRunning, threadServerId := 0 }).serversDynamicRemoveFromLookup S) := by
  have hhold : (s.servers S).mayHold = false := by simp [Server.mayHold, hpc]
  rcases State.serversDynamicRemoveFromLookup_cases
    (s.setServer S { s.servers S with pc := .notRunning, threadServerId := 0 }) S
    with h | ⟨names, h⟩
  · rw [h]
    exact .ofServer hserver rfl (.idle (HashSubset.refl _) hhold (.inr rfl))
  · rw [h]
    refine .session S ?_ hserver (.idle ?_ hhold (.inr ?_))
    · intro T hT
      simp [State.setServer_ne _ _ hT]
    · simp only [State.setServer_self, State.setServer_serverIdLookup]
      split
      · exact hashSubset_hashDelete s.serverIdLookup (s.servers S).serverId
      · exact HashSubset.refl _
    · simp

theorem serverStep_session {action : ServerAction} (hS : S < s.serverCount)
    (h : ServerEffect s S action s') : SystemMove s (.server S action) s' := by
  have hserver : ∀ T t, Action.server S action = .server T (.thread t) →
      T = S ∧ S < s.serverCount := by
    intro T t heq
    cases heq
    exact ⟨rfl, hS⟩
  cases h with
  | thread a v L heffect => exact .ofServer hserver rfl (threadStep_session heffect)
  | returned hpc =>
      have hhold : (s.servers S).mayHold = false := by simp [Server.mayHold, hpc]
      exact .ofServer hserver rfl (.idle (HashSubset.refl _) hhold (.inr rfl))
  | returnedRemoved hpc => exact returnedRemoved_session hserver hpc
  | terminated =>
      refine .ofServer hserver rfl (.kept rfl rfl rfl ?_)
      unfold Server.mayHold
      cases (s.servers S).pc <;> simp
  | joined hpc =>
      refine .ofServer hserver rfl (.idle (HashSubset.refl _) ?_ (.inl rfl))
      simp [Server.mayHold, hpc]
  | evicted => exact .ofServer hserver rfl (.same rfl rfl rfl rfl)
  | removed => exact removed_session hserver
  | untouched => exact .untouched hserver rfl rfl

theorem addServer_session {name : String} {enabled dynamic : Bool} (hadd : a.thread = none)
    (h : s.addServer name enabled dynamic = some s') : SystemMove s a s' := by
  unfold State.addServer at h
  split at h <;> cases h
  refine .ofServer ?_ rfl (.same rfl rfl rfl rfl)
  rintro T t rfl
  cases hadd

/-- Of the steps of a leg, only a failed attach touches a session. -/
theorem callStep_session {l : Nat} {c : Call} {action : CallAction} (hc : s.calls[l]? = some c)
    (h : CallEffect s l c action s') : SystemMove s (.call l action) s' := by
  have hserver : ∀ S T t, Action.call l action = .server T (.thread t) →
      T = S ∧ S < s.serverCount := nofun
  cases h with
  | attachFailed S hpc =>
      refine .attachFailed S l rfl ?_ ?_ rfl ?_ ?_ ?_
      · simp [State.attaching, hc, hpc]
      · intro T hT
        exact s.setServer_ne _ hT
      · simp
      · simp
      · simp [Server.mayHold]
  | inserted S hpc => exact .ofServer (hserver S) rfl (.same rfl rfl rfl rfl)
  | counted S hpc => exact .ofServer (hserver S) rfl (.same rfl rfl rfl rfl)
  | hangupDeleted S hpc => exact .ofServer (hserver S) rfl (.same rfl rfl rfl rfl)
  | hangupUncounted S hpc => exact .ofServer (hserver S) rfl (.same rfl rfl rfl rfl)
  | _ => exact .untouched (hserver 0) rfl rfl

theorem step_session (h : step s a = some s') : SystemMove s a s' := by
  cases step_case h with
  | added name enabled dynamic haction hstep =>
      refine addServer_session ?_ hstep
      rcases haction with rfl | rfl <;> rfl
  | server S action hS heffect => exact serverStep_session hS heffect
  | resolved S active hactive hstate =>
      subst hstate
      exact .untouched (S := 0) nofun rfl rfl
  | call l c action hc heffect => exact callStep_session hc heffect

theorem step_serverCount (h : step s a = some s') : s.serverCount ≤ s'.serverCount := by
  cases step_case h with
  | added name enabled dynamic haction hstep => exact (addServer_frame hstep).serverCount
  | server S action hS heffect => exact (serverStep_frame heffect).serverCount
  | resolved S active hactive hstate =>
      subst hstate
      exact Nat.le_refl _
  | call l c action hc heffect => cases heffect <;> exact Nat.le_refl _

/-! ## Invariants -/

/-- An entry for a server has the thread's session id as its key. -/
def EntryInv (s : State) : Prop :=
  ∀ id S, hashFind s.serverIdLookup id = some S →
    (s.servers S).threadServerId = id ∧ id ≠ 0 ∧ (s.servers S).mayHold = true

/-- `server_t.serverId` of a registered server is the key of its entry. -/
def EntryAgrees (s : State) : Prop :=
  ∀ id S, hashFind s.serverIdLookup id = some S → (s.servers S).serverId = id

/-- No two threads hold the same session id. -/
structure ThreadsApart (s : State) : Prop where
  unused : ∀ T, s.serverCount ≤ T → (s.servers T).threadServerId = 0
  apart : ∀ S T, (s.servers S).threadServerId ≠ 0 →
    (s.servers S).threadServerId = (s.servers T).threadServerId → S = T

/-- An attach fails only for a server that is no longer registered. -/
def AttachHarmless (s : State) : Action → Prop
  | .call l (.attach senderId) =>
      senderId = 0 → ∀ S ∈ s.attaching l, hashHolds s.serverIdLookup S = false
  | _ => True

instance (s : State) (a : Action) : Decidable (AttachHarmless s a) := by
  unfold AttachHarmless
  split <;> infer_instance

/-- Janus does not hand out a session id that a thread holds already. -/
def FreshSession (s : State) : Action → Prop
  | .server _ (.thread (.create id _)) =>
      ∀ T < s.serverCount, (s.servers T).threadServerId ≠ id ∨ id = 0
  | _ => True

instance (s : State) (a : Action) : Decidable (FreshSession s a) := by
  unfold FreshSession
  split <;> infer_instance

/-- The entries of other servers were there before. -/
theorem SessionMove.other {id : JanusId} {T : Nat} (h : SessionMove S t v L v' L') (hT : T ≠ S)
    (hfind : hashFind L' id = some T) : hashFind L id = some T := by
  cases h with
  | kept hlookup hserverId hthread hhold =>
      rw [hlookup] at hfind
      exact hfind
  | idle hsubset hhold hthread => exact hsubset id T hfind
  | registered hlookup hhold hid horigin hserverId hhold' =>
      rw [hlookup] at hfind
      rcases hashFind_hashInsert_eq_some hfind with ⟨-, hS⟩ | ⟨-, hold⟩
      · exact absurd hS hT
      · exact hold
  | dropped hsubset hnone hthread => exact hsubset id T hfind
  | forgotten hsubset hserverId hnone hthread hhold => exact hsubset id T hfind

/-- An entry that the server has after a step: the thread holds its key, and so does
    `server_t.serverId` if it did before or the entry is new. -/
theorem SessionMove.entry {id : JanusId} (h : SessionMove S t v L v' L')
    (hi : hashFind L id = some S → v.threadServerId = id ∧ id ≠ 0 ∧ v.mayHold = true)
    (hfind : hashFind L' id = some S) :
    (v'.threadServerId = id ∧ id ≠ 0 ∧ v'.mayHold = true) ∧
      (v.serverId = id ∨ hashFind L id ≠ some S → v'.serverId = id) := by
  cases h with
  | kept hlookup hserverId hthread hhold =>
      rw [hlookup] at hfind
      obtain ⟨hthread₀, hid, hhold₀⟩ := hi hfind
      refine ⟨⟨hthread.trans hthread₀, hid, hhold hhold₀⟩, ?_⟩
      intro hbefore
      exact hserverId.trans (hbefore.resolve_right (not_not_intro hfind))
  | idle hsubset hhold hthread =>
      -- the thread stands where it can have no entry
      have hhold₀ := (hi (hsubset id S hfind)).2.2
      rw [hhold] at hhold₀
      cases hhold₀
  | registered hlookup hhold hid horigin hserverId hhold' =>
      rw [hlookup] at hfind
      rcases hashFind_hashInsert_eq_some hfind with ⟨hkey, -⟩ | ⟨-, hold⟩
      · -- the new entry
        rw [hkey]
        exact ⟨⟨rfl, hid, hhold'⟩, fun _ => hserverId⟩
      · have hhold₀ := (hi hold).2.2
        rw [hhold] at hhold₀
        cases hhold₀
  | dropped hsubset hnone hthread =>
      have hthread₀ := (hi (hsubset id S hfind)).1
      rw [hthread₀, hfind] at hnone
      cases hnone
  | forgotten hsubset hserverId hnone hthread hhold =>
      -- the entry that agreed with the server's id is the one that was removed
      obtain ⟨hthread₀, hid, hhold₀⟩ := hi (hsubset id S hfind)
      refine ⟨⟨hthread.trans hthread₀, hid, hhold.trans hhold₀⟩, ?_⟩
      intro hbefore
      have hsame := hbefore.resolve_right (not_not_intro (hsubset id S hfind))
      have hgone := hnone (hsame ▸ hid)
      rw [hsame, hfind] at hgone
      cases hgone

theorem step_entryInv (hi : EntryInv s) (h : step s a = some s') : EntryInv s' := by
  intro id T hfind
  cases step_session h with
  | session S hother hserver hmove =>
      by_cases hT : T = S
      · subst hT
        exact (hmove.entry (hi id T) hfind).1
      · rw [hother T hT]
        exact hi id T (hmove.other hT hfind)
  | attachFailed S l haction hserver hother hlookup hserverId hthread hhold =>
      rw [hlookup] at hfind
      by_cases hT : T = S
      · subst hT
        rw [hthread, hhold]
        exact hi id T hfind
      · rw [hother T hT]
        exact hi id T hfind

theorem step_entryAgrees (hi : EntryInv s) (hagrees : EntryAgrees s) (hg : AttachHarmless s a)
    (h : step s a = some s') : EntryAgrees s' := by
  intro id T hfind
  cases step_session h with
  | session S hother hserver hmove =>
      by_cases hT : T = S
      · subst hT
        refine (hmove.entry (hi id T) hfind).2 ?_
        -- an entry that was there agreed before; a new one agrees from the start
        by_cases hold : hashFind s.serverIdLookup id = some T
        · exact .inl (hagrees id T hold)
        · exact .inr hold
      · rw [hother T hT]
        exact hagrees id T (hmove.other hT hfind)
  | attachFailed S l haction hserver hother hlookup hserverId hthread hhold =>
      rw [hlookup] at hfind
      by_cases hT : T = S
      · subst hT
        subst haction
        -- the attach failed for a server that has no entry
        have hnone := hg rfl T hserver
        rw [hashHolds_of_hashFind hfind] at hnone
        cases hnone
      · rw [hother T hT]
        exact hagrees id T hfind

/-- A thread keeps its session id, loses it, or gets a new one from Janus. -/
theorem SessionMove.threadServerId (h : SessionMove S t v L v' L') :
    v'.threadServerId = v.threadServerId ∨ v'.threadServerId = 0 ∨
      (v'.threadServerId ≠ 0 ∧ ∃ inserted, t = some (.create v'.threadServerId inserted)) := by
  cases h with
  | kept hlookup hserverId hthread hhold => exact .inl hthread
  | idle hsubset hhold hthread => exact hthread.imp_right .inl
  | registered hlookup hhold hid horigin hserverId hhold' =>
      exact horigin.imp (fun ⟨_, _, hsame⟩ => hsame) fun hcreate => .inr ⟨hid, hcreate⟩
  | dropped hsubset hnone hthread => exact .inl hthread
  | forgotten hsubset hserverId hnone hthread hhold => exact .inl hthread

/-- Changing one thread's id to 0, or to an id that no thread holds, keeps them apart. -/
theorem ThreadsApart.change (hi : ThreadsApart s) (hcount : s.serverCount ≤ s'.serverCount)
    (hother : ∀ T, T ≠ S → s'.servers T = s.servers T)
    (hself : (s'.servers S).threadServerId = (s.servers S).threadServerId ∨
      (s'.servers S).threadServerId = 0 ∨
      (S < s.serverCount ∧
        ∀ T, (s.servers T).threadServerId ≠ (s'.servers S).threadServerId)) :
    ThreadsApart s' := by
  have hunused : ∀ T, s'.serverCount ≤ T → (s'.servers T).threadServerId = 0 := by
    intro T hT
    have hzero := hi.unused T (Nat.le_trans hcount hT)
    by_cases hTS : T = S
    · subst hTS
      rcases hself with hsame | hnone | ⟨hlt, -⟩
      · rw [hsame]
        exact hzero
      · exact hnone
      · omega
    · rw [hother T hTS]
      exact hzero
  -- another thread's id is not the one that `S` has now
  have hne : ∀ T, T ≠ S → (s'.servers S).threadServerId ≠ 0 →
      (s'.servers S).threadServerId ≠ (s'.servers T).threadServerId := by
    intro T hT hid heq
    rw [hother T hT] at heq
    rcases hself with hsame | hnone | ⟨-, hfresh⟩
    · rw [hsame] at heq hid
      exact hT (hi.apart S T hid heq).symm
    · exact hid hnone
    · exact hfresh T heq.symm
  refine ⟨hunused, ?_⟩
  intro T U hid heq
  by_cases hT : T = S
  · subst hT
    by_contra hTU
    exact hne U (Ne.symm hTU) hid heq
  · by_cases hU : U = S
    · subst hU
      exact absurd heq.symm (hne T hT (heq ▸ hid))
    · rw [hother T hT] at hid heq
      rw [hother U hU] at heq
      exact hi.apart T U hid heq

theorem step_threadsApart (hi : ThreadsApart s) (hg : FreshSession s a)
    (h : step s a = some s') : ThreadsApart s' := by
  have hcount := step_serverCount h
  cases step_session h with
  | session S hother hserver hmove =>
      refine hi.change hcount hother ?_
      refine hmove.threadServerId.imp_right (.imp_right ?_)
      rintro ⟨hid, inserted, hcreate⟩
      obtain ⟨U, rfl⟩ := thread_eq_some hcreate
      refine ⟨(hserver U _ rfl).2, ?_⟩
      intro T heq
      -- a server that exists has another id, one that does not has none
      by_cases hT : T < s.serverCount
      · rcases hg T hT with hne | hzero
        · exact hne heq
        · exact hid hzero
      · rw [hi.unused T (by omega)] at heq
        exact hid heq.symm
  | attachFailed S l haction hserver hother hlookup hserverId hthread hhold =>
      exact hi.change hcount hother (.inl hthread)

/-! ## The lookup and the servers agree -/

/-- The thread is in its poll loop and goes round again. -/
def Server.isPolling (pServer : Server) (serverIdLookup : Hash Nat) : Bool :=
  (pServer.pc == .inner || pServer.pc == .polling) && pServer.keepsPolling serverIdLookup

theorem reach_entryInv {guard : State → Action → Prop} (h : Reach step guard Initial s) :
    EntryInv s := by
  refine h.invariant ?_ ?_
  · rintro _ ⟨podServerFailMax, rfl⟩ id S hfind
    cases hfind
  · intro s a s' hi _ hs
    exact step_entryInv hi hs

theorem reach_entryAgrees {guard : State → Action → Prop}
    (hguard : ∀ s a, guard s a → AttachHarmless s a) (h : Reach step guard Initial s) :
    EntryAgrees s := by
  refine h.invariant_of (fun _ => reach_entryInv) ?_ ?_
  · rintro _ ⟨podServerFailMax, rfl⟩ id S hfind
    cases hfind
  · intro s a s' hi hagrees hg hs
    exact step_entryAgrees hi hagrees (hguard s a hg) hs

theorem reach_threadsApart {guard : State → Action → Prop}
    (hguard : ∀ s a, guard s a → FreshSession s a) (h : Reach step guard Initial s) :
    ThreadsApart s := by
  refine h.invariant ?_ ?_
  · rintro _ ⟨podServerFailMax, rfl⟩
    exact ⟨fun _ _ => rfl, fun _ _ hid => absurd rfl hid⟩
  · intro s a s' hi hg hs
    exact step_threadsApart hi (hguard s a hg) hs

/-- A thread that keeps polling has an entry of its own. -/
theorem isPolling_entry {guard : State → Action → Prop}
    (hguard : ∀ s a, guard s a → FreshSession s a) (h : Reach step guard Initial s)
    (hpolling : (s.servers S).isPolling s.serverIdLookup = true) :
    hashFind s.serverIdLookup (s.servers S).threadServerId = some S := by
  simp only [Server.isPolling, Server.keepsPolling, Bool.and_eq_true,
    Option.isSome_iff_exists] at hpolling
  obtain ⟨-, -, T, hfind⟩ := hpolling
  obtain ⟨hthread, hid, -⟩ := reach_entryInv h _ _ hfind
  -- the entry under the thread's id could only be another server's if both held that id
  have hTS : S = T := (reach_threadsApart hguard h).apart S T hid hthread.symm
  rw [hfind, hTS]

/-- As long as an attach fails only for a server that is no longer registered, every
    entry of `serverIdLookup` names a server with that id; and if Janus ids do not
    coincide either, a server that keeps polling is found by `waitServerActive`. -/
theorem lookup_agrees (h : Reach step AttachHarmless Initial s) :
    (∀ id S, hashFind s.serverIdLookup id = some S → (s.servers S).serverId = id ∧ id ≠ 0) ∧
    (Reach step (fun s a => AttachHarmless s a ∧ FreshSession s a) Initial s →
      ∀ S, (s.servers S).isPolling s.serverIdLookup = true → waitServerActive s S = some S) := by
  refine ⟨?_, ?_⟩
  · intro id S hfind
    exact ⟨reach_entryAgrees (fun _ _ hg => hg) h id S hfind, (reach_entryInv h id S hfind).2.1⟩
  · intro hfresh S hpolling
    have hfind := isPolling_entry (fun _ _ hg => hg.2) hfresh hpolling
    have hid := (reach_entryInv h _ S hfind).2.1
    have hagrees := reach_entryAgrees (fun _ _ hg => hg) h _ _ hfind
    rw [waitServerActive, hagrees, if_pos hid]
    exact hfind

/-- The server of pod a registers under 7 and is dialled; the leg's attach fails while
    the thread is polling. -/
def attachFails : List Action :=
  [.serversAdd "a" true, .server 0 (.thread (.start true)), .server 0 (.thread (.outer true)),
    .server 0 (.thread (.create 7 true)), .server 0 (.thread .inner), .resolve 0, .call 0 .dial,
    .call 0 .initLookup, .call 0 (.attach 0)]

/-- The server of pod a registers under 7, loses a poll and claims its session. -/
def reclaimed : List Action :=
  [.serversAdd "a" true, .server 0 (.thread (.start true)), .server 0 (.thread (.outer true)),
    .server 0 (.thread (.create 7 true)), .server 0 (.thread .inner), .resolve 0, .call 0 .dial,
    .server 0 (.thread (.polled .false)), .server 0 (.thread .inner),
    .server 0 (.thread (.outer true)), .server 0 (.thread (.claim .success true)),
    .call 0 .initLookup, .server 0 (.thread .inner)]

theorem lookup_agrees_reclaimed :
    ∃ s, (hashFind s.serverIdLookup 7 = some 0 ∧ (s.servers 0).serverId = 7 ∧ (7 : JanusId) ≠ 0) ∧
      waitServerActive s 0 = some 0 := by
  have h0 : Initial {} := ⟨0, rfl⟩
  obtain ⟨s, hs, hp⟩ := Transition.reach_of_exec step
    (fun s a => AttachHarmless s a ∧ FreshSession s a) h0 reclaimed
    (fun s => hashFind s.serverIdLookup 7 = some 0 ∧
      (s.servers 0).isPolling s.serverIdLookup = true) (by decide)
  obtain ⟨hfind, hpolling⟩ := of_decide_eq_true hp
  have hharmless := hs.mono fun _ _ hg => hg.1
  have hagrees := lookup_agrees hharmless
  exact ⟨s, ⟨hfind, hagrees.1 7 0 hfind⟩, hagrees.2 hs 0 hpolling⟩

/-- A failed attach leaves a polling server that no dial finds. -/
theorem lookup_disagrees :
    ¬ ∀ s, Reach step Always Initial s →
      (∀ id S, hashFind s.serverIdLookup id = some S → (s.servers S).serverId = id ∧ id ≠ 0) ∧
      ∀ S, (s.servers S).isPolling s.serverIdLookup = true → waitServerActive s S = some S := by
  intro hclaim
  have h0 : Initial {} := ⟨0, rfl⟩
  obtain ⟨s, hs, hp⟩ := Transition.reach_of_exec step Always h0 attachFails
    (fun s => hashFind s.serverIdLookup 7 = some 0 ∧ (s.servers 0).serverId = 0 ∧
      (s.servers 0).isPolling s.serverIdLookup = true ∧ waitServerActive s 0 = none) (by decide)
  obtain ⟨hfind, hzero, -, -⟩ := of_decide_eq_true hp
  have hid := ((hclaim s hs).1 7 0 hfind).1
  rw [hzero] at hid
  exact absurd hid (by decide)

end ModJanus.Servers
