/-
  ModJanus.Server.Backoff

  The pause of `server_thread_run` before it connects again, and what it means for a
  dynamic server that cannot be reached.

  The thread sleeps 5 s at the top of its outer loop, except in the first round of its
  life (`outer_reconnect_delay`).  A failed create of a dynamic server counts; the count
  is cleared by a create that succeeds, by a registry refresh that sees the pod and by a
  probe before a dial that finds it, and the thread gives its server up when the count
  reaches `pod_server_fail_max`.  Here the system has a clock and the thread of one
  server its pause; everybody else acts when they like.
-/
import ModJanus.Server.Machine

namespace ModJanus.Servers

open Transition (Reach Always exec exec_cons_eq_some exec_invariant exec_count_le)

/-- `switch_yield(5000000)`, in microseconds. -/
def reconnectDelay : Int := 5000000

/-- The system with a clock, and the pause of one thread. -/
structure Timed where
  world : State
  now : Int := 0
  /-- The thread sleeps until then. -/
  wakes : Int := 0
  outerReconnectDelay : Bool := false

inductive TimedEvent where
  | act (a : Action)
  /-- `connect_failures = 0` in `serversUpdateRegistryServer` or in
      `serversVerifyDynamicIdentity`. -/
  | seen (S : Nat)
  deriving DecidableEq, Repr

/-- An event, and what the clock says then. -/
structure TimedAction where
  now : Int
  event : TimedEvent
  deriving DecidableEq, Repr

/-- The step is one of the thread of `S`. -/
def TimedEvent.ofThread (S : Nat) : TimedEvent → Option ThreadAction
  | .act (.server T (.thread a)) => if T = S then some a else none
  | _ => none

/-- The pause of the thread of `S` after one of its steps. -/
def Timed.paused (t : Timed) (S : Nat) (now : Int) : Option ThreadAction → Timed
  | some (.start _) => { t with wakes := now, outerReconnectDelay := false }
  | some (.outer _) =>
      if (t.world.servers S).terminating then t
      else if t.outerReconnectDelay then { t with wakes := now + reconnectDelay }
      else { t with wakes := now, outerReconnectDelay := true }
  | _ => t

/-- A step at a clock reading: time does not go back, and the thread of `S` does nothing
    while it sleeps. -/
def Timed.step (S : Nat) (t : Timed) (a : TimedAction) : Option Timed :=
  if t.now ≤ a.now ∧ ((a.event.ofThread S).isSome → t.wakes ≤ a.now) then
    match a.event with
    | .act action =>
        (Servers.step t.world action).map fun world =>
          { t.paused S a.now (a.event.ofThread S) with world := world, now := a.now }
    | .seen T =>
        some { t with
          world := t.world.setServer T { t.world.servers T with connectFailures := 0 }
          now := a.now }
  else none

/-- The thread tries to reach its Janus. -/
def ThreadAction.attempts : ThreadAction → Bool
  | .claim _ _ | .create _ _ => true
  | _ => false

/-- The thread of `S` tries to reach its Janus. -/
def TimedAction.attempts (S : Nat) (a : TimedAction) : Bool :=
  (a.event.ofThread S).any ThreadAction.attempts

/-- The thread of `S` lives on: it is not started anew. -/
def KeepsThread (S : Nat) (_ : Timed) (a : TimedAction) : Prop :=
  ∀ force, a.event.ofThread S ≠ some (.start force)

instance (S : Nat) (t : Timed) (a : TimedAction) : Decidable (KeepsThread S t a) :=
  match h : a.event.ofThread S with
  | some (.start force) => isFalse fun hkeeps => hkeeps force h
  | none | some (.outer _) | some (.claim _ _) | some (.refuse _) | some (.create _ _)
  | some .inner | some (.polled _) | some .destroySenders | some .deleteEntry =>
      isTrue fun force hstart => by rw [h] at hstart; cases hstart

/-! ## One step -/

/-- A step makes the thread of `S` neither begin nor end an attempt, and leaves its count
    alone. -/
structure Bystander (s : State) (S : Nat) (s' : State) : Prop where
  pc : (s'.servers S).pc = .connect ↔ (s.servers S).pc = .connect
  connectFailures : (s'.servers S).connectFailures = (s.servers S).connectFailures

theorem Bystander.refl (s : State) (S : Nat) : Bystander s S s := ⟨.rfl, rfl⟩

theorem Bystander.of_servers {s s' : State} {S : Nat} (h : s'.servers S = s.servers S) :
    Bystander s S s' := by
  refine ⟨?_, ?_⟩
  · rw [h]
  · rw [h]

theorem Bystander.trans {s s' s'' : State} {S : Nat} (h : Bystander s S s')
    (h' : Bystander s' S s'') : Bystander s S s'' where
  pc := h'.pc.trans h.pc
  connectFailures := h'.connectFailures.trans h.connectFailures

/-- An update of a server that leaves its thread and its count. -/
theorem Bystander.setServer {s : State} {T : Nat} {pServer : Server} (S : Nat)
    (hpc : pServer.pc = .connect ↔ (s.servers T).pc = .connect)
    (hfailures : pServer.connectFailures = (s.servers T).connectFailures) :
    Bystander s S (s.setServer T pServer) := by
  by_cases hS : S = T
  · subst hS
    refine ⟨?_, ?_⟩
    · rw [State.setServer_self]
      exact hpc
    · rw [State.setServer_self, hfailures]
  · exact .of_servers (s.setServer_ne pServer hS)

theorem removed_bystander (s : State) (S T : Nat) :
    Bystander s S (s.serversDynamicRemoveFromLookup T) := by
  rcases s.serversDynamicRemoveFromLookup_cases T with h | ⟨names, h⟩
  · rw [h]
    exact .refl s S
  · rw [h]
    have hset : Bystander s S
        (s.setServer T { s.servers T with serverId := 0, enabled := false }) :=
      .setServer S .rfl rfl
    exact ⟨hset.pc, hset.connectFailures⟩

theorem addServer_bystander {s s' : State} {name : String} {enabled dynamic : Bool} (S : Nat)
    (h : s.addServer name enabled dynamic = some s') : Bystander s S s' := by
  unfold State.addServer at h
  split at h <;> cases h
  have hset : Bystander s S (s.setServer s.serverCount
      { s.servers s.serverCount with name := some name, enabled := enabled, dynamic := dynamic }) :=
    .setServer S .rfl rfl
  exact ⟨hset.pc, hset.connectFailures⟩

theorem callEffect_bystander {s s' : State} {l : Nat} {c : Call} {a : CallAction} (S : Nat)
    (h : CallEffect s l c a s') : Bystander s S s' := by
  cases h with
  | attachFailed T hpc =>
      have hset : Bystander s S (s.setServer T { s.servers T with serverId := 0 }) :=
        .setServer S .rfl rfl
      exact ⟨hset.pc, hset.connectFailures⟩
  | inserted T hpc =>
      have hset : Bystander s S (s.setServer T { s.servers T with
          senderIdLookup := hashInsert (s.servers T).senderIdLookup c.senderId l }) :=
        .setServer S .rfl rfl
      exact ⟨hset.pc, hset.connectFailures⟩
  | counted T hpc =>
      have hset : Bystander s S (s.setServer T { s.servers T with
          callsInProgress := (s.servers T).callsInProgress + 1
          totalCalls := (s.servers T).totalCalls + 1 }) :=
        .setServer S .rfl rfl
      exact ⟨hset.pc, hset.connectFailures⟩
  | hangupDeleted T hpc =>
      have hset : Bystander s S (s.setServer T { s.servers T with
          senderIdLookup := (hashDelete (s.servers T).senderIdLookup c.senderId).1 }) :=
        .setServer S .rfl rfl
      exact ⟨hset.pc, hset.connectFailures⟩
  | hangupUncounted T hpc =>
      have hset : Bystander s S (s.setServer T { s.servers T with
          callsInProgress := (s.servers T).callsInProgress - 1 }) :=
        .setServer S .rfl rfl
      exact ⟨hset.pc, hset.connectFailures⟩
  | _ => exact .of_servers rfl

/-- A step of the system is one of the thread of `S`, or it stands by. -/
theorem step_bystander {s s' : State} {a : Action} (S : Nat) (h : StepCase s s' a) :
    (∃ action L', a = .server S (.thread action) ∧ ThreadEffect (s.servers S) S s.serverIdLookup
      s.podServerFailMax action (s'.servers S) L') ∨
    (∀ action, a ≠ .server S (.thread action)) ∧ Bystander s S s' := by
  have hreturned : ∀ T, (s.servers T).pc = .exiting → Bystander s S
      (s.setServer T { s.servers T with pc := .notRunning, threadServerId := 0 }) := by
    intro T hpc
    refine .setServer S ?_ rfl
    rw [hpc]
    exact ⟨nofun, nofun⟩
  cases h with
  | added name enabled dynamic haction hstep =>
      refine .inr ⟨?_, addServer_bystander S hstep⟩
      rintro action rfl
      simp at haction
  | resolved T active hactive hstate =>
      subst hstate
      exact .inr ⟨nofun, .of_servers rfl⟩
  | call l c action hc heffect => exact .inr ⟨nofun, callEffect_bystander S heffect⟩
  | server T action hT heffect =>
      cases heffect with
      | thread action v L heffect =>
          by_cases hS : S = T
          · subst hS
            refine .inl ⟨action, L, rfl, ?_⟩
            rwa [← s.setServer_self S v] at heffect
          · refine .inr ⟨?_, .of_servers (s.setServer_ne v hS)⟩
            rintro other hother
            cases hother
            exact hS rfl
      | returned hpc => exact .inr ⟨nofun, hreturned T hpc⟩
      | returnedRemoved hpc =>
          exact .inr ⟨nofun, (hreturned T hpc).trans (removed_bystander _ S T)⟩
      | terminated | joined hpc | evicted =>
          exact .inr ⟨nofun, .setServer S .rfl rfl⟩
      | removed => exact .inr ⟨nofun, removed_bystander s S T⟩
      | untouched => exact .inr ⟨nofun, .refl s S⟩

/-! ## The clock and the pause -/

section Step

variable {S : Nat} {t t' : Timed} {a : TimedAction}

/-- What a step means for the thread of `S`: it is a step of that thread, taken when it is
    awake, or one that neither begins nor ends an attempt and counts no failure. -/
inductive TimedCase (S : Nat) (t : Timed) (a : TimedAction) (t' : Timed) : Prop where
  | thread (action : ThreadAction) (v : Server) (L' : Hash Nat)
      (ha : a.event.ofThread S = some action) (hawake : t.wakes ≤ a.now)
      (hv : t'.world.servers S = v)
      (heffect : ThreadEffect (t.world.servers S) S t.world.serverIdLookup
        t.world.podServerFailMax action v L')
      (hwakes : t'.wakes = (t.paused S a.now (some action)).wakes)
      (hdelay : t'.outerReconnectDelay =
        (t.paused S a.now (some action)).outerReconnectDelay)
  | other (ha : a.event.ofThread S = none)
      (hpc : (t'.world.servers S).pc = .connect ↔ (t.world.servers S).pc = .connect)
      (hfailures : (t'.world.servers S).connectFailures ≤
        (t.world.servers S).connectFailures)
      (hwakes : t'.wakes = t.wakes) (hdelay : t'.outerReconnectDelay = t.outerReconnectDelay)

/-- The clock goes on to the reading of the step. -/
theorem timedStep_now (h : t.step S a = some t') : t.now ≤ a.now ∧ t'.now = a.now := by
  unfold Timed.step at h
  split at h
  · next hclock =>
      refine ⟨hclock.1, ?_⟩
      split at h
      · obtain ⟨world, -, rfl⟩ := Option.map_eq_some_iff.mp h
        rfl
      · cases h
        rfl
  · cases h

theorem timedStep_case (h : t.step S a = some t') : TimedCase S t a t' := by
  unfold Timed.step at h
  split at h
  · next hclock =>
      split at h
      · next action hevent =>
          obtain ⟨world, hworld, rfl⟩ := Option.map_eq_some_iff.mp h
          rcases step_bystander S (step_case hworld) with
            ⟨threadAction, L', rfl, heffect⟩ | ⟨hnot, hbystander⟩
          · have ha : a.event.ofThread S = some threadAction := by
              rw [hevent]
              exact if_pos rfl
            refine .thread threadAction _ L' ha (hclock.2 ?_) rfl heffect ?_ ?_
            · rw [ha]
              rfl
            · rw [ha]
            · rw [ha]
          · have ha : a.event.ofThread S = none := by
              rw [hevent]
              unfold TimedEvent.ofThread
              split
              · next T threadAction heq =>
                  cases heq
                  refine if_neg ?_
                  rintro rfl
                  exact hnot threadAction rfl
              · rfl
            refine .other ha hbystander.pc (Nat.le_of_eq hbystander.connectFailures) ?_ ?_
            · rw [ha]
              rfl
            · rw [ha]
              rfl
      · next T hevent =>
          cases h
          refine .other ?_ ?_ ?_ rfl rfl
          · rw [hevent]
            rfl
          · by_cases hT : S = T
            · subst hT
              rw [State.setServer_self]
            · rw [State.setServer_ne _ _ hT]
          · by_cases hT : S = T
            · subst hT
              rw [State.setServer_self]
              exact Nat.zero_le _
            · rw [State.setServer_ne _ _ hT]
  · cases h

/-- Before the thread connects it has been through its outer loop, and it never sleeps for
    longer than the pause. -/
structure Paced (S : Nat) (t : Timed) : Prop where
  delay : (t.world.servers S).pc = .connect → t.outerReconnectDelay = true
  wakes : t.wakes ≤ t.now + reconnectDelay

/-- The earliest time at which the thread may try to connect next. -/
def Timed.earliest (S : Nat) (t : Timed) : Int :=
  if (t.world.servers S).pc = .connect then max t.now t.wakes
  else if t.outerReconnectDelay then t.now + reconnectDelay
  else t.now

end Step

/-- The steps of the thread, as far as its pause goes. -/
inductive PaceCase (v : Server) : ThreadAction → Server → Prop where
  | started (force : Bool) (v' : Server) (hpc' : v'.pc ≠ .connect) :
      PaceCase v (.start force) v'
  /-- It sleeps, unless this is its first round. -/
  | paused (opened : Bool) (v' : Server) (hpc : v.pc ≠ .connect)
      (hterminating : v.terminating = false)
      (hfailures : v'.connectFailures = v.connectFailures) : PaceCase v (.outer opened) v'
  | attempted (action : ThreadAction) (v' : Server) (hattempts : action.attempts = true)
      (hpc : v.pc = .connect) (hpc' : v'.pc ≠ .connect)
      (hfailures : v'.connectFailures ≤ v.connectFailures + 1)
      (hpaused : ∀ (t : Timed) (S : Nat) now, t.paused S now (some action) = t) :
      PaceCase v action v'
  | elsewhere (action : ThreadAction) (v' : Server) (hattempts : action.attempts = false)
      (hpc : v.pc ≠ .connect) (hpc' : v'.pc ≠ .connect)
      (hfailures : v'.connectFailures = v.connectFailures)
      (hpaused : ∀ (t : Timed) (S : Nat) now, t.world.servers S = v →
        t.paused S now (some action) = t) :
      PaceCase v action v'

theorem claimed_pace (v : Server) (S : Nat) (L : Hash Nat) (inserted : Bool) (status : Status) :
    (v.claimed S L inserted status).1.pc ≠ .connect ∧
      (v.claimed S L inserted status).1.connectFailures = v.connectFailures := by
  cases status with
  | success => cases inserted <;> exact ⟨nofun, rfl⟩
  | sockErr | false | notFound | notInitialized => exact ⟨nofun, rfl⟩

theorem created_pace (v : Server) (S : Nat) (L : Hash Nat) (serverId : JanusId)
    (inserted : Bool) :
    (v.created S L serverId inserted).1.pc ≠ .connect ∧
      (v.created S L serverId inserted).1.connectFailures ≤ v.connectFailures := by
  have hfailures : (if v.dynamic then 0 else v.connectFailures) ≤ v.connectFailures := by
    split
    · exact Nat.zero_le _
    · exact Nat.le_refl _
  cases inserted with
  | true => exact ⟨nofun, hfailures⟩
  | false => exact ⟨nofun, hfailures⟩

theorem createFailed_pace (v : Server) (podServerFailMax : Nat) :
    (v.createFailed podServerFailMax).pc ≠ .connect ∧
      (v.createFailed podServerFailMax).connectFailures ≤ v.connectFailures + 1 := by
  unfold Server.createFailed
  split
  · simp only
    split
    · exact ⟨nofun, Nat.le_refl _⟩
    · exact ⟨nofun, Nat.le_refl _⟩
  · exact ⟨nofun, Nat.le_succ _⟩

theorem polled_pace (v : Server) (L : Hash Nat) (status : Status) :
    (v.polled L status).1.pc ≠ .connect ∧
      (v.polled L status).1.connectFailures = v.connectFailures := by
  cases status with
  | success => exact ⟨nofun, rfl⟩
  | sockErr | false | notFound | notInitialized => exact ⟨nofun, rfl⟩

theorem ThreadEffect.pace {v v' : Server} {S podServerFailMax : Nat} {L L' : Hash Nat}
    {action : ThreadAction} (h : ThreadEffect v S L podServerFailMax action v' L') :
    PaceCase v action v' := by
  have hne : ∀ {pc : ThreadPc}, v.pc = pc → pc ≠ .connect → v.pc ≠ .connect := by
    rintro pc rfl hpc
    exact hpc
  cases h with
  | started force hpc => exact .started force _ nofun
  | left opened hpc hterminating =>
      refine .elsewhere _ _ rfl (hne hpc nofun) nofun rfl ?_
      intro t S now hv
      simp [Timed.paused, hv, hterminating]
  | opened hpc hterminating => exact .paused true _ (hne hpc nofun) hterminating rfl
  | notOpened hpc hterminating => exact .paused false _ (hne hpc nofun) hterminating rfl
  | claimed status inserted hpc hid =>
      have hpace := claimed_pace v S L inserted status
      exact .attempted _ _ rfl hpc hpace.1 (Nat.le_succ_of_le (Nat.le_of_eq hpace.2))
        fun _ _ _ => rfl
  | createFailed inserted hpc =>
      have hpace := createFailed_pace v podServerFailMax
      exact .attempted _ _ rfl hpc hpace.1 hpace.2 fun _ _ _ => rfl
  | created serverId inserted hpc hid =>
      have hpace := created_pace v S L serverId inserted
      exact .attempted _ _ rfl hpc hpace.1 (Nat.le_succ_of_le hpace.2) fun _ _ _ => rfl
  | polled status hpc =>
      have hpace := polled_pace v L status
      exact .elsewhere _ _ rfl (hne hpc nofun) hpace.1 hpace.2 fun _ _ _ _ => rfl
  | hungUp pIndex senderId ofLeg hpc | refused pIndex hpc =>
      exact .elsewhere _ _ rfl (hne hpc nofun) nofun rfl fun _ _ _ _ => rfl
  | polling hpc | stopped hpc hstop | sendersDestroyed hpc | entryDeleted hpc =>
      exact .elsewhere _ _ rfl (hne hpc nofun) nofun rfl fun _ _ _ _ => rfl

section Run

variable {S : Nat} {t t' : Timed} {a : TimedAction}

/-- The first round of a thread goes on at once, and every later one after the pause. -/
theorem paused_outer {opened : Bool} (now : Int)
    (hterminating : (t.world.servers S).terminating = false) :
    (t.paused S now (some (.outer opened))).outerReconnectDelay = true ∧
      (t.paused S now (some (.outer opened))).wakes =
        if t.outerReconnectDelay then now + reconnectDelay else now := by
  rw [Timed.paused, hterminating, if_neg Bool.false_ne_true]
  split
  · next hpause => exact ⟨hpause, rfl⟩
  · exact ⟨rfl, rfl⟩

theorem paced_step (h : t.step S a = some t') (hi : Paced S t) : Paced S t' := by
  obtain ⟨hclock, hnow⟩ := timedStep_now h
  have hsleep : t.wakes ≤ t'.now + reconnectDelay := by
    have := hi.wakes
    omega
  cases timedStep_case h with
  | other ha hpc hfailures hwakes hdelay =>
      refine ⟨?_, hwakes ▸ hsleep⟩
      intro hconnect
      rw [hdelay]
      exact hi.delay (hpc.mp hconnect)
  | thread action v L' ha hawake hv heffect hwakes hdelay =>
      cases heffect.pace with
      | started force _ hpc' =>
          refine ⟨fun hconnect => absurd (hv ▸ hconnect) hpc', ?_⟩
          rw [hwakes, hnow]
          show a.now ≤ a.now + reconnectDelay
          unfold reconnectDelay
          omega
      | paused opened _ hpc hterminating hfailures =>
          obtain ⟨hpause, hlength⟩ := paused_outer (S := S) a.now hterminating
          refine ⟨fun _ => hdelay.trans hpause, ?_⟩
          rw [hwakes, hlength, hnow]
          unfold reconnectDelay
          split <;> omega
      | attempted _ _ hattempts hpc hpc' hfailures hpaused =>
          rw [hpaused] at hwakes
          exact ⟨fun hconnect => absurd (hv ▸ hconnect) hpc', hwakes ▸ hsleep⟩
      | elsewhere _ _ hattempts hpc hpc' hfailures hpaused =>
          rw [hpaused t S _ rfl] at hwakes
          exact ⟨fun hconnect => absurd (hv ▸ hconnect) hpc', hwakes ▸ hsleep⟩

/-- An attempt to connect puts the next one off by the pause, and no other step brings it
    nearer. -/
theorem earliest_step (h : t.step S a = some t') (hkeeps : KeepsThread S t a)
    (hi : Paced S t) :
    t.earliest S + (if a.attempts S then reconnectDelay else 0) ≤ t'.earliest S := by
  obtain ⟨hclock, hnow⟩ := timedStep_now h
  cases timedStep_case h with
  | other ha hpc hfailures hwakes hdelay =>
      have hnone : a.attempts S = false := by
        rw [TimedAction.attempts, ha]
        rfl
      rw [hnone, if_neg Bool.false_ne_true, Int.add_zero]
      unfold Timed.earliest
      rw [hwakes, hdelay, hnow]
      by_cases hconnect : (t.world.servers S).pc = .connect
      · rw [if_pos hconnect, if_pos (hpc.mpr hconnect)]
        omega
      · rw [if_neg hconnect, if_neg (mt hpc.mp hconnect)]
        split <;> omega
  | thread action v L' ha hawake hv heffect hwakes hdelay =>
      have hattempts' : a.attempts S = action.attempts := by
        rw [TimedAction.attempts, ha]
        rfl
      rw [hattempts']
      unfold Timed.earliest
      rw [hwakes, hdelay, hnow, hv]
      cases heffect.pace with
      | started force _ hpc' => exact absurd ha (hkeeps force)
      | paused opened _ hpc hterminating hfailures =>
          obtain ⟨hpause, hlength⟩ := paused_outer (S := S) a.now hterminating
          rw [if_neg hpc, hpause, hlength, if_pos rfl]
          have hlater : (if t.outerReconnectDelay then t.now + reconnectDelay else t.now) ≤
              if t.outerReconnectDelay then a.now + reconnectDelay else a.now := by
            split <;> omega
          have hpos : (if t.outerReconnectDelay then a.now + reconnectDelay else a.now) ≤
              a.now + reconnectDelay := by
            unfold reconnectDelay
            split <;> omega
          show _ + (0 : Int) ≤ _
          rw [Int.add_zero]
          refine Int.le_trans hlater ?_
          -- asleep until the attempt, or back at the test of the loop
          by_cases hconnect : v.pc = .connect
          · rw [if_pos hconnect]
            exact Int.le_max_right _ _
          · rw [if_neg hconnect]
            exact hpos
      | attempted _ _ hattempts hpc hpc' hfailures hpaused =>
          rw [hpaused, if_pos hpc, if_neg hpc', hattempts, hi.delay hpc, if_pos rfl, if_pos rfl]
          omega
      | elsewhere _ _ hattempts hpc hpc' hfailures hpaused =>
          rw [hpaused t S _ rfl, if_neg hpc, if_neg hpc', hattempts, if_neg Bool.false_ne_true]
          split <;> omega

/-- A step counts at most the failure of its own attempt. -/
theorem failures_step (h : t.step S a = some t') (hkeeps : KeepsThread S t a) :
    (t'.world.servers S).connectFailures ≤
      (t.world.servers S).connectFailures + if a.attempts S then 1 else 0 := by
  cases timedStep_case h with
  | other ha hpc hfailures hwakes hdelay => exact Nat.le_add_right_of_le hfailures
  | thread action v L' ha hawake hv heffect hwakes hdelay =>
      rw [TimedAction.attempts, ha, hv]
      show _ ≤ _ + if action.attempts then 1 else 0
      cases heffect.pace with
      | started force _ hpc' => exact absurd ha (hkeeps force)
      | paused opened _ hpc hterminating hfailures =>
          exact Nat.le_add_right_of_le (Nat.le_of_eq hfailures)
      | attempted _ _ hattempts hpc hpc' hfailures hpaused =>
          rw [hattempts, if_pos rfl]
          exact hfailures
      | elsewhere _ _ hattempts hpc hpc' hfailures hpaused =>
          exact Nat.le_add_right_of_le (Nat.le_of_eq hfailures)

theorem Timed.now_le_earliest (S : Nat) (t : Timed) : t.now ≤ t.earliest S := by
  unfold Timed.earliest reconnectDelay
  split
  · exact Int.le_max_left _ _
  · split <;> omega

theorem Paced.earliest_le (hi : Paced S t) : t.earliest S ≤ t.now + reconnectDelay := by
  have hwakes := hi.wakes
  unfold Timed.earliest
  unfold reconnectDelay at *
  split
  · omega
  · split <;> omega

end Run

/-! ## Runs -/

/-- Nothing has happened yet. -/
def TimedInitial (t : Timed) : Prop := Initial t.world ∧ t.wakes ≤ t.now + reconnectDelay

theorem paced_reach {S : Nat} {guard : Timed → TimedAction → Prop} {t : Timed}
    (h : Reach (Timed.step S) guard TimedInitial t) : Paced S t := by
  refine h.invariant ?_ fun s a s' hi _ hstep => paced_step hstep hi
  rintro s ⟨⟨podServerFailMax, hworld⟩, hwakes⟩
  refine ⟨?_, hwakes⟩
  intro hconnect
  rw [hworld] at hconnect
  cases hconnect

/-- While the thread lives, its attempts to connect are counted off by the pause. -/
theorem attempts_le {S : Nat} {t t' : Timed} {as : List TimedAction} (hi : Paced S t)
    (hrun : exec (Timed.step S) (KeepsThread S) t as = some t') :
    t.earliest S + as.countP (TimedAction.attempts S) * reconnectDelay ≤ t'.earliest S :=
  exec_count_le (I := Paced S) (fun _ _ _ hi _ h => paced_step h hi)
    (fun _ _ _ hi hkeeps h => earliest_step h hkeeps hi) hi hrun

/-- However its claims, its creates and its polls turn out and whatever everybody else does,
    a thread that makes `n` attempts to connect takes `n - 1` pauses for them. -/
theorem attempts_spaced {S : Nat} {t t' : Timed} {as : List TimedAction}
    (h : Reach (Timed.step S) Always TimedInitial t)
    (hrun : exec (Timed.step S) (KeepsThread S) t as = some t') :
    as.countP (TimedAction.attempts S) * reconnectDelay ≤ t'.now - t.now + reconnectDelay := by
  have hi := paced_reach h
  have hi' : Paced S t' :=
    exec_invariant (fun _ _ _ hi _ hstep => paced_step hstep hi) hi hrun
  have hcount := attempts_le hi hrun
  have hfrom : t.now ≤ t.earliest S := t.now_le_earliest S
  have hto : t'.earliest S ≤ t'.now + reconnectDelay := hi'.earliest_le
  omega

/-- A pod under a limit of two failures is registered, and its thread is started. -/
def registeredAtOnce : List TimedAction :=
  [⟨10, .act (.serversCreateRegistryServer "janus-0")⟩,
    ⟨20, .act (.server 0 (.thread (.start true)))⟩]

/-- The first create fails at once, a second one after the pause. -/
def failsAfterPause : List TimedAction :=
  [⟨30, .act (.server 0 (.thread (.outer true)))⟩,
    ⟨40, .act (.server 0 (.thread (.create 0 true)))⟩,
    ⟨50, .act (.server 0 (.thread .inner))⟩,
    ⟨60, .act (.server 0 (.thread (.outer true)))⟩]

theorem attempts_spaced_afterPause :
    ∃ t t', exec (Timed.step 0) (KeepsThread 0) t
        (failsAfterPause ++ [⟨5000060, .act (.server 0 (.thread (.create 0 true)))⟩]) = some t' ∧
      2 * reconnectDelay ≤ t'.now - t.now + reconnectDelay := by
  have h0 : TimedInitial { world := { podServerFailMax := 2 } } := ⟨⟨2, rfl⟩, by decide⟩
  obtain ⟨t, ht, hp⟩ := Transition.reach_of_exec (Timed.step 0) Always h0 registeredAtOnce
    (fun t => (exec (Timed.step 0) (KeepsThread 0) t (failsAfterPause ++
      [⟨5000060, .act (.server 0 (.thread (.create 0 true)))⟩])).isSome)
    (by decide)
  obtain ⟨t', hrun⟩ := Option.isSome_iff_exists.mp hp
  have hspaced := attempts_spaced ht hrun
  have htwo : List.countP (TimedAction.attempts 0) (failsAfterPause ++
      [⟨5000060, .act (.server 0 (.thread (.create 0 true)))⟩]) = 2 := by decide
  rw [htwo] at hspaced
  exact ⟨t, t', hrun, hspaced⟩

/-- An attempt counts at most one failure. -/
theorem failures_le {S : Nat} {t t' : Timed} {as : List TimedAction}
    (hrun : exec (Timed.step S) (KeepsThread S) t as = some t') :
    (t'.world.servers S).connectFailures ≤
      (t.world.servers S).connectFailures + as.countP (TimedAction.attempts S) := by
  induction as generalizing t with
  | nil =>
      cases hrun
      exact Nat.le_refl _
  | cons a as ih =>
      obtain ⟨hkeeps, u, hu, hrun⟩ := exec_cons_eq_some.mp hrun
      have hfirst := failures_step hu hkeeps
      have hothers := ih hrun
      rw [List.countP_cons]
      omega

/-- A failed create ends the thread of a dynamic server without calls and without a
    session, whose count has reached the limit. -/
theorem createFailed_done {v : Server} {podServerFailMax : Nat}
    (h : (v.createFailed podServerFailMax).pc = .threadDone) :
    v.callsInProgress = 0 ∧ v.serverId = 0 ∧ podServerFailMax ≠ 0 ∧
      podServerFailMax ≤ v.connectFailures + 1 := by
  unfold Server.createFailed at h
  split at h
  · simp only at h
    split at h
    · next hevictable =>
        simp only [Server.serversDynamicEvictable, Bool.and_eq_true, beq_iff_eq,
          decide_eq_true_eq] at hevictable
        obtain ⟨⟨-, hcalls⟩, ⟨hmax, hreached⟩, hid⟩ := hevictable
        exact ⟨hcalls, hid, hmax, hreached⟩
    · cases h
  · cases h

end ModJanus.Servers
