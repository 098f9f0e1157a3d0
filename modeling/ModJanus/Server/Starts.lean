/-
  ModJanus.Server.Starts

  How many threads a server has.

  `SFLAG_ENABLED` says that a server has a thread, or that a call is about to make one,
  and `startServerThread` refuses when it is set, unless it is forced.  The forced starts
  of `mod_janus_load` and of `serversCreateRegistryServer` are of servers that nobody has
  started; the one of a refresh rests on a test of the flag outside `flag_mutex`.  As long
  as the flag is still clear when the refresh gets to its start, at most one call is
  engaged with a server that is found under its name (`Settled`), and at most one thread
  runs for any server (`Single`).
-/
import ModJanus.Server.Eviction

namespace ModJanus.Registry

open Transition (Reach Always)

/-! ## Who runs, and who starts or stops -/

/-- Thread `t` is one of the server, and has not returned. -/
def State.Running (s : State) (S t : Nat) : Prop :=
  ∃ thread ∈ s.threads[t]?, thread.server = S ∧ thread.pc ≠ .returned

/-- Caller `c` is about to create a thread of the server. -/
def State.Creating (s : State) (S c : Nat) : Prop :=
  ∃ x ∈ s.callers[c]?, x.pc = .creating S

/-- The server that a call is bound to start, or is stopping. -/
def CallerPc.engaged : CallerPc → Option Nat
  | .starting S .load | .starting S .registered | .creating S => some S
  | .terminating S | .joining S _ | .joined S | .clearing S => some S
  | _ => none

/-- Caller `c` is engaged with the server. -/
def State.Engaged (s : State) (S c : Nat) : Prop :=
  ∃ x ∈ s.callers[c]?, x.pc.engaged = some S

/-- What a call that is engaged with a server relies on. -/
def State.Fits (s : State) : CallerPc → Prop
  | .starting S _ | .creating S => (s.servers S).pThread = none
  | .terminating S => (s.servers S).terminating = true
  | .joining S t => (s.servers S).terminating = true ∧ (s.servers S).pThread = some t
  | .joined S => (s.servers S).terminating = true ∧ ∀ t, ¬ s.Running S t
  | .clearing S => (s.servers S).terminating = true ∧ (s.servers S).pThread = none
  | _ => True

/-- The server is in the hands of one call at most, and its flag and `pThread` tell of its
    thread. -/
structure Settled (s : State) (S : Nat) : Prop where
  alone : ∀ c c', s.Engaged S c → s.Engaged S c' → c = c'
  fits : ∀ x ∈ s.callers, x.pc.engaged = some S → (s.servers S).enabled = true ∧ s.Fits x.pc
  running : ∀ t, s.Running S t → (s.servers S).pThread = some t ∧ (s.servers S).enabled = true
  disabled : (s.servers S).enabled = false → (s.servers S).pThread = none

/-- No server has two threads, or one that runs and one that is about to. -/
structure Single (s : State) : Prop where
  threads : ∀ S t t', s.Running S t → s.Running S t' → t = t'
  creators : ∀ S c c', s.Creating S c → s.Creating S c' → c = c'
  apart : ∀ S t c, s.Running S t → ¬ s.Creating S c

/-- Nothing of the server runs or is about to. -/
def State.Vacant (s : State) (S : Nat) : Prop :=
  (∀ thread ∈ s.threads, thread.server = S → thread.pc = .returned) ∧
    ∀ x ∈ s.callers, x.pc ≠ .creating S

instance (s : State) (S : Nat) : Decidable (s.Vacant S) :=
  inferInstanceAs (Decidable ((∀ thread ∈ s.threads, thread.server = S → thread.pc = .returned) ∧
    ∀ x ∈ s.callers, x.pc ≠ .creating S))

/-- The server that a start is about to make a thread for, with who called it: the start
    is forced, or finds the server not enabled. -/
def State.starts (s : State) : Action → Option (Nat × StartCall)
  | .caller c .startTest =>
      match s.callers[c]? with
      | some x =>
          match x.pc with
          | .starting S call =>
              if call.force ∨ (s.servers S).enabled = false then some (S, call) else none
          | _ => none
      | none => none
  | _ => none

/-- A server that a refresh has found not enabled is so still when the refresh starts it,
    and a server that has been removed is started only when nothing of it runs. -/
def StartedOnce (s : State) (a : Action) : Prop :=
  ∀ start ∈ s.starts a, (start.2 = .restart → (s.servers start.1).enabled = false) ∧
    (s.Registered start.1 ∨ s.Vacant start.1)

instance (s : State) (a : Action) : Decidable (StartedOnce s a) :=
  inferInstanceAs (Decidable (∀ start ∈ s.starts a,
    (start.2 = .restart → (s.servers start.1).enabled = false) ∧
      (s.Registered start.1 ∨ s.Vacant start.1)))

/-! ## What a step can change -/

/-- The fields that the starts and stops of a server go by. -/
structure Server.Same (v v' : Server) : Prop where
  enabled : v'.enabled = v.enabled
  terminating : v'.terminating = v.terminating
  pThread : v'.pThread = v.pThread

theorem Server.Same.refl (v : Server) : v.Same v := ⟨rfl, rfl, rfl⟩

theorem same_update (s : State) (S : Nat) {v : Server} (h : (s.servers S).Same v) (T : Nat) :
    (s.servers T).Same (Function.update s.servers S v T) := by
  by_cases hT : T = S
  · subst hT
    rw [Function.update_self]
    exact h
  · rw [Function.update_of_ne hT]
    exact .refl _

/-- A step on another server. -/
theorem same_update_ne (s : State) (S : Nat) (v : Server) {T : Nat} (h : T ≠ S) :
    (s.servers T).Same (Function.update s.servers S v T) := by
  rw [Function.update_of_ne h]
  exact .refl _

theorem updated_same_flags (v : Server) (podIp url : String) :
    v.Same (v.serversUpdateRegistryServer podIp url) := by
  unfold Server.serversUpdateRegistryServer
  dsimp only
  split
  · split <;> exact ⟨rfl, rfl, rfl⟩
  · split <;> exact ⟨rfl, rfl, rfl⟩

/-- What is registered after a removal was registered before, and has not been touched. -/
theorem removed_registered {s : State} {S T : Nat}
    (h : (s.serversDynamicRemoveFromLookup S).Registered T) :
    s.Registered T ∧ (s.servers T).Same ((s.serversDynamicRemoveFromLookup S).servers T) := by
  have hkeeps := keeps_removed s S T
  rw [State.Registered, hkeeps.name] at h
  rcases s.serversDynamicRemoveFromLookup_cases S with heq | ⟨-, ids, -, heq⟩
  · rw [heq] at h ⊢
    exact ⟨h, .refl _⟩
  · rw [heq] at h ⊢
    refine ⟨lookup_of_erase h, same_update_ne s S _ ?_⟩
    -- the entry of the name of `S` is gone
    rintro rfl
    rw [AList.lookup_erase] at h
    cases h

/-- What a step of a thread leaves to a server that is found under its name. -/
theorem ThreadEffect.same {s s' : State} {t : Nat} {thread : Thread} {a : ThreadAction}
    (h : ThreadEffect s t thread a s') {S : Nat} (hS : s'.Registered S) :
    s.Registered S ∧ (s.servers S).Same (s'.servers S) := by
  have hframe := h.frame
  have hregistered : s.Registered S := by
    have hname := hframe.names _ _ hS
    rwa [(hframe.servers S).name] at hname
  refine ⟨hregistered, ?_⟩
  cases h with
  | removed hpc hmutex => exact (removed_registered (T := S) hS).2
  | createFailed | evicted | created | claimed | pollFailed =>
      refine same_update s thread.server ?_ S
      exact ⟨rfl, rfl, rfl⟩
  | _ => exact .refl _

theorem ThreadEffect.running {s s' : State} {t : Nat} {thread : Thread} {a : ThreadAction}
    (ht : s.threads[t]? = some thread) (h : ThreadEffect s t thread a s') {S t' : Nat}
    (hrunning : s'.Running S t') : s.Running S t' := by
  obtain ⟨thread', hthreads, hserver⟩ := h.frame.threads
  obtain ⟨other, hother, heq, hpc⟩ := hrunning
  rw [hthreads] at hother
  by_cases htt : t = t'
  · subst htt
    have hlt : t < s.threads.length := (List.getElem?_eq_some_iff.mp ht).1
    rw [List.getElem?_set_self hlt] at hother
    cases hother
    -- a thread that has returned takes no step
    refine ⟨thread, ht, hserver ▸ heq, ?_⟩
    cases h <;> simp_all
  · rw [List.getElem?_set_ne htt] at hother
    exact ⟨other, hother, heq, hpc⟩

/-! ## Settled servers -/

/-- What is found in a list after one of its places was set. -/
theorem getElem?_set_cases {α : Type} {l : List α} {i j : Nat} {a b : α}
    (h : (l.set i a)[j]? = some b) : j = i ∧ b = a ∨ j ≠ i ∧ l[j]? = some b := by
  by_cases hij : i = j
  · subst hij
    rw [List.getElem?_set_self'] at h
    obtain ⟨_, -, hb⟩ := Option.map_eq_some_iff.mp h
    exact .inl ⟨rfl, hb.symm⟩
  · rw [List.getElem?_set_ne hij] at h
    exact .inr ⟨Ne.symm hij, h⟩

theorem Fits.mono {s s' : State} {S : Nat} {pc : CallerPc} (h : s.Fits pc)
    (hpc : pc.engaged = some S) (hsame : (s.servers S).Same (s'.servers S))
    (hrunning : ∀ t, s'.Running S t → s.Running S t) : s'.Fits pc := by
  cases pc with
  | starting T call =>
      have hTS : T = S := by cases call <;> cases hpc <;> rfl
      rw [State.Fits, hTS, hsame.pThread, ← hTS]
      exact h
  | creating T =>
      cases hpc
      rw [State.Fits, hsame.pThread]
      exact h
  | terminating T =>
      cases hpc
      rw [State.Fits, hsame.terminating]
      exact h
  | joining T t =>
      cases hpc
      rw [State.Fits, hsame.terminating, hsame.pThread]
      exact h
  | joined T =>
      -- no thread comes to run in the step
      cases hpc
      rw [State.Fits, hsame.terminating]
      exact ⟨h.1, fun t ht => h.2 t (hrunning t ht)⟩
  | clearing T =>
      cases hpc
      rw [State.Fits, hsame.terminating, hsame.pThread]
      exact h
  | locked | evicting | stopping | notStopped | removing | done => trivial

/-- A step that no call engaged with the server takes. -/
theorem Settled.mono {s s' : State} {S : Nat} (h : Settled s S)
    (hsame : (s.servers S).Same (s'.servers S))
    (hcallers : ∀ (c : Nat) (x : Caller), s'.callers[c]? = some x → x.pc.engaged = some S →
      s.callers[c]? = some x)
    (hrunning : ∀ t, s'.Running S t → s.Running S t) : Settled s' S := by
  -- whoever is engaged with `S` after the step was so before, and has not moved
  have hengaged : ∀ c, s'.Engaged S c → s.Engaged S c := by
    rintro c ⟨x, hx, hpc⟩
    exact ⟨x, hcallers c x hx hpc, hpc⟩
  refine ⟨fun c c' hc hc' => ?_, fun x hx hpc => ?_, fun t ht => ?_, ?_⟩
  · exact h.alone c c' (hengaged c hc) (hengaged c' hc')
  · obtain ⟨c, hc⟩ := List.mem_iff_getElem?.mp hx
    obtain ⟨henabled, hfits⟩ := h.fits x (List.mem_of_getElem? (hcallers c x hc hpc)) hpc
    rw [hsame.enabled]
    exact ⟨henabled, Fits.mono hfits hpc hsame hrunning⟩
  · rw [hsame.pThread, hsame.enabled]
    exact h.running t (hrunning t ht)
  · rw [hsame.enabled, hsame.pThread]
    exact h.disabled

/-- A step of a caller that is not engaged with the server after it. -/
theorem Settled.other {s s' : State} {S c : Nat} {x' : Caller} (h : Settled s S)
    (hset : s'.callers = s.callers.set c x') (hx : x'.pc.engaged ≠ some S)
    (hsame : (s.servers S).Same (s'.servers S))
    (hrunning : ∀ t, s'.Running S t → s.Running S t) : Settled s' S := by
  refine h.mono hsame (fun c' y hy hpc => ?_) hrunning
  rw [hset] at hy
  rcases getElem?_set_cases hy with ⟨-, rfl⟩ | ⟨-, hold⟩
  · exact absurd hpc hx
  · exact hold

/-- A step of a caller that is engaged with no server after it. -/
theorem Settled.released {s s' : State} {S c : Nat} {x' : Caller} (h : Settled s S)
    (hset : s'.callers = s.callers.set c x') (hx : x'.pc.engaged = none)
    (hsame : (s.servers S).Same (s'.servers S))
    (hrunning : ∀ t, s'.Running S t → s.Running S t) : Settled s' S := by
  refine h.other hset ?_ hsame hrunning
  rw [hx]
  exact nofun

/-- A step of a caller that is engaged with another server after it. -/
theorem Settled.elsewhere {s s' : State} {S T c : Nat} {x' : Caller} (h : Settled s S)
    (hST : S ≠ T) (hset : s'.callers = s.callers.set c x') (hx : x'.pc.engaged = some T)
    (hsame : (s.servers S).Same (s'.servers S))
    (hrunning : ∀ t, s'.Running S t → s.Running S t) : Settled s' S := by
  refine h.other hset ?_ hsame hrunning
  rw [hx]
  exact fun heq => hST (Option.some.inj heq).symm

/-- A step of the only caller that is engaged with the server, before or after it. -/
theorem Settled.own {s s' : State} {S c : Nat} {x' : Caller}
    (hset : s'.callers = s.callers.set c x')
    (hothers : ∀ c', s.Engaged S c' → c' = c)
    (hx : x'.pc.engaged = some S → (s'.servers S).enabled = true ∧ s'.Fits x'.pc)
    (hrunning : ∀ t, s'.Running S t →
      (s'.servers S).pThread = some t ∧ (s'.servers S).enabled = true)
    (hdisabled : (s'.servers S).enabled = false → (s'.servers S).pThread = none) :
    Settled s' S := by
  have honly : ∀ c' y, s'.callers[c']? = some y → y.pc.engaged = some S → c' = c ∧ y = x' := by
    intro c' y hy hpc
    rw [hset] at hy
    rcases getElem?_set_cases hy with hnew | ⟨hne, hold⟩
    · exact hnew
    · exact absurd (hothers c' ⟨y, hold, hpc⟩) hne
  refine ⟨?_, fun y hy hpc => ?_, hrunning, hdisabled⟩
  · rintro c₁ c₂ ⟨y₁, hy₁, hpc₁⟩ ⟨y₂, hy₂, hpc₂⟩
    rw [(honly c₁ y₁ hy₁ hpc₁).1, (honly c₂ y₂ hy₂ hpc₂).1]
  · obtain ⟨c', hc'⟩ := List.mem_iff_getElem?.mp hy
    have heq := (honly c' y hc' hpc).2
    rw [heq] at hpc ⊢
    exact hx hpc

theorem State.Running.of_threads {s s' : State} (h : s'.threads = s.threads) {S t : Nat}
    (hrunning : s'.Running S t) : s.Running S t := by
  rw [State.Running, h] at hrunning
  exact hrunning

/-- What is found in a list after one element was added at its end. -/
theorem getElem?_concat_cases {α : Type} {l : List α} {i : Nat} {a b : α}
    (h : (l ++ [a])[i]? = some b) : l[i]? = some b ∨ i = l.length ∧ b = a := by
  by_cases hi : i < l.length
  · rw [List.getElem?_append_left hi] at h
    exact .inl h
  · rw [List.getElem?_append_right (Nat.le_of_not_lt hi), List.getElem?_singleton] at h
    split at h <;> cases h
    next hzero => exact .inr ⟨by omega, rfl⟩

/-- The thread that has been created, or one that ran before. -/
theorem running_concat {s s' : State} {S T t : Nat} (hrunning : s'.Running T t)
    (h : s'.threads = s.threads ++ [{ server := S }]) :
    s.Running T t ∨ t = s.threads.length ∧ T = S := by
  obtain ⟨thread, hthread, hserver, hpc⟩ := hrunning
  rw [h] at hthread
  rcases getElem?_concat_cases hthread with hold | ⟨ht, rfl⟩
  · exact .inl ⟨thread, hold, hserver, hpc⟩
  · exact .inr ⟨ht, hserver.symm⟩

section Steps

variable {s : State} {c S : Nat} {x : Caller}

/-- The caller itself is the one that is engaged. -/
theorem Settled.others (h : Settled s S) (hc : s.callers[c]? = some x)
    (hpc : x.pc.engaged = some S) : ∀ c', s.Engaged S c' → c' = c :=
  fun c' hc' => h.alone c' c hc' ⟨x, hc, hpc⟩

/-- Nobody is engaged with a server that is not enabled. -/
theorem Settled.not_engaged (h : Settled s S) (hdisabled : (s.servers S).enabled = false)
    (c' : Nat) : ¬ s.Engaged S c' := by
  rintro ⟨y, hy, hpc⟩
  have henabled := (h.fits y (List.mem_of_getElem? hy) hpc).1
  rw [hdisabled] at henabled
  cases henabled

/-- No thread of the server runs when `pThread` is clear. -/
theorem Settled.not_running (h : Settled s S) (hthread : (s.servers S).pThread = none) (t : Nat) :
    ¬ s.Running S t := by
  intro hrunning
  have hsome := (h.running t hrunning).1
  rw [hthread] at hsome
  cases hsome

/-- A start that passes its test finds nobody else engaged, and no thread. -/
theorem Settled.startable (h : Settled s S) {call : StartCall} (hc : s.callers[c]? = some x)
    (hpc : x.pc = .starting S call) (htest : call.force = true ∨ (s.servers S).enabled = false)
    (hrestart : call = .restart → (s.servers S).enabled = false) :
    (∀ c', s.Engaged S c' → c' = c) ∧ (s.servers S).pThread = none := by
  have hdisabled : (s.servers S).enabled = false →
      (∀ c', s.Engaged S c' → c' = c) ∧ (s.servers S).pThread = none := by
    intro hoff
    exact ⟨fun c' hc' => absurd hc' (h.not_engaged hoff c'), h.disabled hoff⟩
  have hbound : x.pc.engaged = some S →
      (∀ c', s.Engaged S c' → c' = c) ∧ (s.servers S).pThread = none := by
    intro hengaged
    have hfits := (h.fits x (List.mem_of_getElem? hc) hengaged).2
    rw [hpc] at hfits
    exact ⟨h.others hc hengaged, hfits⟩
  -- a start that is not bound to its server goes by the flag
  cases call with
  | load | registered => exact hbound (by rw [hpc]; rfl)
  | console => exact hdisabled (htest.resolve_left nofun)
  | restart => exact hdisabled (hrestart rfl)

theorem Settled.startPassed (h : Settled s S) {call : StartCall} (hc : s.callers[c]? = some x)
    (hpc : x.pc = .starting S call) (htest : call.force = true ∨ (s.servers S).enabled = false)
    (hrestart : call = .restart → (s.servers S).enabled = false) :
    Settled ((s.setServer S { s.servers S with enabled := true }).setCaller c
      { x with pc := .creating S }) S := by
  obtain ⟨hothers, hthread⟩ := h.startable hc hpc htest hrestart
  have hself : ((s.setServer S { s.servers S with enabled := true }).setCaller c
      { x with pc := .creating S }).servers S = { s.servers S with enabled := true } :=
    s.setServer_self S _
  refine Settled.own rfl hothers (fun _ => ?_) (fun t ht => ?_) fun hoff => ?_
  · rw [State.Fits, hself]
    exact ⟨rfl, hthread⟩
  · exact absurd (ht.of_threads rfl) (h.not_running hthread t)
  · rw [hself] at hoff
    cases hoff

theorem Caller.started_engaged (x : Caller) : x.started.pc.engaged = none := by
  unfold Caller.started
  split <;> rfl

theorem Caller.stopped_engaged (x : Caller) : x.stopped.pc.engaged = none := by
  unfold Caller.stopped
  split <;> rfl

theorem Settled.created {s' : State} (h : Settled s S) (hc : s.callers[c]? = some x)
    (hpc : x.pc = .creating S) (hset : s'.callers = s.callers.set c x.started)
    (hthreads : s'.threads = s.threads ++ [{ server := S }])
    (hself : s'.servers S = { s.servers S with pThread := some s.threads.length }) :
    Settled s' S := by
  have hengaged : x.pc.engaged = some S := by
    rw [hpc]
    rfl
  obtain ⟨henabled, hfits⟩ := h.fits x (List.mem_of_getElem? hc) hengaged
  rw [hpc] at hfits
  refine Settled.own hset (h.others hc hengaged) (fun hpc' => ?_) (fun t ht => ?_) fun hoff => ?_
  · rw [x.started_engaged] at hpc'
    cases hpc'
  · rw [hself]
    rcases running_concat ht hthreads with hold | ⟨rfl, -⟩
    · exact absurd hold (h.not_running hfits t)
    · exact ⟨rfl, henabled⟩
  · rw [hself] at hoff
    rw [henabled] at hoff
    cases hoff

/-- A stop that passes its test is the only call that is engaged. -/
theorem Settled.stoppable (h : Settled s S) (hstop : (s.servers S).stoppable = true) (c' : Nat) :
    ¬ s.Engaged S c' := by
  simp only [Server.stoppable, Bool.and_eq_true, Bool.not_eq_true'] at hstop
  obtain ⟨⟨-, hterminating⟩, hthread⟩ := hstop
  rintro ⟨y, hy, hpc⟩
  have hfits := (h.fits y (List.mem_of_getElem? hy) hpc).2
  -- every call that is engaged relies on a clear `pThread` or on `SFLAG_TERMINATING`
  have hsome : (s.servers S).pThread ≠ none := by
    rw [← Option.isSome_iff_ne_none]
    exact hthread
  cases hy' : y.pc with
  | starting T call =>
      rw [hy'] at hpc hfits
      have hTS : T = S := by cases call <;> cases hpc <;> rfl
      rw [State.Fits, hTS] at hfits
      exact hsome hfits
  | creating T =>
      rw [hy'] at hpc hfits
      cases hpc
      exact hsome hfits
  | terminating T =>
      rw [hy'] at hpc hfits
      cases hpc
      rw [State.Fits, hterminating] at hfits
      cases hfits
  | joining T t | joined T | clearing T =>
      rw [hy'] at hpc hfits
      cases hpc
      rw [State.Fits, hterminating] at hfits
      cases hfits.1
  | locked | evicting | stopping | notStopped | removing | done =>
      rw [hy'] at hpc
      cases hpc

theorem Settled.terminated (h : Settled s S) (hstop : (s.servers S).stoppable = true) :
    Settled ((s.setServer S { s.servers S with terminating := true }).setCaller c
      { x with pc := .terminating S }) S := by
  have hself : ((s.setServer S { s.servers S with terminating := true }).setCaller c
      { x with pc := .terminating S }).servers S = { s.servers S with terminating := true } :=
    s.setServer_self S _
  have henabled : (s.servers S).enabled = true := by
    simp only [Server.stoppable, Bool.and_eq_true] at hstop
    exact hstop.1.1
  refine Settled.own rfl (fun c' hc' => absurd hc' (h.stoppable hstop c')) (fun _ => ?_)
    (fun t ht => ?_) fun hoff => ?_
  · rw [State.Fits, hself]
    exact ⟨henabled, rfl⟩
  · rw [hself]
    exact h.running t (ht.of_threads rfl)
  · rw [hself] at hoff ⊢
    exact h.disabled hoff

/-- The stop goes on, and leaves the server as it is. -/
theorem Settled.stops {pc : CallerPc} (h : Settled s S) (hc : s.callers[c]? = some x)
    (hpc : x.pc.engaged = some S)
    (hfits : s.Fits x.pc → s.Fits pc) : Settled (s.setCaller c { x with pc := pc }) S := by
  have hx := h.fits x (List.mem_of_getElem? hc) hpc
  refine Settled.own rfl (h.others hc hpc) (fun _ => ⟨hx.1, ?_⟩) (fun t ht => ?_) h.disabled
  · have hpc' := hfits hx.2
    cases pc <;> exact hpc'
  · exact h.running t (ht.of_threads rfl)

/-- The thread that was joined is the one that would run. -/
theorem Settled.joined {t : Nat} {thread : Thread} (h : Settled s S) (hc : s.callers[c]? = some x)
    (hpc : x.pc = .joining S t) (hthread : s.threads[t]? = some thread)
    (hreturned : thread.pc = .returned) : Settled (s.setCaller c { x with pc := .joined S }) S := by
  refine h.stops hc (by rw [hpc]; rfl) ?_
  rw [hpc]
  rintro ⟨hterminating, hpThread⟩
  refine ⟨hterminating, fun t' ht' => ?_⟩
  have heq := (h.running t' ht').1
  rw [hpThread] at heq
  cases heq
  obtain ⟨other, hother, -, hrun⟩ := ht'
  rw [hthread] at hother
  cases hother
  exact hrun hreturned

theorem Settled.threadCleared (h : Settled s S) (hc : s.callers[c]? = some x)
    (hpc : x.pc = .joined S) :
    Settled ((s.setServer S { s.servers S with pThread := none }).setCaller c
      { x with pc := .clearing S }) S := by
  have hengaged : x.pc.engaged = some S := by
    rw [hpc]
    rfl
  obtain ⟨henabled, hfits⟩ := h.fits x (List.mem_of_getElem? hc) hengaged
  rw [hpc] at hfits
  have hself : ((s.setServer S { s.servers S with pThread := none }).setCaller c
      { x with pc := .clearing S }).servers S = { s.servers S with pThread := none } :=
    s.setServer_self S _
  refine Settled.own rfl (h.others hc hengaged) (fun _ => ?_) (fun t ht => ?_) fun _ => ?_
  · rw [State.Fits, hself]
    exact ⟨henabled, hfits.1, rfl⟩
  · exact absurd (ht.of_threads rfl) (hfits.2 t)
  · rw [hself]

theorem Settled.flagsCleared (h : Settled s S) (hc : s.callers[c]? = some x)
    (hpc : x.pc = .clearing S) :
    Settled ((s.setServer S { s.servers S with terminating := false, enabled := false }).setCaller c
      x.stopped) S := by
  have hengaged : x.pc.engaged = some S := by
    rw [hpc]
    rfl
  obtain ⟨-, hfits⟩ := h.fits x (List.mem_of_getElem? hc) hengaged
  rw [hpc] at hfits
  have hself : ((s.setServer S { s.servers S with
        terminating := false, enabled := false }).setCaller c x.stopped).servers S =
      { s.servers S with terminating := false, enabled := false } :=
    s.setServer_self S _
  refine Settled.own rfl (h.others hc hengaged) (fun hpc' => ?_) (fun t ht => ?_) fun _ => ?_
  · rw [x.stopped_engaged] at hpc'
    cases hpc'
  · exact absurd (ht.of_threads rfl) (h.not_running hfits.2 t)
  · rw [hself]
    exact hfits.2

end Steps

/-- A server that nobody refers to yet, but the call that is bound to start it. -/
theorem Settled.fresh {s : State} {S c : Nat} (hthread : (s.servers S).pThread = none)
    (hrunning : ∀ t, ¬ s.Running S t) (hengaged : ∀ c', s.Engaged S c' → c' = c)
    (hstarting : ∀ x ∈ s.callers, x.pc.engaged = some S →
      (s.servers S).enabled = true ∧ ∃ call, x.pc = .starting S call) : Settled s S := by
  refine ⟨fun c₁ c₂ h₁ h₂ => ?_, fun x hx hpc => ?_, fun t ht => absurd ht (hrunning t), ?_⟩
  · rw [hengaged c₁ h₁, hengaged c₂ h₂]
  · obtain ⟨henabled, call, hcall⟩ := hstarting x hx hpc
    rw [hcall]
    exact ⟨henabled, hthread⟩
  · exact fun _ => hthread

/-- A server that is found under its name after the step was so before, unless it is new. -/
theorem CallerEffect.registered_before {s s' : State} {c : Nat} {x : Caller} {a : CallerAction}
    (hb : Bounded s) (h : CallerEffect s c x a s') {S : Nat} (hS : s'.Registered S) :
    s.Registered S ∨ S = s.serverCount ∧ s'.serverCount = s.serverCount + 1 := by
  have hframe := h.frame
  rcases hframe.names _ _ hS with hold | ⟨heq, hcount, -⟩
  · have hname := (hframe.servers S (hb.names _ S hold).1).name
    rw [hname] at hold
    exact .inl hold
  · exact .inr ⟨heq, hcount⟩

/-- Nobody refers to a server that is yet to be registered. -/
theorem Bounded.unused {s : State} (hb : Bounded s) :
    (∀ t, ¬ s.Running s.serverCount t) ∧ ∀ x ∈ s.callers, x.pc.engaged ≠ some s.serverCount := by
  refine ⟨?_, fun x hx hpc => ?_⟩
  · rintro t ⟨thread, hthread, hserver, -⟩
    have hlt := hb.threads thread (List.mem_of_getElem? hthread)
    omega
  · -- a caller that is engaged with it would hold it
    have hholds : x.holds s.serverCount = true := by
      cases hx' : x.pc with
      | starting T call =>
          apply Caller.holds_of_start
          rw [hx'] at hpc ⊢
          cases call <;> cases hpc <;> rfl
      | creating T =>
          apply Caller.holds_of_start
          rw [hx'] at hpc ⊢
          cases hpc
          rfl
      | terminating T | joining T t | joined T | clearing T =>
          apply Caller.holds_of_stop
          rw [hx'] at hpc ⊢
          cases hpc
          rfl
      | locked | evicting | stopping | notStopped | removing | done =>
          rw [hx'] at hpc
          cases hpc
    have hlt := hb.callers x hx s.serverCount hholds
    omega

theorem registered_settled {s : State} {c : Nat} {x : Caller} (hb : Bounded s)
    (podName podIp url : String) : Settled
      ((s.addServer (.registered podName podIp url)).setCaller c { x with
        pc := .starting s.serverCount .registered
        seenPods := podName :: x.seenPods }) s.serverCount := by
  have hself := addServer_self s (.registered podName podIp url)
  obtain ⟨hrunning, hunused⟩ := hb.unused
  refine Settled.fresh (c := c) ?_ (fun t ht => hrunning t (ht.of_threads rfl)) ?_ ?_
  · exact congrArg Server.pThread hself
  · rintro c' ⟨y, hy, hpc⟩
    rcases getElem?_set_cases hy with ⟨heq, -⟩ | ⟨-, hold⟩
    · exact heq
    · exact absurd hpc (hunused y (List.mem_of_getElem? hold))
  · intro y hy hpc
    rcases List.mem_or_eq_of_mem_set hy with hold | rfl
    · exact absurd hpc (hunused y hold)
    · exact ⟨congrArg Server.enabled hself, .registered, rfl⟩

/-- A step of a caller keeps every server settled that is found under its name. -/
theorem caller_settled {s s' : State} {c : Nat} {x : Caller} {a : CallerAction} (hb : Bounded s)
    (hi : ∀ S, s.Registered S → Settled s S) (hg : StartedOnce s (.caller c a))
    (hc : s.callers[c]? = some x) (h : CallerEffect s c x a s') {S : Nat}
    (hS : s'.Registered S) : Settled s' S := by
  have hbefore := h.registered_before hb hS
  have hold : s'.serverCount = s.serverCount → s.Registered S := by
    intro hcount
    exact hbefore.resolve_right fun hnew => by omega
  have hsame := fun {v v' : State} (heq : v'.threads = v.threads) (t : Nat) =>
    State.Running.of_threads (S := S) (t := t) heq
  cases h with
  | registered podName podIp url hpc hnew =>
      rcases hbefore with hreg | ⟨rfl, -⟩
      · have hlt := (hb.names _ S hreg).1
        refine (hi S hreg).elsewhere (by omega) rfl rfl ?_ (hsame rfl)
        show (s.servers S).Same ((s.addServer (.registered podName podIp url)).servers S)
        rw [addServer_old s _ hlt]
        exact .refl _
      · exact registered_settled hb podName podIp url
  -- the first phase of a refresh: its caller is engaged with no server
  | updated T podName podIp url hpc hfind hdynamic =>
      refine (hi S (hold rfl)).released rfl (by rw [show _ = x.pc from rfl, hpc]; rfl) ?_
        (hsame rfl)
      exact same_update s T (updated_same_flags _ podIp url) S
  | restarting T podName podIp url hpc hfind hdynamic =>
      refine (hi S (hold rfl)).released rfl rfl ?_ (hsame rfl)
      exact same_update s T (updated_same_flags _ podIp url) S
  | seen podName podIp url hpc | collected T name hpc hfind hdynamic hcalls =>
      refine (hi S (hold rfl)).released rfl ?_ (.refl _) (hsame rfl)
      rw [show _ = x.pc from rfl, hpc]
      rfl
  | unlocked | refreshed | notStoppable | toRemove =>
      exact (hi S (hold rfl)).released rfl rfl (.refl _) (hsame rfl)
  | evicting T evictList hpc hlist =>
      refine (hi S (hold rfl)).released rfl rfl ?_ (hsame rfl)
      refine same_update s T ?_ S
      exact ⟨rfl, rfl, rfl⟩
  -- `startServerThread`
  | startPassed T call hpc htest =>
      by_cases hST : S = T
      · subst hST
        refine (hi S (hold rfl)).startPassed hc hpc htest fun hcall => ?_
        refine (hg (S, call) ?_).1 hcall
        simp [State.starts, hc, hpc, htest]
      · exact (hi S (hold rfl)).elsewhere hST rfl rfl (same_update_ne s T _ hST) (hsame rfl)
  | startRefused T call hpc =>
      exact (hi S (hold rfl)).released rfl x.started_engaged (.refl _) (hsame rfl)
  | created T hpc =>
      by_cases hST : S = T
      · subst hST
        exact (hi S (hold rfl)).created hc hpc rfl rfl (s.setServer_self S _)
      · refine (hi S (hold rfl)).released rfl x.started_engaged (same_update_ne s T _ hST)
          fun t ht => ?_
        exact (running_concat ht rfl).resolve_right fun hnew => hST hnew.2
  -- `stopServerThread`
  | terminated T hpc hstop =>
      by_cases hST : S = T
      · subst hST
        exact (hi S (hold rfl)).terminated hstop
      · exact (hi S (hold rfl)).elsewhere hST rfl rfl (same_update_ne s T _ hST) (hsame rfl)
  | threadRead T t hpc hthread =>
      by_cases hST : S = T
      · subst hST
        refine (hi S (hold rfl)).stops hc (by rw [hpc]; rfl) ?_
        rw [hpc]
        exact fun hterminating => ⟨hterminating, hthread⟩
      · exact (hi S (hold rfl)).elsewhere hST rfl rfl (.refl _) (hsame rfl)
  | joined T t thread hpc hthread hreturned =>
      by_cases hST : S = T
      · subst hST
        exact (hi S (hold rfl)).joined hc hpc hthread hreturned
      · exact (hi S (hold rfl)).elsewhere hST rfl rfl (.refl _) (hsame rfl)
  | threadCleared T hpc =>
      by_cases hST : S = T
      · subst hST
        exact (hi S (hold rfl)).threadCleared hc hpc
      · exact (hi S (hold rfl)).elsewhere hST rfl rfl (same_update_ne s T _ hST) (hsame rfl)
  | flagsCleared T hpc =>
      by_cases hST : S = T
      · subst hST
        exact (hi S (hold rfl)).flagsCleared hc hpc
      · exact (hi S (hold rfl)).released rfl x.stopped_engaged (same_update_ne s T _ hST)
          (hsame rfl)
  | notEvicted T hpc =>
      exact (hi S (hold rfl)).released rfl x.stopped_engaged (.refl _) (hsame rfl)
  | removed T hpc hmutex =>
      -- a server that is found after the removal is another one
      obtain ⟨hreg, hkept⟩ := removed_registered (T := S) hS
      obtain ⟨hset, hthreads⟩ := removed_lists s T
      exact (hi S hreg).released (congrArg (List.set · c x.stopped) hset) x.stopped_engaged hkept
        (hsame hthreads)

/-! ## One thread -/

theorem Single.mono {s s' : State} (h : Single s)
    (hrunning : ∀ S t, s'.Running S t → s.Running S t)
    (hcreating : ∀ S c, s'.Creating S c → s.Creating S c) : Single s' := by
  refine ⟨fun S t t' ht ht' => ?_, fun S c c' hc hc' => ?_, fun S t c ht hc => ?_⟩
  · exact h.threads S t t' (hrunning S t ht) (hrunning S t' ht')
  · exact h.creators S c c' (hcreating S c hc) (hcreating S c' hc')
  · exact h.apart S t c (hrunning S t ht) (hcreating S c hc)

/-- What a start that passes its test meets: no thread of the server, and nobody who is
    about to create one. -/
theorem startPassed_vacant {s : State} {c S : Nat} {x : Caller} {call : StartCall}
    (hi : ∀ S, s.Registered S → Settled s S) (hg : StartedOnce s (.caller c .startTest))
    (hc : s.callers[c]? = some x) (hpc : x.pc = .starting S call)
    (htest : call.force = true ∨ (s.servers S).enabled = false) :
    (∀ t, ¬ s.Running S t) ∧ ∀ c', ¬ s.Creating S c' := by
  obtain ⟨hrestart, hreg | ⟨hthreads, hcallers⟩⟩ := hg (S, call) (by
    simp [State.starts, hc, hpc, htest])
  · -- a registered server is settled: the caller itself would be the creator
    obtain ⟨hothers, hthread⟩ := (hi S hreg).startable hc hpc htest hrestart
    refine ⟨(hi S hreg).not_running hthread, ?_⟩
    rintro c' ⟨y, hy, hcreating⟩
    have heq := hothers c' ⟨y, hy, by rw [hcreating]; rfl⟩
    rw [heq, hc] at hy
    cases hy
    rw [hpc] at hcreating
    cases hcreating
  · refine ⟨?_, ?_⟩
    · rintro t ⟨thread, hthread, hserver, hrun⟩
      exact hrun (hthreads thread (List.mem_of_getElem? hthread) hserver)
    · rintro c' ⟨y, hy, hcreating⟩
      exact hcallers y (List.mem_of_getElem? hy) hcreating

theorem Single.startPassed {s : State} {c S : Nat} {x : Caller} (h : Single s)
    (hrunning : ∀ t, ¬ s.Running S t) (hcreating : ∀ c', ¬ s.Creating S c') :
    Single ((s.setServer S { s.servers S with enabled := true }).setCaller c
      { x with pc := .creating S }) := by
  have hcreators : ∀ T c', ((s.setServer S { s.servers S with enabled := true }).setCaller c
      { x with pc := .creating S }).Creating T c' → s.Creating T c' ∨ T = S ∧ c' = c := by
    rintro T c' ⟨y, hy, hpc⟩
    rcases getElem?_set_cases hy with ⟨heq, rfl⟩ | ⟨-, hold⟩
    · cases hpc
      exact .inr ⟨rfl, heq⟩
    · exact .inl ⟨y, hold, hpc⟩
  refine ⟨fun T t t' ht ht' => ?_, fun T c₁ c₂ h₁ h₂ => ?_, fun T t c' ht hc' => ?_⟩
  · exact h.threads T t t' (ht.of_threads rfl) (ht'.of_threads rfl)
  · rcases hcreators T c₁ h₁ with hold₁ | ⟨rfl, rfl⟩
    · rcases hcreators T c₂ h₂ with hold₂ | ⟨rfl, -⟩
      · exact h.creators T c₁ c₂ hold₁ hold₂
      · exact absurd hold₁ (hcreating c₁)
    · rcases hcreators T c₂ h₂ with hold₂ | ⟨-, rfl⟩
      · exact absurd hold₂ (hcreating c₂)
      · rfl
  · rcases hcreators T c' hc' with hold | ⟨rfl, -⟩
    · exact h.apart T t c' (ht.of_threads rfl) hold
    · exact hrunning t (ht.of_threads rfl)

theorem Single.created {s s' : State} {c S : Nat} {x : Caller} (h : Single s)
    (hc : s.callers[c]? = some x) (hpc : x.pc = .creating S)
    (hset : s'.callers = s.callers.set c x.started)
    (hthreads : s'.threads = s.threads ++ [{ server := S }]) : Single s' := by
  -- the creator was alone, and is through now
  have hcreator : s.Creating S c := ⟨x, hc, hpc⟩
  have hcreators : ∀ T c', s'.Creating T c' → c' ≠ c ∧ s.Creating T c' := by
    rintro T c' ⟨y, hy, hpc'⟩
    rw [hset] at hy
    rcases getElem?_set_cases hy with ⟨-, rfl⟩ | ⟨hne, hold⟩
    · have hnone := x.started_engaged
      rw [hpc'] at hnone
      cases hnone
    · exact ⟨hne, y, hold, hpc'⟩
  refine ⟨fun T t t' ht ht' => ?_, fun T c₁ c₂ h₁ h₂ => ?_, fun T t c' ht hc' => ?_⟩
  · rcases running_concat ht hthreads with hold | ⟨rfl, rfl⟩
    · rcases running_concat ht' hthreads with hold' | ⟨rfl, rfl⟩
      · exact h.threads T t t' hold hold'
      · exact absurd hcreator (h.apart T t c hold)
    · rcases running_concat ht' hthreads with hold' | ⟨rfl, -⟩
      · exact absurd hcreator (h.apart T t' c hold')
      · rfl
  · exact h.creators T c₁ c₂ (hcreators T c₁ h₁).2 (hcreators T c₂ h₂).2
  · obtain ⟨hne, hold⟩ := hcreators T c' hc'
    rcases running_concat ht hthreads with hold' | ⟨-, rfl⟩
    · exact h.apart T t c' hold' hold
    · exact hne (h.creators T c' c hold hcreator)

/-- A call comes to create a thread only by passing the test of `startServerThread`. -/
theorem CallerEffect.creating {s s' : State} {c : Nat} {x : Caller} {a : CallerAction}
    (h : CallerEffect s c x a s') (ha : a ≠ .startTest) : ∃ x', s'.callers = s.callers.set c x' ∧
      ∀ S, x'.pc ≠ .creating S := by
  -- where a start and a stop return to, no thread is created
  have hstarted : ∀ S, x.started.pc ≠ .creating S := by
    intro S heq
    have hnone := x.started_engaged
    rw [heq] at hnone
    cases hnone
  have hstopped : ∀ S, x.stopped.pc ≠ .creating S := by
    intro S heq
    have hnone := x.stopped_engaged
    rw [heq] at hnone
    cases hnone
  cases h with
  | startPassed | startRefused => exact absurd rfl ha
  | created => exact ⟨_, rfl, hstarted⟩
  | flagsCleared | notEvicted => exact ⟨_, rfl, hstopped⟩
  | removed S hpc hmutex =>
      refine ⟨x.stopped, ?_, hstopped⟩
      exact congrArg (List.set · c x.stopped) (removed_lists s S).1
  | updated S podName podIp url hpc | seen podName podIp url hpc | collected S name hpc =>
      refine ⟨_, rfl, fun T => ?_⟩
      rw [show _ = x.pc from rfl, hpc]
      exact nofun
  | _ => exact ⟨_, rfl, nofun⟩

theorem caller_single {s s' : State} {c : Nat} {x : Caller} {a : CallerAction}
    (hi : ∀ S, s.Registered S → Settled s S) (hsingle : Single s)
    (hg : StartedOnce s (.caller c a)) (hc : s.callers[c]? = some x)
    (h : CallerEffect s c x a s') : Single s' := by
  have hcreating : ∀ x', (∀ S, x'.pc ≠ .creating S) → s'.callers = s.callers.set c x' →
      ∀ S c', s'.Creating S c' → s.Creating S c' := by
    rintro x' hx' hset S c' ⟨y, hy, hpc⟩
    rw [hset] at hy
    rcases getElem?_set_cases hy with ⟨-, rfl⟩ | ⟨-, hold⟩
    · exact absurd hpc (hx' S)
    · exact ⟨y, hold, hpc⟩
  have hframe := h.frame
  by_cases ha : a = .startTest
  · subst ha
    cases h with
    | startPassed S call hpc htest =>
        obtain ⟨hrunning, hvacant⟩ := startPassed_vacant hi hg hc hpc htest
        exact hsingle.startPassed hrunning hvacant
    | startRefused S call hpc =>
        refine hsingle.mono (fun _ _ ht => ht.of_threads rfl) (hcreating x.started ?_ rfl)
        intro T heq
        have hnone := x.started_engaged
        rw [heq] at hnone
        cases hnone
  · obtain ⟨x', hset, hx'⟩ := h.creating ha
    rcases hframe.threads with hthreads | ⟨S, hpc, hthreads⟩
    · exact hsingle.mono (fun _ _ ht => ht.of_threads hthreads) (hcreating x' hx' hset)
    · -- only a creator adds a thread
      cases h with
      | created T hpc' =>
          exact hsingle.created hc hpc' rfl rfl
      | _ => simp_all

/-! ## Loading -/

/-- While the module is being loaded, the servers that have yet to be started are enabled
    and without a thread, and every call is a start. -/
structure Loading (s : State) (rest : List String) : Prop where
  nodup : rest.Nodup
  pending : ∀ name ∈ rest, ∀ S, s.pServerNameLookup.lookup name = some S →
    (s.servers S).enabled = true ∧ (s.servers S).pThread = none ∧
      ∀ x ∈ s.callers, x.pc.start ≠ some S
  callers : ∀ x ∈ s.callers, x.inRefresh = false ∧ (x.pc = .done ∨ x.pc.start.isSome = true)
  known : s.callers = [] → s.threads = [] →
    ∀ name ∈ rest, (s.pServerNameLookup.lookup name).isSome = true

/-- Nothing that the loading goes by is changed. -/
theorem Loading.mono {s s' : State} {rest : List String} (h : Loading s rest)
    (hnames : ∀ name ∈ rest, ∀ S, s'.pServerNameLookup.lookup name = some S →
      s.pServerNameLookup.lookup name = some S ∧ (s.servers S).Same (s'.servers S))
    (hcallers : s'.callers = s.callers)
    (hknown : s'.callers = [] → s'.threads = [] →
      ∀ name ∈ rest, (s'.pServerNameLookup.lookup name).isSome = true) : Loading s' rest := by
  refine ⟨h.nodup, fun name hname S hS => ?_, ?_, hknown⟩
  · obtain ⟨hfind, hsame⟩ := hnames name hname S hS
    rw [hsame.enabled, hsame.pThread, hcallers]
    exact h.pending name hname S hfind
  · rw [hcallers]
    exact h.callers

/-- One more server to start. -/
theorem Loading.append {s : State} {rest : List String} (h : Loading s rest) {name : String}
    (hfresh : name ∉ rest) {S : Nat} (hfind : s.pServerNameLookup.lookup name = some S)
    (henabled : (s.servers S).enabled = true) (hthread : (s.servers S).pThread = none)
    (hcallers : s.callers = []) : Loading s (rest ++ [name]) := by
  refine ⟨?_, fun other hother T hT => ?_, h.callers, fun _ hthreads other hother => ?_⟩
  · rw [List.nodup_append]
    refine ⟨h.nodup, List.nodup_singleton name, ?_⟩
    rintro other hother last hlast rfl
    exact hfresh (List.mem_singleton.mp hlast ▸ hother)
  · rcases List.mem_append.mp hother with hold | hlast
    · exact h.pending other hold T hT
    · rw [List.mem_singleton.mp hlast, hfind] at hT
      cases hT
      refine ⟨henabled, hthread, ?_⟩
      rw [hcallers]
      exact nofun
  · rcases List.mem_append.mp hother with hold | hlast
    · exact h.known hcallers hthreads other hold
    · rw [List.mem_singleton.mp hlast, hfind]
      rfl

theorem added_loading {s : State} {rest : List String} (hb : Bounded s) (h : Loading s rest)
    {pName : String} (pUrl : String) (enabled : Bool)
    (hnew : s.pServerNameLookup.lookup pName = none) (hcallers : s.callers = [])
    (hthreads : s.threads = []) :
    Loading (s.addServer (.configured pName pUrl enabled))
      (if enabled then rest ++ [pName] else rest) := by
  -- a name that waits for its start is known already
  have hfresh : pName ∉ rest := by
    intro hmem
    have hsome := h.known hcallers hthreads pName hmem
    rw [hnew] at hsome
    cases hsome
  have hold : Loading (s.addServer (.configured pName pUrl enabled)) rest := by
    refine h.mono (fun name hname S hS => ?_) rfl fun _ _ name hname => ?_
    · rcases addServer_names hS with hfind | ⟨-, heq⟩
      · rw [addServer_old s _ (hb.names name S hfind).1]
        exact ⟨hfind, .refl _⟩
      · exact absurd hname (heq ▸ hfresh)
    · have hne : name ≠ pName := fun heq => hfresh (heq ▸ hname)
      show ((s.pServerNameLookup.insert pName s.serverCount).lookup name).isSome = true
      rw [AList.lookup_insert_ne hne]
      exact h.known hcallers hthreads name hname
  cases enabled with
  | false => exact hold
  | true =>
      have hself := addServer_self s (.configured pName pUrl true)
      have hfind : (s.addServer (.configured pName pUrl true)).pServerNameLookup.lookup pName =
          some s.serverCount := AList.lookup_insert _
      exact hold.append hfresh hfind (congrArg Server.enabled hself)
        (congrArg Server.pThread hself) hcallers

/-- The next server is started. -/
theorem load_loading {s : State} {name : String} {rest : List String} {S : Nat} (hb : Bounded s)
    (h : Loading s (name :: rest)) (hfind : s.pServerNameLookup.lookup name = some S) :
    Loading (s.call { pc := .starting S .load }) rest := by
  obtain ⟨hfresh, hnodup⟩ := List.nodup_cons.mp h.nodup
  refine ⟨hnodup, fun other hother T hT => ?_, fun x hx => ?_, fun hnone => ?_⟩
  · obtain ⟨henabled, hthread, hpending⟩ := h.pending other (List.mem_cons_of_mem _ hother) T hT
    refine ⟨henabled, hthread, fun x hx => ?_⟩
    rcases List.mem_append.mp hx with hold | hnew
    · exact hpending x hold
    · -- the servers of two names are two servers
      rw [List.mem_singleton.mp hnew]
      intro heq
      cases heq
      have hname := (hb.names name S hfind).2
      rw [(hb.names other S hT).2] at hname
      exact hfresh (hname ▸ hother)
  · rcases List.mem_append.mp hx with hold | hnew
    · exact h.callers x hold
    · rw [List.mem_singleton.mp hnew]
      exact ⟨rfl, .inr rfl⟩
  · cases List.append_eq_nil_iff.mp hnone with
    | intro _ hlast => cases hlast

theorem thread_loading {s s' : State} {rest : List String} {t : Nat} {thread : Thread}
    {a : ThreadAction} (hb : Bounded s) (h : Loading s rest) (ht : s.threads[t]? = some thread)
    (heffect : ThreadEffect s t thread a s') : Loading s' rest := by
  have hframe := heffect.frame
  refine h.mono (fun name _ S hS => ?_) hframe.callers fun _ hthreads => ?_
  · have hfind := hframe.names name S hS
    have hregistered : s'.Registered S := by
      rw [State.Registered, (hframe.servers S).name, (hb.names name S hfind).2]
      exact hS
    exact ⟨hfind, (heffect.same hregistered).2⟩
  · obtain ⟨thread', hset, -⟩ := hframe.threads
    have hmem := List.mem_of_getElem? ht
    rw [hset, List.set_eq_nil_iff] at hthreads
    rw [hthreads] at hmem
    cases hmem

/-- While the module is being loaded, a call only goes on with its start. -/
theorem caller_loading {s s' : State} {rest : List String} {c : Nat} {x : Caller}
    {a : CallerAction} (h : Loading s rest) (hc : s.callers[c]? = some x)
    (heffect : CallerEffect s c x a s') : Loading s' rest := by
  have hx := List.mem_of_getElem? hc
  obtain ⟨hrefresh, hstart⟩ := h.callers x hx
  have hdone : x.started = { x with pc := .done } := by
    rw [Caller.started, hrefresh]
    rfl
  -- a step of the start of `T`, which is not one of the servers that are yet to be started
  have hset : ∀ (v : State) (x' : Caller) (T : Nat), v.callers = s.callers.set c x' →
      v.pServerNameLookup = s.pServerNameLookup → x.pc.start = some T →
      (∀ S, S ≠ T → (s.servers S).Same (v.servers S)) → x'.inRefresh = false →
      (x'.pc = .done ∨ x'.pc.start = some T) → Loading v rest := by
    intro v x' T hcallers hnames hT hsame hrefresh' hpc
    refine ⟨h.nodup, fun name hname S hS => ?_, fun y hy => ?_, fun hnone => ?_⟩
    · rw [hnames] at hS
      obtain ⟨henabled, hthread, hpending⟩ := h.pending name hname S hS
      have hST : S ≠ T := by
        rintro rfl
        exact hpending x hx hT
      rw [(hsame S hST).enabled, (hsame S hST).pThread]
      refine ⟨henabled, hthread, fun y hy => ?_⟩
      rw [hcallers] at hy
      rcases List.mem_or_eq_of_mem_set hy with hold | rfl
      · exact hpending y hold
      · rcases hpc with hdone | hstart
        · rw [hdone]
          exact nofun
        · rw [hstart]
          exact fun heq => hST (Option.some.inj heq).symm
    · rw [hcallers] at hy
      rcases List.mem_or_eq_of_mem_set hy with hold | rfl
      · exact h.callers y hold
      · refine ⟨hrefresh', hpc.imp_right fun hsome => ?_⟩
        rw [hsome]
        rfl
    · rw [hcallers, List.set_eq_nil_iff] at hnone
      rw [hnone] at hx
      cases hx
  -- no other call is there
  have hno : ∀ pc, x.pc = pc → pc ≠ .done → pc.start = none → Loading s' rest := by
    intro pc hpc hne hnone
    rw [hpc] at hstart
    rcases hstart with heq | hsome
    · exact absurd heq hne
    · rw [hnone] at hsome
      cases hsome
  cases heffect with
  | startPassed T call hpc htest =>
      refine hset _ _ T rfl rfl (by rw [hpc]; rfl) (fun S hS => ?_) hrefresh (.inr rfl)
      exact same_update_ne s T _ hS
  | startRefused T call hpc =>
      refine hset _ _ T rfl rfl (by rw [hpc]; rfl) (fun S _ => .refl _) ?_ (.inl ?_)
      · rw [hdone]
        exact hrefresh
      · rw [hdone]
  | created T hpc =>
      refine hset _ _ T rfl rfl (by rw [hpc]; rfl) (fun S hS => ?_) ?_ (.inl ?_)
      · exact same_update_ne s T _ hS
      · rw [hdone]
        exact hrefresh
      · rw [hdone]
  | registered _ _ _ hpc | updated _ _ _ _ hpc | restarting _ _ _ _ hpc | seen _ _ _ hpc
  | collected _ _ hpc | unlocked hpc | evicting _ _ hpc | refreshed hpc | terminated _ hpc
  | notStoppable _ hpc | threadRead _ _ hpc | joined _ _ _ hpc | threadCleared _ hpc
  | flagsCleared _ hpc | toRemove _ hpc | notEvicted _ hpc | removed _ hpc =>
      exact hno _ hpc nofun rfl

/-! ## Runs -/

/-- The invariant of the starts. -/
structure Starts (s : State) : Prop where
  single : Single s
  settled : ∀ S, s.Registered S → Settled s S
  loading : ∀ rest ∈ s.loading, Loading s rest

/-- A step that no thread and no caller takes, and that keeps what is found under a name. -/
theorem Starts.mono {s s' : State} (hi : Starts s) (hcallers : s'.callers = s.callers)
    (hthreads : s'.threads = s.threads) (hnames : s'.pServerNameLookup = s.pServerNameLookup)
    (hloading : ∀ rest ∈ s'.loading, rest ∈ s.loading)
    (hsame : ∀ S, (s'.servers S).name = (s.servers S).name ∧ (s.servers S).Same (s'.servers S)) :
    Starts s' := by
  have hrunning : ∀ S t, s'.Running S t → s.Running S t := fun S t ht => ht.of_threads hthreads
  refine ⟨hi.single.mono hrunning ?_, fun S hS => ?_, fun rest hrest => ?_⟩
  · intro S c hc
    rwa [State.Creating, hcallers] at hc
  · rw [State.Registered, hnames, (hsame S).1] at hS
    refine (hi.settled S hS).mono (hsame S).2 (fun c x hx _ => ?_) (hrunning S)
    rwa [hcallers] at hx
  · have hold := hi.loading rest (hloading rest hrest)
    refine hold.mono (fun name _ S hS => ?_) hcallers fun hnone hnone' => ?_
    · rw [hnames] at hS
      exact ⟨hS, (hsame S).2⟩
    · rw [hnames]
      exact hold.known (hcallers ▸ hnone) (hthreads ▸ hnone')

/-- A call that is not engaged with any server. -/
theorem Starts.call {s : State} (hi : Starts s) {x : Caller} (hpc : x.pc.engaged = none)
    (hloading : s.loading = none) : Starts (s.call x) := by
  refine ⟨hi.single.mono (fun _ _ ht => ht.of_threads rfl) ?_, fun S hS => ?_, ?_⟩
  · rintro S c ⟨y, hy, hcreating⟩
    rcases getElem?_concat_cases hy with hold | ⟨-, rfl⟩
    · exact ⟨y, hold, hcreating⟩
    · rw [hcreating] at hpc
      cases hpc
  · refine (hi.settled S hS).mono (.refl _) (fun c y hy hengaged => ?_) fun _ ht =>
      ht.of_threads rfl
    rcases getElem?_concat_cases hy with hold | ⟨-, rfl⟩
    · exact hold
    · rw [hpc] at hengaged
      cases hengaged
  · intro rest hrest
    rw [show (s.call x).loading = s.loading from rfl, hloading] at hrest
    cases hrest

/-- The start of the next server of the configuration is the only call that is engaged with
    that server. -/
theorem load_starts {s : State} (hb : Bounded s) (hi : Starts s) {name : String}
    {rest : List String} {S : Nat} (hloading : s.loading = some (name :: rest))
    (hfind : s.pServerNameLookup.lookup name = some S) :
    Starts { s.call { pc := .starting S .load } with loading := some rest } := by
  have hold := hi.loading (name :: rest) hloading
  obtain ⟨henabled, hthread, hpending⟩ := hold.pending name List.mem_cons_self S hfind
  -- nobody else has started that server
  have hengaged : ∀ x ∈ s.callers, x.pc.engaged ≠ some S := by
    intro x hx heq
    rcases (hold.callers x hx).2 with hdone | hstart
    · rw [hdone] at heq
      cases heq
    · apply hpending x hx
      cases hpc : x.pc with
      | starting T call =>
          rw [hpc] at heq
          cases call <;> cases heq <;> rfl
      | creating T =>
          rw [hpc] at heq
          cases heq
          rfl
      | _ =>
          rw [hpc] at hstart
          cases hstart
  refine ⟨hi.single.mono (fun _ _ ht => ht.of_threads rfl) ?_, fun T hT => ?_, ?_⟩
  · rintro T c ⟨y, hy, hcreating⟩
    rcases getElem?_concat_cases hy with hy | ⟨-, rfl⟩
    · exact ⟨y, hy, hcreating⟩
    · cases hcreating
  · by_cases hTS : T = S
    · subst hTS
      refine Settled.fresh (c := s.callers.length) hthread (fun t ht => ?_) ?_ fun x hx hpc => ?_
      · exact (hi.settled T hT).not_running hthread t (ht.of_threads rfl)
      · rintro c ⟨y, hy, hpc⟩
        rcases getElem?_concat_cases hy with hy | ⟨hc, -⟩
        · exact absurd hpc (hengaged y (List.mem_of_getElem? hy))
        · exact hc
      · rcases List.mem_append.mp hx with hx | hnew
        · exact absurd hpc (hengaged x hx)
        · rw [List.mem_singleton.mp hnew]
          exact ⟨henabled, .load, rfl⟩
    · refine (hi.settled T hT).mono (.refl _) (fun c y hy hpc => ?_) fun _ ht => ht.of_threads rfl
      rcases getElem?_concat_cases hy with hy | ⟨-, rfl⟩
      · exact hy
      · cases hpc
        exact absurd rfl hTS
  · rintro _ ⟨⟩
    have hrest := load_loading hb hold hfind
    exact ⟨hrest.nodup, hrest.pending, hrest.callers, hrest.known⟩

theorem added_starts {s : State} (hb : Bounded s) (hi : Starts s) {pName pUrl : String}
    {enabled : Bool} {rest : List String} (hnew : s.pServerNameLookup.lookup pName = none)
    (hloading : s.loading = some rest) (hcallers : s.callers = []) (hthreads : s.threads = []) :
    Starts { s.addServer (.configured pName pUrl enabled) with
      loading := some (if enabled then rest ++ [pName] else rest) } := by
  have hself := addServer_self s (.configured pName pUrl enabled)
  refine ⟨hi.single.mono (fun _ _ ht => ht.of_threads rfl) fun _ _ => id, fun S hS => ?_, ?_⟩
  · rcases addServer_names hS with hold | ⟨rfl, -⟩
    · have hlt := (hb.names _ S hold).1
      have hsame := addServer_old s (.configured pName pUrl enabled) hlt
      have hreg : s.Registered S := by
        rw [State.Registered, ← hsame]
        exact hold
      refine (hi.settled S hreg).mono ?_ (fun _ _ hx _ => hx) fun _ ht => ht.of_threads rfl
      show (s.servers S).Same ((s.addServer (.configured pName pUrl enabled)).servers S)
      rw [hsame]
      exact .refl _
    · -- no thread and no caller knows the new server yet
      obtain ⟨hrunning, hunused⟩ := hb.unused
      refine Settled.fresh (c := 0) ?_ (fun t ht => hrunning t (ht.of_threads rfl)) ?_ ?_
      · exact congrArg Server.pThread hself
      · rintro c ⟨x, hx, hpc⟩
        exact absurd hpc (hunused x (List.mem_of_getElem? hx))
      · intro x hx hpc
        exact absurd hpc (hunused x hx)
  · rintro _ ⟨⟩
    have hadded := added_loading hb (hi.loading rest hloading) pUrl enabled hnew hcallers hthreads
    exact ⟨hadded.nodup, hadded.pending, hadded.callers, hadded.known⟩

theorem step_starts {s s' : State} {a : Action} (hb : Bounded s) (hi : Starts s)
    (hg : StartedOnce s a) (h : StepCase s s' a) : Starts s' := by
  cases h with
  | added pName pUrl enabled rest hnew hstate hloading hcallers hthreads =>
      subst hstate
      exact added_starts hb hi hnew hloading hcallers hthreads
  | loads name S rest hloading hfind hstate =>
      subst hstate
      exact load_starts hb hi hloading hfind
  | loaded hloading hcallers hstate =>
      subst hstate
      refine hi.mono rfl rfl rfl nofun fun _ => ⟨rfl, .refl _⟩
  | enables name S hloading hfind hstate | disables name S hloading hfind hstate =>
      subst hstate
      exact hi.call rfl hloading
  | refreshes hloading hmutex hstate =>
      subst hstate
      refine (hi.call (x := { pc := .locked, inRefresh := true }) rfl hloading).mono rfl rfl rfl
        (fun _ => id) fun _ => ⟨rfl, .refl _⟩
  | dials S hstate =>
      subst hstate
      exact hi.mono rfl rfl rfl (fun _ => id) fun _ => ⟨rfl, .refl _⟩
  | thread t thread action ht heffect =>
      have hframe := heffect.frame
      -- a thread's own step may end it, and starts none
      have hrunning : ∀ S t', s'.Running S t' → s.Running S t' := fun S t' =>
        heffect.running ht
      refine ⟨hi.single.mono hrunning ?_, fun S hS => ?_, fun rest hrest => ?_⟩
      · intro S c hc
        rwa [State.Creating, hframe.callers] at hc
      · obtain ⟨hreg, hsame⟩ := heffect.same hS
        refine (hi.settled S hreg).mono hsame (fun c x hx _ => ?_) (hrunning S)
        rwa [hframe.callers] at hx
      · rw [hframe.loading] at hrest
        exact thread_loading hb (hi.loading rest hrest) ht heffect
  | caller c x action hc heffect =>
      refine ⟨caller_single hi.settled hi.single hg hc heffect, fun S hS => ?_, ?_⟩
      · exact caller_settled hb hi.settled hg hc heffect hS
      · intro rest hrest
        rw [heffect.frame.loading] at hrest
        exact caller_loading (hi.loading rest hrest) hc heffect
  | leg l leg action hl heffect =>
      have hframe := heffect.frame
      refine hi.mono hframe.callers hframe.threads hframe.pServerNameLookup ?_ fun S => ?_
      · rw [hframe.loading]
        exact fun _ => id
      · obtain ⟨serverId, callsInProgress, heq⟩ := hframe.servers S
        rw [heq]
        exact ⟨rfl, rfl, rfl, rfl⟩

/-- As long as a refresh that starts a server finds it still not enabled, and a removed
    server is started only when nothing of it runs, at most one thread runs for a server. -/
theorem one_thread {s : State} (h : Reach step StartedOnce Initial s) :
    ∀ S t t', s.Running S t → s.Running S t' → t = t' := by
  have hstarts : Starts s := by
    refine h.invariant_of (fun _ => reach_bounded) ?_ ?_
    · rintro _ ⟨podServerFailMax, rfl⟩
      refine ⟨⟨?_, ?_, ?_⟩, ?_, ?_⟩
      · rintro S t t' ⟨thread, ⟨⟩, -⟩
      · rintro S c c' ⟨x, ⟨⟩, -⟩
      · rintro S t c ⟨thread, ⟨⟩, -⟩
      · exact nofun
      · rintro _ ⟨⟩
        exact ⟨List.nodup_nil, nofun, nofun, fun _ _ => nofun⟩
    · intro s a s' hb hi hg hs
      exact step_starts hb hi hg (step_case hs)
  exact hstarts.single.threads

/-- A server that is stopped from the console, and started again by a refresh. -/
theorem one_thread_restarted :
    ∃ s : State, s.Running 0 1 ∧ ∀ t, s.Running 0 t → t = 1 := by
  have h0 : Initial { podServerFailMax := 1 } := ⟨1, rfl⟩
  obtain ⟨s, hs, hp⟩ := Transition.reach_of_exec step StartedOnce h0
    ([.loaded] ++ registerA 0 ++ [.disable "a", .caller 1 .stopTest, .caller 1 .readThread,
      .thread 0 (.outer true), .thread 0 .deleteEntry, .thread 0 .testEvicted,
      .caller 1 .join, .caller 1 .clearThread, .caller 1 .clearFlags, .refresh,
      .caller 2 (.update "a" "10.0.0.1" "http://10.0.0.1:80/janus"), .caller 2 .startTest,
      .caller 2 .create])
    (fun s => s.threads[1]? = some { server := 0 }) (by decide)
  have hrunning : s.Running 0 1 := ⟨{ server := 0 }, of_decide_eq_true hp, rfl, nofun⟩
  exact ⟨s, hrunning, fun t ht => one_thread hs 0 t 1 ht hrunning⟩

/-- The server is started from the console after the refresh has found it not enabled. -/
theorem two_threads :
    ¬ ∀ s, Reach step Always Initial s → ∀ S t t', s.Running S t → s.Running S t' → t = t' := by
  intro hclaim
  have h0 : Initial { podServerFailMax := 1 } := ⟨1, rfl⟩
  obtain ⟨s, hs, hp⟩ := Transition.reach_of_exec step Always h0
    ([.loaded] ++ registerA 0 ++ [.disable "a", .caller 1 .stopTest, .caller 1 .readThread,
      .thread 0 (.outer true), .thread 0 .deleteEntry, .thread 0 .testEvicted,
      .caller 1 .join, .caller 1 .clearThread, .caller 1 .clearFlags, .refresh,
      .caller 2 (.update "a" "10.0.0.1" "http://10.0.0.1:80/janus"), .enable "a",
      .caller 3 .startTest, .caller 3 .create, .caller 2 .startTest, .caller 2 .create])
    (fun s => s.threads[1]? = some { server := 0 } ∧ s.threads[2]? = some { server := 0 })
    (by decide)
  obtain ⟨hfirst, hsecond⟩ := of_decide_eq_true hp
  have heq := hclaim s hs 0 1 2 ⟨{ server := 0 }, hfirst, rfl, nofun⟩
    ⟨{ server := 0 }, hsecond, rfl, nofun⟩
  cases heq

end ModJanus.Registry
