/-
  ModJanus.Server.Eviction

  What an eviction can hit.

  `serversRegistryRefresh` collects the servers to evict under `globals.mutex` and stops
  them after it has let go of it, and `serversDynamicRemoveFromLookup` removes by name.
  Two things can have changed meanwhile: another server may stand under the name, and a
  leg may have been established on the server.  Each is an invariant of the runs in which
  it cannot happen: nobody holds a server whose name belongs to another one (`Stale`),
  and no leg is established on a server that a refresh is about to stop (`Idle`).
-/
import ModJanus.Server.Frame

namespace ModJanus.Registry

open Transition (Reach Always)

/-! ## Who still holds a server -/

/-- Somebody who can still remove the server: a caller that works on it or is going to,
    or a thread of it that has not returned. -/
def State.Held (s : State) (S : Nat) : Prop :=
  (∃ x ∈ s.callers, x.holds S = true) ∨ ∃ thread ∈ s.threads, thread.server = S ∧
    thread.pc ≠ .returned

instance (s : State) (S : Nat) : Decidable (s.Held S) :=
  inferInstanceAs (Decidable ((∃ x ∈ s.callers, x.holds S = true) ∨
    ∃ thread ∈ s.threads, thread.server = S ∧ thread.pc ≠ .returned))

/-- Nobody holds a server whose name belongs to another one. -/
def Stale (s : State) : Prop :=
  ∀ S T, s.pServerNameLookup.lookup (s.servers S).name = some T → S < s.serverCount → S ≠ T →
    ¬ s.Held S

/-- A pod is registered anew only when nobody holds an older server of its name. -/
def FreshName (s : State) : Action → Prop
  | .caller _ (.register podName _ _) =>
      ∀ S < s.serverCount, (s.servers S).name = podName → ¬ s.Held S
  | _ => True

instance (s : State) (a : Action) : Decidable (FreshName s a) := by
  cases a with
  | caller c action =>
      cases action with
      | register podName podIp url =>
          exact inferInstanceAs (Decidable (∀ S < s.serverCount,
            (s.servers S).name = podName → ¬ s.Held S))
      | _ => exact isTrue trivial
  | _ => exact isTrue trivial

/-- A server comes to be held only by being found under its name. -/
theorem held_of_step {s s' : State} {a : Action} (h : StepCase s s' a) {S : Nat}
    (hheld : s'.Held S) : s.Held S ∨ ∃ name, s'.pServerNameLookup.lookup name = some S := by
  -- a call that has found its server holds that one
  have hcall : ∀ (name : String) (T : Nat) (x : Caller),
      s.pServerNameLookup.lookup name = some T → (∀ U, x.holds U = true → U = T) →
      (s.call x).Held S → s.Held S ∨ ∃ name, s.pServerNameLookup.lookup name = some S := by
    intro name T x hfind hx hheld
    rcases hheld with ⟨y, hy, hholds⟩ | hthread
    · rcases List.mem_append.mp hy with hold | hnew
      · exact .inl (.inl ⟨y, hold, hholds⟩)
      · rw [List.mem_singleton.mp hnew] at hholds
        rw [hx S hholds]
        exact .inr ⟨name, hfind⟩
    · exact .inl (.inr hthread)
  cases h with
  | added pName pUrl enabled rest hnew hstate hloading hcallers hthreads =>
      subst hstate
      exact .inl hheld
  | loads name T rest hloading hfind hstate =>
      subst hstate
      exact hcall name T _ hfind (fun _ => Caller.holds_found (.inl ⟨rfl, rfl⟩) rfl) hheld
  | loaded hloading hcallers hstate =>
      subst hstate
      exact .inl hheld
  | enables name T hloading hfind hstate =>
      subst hstate
      exact hcall name T _ hfind (fun _ => Caller.holds_found (.inl ⟨rfl, rfl⟩) rfl) hheld
  | disables name T hloading hfind hstate =>
      subst hstate
      exact hcall name T _ hfind (fun _ => Caller.holds_found (.inr ⟨rfl, rfl⟩) rfl) hheld
  | refreshes hloading hmutex hstate =>
      subst hstate
      rcases hheld with ⟨y, hy, hholds⟩ | hthread
      · rcases List.mem_append.mp hy with hold | hnew
        · exact .inl (.inl ⟨y, hold, hholds⟩)
        · rw [List.mem_singleton.mp hnew] at hholds
          simp [Caller.holds, CallerPc.start, CallerPc.stop] at hholds
      · exact .inl (.inr hthread)
  | dials T hstate =>
      subst hstate
      exact .inl hheld
  | thread t thread action ht heffect =>
      have hframe := heffect.frame
      obtain ⟨thread', hthreads, hserver⟩ := hframe.threads
      rcases hheld with ⟨y, hy, hholds⟩ | ⟨other, hother, heq, hpc⟩
      · rw [hframe.callers] at hy
        exact .inl (.inl ⟨y, hy, hholds⟩)
      · rw [hthreads] at hother
        rcases List.mem_or_eq_of_mem_set hother with hold | rfl
        · exact .inl (.inr ⟨other, hold, heq, hpc⟩)
        · -- a thread that has returned takes no step
          refine .inl (.inr ⟨thread, List.mem_of_getElem? ht, hserver ▸ heq, ?_⟩)
          cases heffect <;> simp_all
  | caller c x action hc heffect =>
      have hframe := heffect.frame
      obtain ⟨x', hcallers, hholds'⟩ := heffect.callers
      have hx : x ∈ s.callers := List.mem_of_getElem? hc
      rcases hheld with ⟨y, hy, hholds⟩ | ⟨other, hother, heq, hpc⟩
      · rw [hcallers] at hy
        rcases List.mem_or_eq_of_mem_set hy with hold | rfl
        · exact .inl (.inl ⟨y, hold, hholds⟩)
        · exact (hholds' S hholds).imp_left fun hheld => .inl ⟨x, hx, hheld⟩
      · -- the list of threads is the same, or one was created
        rcases hframe.threads with hsame | ⟨T, hcreating, hnew⟩
        · rw [hsame] at hother
          exact .inl (.inr ⟨other, hother, heq, hpc⟩)
        · rw [hnew] at hother
          rcases List.mem_append.mp hother with hold | hlast
          · exact .inl (.inr ⟨other, hold, heq, hpc⟩)
          · -- the new thread is of the server that its creator holds
            rw [List.mem_singleton.mp hlast] at heq
            have hheld : x.holds S = true := by
              apply Caller.holds_of_start
              rw [hcreating, ← heq]
              rfl
            exact .inl (.inl ⟨x, hx, hheld⟩)
  | leg l leg action hl heffect =>
      have hframe := heffect.frame
      rw [State.Held, hframe.callers, hframe.threads] at hheld
      exact .inl hheld

/-- The server that the action removes, if it is a removal. -/
def State.removes (s : State) : Action → Option Nat
  | .thread t .remove => s.threads[t]?.map Thread.server
  | .caller c .remove => s.callers[c]?.bind fun x => x.pc.stop
  | _ => none

/-! ## Names -/

/-- What a step does to the names: a removal takes one away, a registration adds one, and
    every other step leaves them alone. -/
inductive NamesEffect (s s' : State) (a : Action) : Prop where
  | same (hnames : s'.pServerNameLookup = s.pServerNameLookup)
      (hcount : s'.serverCount = s.serverCount)
  | added (name : String) (hnew : s.pServerNameLookup.lookup name = none)
      (hnames : s'.pServerNameLookup = s.pServerNameLookup.insert name s.serverCount)
      (hcount : s'.serverCount = s.serverCount + 1)
      (hname : (s'.servers s.serverCount).name = name)
      (hguard : FreshName s a → ∀ S < s.serverCount, (s.servers S).name = name → ¬ s.Held S)
  | removed (S : Nat) (ha : s.removes a = some S) (hheld : s.Held S)
      (hnames : s'.pServerNameLookup = s.pServerNameLookup.erase (s.servers S).name)
      (hcount : s'.serverCount = s.serverCount)

theorem removed_names {s : State} {a : Action} (S : Nat) {f : State → State}
    (ha : s.removes a = some S) (hheld : s.Held S)
    (hnames : ∀ v, (f v).pServerNameLookup = v.pServerNameLookup)
    (hcount : ∀ v, (f v).serverCount = v.serverCount) :
    NamesEffect s (f (s.serversDynamicRemoveFromLookup S)) a := by
  rcases s.serversDynamicRemoveFromLookup_cases S with heq | ⟨-, ids, -, heq⟩
  · rw [heq]
    exact .same (hnames s) (hcount s)
  · refine .removed S ha hheld ?_ ?_
    · rw [hnames, heq]
    · rw [hcount, heq]
      rfl

theorem step_names {s s' : State} {a : Action} (h : StepCase s s' a) : NamesEffect s s' a := by
  -- names are added in two places, and removed by a thread or by a caller
  cases h with
  | added pName pUrl enabled rest hnew hstate hloading hcallers hthreads =>
      subst hstate
      refine .added pName hnew rfl rfl ?_ ?_
      · show ((s.addServer (.configured pName pUrl enabled)).servers s.serverCount).name = pName
        rw [addServer_self]
        rfl
      · -- nothing runs yet
        rintro - S - - (⟨x, hx, -⟩ | ⟨thread, hthread, -⟩)
        · rw [hcallers] at hx
          cases hx
        · rw [hthreads] at hthread
          cases hthread
  | thread t thread action ht heffect =>
      cases heffect with
      | removed hpc hmutex =>
          have ha : s.removes (.thread t .remove) = some thread.server := by
            rw [State.removes, ht]
            rfl
          have hheld : s.Held thread.server := by
            refine .inr ⟨thread, List.mem_of_getElem? ht, rfl, ?_⟩
            rw [hpc]
            exact nofun
          exact removed_names thread.server
            (f := fun v => v.setThread t { thread with pc := .returned }) ha hheld
            (fun _ => rfl) fun _ => rfl
      | _ => exact .same rfl rfl
  | caller c x action hc heffect =>
      cases heffect with
      | registered podName podIp url hpc hnew =>
          refine .added podName hnew rfl rfl ?_ id
          show ((s.addServer (.registered podName podIp url)).servers s.serverCount).name = podName
          rw [addServer_self]
          rfl
      | removed S hpc hmutex =>
          have ha : s.removes (.caller c .remove) = some S := by
            simp [State.removes, hc, hpc, CallerPc.stop]
          have hheld : s.Held S :=
            .inl ⟨x, List.mem_of_getElem? hc, Caller.holds_of_stop (by rw [hpc]; rfl)⟩
          exact removed_names S (f := fun v => v.setCaller c x.stopped) ha hheld
            (fun _ => rfl) fun _ => rfl
      | _ => exact .same rfl rfl
  | leg l leg action hl heffect =>
      have hframe := heffect.frame
      exact .same hframe.pServerNameLookup hframe.serverCount
  | loads | loaded | enables | disables | refreshes | dials => subst_vars; exact .same rfl rfl

theorem Bounded.held {s : State} (hi : Bounded s) {S : Nat} (h : s.Held S) :
    S < s.serverCount := by
  rcases h with ⟨x, hx, hholds⟩ | ⟨thread, hthread, rfl, -⟩
  · exact hi.callers x hx S hholds
  · exact hi.threads thread hthread

theorem step_stale {s s' : State} {a : Action} (hb : Bounded s) (hi : Stale s)
    (hg : FreshName s a) (h : StepCase s s' a) : Stale s' := by
  intro S T hfind hS hne hheld
  have hb' := step_bounded hb h
  have hheld₀ : s.Held S := by
    rcases held_of_step h hheld with hold | ⟨name, hname⟩
    · exact hold
    · -- it would be found under its own name, which belongs to another one
      have hown := (hb'.names name S hname).2
      rw [← hown, hfind] at hname
      exact absurd (Option.some.inj hname).symm hne
  -- so it was held before the step, and only a registration could have taken its name
  have hS₀ := hb.held hheld₀
  have hsame := (h.keeps hS₀).name
  rw [hsame] at hfind
  cases step_names h with
  | same hnames hcount =>
      rw [hnames] at hfind
      exact hi S T hfind hS₀ hne hheld₀
  | added name hnew hnames hcount hname hguard =>
      rw [hnames] at hfind
      by_cases hnamed : (s.servers S).name = name
      · exact hguard hg S hS₀ hnamed hheld₀
      · rw [AList.lookup_insert_ne hnamed] at hfind
        exact hi S T hfind hS₀ hne hheld₀
  | removed U ha hU hnames hcount =>
      rw [hnames] at hfind
      exact hi S T (lookup_of_erase hfind) hS₀ hne hheld₀

/-- An entry goes away only when its own server is removed. -/
theorem entry_survives {s s' : State} {a : Action} (hb : Bounded s) (hi : Stale s)
    (h : StepCase s s' a) {name : String} {T : Nat}
    (hfind : s.pServerNameLookup.lookup name = some T) (ha : s.removes a ≠ some T) :
    s'.pServerNameLookup.lookup name = some T := by
  cases step_names h with
  | same hnames hcount =>
      rw [hnames]
      exact hfind
  | added new hnew hnames hcount hname hguard =>
      have hne : name ≠ new := by
        rintro rfl
        rw [hnew] at hfind
        cases hfind
      rw [hnames, AList.lookup_insert_ne hne]
      exact hfind
  | removed S haS hheld hnames hcount =>
      -- the one who removes `S` holds it, so the name is not another one's
      have hST : S ≠ T := by
        rintro rfl
        exact ha haS
      have hne : name ≠ (s.servers S).name := by
        rintro rfl
        exact hi S T hfind (hb.held hheld) hST hheld
      rw [hnames, AList.lookup_erase_ne hne]
      exact hfind

/-! ## Evicted servers -/

/-- A removal is only called for a server that is marked as evicted. -/
structure RemovingEvicted (s : State) : Prop where
  callers : ∀ x ∈ s.callers, ∀ S, x.pc = .removing S → (s.servers S).evicted = true
  threads : ∀ thread ∈ s.threads, thread.pc = .removing →
    (s.servers thread.server).evicted = true

theorem Caller.started_pc (x : Caller) (S : Nat) : x.started.pc ≠ .removing S := by
  unfold Caller.started
  split <;> exact nofun

theorem Caller.stopped_pc (x : Caller) (S : Nat) : x.stopped.pc ≠ .removing S := by
  unfold Caller.stopped
  split <;> exact nofun

/-- A caller gets to the removal only through the test of `SFLAG_EVICTED`. -/
theorem CallerEffect.removing {s s' : State} {c : Nat} {x : Caller} {a : CallerAction}
    (h : CallerEffect s c x a s') : ∃ x', s'.callers = s.callers.set c x' ∧
      ∀ S, x'.pc = .removing S → x.holds S = true ∧ (s.servers S).evicted = true := by
  cases h with
  | toRemove S hpc hevicted =>
      refine ⟨_, rfl, fun T hT => ?_⟩
      cases hT
      exact ⟨Caller.holds_of_stop (by rw [hpc]; rfl), hevicted⟩
  | updated S podName podIp url hpc | seen podName podIp url hpc | collected S name hpc =>
      refine ⟨_, rfl, fun T hT => ?_⟩
      rw [show _ = x.pc from rfl, hpc] at hT
      cases hT
  | startRefused S call hpc => exact ⟨_, rfl, fun T hT => absurd hT (x.started_pc T)⟩
  | created S hpc => exact ⟨_, rfl, fun T hT => absurd hT (x.started_pc T)⟩
  | flagsCleared S hpc => exact ⟨_, rfl, fun T hT => absurd hT (x.stopped_pc T)⟩
  | notEvicted S hpc => exact ⟨_, rfl, fun T hT => absurd hT (x.stopped_pc T)⟩
  | removed S hpc hmutex =>
      refine ⟨x.stopped, ?_, fun T hT => absurd hT (x.stopped_pc T)⟩
      exact congrArg (List.set · c x.stopped) (removed_lists s S).1
  | _ => exact ⟨_, rfl, nofun⟩

theorem ThreadEffect.removing {s s' : State} {t : Nat} {thread : Thread} {a : ThreadAction}
    (h : ThreadEffect s t thread a s') : ∃ thread', s'.threads = s.threads.set t thread' ∧
      thread'.server = thread.server ∧
      (thread'.pc = .removing → (s.servers thread.server).evicted = true) := by
  cases h with
  | toRemove hpc hevicted => exact ⟨_, rfl, rfl, fun _ => hevicted⟩
  | removed hpc hmutex =>
      refine ⟨{ thread with pc := .returned }, ?_, rfl, nofun⟩
      exact congrArg (List.set · t _) (removed_lists s thread.server).2
  | opened opened hpc | inner polls hpc =>
      -- where the two loops go depends on a test, but never to the removal
      refine ⟨_, rfl, rfl, fun hT => ?_⟩
      dsimp only at hT
      split at hT <;> cases hT
  | _ => exact ⟨_, rfl, rfl, nofun⟩

theorem step_removingEvicted {s s' : State} {a : Action} (hb : Bounded s)
    (hi : RemovingEvicted s) (h : StepCase s s' a) : RemovingEvicted s' := by
  -- `SFLAG_EVICTED` is never cleared: those who were removing still find it set
  have hcallers : ∀ x ∈ s.callers, ∀ S, x.pc = .removing S → (s'.servers S).evicted = true := by
    intro x hx S hpc
    have hS := hb.callers x hx S (Caller.holds_of_stop (by rw [hpc]; rfl))
    exact (h.keeps hS).evicted (hi.callers x hx S hpc)
  have hthreads : ∀ thread ∈ s.threads, thread.pc = .removing →
      (s'.servers thread.server).evicted = true := by
    intro thread hthread hpc
    exact (h.keeps (hb.threads thread hthread)).evicted (hi.threads thread hthread hpc)
  have hcall : ∀ x : Caller, (∀ S, x.pc ≠ .removing S) → ∀ y ∈ s.callers ++ [x], ∀ S,
      y.pc = .removing S → (s'.servers S).evicted = true := by
    intro x hx y hy S hpc
    rcases List.mem_append.mp hy with hold | hnew
    · exact hcallers y hold S hpc
    · rw [List.mem_singleton.mp hnew] at hpc
      exact absurd hpc (hx S)
  have hkeeps := fun S hS => h.keeps (S := S) hS
  -- what is left is who comes to the removal by this step
  cases h with
  | thread t thread action ht heffect =>
      obtain ⟨thread', hset, hserver, hremoving⟩ := heffect.removing
      have hthread := List.mem_of_getElem? ht
      refine ⟨?_, fun other hother hpc => ?_⟩
      · rw [heffect.frame.callers]
        exact hcallers
      · rw [hset] at hother
        rcases List.mem_or_eq_of_mem_set hother with hold | rfl
        · exact hthreads other hold hpc
        · rw [hserver]
          exact (hkeeps _ (hb.threads thread hthread)).evicted (hremoving hpc)
  | caller c x action hc heffect =>
      obtain ⟨x', hset, hremoving⟩ := heffect.removing
      have hframe := heffect.frame
      refine ⟨fun y hy S hpc => ?_, fun other hother hpc => ?_⟩
      · rw [hset] at hy
        rcases List.mem_or_eq_of_mem_set hy with hold | rfl
        · exact hcallers y hold S hpc
        · obtain ⟨hheld, hevicted⟩ := hremoving S hpc
          have hS := hb.callers x (List.mem_of_getElem? hc) S hheld
          exact (hkeeps S hS).evicted hevicted
      · rcases hframe.threads with hsame | ⟨S, -, hnew⟩
        · rw [hsame] at hother
          exact hthreads other hother hpc
        · rw [hnew] at hother
          rcases List.mem_append.mp hother with hold | hlast
          · exact hthreads other hold hpc
          · rw [List.mem_singleton.mp hlast] at hpc
            cases hpc
  | leg l leg action hl heffect =>
      have hframe := heffect.frame
      refine ⟨?_, ?_⟩
      · rw [hframe.callers]
        exact hcallers
      · rw [hframe.threads]
        exact hthreads
  | added | loaded | dials => subst_vars; exact ⟨hcallers, hthreads⟩
  | loads | enables | disables | refreshes => subst_vars; exact ⟨hcall _ nofun, hthreads⟩

theorem removes_evicted {s s' : State} {a : Action} (hi : RemovingEvicted s)
    (h : StepCase s s' a) {S : Nat} (ha : s.removes a = some S) :
    (s.servers S).evicted = true := by
  cases h with
  | thread t thread action ht heffect =>
      cases heffect with
      | removed hpc hmutex =>
          rw [State.removes, ht] at ha
          cases ha
          exact hi.threads thread (List.mem_of_getElem? ht) hpc
      | _ => cases ha
  | caller c x action hc heffect =>
      cases heffect with
      | removed T hpc hmutex =>
          have hTS : T = S := by simpa [State.removes, hc, hpc, CallerPc.stop] using ha
          rw [← hTS]
          exact hi.callers x (List.mem_of_getElem? hc) T hpc
      | _ => cases ha
  | _ => cases ha

/-- A server that was not evicted is found under its name. -/
def Findable (s : State) : Prop :=
  ∀ S < s.serverCount, (s.servers S).evicted = false → s.Registered S

theorem step_findable {s s' : State} {a : Action} (hb : Bounded s) (hs : Stale s)
    (hr : RemovingEvicted s) (hi : Findable s) (h : StepCase s s' a) : Findable s' := by
  intro S hS hnot
  by_cases hold : S < s.serverCount
  · have hkeeps := h.keeps hold
    have hnot₀ : (s.servers S).evicted = false := by
      cases hevicted : (s.servers S).evicted with
      | false => rfl
      | true =>
          rw [hkeeps.evicted hevicted] at hnot
          cases hnot
    -- a removal of `S` would find it evicted
    have ha : s.removes a ≠ some S := by
      intro ha
      rw [removes_evicted hr h ha] at hnot₀
      cases hnot₀
    rw [State.Registered, hkeeps.name]
    exact entry_survives hb hs h (hi S hold hnot₀) ha
  · -- only a registration makes the table longer
    cases step_names h with
    | same hnames hcount => omega
    | removed T ha hheld hnames hcount => omega
    | added name hnew hnames hcount hname hguard =>
        have heq : S = s.serverCount := by omega
        subst heq
        rw [State.Registered, hname, hnames]
        exact AList.lookup_insert _

/-! ## Removals -/

theorem reach_names {guard : State → Action → Prop} (hguard : ∀ s a, guard s a → FreshName s a)
    {s : State} (h : Reach step guard Initial s) : Stale s ∧ RemovingEvicted s ∧ Findable s := by
  refine h.invariant_of (I := fun s => Stale s ∧ RemovingEvicted s ∧ Findable s)
    (fun _ => reach_bounded) ?_ ?_
  · rintro _ ⟨podServerFailMax, rfl⟩
    exact ⟨nofun, ⟨nofun, nofun⟩, nofun⟩
  · rintro s a s' hb ⟨hstale, hremoving, hfind⟩ hg hs
    have hcase := step_case hs
    exact ⟨step_stale hb hstale (hguard s a hg) hcase, step_removingEvicted hb hremoving hcase,
      step_findable hb hstale hremoving hfind hcase⟩

/-- As long as a pod is registered anew only when nobody holds an older server of its
    name, a removal takes away no name entry but that of the server it is called for, and
    every server that was not evicted itself is found under its name. -/
theorem removal_by_name {s : State} (h : Reach step FreshName Initial s) :
    (∀ a s' S, s.removes a = some S → step s a = some s' → ∀ name T,
      s.pServerNameLookup.lookup name = some T → T ≠ S →
        s'.pServerNameLookup.lookup name = some T) ∧
    ∀ S < s.serverCount, (s.servers S).evicted = false → s.Registered S := by
  obtain ⟨hstale, -, hfind⟩ := reach_names (fun _ _ hg => hg) h
  refine ⟨?_, hfind⟩
  intro a s' S ha hs name T hname hne
  apply entry_survives (reach_bounded h) hstale (step_case hs) hname
  rw [ha]
  intro heq
  exact hne (Option.some.inj heq).symm

/-- A refresh registers pod a and starts its thread. -/
def registerA (c : Nat) : List Action :=
  [.refresh, .caller c (.register "a" "10.0.0.1" "http://10.0.0.1:80/janus"),
    .caller c .startTest, .caller c .create, .caller c .unlock, .caller c .refreshed]

/-- The thread of pod a, `t`, gets no session, and evicts its server. -/
def connectFails (t : Nat) : List Action :=
  [.thread t (.outer true), .thread t .request, .thread t (.created 0 true),
    .thread t .deleteEntry, .thread t .testEvicted, .thread t .remove]

/-- Pod a is collected by a second refresh, `c`; then it evicts itself. -/
def evictedTwice (c t : Nat) : List Action :=
  [.refresh, .caller c (.collect "a"), .caller c .unlock] ++ connectFails t

/-- The second refresh gets to the removal of the server that it collected. -/
def stopCollected (c : Nat) : List Action :=
  [.caller c .evict, .caller c .stopTest, .caller c .testEvicted]

/-- Another pod is there before, and stays. -/
def otherPod : List Action :=
  [.refresh, .caller 0 (.register "b" "10.0.0.2" "http://10.0.0.2:80/janus"),
    .caller 0 .startTest, .caller 0 .create, .caller 0 .unlock, .caller 0 .refreshed]

theorem removal_by_name_otherPod :
    ∃ s s', s.removes (.caller 2 .remove) = some 1 ∧ step s (.caller 2 .remove) = some s' ∧
      s'.pServerNameLookup.lookup "b" = some 0 := by
  have h0 : Initial { podServerFailMax := 1 } := ⟨1, rfl⟩
  obtain ⟨s, hs, hp⟩ := Transition.reach_of_exec step FreshName h0
    ([.loaded] ++ otherPod ++ registerA 1 ++ evictedTwice 2 1 ++ stopCollected 2)
    (fun s => s.removes (.caller 2 .remove) = some 1 ∧
      s.pServerNameLookup.lookup "b" = some 0 ∧ (step s (.caller 2 .remove)).isSome) (by decide)
  obtain ⟨hremoves, hfind, hremove⟩ := of_decide_eq_true hp
  obtain ⟨s', hs'⟩ := Option.isSome_iff_exists.mp hremove
  have hkept := (removal_by_name hs).1 _ s' 1 hremoves hs' "b" 0 hfind (by decide)
  exact ⟨s, s', hremoves, hs', hkept⟩

/-- The second refresh removes the server that has been registered anew. -/
theorem removal_takes_another :
    ¬ ∀ s, Reach step Always Initial s →
      (∀ a s' S, s.removes a = some S → step s a = some s' → ∀ name T,
        s.pServerNameLookup.lookup name = some T → T ≠ S →
          s'.pServerNameLookup.lookup name = some T) ∧
      ∀ S < s.serverCount, (s.servers S).evicted = false → s.Registered S := by
  intro hclaim
  have h0 : Initial { podServerFailMax := 1 } := ⟨1, rfl⟩
  obtain ⟨s, hs, hp⟩ := Transition.reach_of_exec step Always h0
    ([.loaded] ++ registerA 0 ++ evictedTwice 1 0 ++ registerA 2 ++ stopCollected 1)
    (fun s => s.removes (.caller 1 .remove) = some 0 ∧
      s.pServerNameLookup.lookup "a" = some 1 ∧
      ((step s (.caller 1 .remove)).map fun s' => s'.pServerNameLookup.lookup "a") = some none)
    (by decide)
  obtain ⟨hremoves, hfind, hgone⟩ := of_decide_eq_true hp
  obtain ⟨s', hs', hlookup⟩ := Option.map_eq_some_iff.mp hgone
  have hkept := (hclaim s hs).1 _ s' 0 hremoves hs' "a" 1 hfind (by decide)
  rw [hlookup] at hkept
  cases hkept

/-! ## Legs on the servers that a refresh stops -/

/-- The caller is a refresh that has collected the server, or is stopping it. -/
def Caller.evicts (x : Caller) (S : Nat) : Bool :=
  x.evictList.contains S || (x.inRefresh && x.pc.stop == some S)

theorem Caller.evicts_iff {x : Caller} {S : Nat} :
    x.evicts S = true ↔ S ∈ x.evictList ∨ x.inRefresh = true ∧ x.pc.stop = some S := by
  simp [Caller.evicts]

/-- No leg is established on a server that a refresh has collected. -/
def Idle (s : State) : Prop :=
  ∀ x ∈ s.callers, ∀ S, x.evicts S = true → ∀ leg ∈ s.legs, leg.pc ≠ .established S

/-- A refresh collects a server only when no leg is established on it, and no leg becomes
    established on a server between its collection and the end of its stop. -/
def CollectedIdle (s : State) : Action → Prop
  | .caller _ (.collect name) =>
      ∀ leg ∈ s.legs, ∀ S ∈ s.pServerNameLookup.lookup name, leg.pc ≠ .established S
  | .leg l .countGlobal =>
      ∀ leg ∈ s.legs[l]?, ∀ S ∈ leg.pc.server, ∀ x ∈ s.callers, x.evicts S = false
  | _ => True

instance (s : State) (a : Action) : Decidable (CollectedIdle s a) := by
  cases a with
  | caller c action =>
      cases action with
      | collect name =>
          exact inferInstanceAs (Decidable (∀ leg ∈ s.legs,
            ∀ S ∈ s.pServerNameLookup.lookup name, leg.pc ≠ .established S))
      | _ => exact isTrue trivial
  | leg l action =>
      cases action with
      | countGlobal =>
          exact inferInstanceAs (Decidable (∀ leg ∈ s.legs[l]?, ∀ S ∈ leg.pc.server,
            ∀ x ∈ s.callers, x.evicts S = false))
      | _ => exact isTrue trivial
  | _ => exact isTrue trivial

theorem Caller.evicts_started {x : Caller} {S : Nat} (h : x.started.evicts S = true) :
    x.evicts S = true := by
  rw [Caller.evicts_iff] at h ⊢
  refine .inl (h.resolve_right ?_)
  rintro ⟨-, hstop⟩
  unfold Caller.started at hstop
  split at hstop <;> cases hstop

theorem Caller.evicts_stopped {x : Caller} {S : Nat} (h : x.stopped.evicts S = true) :
    x.evicts S = true := by
  rw [Caller.evicts_iff] at h ⊢
  refine .inl (h.resolve_right ?_)
  rintro ⟨-, hstop⟩
  unfold Caller.stopped at hstop
  split at hstop <;> cases hstop

/-- A caller whose list does not grow, and that stops no other server than before. -/
theorem Caller.evicts_mono {x x' : Caller} {S : Nat} (h : x'.evicts S = true)
    (hlist : x'.evictList = x.evictList) (hrefresh : x'.inRefresh = x.inRefresh)
    (hstop : ∀ T, x'.pc.stop = some T → x.pc.stop = some T) : x.evicts S = true := by
  rw [Caller.evicts_iff, hlist, hrefresh] at h
  rw [Caller.evicts_iff]
  exact h.imp_right (And.imp_right (hstop S))

/-- A refresh comes to evict a server only by collecting it. -/
theorem CallerEffect.evicts {s s' : State} {c : Nat} {x : Caller} {a : CallerAction}
    (h : CallerEffect s c x a s') : ∃ x', s'.callers = s.callers.set c x' ∧
      ∀ S, x'.evicts S = true → x.evicts S = true ∨
        ∃ name, a = .collect name ∧ s.pServerNameLookup.lookup name = some S := by
  cases h with
  | collected S name hpc hfind hdynamic hcalls =>
      refine ⟨_, rfl, fun T hT => ?_⟩
      rcases Caller.evicts_iff.mp hT with hlist | hstop
      · rcases List.mem_append.mp hlist with hold | hnew
        · exact .inl (Caller.evicts_iff.mpr (.inl hold))
        · rw [List.mem_singleton.mp hnew]
          exact .inr ⟨name, rfl, hfind⟩
      · exact .inl (Caller.evicts_iff.mpr (.inr hstop))
  | evicting S evictList hpc hlist =>
      -- the server goes from the list to the stop that is running
      refine ⟨_, rfl, fun T hT => .inl ?_⟩
      rw [Caller.evicts_iff, hlist]
      rcases Caller.evicts_iff.mp hT with hmem | ⟨-, hstop⟩
      · exact .inl (List.mem_cons_of_mem _ hmem)
      · cases hstop
        exact .inl List.mem_cons_self
  | startRefused => exact ⟨_, rfl, fun T hT => .inl (Caller.evicts_started hT)⟩
  | created => exact ⟨_, rfl, fun T hT => .inl (Caller.evicts_started hT)⟩
  | flagsCleared | notEvicted => exact ⟨_, rfl, fun T hT => .inl (Caller.evicts_stopped hT)⟩
  | removed S hpc hmutex =>
      refine ⟨x.stopped, ?_, fun T hT => .inl (Caller.evicts_stopped hT)⟩
      exact congrArg (List.set · c x.stopped) (removed_lists s S).1
  | updated | seen => exact ⟨_, rfl, fun T hT => .inl hT⟩
  | registered | restarting | unlocked | refreshed | startPassed =>
      refine ⟨_, rfl, fun T hT => .inl (Caller.evicts_mono hT rfl rfl ?_)⟩
      rintro U ⟨⟩
  | terminated S hpc | notStoppable S hpc | threadRead S t hpc | joined S t thread hpc
  | threadCleared S hpc | toRemove S hpc =>
      refine ⟨_, rfl, fun T hT => .inl (Caller.evicts_mono hT rfl rfl ?_)⟩
      rw [hpc]
      exact fun _ => id

/-- A leg becomes established only by its last step in `channel_on_init`. -/
theorem LegEffect.establishes {s s' : State} {l : Nat} {leg : Leg} {a : LegAction}
    (h : LegEffect s l leg a s') : ∃ leg', s'.legs = s.legs.set l leg' ∧
      ∀ S, leg'.pc = .established S → a = .countGlobal ∧ leg.pc = .counted S := by
  cases h with
  | established S hpc =>
      refine ⟨_, rfl, fun T hT => ⟨rfl, ?_⟩⟩
      cases hT
      exact hpc
  | _ => exact ⟨_, rfl, nofun⟩

theorem step_idle {s s' : State} {a : Action} (hi : Idle s) (hg : CollectedIdle s a)
    (h : StepCase s s' a) : Idle s' := by
  have hcall : ∀ x : Caller, (∀ S, x.evicts S = false) → Idle (s.call x) := by
    intro x hx y hy S hS
    rcases List.mem_append.mp hy with hold | hnew
    · exact hi y hold S hS
    · rw [List.mem_singleton.mp hnew, hx S] at hS
      cases hS
  cases h with
  | loads name T rest hloading hfind hstate =>
      subst hstate
      exact hcall _ fun _ => rfl
  | enables name T hloading hfind hstate | disables name T hloading hfind hstate =>
      subst hstate
      exact hcall _ fun _ => rfl
  | refreshes hloading hmutex hstate =>
      subst hstate
      exact hcall _ fun _ => rfl
  | dials T hstate =>
      subst hstate
      intro x hx S hS leg hleg
      rcases List.mem_append.mp hleg with hold | hnew
      · exact hi x hx S hS leg hold
      · rw [List.mem_singleton.mp hnew]
        exact nofun
  | thread t thread action ht heffect =>
      have hframe := heffect.frame
      rw [Idle, hframe.callers, hframe.legs]
      exact hi
  | caller c x action hc heffect =>
      -- a server that the caller did not evict before has just been collected
      obtain ⟨x', hset, hevicts⟩ := heffect.evicts
      rw [Idle, hset, heffect.frame.legs]
      intro y hy S hS leg hleg
      rcases List.mem_or_eq_of_mem_set hy with hold | rfl
      · exact hi y hold S hS leg hleg
      · rcases hevicts S hS with hold | ⟨name, rfl, hfind⟩
        · exact hi x (List.mem_of_getElem? hc) S hold leg hleg
        · exact hg leg hleg S hfind
  | leg l leg action hl heffect =>
      obtain ⟨leg', hset, hestablished⟩ := heffect.establishes
      rw [Idle, heffect.frame.callers, hset]
      intro x hx S hS other hother hpc
      rcases List.mem_or_eq_of_mem_set hother with hold | rfl
      · exact hi x hx S hS other hold hpc
      · -- the leg takes its last step, which the guard allows only if nobody evicts `S`
        obtain ⟨rfl, hcounted⟩ := hestablished S hpc
        have hserver : S ∈ leg.pc.server := by
          rw [hcounted]
          rfl
        rw [hg leg hl S hserver x hx] at hS
        cases hS
  | added | loaded => subst_vars; exact hi

/-- Thread `t` gets session 7. -/
def connects (t : Nat) : List Action :=
  [.thread t (.outer true), .thread t .request, .thread t (.created 7 true)]

/-- Leg `l` is dialled to server `S`, and its `channel_on_init` succeeds. -/
def establishes (l S : Nat) : List Action :=
  [.dial S, .leg l .initLookup, .leg l (.attach true), .leg l .countServer, .leg l .countGlobal]

end ModJanus.Registry
