/-
  ModJanus.Server.RegistryThread

  `servers_registry_run`, the thread that refreshes the registry again and again.

  `refresh_usec` is an `unsigned int`: the microseconds of the configured interval are
  computed in 32 bits.  The thread sleeps that long between two refreshes; how long a
  refresh takes, and when `serversStopRegistry` asks the thread to end, is open.
-/
import ModJanus.Lib.Transition

namespace ModJanus.Registry.Refresher

open Transition (Reach Always exec exec_cons_eq_some exec_count_le exec_invariant)

/-! ## The thread -/

/-- The interval of `registry-refresh-sec`, in seconds. -/
def intervalSec (registryRefreshSec : UInt32) : UInt32 :=
  if registryRefreshSec ≠ 0 then registryRefreshSec else 30

/-- `refresh_usec`. -/
def refreshUsec (registryRefreshSec : UInt32) : UInt32 := intervalSec registryRefreshSec * 1000000

/-- How long `switch_yield` sleeps between two refreshes, in microseconds. -/
def pause (registryRefreshSec : UInt32) : Int := (refreshUsec registryRefreshSec).toNat

inductive Pc where
  /-- Before a call of `serversRegistryRefresh`. -/
  | due
  | refreshing
  /-- The test of the loop. -/
  | test
  /-- In `switch_yield`. -/
  | sleeping
  | returned
  deriving DecidableEq, Repr

structure State where
  headlessServiceUrl : String
  registryRefreshSec : UInt32
  now : Int := 0
  /-- When the thread wakes, or woke last. -/
  wakes : Int := 0
  registryTerminating : Bool := false
  pc : Pc := .due
  deriving DecidableEq, Repr

inductive Event where
  | refresh
  | refreshed
  | loop
  | wake
  /-- `serversStopRegistry`. -/
  | stop
  deriving DecidableEq, Repr

/-- An event, and what the clock says then. -/
structure Action where
  now : Int
  event : Event
  deriving DecidableEq, Repr

def State.step (t : State) (a : Action) : Option State :=
  if t.now ≤ a.now then
    let t := { t with now := a.now }
    match t.pc, a.event with
    | .due, .refresh => some { t with pc := .refreshing }
    | .refreshing, .refreshed => some { t with pc := .test }
    | .test, .loop =>
        if t.registryTerminating then some { t with pc := .returned }
        else some { t with pc := .sleeping, wakes := a.now + pause t.registryRefreshSec }
    | .sleeping, .wake =>
        if t.wakes ≤ a.now then
          some { t with
            pc := if t.registryTerminating || t.headlessServiceUrl = "" then .returned else .due }
        else none
    | _, .stop => some { t with registryTerminating := true }
    | _, _ => none
  else none

/-- `serversStartRegistry` has just created the thread. -/
def Initial (registryRefreshSec : UInt32) (t : State) : Prop :=
  t.registryRefreshSec = registryRefreshSec ∧ t.pc = .due ∧ t.headlessServiceUrl ≠ "" ∧
    t.registryTerminating = false

/-- A refresh begins. -/
def Action.isRefresh (a : Action) : Bool := a.event = .refresh

/-- In every run of the thread the refreshes keep the configured interval: `n` of them take
    `n - 1` intervals. -/
def KeepsInterval (registryRefreshSec : UInt32) : Prop :=
  ∀ t t' as, Reach State.step Always (Initial registryRefreshSec) t →
    exec State.step Always t as = some t' →
    as.countP Action.isRefresh * ((intervalSec registryRefreshSec).toNat * 1000000 : Int) ≤
      t'.now - t.now + (intervalSec registryRefreshSec).toNat * 1000000

/-! ## What a step can do -/

/-- The steps of the thread, at their clock reading. -/
inductive StepCase (t : State) (a : Action) : State → Prop where
  | refresh (ha : a.event = .refresh) (hpc : t.pc = .due) :
      StepCase t a { t with now := a.now, pc := .refreshing }
  | refreshed (ha : a.event = .refreshed) (hpc : t.pc = .refreshing) :
      StepCase t a { t with now := a.now, pc := .test }
  | left (ha : a.event = .loop) (hpc : t.pc = .test) :
      StepCase t a { t with now := a.now, pc := .returned }
  | sleeps (ha : a.event = .loop) (hpc : t.pc = .test) :
      StepCase t a { t with
        now := a.now, pc := .sleeping, wakes := a.now + pause t.registryRefreshSec }
  | wakes (pc : Pc) (ha : a.event = .wake) (hpc : t.pc = .sleeping) (hwakes : t.wakes ≤ a.now)
      (hnext : pc = .returned ∨ pc = .due) : StepCase t a { t with now := a.now, pc := pc }
  | stopped (ha : a.event = .stop) :
      StepCase t a { t with now := a.now, registryTerminating := true }

theorem step_case {t t' : State} {a : Action} (h : t.step a = some t') :
    t.now ≤ a.now ∧ StepCase t a t' := by
  unfold State.step at h
  split at h
  · next hnow =>
      refine ⟨hnow, ?_⟩
      dsimp only at h
      split at h
      · next hpc ha =>
          cases h
          exact .refresh ha hpc
      · next hpc ha =>
          cases h
          exact .refreshed ha hpc
      · next hpc ha =>
          split at h <;> cases h
          · exact .left ha hpc
          · exact .sleeps ha hpc
      · next hpc ha =>
          split at h <;> cases h
          next hwakes =>
            refine .wakes _ ha hpc hwakes ?_
            split
            · exact .inl rfl
            · exact .inr rfl
      · next ha =>
          cases h
          exact .stopped ha
      · cases h
  · cases h

/-! ## How long the thread sleeps -/

/-- The product is computed in 32 bits. -/
theorem refreshUsec_toNat (registryRefreshSec : UInt32) : (refreshUsec registryRefreshSec).toNat =
    (intervalSec registryRefreshSec).toNat * 1000000 % 4294967296 := by
  have hmillion : UInt32.toNat 1000000 = 1000000 := rfl
  have hmul := UInt32.toNat_mul (intervalSec registryRefreshSec) 1000000
  rw [hmillion] at hmul
  exact hmul

/-- The pause is the configured interval as long as its microseconds fit 32 bits. -/
theorem pause_eq_iff (registryRefreshSec : UInt32) :
    pause registryRefreshSec = (intervalSec registryRefreshSec).toNat * 1000000 ↔
      registryRefreshSec.toNat ≤ 4294 := by
  have hinterval : (intervalSec registryRefreshSec).toNat =
      if registryRefreshSec.toNat = 0 then 30 else registryRefreshSec.toNat := by
    unfold intervalSec
    by_cases hzero : registryRefreshSec = 0
    · subst hzero
      rfl
    · have hne : registryRefreshSec.toNat ≠ 0 := fun h => hzero (UInt32.toNat_inj.mp h)
      rw [if_pos hzero, if_neg hne]
  unfold pause
  rw [refreshUsec_toNat]
  split at hinterval
  · omega
  · omega

theorem pause_le (registryRefreshSec : UInt32) :
    pause registryRefreshSec ≤ (intervalSec registryRefreshSec).toNat * 1000000 := by
  have hmul := refreshUsec_toNat registryRefreshSec
  unfold pause
  omega

theorem pause_nonneg (registryRefreshSec : UInt32) : 0 ≤ pause registryRefreshSec :=
  Int.natCast_nonneg _

/-! ## Refreshes are a pause apart -/

/-- The interval is the configured one, and the thread does not sleep beyond a pause. -/
structure Paced (registryRefreshSec : UInt32) (t : State) : Prop where
  interval : t.registryRefreshSec = registryRefreshSec
  wakes : t.pc = .sleeping → t.wakes ≤ t.now + pause registryRefreshSec

/-- The earliest time at which the next refresh may begin. -/
def earliest (registryRefreshSec : UInt32) (t : State) : Int :=
  match t.pc with
  | .due => t.now
  | .sleeping => max t.now t.wakes
  | .refreshing | .test | .returned => t.now + pause registryRefreshSec

section Step

variable {registryRefreshSec : UInt32} {t t' : State} {a : Action}

theorem paced_step (hi : Paced registryRefreshSec t) (h : t.step a = some t') :
    Paced registryRefreshSec t' := by
  obtain ⟨hnow, hcase⟩ := step_case h
  cases hcase with
  | refresh ha hpc | refreshed ha hpc | left ha hpc => exact ⟨hi.interval, nofun⟩
  | sleeps ha hpc =>
      refine ⟨hi.interval, fun _ => Int.le_of_eq ?_⟩
      rw [hi.interval]
  | wakes pc ha hpc hwakes hnext =>
      refine ⟨hi.interval, ?_⟩
      rcases hnext with rfl | rfl
      · exact nofun
      · exact nofun
  | stopped ha =>
      refine ⟨hi.interval, fun hpc => ?_⟩
      have hwakes := hi.wakes hpc
      show t.wakes ≤ a.now + _
      omega

/-- A refresh puts the next one off by the pause, and no step brings it nearer. -/
theorem earliest_step (hi : Paced registryRefreshSec t) (h : t.step a = some t') :
    earliest registryRefreshSec t + (if a.isRefresh then pause registryRefreshSec else 0) ≤
      earliest registryRefreshSec t' := by
  obtain ⟨hnow, hcase⟩ := step_case h
  have hother : ∀ event, a.event = event → event ≠ .refresh → a.isRefresh = false := by
    rintro event rfl hne
    exact decide_eq_false hne
  have hpause := pause_nonneg registryRefreshSec
  cases hcase with
  | refresh ha hpc =>
      have hrefresh : a.isRefresh = true := decide_eq_true ha
      rw [hrefresh, if_pos rfl, earliest, hpc]
      show t.now + pause registryRefreshSec ≤ a.now + pause registryRefreshSec
      omega
  | refreshed ha hpc | left ha hpc =>
      rw [hother _ ha nofun, if_neg Bool.false_ne_true, earliest, hpc]
      show t.now + pause registryRefreshSec + 0 ≤ a.now + pause registryRefreshSec
      omega
  | sleeps ha hpc =>
      rw [hother _ ha nofun, if_neg Bool.false_ne_true, earliest, hpc, hi.interval]
      show t.now + pause registryRefreshSec + 0 ≤ max a.now (a.now + pause registryRefreshSec)
      omega
  | wakes pc ha hpc hwakes hnext =>
      rw [hother _ ha nofun, if_neg Bool.false_ne_true, earliest, hpc]
      rcases hnext with rfl | rfl
      · show max t.now t.wakes + 0 ≤ a.now + pause registryRefreshSec
        omega
      · show max t.now t.wakes + 0 ≤ a.now
        omega
  | stopped ha =>
      rw [hother _ ha nofun, if_neg Bool.false_ne_true, earliest, earliest]
      cases t.pc with
      | due =>
          show t.now + 0 ≤ a.now
          omega
      | sleeping =>
          show max t.now t.wakes + 0 ≤ max a.now t.wakes
          omega
      | refreshing | test | returned =>
          show t.now + pause registryRefreshSec + 0 ≤ a.now + pause registryRefreshSec
          omega

theorem now_le_earliest : t.now ≤ earliest registryRefreshSec t := by
  have hpause := pause_nonneg registryRefreshSec
  unfold earliest
  split <;> omega

theorem Paced.earliest_le (hi : Paced registryRefreshSec t) :
    earliest registryRefreshSec t ≤ t.now + pause registryRefreshSec := by
  have hpause := pause_nonneg registryRefreshSec
  unfold earliest
  split
  · omega
  · next hpc =>
      have hwakes := hi.wakes hpc
      omega
  · omega
  · omega
  · omega

end Step

/-! ## The configured interval -/

/-- In every run `n` refreshes take `n - 1` pauses. -/
theorem refreshes_paced {registryRefreshSec : UInt32} {t t' : State} {as : List Action}
    (h : Reach State.step Always (Initial registryRefreshSec) t)
    (hrun : exec State.step Always t as = some t') :
    as.countP Action.isRefresh * pause registryRefreshSec ≤
      t'.now - t.now + pause registryRefreshSec := by
  have hi : Paced registryRefreshSec t := by
    refine h.invariant ?_ fun s a s' hi _ hstep => paced_step hi hstep
    rintro s ⟨hinterval, hpc, -, -⟩
    refine ⟨hinterval, fun hsleeping => ?_⟩
    rw [hpc] at hsleeping
    cases hsleeping
  have hi' : Paced registryRefreshSec t' :=
    exec_invariant (fun _ _ _ hi _ hstep => paced_step hi hstep) hi hrun
  have hcount : earliest registryRefreshSec t +
      as.countP Action.isRefresh * pause registryRefreshSec ≤ earliest registryRefreshSec t' :=
    exec_count_le (I := Paced registryRefreshSec) (fun _ _ _ hi _ hstep => paced_step hi hstep)
      (fun _ _ _ hi _ hstep => earliest_step hi hstep) hi hrun
  have hfrom : t.now ≤ earliest registryRefreshSec t := now_le_earliest
  have hto := hi'.earliest_le
  omega

/-- The thread has just been created. -/
def created (registryRefreshSec : UInt32) : State where
  headlessServiceUrl := "http://janus-headless:8088/janus"
  registryRefreshSec := registryRefreshSec

/-- Two refreshes, as soon after each other as the thread can. -/
def twoRefreshes (pause : Int) : List Action :=
  [⟨0, .refresh⟩, ⟨0, .refreshed⟩, ⟨0, .loop⟩, ⟨pause, .wake⟩, ⟨pause, .refresh⟩]

theorem twoRefreshes_run (registryRefreshSec : UInt32) :
    exec State.step Always (created registryRefreshSec)
        (twoRefreshes (pause registryRefreshSec)) =
      some { created registryRefreshSec with
        now := pause registryRefreshSec
        wakes := 0 + pause registryRefreshSec
        pc := .refreshing } := by
  have hpause := pause_nonneg registryRefreshSec
  have hwakes : 0 + pause registryRefreshSec ≤ pause registryRefreshSec := by omega
  refine exec_cons_eq_some.mpr ⟨trivial, _, rfl, ?_⟩
  refine exec_cons_eq_some.mpr ⟨trivial, _, rfl, ?_⟩
  refine exec_cons_eq_some.mpr ⟨trivial, _, rfl, ?_⟩
  refine exec_cons_eq_some.mpr ⟨trivial, _, (if_pos hpause).trans (if_pos hwakes), ?_⟩
  exact exec_cons_eq_some.mpr ⟨trivial, _, if_pos (Int.le_refl _), rfl⟩

/-- The registry is refreshed at the configured interval, and no more often, exactly when
    the interval is below 4295 seconds: the microseconds of a longer one are cut to 32 bits. -/
theorem keepsInterval_iff (registryRefreshSec : UInt32) :
    KeepsInterval registryRefreshSec ↔ registryRefreshSec.toNat ≤ 4294 := by
  rw [← pause_eq_iff]
  constructor
  · intro hkeeps
    have h0 : Initial registryRefreshSec (created registryRefreshSec) :=
      ⟨rfl, rfl, by simp [created], rfl⟩
    have hle := pause_le registryRefreshSec
    have htwo : 2 * _ ≤ pause registryRefreshSec - 0 + _ :=
      hkeeps _ _ _ (.start h0) (twoRefreshes_run registryRefreshSec)
    omega
  · intro hpause t t' as h hrun
    rw [← hpause]
    exact refreshes_paced h hrun

end ModJanus.Registry.Refresher
