/-
  ModJanus.Server.Counters

  `globals.callsInProgress` and `server_t.callsInProgress` against the legs.

  `channel_on_init` counts a leg at its end, in two sections; `channel_on_hangup`
  uncounts it in two more, if it finds the server.  It does so for a leg that was
  never counted too, and it counts a leg neither down nor out when the server is not
  found.  The thread starts the counter of its server anew with each session.
-/
import ModJanus.Lib.Census
import ModJanus.Server.Lookup
import ModJanus.Server.Senders

namespace ModJanus.Servers

open Transition (Reach Always)
open Census (weight weight_pos weight_neg weight_le_countP countP_set countP_concat countP_balance)

variable {s s' : State} {a : Action} {l : Nat} {c c' : Call} {action : CallAction}

/-! ## What is counted -/

/-- `channel_on_init` returned success and `channel_on_hangup` has not returned. -/
def Call.inProgress (c : Call) : Bool :=
  match c.pc with
  | .gone => false
  | _ => c.established

theorem Call.inProgress_of_not (h : c.established = false) : c.inProgress = false := by
  unfold Call.inProgress
  split
  · rfl
  · exact h

/-- The leg belongs to session `id` of server `S`. -/
def Call.belongsTo (S : Nat) (id : JanusId) (c : Call) : Bool :=
  c.home = some S && c.serverId == id

/-- Counted by its server, and not yet by `globals`. -/
def Call.entering (c : Call) : Bool :=
  match c.pc with
  | .counted _ => true
  | _ => false

/-- Uncounted by its server, and not yet by `globals`. -/
def Call.leaving (c : Call) : Bool :=
  match c.pc with
  | .hangupUncounted _ => c.established
  | _ => false

/-- The leg has been through the section of `channel_on_init` that counts it for its
    server and not through the one of `channel_on_hangup` that uncounts it. -/
def Call.counted (c : Call) : Bool :=
  match c.pc with
  | .counted _ | .established => true
  | .hangupFound _ | .hangupDeleted _ => c.established
  | _ => false

def Call.countedFor (S : Nat) (id : JanusId) (c : Call) : Bool := c.counted && c.belongsTo S id

/-! ## The condition -/

/-- The server that `channel_on_hangup` has found. -/
def CallPc.hangupServer : CallPc → Option Nat
  | .hangupFound S | .hangupDeleted S | .hangupUncounted S => some S
  | _ => none

/-- A leg that is in progress finds its server when it hangs up; a counter that is not
    0 is decremented only for a leg that it counts; and a session of a server begins
    and goes on with the legs that belong to it. -/
def CountsApply (s : State) : Action → Prop
  | .call l .hangupLookup =>
      ∀ c ∈ s.calls[l]?, c.established → hashFind s.serverIdLookup c.serverId = c.home
  | .call l .countServer =>
      ∀ c ∈ s.calls[l]?, ∀ S ∈ c.home,
        (s.servers S).threadServerId = 0 ∨ (s.servers S).threadServerId = c.serverId
  | .call l .uncountServer =>
      ∀ c ∈ s.calls[l]?, ∀ S ∈ c.pc.hangupServer,
        (s.servers S).callsInProgress = 0 ∨ (s.servers S).threadServerId = 0 ∨
          (c.established ∧ (s.servers S).threadServerId = c.serverId)
  | .call l .uncountGlobal =>
      ∀ c ∈ s.calls[l]?, s.callsInProgress = 0 ∨ c.established
  | .server S (.thread (.create id _)) => ∀ c ∈ s.calls, c.countedFor S id = false
  | _ => True

instance (s : State) (a : Action) : Decidable (CountsApply s a) := by
  cases a with
  | call l action => cases action <;> unfold CountsApply <;> infer_instance
  | server S action =>
      cases action with
      | thread action => cases action <;> unfold CountsApply <;> infer_instance
      | _ => unfold CountsApply; infer_instance
  | _ => unfold CountsApply; infer_instance

/-! ## Legs -/

/-- `channel_on_init` has not returned success. -/
def CallPc.beforeSuccess : CallPc → Bool
  | .resolved _ | .ready | .found _ | .attached _ | .inserted _ | .roomReady _ | .counted _
  | .failed => true
  | _ => false

/-- What a leg records of its own past. -/
structure Call.Ok (c : Call) : Prop where
  notYet : c.pc.beforeSuccess = true → c.established = false
  success : c.pc = .established → c.established = true
  home : c.established = true → c.home.isSome
  /-- A leg in progress hangs up at its own server. -/
  hangup : c.established = true → ∀ S, c.pc.hangupServer = some S → c.home = some S

theorem CallEffect.ok (hhome : c.AtHome) (hok : c.Ok) (hc : s.calls[l]? = some c)
    (hg : CountsApply s (.call l action)) (h : CallEffect s l c action s') :
    ∃ c', s'.calls = s.calls.set l c' ∧ c'.Ok := by
  cases h with
  | established S hpc =>
      have hS : c.home = some S := hhome S (by rw [hpc]; rfl)
      exact ⟨_, rfl, nofun, fun _ => rfl, fun _ => by simp [hS], nofun⟩
  | hangupFound S hpc hfind =>
      refine ⟨_, rfl, nofun, nofun, hok.home, ?_⟩
      intro hestablished T hT
      -- the lookup of an established leg finds the server that it was attached to
      have hserver := hg c hc hestablished
      rw [hfind] at hserver
      rw [← hserver]
      exact hT
  | hangupDeleted S hpc =>
      refine ⟨_, rfl, nofun, nofun, hok.home, ?_⟩
      intro hestablished T hT
      exact hok.hangup hestablished T (by rw [hpc]; exact hT)
  | hangupUncounted S hpc =>
      refine ⟨_, rfl, nofun, nofun, hok.home, ?_⟩
      intro hestablished T hT
      exact hok.hangup hestablished T (by rw [hpc]; exact hT)
  | hangupNotFound hpc hfind => exact ⟨_, rfl, nofun, nofun, hok.home, nofun⟩
  | gone S hpc => exact ⟨_, rfl, nofun, nofun, hok.home, nofun⟩
  | barred S hpc => exact ⟨_, rfl, nofun, nofun, hok.home, nofun⟩
  | dialled S hpc | found S hpc hfind | attachFailed S hpc | attached S hpc senderId
  | inserted S hpc | insertFailed S hpc | roomReady S hpc | roomFailed S hpc | counted S hpc =>
      have hnot : c.established = false := hok.notYet (by rw [hpc]; rfl)
      exact ⟨_, rfl, fun _ => hnot, nofun, by simp [hnot], by simp [hnot]⟩
  | notFound hpc =>
      have hnot : c.established = false := hok.notYet (by rw [hpc]; rfl)
      exact ⟨_, rfl, fun _ => hnot, nofun, by simp [hnot], by simp [hnot]⟩

/-- A leg in progress does not miss its server. -/
theorem Call.Ok.not_of_notFound (hok : c.Ok) (hc : s.calls[l]? = some c)
    (hg : CountsApply s (.call l .hangupLookup))
    (hfind : hashFind s.serverIdLookup c.serverId = none) : c.established = false := by
  by_contra hestablished
  rw [Bool.not_eq_false] at hestablished
  have hserver := hg c hc hestablished
  have hsome := hok.home hestablished
  rw [← hserver, hfind] at hsome
  cases hsome

theorem step_ok (hhome : HomeInv s) (hok : ∀ c ∈ s.calls, c.Ok) (hg : CountsApply s a)
    (h : step s a = some s') : ∀ c ∈ s'.calls, c.Ok := by
  refine (step_case h).everyCall hok (fun _ => ⟨fun _ => rfl, nofun, nofun, nofun⟩) ?_
  intro l c action haction hc heffect
  have hmem := List.mem_of_getElem? hc
  subst haction
  exact heffect.ok (hhome c hmem) (hok c hmem) hc hg

/-! ## The counter of the module -/

def GlobalInv (s : State) : Prop := s.callsInProgress = s.calls.countP Call.inProgress

theorem GlobalInv.move (hi : GlobalInv s) (hc : s.calls[l]? = some c)
    (hcalls : s'.calls = s.calls.set l c')
    (hweight : s'.callsInProgress + weight Call.inProgress c =
      s.callsInProgress + weight Call.inProgress c') : GlobalInv s' := by
  have hcount := countP_set (p := Call.inProgress) hc c'
  unfold GlobalInv at hi ⊢
  rw [hcalls]
  omega

/-- The leg moves without beginning or ending to be in progress. -/
theorem GlobalInv.same (hi : GlobalInv s) (hc : s.calls[l]? = some c)
    (hcalls : s'.calls = s.calls.set l c') (hsame : s'.callsInProgress = s.callsInProgress)
    (hweight : c'.inProgress = c.inProgress) : GlobalInv s' := by
  refine hi.move hc hcalls ?_
  unfold weight
  rw [hsame, hweight]

theorem callStep_globalInv (hok : c.Ok) (hi : GlobalInv s) (hc : s.calls[l]? = some c)
    (hg : CountsApply s (.call l action)) (h : CallEffect s l c action s') : GlobalInv s' := by
  cases h with
  | established S hpc =>
      refine hi.move hc rfl ?_
      -- the leg begins to be in progress with the section that counts it
      have hbefore := c.inProgress_of_not (hok.notYet (by rw [hpc]; rfl))
      rw [weight_neg hbefore, weight_pos rfl]
  | gone S hpc =>
      refine hi.move hc rfl ?_
      have hafter : ({ c with pc := .gone } : Call).inProgress = false := by
        simp [Call.inProgress]
      rw [weight_neg hafter]
      cases hestablished : c.established with
      | true =>
          -- the leg is counted, so the counter is not 0
          have hbefore : c.inProgress = true := by simp [Call.inProgress, hestablished, hpc]
          have hle := weight_le_countP (p := Call.inProgress) hc
          rw [weight_pos hbefore] at hle ⊢
          unfold GlobalInv at hi
          simp only
          omega
      | false =>
          -- a leg that was never counted finds the counter at 0
          have hbefore := c.inProgress_of_not hestablished
          have hzero : s.callsInProgress = 0 := by
            refine (hg c hc).resolve_right ?_
            simp [hestablished]
          rw [weight_neg hbefore]
          simp only
          omega
  | hangupNotFound hpc hfind =>
      refine hi.same hc rfl rfl ?_
      rw [c.inProgress_of_not (hok.not_of_notFound hc hg hfind)]
      rfl
  | barred S hpc =>
      have hnot : c.established = false := hok.notYet (by rw [hpc]; rfl)
      refine hi.same hc rfl rfl ?_
      rw [c.inProgress_of_not hnot]
      rfl
  | hangupFound S hpc hfind =>
      refine hi.same hc rfl rfl ?_
      rcases hpc with hpc | hpc <;> simp [Call.inProgress, hpc]
  | dialled S hpc | found S hpc hfind | attachFailed S hpc | attached S hpc senderId
  | inserted S hpc | insertFailed S hpc | roomReady S hpc | roomFailed S hpc | counted S hpc
  | hangupDeleted S hpc | hangupUncounted S hpc =>
      exact hi.same hc rfl rfl (by simp [Call.inProgress, hpc])
  | notFound hpc => exact hi.same hc rfl rfl (by simp [Call.inProgress, hpc])

theorem step_globalInv (hok : ∀ c ∈ s.calls, c.Ok) (hi : GlobalInv s) (hg : CountsApply s a)
    (h : step s a = some s') : GlobalInv s' := by
  cases step_case h with
  | added name enabled dynamic haction hstep =>
      have hframe := addServer_frame hstep
      unfold GlobalInv
      rw [hframe.calls, hframe.callsInProgress]
      exact hi
  | server S action hS heffect =>
      have hframe := serverStep_frame heffect
      unfold GlobalInv
      rw [hframe.calls, hframe.callsInProgress]
      exact hi
  | resolved S active hactive hstate =>
      subst hstate
      have hnew : Call.inProgress { pc := .resolved active } = false := rfl
      unfold GlobalInv at hi ⊢
      rw [countP_concat, weight_neg hnew]
      exact hi
  | call l c action hc heffect =>
      exact callStep_globalInv (hok c (List.mem_of_getElem? hc)) hi hc hg heffect

/-! ## The counter of a server -/

/-- While the thread holds a session, the server counts the legs of that session. -/
def ServerInv (s : State) : Prop :=
  ∀ S, (s.servers S).threadServerId ≠ 0 →
    (s.servers S).callsInProgress =
      s.calls.countP (Call.countedFor S (s.servers S).threadServerId)

theorem ServerInv.move (hi : ServerInv s) (hc : s.calls[l]? = some c)
    (hcalls : s'.calls = s.calls.set l c')
    (hthread : ∀ S, (s'.servers S).threadServerId = (s.servers S).threadServerId)
    (hweight : ∀ S, (s.servers S).threadServerId ≠ 0 →
      (s.servers S).callsInProgress =
        s.calls.countP (Call.countedFor S (s.servers S).threadServerId) →
      (s'.servers S).callsInProgress +
          weight (Call.countedFor S (s.servers S).threadServerId) c =
        (s.servers S).callsInProgress +
          weight (Call.countedFor S (s.servers S).threadServerId) c') : ServerInv s' := by
  intro S hid
  rw [hthread S] at hid ⊢
  rw [hcalls]
  have hbefore := hi S hid
  have hcount := countP_set (p := Call.countedFor S (s.servers S).threadServerId) hc c'
  have hmoved := hweight S hid hbefore
  omega

/-- The leg moves without being counted or uncounted. -/
theorem ServerInv.same (hi : ServerInv s) (hc : s.calls[l]? = some c)
    (hcalls : s'.calls = s.calls.set l c')
    (hthread : ∀ S, (s'.servers S).threadServerId = (s.servers S).threadServerId)
    (hsame : ∀ S, (s'.servers S).callsInProgress = (s.servers S).callsInProgress)
    (hweight : ∀ S id, c'.countedFor S id = c.countedFor S id) : ServerInv s' := by
  refine hi.move hc hcalls hthread ?_
  intro S _ _
  simp only [weight, hsame, hweight]

theorem setServer_threadServerId {S : Nat} {v : Server}
    (h : v.threadServerId = (s.servers S).threadServerId) (T : Nat) :
    ((s.setServer S v).servers T).threadServerId = (s.servers T).threadServerId := by
  by_cases hT : T = S
  · subst hT
    rw [State.setServer_self, h]
  · rw [s.setServer_ne v hT]

theorem setServer_callsInProgress {S : Nat} {v : Server}
    (h : v.callsInProgress = (s.servers S).callsInProgress) (T : Nat) :
    ((s.setServer S v).servers T).callsInProgress = (s.servers T).callsInProgress := by
  by_cases hT : T = S
  · subst hT
    rw [State.setServer_self, h]
  · rw [s.setServer_ne v hT]

/-- A leg that is counted by its own server alone. -/
theorem Call.countedFor_other {S T : Nat} (hS : c.home = some S) (hT : T ≠ S) (id : JanusId) :
    c.countedFor T id = false := by
  simp [Call.countedFor, Call.belongsTo, hS, Ne.symm hT]

theorem counted_serverInv {S : Nat} (hhome : c.AtHome) (hi : ServerInv s)
    (hc : s.calls[l]? = some c) (hpc : c.pc = .roomReady S)
    (hg : CountsApply s (.call l .countServer)) :
    ServerInv ((s.setServer S { s.servers S with
      callsInProgress := (s.servers S).callsInProgress + 1
      totalCalls := (s.servers S).totalCalls + 1 }).setCall l { c with pc := .counted S }) := by
  have hS : c.home = some S := hhome S (by rw [hpc]; rfl)
  refine hi.move hc rfl (setServer_threadServerId rfl) ?_
  intro T hid _
  by_cases hT : T = S
  · subst hT
    -- the leg is counted for the session that the thread holds
    have hsession : (s.servers T).threadServerId = c.serverId :=
      (hg c hc T hS).resolve_left hid
    have hbefore : c.countedFor T (s.servers T).threadServerId = false := by
      simp [Call.countedFor, Call.counted, hpc]
    have hafter : ({ c with pc := .counted T } : Call).countedFor T
        (s.servers T).threadServerId = true := by
      simp [Call.countedFor, Call.counted, Call.belongsTo, hS, hsession]
    simp only [State.setCall_servers, State.setServer_self]
    rw [weight_neg hbefore, weight_pos hafter]
  · have hbefore := c.countedFor_other hS hT (s.servers T).threadServerId
    have hafter := ({ c with pc := .counted S } : Call).countedFor_other hS hT
      (s.servers T).threadServerId
    simp only [State.setCall_servers, s.setServer_ne _ hT]
    rw [weight_neg hbefore, weight_neg hafter]

theorem uncounted_serverInv {S : Nat} (hok : c.Ok) (hi : ServerInv s)
    (hc : s.calls[l]? = some c) (hpc : c.pc = .hangupDeleted S)
    (hg : CountsApply s (.call l .uncountServer)) :
    ServerInv ((s.setServer S { s.servers S with
      callsInProgress := (s.servers S).callsInProgress - 1 }).setCall l
        { c with pc := .hangupUncounted S }) := by
  refine hi.move hc rfl (setServer_threadServerId rfl) ?_
  intro T hid hcount
  have hafter : ({ c with pc := .hangupUncounted S } : Call).countedFor T
      (s.servers T).threadServerId = false := by
    simp [Call.countedFor, Call.counted]
  have hle := weight_le_countP (p := Call.countedFor T (s.servers T).threadServerId) hc
  rw [weight_neg hafter]
  by_cases hT : T = S
  · subst hT
    simp only [State.setCall_servers, State.setServer_self]
    have happlies := hg c hc T (by rw [hpc]; rfl)
    -- a counter of 0 stays 0, and any other counts this leg
    rcases happlies with hzero | hnone | ⟨hestablished, hsession⟩
    · omega
    · exact absurd hnone hid
    · have hS : c.home = some T := hok.hangup hestablished T (by rw [hpc]; rfl)
      have hbefore : c.countedFor T (s.servers T).threadServerId = true := by
        simp [Call.countedFor, Call.counted, Call.belongsTo, hpc, hestablished, hS, hsession]
      rw [weight_pos hbefore] at hle ⊢
      omega
  · -- another server counts the leg for itself only if the leg was never in progress
    simp only [State.setCall_servers, s.setServer_ne _ hT]
    have hbefore : c.countedFor T (s.servers T).threadServerId = false := by
      cases hestablished : c.established with
      | true =>
          have hS : c.home = some S := hok.hangup hestablished S (by rw [hpc]; rfl)
          exact c.countedFor_other hS hT _
      | false => simp [Call.countedFor, Call.counted, hpc, hestablished]
    rw [weight_neg hbefore]

theorem callStep_serverInv (hhome : c.AtHome) (hok : c.Ok) (hi : ServerInv s)
    (hc : s.calls[l]? = some c) (hg : CountsApply s (.call l action))
    (h : CallEffect s l c action s') : ServerInv s' := by
  have hthread : ∀ S, (s.servers S).threadServerId = (s.servers S).threadServerId :=
    fun _ => rfl
  have hcalls : ∀ S, (s.servers S).callsInProgress = (s.servers S).callsInProgress :=
    fun _ => rfl
  cases h with
  | counted S hpc => exact counted_serverInv hhome hi hc hpc hg
  | hangupUncounted S hpc => exact uncounted_serverInv hok hi hc hpc hg
  | attachFailed S hpc | inserted S hpc | hangupDeleted S hpc =>
      refine hi.same hc rfl (setServer_threadServerId rfl) (setServer_callsInProgress rfl) ?_
      simp [Call.countedFor, Call.counted, Call.belongsTo, hpc]
  | hangupFound S hpc hfind =>
      refine hi.same hc rfl hthread hcalls ?_
      rcases hpc with hpc | hpc
      · simp [Call.countedFor, Call.counted, Call.belongsTo, hpc, hok.success hpc]
      · simp [Call.countedFor, Call.counted, Call.belongsTo, hpc,
          hok.notYet (by rw [hpc]; rfl)]
  | hangupNotFound hpc hfind =>
      refine hi.same hc rfl hthread hcalls ?_
      rcases hpc with hpc | hpc
      · -- an established leg would have found its server
        have hnot := hok.not_of_notFound hc hg hfind
        rw [hok.success hpc] at hnot
        cases hnot
      · simp [Call.countedFor, Call.counted, hpc]
  | dialled S hpc | barred S hpc | found S hpc hfind | attached S hpc senderId
  | insertFailed S hpc | roomReady S hpc | roomFailed S hpc | established S hpc | gone S hpc =>
      exact hi.same hc rfl hthread hcalls
        (by simp [Call.countedFor, Call.counted, Call.belongsTo, hpc])
  | notFound hpc =>
      exact hi.same hc rfl hthread hcalls
        (by simp [Call.countedFor, Call.counted, Call.belongsTo, hpc])

/-- A thread that holds a session has kept it with the counter, or has started the
    counter anew with it. -/
theorem threadStep_counter {v v' : Server} {L L' : Hash Nat} {S podServerFailMax : Nat}
    {a : ThreadAction} (h : ThreadEffect v S L podServerFailMax a v' L')
    (hid : v'.threadServerId ≠ 0) :
    (v'.callsInProgress = v.callsInProgress ∧ v'.threadServerId = v.threadServerId) ∨
      (v'.callsInProgress = 0 ∧ ∃ inserted, a = .create v'.threadServerId inserted) := by
  cases h with
  | started force hpc => exact absurd rfl hid
  | refused pIndex hpc => exact absurd rfl hid
  | claimed status inserted hpc hid₀ =>
      -- a claim keeps the session, unless the thread ends up without one
      have hthread := (claimed_threadServerId v S L inserted status).resolve_right hid
      exact .inl ⟨claimed_callsInProgress .., hthread⟩
  | createFailed inserted hpc =>
      exact .inl ⟨createFailed_callsInProgress .., createFailed_threadServerId ..⟩
  | created serverId inserted hpc hid₀ =>
      have hthread := (created_threadServerId v S L inserted serverId).resolve_right hid
      exact .inr ⟨created_callsInProgress .., inserted, by rw [hthread]⟩
  | polled status hpc =>
      exact .inl ⟨polled_callsInProgress .., polled_threadServerId ..⟩
  | _ => exact .inl ⟨rfl, rfl⟩

theorem Quiet.serverInv {S : Nat} (h : Quiet s S s') (hi : ServerInv s)
    (hother : ∀ T, T ≠ S → s'.servers T = s.servers T) (hcalls : s'.calls = s.calls) :
    ServerInv s' := by
  intro T hid
  rw [hcalls]
  by_cases hT : T = S
  · subst hT
    have hthread := h.threadServerId.resolve_right hid
    rw [hthread] at hid ⊢
    rw [h.callsInProgress]
    exact hi T hid
  · rw [hother T hT] at hid ⊢
    exact hi T hid

theorem serverStep_serverInv {S : Nat} {action : ServerAction} (hi : ServerInv s)
    (hg : CountsApply s (.server S action)) (h : ServerEffect s S action s') :
    ServerInv s' := by
  have hframe := serverStep_frame h
  rcases serverStep_cases h with ⟨a, L', haction, hthread⟩ | hquiet
  · intro T hid
    rw [hframe.calls]
    by_cases hT : T = S
    · subst hT
      rcases threadStep_counter hthread hid with ⟨hcalls, hsame⟩ | ⟨hcalls, inserted, hcreate⟩
      · rw [hsame] at hid ⊢
        rw [hcalls]
        exact hi T hid
      · -- a new session: no leg belongs to it
        subst haction hcreate
        rw [hcalls]
        symm
        rw [List.countP_eq_zero]
        intro c hc
        rw [hg c hc]
        exact Bool.false_ne_true
    · rw [hframe.other T hT] at hid ⊢
      exact hi T hid
  · exact hquiet.serverInv hi hframe.other hframe.calls

theorem step_serverInv (hhome : HomeInv s) (hok : ∀ c ∈ s.calls, c.Ok) (hi : ServerInv s)
    (hg : CountsApply s a) (h : step s a = some s') : ServerInv s' := by
  cases step_case h with
  | added name enabled dynamic haction hstep =>
      have hframe := addServer_frame hstep
      exact (addServer_quiet hstep).serverInv hi hframe.other hframe.calls
  | server S action hS heffect => exact serverStep_serverInv hi hg heffect
  | resolved S active hactive hstate =>
      subst hstate
      intro T hid
      have hnew : Call.countedFor T (s.servers T).threadServerId { pc := .resolved active } =
          false := rfl
      rw [countP_concat, weight_neg hnew]
      exact hi T hid
  | call l c action hc heffect =>
      have hmem := List.mem_of_getElem? hc
      exact callStep_serverInv (hhome c hmem) (hok c hmem) hi hc hg heffect

/-! ## The counters are right -/

/-- The number of legs of session `id` of server `S` with a property. -/
def State.legsOf (s : State) (p : Call → Bool) (S : Nat) (id : JanusId) : Nat :=
  s.calls.countP fun c => p c && c.belongsTo S id

/-- Where a leg stands says whether its server counts it. -/
theorem Call.Ok.balance (hok : c.Ok) :
    weight Call.counted c + weight Call.leaving c =
      weight Call.inProgress c + weight Call.entering c := by
  have hnot := hok.notYet
  have hsuccess := hok.success
  unfold weight Call.counted Call.leaving Call.inProgress Call.entering
  cases hpc : c.pc with
  | established => simp [hsuccess hpc]
  | resolved S | ready | found S | attached S | inserted S | roomReady S | counted S | failed =>
      rw [hpc] at hnot
      simp [hnot rfl]
  | hangupFound S | hangupDeleted S | hangupUncounted S | gone => simp

theorem legsOf_balance (hok : ∀ c ∈ s.calls, c.Ok) (S : Nat) (id : JanusId) :
    s.calls.countP (Call.countedFor S id) + s.legsOf Call.leaving S id =
      s.legsOf Call.inProgress S id + s.legsOf Call.entering S id := by
  refine countP_balance ?_
  intro c hc
  have hbalance := (hok c hc).balance
  unfold weight at hbalance ⊢
  cases hbelongs : c.belongsTo S id with
  | true => simpa [Call.countedFor, hbelongs] using hbalance
  | false => simp [Call.countedFor, hbelongs]

/-- In a run that meets the condition, the module counts the legs in progress; and a
    server counts those of its registered session, but for the legs that stand between
    its section and the one of the module. -/
theorem counters_apply (s : State) (h : Reach step CountsApply Initial s) :
    s.callsInProgress = s.calls.countP Call.inProgress ∧
    ∀ id S, hashFind s.serverIdLookup id = some S →
      (s.servers S).callsInProgress + s.legsOf Call.leaving S id =
        s.legsOf Call.inProgress S id + s.legsOf Call.entering S id ∧
      ((∀ c ∈ s.calls, c.belongsTo S id = true → c.entering = false ∧ c.leaving = false) →
        (s.servers S).callsInProgress = s.legsOf Call.inProgress S id) := by
  have hlegs : ∀ s, Reach step CountsApply Initial s → HomeInv s ∧ ∀ c ∈ s.calls, c.Ok := by
    intro s h
    refine h.invariant (I := fun s => HomeInv s ∧ ∀ c ∈ s.calls, c.Ok) ?_ ?_
    · rintro _ ⟨podServerFailMax, rfl⟩
      exact ⟨nofun, nofun⟩
    · intro s a s' hi hg hs
      exact ⟨step_homeInv hi.1 hs, step_ok hi.1 hi.2 hg hs⟩
  have hcounts : GlobalInv s ∧ ServerInv s := by
    refine h.invariant_of (I := fun s => GlobalInv s ∧ ServerInv s) hlegs ?_ ?_
    · rintro _ ⟨podServerFailMax, rfl⟩
      exact ⟨rfl, fun S hid => absurd rfl hid⟩
    · intro s a s' hlegs hi hg hs
      exact ⟨step_globalInv hlegs.2 hi.1 hg hs, step_serverInv hlegs.1 hlegs.2 hi.2 hg hs⟩
  refine ⟨hcounts.1, ?_⟩
  intro id S hfind
  obtain ⟨hthread, hid, -⟩ := reach_entryInv h id S hfind
  have hserver := hcounts.2 S (by rw [hthread]; exact hid)
  have hbalance := legsOf_balance (hlegs s h).2 S id
  rw [hthread] at hserver
  rw [hserver]
  refine ⟨hbalance, ?_⟩
  intro hsettled
  -- with no leg between the two sections both correction terms vanish
  have hentering : s.legsOf Call.entering S id = 0 := by
    rw [State.legsOf, List.countP_eq_zero]
    intro c hc hboth
    rw [Bool.and_eq_true] at hboth
    exact absurd hboth.1 (by rw [(hsettled c hc hboth.2).1]; exact Bool.false_ne_true)
  have hleaving : s.legsOf Call.leaving S id = 0 := by
    rw [State.legsOf, List.countP_eq_zero]
    intro c hc hboth
    rw [Bool.and_eq_true] at hboth
    exact absurd hboth.1 (by rw [(hsettled c hc hboth.2).2]; exact Bool.false_ne_true)
  omega

/-- A second leg is established, and the first one hangs up while the session is
    registered. -/
def countedLegs : List Action :=
  twoLegs ++ [.call 1 (.createRoom true), .call 1 .countServer, .call 1 .countGlobal,
    .call 0 .hangupLookup, .call 0 .hangupDelete, .call 0 .uncountServer, .call 0 .uncountGlobal]

theorem counters_apply_countedLegs :
    ∃ s : State, s.calls.countP Call.inProgress = 1 ∧ s.legsOf Call.inProgress 0 7 = 1 ∧
      s.callsInProgress = s.calls.countP Call.inProgress ∧
      (s.servers 0).callsInProgress = s.legsOf Call.inProgress 0 7 := by
  have h0 : Initial {} := ⟨0, rfl⟩
  obtain ⟨s, hs, hp⟩ := Transition.reach_of_exec step CountsApply h0 countedLegs
    (fun s => hashFind s.serverIdLookup 7 = some 0 ∧ s.calls.countP Call.inProgress = 1 ∧
      s.legsOf Call.inProgress 0 7 = 1 ∧
      ∀ c ∈ s.calls, c.belongsTo 0 7 = true → c.entering = false ∧ c.leaving = false)
    (by decide)
  obtain ⟨hfind, hone, hlegs, hsettled⟩ := of_decide_eq_true hp
  obtain ⟨hglobal, hserver⟩ := counters_apply s hs
  exact ⟨s, hone, hlegs, hglobal, (hserver 7 0 hfind).2 hsettled⟩

/-- One leg is established; the attach of another one fails, and its hangup uncounts a
    leg. -/
def failedLegUncounted : List Action :=
  [.serversAdd "a" true, .server 0 (.thread (.start true)), .server 0 (.thread (.outer true)),
    .server 0 (.thread (.create 7 true)), .server 0 (.thread .inner), .resolve 0, .resolve 0,
    .call 0 .dial, .call 1 .dial, .call 0 .initLookup, .call 0 (.attach 11),
    .call 0 (.insert true), .call 0 (.createRoom true), .call 0 .countServer,
    .call 0 .countGlobal, .call 1 .initLookup, .call 1 (.attach 0), .call 1 .hangupLookup,
    .call 1 .hangupDelete, .call 1 .uncountServer, .call 1 .uncountGlobal]

theorem counters_wrong :
    ¬ ∀ s, Reach step Always Initial s →
      s.callsInProgress = s.calls.countP Call.inProgress ∧
      ∀ id S, hashFind s.serverIdLookup id = some S →
        (∀ c ∈ s.calls, c.belongsTo S id = true → c.entering = false ∧ c.leaving = false) →
        (s.servers S).callsInProgress = s.legsOf Call.inProgress S id := by
  intro hclaim
  have h0 : Initial {} := ⟨0, rfl⟩
  obtain ⟨s, hs, hp⟩ := Transition.reach_of_exec step Always h0 failedLegUncounted
    (fun s => s.callsInProgress = 0 ∧ s.calls.countP Call.inProgress = 1) (by decide)
  obtain ⟨hzero, hone⟩ := of_decide_eq_true hp
  have hglobal := (hclaim s hs).1
  omega

end ModJanus.Servers
