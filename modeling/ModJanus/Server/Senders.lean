/-
  ModJanus.Server.Senders

  `senderIdLookup` against the legs it names.

  A leg leaves the table of its server in `channel_on_hangup`, which finds the server
  through `serverIdLookup`; the thread's loop after a refused claim removes it too.
  Between a failed poll and the claim there is no entry for the server, and a leg
  that hangs up then returns early and stays in the table.
-/
import ModJanus.Server.Machine

namespace ModJanus.Servers

open Transition (Reach Always)

variable {s s' : State} {a : Action} {l : Nat} {c : Call} {action : CallAction}

/-! ## The server of a leg -/

/-- The server that `channel_on_init` is working with. -/
def CallPc.initServer : CallPc → Option Nat
  | .found S | .attached S | .inserted S | .roomReady S | .counted S => some S
  | _ => none

/-- A leg whose `channel_on_init` works with a server has found that server. -/
def Call.AtHome (c : Call) : Prop := ∀ S, c.pc.initServer = some S → c.home = some S

theorem CallEffect.atHome (hi : c.AtHome) (h : CallEffect s l c action s') :
    ∃ c', s'.calls = s.calls.set l c' ∧ c'.AtHome := by
  cases h with
  | found S hpc hfind => exact ⟨_, rfl, fun T hT => hT⟩
  | attached S hpc senderId => exact ⟨_, rfl, fun T hT => hi T (by rw [hpc]; exact hT)⟩
  | inserted S hpc => exact ⟨_, rfl, fun T hT => hi T (by rw [hpc]; exact hT)⟩
  | roomReady S hpc => exact ⟨_, rfl, fun T hT => hi T (by rw [hpc]; exact hT)⟩
  | counted S hpc => exact ⟨_, rfl, fun T hT => hi T (by rw [hpc]; exact hT)⟩
  | _ => exact ⟨_, rfl, nofun⟩

def HomeInv (s : State) : Prop := ∀ c ∈ s.calls, c.AtHome

theorem step_homeInv (hi : HomeInv s) (h : step s a = some s') : HomeInv s' := by
  refine (step_case h).everyCall hi (fun _ => nofun) ?_
  intro l c action _ hc heffect
  exact heffect.atHome (hi c (List.mem_of_getElem? hc))

/-! ## What a step does to the tables -/

/-- The thread of a server removes legs and adds none. -/
theorem threadStep_senders {v v' : Server} {L L' : Hash Nat} {S podServerFailMax : Nat}
    {a : ThreadAction} (h : ThreadEffect v S L podServerFailMax a v' L') :
    HashSubset v'.senderIdLookup v.senderIdLookup := by
  have hrefl := HashSubset.refl v.senderIdLookup
  have hempty := hashSubset_empty v.senderIdLookup
  cases h with
  | started force hpc => exact hempty
  | sendersDestroyed hpc => exact hempty
  | hungUp pIndex senderId ofLeg hpc => exact hashSubset_hashDelete v.senderIdLookup ofLeg
  | claimed status inserted hpc hid =>
      rw [claimed_senderIdLookup]
      exact hrefl
  | createFailed inserted hpc =>
      rw [createFailed_senderIdLookup]
      exact hrefl
  | created serverId inserted hpc hid =>
      rw [created_senderIdLookup]
      exact hrefl
  | polled status hpc =>
      rw [polled_senderIdLookup]
      exact hrefl
  | _ => exact hrefl

/-- No step of a server adds a leg to a table. -/
theorem serverStep_senders {S : Nat} {action : ServerAction}
    (h : ServerEffect s S action s') (T : Nat) :
    HashSubset (s'.servers T).senderIdLookup (s.servers T).senderIdLookup := by
  by_cases hT : T = S
  · subst hT
    rcases serverStep_cases h with ⟨a, L', -, hthread⟩ | hquiet
    · exact threadStep_senders hthread
    · rw [hquiet.senderIdLookup]
      exact HashSubset.refl _
  · rw [(serverStep_frame h).other T hT]
    exact HashSubset.refl _

theorem addServer_senders {name : String} {enabled dynamic : Bool}
    (h : s.addServer name enabled dynamic = some s') (T : Nat) :
    HashSubset (s'.servers T).senderIdLookup (s.servers T).senderIdLookup := by
  by_cases hT : T = s.serverCount
  · rw [hT, (addServer_quiet h).senderIdLookup]
    exact HashSubset.refl _
  · rw [(addServer_frame h).other T hT]
    exact HashSubset.refl _

/-! ## The invariant -/

/-- The leg may be in the table of server `S`: it was inserted there, and its hangup has
    not deleted it. -/
def Call.filedAt (c : Call) (S : Nat) : Bool :=
  c.home = some S && match c.pc with
    | .inserted _ | .roomReady _ | .counted _ | .established | .failed => true
    | .hangupFound T => T = S
    | _ => false

/-- An entry of a table is a leg that may be there, under its sender id. -/
def SenderInv (s : State) : Prop :=
  ∀ S senderId l, hashFind (s.servers S).senderIdLookup senderId = some l →
    ∃ c, s.calls[l]? = some c ∧ c.senderId = senderId ∧ c.filedAt S = true

/-- A leg that hangs up while it is in the table of its server finds that server. -/
def HangupFindsServer (s : State) : Action → Prop
  | .call l .hangupLookup =>
      ∀ c ∈ s.calls[l]?, ∀ S ∈ c.home, hashFind (s.servers S).senderIdLookup c.senderId = some l →
        hashFind s.serverIdLookup c.serverId = some S
  | _ => True

instance (s : State) (a : Action) : Decidable (HangupFindsServer s a) := by
  unfold HangupFindsServer
  split <;> infer_instance

/-- Steps that add no entry keep the invariant, if the leg that moves may stay where it
    is. -/
theorem SenderInv.move {c c' : Call} (hi : SenderInv s) (hc : s.calls[l]? = some c)
    (hsenders : ∀ S, HashSubset (s'.servers S).senderIdLookup (s.servers S).senderIdLookup)
    (hcalls : s'.calls = s.calls.set l c')
    (hself : ∀ S, hashFind (s'.servers S).senderIdLookup c.senderId = some l →
      c.filedAt S = true → c'.senderId = c.senderId ∧ c'.filedAt S = true) : SenderInv s' := by
  intro S senderId m hfind
  obtain ⟨d, hd, hsender, hfiled⟩ := hi S senderId m (hsenders S senderId m hfind)
  rw [hcalls]
  -- the entry is the leg's own, or that of a leg that did not move
  by_cases hm : m = l
  · subst hm
    obtain rfl : c = d := Option.some.inj (hc.symm.trans hd)
    rw [← hsender] at hfind
    obtain ⟨hsender', hfiled'⟩ := hself S hfind hfiled
    have hlt := (List.getElem?_eq_some_iff.mp hc).1
    exact ⟨c', List.getElem?_set_self hlt, hsender'.trans hsender, hfiled'⟩
  · exact ⟨d, by rw [List.getElem?_set_ne (Ne.symm hm)]; exact hd, hsender, hfiled⟩

/-- A leg that is in no table moves. -/
theorem SenderInv.moveAbsent {c c' : Call} (hi : SenderInv s) (hc : s.calls[l]? = some c)
    (hsenders : ∀ S, HashSubset (s'.servers S).senderIdLookup (s.servers S).senderIdLookup)
    (hcalls : s'.calls = s.calls.set l c') (habsent : ∀ S, c.filedAt S = false) :
    SenderInv s' := by
  refine hi.move hc hsenders hcalls ?_
  intro S _ hfiled
  rw [habsent S] at hfiled
  cases hfiled

/-- A leg moves and may stay in its table. -/
theorem SenderInv.moveFiled {c c' : Call} (hi : SenderInv s) (hc : s.calls[l]? = some c)
    (hsenders : ∀ S, HashSubset (s'.servers S).senderIdLookup (s.servers S).senderIdLookup)
    (hcalls : s'.calls = s.calls.set l c') (hsender : c'.senderId = c.senderId)
    (hfiled : ∀ S, c'.filedAt S = c.filedAt S) : SenderInv s' := by
  refine hi.move hc hsenders hcalls ?_
  intro S _ hbefore
  exact ⟨hsender, (hfiled S).trans hbefore⟩

theorem SenderInv.untouched (hi : SenderInv s)
    (hsenders : ∀ S, HashSubset (s'.servers S).senderIdLookup (s.servers S).senderIdLookup)
    (hcalls : ∀ (l : Nat) (c : Call), s.calls[l]? = some c → s'.calls[l]? = some c) :
    SenderInv s' := by
  intro S senderId l hfind
  obtain ⟨c, hc, hsender, hfiled⟩ := hi S senderId l (hsenders S senderId l hfind)
  exact ⟨c, hcalls l c hc, hsender, hfiled⟩

theorem setServer_senders {S : Nat} {v : Server}
    (h : HashSubset v.senderIdLookup (s.servers S).senderIdLookup) (T : Nat) :
    HashSubset ((s.setServer S v).servers T).senderIdLookup (s.servers T).senderIdLookup := by
  by_cases hT : T = S
  · subst hT
    rw [State.setServer_self]
    exact h
  · rw [s.setServer_ne v hT]
    exact HashSubset.refl _

theorem inserted_senderInv {S : Nat} (hhome : c.AtHome) (hi : SenderInv s)
    (hc : s.calls[l]? = some c) (hpc : c.pc = .attached S) :
    SenderInv ((s.setServer S { s.servers S with
      senderIdLookup := hashInsert (s.servers S).senderIdLookup c.senderId l }).setCall l
        { c with pc := .inserted S }) := by
  have hS : c.home = some S := hhome S (by rw [hpc]; rfl)
  have hlt := (List.getElem?_eq_some_iff.mp hc).1
  have hself := List.getElem?_set_self (a := { c with pc := CallPc.inserted S }) hlt
  intro T senderId m hfind
  -- an entry that was there before belongs to another leg
  have hold : hashFind (s.servers T).senderIdLookup senderId = some m →
      ∃ d, (s.calls.set l { c with pc := .inserted S })[m]? = some d ∧ d.senderId = senderId ∧
        d.filedAt T = true := by
    intro hbefore
    obtain ⟨d, hd, hsender, hfiled⟩ := hi T senderId m hbefore
    have hm : m ≠ l := by
      rintro rfl
      obtain rfl : c = d := Option.some.inj (hc.symm.trans hd)
      simp [Call.filedAt, hpc] at hfiled
    exact ⟨d, by rw [List.getElem?_set_ne (Ne.symm hm)]; exact hd, hsender, hfiled⟩
  by_cases hT : T = S
  · subst hT
    simp only [State.setCall_servers, State.setServer_self] at hfind
    rcases hashFind_hashInsert_eq_some hfind with ⟨hkey, hleg⟩ | ⟨-, hbefore⟩
    · subst hkey hleg
      exact ⟨_, hself, rfl, by simp [Call.filedAt, hS]⟩
    · exact hold hbefore
  · simp only [State.setCall_servers, s.setServer_ne _ hT] at hfind
    exact hold hfind

theorem callStep_senderInv (hhome : c.AtHome) (hi : SenderInv s) (hc : s.calls[l]? = some c)
    (hg : HangupFindsServer s (.call l action)) (h : CallEffect s l c action s') :
    SenderInv s' := by
  have hrefl : ∀ S, HashSubset (s.servers S).senderIdLookup (s.servers S).senderIdLookup :=
    fun S => HashSubset.refl _
  cases h with
  | dialled S hpc => exact hi.moveAbsent hc hrefl rfl (by simp [Call.filedAt, hpc])
  | barred S hpc => exact hi.moveAbsent hc hrefl rfl (by simp [Call.filedAt, hpc])
  | found S hpc hfind => exact hi.moveAbsent hc hrefl rfl (by simp [Call.filedAt, hpc])
  | notFound hpc => exact hi.moveAbsent hc hrefl rfl (by simp [Call.filedAt, hpc])
  | attachFailed S hpc =>
      exact hi.moveAbsent hc (setServer_senders (hrefl S)) rfl (by simp [Call.filedAt, hpc])
  | attached S hpc senderId => exact hi.moveAbsent hc hrefl rfl (by simp [Call.filedAt, hpc])
  | inserted S hpc => exact inserted_senderInv hhome hi hc hpc
  | insertFailed S hpc => exact hi.moveAbsent hc hrefl rfl (by simp [Call.filedAt, hpc])
  | roomReady S hpc => exact hi.moveFiled hc hrefl rfl rfl (by simp [Call.filedAt, hpc])
  | roomFailed S hpc => exact hi.moveFiled hc hrefl rfl rfl (by simp [Call.filedAt, hpc])
  | counted S hpc =>
      exact hi.moveFiled hc (setServer_senders (hrefl S)) rfl rfl (by simp [Call.filedAt, hpc])
  | established S hpc => exact hi.moveFiled hc hrefl rfl rfl (by simp [Call.filedAt, hpc])
  | hangupFound S hpc hfind =>
      refine hi.move hc hrefl rfl ?_
      intro T hentry hfiled
      have hT : c.home = some T := by
        simp only [Call.filedAt, Bool.and_eq_true, decide_eq_true_eq] at hfiled
        exact hfiled.1
      -- the server found is the one whose table holds the leg
      have hserver := hg c hc T hT hentry
      rw [hfind] at hserver
      exact ⟨rfl, by simp [Call.filedAt, hT, Option.some.inj hserver]⟩
  | hangupNotFound hpc hfind =>
      refine hi.move hc hrefl rfl ?_
      intro T hentry hfiled
      have hT : c.home = some T := by
        simp only [Call.filedAt, Bool.and_eq_true, decide_eq_true_eq] at hfiled
        exact hfiled.1
      -- the leg would leave without being deleted
      have hserver := hg c hc T hT hentry
      rw [hfind] at hserver
      cases hserver
  | hangupDeleted S hpc =>
      refine hi.move hc (setServer_senders (hashSubset_hashDelete _ c.senderId)) rfl ?_
      intro T hentry hfiled
      have hT : T = S := by
        simp only [Call.filedAt, hpc, Bool.and_eq_true, decide_eq_true_eq] at hfiled
        exact hfiled.2.symm
      -- it is deleted from the table it was in
      subst hT
      simp only [State.setCall_servers, State.setServer_self, hashFind_hashDelete] at hentry
      cases hentry
  | hangupUncounted S hpc =>
      exact hi.moveAbsent hc (setServer_senders (hrefl S)) rfl (by simp [Call.filedAt, hpc])
  | gone S hpc => exact hi.moveAbsent hc hrefl rfl (by simp [Call.filedAt, hpc])

theorem step_senderInv (hhome : HomeInv s) (hi : SenderInv s) (hg : HangupFindsServer s a)
    (h : step s a = some s') : SenderInv s' := by
  cases step_case h with
  | added name enabled dynamic haction hstep =>
      refine hi.untouched (addServer_senders hstep) ?_
      rw [(addServer_frame hstep).calls]
      exact fun _ _ hc => hc
  | server S action hS heffect =>
      refine hi.untouched (serverStep_senders heffect) ?_
      rw [(serverStep_frame heffect).calls]
      exact fun _ _ hc => hc
  | resolved S active hactive hstate =>
      subst hstate
      refine hi.untouched (fun T => HashSubset.refl _) ?_
      intro l c hc
      have hlt := (List.getElem?_eq_some_iff.mp hc).1
      exact (List.getElem?_append_left hlt).trans hc
  | call l c action hc heffect =>
      exact callStep_senderInv (hhome c (List.mem_of_getElem? hc)) hi hc hg heffect

/-! ## No leg stays behind -/

/-- As long as every leg that hangs up while it is in its server's table finds that
    server, no table holds a leg whose hangup is finished. -/
theorem senders_not_gone (s : State) (h : Reach step HangupFindsServer Initial s) (S : Nat)
    (senderId : JanusId) (l : Nat)
    (hfind : hashFind (s.servers S).senderIdLookup senderId = some l) :
    ∃ c, s.calls[l]? = some c ∧ c.pc ≠ .gone := by
  have hhome : ∀ s, Reach step HangupFindsServer Initial s → HomeInv s := by
    intro s h
    refine h.invariant ?_ ?_
    · rintro _ ⟨podServerFailMax, rfl⟩ c hc
      cases hc
    · intro s a s' hi _ hs
      exact step_homeInv hi hs
  have hi : SenderInv s := by
    refine h.invariant_of hhome ?_ ?_
    · rintro _ ⟨podServerFailMax, rfl⟩ S senderId l hentry
      cases hentry
    · intro s a s' hhome hi hg hs
      exact step_senderInv hhome hi hg hs
  obtain ⟨c, hc, -, hfiled⟩ := hi S senderId l hfind
  refine ⟨c, hc, ?_⟩
  intro hgone
  simp [Call.filedAt, hgone] at hfiled

/-- The server of pod a registers under 7; two legs attach as 11 and 12. -/
def twoLegs : List Action :=
  [.serversAdd "a" true, .server 0 (.thread (.start true)), .server 0 (.thread (.outer true)),
    .server 0 (.thread (.create 7 true)), .server 0 (.thread .inner), .resolve 0, .resolve 0,
    .call 0 .dial, .call 1 .dial, .call 0 .initLookup, .call 0 (.attach 11),
    .call 0 (.insert true), .call 1 .initLookup, .call 1 (.attach 12), .call 1 (.insert true),
    .call 0 (.createRoom true), .call 0 .countServer, .call 0 .countGlobal]

/-- A poll fails and the session is claimed; then the first leg hangs up. -/
def hangupAfterClaim : List Action :=
  twoLegs ++ [.server 0 (.thread (.polled .false)), .server 0 (.thread .inner),
    .server 0 (.thread (.outer true)), .server 0 (.thread (.claim .success true)),
    .call 0 .hangupLookup, .call 0 .hangupDelete, .call 0 .uncountServer, .call 0 .uncountGlobal]

theorem senders_not_gone_afterClaim :
    ∃ s : State, hashFind (s.servers 0).senderIdLookup 11 = none ∧
      hashFind (s.servers 0).senderIdLookup 12 = some 1 ∧
      ∃ c, s.calls[1]? = some c ∧ c.pc ≠ .gone := by
  have h0 : Initial {} := ⟨0, rfl⟩
  obtain ⟨s, hs, hp⟩ := Transition.reach_of_exec step HangupFindsServer h0 hangupAfterClaim
    (fun s => hashFind (s.servers 0).senderIdLookup 11 = none ∧
      hashFind (s.servers 0).senderIdLookup 12 = some 1) (by decide)
  obtain ⟨hremoved, hfind⟩ := of_decide_eq_true hp
  exact ⟨s, hremoved, hfind, senders_not_gone s hs 0 12 1 hfind⟩

/-- A poll fails and the first leg hangs up before the session is claimed. -/
def hangupBeforeClaim : List Action :=
  twoLegs ++ [.server 0 (.thread (.polled .false)), .call 0 .hangupLookup]

theorem senders_left_behind :
    ¬ ∀ s, Reach step Always Initial s → ∀ S senderId l,
      hashFind (s.servers S).senderIdLookup senderId = some l →
      ∃ c, s.calls[l]? = some c ∧ c.pc ≠ .gone := by
  intro hclaim
  have h0 : Initial {} := ⟨0, rfl⟩
  obtain ⟨s, hs, hp⟩ := Transition.reach_of_exec step Always h0 hangupBeforeClaim
    (fun s => hashFind (s.servers 0).senderIdLookup 11 = some 0 ∧
      s.calls[0]?.map Call.pc = some .gone) (by decide)
  obtain ⟨hfind, hgone⟩ := of_decide_eq_true hp
  obtain ⟨c, hc, hpc⟩ := hclaim s hs 0 11 0 hfind
  rw [hc] at hgone
  exact hpc (Option.some.inj hgone)

end ModJanus.Servers
