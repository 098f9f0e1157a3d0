/-
  ModJanus.Server.Handles

  The plugin handles that the legs hold at Janus.

  `channel_on_init` attaches to the session of its server and gets a handle there;
  `channel_on_hangup` detaches it, at the server that it finds under the session id by
  then.  A handle that no leg is going to detach stays at Janus until its session ends
  (`Stranded`).  `stranded_iff` says what leaves handles behind: a reply to an attach that
  is lost, a hangup that does not find the server of its leg, and a detach that does not
  get through.

  The module is the machine of `Server.Machine`; the events below are its steps, with what
  Janus does on the occasion.
-/
import ModJanus.Server.Senders

namespace ModJanus.Servers

open Transition (Always Never exec)

/-! ## The module and its Janus instances -/

/-- A handle is attached in a session of the Janus of a server. -/
structure PluginHandle where
  server : Nat
  serverId : JanusId
  senderId : JanusId
  deriving DecidableEq, Repr

structure World where
  state : State
  /-- The handles that were ever given out. -/
  issued : List PluginHandle := []
  /-- Those that are attached. -/
  handles : List PluginHandle := []

inductive Event where
  /-- A step that Janus takes no part in, or an attach that is refused. -/
  | alone (a : Action)
  /-- Janus attaches a handle for leg `l`; `answered` says whether the reply gets back. -/
  | attach (l : Nat) (senderId : JanusId) (answered : Bool)
  /-- Leg `l` sends its `apiDetach`; `received` says whether Janus gets it. -/
  | detach (l : Nat) (received : Bool)
  /-- Janus drops a session, with its handles. -/
  | sessionEnds (S : Nat) (serverId : JanusId)
  deriving DecidableEq, Repr

/-- A handle for the leg `c`, which has found server `S`. -/
def handleFor (S : Nat) (c : Call) (senderId : JanusId) : PluginHandle := ⟨S, c.serverId, senderId⟩

/-- The steps of the module that Janus takes part in. -/
def Action.isRemote : Action → Bool
  | .call _ (.attach senderId) => senderId ≠ 0
  | .call _ .hangupDelete => true
  | _ => false

def World.step (w : World) (e : Event) : Option World :=
  match e with
  | .alone a => if a.isRemote then none else
      (Servers.step w.state a).map fun s => { w with state := s }
  | .attach l senderId answered =>
      match w.state.calls[l]? with
      | some c =>
          match c.pc with
          | .found S =>
              -- an id that Janus gives out was never given out before
              if senderId ≠ 0 ∧ handleFor S c senderId ∉ w.issued then
                (Servers.step w.state (.call l (.attach (if answered then senderId else 0)))).map
                  fun s => { state := s
                             issued := handleFor S c senderId :: w.issued
                             handles := handleFor S c senderId :: w.handles }
              else none
          | _ => none
      | none => none
  | .detach l received =>
      match w.state.calls[l]? with
      | some c =>
          match c.pc with
          | .hangupFound S =>
              (Servers.step w.state (.call l .hangupDelete)).map fun s =>
                { w with
                  state := s
                  handles := if received then
                      w.handles.filter fun h => h ≠ handleFor S c c.senderId
                    else w.handles }
          | _ => none
      | none => none
  | .sessionEnds S serverId =>
      some { w with handles := w.handles.filter fun h => ¬ (h.server = S ∧ h.serverId = serverId) }

/-- Nothing is attached before the module is loaded. -/
def World.Initial (w : World) : Prop := Servers.Initial w.state ∧ w.issued = [] ∧ w.handles = []

/-! ## Who holds a handle -/

/-- The handle that `channel_on_init` got for the leg. -/
def Call.handle (c : Call) : Option PluginHandle :=
  if c.senderId = 0 then none else c.home.map fun S => handleFor S c c.senderId

/-- The leg is still going to send a detach to server `S`, its own. -/
def CallPc.keeps (S : Nat) : CallPc → Bool
  | .attached _ | .inserted _ | .roomReady _ | .counted _ | .established | .failed => true
  | .hangupFound T => T = S
  | _ => false

/-- The leg has the handle and may still detach it. -/
def Call.Holds (c : Call) (h : PluginHandle) : Prop :=
  c.handle = some h ∧ c.pc.keeps h.server = true

instance (c : Call) (h : PluginHandle) : Decidable (c.Holds h) :=
  inferInstanceAs (Decidable (_ ∧ _))

/-- The handle is attached, and no leg is going to detach it. -/
def Stranded (h : PluginHandle) (w : World) : Prop :=
  h ∈ w.handles ∧ ∀ c ∈ w.state.calls, ¬ c.Holds h

/-- The event leaves the handle behind. -/
def Strands (h : PluginHandle) (w : World) : Event → Prop
  | .attach l senderId answered =>
      answered = false ∧ ∃ c ∈ w.state.calls[l]?, ∃ S, c.pc = .found S ∧
        h = handleFor S c senderId
  | .alone (.call l .hangupLookup) =>
      h ∈ w.handles ∧ ∃ c ∈ w.state.calls[l]?, c.Holds h ∧
        hashFind w.state.serverIdLookup c.serverId ≠ some h.server
  | .detach l received =>
      received = false ∧ h ∈ w.handles ∧ ∃ c ∈ w.state.calls[l]?, c.Holds h
  | _ => False

/-- The event takes the handle off, whoever it belongs to. -/
def Frees (h : PluginHandle) (w : World) : Event → Prop
  | .sessionEnds S serverId => h.server = S ∧ h.serverId = serverId
  | .detach l received =>
      received = true ∧ ∃ c ∈ w.state.calls[l]?, ∃ S, c.pc = .hangupFound S ∧
        h = handleFor S c c.senderId
  | _ => False

/-! ## The steps of a leg -/

/-- Before its attach a leg has no sender id. -/
def CallPc.isEarly : CallPc → Bool
  | .resolved _ | .ready | .found _ => true
  | _ => false

def Call.EarlyZero (c : Call) : Prop := c.pc.isEarly = true → c.senderId = 0

theorem handle_of_zero {c : Call} (h : c.senderId = 0) : c.handle = none := by
  rw [Call.handle, if_pos h]

theorem not_holds_of_zero {c : Call} (hzero : c.senderId = 0) (h : PluginHandle) :
    ¬ c.Holds h := by
  rintro ⟨hhandle, -⟩
  rw [handle_of_zero hzero] at hhandle
  cases hhandle

variable {s s' : State} {l : Nat} {c c' : Call} {action : CallAction} {h : PluginHandle}

/-- What a step does to the handle of the leg that takes it. -/
inductive HandleMove (s : State) (c c' : Call) : CallAction → Prop where
  /-- It keeps what it has. -/
  | same (action : CallAction) (hne : action ≠ .hangupLookup) (hhandle : c'.handle = c.handle)
      (hholds : ∀ h, c'.Holds h ↔ c.Holds h) : HandleMove s c c' action
  | attached (S : Nat) (senderId : JanusId) (hpc : c.pc = .found S)
      (hc' : c' = { c with pc := .attached S, senderId := senderId }) :
      HandleMove s c c' (.attach senderId)
  | hangup (hhandle : c'.handle = c.handle)
      (hholds : ∀ h, c'.Holds h ↔
        c.Holds h ∧ hashFind s.serverIdLookup c.serverId = some h.server) :
      HandleMove s c c' .hangupLookup
  | deleted (S : Nat) (hpc : c.pc = .hangupFound S) (hhandle : c'.handle = c.handle)
      (hholds : ∀ h, ¬ c'.Holds h) : HandleMove s c c' .hangupDelete

/-- A leg that only moves on among the places where it keeps its handle, or where it has
    none. -/
theorem HandleMove.of_keeps (hne : action ≠ .hangupLookup) (hhandle : c'.handle = c.handle)
    (hkeeps : ∀ S, c'.pc.keeps S = c.pc.keeps S) : HandleMove s c c' action := by
  refine .same _ hne hhandle fun h => ?_
  rw [Call.Holds, Call.Holds, hhandle, hkeeps h.server]

theorem HandleMove.of_zero (hne : action ≠ .hangupLookup) (hzero : c.senderId = 0)
    (hzero' : c'.senderId = 0) : HandleMove s c c' action :=
  .same _ hne (by rw [handle_of_zero hzero, handle_of_zero hzero'])
    fun h => iff_of_false (not_holds_of_zero hzero' h) (not_holds_of_zero hzero h)

theorem CallEffect.handleMove (hearly : c.EarlyZero) (h : CallEffect s l c action s') :
    ∃ c', s'.calls = s.calls.set l c' ∧ c'.EarlyZero ∧ HandleMove s c c' action := by
  have hzero : c.pc.isEarly = true → c.senderId = 0 := hearly
  cases h with
  | dialled S hpc =>
      have hsender := hzero (by rw [hpc]; rfl)
      exact ⟨_, rfl, fun _ => hsender, .of_zero nofun hsender hsender⟩
  | barred S hpc => exact ⟨_, rfl, nofun, .of_keeps nofun rfl (by simp [hpc, CallPc.keeps])⟩
  | found S hpc hfind =>
      have hsender := hzero (by rw [hpc]; rfl)
      exact ⟨_, rfl, fun _ => hsender, .of_zero nofun hsender hsender⟩
  | notFound hpc =>
      have hsender := hzero (by rw [hpc]; rfl)
      exact ⟨_, rfl, nofun, .of_zero nofun hsender hsender⟩
  | attachFailed S hpc =>
      have hsender := hzero (by rw [hpc]; rfl)
      exact ⟨_, rfl, nofun, .of_zero nofun hsender hsender⟩
  | attached S hpc senderId => exact ⟨_, rfl, nofun, .attached S senderId hpc rfl⟩
  | inserted S hpc | insertFailed S hpc | roomReady S hpc | roomFailed S hpc | counted S hpc
  | established S hpc =>
      exact ⟨_, rfl, nofun, .of_keeps nofun rfl (by simp [hpc, CallPc.keeps])⟩
  | hangupFound S hpc hfind =>
      refine ⟨_, rfl, nofun, .hangup rfl fun h => ?_⟩
      have hkeeps : c.pc.keeps h.server = true := by
        rcases hpc with hpc | hpc
        · rw [hpc]
          rfl
        · rw [hpc]
          rfl
      constructor
      · rintro ⟨hhandle, hserver⟩
        exact ⟨⟨hhandle, hkeeps⟩, hfind.trans (congrArg some (of_decide_eq_true hserver))⟩
      · rintro ⟨⟨hhandle, -⟩, hserver⟩
        exact ⟨hhandle, decide_eq_true (Option.some.inj (hfind.symm.trans hserver))⟩
  | hangupNotFound hpc hfind =>
      refine ⟨_, rfl, nofun, .hangup rfl fun h => ?_⟩
      simp [Call.Holds, CallPc.keeps, hfind]
  | hangupDeleted S hpc =>
      exact ⟨_, rfl, nofun, .deleted S hpc rfl fun h => by simp [Call.Holds, CallPc.keeps]⟩
  | hangupUncounted S hpc | gone S hpc =>
      exact ⟨_, rfl, nofun, .of_keeps nofun rfl (by simp [hpc, CallPc.keeps])⟩

/-! ## The steps of the world -/

/-- What every world that is reached satisfies. -/
structure WorldInv (w : World) : Prop where
  home : HomeInv w.state
  early : ∀ c ∈ w.state.calls, c.EarlyZero
  attached : ∀ h ∈ w.handles, h ∈ w.issued
  issued : ∀ c ∈ w.state.calls, ∀ h, c.handle = some h → h ∈ w.issued
  unique : ∀ (l m : Nat) (c d : Call) (h : PluginHandle), w.state.calls[l]? = some c →
    w.state.calls[m]? = some d → c.handle = some h → d.handle = some h → l = m

variable {w w' : World} {e : Event} {S : Nat} {senderId : JanusId}

/-- How an event changes the legs and the handles. -/
inductive WorldCase (w w' : World) : Event → Prop where
  /-- No leg moves; at most a new one comes. -/
  | quiet (a : Action) (hcall : ∀ l action, a ≠ .call l action)
      (hcalls : w'.state.calls = w.state.calls ∨
        ∃ active, w'.state.calls = w.state.calls ++ [{ pc := .resolved active }])
      (hissued : w'.issued = w.issued) (hhandles : w'.handles = w.handles) :
      WorldCase w w' (.alone a)
  | same (l : Nat) (c c' : Call) (action : CallAction) (hc : w.state.calls[l]? = some c)
      (hcalls : w'.state.calls = w.state.calls.set l c') (hearly : c'.EarlyZero)
      (hne : action ≠ .hangupLookup) (hhandle : c'.handle = c.handle)
      (hholds : ∀ h, c'.Holds h ↔ c.Holds h)
      (hissued : w'.issued = w.issued) (hhandles : w'.handles = w.handles) :
      WorldCase w w' (.alone (.call l action))
  | hangup (l : Nat) (c c' : Call) (hc : w.state.calls[l]? = some c)
      (hcalls : w'.state.calls = w.state.calls.set l c') (hearly : c'.EarlyZero)
      (hhandle : c'.handle = c.handle)
      (hholds : ∀ h, c'.Holds h ↔
        c.Holds h ∧ hashFind w.state.serverIdLookup c.serverId = some h.server)
      (hissued : w'.issued = w.issued) (hhandles : w'.handles = w.handles) :
      WorldCase w w' (.alone (.call l .hangupLookup))
  | answered (l S : Nat) (c : Call) (senderId : JanusId) (hc : w.state.calls[l]? = some c)
      (hpc : c.pc = .found S) (hne : senderId ≠ 0) (hfresh : handleFor S c senderId ∉ w.issued)
      (hcalls : w'.state.calls =
        w.state.calls.set l { c with pc := .attached S, senderId := senderId })
      (hissued : w'.issued = handleFor S c senderId :: w.issued)
      (hhandles : w'.handles = handleFor S c senderId :: w.handles) :
      WorldCase w w' (.attach l senderId true)
  | lost (l S : Nat) (c c' : Call) (senderId : JanusId) (hc : w.state.calls[l]? = some c)
      (hpc : c.pc = .found S) (hfresh : handleFor S c senderId ∉ w.issued)
      (hcalls : w'.state.calls = w.state.calls.set l c') (hzero : c'.senderId = 0)
      (hissued : w'.issued = handleFor S c senderId :: w.issued)
      (hhandles : w'.handles = handleFor S c senderId :: w.handles) :
      WorldCase w w' (.attach l senderId false)
  | detached (l S : Nat) (c c' : Call) (received : Bool) (hc : w.state.calls[l]? = some c)
      (hpc : c.pc = .hangupFound S)
      (hcalls : w'.state.calls = w.state.calls.set l c') (hearly : c'.EarlyZero)
      (hhandle : c'.handle = c.handle) (hholds : ∀ h, ¬ c'.Holds h)
      (hissued : w'.issued = w.issued)
      (hhandles : w'.handles = if received then
          w.handles.filter fun h => h ≠ handleFor S c c.senderId
        else w.handles) :
      WorldCase w w' (.detach l received)
  | ended (S : Nat) (serverId : JanusId) (hstate : w'.state = w.state)
      (hissued : w'.issued = w.issued)
      (hhandles : w'.handles =
        w.handles.filter fun h => ¬ (h.server = S ∧ h.serverId = serverId)) :
      WorldCase w w' (.sessionEnds S serverId)

/-- A step of the module that no leg takes. -/
theorem step_calls {a : Action} (hcall : ∀ l action, a ≠ .call l action)
    (h : Servers.step s a = some s') :
    s'.calls = s.calls ∨ ∃ active, s'.calls = s.calls ++ [{ pc := .resolved active }] := by
  cases step_case h with
  | added name enabled dynamic haction hstep => exact .inl (addServer_frame hstep).calls
  | server S action hS heffect => exact .inl (serverStep_frame heffect).calls
  | resolved S active hactive hstate =>
      subst hstate
      exact .inr ⟨active, rfl⟩
  | call l c action hc heffect => exact absurd rfl (hcall l action)

theorem legStep_case (hi : WorldInv w) (hs : Servers.step w.state (.call l action) = some s') :
    ∃ c, w.state.calls[l]? = some c ∧ CallEffect w.state l c action s' ∧ c.EarlyZero := by
  cases step_case hs with
  | added name enabled dynamic haction hstep => rcases haction with h | h <;> cases h
  | call l c action hc heffect =>
      exact ⟨c, hc, heffect, hi.early c (List.mem_of_getElem? hc)⟩

/-- An attach that Janus refuses, or whose reply does not come. -/
theorem attach_zero (hearly : c.EarlyZero) (h : CallEffect s l c (.attach 0) s') :
    ∃ c', s'.calls = s.calls.set l c' ∧ c.senderId = 0 ∧ c'.senderId = 0 ∧ c'.EarlyZero := by
  cases h with
  | attachFailed S hpc =>
      have hzero := hearly (by rw [hpc]; rfl)
      exact ⟨_, rfl, hzero, hzero, nofun⟩
  | attached S hpc senderId => exact ⟨_, rfl, hearly (by rw [hpc]; rfl), rfl, nofun⟩

theorem alone_case {a : Action} (hi : WorldInv w) (hremote : a.isRemote = false)
    (hs : Servers.step w.state a = some s') : WorldCase w { w with state := s' } (.alone a) := by
  by_cases hcall : ∃ l action, a = .call l action
  · obtain ⟨l, action, rfl⟩ := hcall
    obtain ⟨c, hc, heffect, hearly⟩ := legStep_case hi hs
    obtain ⟨c', hcalls, hearly', hmove⟩ := heffect.handleMove hearly
    cases hmove with
    | same action hne hhandle hholds =>
        exact .same l c c' action hc hcalls hearly' hne hhandle hholds rfl rfl
    | hangup hhandle hholds => exact .hangup l c c' hc hcalls hearly' hhandle hholds rfl rfl
    | deleted S hpc hhandle hholds => cases hremote
    | attached S senderId hpc hc' =>
        obtain rfl : senderId = 0 := by simpa [Action.isRemote] using hremote
        have hzero : c.senderId = 0 := hearly (by rw [hpc]; rfl)
        have hzero' : c'.senderId = 0 := by rw [hc']
        refine .same l c c' _ hc hcalls hearly' nofun ?_ (fun h => ?_) rfl rfl
        · rw [handle_of_zero hzero, handle_of_zero hzero']
        · exact iff_of_false (not_holds_of_zero hzero' h) (not_holds_of_zero hzero h)
  · have hcall' : ∀ l action, a ≠ .call l action := fun l action h => hcall ⟨l, action, h⟩
    exact .quiet a hcall' (step_calls hcall' hs) rfl rfl

theorem world_case (hi : WorldInv w) (h : w.step e = some w') : WorldCase w w' e := by
  cases e with
  | alone a =>
      simp only [World.step] at h
      split at h
      · cases h
      · next hremote =>
          obtain ⟨s', hs, rfl⟩ := Option.map_eq_some_iff.mp h
          exact alone_case hi (by simpa using hremote) hs
  | attach l senderId answered =>
      simp only [World.step] at h
      split at h
      · next c hc =>
          split at h
          · next S hpc =>
              split at h
              · next hnew =>
                  obtain ⟨s', hs, rfl⟩ := Option.map_eq_some_iff.mp h
                  obtain ⟨c', hc', heffect, hearly⟩ := legStep_case hi hs
                  obtain rfl : c = c' := Option.some.inj (hc.symm.trans hc')
                  cases answered with
                  | false =>
                      obtain ⟨c', hcalls, -, hzero, -⟩ := attach_zero hearly heffect
                      exact .lost l S c c' senderId hc hpc hnew.2 hcalls hzero rfl rfl
                  | true =>
                      refine .answered l S c senderId hc hpc hnew.1 hnew.2 ?_ rfl rfl
                      cases heffect with
                      | attachFailed T hpc' => exact absurd rfl hnew.1
                      | attached T hpc' =>
                          obtain rfl : S = T := CallPc.found.inj (hpc.symm.trans hpc')
                          rfl
              · cases h
          · cases h
      · cases h
  | detach l received =>
      simp only [World.step] at h
      split at h
      · next c hc =>
          split at h
          · next S hpc =>
              obtain ⟨s', hs, rfl⟩ := Option.map_eq_some_iff.mp h
              obtain ⟨c', hc', heffect, hearly⟩ := legStep_case hi hs
              obtain rfl : c = c' := Option.some.inj (hc.symm.trans hc')
              cases heffect with
              | hangupDeleted T hpc' =>
                  exact .detached l S c _ received hc hpc rfl nofun rfl
                    (fun h => by simp [Call.Holds, CallPc.keeps]) rfl rfl
          · cases h
      · cases h
  | sessionEnds S serverId =>
      cases h
      exact .ended S serverId rfl rfl rfl

theorem step_state (h : w.step e = some w') :
    w'.state = w.state ∨ ∃ a, Servers.step w.state a = some w'.state := by
  cases e with
  | alone a =>
      simp only [World.step] at h
      split at h
      · cases h
      · obtain ⟨s', hs, rfl⟩ := Option.map_eq_some_iff.mp h
        exact .inr ⟨_, hs⟩
  | attach l senderId answered =>
      simp only [World.step] at h
      split at h
      · split at h
        · split at h
          · obtain ⟨s', hs, rfl⟩ := Option.map_eq_some_iff.mp h
            exact .inr ⟨_, hs⟩
          · cases h
        · cases h
      · cases h
  | detach l received =>
      simp only [World.step] at h
      split at h
      · split at h
        · obtain ⟨s', hs, rfl⟩ := Option.map_eq_some_iff.mp h
          exact .inr ⟨_, hs⟩
        · cases h
      · cases h
  | sessionEnds S serverId =>
      cases h
      exact .inl rfl

/-! ## The invariant -/

section OneLeg

variable {P : Call → Prop} {calls : List Call}

/-- What holds of every leg holds of one of them and of the others. -/
theorem forall_mem_iff_others (hc : calls[l]? = some c) :
    (∀ d ∈ calls, P d) ↔ P c ∧ ∀ (m : Nat) (d : Call), m ≠ l → calls[m]? = some d → P d := by
  constructor
  · intro h
    exact ⟨h c (List.mem_of_getElem? hc), fun m d _ hd => h d (List.mem_of_getElem? hd)⟩
  · rintro ⟨hself, hothers⟩ d hd
    obtain ⟨m, hm⟩ := List.mem_iff_getElem?.mp hd
    by_cases hml : m = l
    · subst hml
      obtain rfl : c = d := Option.some.inj (hc.symm.trans hm)
      exact hself
    · exact hothers m d hml hm

theorem forall_mem_set_iff (hc : calls[l]? = some c) :
    (∀ d ∈ calls.set l c', P d) ↔
      P c' ∧ ∀ (m : Nat) (d : Call), m ≠ l → calls[m]? = some d → P d := by
  have hlt := (List.getElem?_eq_some_iff.mp hc).1
  rw [forall_mem_iff_others (List.getElem?_set_self (a := c') hlt)]
  refine and_congr_right fun _ => forall₂_congr fun m d => imp_congr_right fun hm => ?_
  rw [List.getElem?_set_ne (Ne.symm hm)]

end OneLeg

/-- The legs after a step: each is as it was, or the one that moved. -/
theorem getElem?_set_cases {calls : List Call} {m : Nat} {d : Call}
    (hd : (calls.set l c')[m]? = some d) : (m = l ∧ d = c') ∨ (m ≠ l ∧ calls[m]? = some d) := by
  by_cases hm : m = l
  · subst hm
    obtain ⟨hlt, hget⟩ := List.getElem?_eq_some_iff.mp hd
    rw [List.getElem_set_self] at hget
    exact .inl ⟨rfl, hget.symm⟩
  · rw [List.getElem?_set_ne (Ne.symm hm)] at hd
    exact .inr ⟨hm, hd⟩

/-- A leg moves and gets no other handle. -/
theorem WorldInv.move (hi : WorldInv w) (hhome : HomeInv w'.state)
    (hc : w.state.calls[l]? = some c) (hcalls : w'.state.calls = w.state.calls.set l c')
    (hearly : c'.EarlyZero) (hhandle : c'.handle = c.handle ∨ c'.handle = none)
    (hissued : ∀ h ∈ w.issued, h ∈ w'.issued) (hattached : ∀ h ∈ w'.handles, h ∈ w'.issued) :
    WorldInv w' := by
  -- a handle of the leg that moved is one that it had
  have hback : ∀ (m : Nat) (d : Call) (h : PluginHandle), w'.state.calls[m]? = some d →
      d.handle = some h → ∃ d₀, w.state.calls[m]? = some d₀ ∧ d₀.handle = some h := by
    intro m d h hd hdhandle
    rw [hcalls] at hd
    rcases getElem?_set_cases hd with ⟨rfl, rfl⟩ | ⟨-, hd⟩
    · rcases hhandle with hsame | hnone
      · exact ⟨c, hc, hsame ▸ hdhandle⟩
      · rw [hnone] at hdhandle
        cases hdhandle
    · exact ⟨d, hd, hdhandle⟩
  refine ⟨hhome, ?_, hattached, ?_, ?_⟩
  · rw [hcalls, forall_mem_set_iff hc]
    exact ⟨hearly, ((forall_mem_iff_others hc).mp hi.early).2⟩
  · intro d hd h hdhandle
    obtain ⟨m, hm⟩ := List.mem_iff_getElem?.mp hd
    obtain ⟨d₀, hd₀, hhandle₀⟩ := hback m d h hm hdhandle
    exact hissued h (hi.issued d₀ (List.mem_of_getElem? hd₀) h hhandle₀)
  · intro m n d e h hd he hdhandle hehandle
    obtain ⟨d₀, hd₀, hdhandle₀⟩ := hback m d h hd hdhandle
    obtain ⟨e₀, he₀, hehandle₀⟩ := hback n e h he hehandle
    exact hi.unique m n d₀ e₀ h hd₀ he₀ hdhandle₀ hehandle₀

theorem handle_attached (hhome : c.AtHome) (hpc : c.pc = .found S) (hne : senderId ≠ 0) :
    { c with pc := CallPc.attached S, senderId := senderId }.handle
      = some (handleFor S c senderId) := by
  have hS : c.home = some S := hhome S (by rw [hpc]; rfl)
  simp only [Call.handle, if_neg hne, hS, Option.map_some]
  rfl

theorem step_worldInv (hi : WorldInv w) (h : w.step e = some w') : WorldInv w' := by
  have hhome : HomeInv w'.state := by
    rcases step_state h with hsame | ⟨a, hs⟩
    · rw [hsame]
      exact hi.home
    · exact step_homeInv hi.home hs
  cases world_case hi h with
  | quiet a hcall hcalls hissued hhandles =>
      have hattached : ∀ h ∈ w'.handles, h ∈ w'.issued := by
        rw [hhandles, hissued]
        exact hi.attached
      rcases hcalls with hcalls | ⟨active, hcalls⟩
      · exact ⟨hhome, hcalls ▸ hi.early, hattached, by rw [hcalls, hissued]; exact hi.issued,
          by rw [hcalls]; exact hi.unique⟩
      · have hnew : ∀ d ∈ w'.state.calls, d ∈ w.state.calls ∨ d = { pc := .resolved active } := by
          intro d hd
          rw [hcalls] at hd
          exact (List.mem_append.mp hd).imp_right List.mem_singleton.mp
        have hback : ∀ (m : Nat) (d : Call) (h : PluginHandle), w'.state.calls[m]? = some d →
            d.handle = some h → w.state.calls[m]? = some d := by
          intro m d h hd hhandle
          rw [hcalls, List.getElem?_append] at hd
          split at hd
          · exact hd
          · -- the new leg has no handle
            obtain rfl : d = _ := List.mem_singleton.mp (List.mem_of_getElem? hd)
            rw [handle_of_zero rfl] at hhandle
            cases hhandle
        refine ⟨hhome, ?_, hattached, ?_, ?_⟩
        · intro d hd
          rcases hnew d hd with hold | rfl
          · exact hi.early d hold
          · exact fun _ => rfl
        · intro d hd h hhandle
          rw [hissued]
          rcases hnew d hd with hold | rfl
          · exact hi.issued d hold h hhandle
          · rw [handle_of_zero rfl] at hhandle
            cases hhandle
        · intro m n d e h hd he hdhandle hehandle
          exact hi.unique m n d e h (hback m d h hd hdhandle) (hback n e h he hehandle) hdhandle
            hehandle
  | same l c c' action hc hcalls hearly hne hhandle hholds hissued hhandles =>
      exact hi.move hhome hc hcalls hearly (.inl hhandle) (by rw [hissued]; exact fun _ h => h)
        (by rw [hhandles, hissued]; exact hi.attached)
  | hangup l c c' hc hcalls hearly hhandle hholds hissued hhandles =>
      exact hi.move hhome hc hcalls hearly (.inl hhandle) (by rw [hissued]; exact fun _ h => h)
        (by rw [hhandles, hissued]; exact hi.attached)
  | lost l S c c' senderId hc hpc hfresh hcalls hzero hissued hhandles =>
      refine hi.move hhome hc hcalls (fun _ => hzero) (.inr (handle_of_zero hzero)) ?_ ?_
      · rw [hissued]
        exact fun h hh => List.mem_cons_of_mem _ hh
      · rw [hissued, hhandles]
        exact fun h hh => List.mem_cons.mpr ((List.mem_cons.mp hh).imp_right (hi.attached h))
  | detached l S c c' received hc hpc hcalls hearly hhandle hholds hissued hhandles =>
      refine hi.move hhome hc hcalls hearly (.inl hhandle) (by rw [hissued]; exact fun _ h => h) ?_
      rw [hissued, hhandles]
      intro k hk
      cases received with
      | false => exact hi.attached k hk
      | true => exact hi.attached k (List.mem_of_mem_filter hk)
  | ended S serverId hstate hissued hhandles =>
      refine ⟨hhome, by rw [hstate]; exact hi.early, ?_, by rw [hstate, hissued]; exact hi.issued,
        by rw [hstate]; exact hi.unique⟩
      rw [hissued, hhandles]
      exact fun h hh => hi.attached h (List.mem_of_mem_filter hh)
  | answered l S c senderId hc hpc hne hfresh hcalls hissued hhandles =>
      have hhandle := handle_attached (hi.home c (List.mem_of_getElem? hc)) hpc hne
      -- no leg had the new handle
      have hother : ∀ (m : Nat) (d : Call), w.state.calls[m]? = some d →
          d.handle ≠ some (handleFor S c senderId) := fun m d hd hd' =>
        hfresh (hi.issued d (List.mem_of_getElem? hd) _ hd')
      refine ⟨hhome, ?_, ?_, ?_, ?_⟩
      · rw [hcalls, forall_mem_set_iff hc]
        exact ⟨nofun, ((forall_mem_iff_others hc).mp hi.early).2⟩
      · rw [hissued, hhandles]
        exact fun h hh => List.mem_cons.mpr ((List.mem_cons.mp hh).imp_right (hi.attached h))
      · intro d hd h hdhandle
        rw [hissued]
        obtain ⟨m, hm⟩ := List.mem_iff_getElem?.mp hd
        rw [hcalls] at hm
        rcases getElem?_set_cases hm with ⟨-, rfl⟩ | ⟨-, hold⟩
        · rw [hhandle] at hdhandle
          cases hdhandle
          exact List.mem_cons_self
        · exact List.mem_cons_of_mem _ (hi.issued d (List.mem_of_getElem? hold) h hdhandle)
      · intro m n d e h hd he hdhandle hehandle
        rw [hcalls] at hd he
        rcases getElem?_set_cases hd with ⟨hm, hdself⟩ | ⟨-, hdold⟩
        · rcases getElem?_set_cases he with ⟨hn, -⟩ | ⟨-, heold⟩
          · rw [hm, hn]
          · rw [hdself, hhandle] at hdhandle
            cases hdhandle
            exact absurd hehandle (hother n e heold)
        · rcases getElem?_set_cases he with ⟨-, heself⟩ | ⟨-, heold⟩
          · rw [heself, hhandle] at hehandle
            cases hehandle
            exact absurd hdhandle (hother m d hdold)
          · exact hi.unique m n d e h hdold heold hdhandle hehandle

/-! ## What leaves a handle behind -/

/-- No two legs hold a handle. -/
theorem WorldInv.others (hi : WorldInv w) (hc : w.state.calls[l]? = some c) (hholds : c.Holds h) :
    ∀ (m : Nat) (d : Call), m ≠ l → w.state.calls[m]? = some d → ¬ d.Holds h :=
  fun m d hm hd hdholds => hm (hi.unique m l d c h hd hc hdholds.1 hholds.1)

/-- A leg moves and no handle is attached or taken off. -/
theorem stranded_move (hc : w.state.calls[l]? = some c)
    (hcalls : w'.state.calls = w.state.calls.set l c') (hhandles : w'.handles = w.handles)
    (hi : WorldInv w) (hless : c'.Holds h → c.Holds h) :
    Stranded h w' ↔ (h ∈ w.handles ∧ c.Holds h ∧ ¬ c'.Holds h) ∨ Stranded h w := by
  rw [Stranded, Stranded, hhandles, hcalls, forall_mem_set_iff hc, forall_mem_iff_others hc]
  by_cases hholds : c.Holds h
  · have hothers := hi.others hc hholds
    tauto
  · tauto

/-- A leg that has found its own server is about to detach its own handle. -/
theorem holds_hangupFound (hpc : c.pc = .hangupFound S) (hholds : c.Holds h) :
    h = handleFor S c c.senderId := by
  obtain ⟨hhandle, hkeeps⟩ := hholds
  have hserver : S = h.server := by
    rw [hpc] at hkeeps
    exact of_decide_eq_true hkeeps
  rw [Call.handle] at hhandle
  split at hhandle
  · cases hhandle
  · obtain ⟨T, -, rfl⟩ := Option.map_eq_some_iff.mp hhandle
    rw [hserver]
    rfl

theorem step_stranded (h : PluginHandle) (hi : WorldInv w) (hstep : w.step e = some w') :
    Stranded h w' ↔ Strands h w e ∨ (Stranded h w ∧ ¬ Frees h w e) := by
  cases world_case hi hstep with
  | quiet a hcall hcalls hissued hhandles =>
      have hstrands : ¬ Strands h w (.alone a) := by
        cases a with
        | call l action => exact absurd rfl (hcall l action)
        | _ => exact fun h => h
      have hsame : Stranded h w' ↔ Stranded h w := by
        rw [Stranded, Stranded, hhandles]
        refine and_congr_right fun _ => ?_
        rcases hcalls with hcalls | ⟨active, hcalls⟩
        · rw [hcalls]
        · have hnew : ¬ Call.Holds { pc := .resolved active } h := not_holds_of_zero rfl h
          simp only [hcalls, List.mem_append, List.mem_singleton, or_imp, forall_and, forall_eq,
            hnew, not_false_eq_true, and_true]
      have hfrees : ¬ Frees h w (.alone a) := fun h => h
      tauto
  | same l c c' action hc hcalls hearly hne hhandle hholds hissued hhandles =>
      have hstrands : ¬ Strands h w (.alone (.call l action)) := by
        cases action with
        | hangupLookup => exact absurd rfl hne
        | _ => exact fun h => h
      have hfrees : ¬ Frees h w (.alone (.call l action)) := fun h => h
      rw [stranded_move hc hcalls hhandles hi (hholds h).mp]
      have hsame := hholds h
      tauto
  | hangup l c c' hc hcalls hearly hhandle hholds hissued hhandles =>
      have hfrees : ¬ Frees h w (.alone (.call l .hangupLookup)) := fun h => h
      have hstrands : Strands h w (.alone (.call l .hangupLookup)) ↔
          h ∈ w.handles ∧ c.Holds h ∧ ¬ c'.Holds h := by
        have hlookup := hholds h
        simp only [Strands, hc, Option.mem_some_iff, exists_eq_left']
        tauto
      rw [stranded_move hc hcalls hhandles hi (fun hh => ((hholds h).mp hh).1), hstrands]
      tauto
  | answered l S c senderId hc hpc hne hfresh hcalls hissued hhandles =>
      have hmem := List.mem_of_getElem? hc
      have hhandle := handle_attached (hi.home c hmem) hpc hne
      have hzero := hi.early c hmem (by rw [hpc]; rfl)
      have hnew : Call.Holds { c with pc := .attached S, senderId := senderId } h ↔
          handleFor S c senderId = h := by
        rw [Call.Holds, hhandle, Option.some.injEq]
        exact and_iff_left rfl
      have hnone : ¬ c.Holds h := not_holds_of_zero hzero h
      have hfresh' : h ∈ w.handles → handleFor S c senderId ≠ h := by
        rintro hh rfl
        exact hfresh (hi.attached _ hh)
      have hstrands : ¬ Strands h w (.attach l senderId true) := nofun
      have hfrees : ¬ Frees h w (.attach l senderId true) := fun h => h
      rw [Stranded, Stranded, hhandles, hcalls, forall_mem_set_iff hc, forall_mem_iff_others hc,
        hnew, List.mem_cons, eq_comm (a := h)]
      tauto
  | lost l S c c' senderId hc hpc hfresh hcalls hzero hissued hhandles =>
      have hnone : ¬ c.Holds h :=
        not_holds_of_zero (hi.early c (List.mem_of_getElem? hc) (by rw [hpc]; rfl)) h
      have hnone' : ¬ c'.Holds h := not_holds_of_zero hzero h
      have hstrands : Strands h w (.attach l senderId false) ↔ h = handleFor S c senderId := by
        simp [Strands, hc, hpc]
      have hfrees : ¬ Frees h w (.attach l senderId false) := fun h => h
      -- no leg holds a handle that was not given out before
      have hnobody : h = handleFor S c senderId → ∀ (m : Nat) (d : Call), m ≠ l →
          w.state.calls[m]? = some d → ¬ d.Holds h := by
        rintro rfl m d - hd hholds
        exact hfresh (hi.issued d (List.mem_of_getElem? hd) _ hholds.1)
      rw [Stranded, Stranded, hhandles, hcalls, forall_mem_set_iff hc, forall_mem_iff_others hc,
        hstrands, List.mem_cons]
      tauto
  | detached l S c c' received hc hpc hcalls hearly hhandle hholds hissued hhandles =>
      have hnone : ¬ c'.Holds h := hholds h
      have hothers := hi.others (h := h) hc
      rw [Stranded, Stranded, hhandles, hcalls, forall_mem_set_iff hc, forall_mem_iff_others hc]
      cases received with
      | false =>
          have hstrands : Strands h w (.detach l false) ↔ h ∈ w.handles ∧ c.Holds h := by
            simp [Strands, hc]
          have hfrees : ¬ Frees h w (.detach l false) := nofun
          rw [hstrands, if_neg Bool.false_ne_true]
          tauto
      | true =>
          have hstrands : ¬ Strands h w (.detach l true) := nofun
          have hfrees : Frees h w (.detach l true) ↔ h = handleFor S c c.senderId := by
            simp [Frees, hc, hpc]
          have hown : c.Holds h → h = handleFor S c c.senderId := holds_hangupFound hpc
          rw [hfrees, if_pos rfl, List.mem_filter, decide_eq_true_eq]
          tauto
  | ended S serverId hstate hissued hhandles =>
      have hstrands : ¬ Strands h w (.sessionEnds S serverId) := fun h => h
      have hfrees : Frees h w (.sessionEnds S serverId) ↔
          h.server = S ∧ h.serverId = serverId := Iff.rfl
      rw [Stranded, Stranded, hstate, hhandles, hfrees, List.mem_filter, decide_eq_true_eq]
      tauto

/-- At the end of a run a handle is left behind exactly if a step left it behind, and
    nothing took it off since. -/
theorem stranded_iff {events : List Event} (h0 : w.Initial)
    (hrun : exec World.step Always w events = some w') (h : PluginHandle) :
    Stranded h w' ↔ ∃ before e later v u, events = before ++ e :: later ∧
      exec World.step Always w before = some v ∧ v.step e = some u ∧ Strands h v e ∧
      Never World.step Always (Frees h) u later := by
  obtain ⟨⟨podServerFailMax, hstate⟩, hissued, hhandles⟩ := h0
  have hcalls : w.state.calls = [] := by rw [hstate]
  have hinv : WorldInv w := by
    refine ⟨?_, ?_, ?_, ?_, ?_⟩
    · simp [HomeInv, hcalls]
    · simp [hcalls]
    · simp [hhandles]
    · simp [hcalls]
    · simp [hcalls]
  have hclean : ¬ Stranded h w := by simp [Stranded, hhandles]
  have hkeeps : ∀ w e w', WorldInv w → Always w e → World.step w e = some w' → WorldInv w' :=
    fun w e w' hi _ hs => step_worldInv hi hs
  have hstep : ∀ w e w', WorldInv w → Always w e → World.step w e = some w' →
      (Stranded h w' ↔ Strands h w e ∨ (Stranded h w ∧ ¬ Frees h w e)) :=
    fun w e w' hi _ hs => step_stranded h hi hs
  rw [Transition.exec_since_iff hkeeps hstep hinv hrun]
  exact or_iff_right fun hs => hclean hs.1

instance (h : PluginHandle) (w : World) : Decidable (Stranded h w) :=
  inferInstanceAs (Decidable (_ ∧ _))

/-- Server a registers under 7; a leg gets handle 11 there, the poll fails, and the leg
    hangs up before the session is claimed. -/
def hangupDuringClaim : List Event :=
  [.alone (.serversAdd "a" true), .alone (.server 0 (.thread (.start true))),
    .alone (.server 0 (.thread (.outer true))), .alone (.server 0 (.thread (.create 7 true))),
    .alone (.server 0 (.thread .inner)), .alone (.resolve 0), .alone (.call 0 .dial),
    .alone (.call 0 .initLookup), .attach 0 11 true, .alone (.call 0 (.insert true)),
    .alone (.call 0 (.createRoom true)), .alone (.call 0 .countServer),
    .alone (.call 0 .countGlobal), .alone (.server 0 (.thread (.polled .false))),
    .alone (.call 0 .hangupLookup)]

theorem stranded_iff_duringClaim :
    ∃ before e later v u, hangupDuringClaim = before ++ e :: later ∧
      exec World.step Always { state := {} } before = some v ∧ v.step e = some u ∧
      Strands ⟨0, 7, 11⟩ v e ∧ Never World.step Always (Frees ⟨0, 7, 11⟩) u later := by
  have hrun : (exec World.step Always { state := {} } hangupDuringClaim).map
      (fun w => decide (Stranded ⟨0, 7, 11⟩ w)) = some true := by decide
  obtain ⟨w', hw', hp⟩ := Option.map_eq_some_iff.mp hrun
  exact (stranded_iff ⟨⟨0, rfl⟩, rfl, rfl⟩ hw' ⟨0, 7, 11⟩).mp (of_decide_eq_true hp)

end ModJanus.Servers
