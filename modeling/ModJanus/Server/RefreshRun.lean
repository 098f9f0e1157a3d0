/-
  ModJanus.Server.RefreshRun

  A refresh that runs alone is a run of the registry.

  `serversRegistryRefresh` goes through its loops in one piece; the steps of `Registry.step`
  cut them at every section.  Here the refresh takes its steps one after another, and the
  thread of a server that it stops takes its own when it is joined.  The run ends in the
  same state, with the refresh as one more caller that is done.
-/
import ModJanus.Server.Refresh

namespace ModJanus.Registry

open Transition (Reach Always)

/-! ## The refresh at work -/

/-- The state while `x`, called after the callers `cs`, is at work. -/
def State.during (s : State) (cs : List Caller) (x : Caller) (mutex : Option Nat) : State :=
  { s with callers := cs ++ [x], mutex := mutex }

section During

variable (s : State) (cs : List Caller) (x : Caller) (mutex : Option Nat)

@[simp] theorem during_servers : (s.during cs x mutex).servers = s.servers := rfl

@[simp] theorem during_serverCount : (s.during cs x mutex).serverCount = s.serverCount := rfl

@[simp] theorem during_names :
    (s.during cs x mutex).pServerNameLookup = s.pServerNameLookup := rfl

@[simp] theorem during_threads : (s.during cs x mutex).threads = s.threads := rfl

@[simp] theorem during_mutex : (s.during cs x mutex).mutex = mutex := rfl

@[simp] theorem during_setServer (S : Nat) (v : Server) :
    (s.during cs x mutex).setServer S v = (s.setServer S v).during cs x mutex := rfl

@[simp] theorem during_addServer (v : Server) :
    (s.during cs x mutex).addServer v = (s.addServer v).during cs x mutex := rfl

@[simp] theorem during_setThread (t : Nat) (thread : Thread) :
    (s.during cs x mutex).setThread t thread = (s.setThread t thread).during cs x mutex := rfl

@[simp] theorem during_setCaller (x' : Caller) :
    (s.during cs x mutex).setCaller cs.length x' = s.during cs x' mutex := by
  simp [State.during, State.setCaller]

@[simp] theorem during_removed (S : Nat) :
    (s.during cs x mutex).serversDynamicRemoveFromLookup S =
      (s.serversDynamicRemoveFromLookup S).during cs x mutex := by
  unfold State.serversDynamicRemoveFromLookup
  dsimp only
  rw [apply_ite (fun s' : State => s'.during cs x mutex)]
  rfl

end During

section Steps

variable {init : State → Prop} {s : State} {cs : List Caller} {x : Caller} {mutex : Option Nat}

/-- The refresh takes a step. -/
theorem reach_caller {s' : State} (h : Reach step Always init (s.during cs x mutex))
    (a : CallerAction) (hs : (s.during cs x mutex).callerStep cs.length x a = some s') :
    Reach step Always init s' := by
  have hx : (s.during cs x mutex).callers[cs.length]? = some x := List.getElem?_concat_length
  refine h.next (a := .caller cs.length a) trivial ?_
  simp only [step, hx]
  exact hs

/-- A thread takes a step. -/
theorem reach_thread (h : Reach step Always init s) {t : Nat} {thread : Thread}
    (ht : s.threads[t]? = some thread) {a : ThreadAction} {s' : State}
    (hs : s.threadStep t thread a = some s') : Reach step Always init s' := by
  refine h.next (a := .thread t a) trivial ?_
  simp only [step, ht]
  exact hs

theorem State.setServer_setServer (s : State) (S : Nat) (v v' : Server) :
    (s.setServer S v).setServer S v' = s.setServer S v' := by
  simp [State.setServer]

theorem State.setThread_setThread (s : State) (t : Nat) (thread thread' : Thread) :
    (s.setThread t thread).setThread t thread' = s.setThread t thread' := by
  simp [State.setThread]

theorem removed_setThread (s : State) (S t : Nat) (thread : Thread) :
    (s.setThread t thread).serversDynamicRemoveFromLookup S =
      (s.serversDynamicRemoveFromLookup S).setThread t thread := by
  unfold State.serversDynamicRemoveFromLookup
  dsimp only
  rw [apply_ite (fun s' : State => s'.setThread t thread)]
  rfl

theorem State.setThread_self {s : State} {t : Nat} {thread thread' : Thread}
    (ht : s.threads[t]? = some thread) : (s.setThread t thread').threads[t]? = some thread' := by
  obtain ⟨hlt, -⟩ := List.getElem?_eq_some_iff.mp ht
  simp [State.setThread, hlt]

/-! ## The second loop -/

/-- A forced start, to its end. -/
theorem reach_startServerThread {S : Nat} {call : StartCall}
    (h : Reach step Always init (s.during cs x mutex)) (hpc : x.pc = .starting S call)
    (hforce : call.force = true) (hrefresh : x.inRefresh = true) :
    Reach step Always init ((s.startServerThread S).during cs { x with pc := .locked } mutex) := by
  have hcreating : Reach step Always init
      ((s.setServer S { s.servers S with enabled := true }).during cs
        { x with pc := .creating S } mutex) := by
    refine reach_caller h .startTest ?_
    simp [State.callerStep, hpc, hforce]
  refine reach_caller hcreating .create ?_
  simp only [State.callerStep, during_servers, during_threads, during_setServer, during_setCaller,
    State.setServer_self, State.setServer_setServer, Caller.started, hrefresh, if_true]
  rfl

/-- The second loop, for one endpoint. -/
theorem reach_refreshPod (h : Reach step Always init (s.during cs x mutex)) (hpc : x.pc = .locked)
    (hrefresh : x.inRefresh = true) (endpoint : Endpoint) :
    Reach step Always init ((s.refreshPod endpoint).during cs
      { x with seenPods := endpoint.podName :: x.seenPods } mutex) := by
  have hlocked : { x with seenPods := endpoint.podName :: x.seenPods, pc := .locked } =
      { x with seenPods := endpoint.podName :: x.seenPods } := by
    rw [← hpc]
  unfold State.refreshPod
  split
  · next hnew =>
      -- a new pod: registered and started by force
      have hstarting : Reach step Always init ((s.addServer
          (.registered endpoint.podName endpoint.podIp endpoint.url)).during cs
            { x with
              pc := .starting s.serverCount .registered
              seenPods := endpoint.podName :: x.seenPods } mutex) := by
        refine reach_caller h (.register endpoint.podName endpoint.podIp endpoint.url) ?_
        simp [State.callerStep, hpc, hnew]
      rw [← hlocked]
      exact reach_startServerThread hstarting rfl rfl hrefresh
  · next S hfind =>
      dsimp only
      split
      · next hdynamic =>
          rw [State.setServer_self]
          split
          · next henabled =>
              refine reach_caller h (.update endpoint.podName endpoint.podIp endpoint.url) ?_
              simp [State.callerStep, hpc, hfind, hdynamic, henabled]
          · next henabled =>
              -- a pod that has been stopped is started again
              have hstarting : Reach step Always init ((s.setServer S
                  ((s.servers S).serversUpdateRegistryServer endpoint.podIp endpoint.url)).during
                    cs { x with
                      pc := .starting S .restart
                      seenPods := endpoint.podName :: x.seenPods } mutex) := by
                refine reach_caller h (.update endpoint.podName endpoint.podIp endpoint.url) ?_
                simp [State.callerStep, hpc, hfind, hdynamic, henabled]
              rw [← hlocked]
              exact reach_startServerThread hstarting rfl rfl hrefresh
      · next hstatic =>
          refine reach_caller h (.update endpoint.podName endpoint.podIp endpoint.url) ?_
          simp [State.callerStep, hpc, hfind, hstatic]

/-- The second loop. -/
theorem reach_refreshPods (endpoints : List Endpoint)
    (h : Reach step Always init (s.during cs x mutex)) (hpc : x.pc = .locked)
    (hrefresh : x.inRefresh = true) :
    Reach step Always init ((endpoints.foldl State.refreshPod s).during cs
      { x with seenPods := (endpoints.map Endpoint.podName).reverse ++ x.seenPods } mutex) := by
  induction endpoints generalizing s x with
  | nil => exact h
  | cons endpoint rest ih =>
      have hrest := ih (reach_refreshPod h hpc hrefresh endpoint) hpc hrefresh
      simpa [List.append_assoc] using hrest

/-! ## The third loop -/

/-- The servers that the third loop may collect, as many as there is room for. -/
theorem reach_collect (servers : List Nat) (h : Reach step Always init (s.during cs x mutex))
    (hpc : x.pc = .locked)
    (hservers : ∀ S ∈ servers, s.Registered S ∧ s.evictable x.seenPods S = true)
    (hroom : x.evictList.length + servers.length ≤ REGISTRY_MAX_ENDPOINTS) :
    Reach step Always init (s.during cs { x with evictList := x.evictList ++ servers } mutex) := by
  induction servers generalizing x with
  | nil =>
      rw [List.append_nil]
      exact h
  | cons S rest ih =>
      obtain ⟨hfind, hevictable⟩ := hservers S List.mem_cons_self
      obtain ⟨hdynamic, hunseen, hcalls⟩ := evictable_iff.mp hevictable
      rw [List.length_cons] at hroom
      -- the loop runs over the table, so the action names the entry and not the server
      have hcollected : Reach step Always init
          (s.during cs { x with evictList := x.evictList ++ [S] } mutex) := by
        refine reach_caller h (.collect (s.servers S).name) ?_
        have hfits : x.evictList.length < REGISTRY_MAX_ENDPOINTS := by omega
        have hfound : s.pServerNameLookup.lookup (s.servers S).name = some S := hfind
        simp [State.callerStep, hpc, hfound, hdynamic, hunseen, hcalls, hfits]
      have hrest := ih hcollected hpc (fun T hT => hservers T (List.mem_cons_of_mem _ hT)) (by
        rw [List.length_append, List.length_singleton]
        omega)
      simpa [List.append_assoc] using hrest

/-! ## The last loop -/

/-- The thread gets to the test of `SFLAG_TERMINATING` with no change to its server. -/
def ThreadPc.rests : ThreadPc → Bool
  | .outer | .inner | .polling => true
  | _ => false

section Thread

variable {t : Nat} {thread : Thread}

/-- A server that terminates: its thread leaves both loops. -/
theorem reach_threadLoops (h : Reach step Always init s) (ht : s.threads[t]? = some thread)
    (hrests : thread.pc.rests = true)
    (hterminating : (s.servers thread.server).terminating = true) :
    Reach step Always init (s.setThread t { thread with pc := .threadDone }) := by
  -- from the outer loop in one step, from the inner one through the outer one
  have houter : ∀ {s' : State} {thread' : Thread}, Reach step Always init s' →
      s'.threads[t]? = some thread' → (s'.servers thread'.server).terminating = true →
      thread'.pc = .outer →
      Reach step Always init (s'.setThread t { thread' with pc := .threadDone }) := by
    intro s' thread' h' ht' hterminating' hpc
    refine reach_thread h' ht' (a := .outer true) ?_
    simp [State.threadStep, hpc, hterminating']
  have hinner : ∀ {s' : State} {thread' : Thread}, Reach step Always init s' →
      s'.threads[t]? = some thread' → (s'.servers thread'.server).terminating = true →
      thread'.pc = .inner →
      Reach step Always init (s'.setThread t { thread' with pc := .threadDone }) := by
    intro s' thread' h' ht' hterminating' hpc
    have hnext : Reach step Always init (s'.setThread t { thread' with pc := .outer }) := by
      refine reach_thread h' ht' (a := .inner) ?_
      simp [State.threadStep, hpc, hterminating']
    have hlast := houter hnext (State.setThread_self ht') hterminating' rfl
    rwa [State.setThread_setThread] at hlast
  cases hpc : thread.pc with
  | outer => exact houter h ht hterminating hpc
  | inner => exact hinner h ht hterminating hpc
  | polling =>
      have hnext : Reach step Always init (s.setThread t { thread with pc := .inner }) := by
        refine reach_thread h ht (a := .polled .success) ?_
        simp [State.threadStep, hpc, State.polled]
      have hlast := hinner hnext (State.setThread_self ht) hterminating rfl
      rwa [State.setThread_setThread] at hlast
  | _ =>
      rw [hpc] at hrests
      cases hrests

/-- A server that is evicted: its thread runs to its end. -/
theorem reach_threadDone (h : Reach step Always init s) (ht : s.threads[t]? = some thread)
    (hrests : thread.pc.rests = true) (hterminating : (s.servers thread.server).terminating = true)
    (hevicted : (s.servers thread.server).evicted = true) (hmutex : s.mutex = none) :
    Reach step Always init (s.threadDone thread.server t) := by
  have hdone := reach_threadLoops h ht hrests hterminating
  generalize hids : (hashDelete s.serverIdLookup thread.serverId).1 = ids
  have hexiting : Reach step Always init
      ({ s with serverIdLookup := ids }.setThread t { thread with pc := .exiting }) := by
    refine reach_thread hdone (State.setThread_self ht) (a := .deleteEntry) ?_
    simp only [State.threadStep, State.setThread_setThread, ← hids]
    rfl
  have hremoving : Reach step Always init
      ({ s with serverIdLookup := ids }.setThread t { thread with pc := .removing }) := by
    refine reach_thread hexiting (State.setThread_self ht) (a := .testEvicted) ?_
    show some (State.setThread (State.setThread _ t _) t { thread with
      pc := if (s.servers thread.server).evicted then .removing else .returned }) = _
    rw [State.setThread_setThread, if_pos hevicted]
  refine reach_thread hremoving (State.setThread_self ht) (a := .remove) ?_
  simp only [State.threadStep, removed_setThread, State.setThread_setThread]
  rw [if_pos]
  · simp [State.threadDone, ht, hids, hevicted]
  · exact hmutex

/-- What the thread leaves of the threads. -/
theorem threadDone_threads (s : State) (S t : Nat) : ∃ thread' : Thread,
    thread'.pc = .returned ∧ (s.threadDone S t).threads = s.threads.set t thread' := by
  refine ⟨{ (s.threads[t]?).getD { server := S } with pc := .returned }, rfl, ?_⟩
  unfold State.threadDone
  dsimp only
  split
  · exact congrArg (List.set · t _) (removed_lists _ S).2
  · rfl

theorem during_threadDone (s : State) (cs : List Caller) (x : Caller) (mutex : Option Nat)
    (S t : Nat) :
    (s.during cs x mutex).threadDone S t = (s.threadDone S t).during cs x mutex := by
  unfold State.threadDone
  dsimp only
  rw [during_servers]
  split
  · rw [← during_setThread, ← during_removed]
    rfl
  · rfl

end Thread

/-- The threads that would be joined are at rest. -/
def Resting (s : State) : Prop :=
  ∀ S t, (s.servers S).pThread = some t →
    ∃ thread, s.threads[t]? = some thread ∧ thread.server = S ∧ thread.pc.rests = true

theorem updated_pThread (v : Server) (podIp url : String) :
    (v.serversUpdateRegistryServer podIp url).pThread = v.pThread := by
  unfold Server.serversUpdateRegistryServer
  dsimp only
  split
  · split <;> rfl
  · split <;> rfl

theorem removed_pThread (s : State) (S T : Nat) :
    ((s.serversDynamicRemoveFromLookup S).servers T).pThread = (s.servers T).pThread := by
  rcases s.serversDynamicRemoveFromLookup_cases S with heq | ⟨-, ids, -, heq⟩
  · rw [heq]
  · rw [heq]
    show ((s.setServer S _).servers T).pThread = _
    by_cases hT : T = S
    · subst hT
      rw [State.setServer_self]
    · rw [State.setServer_ne _ _ hT]

theorem threadDone_pThread (s : State) (S t T : Nat) :
    ((s.threadDone S t).servers T).pThread = (s.servers T).pThread := by
  unfold State.threadDone
  dsimp only
  split
  · exact removed_pThread _ S T
  · rfl

namespace Resting

/-- The threads that would be joined would have been joined before, and stand where they
    stood. -/
theorem mono {s s' : State} (h : Resting s)
    (hsame : ∀ S t, (s'.servers S).pThread = some t → (s.servers S).pThread = some t ∧
      ∀ thread, s.threads[t]? = some thread → thread.server = S →
        s'.threads[t]? = some thread) : Resting s' := by
  intro S t hS
  obtain ⟨hbefore, hthread⟩ := hsame S t hS
  obtain ⟨thread, ht, hserver, hrests⟩ := h S t hbefore
  exact ⟨thread, hthread thread ht hserver, hserver, hrests⟩

theorem setServer {s : State} (h : Resting s) (S : Nat) {v : Server}
    (hv : ∀ t, v.pThread = some t → (s.servers S).pThread = some t) :
    Resting (s.setServer S v) := by
  refine h.mono fun T t hT => ⟨?_, fun _ ht _ => ht⟩
  by_cases hTS : T = S
  · subst hTS
    rw [State.setServer_self] at hT
    exact hv t hT
  · rwa [State.setServer_ne _ _ hTS] at hT

theorem startServerThread {s : State} (h : Resting s) (S : Nat) :
    Resting (s.startServerThread S) := by
  intro T t hT
  change ((s.setServer S { s.servers S with
    enabled := true, pThread := some s.threads.length }).servers T).pThread = some t at hT
  by_cases hTS : T = S
  · subst hTS
    rw [State.setServer_self] at hT
    cases hT
    exact ⟨{ server := T }, List.getElem?_concat_length, rfl, rfl⟩
  · rw [State.setServer_ne _ _ hTS] at hT
    obtain ⟨thread, ht, hthread⟩ := h T t hT
    obtain ⟨hlt, -⟩ := List.getElem?_eq_some_iff.mp ht
    exact ⟨thread, (List.getElem?_append_left hlt).trans ht, hthread⟩

theorem refreshPod {s : State} (h : Resting s) (endpoint : Endpoint) :
    Resting (s.refreshPod endpoint) := by
  unfold State.refreshPod
  split
  · have hadded : Resting (s.addServer
        (.registered endpoint.podName endpoint.podIp endpoint.url)) :=
      h.setServer s.serverCount nofun
    exact hadded.startServerThread s.serverCount
  · next S hfind =>
      split
      · have hupdated : Resting (s.setServer S
            ((s.servers S).serversUpdateRegistryServer endpoint.podIp endpoint.url)) := by
          refine h.setServer S fun t ht => ?_
          rwa [updated_pThread] at ht
        dsimp only
        split
        · exact hupdated
        · exact hupdated.startServerThread S
      · exact h

theorem foldl_refreshPod {s : State} (h : Resting s) (endpoints : List Endpoint) :
    Resting (endpoints.foldl State.refreshPod s) := by
  induction endpoints generalizing s with
  | nil => exact h
  | cons endpoint rest ih => exact ih (h.refreshPod endpoint)

theorem stopServerThread {s : State} (h : Resting s) (S : Nat) :
    Resting (s.stopServerThread S) := by
  unfold State.stopServerThread
  split
  · next t hstop hthread =>
      have hterminating : Resting (s.setServer S { s.servers S with terminating := true }) :=
        h.setServer S fun _ => id
      obtain ⟨thread, ht, hserver, -⟩ := h S t hthread
      have ht' : (s.setServer S { s.servers S with terminating := true }).threads[t]? =
          some thread := ht
      dsimp only
      generalize s.setServer S { s.servers S with terminating := true } = s₁
        at hterminating ht' ⊢
      obtain ⟨thread', -, hthreads⟩ := threadDone_threads s₁ S t
      intro T u hT
      by_cases hTS : T = S
      · subst hTS
        rw [State.setServer_self] at hT
        cases hT
      · rw [State.setServer_ne _ _ hTS, threadDone_pThread] at hT
        obtain ⟨other, hu, hother, hrests⟩ := hterminating T u hT
        -- the thread that has returned is one of `S`
        have hne : t ≠ u := by
          rintro rfl
          rw [ht'] at hu
          cases hu
          exact hTS (hother.symm.trans hserver)
        refine ⟨other, ?_, hother, hrests⟩
        show (s₁.threadDone S t).threads[u]? = some other
        rw [hthreads, List.getElem?_set_ne hne]
        exact hu
  · split
    · refine h.mono fun T t hT => ?_
      rw [removed_pThread] at hT
      refine ⟨hT, fun thread ht _ => ?_⟩
      rw [(removed_lists s S).2]
      exact ht
    · exact h

theorem evict {s : State} (h : Resting s) (S : Nat) : Resting (s.evict S) := by
  have hmarked : Resting (s.setServer S { s.servers S with evicted := true }) :=
    h.setServer S fun _ => id
  exact hmarked.stopServerThread S

end Resting

/-- `stopServerThread` for a server that is evicted, with the end of its thread. -/
theorem reach_stopServerThread {S : Nat} (h : Reach step Always init (s.during cs x none))
    (hpc : x.pc = .stopping S) (hrefresh : x.inRefresh = true) (hrest : Resting s)
    (hevicted : (s.servers S).evicted = true) :
    Reach step Always init ((s.stopServerThread S).during cs { x with pc := .evicting } none) := by
  unfold State.stopServerThread
  split
  · next t hstop hthread =>
      obtain ⟨thread, ht, rfl, hrests⟩ := hrest S t hthread
      have hterminating : Reach step Always init
          ((s.setServer thread.server { s.servers thread.server with terminating := true }).during
            cs { x with pc := .terminating thread.server } none) := by
        refine reach_caller h .stopTest ?_
        simp [State.callerStep, hpc, hstop]
      have hjoining : Reach step Always init
          ((s.setServer thread.server { s.servers thread.server with terminating := true }).during
            cs { x with pc := .joining thread.server t } none) := by
        refine reach_caller hterminating .readThread ?_
        simp [State.callerStep, hthread]
      -- the caller waits in its join while the thread runs to its end
      have hdone := reach_threadDone hjoining ht hrests (by simp) (by simp [hevicted]) rfl
      rw [during_threadDone] at hdone
      dsimp only
      generalize hs' : (s.setServer thread.server
        { s.servers thread.server with terminating := true }).threadDone thread.server t = s'
        at hdone ⊢
      have hreturned : ∃ thread', s'.threads[t]? = some thread' ∧ thread'.pc = .returned := by
        obtain ⟨thread', hpc', hthreads⟩ := threadDone_threads (s.setServer thread.server
          { s.servers thread.server with terminating := true }) thread.server t
        obtain ⟨hlt, -⟩ := List.getElem?_eq_some_iff.mp ht
        refine ⟨thread', ?_, hpc'⟩
        rw [← hs', hthreads]
        exact List.getElem?_set_self hlt
      obtain ⟨thread', ht', hpc'⟩ := hreturned
      have hjoined : Reach step Always init
          (s'.during cs { x with pc := .joined thread.server } none) := by
        refine reach_caller hdone .join ?_
        simp [State.callerStep, ht', hpc']
      have hcleared : Reach step Always init
          ((s'.setServer thread.server { s'.servers thread.server with pThread := none }).during cs
            { x with pc := .clearing thread.server } none) := by
        refine reach_caller hjoined .clearThread ?_
        simp [State.callerStep]
      refine reach_caller hcleared .clearFlags ?_
      simp [State.callerStep, State.setServer_setServer, Caller.stopped, hrefresh]
  · next hnot =>
      have hstop : (s.servers S).stoppable = false := by
        cases hthread : (s.servers S).pThread with
        | none => simp [Server.stoppable, hthread]
        | some t => exact Bool.eq_false_iff.mpr fun hstop => hnot t hstop hthread
      -- nothing to stop: the caller removes the server by itself
      rw [if_pos hevicted]
      have hnotStopped : Reach step Always init
          (s.during cs { x with pc := .notStopped S } none) := by
        refine reach_caller h .stopTest ?_
        simp [State.callerStep, hpc, hstop]
      have hremoving : Reach step Always init (s.during cs { x with pc := .removing S } none) := by
        refine reach_caller hnotStopped .testEvicted ?_
        simp [State.callerStep, hevicted]
      refine reach_caller hremoving .remove ?_
      simp [State.callerStep, Caller.stopped, hrefresh]

/-- The last loop, for one server. -/
theorem reach_evict {S : Nat} {rest : List Nat} (h : Reach step Always init (s.during cs x none))
    (hpc : x.pc = .evicting) (hrefresh : x.inRefresh = true) (hlist : x.evictList = S :: rest)
    (hrest : Resting s) :
    Reach step Always init ((s.evict S).during cs { x with evictList := rest } none) := by
  have hmarked : Reach step Always init
      ((s.setServer S { s.servers S with evicted := true }).during cs
        { x with pc := .stopping S, evictList := rest } none) := by
    refine reach_caller h .evict ?_
    simp [State.callerStep, hpc, hlist]
  have hsame : Resting (s.setServer S { s.servers S with evicted := true }) := by
    intro T t hT
    by_cases hTS : T = S
    · subst hTS
      rw [State.setServer_self] at hT
      exact hrest T t hT
    · rw [State.setServer_ne _ _ hTS] at hT
      exact hrest T t hT
  have hstopped := reach_stopServerThread hmarked rfl hrefresh hsame (by simp)
  have hevicting : { x with evictList := rest, pc := .evicting } =
      { x with evictList := rest } := by
    rw [← hpc]
  rw [← hevicting]
  exact hstopped

/-- The last loop, and the end of the refresh. -/
theorem reach_evicts (evictList : List Nat) (h : Reach step Always init (s.during cs x none))
    (hpc : x.pc = .evicting) (hrefresh : x.inRefresh = true) (hlist : x.evictList = evictList)
    (hrest : Resting s) :
    Reach step Always init ((evictList.foldl State.evict s).during cs
      { x with pc := .done, evictList := [] } none) := by
  induction evictList generalizing s x with
  | nil =>
      refine reach_caller h .refreshed ?_
      simp [State.callerStep, hpc, hlist]
  | cons S rest ih =>
      have hfirst : Reach step Always init
          ((s.evict S).during cs { x with evictList := rest } none) :=
        reach_evict h hpc hrefresh hlist hrest
      exact ih (x := { x with evictList := rest }) hfirst hpc hrefresh rfl (hrest.evict S)

end Steps

/-! ## The whole refresh -/

/-- The loops over the endpoints, alone from a state at rest. -/
theorem reach_applyEndpoints {s : State} (h : Reach step Always Initial s)
    (hloading : s.loading = none) (hmutex : s.mutex = none) (hrest : Resting s)
    (endpoints : List Endpoint) : ∃ x : Caller, x.pc = .done ∧
      Reach step Always Initial ((s.applyEndpoints endpoints).during s.callers x none) := by
  have hlocked : Reach step Always Initial (s.during s.callers
      { pc := .locked, inRefresh := true } (some s.callers.length)) := by
    refine h.next (a := .refresh) trivial ?_
    simp only [step]
    rw [if_pos ⟨hloading, hmutex⟩]
    rfl
  -- the loops one after the other, in one critical section but the last
  have hpods := reach_refreshPods endpoints hlocked rfl rfl
  have hkeyed := keyed_of_reach hpods
  have hrested := hrest.foldl_refreshPod endpoints
  unfold State.applyEndpoints
  dsimp only
  generalize endpoints.foldl State.refreshPod s = s₁ at hpods hkeyed hrested ⊢
  -- the caller has the names in the order opposite to that of the endpoints
  have hseen : s₁.evictable (endpoints.map Endpoint.podName) =
      s₁.evictable ((endpoints.map Endpoint.podName).reverse ++ []) := by
    apply evictable_congr
    simp
  have hcollected := reach_collect (s₁.evictList (endpoints.map Endpoint.podName)) hpods rfl
    (fun S hS => by
      have hmem := List.mem_filter.mp (List.mem_of_mem_take hS)
      obtain ⟨name, hfind⟩ := mem_registeredServers.mp hmem.1
      have hname := (hkeyed name S hfind).2
      refine ⟨?_, ?_⟩
      · rw [← hname] at hfind
        exact hfind
      · rw [← hseen]
        exact hmem.2)
    (by
      rw [State.evictList, List.length_take]
      simp)
  have hunlocked : Reach step Always Initial (s₁.during s.callers
      { pc := .evicting
        inRefresh := true
        seenPods := (endpoints.map Endpoint.podName).reverse ++ []
        evictList := [] ++ s₁.evictList (endpoints.map Endpoint.podName) } none) := by
    refine reach_caller hcollected .unlock ?_
    simp only [State.callerStep, during_setCaller]
    rfl
  exact ⟨_, rfl, reach_evicts _ hunlocked rfl rfl rfl hrested⟩

/-- A refresh that runs alone from a state at rest does nothing, or ends as a run of the
    registry ends in which it is one more caller. -/
theorem reach_serversRegistryRefresh {s : State} (h : Reach step Always Initial s)
    (hloading : s.loading = none) (hmutex : s.mutex = none) (hrest : Resting s)
    (service : Service) : (s.serversRegistryRefresh service).1 = s ∨ ∃ x : Caller,
      x.pc = .done ∧ Reach step Always Initial
        ((s.serversRegistryRefresh service).1.during s.callers x none) := by
  unfold State.serversRegistryRefresh
  split
  · exact .inl rfl
  · split
    · exact .inl rfl
    · next parts hparts =>
        split
        · exact .inl rfl
        · next res hres =>
            exact .inr (reach_applyEndpoints h hloading hmutex hrest
              (probeLoop service parts [] res))

end ModJanus.Registry
