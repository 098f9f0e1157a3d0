/-
  ModJanus.Server.Shutdown

  The loop of `mod_janus_shutdown` over the servers.

  `serversIterate` advances an iterator of FreeSWITCH on the table of names, which reads
  the entry that it stands on, and the body of the loop is `stopServerThread`.  For a
  server that is being evicted that call removes the server from the table, either in its
  own branch or at the end of the thread that it joins: the entry is the one that the
  iterator stands on.  The registry thread has been joined before; that no other thread
  changes the table meanwhile is the part of the shutdown that is looked at here.
-/
import ModJanus.Server.Refresh
import ModJanus.Server.Teardown

namespace ModJanus.Registry

open Servers (HashError)
open Transition (Always)

/-! ## The iterator and the loop -/

/-- `serversIterate`: the entry that `pIndex` comes to, or the null pointer behind the
    last. -/
def serversIterate (pServerNameLookup : AList fun _ : String => Nat) (pIndex : Option String) :
    Except HashError (Option (String × Nat)) :=
  match Cursor.next pServerNameLookup.keys pIndex with
  | none => .error .staleIndex
  | some none => .ok none
  | some (some name) => .ok ((pServerNameLookup.lookup name).map fun S => (name, S))

/-- The call of `stopServerThread` takes the server out of the table. -/
def Server.leaves (pServer : Server) : Bool := pServer.evicted && pServer.dynamic

/-- What `stopServerThread` does to the servers and their names: a server that leaves is taken
    out of the table, and no other server is touched. -/
structure Taken (s : State) (S : Nat) (s' : State) : Prop where
  names : s'.pServerNameLookup =
    if (s.servers S).leaves then s.pServerNameLookup.erase (s.servers S).name
    else s.pServerNameLookup
  serverCount : s'.serverCount = s.serverCount
  name : (s'.servers S).name = (s.servers S).name
  leaves : (s'.servers S).leaves = (s.servers S).leaves
  others : ∀ T ≠ S, s'.servers T = s.servers T

section Taken

variable {s s' : State} {S : Nat} {v : Server}

/-- The server was set before. -/
theorem Taken.of_set (h : Taken (s.setServer S v) S s') (hname : v.name = (s.servers S).name)
    (hleaves : v.leaves = (s.servers S).leaves) : Taken s S s' := by
  have hnames := h.names
  have hself := h.name
  have hflag := h.leaves
  rw [State.setServer_self] at hnames hself hflag
  rw [hname, hleaves] at hnames
  exact ⟨hnames, h.serverCount, hself.trans hname, hflag.trans hleaves,
    fun T hT => (h.others T hT).trans (s.setServer_ne v hT)⟩

/-- The server is set after it. -/
theorem Taken.set (h : Taken s S s') (hname : v.name = (s'.servers S).name)
    (hleaves : v.leaves = (s'.servers S).leaves) : Taken s S (s'.setServer S v) := by
  refine ⟨h.names, h.serverCount, ?_, ?_,
    fun T hT => (s'.setServer_ne v hT).trans (h.others T hT)⟩
  · rw [State.setServer_self, hname, h.name]
  · rw [State.setServer_self, hleaves, h.leaves]

theorem removed_taken (s : State) (S : Nat) :
    Taken s S (if (s.servers S).evicted then s.serversDynamicRemoveFromLookup S else s) := by
  split
  · next hevicted =>
      unfold State.serversDynamicRemoveFromLookup
      dsimp only
      split
      · next hthere =>
          have hleaves : (s.servers S).leaves = true := by
            rw [Server.leaves, hevicted, hthere.1]
            rfl
          refine ⟨?_, rfl, ?_, ?_, fun T hT => s.setServer_ne _ hT⟩
          · rw [if_pos hleaves]
          · show (State.servers (s.setServer S _) S).name = _
            rw [State.setServer_self]
          · show (State.servers (s.setServer S _) S).leaves = _
            rw [State.setServer_self]
            rfl
      · next hnone =>
          refine ⟨?_, rfl, rfl, rfl, fun _ _ => rfl⟩
          split
          · next hleaves =>
              -- its name is not in the table
              rw [not_and, Option.not_isSome_iff_eq_none] at hnone
              rw [Server.leaves, Bool.and_eq_true] at hleaves
              exact (erase_of_lookup_none (hnone hleaves.2)).symm
          · rfl
  · next hevicted =>
      refine ⟨?_, rfl, rfl, rfl, fun _ _ => rfl⟩
      rw [if_neg]
      rw [Server.leaves, Bool.and_eq_true]
      exact fun h => hevicted h.1

theorem threadDone_taken (s : State) (S t : Nat) : Taken s S (s.threadDone S t) := by
  have h := removed_taken { s with serverIdLookup := (hashDelete s.serverIdLookup
    ((s.threads[t]?).getD { server := S }).serverId).1 } S
  exact ⟨h.names, h.serverCount, h.name, h.leaves, h.others⟩

theorem stopServerThread_taken (s : State) (S : Nat) : Taken s S (s.stopServerThread S) := by
  unfold State.stopServerThread
  split
  · have hdone := threadDone_taken (s.setServer S { s.servers S with terminating := true }) S
    exact ((hdone _).of_set rfl rfl).set rfl rfl
  · exact removed_taken s S

/-- A server without a thread to stop stays so when it is taken out of the table. -/
theorem removed_stoppable (h : (s.servers S).stoppable = false) :
    ((if (s.servers S).evicted then s.serversDynamicRemoveFromLookup S else s).servers
      S).stoppable = false := by
  split
  · unfold State.serversDynamicRemoveFromLookup
    dsimp only
    split
    · show (State.servers (s.setServer S _) S).stoppable = false
      rw [State.setServer_self]
      rfl
    · exact h
  · exact h

theorem stopServerThread_stopped (s : State) (S : Nat) :
    ((s.stopServerThread S).servers S).stoppable = false := by
  unfold State.stopServerThread
  split
  · rw [State.setServer_self]
    rfl
  · next hbranch =>
      apply removed_stoppable
      cases hstop : (s.servers S).stoppable with
      | false => rfl
      | true =>
          -- with a thread to stop the other branch is taken
          obtain ⟨t, ht⟩ : ∃ t, (s.servers S).pThread = some t := by
            rw [Server.stoppable, Bool.and_eq_true] at hstop
            exact Option.isSome_iff_exists.mp hstop.2
          exact absurd ht (hbranch t hstop)

end Taken

theorem serversIterate_ok {names : AList fun _ : String => Nat} {pIndex : Option String}
    {name : String} {S : Nat} (h : serversIterate names pIndex = .ok (some (name, S))) :
    Cursor.next names.keys pIndex = some (some name) ∧ names.lookup name = some S := by
  unfold serversIterate at h
  split at h
  · cases h
  · cases h
  · next name' hnext =>
      obtain ⟨T, hfind, heq⟩ := Option.map_eq_some_iff.mp (Except.ok.inj h)
      cases heq
      exact ⟨hnext, hfind⟩

/-- The iterator is behind the last entry. -/
theorem serversIterate_end {names : AList fun _ : String => Nat} {pIndex : Option String}
    (h : serversIterate names pIndex = .ok none) : Cursor.next names.keys pIndex = some none := by
  unfold serversIterate at h
  split at h
  · cases h
  · next hnext => exact hnext
  · next name hnext =>
      -- a key has an entry
      have hnone : names.lookup name = none := Option.map_eq_none_iff.mp (Except.ok.inj h)
      exact absurd (Cursor.next_mem hnext) (AList.lookup_eq_none.mp hnone)

theorem serversIterate_stale_iff {names : AList fun _ : String => Nat} {pIndex : Option String} :
    serversIterate names pIndex = .error .staleIndex ↔ Cursor.next names.keys pIndex = none := by
  unfold serversIterate
  split
  · next hnext => exact iff_of_true rfl hnext
  · next hnext => exact iff_of_false nofun (by rw [hnext]; exact nofun)
  · next hnext => exact iff_of_false nofun (by rw [hnext]; exact nofun)

/-- What the loop has done when it ends, or when it advances a stale iterator. -/
structure Shutdown where
  /-- The servers that `stopServerThread` was called for, in order. -/
  stopped : List Nat
  state : State
  stale : Bool

/-- The loop of `mod_janus_shutdown`. -/
def stopServers (s : State) (pIndex : Option String) : Shutdown :=
  match _h : serversIterate s.pServerNameLookup pIndex with
  | .error .staleIndex => { stopped := [], state := s, stale := true }
  | .ok none => { stopped := [], state := s, stale := false }
  | .ok (some (name, S)) =>
      let rest := stopServers (s.stopServerThread S) (some name)
      { rest with stopped := S :: rest.stopped }
termination_by Cursor.distance s.pServerNameLookup.keys pIndex
decreasing_by
  have hnext := (serversIterate_ok _h).1
  rw [(stopServerThread_taken s S).names]
  split
  · rw [AList.keys_erase]
    exact Cursor.distance_erase_lt s.pServerNameLookup.nodupKeys hnext
  · exact Cursor.distance_next_lt s.pServerNameLookup.nodupKeys hnext

/-- Every server of the table was stopped, once, and none has a thread any more. -/
structure Shutdown.Complete (done : Shutdown) (s : State) : Prop where
  stale : done.stale = false
  stopped : done.stopped = s.registeredServers
  threads : ∀ S ∈ s.registeredServers, (done.state.servers S).stoppable = false

section Loop

variable {s : State} {pIndex : Option String} {name : String} {S : Nat}

theorem stopServers_stale (h : serversIterate s.pServerNameLookup pIndex = .error .staleIndex) :
    stopServers s pIndex = { stopped := [], state := s, stale := true } := by
  rw [stopServers]
  split <;> simp_all

theorem stopServers_end (h : serversIterate s.pServerNameLookup pIndex = .ok none) :
    stopServers s pIndex = { stopped := [], state := s, stale := false } := by
  rw [stopServers]
  split <;> simp_all

theorem stopServers_round (h : serversIterate s.pServerNameLookup pIndex = .ok (some (name, S))) :
    stopServers s pIndex =
      let rest := stopServers (s.stopServerThread S) (some name)
      { rest with stopped := S :: rest.stopped } := by
  rw [stopServers]
  split <;> simp_all

/-- A server without a thread to stop has none after another server is stopped. -/
theorem stopServerThread_stays {T : Nat} (s : State) (S : Nat)
    (h : (s.servers T).stoppable = false) :
    ((s.stopServerThread S).servers T).stoppable = false := by
  by_cases hT : T = S
  · rw [hT]
    exact stopServerThread_stopped s S
  · rw [(stopServerThread_taken s S).others T hT]
    exact h

theorem stopServers_stays {T : Nat} (h : (s.servers T).stoppable = false) :
    ((stopServers s pIndex).state.servers T).stoppable = false := by
  induction s, pIndex using stopServers.induct with
  | case1 s pIndex hiterate =>
      rw [stopServers_stale hiterate]
      exact h
  | case2 s pIndex hiterate =>
      rw [stopServers_end hiterate]
      exact h
  | case3 s pIndex name S hiterate ih =>
      rw [stopServers_round hiterate]
      exact ih (stopServerThread_stays s S h)

/-- A call that takes nothing out of the table leaves the names of the servers. -/
theorem Taken.keyed {s' : State} (hk : Keyed s) (h : Taken s S s')
    (hleaves : (s.servers S).leaves = false) :
    s'.pServerNameLookup = s.pServerNameLookup ∧ Keyed s' ∧
      ∀ T, (s'.servers T).leaves = (s.servers T).leaves := by
  have hnames : s'.pServerNameLookup = s.pServerNameLookup := by
    rw [h.names, if_neg]
    rw [hleaves]
    exact Bool.false_ne_true
  refine ⟨hnames, ?_, ?_⟩
  · intro name T hT
    rw [hnames] at hT
    obtain ⟨hlt, heq⟩ := hk name T hT
    refine ⟨h.serverCount ▸ hlt, ?_⟩
    by_cases hTS : T = S
    · rw [hTS, h.name, ← hTS, heq]
    · rw [h.others T hTS, heq]
  · intro T
    by_cases hTS : T = S
    · rw [hTS, h.leaves]
    · rw [h.others T hTS]

/-- The servers that stand under these names. -/
def State.serversUnder (s : State) (names : List String) : List Nat :=
  names.filterMap fun name => s.pServerNameLookup.lookup name

theorem serversUnder_keys (s : State) :
    s.serversUnder s.pServerNameLookup.keys = s.registeredServers := by
  have hentries : ∀ entry ∈ s.pServerNameLookup.entries,
      s.pServerNameLookup.lookup entry.1 = some entry.2 := by
    rintro ⟨name, S⟩ hmem
    exact AList.mem_lookup_iff.mpr hmem
  show List.filterMap _ (s.pServerNameLookup.entries.map Sigma.fst) = _
  rw [List.filterMap_map, State.registeredServers, ← List.filterMap_eq_map]
  exact List.filterMap_congr hentries

/-- From anywhere in the table: the iterator stays good exactly when no server ahead leaves
    the table, and then each of them has been stopped. -/
theorem stopServers_ahead {ahead : List String} (hk : Keyed s)
    (hahead : Cursor.ahead s.pServerNameLookup.keys pIndex = some ahead) :
    ((stopServers s pIndex).stale = false ↔
      ∀ S ∈ s.serversUnder ahead, (s.servers S).leaves = false) ∧
    ((stopServers s pIndex).stale = false →
      (stopServers s pIndex).stopped = s.serversUnder ahead ∧
        ∀ S ∈ s.serversUnder ahead,
          ((stopServers s pIndex).state.servers S).stoppable = false) := by
  induction s, pIndex using stopServers.induct generalizing ahead with
  | case1 s pIndex hiterate =>
      have hnone := serversIterate_stale_iff.mp hiterate
      rw [Cursor.next, hahead] at hnone
      cases hnone
  | case2 s pIndex hiterate =>
      have hend := serversIterate_end hiterate
      rw [Cursor.next, hahead] at hend
      obtain rfl := List.head?_eq_none_iff.mp (Option.some.inj hend)
      have hnil : s.serversUnder [] = [] := rfl
      rw [stopServers_end hiterate, hnil]
      exact ⟨iff_of_true rfl (List.forall_mem_nil _), fun _ => ⟨rfl, List.forall_mem_nil _⟩⟩
  | case3 s pIndex name S hiterate ih =>
      obtain ⟨hnext, hfind⟩ := serversIterate_ok hiterate
      have hnodup : s.pServerNameLookup.keys.Nodup := s.pServerNameLookup.nodupKeys
      obtain ⟨rest, hhere, hafter⟩ := Cursor.next_eq_some hnodup hnext
      rw [hhere, Option.some.injEq] at hahead
      subst hahead
      have htaken := stopServerThread_taken s S
      have hunder : s.serversUnder (name :: rest) = S :: s.serversUnder rest :=
        List.filterMap_cons_some hfind
      rw [stopServers_round hiterate, hunder]
      cases hleaves : (s.servers S).leaves with
      | true =>
          -- the entry that the iterator stands on is gone
          have hnames := htaken.names
          rw [if_pos hleaves, (hk name S hfind).2] at hnames
          have hstale : serversIterate (s.stopServerThread S).pServerNameLookup (some name) =
              .error .staleIndex := by
            rw [serversIterate_stale_iff, Cursor.next_eq_none_iff, hnames]
            exact AList.lookup_eq_none.mp (AList.lookup_erase name _)
          rw [stopServers_stale hstale]
          have hgone : ¬ true = false := Bool.noConfusion
          refine ⟨iff_of_false hgone ?_, fun hfalse => absurd hfalse hgone⟩
          intro hall
          rw [hall S List.mem_cons_self] at hleaves
          cases hleaves
      | false =>
          obtain ⟨hnames, hkeyed, hflags⟩ := htaken.keyed hk hleaves
          have hrest := ih hkeyed (by rw [hnames]; exact hafter)
          have hsame : (s.stopServerThread S).serversUnder rest = s.serversUnder rest := by
            rw [State.serversUnder, State.serversUnder, hnames]
          rw [hsame] at hrest
          simp only [hflags] at hrest
          obtain ⟨hgood, hdone⟩ := hrest
          refine ⟨?_, ?_⟩
          · rw [List.forall_mem_cons]
            exact hgood.trans (and_iff_right hleaves).symm
          · intro hstale
            obtain ⟨hstopped, hthreads⟩ := hdone hstale
            refine ⟨congrArg _ hstopped, ?_⟩
            rw [List.forall_mem_cons]
            exact ⟨stopServers_stays (stopServerThread_stopped s S), hthreads⟩

end Loop

/-- A refresh registers a pod, whose thread gets no session and gives the server up. -/
def givesUp : List Action :=
  [.loaded, .refresh, .caller 0 (.register "janus-0" "10.0.0.1" "http://10.0.0.1:80/janus"),
    .caller 0 .startTest, .caller 0 .create, .caller 0 .unlock, .caller 0 .refreshed,
    .thread 0 (.outer true), .thread 0 .request, .thread 0 (.created 0 true)]

end ModJanus.Registry
