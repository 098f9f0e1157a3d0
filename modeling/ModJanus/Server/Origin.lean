/-
  ModJanus.Server.Origin

  Which address a session id comes from.

  A refresh that finds a pod at another address writes `pUrl` of its server, whatever the
  server's thread is doing: the entry of `serverIdLookup`, and with it every call that is
  dialled, then goes with an id that the old pod gave out.  As long as a server is moved
  only while it is at rest (`State.AtRest`), every entry was obtained at the address that
  its server has now.
-/
import ModJanus.Server.Eviction

namespace ModJanus.Registry

open Transition (Reach Always)

/-! ## Moves -/

/-- The address that a request for a session was sent to. -/
def ThreadPc.url : ThreadPc → Option String
  | .requesting url => some url
  | _ => none

/-- The server whose `pUrl` the action changes. -/
def State.moves (s : State) : Action → Option Nat
  | .caller _ (.update podName _ url) =>
      match s.pServerNameLookup.lookup podName with
      | some S =>
          if (s.servers S).dynamic ∧ url ≠ "" ∧ (s.servers S).pUrl ≠ url then some S else none
      | none => none
  | _ => none

/-- The server has no session and asks for none, and no leg is about to be attached. -/
def State.AtRest (s : State) (S : Nat) : Prop :=
  hashHolds s.serverIdLookup S = false ∧
    (∀ thread ∈ s.threads, thread.server = S → thread.pc.url = none) ∧
    ∀ leg ∈ s.legs, leg.pc ≠ .found S

instance (s : State) (S : Nat) : Decidable (s.AtRest S) :=
  inferInstanceAs (Decidable (hashHolds s.serverIdLookup S = false ∧
    (∀ thread ∈ s.threads, thread.server = S → thread.pc.url = none) ∧
    ∀ leg ∈ s.legs, leg.pc ≠ .found S))

/-- A server is moved to another address only while it is at rest. -/
def MovedAtRest (s : State) (a : Action) : Prop := ∀ S ∈ s.moves a, s.AtRest S

instance (s : State) (a : Action) : Decidable (MovedAtRest s a) :=
  inferInstanceAs (Decidable (∀ S ∈ s.moves a, s.AtRest S))

/-- Every session id was obtained at the address that its server has now, and so was every
    id that a leg is about to be attached with. -/
structure Attributed (s : State) : Prop where
  entries : ∀ id S, hashFind s.serverIdLookup id = some S →
    (S, id, (s.servers S).pUrl) ∈ s.obtained
  requests : ∀ thread ∈ s.threads, ∀ url ∈ thread.pc.url, url = (s.servers thread.server).pUrl
  attaches : ∀ leg ∈ s.legs, ∀ S, leg.pc = .found S →
    (S, leg.serverId, (s.servers S).pUrl) ∈ s.obtained

/-! ## What the steps do to addresses and ids -/

theorem pUrl_update (s : State) (S : Nat) {v : Server} (h : v.pUrl = (s.servers S).pUrl) (T : Nat) :
    (Function.update s.servers S v T).pUrl = (s.servers T).pUrl := by
  by_cases hT : T = S
  · subst hT
    rw [Function.update_self]
    exact h
  · rw [Function.update_of_ne hT]

theorem pUrl_removed (s : State) (S T : Nat) :
    ((s.serversDynamicRemoveFromLookup S).servers T).pUrl = (s.servers T).pUrl := by
  rcases s.serversDynamicRemoveFromLookup_cases S with h | ⟨-, ids, -, h⟩
  · rw [h]
  · rw [h]
    exact pUrl_update s S (by rfl) T

/-- What an update leaves is the old address, unless it brings another one. -/
theorem updated_pUrl (v : Server) (podIp url : String) :
    (v.serversUpdateRegistryServer podIp url).pUrl = v.pUrl ∨ url ≠ "" ∧ v.pUrl ≠ url := by
  unfold Server.serversUpdateRegistryServer
  by_cases hmoved : url ≠ "" ∧ v.pUrl ≠ url
  · exact .inr hmoved
  · -- the address of the pod is a field of its own
    refine .inl ?_
    have hsame : (if podIp ≠ "" ∧ v.podIp ≠ some podIp then { v with podIp := some podIp }
        else v).pUrl = v.pUrl := by
      split <;> rfl
    dsimp only
    rw [if_neg (by rw [hsame]; exact hmoved)]
    exact hsame

/-- What a thread does to addresses and ids: an entry that it makes is for an id that it
    has just obtained at the address that its request was sent to. -/
structure ThreadUrls (s : State) (t : Nat) (thread : Thread) (s' : State) : Prop where
  pUrl : ∀ S, (s'.servers S).pUrl = (s.servers S).pUrl
  obtained : s.obtained ⊆ s'.obtained
  entries : ∀ id S, hashFind s'.serverIdLookup id = some S →
    hashFind s.serverIdLookup id = some S ∨
      S = thread.server ∧ ∃ url ∈ thread.pc.url, (S, id, url) ∈ s'.obtained
  requests : ∃ thread', s'.threads = s.threads.set t thread' ∧ thread'.server = thread.server ∧
    ∀ url ∈ thread'.pc.url, url = (s.servers thread.server).pUrl

theorem obtained_entry {s : State} {S : Nat} {id id' : JanusId} {url : String} {inserted : Bool}
    {T : Nat} (h : hashFind (if inserted then hashInsert s.serverIdLookup id S
      else s.serverIdLookup) id' = some T) :
    hashFind s.serverIdLookup id' = some T ∨
      T = S ∧ (T, id', url) ∈ s.obtained ++ [(S, id, url)] := by
  split at h
  · rcases hashFind_hashInsert_eq_some h with ⟨rfl, rfl⟩ | ⟨-, hold⟩
    · exact .inr ⟨rfl, by simp⟩
    · exact .inl hold
  · exact .inl h

theorem ThreadEffect.urls {s s' : State} {t : Nat} {thread : Thread} {a : ThreadAction}
    (h : ThreadEffect s t thread a s') : ThreadUrls s t thread s' := by
  cases h with
  | requested hpc =>
      -- the request is sent to the address of now
      refine ⟨fun _ => rfl, fun _ => id, fun _ _ => .inl, _, rfl, rfl, fun url hurl => ?_⟩
      exact (Option.some.inj hurl).symm
  | createFailed url inserted connectFailures hpc =>
      refine ⟨fun S => ?_, fun _ => id, fun _ _ => .inl, _, rfl, rfl, nofun⟩
      exact pUrl_update s thread.server (by rfl) S
  | evicted url inserted connectFailures hpc hdynamic =>
      refine ⟨fun S => ?_, fun _ => id, fun _ _ => .inl, _, rfl, rfl, nofun⟩
      exact pUrl_update s thread.server (by rfl) S
  | created url serverId inserted hpc =>
      refine ⟨fun S => ?_, fun _ => List.mem_append_left _, fun id S hS => ?_, _, rfl, rfl, nofun⟩
      · exact pUrl_update s thread.server (by rfl) S
      · refine (obtained_entry hS).imp_right (And.imp_right fun hmem => ⟨url, ?_, hmem⟩)
        rw [hpc]
        rfl
  | claimed url inserted hpc =>
      refine ⟨fun S => ?_, fun _ => List.mem_append_left _, fun id S hS => ?_, _, rfl, rfl, nofun⟩
      · exact pUrl_update s thread.server (by rfl) S
      · refine (obtained_entry hS).imp_right (And.imp_right fun hmem => ⟨url, ?_, hmem⟩)
        rw [hpc]
        rfl
  | opened opened hpc | inner opened hpc =>
      -- wherever the loop goes, no request is under way
      refine ⟨fun _ => rfl, fun _ => id, fun _ _ => .inl, _, rfl, rfl, fun url hurl => ?_⟩
      dsimp only at hurl
      split at hurl <;> cases hurl
  | pollFailed status hpc =>
      refine ⟨fun S => ?_, fun _ => id, fun _ _ hS => ?_, _, rfl, rfl, nofun⟩
      · exact pUrl_update s thread.server (by rfl) S
      · exact .inl (hashFind_hashDelete_eq_some hS).2
  | deletedEntry hpc =>
      refine ⟨fun _ => rfl, fun _ => id, fun _ _ hS => ?_, _, rfl, rfl, nofun⟩
      exact .inl (hashFind_hashDelete_eq_some hS).2
  | removed hpc hmutex =>
      have hpUrl := pUrl_removed s thread.server
      rcases s.serversDynamicRemoveFromLookup_cases thread.server with heq | ⟨-, ids, hids, heq⟩
      · rw [heq]
        exact ⟨fun _ => rfl, fun _ => id, fun _ _ => .inl, _, rfl, rfl, nofun⟩
      · rw [heq] at hpUrl ⊢
        exact ⟨hpUrl, fun _ => id, fun id S hS => .inl (hids id S hS), _, rfl, rfl, nofun⟩
  | _ => exact ⟨fun _ => rfl, fun _ => id, fun _ _ => .inl, _, rfl, rfl, nofun⟩

/-- A caller changes the address of a server only by moving it. -/
theorem CallerEffect.pUrl {s s' : State} {c : Nat} {x : Caller} {a : CallerAction}
    (h : CallerEffect s c x a s') {S : Nat} (hS : S < s.serverCount) :
    (s'.servers S).pUrl = (s.servers S).pUrl ∨ S ∈ s.moves (.caller c a) := by
  have hupdated : ∀ T podName podIp url, s.pServerNameLookup.lookup podName = some T →
      (s.servers T).dynamic = true →
      (Function.update s.servers T ((s.servers T).serversUpdateRegistryServer podIp url) S).pUrl =
        (s.servers S).pUrl ∨ S ∈ s.moves (.caller c (.update podName podIp url)) := by
    intro T podName podIp url hfind hdynamic
    -- only the server of the name can be moved
    by_cases hST : S = T
    · subst hST
      rw [Function.update_self]
      refine (updated_pUrl (s.servers S) podIp url).imp_right fun hmoved => ?_
      simp [State.moves, hfind, hdynamic, hmoved]
    · rw [Function.update_of_ne hST]
      exact .inl rfl
  cases h with
  | registered podName podIp url hpc hnew =>
      refine .inl ?_
      show ((s.addServer (.registered podName podIp url)).servers S).pUrl = _
      rw [addServer_old s _ hS]
  | updated T podName podIp url hpc hfind hdynamic
  | restarting T podName podIp url hpc hfind hdynamic =>
      exact hupdated T podName podIp url hfind hdynamic
  | evicting T | created T | startPassed T | terminated T | threadCleared T | flagsCleared T =>
      exact .inl (pUrl_update s T (by rfl) S)
  | removed T hpc hmutex => exact .inl (pUrl_removed s T S)
  | _ => exact .inl rfl

/-- A leg comes to its attach only by finding the server of its id. -/
theorem LegEffect.finds {s s' : State} {l : Nat} {leg : Leg} {a : LegAction}
    (h : LegEffect s l leg a s') : ∃ leg', s'.legs = s.legs.set l leg' ∧
      ∀ S, leg'.pc = .found S → hashFind s.serverIdLookup leg'.serverId = some S := by
  cases h with
  | found S hpc hfind =>
      refine ⟨_, rfl, fun T hT => ?_⟩
      cases hT
      exact hfind
  | _ => exact ⟨_, rfl, nofun⟩

/-! ## Every entry belongs to the address of its server -/

/-- Nothing changes for what refers to a server whose address stays. -/
theorem Attributed.mono {s s' : State} (hb : Bounded s) (hi : Attributed s)
    (hpUrl : ∀ S < s.serverCount, (s'.servers S).pUrl = (s.servers S).pUrl)
    (hobtained : s.obtained ⊆ s'.obtained)
    (hentries : ∀ id S, hashFind s'.serverIdLookup id = some S →
      hashFind s.serverIdLookup id = some S)
    (hthreads : ∀ thread ∈ s'.threads, thread ∈ s.threads ∨ thread.pc.url = none)
    (hlegs : ∀ leg ∈ s'.legs, leg ∈ s.legs ∨ ∀ S, leg.pc ≠ .found S) : Attributed s' := by
  refine ⟨fun id S hS => ?_, fun thread hthread url hurl => ?_, fun leg hleg S hpc => ?_⟩
  · have hold := hentries id S hS
    rw [hpUrl S (hb.entries id S hold)]
    exact hobtained (hi.entries id S hold)
  · rcases hthreads thread hthread with hold | hnone
    · rw [hpUrl _ (hb.threads thread hold)]
      exact hi.requests thread hold url hurl
    · rw [hnone] at hurl
      cases hurl
  · rcases hlegs leg hleg with hold | hnot
    · rw [hpUrl S (hb.legs leg hold S (by rw [hpc]; rfl))]
      exact hobtained (hi.attaches leg hold S hpc)
    · exact absurd hpc (hnot S)

theorem thread_attributed {s s' : State} {t : Nat} {thread : Thread} (hi : Attributed s)
    (ht : s.threads[t]? = some thread) (hlegs : s'.legs = s.legs)
    (h : ThreadUrls s t thread s') : Attributed s' := by
  have hrequest := hi.requests thread (List.mem_of_getElem? ht)
  refine ⟨fun id S hS => ?_, fun other hother url hurl => ?_, fun leg hleg S hpc => ?_⟩
  · rw [h.pUrl]
    rcases h.entries id S hS with hold | ⟨rfl, url, hurl, hmem⟩
    · exact h.obtained (hi.entries id S hold)
    · -- the server has not been moved since the request was sent
      rw [← hrequest url hurl]
      exact hmem
  · obtain ⟨thread', hthreads, hserver, hurls⟩ := h.requests
    rw [h.pUrl]
    rw [hthreads] at hother
    rcases List.mem_or_eq_of_mem_set hother with hold | rfl
    · exact hi.requests other hold url hurl
    · rw [hserver]
      exact hurls url hurl
  · rw [hlegs] at hleg
    rw [h.pUrl]
    exact h.obtained (hi.attaches leg hleg S hpc)

theorem caller_attributed {s s' : State} {c : Nat} {x : Caller} {a : CallerAction}
    (hb : Bounded s) (hi : Attributed s) (hg : MovedAtRest s (.caller c a))
    (h : CallerEffect s c x a s') : Attributed s' := by
  have hframe := h.frame
  -- what refers to the server that is moved: nothing
  have hpUrl : ∀ S, ¬ s.AtRest S → S < s.serverCount →
      (s'.servers S).pUrl = (s.servers S).pUrl := by
    intro S hbusy hS
    exact (h.pUrl hS).resolve_right fun hmoved => hbusy (hg S hmoved)
  refine ⟨fun id S hS => ?_, fun thread hthread url hurl => ?_, fun leg hleg S hpc => ?_⟩
  · have hold := hframe.entries id S hS
    rw [hpUrl S ?_ (hb.entries id S hold), hframe.obtained]
    · exact hi.entries id S hold
    · -- a server at rest has no entry
      rintro ⟨hnone, -⟩
      rw [hashHolds_of_hashFind hold] at hnone
      cases hnone
  · -- a thread that was just created has no request under way
    have hold : thread ∈ s.threads := by
      rcases hframe.threads with heq | ⟨S, -, heq⟩
      · rwa [heq] at hthread
      · rw [heq] at hthread
        refine (List.mem_append.mp hthread).resolve_right fun hnew => ?_
        rw [List.mem_singleton.mp hnew] at hurl
        cases hurl
    rw [hpUrl _ ?_ (hb.threads thread hold)]
    · exact hi.requests thread hold url hurl
    · intro hrest
      rw [hrest.2.1 thread hold rfl] at hurl
      cases hurl
  · rw [hframe.legs] at hleg
    rw [hpUrl S ?_ (hb.legs leg hleg S (by rw [hpc]; rfl)), hframe.obtained]
    · exact hi.attaches leg hleg S hpc
    · exact fun hrest => hrest.2.2 leg hleg hpc

theorem leg_attributed {s s' : State} {l : Nat} {leg : Leg} {a : LegAction} (hi : Attributed s)
    (h : LegEffect s l leg a s') : Attributed s' := by
  have hframe := h.frame
  have hpUrl : ∀ S, (s'.servers S).pUrl = (s.servers S).pUrl := by
    intro S
    obtain ⟨serverId, callsInProgress, heq⟩ := hframe.servers S
    rw [heq]
  refine ⟨?_, ?_, fun other hother S hpc => ?_⟩
  · intro id S hS
    rw [hframe.serverIdLookup] at hS
    rw [hpUrl, hframe.obtained]
    exact hi.entries id S hS
  · intro thread hthread url hurl
    rw [hframe.threads] at hthread
    rw [hpUrl]
    exact hi.requests thread hthread url hurl
  · obtain ⟨leg', hlegs, hfinds⟩ := h.finds
    rw [hpUrl, hframe.obtained]
    rw [hlegs] at hother
    rcases List.mem_or_eq_of_mem_set hother with hold | rfl
    · exact hi.attaches other hold S hpc
    · -- the leg has just found the entry of its id
      exact hi.entries _ S (hfinds S hpc)

theorem step_attributed {s s' : State} {a : Action} (hb : Bounded s) (hi : Attributed s)
    (hg : MovedAtRest s a) (h : StepCase s s' a) : Attributed s' := by
  cases h with
  | added pName pUrl enabled rest hnew hstate hloading hcallers hthreads =>
      subst hstate
      refine hi.mono hb (fun S hS => ?_) (fun _ => id) (fun _ _ => id) (fun _ => .inl)
        fun _ => .inl
      exact congrArg Server.pUrl (addServer_old s (.configured pName pUrl enabled) hS)
  | dials S hstate =>
      subst hstate
      refine hi.mono hb (fun _ _ => rfl) (fun _ => id) (fun _ _ => id) (fun _ => .inl)
        fun leg hleg => ?_
      refine (List.mem_append.mp hleg).imp_right fun hnew T => ?_
      rw [List.mem_singleton.mp hnew]
      exact nofun
  | thread t thread action ht heffect =>
      exact thread_attributed hi ht heffect.frame.legs heffect.urls
  | caller c x action hc heffect => exact caller_attributed hb hi hg heffect
  | leg l leg action hl heffect => exact leg_attributed hi heffect
  | loads | loaded | enables | disables | refreshes =>
      subst_vars
      exact hi.mono hb (fun _ _ => rfl) (fun _ => id) (fun _ _ => id) (fun _ => .inl) fun _ => .inl

/-- As long as a server is moved only while it is at rest, every entry of `serverIdLookup`
    is for an id that was obtained, or confirmed, at the address that its server has now,
    and so is every id that a leg is about to be attached with. -/
theorem entries_of_present_url {s : State} (h : Reach step MovedAtRest Initial s) :
    (∀ id S, hashFind s.serverIdLookup id = some S → (S, id, (s.servers S).pUrl) ∈ s.obtained) ∧
    ∀ leg ∈ s.legs, ∀ S, leg.pc = .found S →
      (S, leg.serverId, (s.servers S).pUrl) ∈ s.obtained := by
  have hattributed : Attributed s := by
    refine h.invariant_of (fun _ => reach_bounded) ?_ ?_
    · rintro _ ⟨podServerFailMax, rfl⟩
      exact ⟨nofun, nofun, nofun⟩
    · intro s a s' hb hi hg hs
      exact step_attributed hb hi hg (step_case hs)
  exact ⟨hattributed.entries, hattributed.attaches⟩

/-- A refresh, `c`, finds pod a at another address. -/
def movesA (c : Nat) : List Action :=
  [.refresh, .caller c (.update "a" "10.0.0.9" "http://10.0.0.9:80/janus"), .caller c .unlock,
    .caller c .refreshed]

/-- The pod is moved before it has a session. -/
theorem entries_of_present_url_moved :
    ∃ s : State, hashFind s.serverIdLookup 7 = some 0 ∧
      (s.servers 0).pUrl = "http://10.0.0.9:80/janus" ∧
      (0, 7, "http://10.0.0.9:80/janus") ∈ s.obtained := by
  have h0 : Initial { podServerFailMax := 1 } := ⟨1, rfl⟩
  obtain ⟨s, hs, hp⟩ := Transition.reach_of_exec step MovedAtRest h0
    ([.loaded] ++ registerA 0 ++ movesA 1 ++ connects 0)
    (fun s => hashFind s.serverIdLookup 7 = some 0 ∧
      (s.servers 0).pUrl = "http://10.0.0.9:80/janus") (by decide)
  obtain ⟨hfind, hurl⟩ := of_decide_eq_true hp
  have hobtained := (entries_of_present_url hs).1 7 0 hfind
  rw [hurl] at hobtained
  exact ⟨s, hfind, hurl, hobtained⟩

/-- The pod is moved while it has a session, and a call is dialled to it. -/
theorem entry_of_former_url :
    ¬ ∀ s, Reach step Always Initial s →
      (∀ id S, (s.servers S).dynamic = true → hashFind s.serverIdLookup id = some S →
        (S, id, (s.servers S).pUrl) ∈ s.obtained) ∧
      ∀ leg ∈ s.legs, ∀ S, leg.pc = .found S → (s.servers S).dynamic = true →
        (S, leg.serverId, (s.servers S).pUrl) ∈ s.obtained := by
  intro hclaim
  have h0 : Initial { podServerFailMax := 1 } := ⟨1, rfl⟩
  obtain ⟨s, hs, hp⟩ := Transition.reach_of_exec step Always h0
    ([.loaded] ++ registerA 0 ++ connects 0 ++ movesA 1 ++ [.dial 0, .leg 0 .initLookup])
    (fun s => s.legs = [{ serverId := 7, pc := .found 0 }] ∧ (s.servers 0).dynamic = true ∧
      (s.servers 0).pUrl = "http://10.0.0.9:80/janus" ∧
      s.obtained = [(0, 7, "http://10.0.0.1:80/janus")]) (by decide)
  obtain ⟨hlegs, hdynamic, hurl, hobtained⟩ := of_decide_eq_true hp
  have hattach := (hclaim s hs).2 { serverId := 7, pc := .found 0 }
    (by rw [hlegs]; exact List.mem_singleton.mpr rfl) 0 rfl hdynamic
  rw [hurl, hobtained] at hattach
  exact absurd hattach (by decide)

end ModJanus.Registry
