/-
  ModJanus.Server.Refresh

  What `serversRegistryRefresh` makes of the table of servers when nothing else runs.

  The three loops are those of the source: the addresses are probed in the order of DNS
  and the first of each pod name is kept; each reported pod is registered or updated; the
  dynamic servers that were not reported and have no calls are collected and then stopped,
  each to the end of its thread.  What the thread still does before it finds
  `SFLAG_TERMINATING` is left out.  The entries of the name table stand in no particular
  order, and neither do those that the hash iterator visits.
-/
import ModJanus.Lib.Firsts
import ModJanus.Server.Frame
import ModJanus.Server.Url

namespace ModJanus.Registry

open Transition (Always)

/-! ## Addresses and endpoints -/

/-- An entry of the list that `getaddrinfo` returns: an IPv4 address that `inet_ntop` can
    write, or anything else. -/
inductive AddrInfo where
  | inet (ip : Ip)
  | other
  deriving DecidableEq

/-- The configuration of the headless service, DNS, and what Janus answers at a URL.
    `podDefaults` says that the settings of a static server were captured. -/
structure Service where
  headlessServiceUrl : String
  podDefaults : Bool
  getaddrinfo : String → Option (List AddrInfo)
  httpGet : String → Option CJson

/-- `registry_endpoint_t`. -/
structure Endpoint where
  podName : String
  podIp : String
  url : String
  deriving DecidableEq, Repr

/-- The path is `/janus` when the URL has none. -/
def HttpUrlParts.janusPath (parts : HttpUrlParts) : String :=
  if parts.path = "" then "/janus" else parts.path

/-- The pod at an address of the service, if its probe succeeds. -/
def Service.probe (service : Service) (parts : HttpUrlParts) (ip : Ip) : Option String :=
  serversProbeJanusPodAtIp service.httpGet ip.text parts.port parts.janusPath

/-- The endpoint of a pod that reported its name at an address. -/
def endpointAt (parts : HttpUrlParts) (ip : Ip) (podName : String) : Endpoint where
  podName := podName
  podIp := ip.text
  url := serversBuildJanusUrl ip.text parts.port parts.janusPath

/-- The first loop, over the addresses. -/
def probeLoop (service : Service) (parts : HttpUrlParts) :
    List Endpoint → List AddrInfo → List Endpoint
  | endpoints, [] => endpoints
  | endpoints, rp :: rest =>
      if endpoints.length < REGISTRY_MAX_ENDPOINTS then
        match rp with
        | .other => probeLoop service parts endpoints rest
        | .inet ip =>
            match service.probe parts ip with
            | none => probeLoop service parts endpoints rest
            | some podName =>
                if endpoints.any fun endpoint => endpoint.podName = podName then
                  probeLoop service parts endpoints rest
                else probeLoop service parts (endpoints ++ [endpointAt parts ip podName]) rest
      else endpoints

/-! ## Servers -/

namespace State

/-- `startServerThread` with `force`. -/
def startServerThread (s : State) (S : Nat) : State :=
  { s.setServer S { s.servers S with enabled := true, pThread := some s.threads.length } with
    threads := s.threads ++ [{ server := S }] }

/-- The second loop, for one endpoint. -/
def refreshPod (s : State) (endpoint : Endpoint) : State :=
  match s.pServerNameLookup.lookup endpoint.podName with
  | none =>
      (s.addServer (.registered endpoint.podName endpoint.podIp endpoint.url)).startServerThread
        s.serverCount
  | some S =>
      if (s.servers S).dynamic then
        let s := s.setServer S
          ((s.servers S).serversUpdateRegistryServer endpoint.podIp endpoint.url)
        if (s.servers S).enabled then s else s.startServerThread S
      else s

/-- The test of the third loop. -/
def evictable (s : State) (seenPods : List String) (S : Nat) : Bool :=
  (s.servers S).dynamic && !seenPods.contains (s.servers S).name &&
    (s.servers S).callsInProgress == 0

/-- The servers that the table holds. -/
def registeredServers (s : State) : List Nat := s.pServerNameLookup.entries.map Sigma.snd

/-- `evict_list`: what does not fit is left out. -/
def evictList (s : State) (seenPods : List String) : List Nat :=
  (s.registeredServers.filter (s.evictable seenPods)).take REGISTRY_MAX_ENDPOINTS

/-- Thread `t` of the server runs from `thread_done` to its end. -/
def threadDone (s : State) (S t : Nat) : State :=
  let thread := (s.threads[t]?).getD { server := S }
  let s := { s with serverIdLookup := (hashDelete s.serverIdLookup thread.serverId).1 }
  let s := if (s.servers S).evicted then s.serversDynamicRemoveFromLookup S else s
  s.setThread t { thread with pc := .returned }

/-- `stopServerThread`, with all that the thread does until it is joined. -/
def stopServerThread (s : State) (S : Nat) : State :=
  match (s.servers S).stoppable, (s.servers S).pThread with
  | true, some t =>
      let s := (s.setServer S { s.servers S with terminating := true }).threadDone S t
      s.setServer S { s.servers S with pThread := none, terminating := false, enabled := false }
  | _, _ => if (s.servers S).evicted then s.serversDynamicRemoveFromLookup S else s

/-- The last loop, for one server of `evict_list`. -/
def evict (s : State) (S : Nat) : State :=
  (s.setServer S { s.servers S with evicted := true }).stopServerThread S

/-- The refresh from where it takes `globals.mutex`. -/
def applyEndpoints (s : State) (endpoints : List Endpoint) : State :=
  let s := endpoints.foldl refreshPod s
  (s.evictList (endpoints.map Endpoint.podName)).foldl evict s

/-- `serversRegistryRefresh`. -/
def serversRegistryRefresh (s : State) (service : Service) : State × Status :=
  if service.headlessServiceUrl = "" ∨ service.podDefaults = false then (s, .false)
  else
    match serversParseHttpUrlParts service.headlessServiceUrl with
    | none => (s, .false)
    | some parts =>
        match service.getaddrinfo parts.host with
        | none => (s, .false)
        | some res => (s.applyEndpoints (probeLoop service parts [] res), .success)

end State

/-! ## The first loop -/

/-- The name that an entry of the DNS answer reports. -/
def Service.reportOf (service : Service) (parts : HttpUrlParts) : AddrInfo → Option String
  | .inet ip => service.probe parts ip
  | .other => none

/-- The names that are reported. -/
def Service.reported (service : Service) (parts : HttpUrlParts) (res : List AddrInfo) :
    List String :=
  res.filterMap (service.reportOf parts)

/-- The endpoint that an entry of the DNS answer is good for. -/
def Service.endpointOf (service : Service) (parts : HttpUrlParts) : AddrInfo → Option Endpoint
  | .inet ip => (service.probe parts ip).map (endpointAt parts ip)
  | .other => none

section Probes

variable (service : Service) (parts : HttpUrlParts)

/-- The loop keeps the first endpoint of each pod name. -/
theorem probeLoop_eq_firsts (endpoints : List Endpoint) (res : List AddrInfo) :
    probeLoop service parts endpoints res = Firsts.firsts Endpoint.podName REGISTRY_MAX_ENDPOINTS
      endpoints (res.filterMap (service.endpointOf parts)) := by
  induction res generalizing endpoints with
  | nil => rfl
  | cons rp rest ih =>
      by_cases hroom : endpoints.length < REGISTRY_MAX_ENDPOINTS
      · cases rp with
        | other =>
            rw [probeLoop, if_pos hroom]
            exact ih endpoints
        | inet ip =>
            rw [probeLoop, if_pos hroom]
            cases hprobe : service.probe parts ip with
            | none =>
                have hnone : service.endpointOf parts (.inet ip) = none := by
                  rw [Service.endpointOf, hprobe]
                  rfl
                rw [List.filterMap_cons_none hnone]
                exact ih endpoints
            | some podName =>
                have hsome : service.endpointOf parts (.inet ip) =
                    some (endpointAt parts ip podName) := by
                  rw [Service.endpointOf, hprobe]
                  rfl
                -- both sides test the name against the endpoints so far
                rw [List.filterMap_cons_some hsome, Firsts.firsts, if_pos hroom]
                show (if Firsts.hasKey Endpoint.podName endpoints podName then _ else _) =
                  if Firsts.hasKey Endpoint.podName endpoints podName then _ else _
                rw [ih endpoints, ih (endpoints ++ [endpointAt parts ip podName])]
      · -- a full array ends the loop, whatever is left of the answer
        rw [Firsts.firsts_full _ hroom]
        unfold probeLoop
        rw [if_neg hroom]

/-- The names of the endpoints are the names that are reported. -/
theorem endpointOf_podName (res : List AddrInfo) :
    (res.filterMap (service.endpointOf parts)).map Endpoint.podName =
      service.reported parts res := by
  rw [List.map_filterMap, Service.reported]
  congr 1
  funext rp
  cases rp with
  | other => rfl
  | inet ip =>
      rw [Service.endpointOf, Service.reportOf, Option.map_map]
      exact Option.map_id'

/-- The first address that reports a name gives the first endpoint of that name. -/
theorem endpointOf_find {res : List AddrInfo} {name : String} {ip : Ip}
    (h : res.find? (fun rp => service.reportOf parts rp = some name) = some (.inet ip)) :
    (res.filterMap (service.endpointOf parts)).find? (fun endpoint => endpoint.podName = name) =
      some (endpointAt parts ip name) := by
  induction res with
  | nil => cases h
  | cons rp rest ih =>
      by_cases hrp : service.reportOf parts rp = some name
      · rw [List.find?_cons_of_pos (by simpa using hrp)] at h
        cases h
        have hsome : service.endpointOf parts (.inet ip) = some (endpointAt parts ip name) := by
          rw [Service.endpointOf, show service.probe parts ip = some name from hrp]
          rfl
        rw [List.filterMap_cons_some hsome]
        exact List.find?_cons_of_pos (by simp [endpointAt])
      · rw [List.find?_cons_of_neg (by simpa using hrp)] at h
        cases hend : service.endpointOf parts rp with
        | none =>
            rw [List.filterMap_cons_none hend]
            exact ih h
        | some endpoint =>
            -- it is an endpoint of another name
            have hname : endpoint.podName ≠ name := by
              rintro rfl
              apply hrp
              have hmap := congrArg (Option.map Endpoint.podName) hend
              cases rp with
              | other => cases hend
              | inet ip' =>
                  rw [Service.endpointOf, Option.map_map] at hmap
                  rw [Service.reportOf]
                  simpa [Function.comp_def, endpointAt] using hmap
            rw [List.filterMap_cons_some hend, List.find?_cons_of_neg (by simpa using hname)]
            exact ih h

end Probes

/-! ## The second loop -/

/-- The servers of the table stand under their own names. -/
def Keyed (s : State) : Prop :=
  ∀ name S, s.pServerNameLookup.lookup name = some S →
    S < s.serverCount ∧ (s.servers S).name = name

/-- They do in every state that is reached. -/
theorem keyed_of_reach {guard : State → Action → Prop} {s : State}
    (h : Transition.Reach step guard Initial s) : Keyed s :=
  (reach_bounded h).names

/-- The pod is registered, as a dynamic enabled server at the address of the endpoint. -/
def Placed (s : State) (endpoint : Endpoint) (S : Nat) : Prop :=
  s.pServerNameLookup.lookup endpoint.podName = some S ∧ (s.servers S).dynamic = true ∧
    (s.servers S).enabled = true ∧ (s.servers S).podIp = some endpoint.podIp ∧
    (s.servers S).pUrl = endpoint.url

/-- The endpoint has an address and a URL. -/
def Endpoint.Whole (endpoint : Endpoint) : Prop := endpoint.podIp ≠ "" ∧ endpoint.url ≠ ""

/-- What the refresh does to the entry of a name: nothing. -/
def Untouched (s s' : State) (name : String) : Prop :=
  s'.pServerNameLookup.lookup name = s.pServerNameLookup.lookup name ∧
    ∀ S, s.pServerNameLookup.lookup name = some S → s'.servers S = s.servers S

theorem Untouched.refl (s : State) (name : String) : Untouched s s name := ⟨rfl, fun _ _ => rfl⟩

theorem Untouched.trans {s s₁ s₂ : State} {name : String} (h : Untouched s s₁ name)
    (h' : Untouched s₁ s₂ name) : Untouched s s₂ name := by
  refine ⟨h'.1.trans h.1, fun S hS => ?_⟩
  rw [h'.2 S (h.1.trans hS), h.2 S hS]

/-- A server that is set keeps its name. -/
theorem Keyed.setServer {s : State} (hk : Keyed s) (S : Nat) {v : Server}
    (hname : v.name = (s.servers S).name) : Keyed (s.setServer S v) := by
  intro name T hT
  obtain ⟨hlt, heq⟩ := hk name T hT
  refine ⟨hlt, ?_⟩
  by_cases hTS : T = S
  · subst hTS
    rw [State.setServer_self, hname]
    exact heq
  · rw [s.setServer_ne v hTS]
    exact heq

theorem Keyed.addServer {s : State} (hk : Keyed s) (v : Server) : Keyed (s.addServer v) := by
  intro name S hS
  rcases addServer_names hS with hold | ⟨rfl, hname⟩
  · obtain ⟨hlt, heq⟩ := hk name S hold
    rw [addServer_old s v hlt]
    exact ⟨Nat.lt_succ_of_lt hlt, heq⟩
  · rw [addServer_self]
    exact ⟨Nat.lt_succ_self _, hname⟩

/-- Another name than that of the server that is set. -/
theorem untouched_setServer {s : State} (hk : Keyed s) {S : Nat} {v : Server} {name : String}
    (h : (s.servers S).name ≠ name) : Untouched s (s.setServer S v) name := by
  refine ⟨rfl, fun T hT => s.setServer_ne v ?_⟩
  rintro rfl
  exact h (hk name T hT).2

theorem untouched_addServer {s : State} (hk : Keyed s) {v : Server} {name : String}
    (h : v.name ≠ name) : Untouched s (s.addServer v) name := by
  refine ⟨AList.lookup_insert_ne (Ne.symm h), fun T hT => ?_⟩
  exact addServer_old s v (hk name T hT).1

theorem untouched_startServerThread {s : State} (hk : Keyed s) {S : Nat} {name : String}
    (h : (s.servers S).name ≠ name) : Untouched s (s.startServerThread S) name :=
  untouched_setServer hk h

theorem Keyed.startServerThread {s : State} (hk : Keyed s) (S : Nat) :
    Keyed (s.startServerThread S) := by
  have hset := hk.setServer S (v := { s.servers S with
    enabled := true, pThread := some s.threads.length }) rfl
  exact hset

/-- What an update sets, and what it leaves. -/
theorem updated_fields (v : Server) {podIp url : String} (hpodIp : podIp ≠ "") (hurl : url ≠ "") :
    let v' := v.serversUpdateRegistryServer podIp url
    v'.podIp = some podIp ∧ v'.pUrl = url ∧ v'.name = v.name ∧ v'.dynamic = v.dynamic ∧
      v'.enabled = v.enabled ∧ v'.callsInProgress = v.callsInProgress := by
  unfold Server.serversUpdateRegistryServer
  by_cases hip : v.podIp = some podIp <;> by_cases heq : v.pUrl = url <;>
    simp [hip, heq, hpodIp, hurl]

/-- The three things that the second loop does with an endpoint. -/
inductive PodEffect (s : State) (endpoint : Endpoint) : State → Prop where
  | created (hnew : s.pServerNameLookup.lookup endpoint.podName = none) :
      PodEffect s endpoint ((s.addServer (.registered endpoint.podName endpoint.podIp
        endpoint.url)).startServerThread s.serverCount)
  | updated (S : Nat) (hfind : s.pServerNameLookup.lookup endpoint.podName = some S)
      (hdynamic : (s.servers S).dynamic = true) (henabled : (s.servers S).enabled = true) :
      PodEffect s endpoint (s.setServer S
        ((s.servers S).serversUpdateRegistryServer endpoint.podIp endpoint.url))
  | restarted (S : Nat) (hfind : s.pServerNameLookup.lookup endpoint.podName = some S)
      (hdynamic : (s.servers S).dynamic = true) :
      PodEffect s endpoint ((s.setServer S ((s.servers S).serversUpdateRegistryServer
        endpoint.podIp endpoint.url)).startServerThread S)
  | static (S : Nat) (hfind : s.pServerNameLookup.lookup endpoint.podName = some S)
      (hstatic : (s.servers S).dynamic = false) : PodEffect s endpoint s

theorem refreshPod_effect (s : State) {endpoint : Endpoint} (hwhole : endpoint.Whole) :
    PodEffect s endpoint (s.refreshPod endpoint) := by
  unfold State.refreshPod
  split
  · next hnew => exact .created hnew
  · next S hfind =>
      split
      · next hdynamic =>
          have hfields := updated_fields (s.servers S) hwhole.1 hwhole.2
          dsimp only
          rw [State.setServer_self]
          split
          · next henabled =>
              rw [hfields.2.2.2.2.1] at henabled
              exact .updated S hfind hdynamic henabled
          · exact .restarted S hfind hdynamic
      · next hstatic => exact .static S hfind (by simpa using hstatic)

theorem PodEffect.keyed {s s' : State} {endpoint : Endpoint} (hk : Keyed s)
    (h : PodEffect s endpoint s') : Keyed s' := by
  have hset : ∀ S, Keyed (s.setServer S
      ((s.servers S).serversUpdateRegistryServer endpoint.podIp endpoint.url)) := fun S =>
    hk.setServer S (updated_keeps _ endpoint.podIp endpoint.url).name
  cases h with
  | created hnew => exact (hk.addServer _).startServerThread s.serverCount
  | updated S hfind hdynamic henabled => exact hset S
  | restarted S hfind hdynamic => exact (hset S).startServerThread S
  | static S hfind hstatic => exact hk

/-- An endpoint has to do with its own name only. -/
theorem PodEffect.untouched {s s' : State} {endpoint : Endpoint} (hk : Keyed s)
    (h : PodEffect s endpoint s') {name : String} (hname : endpoint.podName ≠ name) :
    Untouched s s' name := by
  -- the server that is updated has the endpoint's name, as the table is keyed
  have hset : ∀ S, s.pServerNameLookup.lookup endpoint.podName = some S → Untouched s
      (s.setServer S ((s.servers S).serversUpdateRegistryServer endpoint.podIp endpoint.url))
      name := by
    intro S hfind
    apply untouched_setServer hk
    rw [(hk _ S hfind).2]
    exact hname
  cases h with
  | created hnew =>
      have hadded : Untouched s (s.addServer
          (.registered endpoint.podName endpoint.podIp endpoint.url)) name :=
        untouched_addServer hk hname
      refine hadded.trans ?_
      apply untouched_startServerThread (hk.addServer _)
      rw [addServer_self]
      exact hname
  | updated S hfind hdynamic henabled => exact hset S hfind
  | restarted S hfind hdynamic =>
      refine (hset S hfind).trans ?_
      apply untouched_startServerThread
      · exact hk.setServer S (updated_keeps _ endpoint.podIp endpoint.url).name
      · rw [State.setServer_self, (updated_keeps _ endpoint.podIp endpoint.url).name,
          (hk _ S hfind).2]
        exact hname
  | static S hfind hstatic => exact .refl s name

/-- A static server is left alone, also when its name is reported. -/
theorem PodEffect.static_untouched {s s' : State} {endpoint : Endpoint} (hk : Keyed s)
    (h : PodEffect s endpoint s') {name : String} {S : Nat}
    (hfind : s.pServerNameLookup.lookup name = some S) (hstatic : (s.servers S).dynamic = false) :
    Untouched s s' name := by
  by_cases hname : endpoint.podName = name
  · subst hname
    cases h with
    | created hnew =>
        rw [hnew] at hfind
        cases hfind
    | updated T hfind' hdynamic | restarted T hfind' hdynamic =>
        rw [hfind'] at hfind
        cases hfind
        rw [hstatic] at hdynamic
        cases hdynamic
    | static => exact .refl s _
  · exact h.untouched hk hname

/-- An endpoint whose name belongs to no static server is placed. -/
theorem PodEffect.placed {s s' : State} {endpoint : Endpoint} (hwhole : endpoint.Whole)
    (h : PodEffect s endpoint s')
    (hdyn : ∀ S, s.pServerNameLookup.lookup endpoint.podName = some S →
      (s.servers S).dynamic = true) : ∃ S, Placed s' endpoint S := by
  cases h with
  | created hnew =>
      refine ⟨s.serverCount, AList.lookup_insert _, ?_⟩
      have hself : ((s.addServer (.registered endpoint.podName endpoint.podIp
          endpoint.url)).startServerThread s.serverCount).servers s.serverCount =
          { Server.registered endpoint.podName endpoint.podIp endpoint.url with
            pThread := some s.threads.length } := by
        show (State.setServer _ _ _).servers s.serverCount = _
        rw [State.setServer_self, addServer_self]
        rfl
      rw [hself]
      exact ⟨rfl, rfl, rfl, rfl⟩
  | updated S hfind hdynamic henabled =>
      have hfields := updated_fields (s.servers S) hwhole.1 hwhole.2
      refine ⟨S, hfind, ?_⟩
      rw [State.setServer_self, hfields.2.2.2.1, hfields.2.2.2.2.1]
      exact ⟨hdynamic, henabled, hfields.1, hfields.2.1⟩
  | restarted S hfind hdynamic =>
      have hfields := updated_fields (s.servers S) hwhole.1 hwhole.2
      refine ⟨S, hfind, ?_⟩
      have hself : ((s.setServer S ((s.servers S).serversUpdateRegistryServer endpoint.podIp
          endpoint.url)).startServerThread S).servers S =
          { (s.servers S).serversUpdateRegistryServer endpoint.podIp endpoint.url with
            enabled := true, pThread := some s.threads.length } := by
        show (State.setServer _ _ _).servers S = _
        rw [State.setServer_self, State.setServer_self]
        rfl
      rw [hself]
      exact ⟨hfields.2.2.2.1.trans hdynamic, rfl, hfields.1, hfields.2.1⟩
  | static S hfind hstatic =>
      -- a static server of that name is ruled out
      have hdynamic := hdyn S hfind
      rw [hstatic] at hdynamic
      cases hdynamic

/-- What the second loop makes of a table. -/
structure PodsRefreshed (s : State) (endpoints : List Endpoint) (s' : State) : Prop where
  keyed : Keyed s'
  untouched : ∀ name ∉ endpoints.map Endpoint.podName, Untouched s s' name
  static : ∀ name S, s.pServerNameLookup.lookup name = some S →
    (s.servers S).dynamic = false → Untouched s s' name
  placed : ∀ endpoint ∈ endpoints, (∀ S, s.pServerNameLookup.lookup endpoint.podName = some S →
    (s.servers S).dynamic = true) → ∃ S, Placed s' endpoint S

theorem Placed.untouched {s s' : State} {endpoint : Endpoint} {S : Nat} (h : Placed s endpoint S)
    (hsame : Untouched s s' endpoint.podName) : Placed s' endpoint S := by
  obtain ⟨hfind, hrest⟩ := h
  refine ⟨hsame.1.trans hfind, ?_⟩
  rw [hsame.2 S hfind]
  exact hrest

theorem foldl_refreshPod {endpoints : List Endpoint} {s : State} (hk : Keyed s)
    (hnodup : (endpoints.map Endpoint.podName).Nodup)
    (hwhole : ∀ endpoint ∈ endpoints, endpoint.Whole) :
    PodsRefreshed s endpoints (endpoints.foldl State.refreshPod s) := by
  induction endpoints generalizing s with
  | nil => exact ⟨hk, fun name _ => .refl s name, fun name _ _ _ => .refl s name, nofun⟩
  | cons endpoint rest ih =>
      obtain ⟨hfresh, hrest⟩ := List.nodup_cons.mp hnodup
      have hwhole' := hwhole endpoint List.mem_cons_self
      have heffect := refreshPod_effect s hwhole'
      have hstep := ih (heffect.keyed hk) hrest fun e he => hwhole e (List.mem_cons_of_mem _ he)
      refine ⟨hstep.keyed, fun name hname => ?_, fun name S hfind hstatic => ?_,
        fun e he hdyn => ?_⟩
      · rw [List.map_cons, List.mem_cons, not_or] at hname
        exact (heffect.untouched hk (Ne.symm hname.1)).trans (hstep.untouched name hname.2)
      · have hsame := heffect.static_untouched hk hfind hstatic
        refine hsame.trans (hstep.static name S (hsame.1.trans hfind) ?_)
        rw [hsame.2 S hfind]
        exact hstatic
      · rcases List.mem_cons.mp he with rfl | hmem
        · obtain ⟨S, hplaced⟩ := heffect.placed hwhole' hdyn
          exact ⟨S, hplaced.untouched (hstep.untouched e.podName hfresh)⟩
        · -- the endpoint before it has another name
          have hne : endpoint.podName ≠ e.podName := by
            intro heq
            exact hfresh (heq ▸ List.mem_map_of_mem hmem)
          have hsame := heffect.untouched hk hne
          refine hstep.placed e hmem fun S hS => ?_
          rw [hsame.1] at hS
          rw [hsame.2 S hS]
          exact hdyn S hS

/-! ## The last loop -/

/-- What it does to a server that is evicted, whichever way `stopServerThread` takes: the
    entry of its name goes, and nothing else is touched. -/
structure Evicted (s : State) (S : Nat) (s' : State) : Prop where
  names : s'.pServerNameLookup = s.pServerNameLookup.erase (s.servers S).name
  serverCount : s'.serverCount = s.serverCount
  self : (s'.servers S).name = (s.servers S).name ∧ (s'.servers S).dynamic = (s.servers S).dynamic
  others : ∀ T ≠ S, s'.servers T = s.servers T

theorem erase_of_lookup_none {names : AList fun _ : String => Nat} {name : String}
    (h : names.lookup name = none) : names.erase name = names := by
  apply AList.ext
  exact List.kerase_of_notMem_keys (AList.lookup_eq_none.mp h)

theorem removed_evicted (s : State) {S : Nat} (hdynamic : (s.servers S).dynamic = true) :
    Evicted s S (s.serversDynamicRemoveFromLookup S) := by
  unfold State.serversDynamicRemoveFromLookup
  dsimp only
  split
  · refine ⟨rfl, rfl, ?_, fun T hT => s.setServer_ne _ hT⟩
    show (State.servers (s.setServer S _) S).name = _ ∧
      (State.servers (s.setServer S _) S).dynamic = _
    rw [State.setServer_self]
    exact ⟨rfl, rfl⟩
  · next hnone =>
      rw [not_and, Option.not_isSome_iff_eq_none] at hnone
      exact ⟨(erase_of_lookup_none (hnone hdynamic)).symm, rfl, ⟨rfl, rfl⟩, fun _ _ => rfl⟩

/-- The server was marked before. -/
theorem Evicted.of_set {s s' : State} {S : Nat} {v : Server} (h : Evicted (s.setServer S v) S s')
    (hname : v.name = (s.servers S).name) (hdynamic : v.dynamic = (s.servers S).dynamic) :
    Evicted s S s' := by
  have hself := h.self
  have hnames := h.names
  rw [State.setServer_self] at hself hnames
  rw [hname] at hself hnames
  rw [hdynamic] at hself
  exact ⟨hnames, h.serverCount, hself, fun T hT => (h.others T hT).trans (s.setServer_ne v hT)⟩

/-- The server is marked after it. -/
theorem Evicted.set {s s' : State} {S : Nat} (h : Evicted s S s') {v : Server}
    (hname : v.name = (s'.servers S).name) (hdynamic : v.dynamic = (s'.servers S).dynamic) :
    Evicted s S (s'.setServer S v) := by
  refine ⟨h.names, h.serverCount, ?_, fun T hT => (s'.setServer_ne v hT).trans (h.others T hT)⟩
  rw [State.setServer_self, hname, hdynamic]
  exact h.self

theorem threadDone_evicted (s : State) {S t : Nat} (hdynamic : (s.servers S).dynamic = true)
    (hevicted : (s.servers S).evicted = true) : Evicted s S (s.threadDone S t) := by
  have hremoved := removed_evicted { s with serverIdLookup := (hashDelete s.serverIdLookup
    ((s.threads[t]?).getD { server := S }).serverId).1 } hdynamic
  unfold State.threadDone
  dsimp only
  rw [if_pos hevicted]
  exact ⟨hremoved.names, hremoved.serverCount, hremoved.self, hremoved.others⟩

theorem stopServerThread_evicted (s : State) {S : Nat} (hdynamic : (s.servers S).dynamic = true)
    (hevicted : (s.servers S).evicted = true) : Evicted s S (s.stopServerThread S) := by
  unfold State.stopServerThread
  split
  · next t hstop hthread =>
      have hself := s.setServer_self S { s.servers S with terminating := true }
      have hdone : Evicted (s.setServer S { s.servers S with terminating := true }) S
          ((s.setServer S { s.servers S with terminating := true }).threadDone S t) := by
        apply threadDone_evicted
        · rw [hself]
          exact hdynamic
        · rw [hself]
          exact hevicted
      exact (hdone.of_set rfl rfl).set rfl rfl
  · rw [if_pos hevicted]
    exact removed_evicted s hdynamic

theorem evict_evicted (s : State) {S : Nat} (hdynamic : (s.servers S).dynamic = true) :
    Evicted s S (s.evict S) := by
  have hself := s.setServer_self S { s.servers S with evicted := true }
  have hstop : Evicted (s.setServer S { s.servers S with evicted := true }) S (s.evict S) := by
    apply stopServerThread_evicted
    · rw [hself]
      exact hdynamic
    · rw [hself]
  exact hstop.of_set rfl rfl

/-- What the last loop makes of a table. -/
structure ServersEvicted (s : State) (evictList : List Nat) (s' : State) : Prop where
  serverCount : s'.serverCount = s.serverCount
  gone : ∀ S ∈ evictList, s'.pServerNameLookup.lookup (s.servers S).name = none
  kept : ∀ name, (∀ S ∈ evictList, (s.servers S).name ≠ name) →
    s'.pServerNameLookup.lookup name = s.pServerNameLookup.lookup name
  shrinks : ∀ name S, s'.pServerNameLookup.lookup name = some S →
    s.pServerNameLookup.lookup name = some S
  others : ∀ T ∉ evictList, s'.servers T = s.servers T
  names : ∀ T, (s'.servers T).name = (s.servers T).name

theorem foldl_evict {evictList : List Nat} {s : State}
    (hdynamic : ∀ S ∈ evictList, (s.servers S).dynamic = true) :
    ServersEvicted s evictList (evictList.foldl State.evict s) := by
  induction evictList generalizing s with
  | nil => exact ⟨rfl, nofun, fun _ _ => rfl, fun _ _ => id, fun _ _ => rfl, fun _ => rfl⟩
  | cons S rest ih =>
      have heffect := evict_evicted s (hdynamic S List.mem_cons_self)
      have hnames : ∀ T, ((s.evict S).servers T).name = (s.servers T).name := by
        intro T
        by_cases hT : T = S
        · rw [hT]
          exact heffect.self.1
        · rw [heffect.others T hT]
      have hstep := ih (s := s.evict S) fun T hT => by
        by_cases hTS : T = S
        · rw [hTS, heffect.self.2]
          exact hdynamic S List.mem_cons_self
        · rw [heffect.others T hTS]
          exact hdynamic T (List.mem_cons_of_mem _ hT)
      refine ⟨hstep.serverCount.trans heffect.serverCount, fun T hT => ?_, fun name hname => ?_,
        fun name T hT => ?_, fun T hT => ?_, fun T => (hstep.names T).trans (hnames T)⟩
      · rcases List.mem_cons.mp hT with rfl | hmem
        · -- what is gone does not come back
          cases hfind : (List.foldl State.evict (s.evict T) rest).pServerNameLookup.lookup
              (s.servers T).name with
          | none => exact hfind
          | some U =>
              have hbefore := hstep.shrinks _ U hfind
              rw [heffect.names, AList.lookup_erase] at hbefore
              cases hbefore
        · rw [← hnames T]
          exact hstep.gone T hmem
      · have hfirst : (s.servers S).name ≠ name := hname S List.mem_cons_self
        have hrest := hstep.kept name fun T hT => by
          rw [hnames T]
          exact hname T (List.mem_cons_of_mem _ hT)
        refine hrest.trans ?_
        rw [heffect.names, AList.lookup_erase_ne (Ne.symm hfirst)]
      · have hbefore := hstep.shrinks name T hT
        rw [heffect.names] at hbefore
        exact lookup_of_erase hbefore
      · rw [List.mem_cons, not_or] at hT
        exact (hstep.others T hT.2).trans (heffect.others T hT.1)

/-! ## The endpoints of a refresh -/

section Endpoints

variable {service : Service} {parts : HttpUrlParts} {res : List AddrInfo}

theorem janusPath_fits (h : parts.path.length < PATH_SIZE) :
    parts.janusPath.length < PATH_SIZE := by
  unfold HttpUrlParts.janusPath
  split
  · decide
  · exact h

theorem endpointAt_whole (hport : parts.port.length < PORT_SIZE)
    (hpath : parts.path.length < PATH_SIZE) (ip : Ip) (podName : String) :
    (endpointAt parts ip podName).Whole :=
  ⟨ip.nonempty, serversBuildJanusUrl_ne ip hport (janusPath_fits hpath)⟩

theorem probeLoop_nodup : ((probeLoop service parts [] res).map Endpoint.podName).Nodup := by
  rw [probeLoop_eq_firsts]
  exact Firsts.firsts_nodup _ List.nodup_nil

theorem probeLoop_whole (hport : parts.port.length < PORT_SIZE)
    (hpath : parts.path.length < PATH_SIZE) :
    ∀ endpoint ∈ probeLoop service parts [] res, endpoint.Whole := by
  intro endpoint hmem
  rw [probeLoop_eq_firsts] at hmem
  rcases Firsts.find?_of_mem_firsts _ hmem with hnil | ⟨-, hfind⟩
  · cases hnil
  · obtain ⟨rp, -, hrp⟩ := List.mem_filterMap.mp (List.mem_of_find?_eq_some hfind)
    cases rp with
    | other => cases hrp
    | inet ip =>
        obtain ⟨podName, -, rfl⟩ := Option.map_eq_some_iff.mp hrp
        exact endpointAt_whole hport hpath ip podName

/-- No more names are reported than a refresh has room for. -/
def FewPods (service : Service) (parts : HttpUrlParts) (res : List AddrInfo) : Prop :=
  (service.reported parts res).toFinset.card ≤ REGISTRY_MAX_ENDPOINTS

/-- The endpoint of a name is the one at the first address that reports it. -/
theorem mem_probeLoop (hfew : FewPods service parts res) {name : String} {ip : Ip}
    (h : res.find? (fun rp => service.reportOf parts rp = some name) = some (.inet ip)) :
    endpointAt parts ip name ∈ probeLoop service parts [] res := by
  have hnodup : (([] : List Endpoint).map Endpoint.podName).Nodup := List.nodup_nil
  rw [probeLoop_eq_firsts]
  apply Firsts.mem_firsts _ hnodup ?_ List.not_mem_nil (endpointOf_find service parts h)
  rw [List.nil_append, endpointOf_podName]
  exact hfew

/-- A name that is reported has a first address. -/
theorem exists_first {name : String} (h : name ∈ service.reported parts res) :
    ∃ ip, res.find? (fun rp => service.reportOf parts rp = some name) = some (.inet ip) := by
  obtain ⟨rp, hrp, hreport⟩ := List.mem_filterMap.mp h
  have hsome : (res.find? fun rp => service.reportOf parts rp = some name).isSome = true := by
    rw [List.find?_isSome]
    exact ⟨rp, hrp, by simpa using hreport⟩
  obtain ⟨first, hfirst⟩ := Option.isSome_iff_exists.mp hsome
  cases first with
  | other =>
      have hnone := List.find?_some hfirst
      simp [Service.reportOf] at hnone
  | inet ip => exact ⟨ip, hfirst⟩

/-- The endpoints have the names that are reported. -/
theorem probeLoop_names (hfew : FewPods service parts res) (name : String) :
    name ∈ (probeLoop service parts [] res).map Endpoint.podName ↔
      name ∈ service.reported parts res := by
  constructor
  · intro hmem
    obtain ⟨endpoint, hendpoint, rfl⟩ := List.mem_map.mp hmem
    rw [probeLoop_eq_firsts] at hendpoint
    rcases Firsts.find?_of_mem_firsts _ hendpoint with hnil | ⟨-, hfind⟩
    · cases hnil
    · rw [← endpointOf_podName]
      exact List.mem_map_of_mem (List.mem_of_find?_eq_some hfind)
  · intro hmem
    obtain ⟨ip, hfirst⟩ := exists_first hmem
    exact List.mem_map_of_mem (mem_probeLoop hfew hfirst)

end Endpoints

/-! ## The servers that are evicted -/

theorem mem_registeredServers {s : State} {S : Nat} :
    S ∈ s.registeredServers ↔ ∃ name, s.pServerNameLookup.lookup name = some S := by
  unfold State.registeredServers
  rw [List.mem_map]
  constructor
  · rintro ⟨⟨name, T⟩, hmem, rfl⟩
    exact ⟨name, AList.mem_lookup_iff.mpr hmem⟩
  · rintro ⟨name, hfind⟩
    exact ⟨⟨name, S⟩, AList.mem_lookup_iff.mp hfind, rfl⟩

/-- A server stands in the table once. -/
theorem registeredServers_nodup {s : State} (hk : Keyed s) : s.registeredServers.Nodup := by
  apply List.Nodup.map_on ?_ s.pServerNameLookup.nodupKeys.nodup
  rintro ⟨name, S⟩ hS ⟨name', S'⟩ hS' heq
  cases heq
  have hname := (hk name S (AList.mem_lookup_iff.mpr hS)).2
  rw [(hk name' S (AList.mem_lookup_iff.mpr hS')).2] at hname
  rw [hname]

theorem evictable_iff {s : State} {seenPods : List String} {S : Nat} :
    s.evictable seenPods S = true ↔ (s.servers S).dynamic = true ∧
      (s.servers S).name ∉ seenPods ∧ (s.servers S).callsInProgress = 0 := by
  simp [State.evictable, and_assoc]

theorem evictable_congr {s : State} {seenPods seenPods' : List String}
    (h : ∀ name, name ∈ seenPods ↔ name ∈ seenPods') :
    s.evictable seenPods = s.evictable seenPods' := by
  funext S
  rw [Bool.eq_iff_iff, evictable_iff, evictable_iff, h]

/-- All servers to evict fit. -/
theorem mem_evictList {s s₁ : State} {endpoints : List Endpoint}
    (hpods : PodsRefreshed s endpoints s₁)
    (hfew : (s.registeredServers.filter (s.evictable (endpoints.map Endpoint.podName))).length ≤
      REGISTRY_MAX_ENDPOINTS) {S : Nat} :
    S ∈ s₁.evictList (endpoints.map Endpoint.podName) ↔
      S ∈ s₁.registeredServers ∧ s₁.evictable (endpoints.map Endpoint.podName) S = true := by
  have hsub : s₁.registeredServers.filter (s₁.evictable (endpoints.map Endpoint.podName)) ⊆
      s.registeredServers.filter (s.evictable (endpoints.map Endpoint.podName)) := by
    intro T hT
    obtain ⟨hmem, hevictable⟩ := List.mem_filter.mp hT
    obtain ⟨name, hfind⟩ := mem_registeredServers.mp hmem
    have hname := (hpods.keyed name T hfind).2
    -- it was not reported, and so not touched
    have hnot : name ∉ endpoints.map Endpoint.podName := by
      rw [← hname]
      exact (evictable_iff.mp hevictable).2.1
    have hsame := hpods.untouched name hnot
    rw [hsame.1] at hfind
    refine List.mem_filter.mpr ⟨mem_registeredServers.mpr ⟨name, hfind⟩, ?_⟩
    rw [State.evictable, hsame.2 T hfind] at hevictable
    exact hevictable
  have hnodup := (registeredServers_nodup hpods.keyed).filter
    (s₁.evictable (endpoints.map Endpoint.podName))
  have hlength := (hnodup.subperm hsub).length_le
  rw [State.evictList, List.take_of_length_le (Nat.le_trans hlength hfew), List.mem_filter]

/-! ## The whole refresh -/

/-- A refresh that gets to its loops, with the tables between them. -/
structure Refreshed (s : State) (endpoints : List Endpoint) (s₁ s' : State) : Prop where
  pods : PodsRefreshed s endpoints s₁
  evicted : ServersEvicted s₁ (s₁.evictList (endpoints.map Endpoint.podName)) s'
  list : ∀ S, S ∈ s₁.evictList (endpoints.map Endpoint.podName) ↔
    S ∈ s₁.registeredServers ∧ s₁.evictable (endpoints.map Endpoint.podName) S = true

namespace Refreshed

variable {s s₁ s' : State} {endpoints : List Endpoint}

theorem keyed (h : Refreshed s endpoints s₁ s') : Keyed s' := by
  intro name S hS
  obtain ⟨hlt, hname⟩ := h.pods.keyed name S (h.evicted.shrinks name S hS)
  rw [h.evicted.serverCount, h.evicted.names]
  exact ⟨hlt, hname⟩

/-- What is not evictable is kept as the second loop left it. -/
theorem kept (h : Refreshed s endpoints s₁ s') {name : String} {S : Nat}
    (hfind : s₁.pServerNameLookup.lookup name = some S)
    (hnot : s₁.evictable (endpoints.map Endpoint.podName) S = false) :
    s'.pServerNameLookup.lookup name = some S ∧ s'.servers S = s₁.servers S := by
  have hS : S ∉ s₁.evictList (endpoints.map Endpoint.podName) := by
    rw [h.list S, hnot]
    exact nofun
  refine ⟨?_, h.evicted.others S hS⟩
  rw [h.evicted.kept name ?_]
  · exact hfind
  · -- a server of that name would be the same one
    rintro T hT rfl
    obtain ⟨hmem, -⟩ := (h.list T).mp hT
    obtain ⟨name, hname⟩ := mem_registeredServers.mp hmem
    rw [(h.pods.keyed name T hname).2, hname] at hfind
    cases hfind
    exact hS hT

/-- A server of a name that was reported is kept. -/
theorem kept_reported (h : Refreshed s endpoints s₁ s') {name : String} {S : Nat}
    (hfind : s₁.pServerNameLookup.lookup name = some S)
    (hname : name ∈ endpoints.map Endpoint.podName) :
    s'.pServerNameLookup.lookup name = some S ∧ s'.servers S = s₁.servers S := by
  refine h.kept hfind ?_
  have hown := (h.pods.keyed name S hfind).2
  simp [State.evictable, hown, hname]

theorem static (h : Refreshed s endpoints s₁ s') {name : String} {S : Nat}
    (hfind : s.pServerNameLookup.lookup name = some S) (hstatic : (s.servers S).dynamic = false) :
    s'.pServerNameLookup.lookup name = some S ∧ s'.servers S = s.servers S := by
  have hsame := h.pods.static name S hfind hstatic
  have hself := hsame.2 S hfind
  have hkept := h.kept (hsame.1.trans hfind) (by simp [State.evictable, hself, hstatic])
  exact ⟨hkept.1, hkept.2.trans hself⟩

theorem placed (h : Refreshed s endpoints s₁ s') {endpoint : Endpoint} (he : endpoint ∈ endpoints)
    (hdyn : ∀ S, s.pServerNameLookup.lookup endpoint.podName = some S →
      (s.servers S).dynamic = true) : ∃ S, Placed s' endpoint S := by
  obtain ⟨S, hfind, hrest⟩ := h.pods.placed endpoint he hdyn
  obtain ⟨hfind', hself⟩ := h.kept_reported hfind (List.mem_map_of_mem he)
  refine ⟨S, hfind', ?_⟩
  rw [hself]
  exact hrest

theorem unreported (h : Refreshed s endpoints s₁ s') {name : String} {S : Nat}
    (hfind : s.pServerNameLookup.lookup name = some S) (hdynamic : (s.servers S).dynamic = true)
    (hname : name ∉ endpoints.map Endpoint.podName) :
    s'.pServerNameLookup.lookup name =
      if 0 < (s.servers S).callsInProgress then some S else none := by
  have hsame := h.pods.untouched name hname
  have hfind₁ := hsame.1.trans hfind
  have hself := hsame.2 S hfind
  have hown := (h.pods.keyed name S hfind₁).2
  split
  · next hcalls =>
      refine (h.kept hfind₁ ?_).1
      rw [← Bool.not_eq_true, evictable_iff, hself]
      exact fun hevictable => by omega
  · next hcalls =>
      have hS : S ∈ s₁.evictList (endpoints.map Endpoint.podName) := by
        refine (h.list S).mpr ⟨mem_registeredServers.mpr ⟨name, hfind₁⟩, ?_⟩
        rw [evictable_iff, hown, hself]
        exact ⟨hdynamic, hname, by omega⟩
      rw [← hown]
      exact h.evicted.gone S hS

/-- Nothing is left to evict. -/
theorem settled (h : Refreshed s endpoints s₁ s') {S : Nat} (hS : S ∈ s'.registeredServers) :
    s'.evictable (endpoints.map Endpoint.podName) S = false := by
  obtain ⟨name, hfind⟩ := mem_registeredServers.mp hS
  have hfind₁ := h.evicted.shrinks name S hfind
  have hown := (h.pods.keyed name S hfind₁).2
  have hnot : S ∉ s₁.evictList (endpoints.map Endpoint.podName) := by
    intro hmem
    have hgone := h.evicted.gone S hmem
    rw [hown, hfind] at hgone
    cases hgone
  rw [h.list S, not_and] at hnot
  have hbefore := hnot (mem_registeredServers.mpr ⟨name, hfind₁⟩)
  rw [State.evictable, h.evicted.others S fun hmem => hbefore ((h.list S).mp hmem).2]
  exact Bool.eq_false_iff.mpr hbefore

end Refreshed

/-! ## A second refresh -/

/-- Only `connect_failures` may have changed. -/
def Steady (s s' : State) : Prop :=
  s'.pServerNameLookup = s.pServerNameLookup ∧ ∀ S, ∃ connectFailures,
    s'.servers S = { s.servers S with connectFailures := connectFailures }

theorem Steady.refl (s : State) : Steady s s := ⟨rfl, fun _ => ⟨_, rfl⟩⟩

theorem Steady.trans {s s₁ s₂ : State} (h : Steady s s₁) (h' : Steady s₁ s₂) : Steady s s₂ := by
  refine ⟨h'.1.trans h.1, fun S => ?_⟩
  obtain ⟨n, hn⟩ := h.2 S
  obtain ⟨m, hm⟩ := h'.2 S
  exact ⟨m, by rw [hm, hn]⟩

/-- The name of the endpoint belongs to a static server, or its pod is placed already. -/
def Owned (s : State) (endpoint : Endpoint) : Prop :=
  (∃ S, s.pServerNameLookup.lookup endpoint.podName = some S ∧ (s.servers S).dynamic = false) ∨
    ∃ S, Placed s endpoint S

theorem Owned.steady {s s' : State} {endpoint : Endpoint} (h : Owned s endpoint)
    (hsteady : Steady s s') : Owned s' endpoint := by
  rcases h with ⟨S, hfind, hstatic⟩ | ⟨S, hfind, hrest⟩
  · obtain ⟨n, hn⟩ := hsteady.2 S
    refine .inl ⟨S, ?_, ?_⟩
    · rw [hsteady.1]
      exact hfind
    · rw [hn]
      exact hstatic
  · obtain ⟨n, hn⟩ := hsteady.2 S
    refine .inr ⟨S, ?_, ?_⟩
    · rw [hsteady.1]
      exact hfind
    · rw [hn]
      exact hrest

theorem refreshPod_steady {s : State} {endpoint : Endpoint} (h : Owned s endpoint) :
    Steady s (s.refreshPod endpoint) := by
  rcases h with ⟨S, hfind, hstatic⟩ | ⟨S, hfind, hdynamic, henabled, hpodIp, hurl⟩
  · have hsame : s.refreshPod endpoint = s := by
      simp [State.refreshPod, hfind, hstatic]
    rw [hsame]
    exact .refl s
  · have hupdated : (s.servers S).serversUpdateRegistryServer endpoint.podIp endpoint.url =
        { s.servers S with connectFailures := 0 } := by
      simp [Server.serversUpdateRegistryServer, hpodIp, hurl]
    have hset : s.refreshPod endpoint =
        s.setServer S { s.servers S with connectFailures := 0 } := by
      simp [State.refreshPod, hfind, hdynamic, hupdated, henabled]
    rw [hset]
    refine ⟨rfl, fun T => ?_⟩
    by_cases hT : T = S
    · subst hT
      exact ⟨0, s.setServer_self T _⟩
    · exact ⟨_, s.setServer_ne _ hT⟩

theorem foldl_refreshPod_steady {endpoints : List Endpoint} {s : State}
    (h : ∀ endpoint ∈ endpoints, Owned s endpoint) :
    Steady s (endpoints.foldl State.refreshPod s) := by
  induction endpoints generalizing s with
  | nil => exact .refl s
  | cons endpoint rest ih =>
      have hfirst := refreshPod_steady (h endpoint List.mem_cons_self)
      refine hfirst.trans (ih fun e he => ?_)
      exact (h e (List.mem_cons_of_mem _ he)).steady hfirst

/-- The same endpoints once more: nothing to place, and nothing to evict. -/
theorem Refreshed.again {s s₁ s' : State} {endpoints : List Endpoint}
    (h : Refreshed s endpoints s₁ s') : Steady s' (s'.applyEndpoints endpoints) := by
  have howned : ∀ endpoint ∈ endpoints, Owned s' endpoint := by
    intro endpoint he
    by_cases hdyn : ∀ S, s.pServerNameLookup.lookup endpoint.podName = some S →
        (s.servers S).dynamic = true
    · exact .inr (h.placed he hdyn)
    · push Not at hdyn
      obtain ⟨S, hfind, hnot⟩ := hdyn
      have hstatic : (s.servers S).dynamic = false := by simpa using hnot
      obtain ⟨hfind', hself⟩ := h.static hfind hstatic
      exact .inl ⟨S, hfind', by rw [hself]; exact hstatic⟩
  have hsteady := foldl_refreshPod_steady howned
  -- what could be evicted was evicted by the first refresh
  have hnone : (endpoints.foldl State.refreshPod s').evictList
      (endpoints.map Endpoint.podName) = [] := by
    rw [State.evictList, List.filter_eq_nil_iff.mpr, List.take_nil]
    intro S hS
    rw [State.registeredServers, hsteady.1] at hS
    obtain ⟨n, hn⟩ := hsteady.2 S
    rw [State.evictable, hn, Bool.not_eq_true]
    exact h.settled hS
  rw [State.applyEndpoints, hnone]
  exact hsteady

/-! ## What a refresh makes of the table -/

/-- What the service makes of its URL: its parts, and the answer of DNS. -/
def Service.answer (service : Service) : Option (HttpUrlParts × List AddrInfo) :=
  (serversParseHttpUrlParts service.headlessServiceUrl).bind fun parts =>
    (service.getaddrinfo parts.host).map fun res => (parts, res)

/-- Each reported name that belongs to no static server is registered once, as a dynamic
    enabled server at the first address that reported it. -/
def ReportedRegistered (s s' : State) (service : Service) (parts : HttpUrlParts)
    (res : List AddrInfo) : Prop :=
  ∀ name ∈ service.reported parts res,
    (∀ S, s.pServerNameLookup.lookup name = some S → (s.servers S).dynamic = true) →
    ∃ ip S, res.find? (fun rp => service.reportOf parts rp = some name) = some (.inet ip) ∧
      s'.pServerNameLookup.lookup name = some S ∧
      (∀ name' S', s'.pServerNameLookup.lookup name' = some S' → (s'.servers S').name = name →
        name' = name ∧ S' = S) ∧
      (s'.servers S).dynamic = true ∧ (s'.servers S).enabled = true ∧
      (s'.servers S).podIp = some ip.text ∧
      (s'.servers S).pUrl = serversBuildJanusUrl ip.text parts.port parts.janusPath

/-- A dynamic server that was not reported is still registered if it has calls. -/
def UnreportedKept (s s' : State) (reported : List String) : Prop :=
  ∀ name S, s.pServerNameLookup.lookup name = some S → (s.servers S).dynamic = true →
    name ∉ reported →
      (s'.pServerNameLookup.lookup name = some S ↔ 0 < (s.servers S).callsInProgress)

def StaticUnchanged (s s' : State) : Prop :=
  ∀ name S, s.pServerNameLookup.lookup name = some S → (s.servers S).dynamic = false →
    s'.pServerNameLookup.lookup name = some S ∧ s'.servers S = s.servers S

/-- No name, `pod_ip` or `pUrl` has changed. -/
def SameAddresses (s s' : State) : Prop :=
  ∀ name, s'.pServerNameLookup.lookup name = s.pServerNameLookup.lookup name ∧
    ∀ S, s.pServerNameLookup.lookup name = some S →
      (s'.servers S).podIp = (s.servers S).podIp ∧ (s'.servers S).pUrl = (s.servers S).pUrl

section Table

variable {service : Service} {parts : HttpUrlParts} {res : List AddrInfo}

theorem answer_eq_some (h : service.answer = some (parts, res)) :
    serversParseHttpUrlParts service.headlessServiceUrl = some parts ∧
      service.getaddrinfo parts.host = some res := by
  obtain ⟨parts', hparse, hmap⟩ := Option.bind_eq_some_iff.mp h
  obtain ⟨res', hdns, heq⟩ := Option.map_eq_some_iff.mp hmap
  cases heq
  exact ⟨hparse, hdns⟩

/-- The refresh gets to its loops. -/
theorem serversRegistryRefresh_eq (s : State) (hdefaults : service.podDefaults = true)
    (h : service.answer = some (parts, res)) :
    (s.serversRegistryRefresh service).1 =
      s.applyEndpoints (probeLoop service parts [] res) := by
  obtain ⟨hparse, hdns⟩ := answer_eq_some h
  have hurl : service.headlessServiceUrl ≠ "" := by
    intro hempty
    rw [hempty] at hparse
    have hnone : serversParseHttpUrlParts "" = none := by decide
    rw [hnone] at hparse
    cases hparse
  unfold State.serversRegistryRefresh
  rw [if_neg (by simp [hurl, hdefaults]), hparse]
  dsimp only
  rw [hdns]

theorem serversRegistryRefresh_idle (s : State)
    (h : service.podDefaults = false ∨ service.answer = none) :
    (s.serversRegistryRefresh service).1 = s := by
  unfold State.serversRegistryRefresh
  split
  · rfl
  · next hguard =>
      have hnone : service.answer = none := by
        refine h.resolve_left fun hdefaults => hguard (.inr hdefaults)
      split
      · rfl
      · next parts hparse =>
          split
          · rfl
          · next res hdns =>
              rw [Service.answer, hparse, Option.bind_some, hdns] at hnone
              cases hnone

theorem refreshed (s : State) (hk : Keyed s) (h : service.answer = some (parts, res))
    (hpods : FewPods service parts res)
    (hservers : (s.registeredServers.filter (s.evictable (service.reported parts res))).length ≤
      REGISTRY_MAX_ENDPOINTS) :
    Refreshed s (probeLoop service parts [] res)
      ((probeLoop service parts [] res).foldl State.refreshPod s)
      (s.applyEndpoints (probeLoop service parts [] res)) := by
  obtain ⟨hport, hpath⟩ := parts_fit (answer_eq_some h).1
  have hwhole : ∀ endpoint ∈ probeLoop service parts [] res, endpoint.Whole :=
    probeLoop_whole hport hpath
  have hrefreshed := foldl_refreshPod hk probeLoop_nodup hwhole
  rw [evictable_congr fun name => (probeLoop_names hpods name).symm] at hservers
  have hlist := fun S => mem_evictList hrefreshed hservers (S := S)
  refine ⟨hrefreshed, foldl_evict fun S hS => ?_, hlist⟩
  exact (evictable_iff.mp ((hlist S).mp hS).2).1

/-- When the settings of a static server were captured, the URL is valid and DNS answers,
    with room for all pods and all evictions: each reported pod is registered once at its
    first address, an unreported dynamic server is kept if it has calls, static servers
    are unchanged, and a second refresh changes no name and no address.  Otherwise the
    table is unchanged. -/
theorem serversRegistryRefresh_table (s : State) (service : Service) (hk : Keyed s) :
    (service.podDefaults = false ∨ service.answer = none →
      (s.serversRegistryRefresh service).1 = s) ∧
    ∀ parts res, service.podDefaults = true → service.answer = some (parts, res) →
      FewPods service parts res →
      (s.registeredServers.filter (s.evictable (service.reported parts res))).length ≤
        REGISTRY_MAX_ENDPOINTS →
      ReportedRegistered s (s.serversRegistryRefresh service).1 service parts res ∧
      UnreportedKept s (s.serversRegistryRefresh service).1 (service.reported parts res) ∧
      StaticUnchanged s (s.serversRegistryRefresh service).1 ∧
      SameAddresses (s.serversRegistryRefresh service).1
        ((s.serversRegistryRefresh service).1.serversRegistryRefresh service).1 := by
  refine ⟨serversRegistryRefresh_idle s, fun parts res hdefaults h hpods hservers => ?_⟩
  have hrefreshed := refreshed s hk h hpods hservers
  have hsecond := serversRegistryRefresh_eq (s.serversRegistryRefresh service).1 hdefaults h
  have hnames := probeLoop_names hpods
  rw [← serversRegistryRefresh_eq s hdefaults h] at hrefreshed
  -- from here on only what is known of the state after the refresh counts
  generalize (s.serversRegistryRefresh service).1 = s' at hrefreshed hsecond ⊢
  refine ⟨fun name hname hdyn => ?_, fun name S hfind hdynamic hname => ?_,
    fun name S hfind hstatic => hrefreshed.static hfind hstatic, fun name => ?_⟩
  · obtain ⟨ip, hfirst⟩ := exists_first hname
    obtain ⟨S, hfind, hdynamic, henabled, hpodIp, hurl⟩ :=
      hrefreshed.placed (mem_probeLoop hpods hfirst) hdyn
    refine ⟨ip, S, hfirst, hfind, fun name' S' hfind' hname' => ?_, hdynamic, henabled, hpodIp,
      hurl⟩
    -- once only: a second entry of that server name would have the same key
    have hkey := (hrefreshed.keyed name' S' hfind').2
    rw [hname'] at hkey
    rw [← hkey] at hfind'
    exact ⟨hkey.symm, Option.some.inj (hfind'.symm.trans hfind)⟩
  · rw [hrefreshed.unreported hfind hdynamic fun hmem => hname ((hnames name).mp hmem)]
    split
    · next hcalls => simp [hcalls]
    · next hcalls => simp [hcalls]
  · have hsteady := hrefreshed.again
    rw [hsecond, hsteady.1]
    refine ⟨rfl, fun S _ => ?_⟩
    obtain ⟨n, hn⟩ := hsteady.2 S
    rw [hn]
    exact ⟨rfl, rfl⟩

end Table

/-- What DNS answers for a service with one pod. -/
def onePodAnswer : List AddrInfo :=
  [.inet ⟨"10.0.0.3", by decide, by decide, by decide⟩, .other]

/-- The pod is `a`. -/
def onePod (podDefaults : Bool) : Service where
  headlessServiceUrl := "http://janus"
  podDefaults := podDefaults
  getaddrinfo := fun _ => some onePodAnswer
  httpGet := fun url =>
    if url = "http://10.0.0.3:80/janus/info" then some (.object [("server-name", .string "a")])
    else none

/-- The refresh registers pod `a`, and removes `b`, which is not reported any more. -/
theorem serversRegistryRefresh_table_onePod :
    ∃ s : State, s.pServerNameLookup.lookup "b" = some 1 ∧
      ReportedRegistered s (s.serversRegistryRefresh (onePod true)).1 (onePod true)
        ⟨"janus", "80", ""⟩ onePodAnswer ∧
      (s.serversRegistryRefresh (onePod true)).1.pServerNameLookup.lookup "b" ≠ some 1 := by
  have h0 : Initial { podServerFailMax := 1 } := ⟨1, rfl⟩
  obtain ⟨s, hs, hp⟩ := Transition.reach_of_exec step Always h0
    [.serversAdd "s" "http://10.1.1.1:8088/janus" false, .loaded, .refresh,
      .caller 0 (.register "b" "10.0.0.2" "http://10.0.0.2:80/janus"), .caller 0 .startTest,
      .caller 0 .create, .caller 0 .unlock, .caller 0 .refreshed]
    (fun s => s.pServerNameLookup.lookup "b" = some 1 ∧ (s.servers 1).dynamic = true ∧
      (s.servers 1).callsInProgress = 0 ∧ s.registeredServers.length ≤ 2) (by decide)
  obtain ⟨hfind, hdynamic, hcalls, hcount⟩ := of_decide_eq_true hp
  have hfew : FewPods (onePod true) ⟨"janus", "80", ""⟩ onePodAnswer := by
    unfold FewPods
    decide
  have hroom := Nat.le_trans (List.length_filter_le
    (s.evictable ((onePod true).reported ⟨"janus", "80", ""⟩ onePodAnswer)) s.registeredServers)
    (Nat.le_trans hcount (by decide : 2 ≤ REGISTRY_MAX_ENDPOINTS))
  obtain ⟨hreported, hunreported, -, -⟩ := (serversRegistryRefresh_table s (onePod true)
    (keyed_of_reach hs)).2 _ _ rfl (by decide) hfew hroom
  refine ⟨s, hfind, hreported, fun hkept => ?_⟩
  have hpositive := (hunreported "b" 1 hfind hdynamic (by decide)).mp hkept
  omega

/-- Without the settings of a static server the refresh returns before it asks DNS. -/
theorem serversRegistryRefresh_without_defaults :
    ¬ ∀ (s : State) (service : Service) (parts : HttpUrlParts) (res : List AddrInfo), Keyed s →
      service.answer = some (parts, res) → FewPods service parts res →
      (s.registeredServers.filter (s.evictable (service.reported parts res))).length ≤
        REGISTRY_MAX_ENDPOINTS →
      ReportedRegistered s (s.serversRegistryRefresh service).1 service parts res := by
  intro hclaim
  have hfew : FewPods (onePod false) ⟨"janus", "80", ""⟩ onePodAnswer := by
    unfold FewPods
    decide
  have hregistered := hclaim {} (onePod false) _ _ nofun (by decide) hfew (by decide)
  obtain ⟨ip, S, -, hfind, -⟩ := hregistered "a" (by decide) nofun
  have hidle : (State.serversRegistryRefresh {} (onePod false)).1.pServerNameLookup.lookup "a" =
      none := by
    rfl
  rw [hidle] at hfind
  cases hfind

end ModJanus.Registry
