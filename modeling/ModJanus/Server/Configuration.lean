/-
  ModJanus.Server.Configuration

  The settings of the servers, in every run of the registry.

  `load_config` calls `serversAdd` for each `<server>` of the configuration; the settings of
  the first one that is accepted are kept in `globals.pod_defaults`, and
  `serversCreateRegistryServer` clones them for every pod that a refresh registers, whenever
  that is.  The machine is the one of `Server.Registry`, with the settings beside it.
-/
import ModJanus.Server.Frame
import ModJanus.Server.Params

namespace ModJanus.Configuration

open Transition (Reach Always)

/-! ## The machine -/

/-- A `<server>` of the configuration. -/
structure XmlServer where
  pName : String
  params : List (String × String)
  deriving DecidableEq, Repr

/-- The mandatory parameter is there. -/
def XmlServer.hasUrl (xmlint : XmlServer) : Bool := xmlint.params.any (·.1 = "url")

structure State (env : ConfigEnv) where
  registry : Registry.State
  /-- The settings in each `server_t`. -/
  settings : Nat → Settings env.maxCandAcl := fun _ => {}
  podDefaults : Option (Settings env.maxCandAcl) := none
  /-- The elements that `serversAdd` was called for, in order; for the statements only. -/
  xmlServers : List XmlServer := []

inductive Action where
  | serversAdd (xmlint : XmlServer)
  /-- A step of the registry that is not in `serversAdd`. -/
  | registry (a : Registry.Action)
  deriving DecidableEq, Repr

variable {env : ConfigEnv}

namespace State

/-- A new server that has been given these settings. -/
def withServer (s : State env) (registry : Registry.State) (settings : Settings env.maxCandAcl) :
    State env :=
  { s with
    registry := registry
    settings := Function.update s.settings s.registry.serverCount settings }

/-- `serversAdd`, in a build with libks. -/
def serversAdd (s : State env) (xmlint : XmlServer) : Option (State env) :=
  if s.registry.loading.isSome then
    let called := { s with xmlServers := s.xmlServers ++ [xmlint] }
    if (s.registry.pServerNameLookup.lookup xmlint.pName).isSome then some called
    else
      let pServer := env.readParams xmlint.params
      match pServer.pUrl with
      | none => some called
      | some pUrl =>
          (Registry.step s.registry (.serversAdd xmlint.pName pUrl pServer.enabled)).map
            fun registry =>
              { called.withServer registry pServer.toSettings with
                podDefaults := s.podDefaults <|>
                  some (Settings.serverCloneDefaults {} pServer.toSettings) }
  else none

/-- A step of the registry.  There is no refresh without `globals.pod_defaults`, and a pod that
    is registered has its settings from there. -/
def registryStep (s : State env) (a : Registry.Action) : Option (State env) :=
  match a with
  | .serversAdd _ _ _ => none
  | .refresh =>
      if s.podDefaults.isSome then
        (Registry.step s.registry .refresh).map fun registry => { s with registry := registry }
      else none
  | .caller c (.register podName podIp url) =>
      s.podDefaults.bind fun podDefaults =>
        (Registry.step s.registry (.caller c (.register podName podIp url))).map fun registry =>
          s.withServer registry (Settings.serverCloneDefaults {} podDefaults)
  | a => (Registry.step s.registry a).map fun registry => { s with registry := registry }

def step (s : State env) : Action → Option (State env)
  | .serversAdd xmlint => s.serversAdd xmlint
  | .registry a => s.registryStep a

/-- The element that the settings of a server are from: the first that was accepted for a pod,
    and its own for a server of the configuration. -/
def origin (s : State env) (S : Nat) : Option XmlServer :=
  s.xmlServers.find? fun xmlint => xmlint.hasUrl &&
    ((s.registry.servers S).dynamic || xmlint.pName = (s.registry.servers S).name)

end State

def Initial (s : State env) : Prop :=
  ∃ registry, Registry.Initial registry ∧ s = { registry := registry }

/-! ## What a step of the registry leaves alone -/

section Registry

variable {s s' : Registry.State} {a : Registry.Action}

theorem callerEffect_serverCount {c : Nat} {x : Registry.Caller} {action : Registry.CallerAction}
    (h : Registry.CallerEffect s c x action s') :
    s'.serverCount = s.serverCount ∨ ∃ podName podIp url, action = .register podName podIp url := by
  cases h with
  | registered podName podIp url hpc hnew => exact .inr ⟨podName, podIp, url, rfl⟩
  | removed S hpc hmutex =>
      rcases s.serversDynamicRemoveFromLookup_cases S with heq | ⟨-, ids, -, heq⟩
      · rw [heq]
        exact .inl rfl
      · rw [heq]
        exact .inl rfl
  | _ => exact .inl rfl

/-- Servers come from `serversAdd` and from the registration of pods. -/
theorem serverCount_step (h : Registry.step s a = some s') :
    s'.serverCount = s.serverCount ∨ (∃ pName pUrl enabled, a = .serversAdd pName pUrl enabled) ∨
      ∃ c podName podIp url, a = .caller c (.register podName podIp url) := by
  cases Registry.step_case h with
  | added pName pUrl enabled => exact .inr (.inl ⟨pName, pUrl, enabled, rfl⟩)
  | thread t thread action ht heffect => exact .inl heffect.frame.serverCount
  | caller c x action hc heffect =>
      rcases callerEffect_serverCount heffect with hsame | ⟨podName, podIp, url, rfl⟩
      · exact .inl hsame
      · exact .inr (.inr ⟨c, podName, podIp, url, rfl⟩)
  | leg l leg action hl heffect => exact .inl heffect.frame.serverCount
  | loads | loaded | enables | disables | refreshes | dials =>
      subst_vars
      exact .inl rfl

theorem lookup_addServer_isSome {pServer : Registry.Server} {name : String}
    (h : (s.pServerNameLookup.lookup name).isSome ∨ name = pServer.name) :
    ((s.addServer pServer).pServerNameLookup.lookup name).isSome := by
  by_cases hname : name = pServer.name
  · rw [hname, Registry.State.addServer, AList.lookup_insert]
    rfl
  · rw [Registry.State.addServer, AList.lookup_insert_ne hname]
    exact h.resolve_right hname

/-- Before the first thread is started nothing takes a name away. -/
theorem idle_step (h : Registry.step s a = some s') (hcallers : s'.callers = [])
    (hthreads : s'.threads = []) :
    s.callers = [] ∧ s.threads = [] ∧ ∀ name, (s.pServerNameLookup.lookup name).isSome →
      (s'.pServerNameLookup.lookup name).isSome := by
  cases Registry.step_case h with
  | added pName pUrl enabled rest hnew hstate hloading hnocallers hnothreads =>
      refine ⟨hnocallers, hnothreads, fun name hname => ?_⟩
      rw [hstate]
      exact lookup_addServer_isSome (.inl hname)
  | loaded hloading hdone hstate =>
      subst hstate
      exact ⟨hcallers, hthreads, fun _ => id⟩
  | dials S hstate =>
      subst hstate
      exact ⟨hcallers, hthreads, fun _ => id⟩
  | leg l leg action hl heffect =>
      have hframe := heffect.frame
      rw [hframe.pServerNameLookup]
      exact ⟨hframe.callers.symm.trans hcallers, hframe.threads.symm.trans hthreads, fun _ => id⟩
  | thread t thread action ht heffect =>
      obtain ⟨thread', hset, -⟩ := heffect.frame.threads
      rw [hset, List.set_eq_nil_iff] at hthreads
      rw [hthreads] at ht
      cases ht
  | caller c x action hc heffect =>
      obtain ⟨x', hset, -⟩ := heffect.callers
      rw [hset, List.set_eq_nil_iff] at hcallers
      rw [hcallers] at hc
      cases hc
  | loads name S rest hloading hfind hstate =>
      subst hstate
      exact absurd hcallers (List.append_ne_nil_of_right_ne_nil _ (List.cons_ne_nil _ _))
  | enables name S hloading hfind hstate | disables name S hloading hfind hstate =>
      subst hstate
      exact absurd hcallers (List.append_ne_nil_of_right_ne_nil _ (List.cons_ne_nil _ _))
  | refreshes hloading hmutex hstate =>
      subst hstate
      exact absurd hcallers (List.append_ne_nil_of_right_ne_nil _ (List.cons_ne_nil _ _))

/-- What `serversAdd` does to the table. -/
theorem serversAdd_effect {pName pUrl : String} {enabled : Bool}
    (h : Registry.step s (.serversAdd pName pUrl enabled) = some s') :
    s.callers = [] ∧ s.threads = [] ∧ s.pServerNameLookup.lookup pName = none ∧
      s'.serverCount = s.serverCount + 1 ∧
      s'.servers s.serverCount = .configured pName pUrl enabled ∧
      ∀ name, (s.pServerNameLookup.lookup name).isSome ∨ name = pName →
        (s'.pServerNameLookup.lookup name).isSome := by
  cases Registry.step_case h with
  | added _ _ _ rest hnew hstate hloading hcallers hthreads =>
      subst hstate
      exact ⟨hcallers, hthreads, hnew, rfl, Registry.addServer_self s _,
        fun name hname => lookup_addServer_isSome hname⟩

/-- What the registration of a pod does to the servers. -/
theorem register_effect {c : Nat} {podName podIp url : String}
    (h : Registry.step s (.caller c (.register podName podIp url)) = some s') :
    s'.serverCount = s.serverCount + 1 ∧
      s'.servers s.serverCount = .registered podName podIp url := by
  cases Registry.step_case h with
  | caller _ x _ hc heffect =>
      cases heffect with
      | registered _ _ _ hpc hnew => exact ⟨rfl, Registry.addServer_self s _⟩

end Registry

/-! ## What a step can do -/

/-- The settings that an element gives. -/
def XmlServer.settings (env : ConfigEnv) (xmlint : XmlServer) : Settings env.maxCandAcl :=
  (env.readParams xmlint.params).toSettings

inductive StepCase (s s' : State env) : Prop where
  /-- `serversAdd` returns before the server is there. -/
  | refused (xmlint : XmlServer)
      (h : (s.registry.pServerNameLookup.lookup xmlint.pName).isSome ∨ xmlint.hasUrl = false)
      (hstate : s' = { s with xmlServers := s.xmlServers ++ [xmlint] })
  | added (xmlint : XmlServer) (pUrl : String) (enabled : Bool) (registry : Registry.State)
      (hurl : xmlint.hasUrl = true)
      (hstep : Registry.step s.registry (.serversAdd xmlint.pName pUrl enabled) = some registry)
      (hstate : s' = { s.withServer registry (xmlint.settings env) with
        podDefaults := s.podDefaults <|> some (xmlint.settings env)
        xmlServers := s.xmlServers ++ [xmlint] })
  | registered (c : Nat) (podName podIp url : String) (podDefaults : Settings env.maxCandAcl)
      (registry : Registry.State) (hdefaults : s.podDefaults = some podDefaults)
      (hstep : Registry.step s.registry (.caller c (.register podName podIp url)) = some registry)
      (hstate : s' = s.withServer registry podDefaults)
  | other (a : Registry.Action) (registry : Registry.State)
      (hstep : Registry.step s.registry a = some registry)
      (hcount : registry.serverCount = s.registry.serverCount)
      (hstate : s' = { s with registry := registry })

variable {s s' : State env}

theorem serverCloneDefaults_fresh (settings : Settings env.maxCandAcl) :
    Settings.serverCloneDefaults {} settings = settings := by
  simp [Settings.serverCloneDefaults]

theorem serversAdd_case {xmlint : XmlServer} (h : s.serversAdd xmlint = some s') :
    StepCase s s' := by
  unfold State.serversAdd at h
  split at h
  · dsimp only at h
    have hsome := readParams_pUrl_isSome env xmlint.params
    split at h
    · next hfound =>
        cases h
        exact .refused xmlint (.inl hfound) rfl
    · split at h
      · next hurl =>
          cases h
          rw [hurl] at hsome
          exact .refused xmlint (.inr hsome.symm) rfl
      · next pUrl hurl =>
          rw [hurl] at hsome
          obtain ⟨registry, hstep, rfl⟩ := Option.map_eq_some_iff.mp h
          rw [serverCloneDefaults_fresh]
          exact .added xmlint pUrl _ registry hsome.symm hstep rfl
  · cases h

theorem step_case {a : Action} (h : s.step a = some s') : StepCase s s' := by
  cases a with
  | serversAdd xmlint => exact serversAdd_case h
  | registry a =>
      simp only [State.step] at h
      unfold State.registryStep at h
      split at h
      · cases h
      · split at h
        · obtain ⟨registry, hstep, rfl⟩ := Option.map_eq_some_iff.mp h
          refine .other _ registry hstep ?_ rfl
          rcases serverCount_step hstep with hsame | ⟨pName, pUrl, enabled, hadd⟩ |
            ⟨c, podName, podIp, url, hregister⟩
          · exact hsame
          · cases hadd
          · cases hregister
        · cases h
      · obtain ⟨podDefaults, hdefaults, h⟩ := Option.bind_eq_some_iff.mp h
        obtain ⟨registry, hstep, rfl⟩ := Option.map_eq_some_iff.mp h
        rw [serverCloneDefaults_fresh]
        exact .registered _ _ _ _ podDefaults registry hdefaults hstep rfl
      · next hadd hrefresh hregister =>
          obtain ⟨registry, hstep, rfl⟩ := Option.map_eq_some_iff.mp h
          refine .other a registry hstep ?_ rfl
          rcases serverCount_step hstep with hsame | ⟨pName, pUrl, enabled, rfl⟩ |
            ⟨c, podName, podIp, url, rfl⟩
          · exact hsame
          · exact absurd rfl (hadd pName pUrl enabled)
          · exact absurd rfl (hregister c podName podIp url)

/-! ## Where the settings are from -/

/-- Every server has the settings of its element, and the defaults for pods are those of the
    first element that was accepted. -/
structure Sound (s : State env) : Prop where
  bounded : Registry.Bounded s.registry
  settings : ∀ S < s.registry.serverCount, ∃ xmlint, s.origin S = some xmlint ∧
    s.settings S = xmlint.settings env
  podDefaults : s.podDefaults =
    (s.xmlServers.find? XmlServer.hasUrl).map fun xmlint => xmlint.settings env
  named : s.registry.callers = [] → s.registry.threads = [] → ∀ xmlint ∈ s.xmlServers,
    xmlint.hasUrl = true → (s.registry.pServerNameLookup.lookup xmlint.pName).isSome

theorem origin_eq_some {S : Nat} {xmlint : XmlServer} (h : s.origin S = some xmlint) :
    xmlint ∈ s.xmlServers ∧ xmlint.hasUrl = true := by
  have hfound := List.find?_some h
  rw [Bool.and_eq_true] at hfound
  exact ⟨List.mem_of_find?_eq_some h, hfound.1⟩

/-- A server that exists keeps its element. -/
theorem origin_kept {S : Nat} {xmlint : XmlServer} {more : List XmlServer}
    (hkeeps : (s.registry.servers S).Keeps (s'.registry.servers S))
    (hmore : s'.xmlServers = s.xmlServers ++ more) (h : s.origin S = some xmlint) :
    s'.origin S = some xmlint := by
  unfold State.origin at h ⊢
  rw [hkeeps.name, hkeeps.dynamic, hmore, List.find?_append, h]
  rfl

/-- The registry takes a step, and the settings of the servers that exist stay. -/
theorem Sound.settings_kept {S : Nat} {a : Registry.Action} {more : List XmlServer}
    (hi : Sound s) (hstep : Registry.step s.registry a = some s'.registry)
    (hmore : s'.xmlServers = s.xmlServers ++ more) (hS : S < s.registry.serverCount)
    (hsame : s'.settings S = s.settings S) :
    ∃ xmlint, s'.origin S = some xmlint ∧ s'.settings S = xmlint.settings env := by
  obtain ⟨xmlint, horigin, hsettings⟩ := hi.settings S hS
  exact ⟨xmlint, origin_kept ((Registry.step_case hstep).keeps hS) hmore horigin,
    hsame.trans hsettings⟩

/-- The names of the elements stay taken until the first thread is started. -/
theorem Sound.named_step {a : Registry.Action} {registry : Registry.State} (hi : Sound s)
    (hstep : Registry.step s.registry a = some registry) (hcallers : registry.callers = [])
    (hthreads : registry.threads = []) : ∀ xmlint ∈ s.xmlServers, xmlint.hasUrl = true →
      (registry.pServerNameLookup.lookup xmlint.pName).isSome := by
  intro xmlint hmem hurl
  obtain ⟨hnocallers, hnothreads, hnames⟩ := idle_step hstep hcallers hthreads
  exact hnames _ (hi.named hnocallers hnothreads xmlint hmem hurl)

theorem find?_hasUrl_isSome {xmlint : XmlServer} {xmlServers : List XmlServer}
    (h : xmlint ∈ xmlServers) (hurl : xmlint.hasUrl = true) :
    ∃ first, xmlServers.find? XmlServer.hasUrl = some first :=
  Option.isSome_iff_exists.mp (List.find?_isSome.mpr ⟨xmlint, h, hurl⟩)

/-- The name of an element is taken when there is a server of that name: some element was
    accepted before. -/
theorem Sound.first_of_taken (hi : Sound s) {name : String}
    (h : (s.registry.pServerNameLookup.lookup name).isSome) :
    ∃ first, s.xmlServers.find? XmlServer.hasUrl = some first := by
  obtain ⟨S, hS⟩ := Option.isSome_iff_exists.mp h
  obtain ⟨xmlint, horigin, -⟩ := hi.settings S (hi.bounded.names name S hS).1
  obtain ⟨hmem, hurl⟩ := origin_eq_some horigin
  exact find?_hasUrl_isSome hmem hurl

theorem Sound.refused {xmlint : XmlServer} (hi : Sound s)
    (h : (s.registry.pServerNameLookup.lookup xmlint.pName).isSome ∨ xmlint.hasUrl = false) :
    Sound { s with xmlServers := s.xmlServers ++ [xmlint] } where
  bounded := hi.bounded
  settings S hS := by
    obtain ⟨own, horigin, hsettings⟩ := hi.settings S hS
    have hkeeps := Registry.Server.Keeps.refl (s.registry.servers S)
    exact ⟨own, origin_kept (s := s) hkeeps rfl horigin, hsettings⟩
  podDefaults := by
    show s.podDefaults = ((s.xmlServers ++ [xmlint]).find? XmlServer.hasUrl).map _
    rw [hi.podDefaults, List.find?_append]
    rcases h with htaken | hurl
    · -- the server of that name has an element, and so the defaults are there already
      obtain ⟨first, hfirst⟩ := hi.first_of_taken htaken
      rw [hfirst]
      rfl
    · rw [List.find?_cons_of_neg (by rw [hurl]; exact Bool.false_ne_true), List.find?_nil,
        Option.or_none]
  named hcallers hthreads x hx hurl := by
    rcases List.mem_append.mp hx with hold | hnew
    · exact hi.named hcallers hthreads x hold hurl
    · obtain rfl := List.mem_singleton.mp hnew
      rcases h with htaken | hno
      · exact htaken
      · rw [hurl] at hno
        cases hno

/-- A new server comes with the settings of an element. -/
theorem Sound.settings_new {a : Registry.Action} {more : List XmlServer} {xmlint : XmlServer}
    (hi : Sound s) (hstep : Registry.step s.registry a = some s'.registry)
    (hmore : s'.xmlServers = s.xmlServers ++ more)
    (hcount : s'.registry.serverCount = s.registry.serverCount + 1)
    (hsettings : s'.settings =
      Function.update s.settings s.registry.serverCount (xmlint.settings env))
    (horigin : s'.origin s.registry.serverCount = some xmlint) :
    ∀ S < s'.registry.serverCount, ∃ xmlint, s'.origin S = some xmlint ∧
      s'.settings S = xmlint.settings env := by
  intro S hS
  rw [hcount] at hS
  rcases Nat.lt_succ_iff_lt_or_eq.mp hS with hold | rfl
  · refine hi.settings_kept hstep hmore hold ?_
    rw [hsettings, Function.update_of_ne (Nat.ne_of_lt hold)]
  · refine ⟨xmlint, horigin, ?_⟩
    rw [hsettings, Function.update_self]

theorem Sound.added {xmlint : XmlServer} {pUrl : String} {enabled : Bool}
    {registry : Registry.State} (hi : Sound s) (hurl : xmlint.hasUrl = true)
    (hstep : Registry.step s.registry (.serversAdd xmlint.pName pUrl enabled) = some registry) :
    Sound { s.withServer registry (xmlint.settings env) with
      podDefaults := s.podDefaults <|> some (xmlint.settings env)
      xmlServers := s.xmlServers ++ [xmlint] } := by
  obtain ⟨hcallers, hthreads, hnew, hcount, hself, hnames⟩ := serversAdd_effect hstep
  have hown : ([xmlint] : List XmlServer).find? XmlServer.hasUrl = some xmlint :=
    List.find?_cons_of_pos hurl
  -- no element before has the name
  have horigin : (s.xmlServers ++ [xmlint]).find? (fun x => x.hasUrl &&
      ((registry.servers s.registry.serverCount).dynamic ||
        x.pName = (registry.servers s.registry.serverCount).name)) = some xmlint := by
    rw [hself, List.find?_append, List.find?_eq_none.mpr, Option.none_or]
    · exact List.find?_cons_of_pos (by simp [hurl, Registry.Server.configured])
    · intro x hx hfound
      rw [Bool.and_eq_true, Bool.or_eq_true, decide_eq_true_eq] at hfound
      obtain ⟨hxurl, hdynamic | hname⟩ := hfound
      · cases hdynamic
      · have htaken := hi.named hcallers hthreads x hx hxurl
        rw [show x.pName = xmlint.pName from hname, hnew] at htaken
        cases htaken
  refine ⟨Registry.step_bounded hi.bounded (Registry.step_case hstep),
    hi.settings_new hstep rfl hcount rfl horigin, ?_, fun _ _ x hx hxurl => hnames _ ?_⟩
  · show (s.podDefaults <|> _) = ((s.xmlServers ++ [xmlint]).find? XmlServer.hasUrl).map _
    rw [hi.podDefaults, List.find?_append, hown]
    cases s.xmlServers.find? XmlServer.hasUrl with
    | none => rfl
    | some first => rfl
  · rcases List.mem_append.mp hx with hold | hlast
    · exact .inl (hi.named hcallers hthreads x hold hxurl)
    · rw [List.mem_singleton.mp hlast]
      exact .inr rfl

theorem Sound.registered {c : Nat} {podName podIp url : String}
    {podDefaults : Settings env.maxCandAcl} {registry : Registry.State} (hi : Sound s)
    (hdefaults : s.podDefaults = some podDefaults)
    (hstep : Registry.step s.registry (.caller c (.register podName podIp url)) = some registry) :
    Sound (s.withServer registry podDefaults) := by
  obtain ⟨hcount, hself⟩ := register_effect hstep
  obtain ⟨first, hfirst, rfl⟩ := Option.map_eq_some_iff.mp (hi.podDefaults.symm.trans hdefaults)
  have horigin : s.xmlServers.find? (fun x => x.hasUrl &&
      ((registry.servers s.registry.serverCount).dynamic ||
        x.pName = (registry.servers s.registry.serverCount).name)) = some first := by
    -- a pod takes any element: its name does not matter
    rw [hself]
    simpa [Registry.Server.registered] using hfirst
  refine ⟨Registry.step_bounded hi.bounded (Registry.step_case hstep),
    hi.settings_new hstep (List.append_nil _).symm hcount rfl horigin, hi.podDefaults, ?_⟩
  exact hi.named_step hstep

theorem Sound.other {a : Registry.Action} {registry : Registry.State} (hi : Sound s)
    (hstep : Registry.step s.registry a = some registry)
    (hcount : registry.serverCount = s.registry.serverCount) :
    Sound { s with registry := registry } := by
  refine ⟨Registry.step_bounded hi.bounded (Registry.step_case hstep), fun S hS => ?_,
    hi.podDefaults, ?_⟩
  · have hkept := hi.settings_kept
      (show Registry.step s.registry a = some ({ s with registry := registry } : State env).registry
        from hstep) (List.append_nil _).symm (hcount ▸ hS) rfl
    exact hkept
  · exact hi.named_step hstep

theorem sound_step (hi : Sound s) (h : StepCase s s') : Sound s' := by
  cases h with
  | refused xmlint h hstate =>
      rw [hstate]
      exact hi.refused h
  | added xmlint pUrl enabled registry hurl hstep hstate =>
      rw [hstate]
      exact hi.added hurl hstep
  | registered c podName podIp url podDefaults registry hdefaults hstep hstate =>
      rw [hstate]
      exact hi.registered hdefaults hstep
  | other a registry hstep hcount hstate =>
      rw [hstate]
      exact hi.other hstep hcount

theorem reach_sound (h : Reach State.step Always Initial s) : Sound s := by
  refine h.invariant ?_ fun _ _ _ hi _ hstep => sound_step hi (step_case hstep)
  rintro _ ⟨_, ⟨podServerFailMax, rfl⟩, rfl⟩
  exact ⟨⟨nofun, nofun, nofun, nofun, nofun⟩, nofun, rfl, nofun⟩

/-- Whatever has happened since the module was loaded, a server of the configuration has the
    settings that its own element gives, and a pod those that the first element of the
    configuration with an address gives: the last value counts, as `ReadFrom` says. -/
theorem settings_readFrom (h : Reach State.step Always Initial s) {S : Nat}
    (hS : S < s.registry.serverCount) :
    ∃ xmlint, s.origin S = some xmlint ∧ env.ReadFrom xmlint.params (s.settings S) := by
  obtain ⟨xmlint, horigin, hsettings⟩ := (reach_sound h).settings S hS
  refine ⟨xmlint, horigin, ?_⟩
  rw [hsettings]
  exact readParams_readFrom xmlint.params

/-- A configuration whose first element has no address, and a pod that is registered later. -/
def registersPod : List Action :=
  [.serversAdd ⟨"backup", [("secret", "first")]⟩,
    .serversAdd ⟨"janus", [("url", "http://janus:8088/janus"), ("secret", "second"),
      ("secret", "third")]⟩,
    .registry .loaded, .registry .refresh,
    .registry (.caller 0 (.register "janus-0" "10.0.0.1" "http://10.0.0.1:80/janus"))]

/-- A host with one address. -/
def hostEnv : ConfigEnv where
  guessIp := "192.0.2.1"
  findInterfaceIp _ _ := none
  switchTrue value := value = "true"
  maxCandAcl := 25

theorem settings_readFrom_registersPod :
    ∃ s : State hostEnv,
      Transition.exec State.step Always { registry := {} } registersPod = some s ∧ ∃ xmlint,
        s.origin 1 = some xmlint ∧ hostEnv.ReadFrom xmlint.params (s.settings 1) := by
  have h0 : Initial ({ registry := {} } : State hostEnv) := ⟨{}, ⟨0, rfl⟩, rfl⟩
  have hrun : (Transition.exec State.step Always ({ registry := {} } : State hostEnv)
      registersPod).map (fun s => s.registry.serverCount) = some 2 := by decide
  obtain ⟨s, hs, hcount⟩ := Option.map_eq_some_iff.mp hrun
  exact ⟨s, hs, settings_readFrom ((Reach.start h0).exec hs) (hcount ▸ Nat.one_lt_two)⟩

end ModJanus.Configuration
