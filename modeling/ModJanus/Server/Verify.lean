/-
  ModJanus.Server.Verify

  `serversVerifyDynamicIdentity` of servers.c, run by any number of dialling threads at
  once while refreshes register and move servers.

  A verifier copies the address of its server under the server's mutex, probes it without
  the mutex, and sets `last_verified` under the mutex again.  A refresh may move the
  server in between; its reset of `last_verified` is then overwritten by the result for
  the former address.
-/
import ModJanus.Lib.Transition
import ModJanus.Server.Frame
import ModJanus.Server.Url

namespace ModJanus.Verify

open Registry (Server Ip HttpUrlParts PORT_SIZE PATH_SIZE serversBuildJanusUrl
  serversBuildJanusUrl_inj serversParseHttpUrlParts)
open Transition (Reach Always)

/-! ## `serversVerifyDynamicIdentity` -/

/-- `SERVER_VERIFY_TTL_US`. -/
def SERVER_VERIFY_TTL_US : Nat := 5 * 1000000

/-- Where a verifier stands.  `podIp` and `url` are its copies. -/
inductive VerifierPc where
  | start
  /-- In `serversProbeJanusPodAtIp`. -/
  | probing (podIp url : String)
  /-- The pod at the copied address reported `podName`, the name of the server. -/
  | matched (podIp url podName : String)
  | trusted
  | refused
  deriving DecidableEq, Repr

structure Verifier where
  server : Nat
  pc : VerifierPc := .start
  deriving DecidableEq, Repr

/-- A probe of an address, and what it reported. -/
structure Probe where
  podIp : String
  url : String
  podName : String
  deriving DecidableEq, Repr

/-- The servers and the verifiers.  `port` and `path` are those of the headless service.
    `verifiedBy` is kept for the statements only: the probe that set `last_verified`. -/
structure State where
  port : String
  path : String
  servers : Nat → Server := fun _ => {}
  serverCount : Nat := 0
  verifiers : List Verifier := []
  verifiedBy : Nat → Option Probe := fun _ => none

namespace State

def setServer (s : State) (S : Nat) (pServer : Server) : State :=
  { s with servers := Function.update s.servers S pServer }

def setVerifier (s : State) (v : Nat) (verifier : Verifier) : State :=
  { s with verifiers := s.verifiers.set v verifier }

def addServer (s : State) (pServer : Server) : State :=
  { s.setServer s.serverCount pServer with serverCount := s.serverCount + 1 }

/-- The URL of a pod, as a refresh builds it. -/
def urlOf (s : State) (ip : Ip) : String := serversBuildJanusUrl ip.text s.port s.path

end State

inductive Action where
  /-- `serversAdd`. -/
  | serversAdd (pName pUrl : String) (enabled : Bool)
  /-- `serversCreateRegistryServer`. -/
  | register (podName : String) (ip : Ip)
  /-- `serversUpdateRegistryServer`. -/
  | update (S : Nat) (ip : Ip)
  /-- A dialling thread calls `serversVerifyDynamicIdentity`. -/
  | dial (S : Nat)
  /-- The first section, at the time `now`, and the tests after it. -/
  | copy (v now : Nat)
  /-- The probe returned, with a name or without one. -/
  | probed (v : Nat) (reported : Option String)
  /-- The second section, at the time `now`. -/
  | store (v now : Nat)
  deriving DecidableEq

/-- The first section, and the tests around it. -/
def copyAddress (pServer : Server) (now : Nat) : VerifierPc :=
  let url := snprintf 512 pServer.pUrl
  let podIp := snprintf Registry.INET_ADDRSTRLEN (pServer.podIp.getD "")
  if !pServer.dynamic then .trusted
  else if pServer.lastVerified ≠ 0 ∧ now - pServer.lastVerified < SERVER_VERIFY_TTL_US then
    .trusted
  else if podIp = "" ∨ (serversParseHttpUrlParts url).isNone then .refused
  else .probing podIp url

/-- What follows the probe of a server of that name. -/
def VerifierPc.probed (name podIp url : String) : Option String → VerifierPc
  | some podName => if podName = name then .matched podIp url podName else .refused
  | none => .refused

/-- The second section. -/
def State.store (s : State) (v : Nat) (verifier : Verifier) (probe : Probe) (now : Nat) : State :=
  let verified := { s.servers verifier.server with lastVerified := now, connectFailures := 0 }
  { (s.setServer verifier.server verified).setVerifier v { verifier with pc := .trusted } with
    verifiedBy := Function.update s.verifiedBy verifier.server (some probe) }

def step (s : State) : Action → Option State
  | .serversAdd pName pUrl enabled => some (s.addServer (.configured pName pUrl enabled))
  | .register podName ip => some (s.addServer (.registered podName ip.text (s.urlOf ip)))
  | .update S ip =>
      if S < s.serverCount ∧ (s.servers S).dynamic then
        some (s.setServer S ((s.servers S).serversUpdateRegistryServer ip.text (s.urlOf ip)))
      else none
  | .dial S =>
      if S < s.serverCount then some { s with verifiers := s.verifiers ++ [{ server := S }] }
      else none
  | .copy v now =>
      match s.verifiers[v]? with
      | some ⟨S, .start⟩ => some (s.setVerifier v ⟨S, copyAddress (s.servers S) now⟩)
      | _ => none
  | .probed v reported =>
      match s.verifiers[v]? with
      | some ⟨S, .probing podIp url⟩ =>
          some (s.setVerifier v ⟨S, VerifierPc.probed (s.servers S).name podIp url reported⟩)
      | _ => none
  | .store v now =>
      match s.verifiers[v]? with
      | some ⟨S, .matched podIp url podName⟩ =>
          some (s.store v ⟨S, .matched podIp url podName⟩ ⟨podIp, url, podName⟩ now)
      | _ => none

/-- No server is defined yet; the headless URL has been parsed. -/
def Initial (s : State) : Prop :=
  ∃ url parts, serversParseHttpUrlParts url = some parts ∧
    s = { port := parts.port, path := parts.path }

/-! ## What verification says -/

/-- `probe` was one of the address that the server has now, and reported its name. -/
def ProbedHere (pServer : Server) (probe : Probe) : Prop :=
  pServer.podIp = some probe.podIp ∧ pServer.pUrl = probe.url ∧ probe.podName = pServer.name

/-- The address that a verifier has probed with success. -/
def VerifierPc.address : VerifierPc → Option (String × String)
  | .matched podIp url _ => some (podIp, url)
  | _ => none

/-- A verifier sets `last_verified` only when its server still has the address that the
    verifier copied. -/
def AddressKept (s : State) : Action → Prop
  | .store v _ => ∀ verifier ∈ s.verifiers[v]?, ∀ address ∈ verifier.pc.address,
      (s.servers verifier.server).podIp = some address.1 ∧
        (s.servers verifier.server).pUrl = address.2
  | _ => True

instance (s : State) (a : Action) : Decidable (AddressKept s a) := by
  cases a with
  | store v now =>
      exact inferInstanceAs (Decidable (∀ verifier ∈ s.verifiers[v]?,
        ∀ address ∈ verifier.pc.address, (s.servers verifier.server).podIp = some address.1 ∧
          (s.servers verifier.server).pUrl = address.2))
  | _ => exact isTrue trivial

/-- What holds of a dynamic server: it has the URL of its address, and was verified where
    it is. -/
structure Traced (port path : String) (pServer : Server) (verifiedBy : Option Probe) : Prop where
  address : ∃ ip : Ip, pServer.podIp = some ip.text ∧
    pServer.pUrl = serversBuildJanusUrl ip.text port path
  verified : pServer.lastVerified ≠ 0 → ∃ probe, verifiedBy = some probe ∧ ProbedHere pServer probe

/-- The invariant: a verifier that has seen a match has seen it for the name of its
    server. -/
structure Consistent (s : State) : Prop where
  port : s.port.length < PORT_SIZE
  path : s.path.length < PATH_SIZE
  servers : ∀ S < s.serverCount, (s.servers S).dynamic = true →
    Traced s.port s.path (s.servers S) (s.verifiedBy S)
  verifiers : ∀ verifier ∈ s.verifiers, verifier.server < s.serverCount ∧
    ∀ podIp url podName, verifier.pc = .matched podIp url podName →
      podName = (s.servers verifier.server).name

/-! ## What an update does -/

section Updates

variable {v : Server} {ip : Ip} {port path url : String}

/-- An update to the address that the server has. -/
theorem updated_same (hpodIp : v.podIp = some ip.text) (hurl : v.pUrl = url) :
    v.serversUpdateRegistryServer ip.text url = { v with connectFailures := 0 } := by
  simp [Server.serversUpdateRegistryServer, hpodIp, hurl]

/-- An update to another address. -/
theorem updated_moved (hpodIp : v.podIp ≠ some ip.text) (hurl : v.pUrl ≠ url) (hne : url ≠ "") :
    v.serversUpdateRegistryServer ip.text url = { v with
      podIp := some ip.text, pUrl := url, lastVerified := 0, connectFailures := 0 } := by
  simp [Server.serversUpdateRegistryServer, hpodIp, hurl, hne, ip.nonempty]

/-- An update leaves the verification alone, or takes it away with the address. -/
theorem Traced.updated {verifiedBy : Option Probe} (hport : port.length < PORT_SIZE)
    (hpath : path.length < PATH_SIZE) (h : Traced port path v verifiedBy) (ip : Ip) :
    Traced port path
      (v.serversUpdateRegistryServer ip.text (serversBuildJanusUrl ip.text port path))
      verifiedBy := by
  obtain ⟨ip', hpodIp, hurl⟩ := h.address
  -- `pod_ip` and `pUrl` are compared one by one, but they tell the same address
  by_cases hip : ip' = ip
  · subst hip
    rw [updated_same hpodIp hurl]
    exact ⟨⟨ip', hpodIp, hurl⟩, h.verified⟩
  · have hpodIp' : v.podIp ≠ some ip.text := by
      rw [hpodIp]
      intro heq
      exact hip (Registry.Ip.ext (Option.some.inj heq))
    have hurl' : v.pUrl ≠ serversBuildJanusUrl ip.text port path := by
      rw [hurl]
      exact fun heq => hip (serversBuildJanusUrl_inj hport hpath heq)
    rw [updated_moved hpodIp' hurl' (Registry.serversBuildJanusUrl_ne ip hport hpath)]
    exact ⟨⟨ip, rfl, rfl⟩, fun hlast => absurd rfl hlast⟩

end Updates

/-! ## What the steps keep -/

/-- A step that changes one server, and keeps its name and whether it is dynamic. -/
theorem Consistent.change {s s' : State} (hi : Consistent s) (S : Nat)
    (hport : s'.port = s.port) (hpath : s'.path = s.path)
    (hcount : s'.serverCount = s.serverCount)
    (hothers : ∀ T ≠ S, s'.servers T = s.servers T ∧ s'.verifiedBy T = s.verifiedBy T)
    (hname : (s'.servers S).name = (s.servers S).name)
    (hdynamic : (s'.servers S).dynamic = (s.servers S).dynamic)
    (htraced : Traced s.port s.path (s.servers S) (s.verifiedBy S) →
      Traced s.port s.path (s'.servers S) (s'.verifiedBy S))
    (hverifiers : ∀ verifier ∈ s'.verifiers, verifier ∈ s.verifiers ∨
      verifier.server = S ∧ S < s.serverCount ∧ ∀ podIp url podName,
        verifier.pc = .matched podIp url podName → podName = (s.servers S).name) :
    Consistent s' := by
  -- the verifiers of other servers go by names, which stay
  have hnames : ∀ T, (s'.servers T).name = (s.servers T).name := by
    intro T
    by_cases hT : T = S
    · rw [hT, hname]
    · rw [(hothers T hT).1]
  refine ⟨hport ▸ hi.port, hpath ▸ hi.path, fun T hT hdyn => ?_, fun verifier hmem => ?_⟩
  · rw [hcount] at hT
    rw [hport, hpath]
    by_cases hTS : T = S
    · subst hTS
      rw [hdynamic] at hdyn
      exact htraced (hi.servers T hT hdyn)
    · rw [(hothers T hTS).1] at hdyn ⊢
      rw [(hothers T hTS).2]
      exact hi.servers T hT hdyn
  · rw [hcount, hnames]
    rcases hverifiers verifier hmem with hold | ⟨rfl, hS, hmatched⟩
    · exact hi.verifiers verifier hold
    · exact ⟨hS, hmatched⟩

theorem Consistent.addServer {s : State} (hi : Consistent s) {v : Server}
    (haddress : v.dynamic = true → ∃ ip : Ip, v.podIp = some ip.text ∧ v.pUrl = s.urlOf ip)
    (hlast : v.lastVerified = 0) : Consistent (s.addServer v) := by
  have hold : ∀ T < s.serverCount, (s.addServer v).servers T = s.servers T := fun T hT =>
    Function.update_of_ne (Nat.ne_of_lt hT) ..
  have hself : (s.addServer v).servers s.serverCount = v := Function.update_self ..
  refine ⟨hi.port, hi.path, fun T hT hdyn => ?_, fun verifier hmem => ?_⟩
  · rcases Nat.lt_or_eq_of_le (Nat.le_of_lt_succ hT) with hlt | rfl
    · rw [hold T hlt] at hdyn ⊢
      exact hi.servers T hlt hdyn
    · rw [hself] at hdyn ⊢
      exact ⟨haddress hdyn, fun hne => absurd hlast hne⟩
  · obtain ⟨hlt, hmatched⟩ := hi.verifiers verifier hmem
    refine ⟨Nat.lt_succ_of_lt hlt, ?_⟩
    rw [hold _ hlt]
    exact hmatched

/-- A step of a verifier before the store. -/
theorem Consistent.setVerifier {s : State} (hi : Consistent s) {v S : Nat} {pc pc' : VerifierPc}
    (hv : s.verifiers[v]? = some ⟨S, pc⟩)
    (hmatched : ∀ podIp url podName, pc' = .matched podIp url podName →
      podName = (s.servers S).name) : Consistent (s.setVerifier v ⟨S, pc'⟩) := by
  refine hi.change S rfl rfl rfl (fun _ _ => ⟨rfl, rfl⟩) rfl rfl id fun other hother => ?_
  refine (List.mem_or_eq_of_mem_set hother).imp_right ?_
  rintro rfl
  exact ⟨rfl, (hi.verifiers _ (List.mem_of_getElem? hv)).1, hmatched⟩

theorem copyAddress_ne (pServer : Server) (now : Nat) (podIp url podName : String) :
    copyAddress pServer now ≠ .matched podIp url podName := by
  unfold copyAddress
  dsimp only
  split
  · exact nofun
  · split
    · exact nofun
    · split <;> exact nofun

theorem Consistent.store {s : State} (hi : Consistent s) {v now S : Nat}
    {podIp url podName : String} (hv : s.verifiers[v]? = some ⟨S, .matched podIp url podName⟩)
    (hkept : (s.servers S).podIp = some podIp ∧ (s.servers S).pUrl = url) :
    Consistent (s.store v ⟨S, .matched podIp url podName⟩ ⟨podIp, url, podName⟩ now) := by
  obtain ⟨hS, hname⟩ := hi.verifiers _ (List.mem_of_getElem? hv)
  have hself : (s.store v ⟨S, .matched podIp url podName⟩ ⟨podIp, url, podName⟩ now).servers S =
      { s.servers S with lastVerified := now, connectFailures := 0 } := Function.update_self ..
  have hby : (s.store v ⟨S, .matched podIp url podName⟩ ⟨podIp, url, podName⟩ now).verifiedBy S =
      some ⟨podIp, url, podName⟩ := Function.update_self ..
  refine hi.change S rfl rfl rfl (fun T hT => ?_) ?_ ?_ (fun htraced => ?_) fun other hother => ?_
  · exact ⟨Function.update_of_ne hT .., Function.update_of_ne hT ..⟩
  · rw [hself]
  · rw [hself]
  · -- the probe that is stored was one of the address that the server still has
    rw [hself, hby]
    exact ⟨htraced.address, fun _ => ⟨_, rfl, hkept.1, hkept.2, hname podIp url podName rfl⟩⟩
  · refine (List.mem_or_eq_of_mem_set hother).imp_right ?_
    rintro rfl
    exact ⟨rfl, hS, nofun⟩

theorem step_consistent {s s' : State} {a : Action} (hi : Consistent s) (hg : AddressKept s a)
    (h : step s a = some s') : Consistent s' := by
  cases a with
  | serversAdd pName pUrl enabled =>
      cases h
      exact hi.addServer nofun rfl
  | register podName ip =>
      cases h
      exact hi.addServer (fun _ => ⟨ip, rfl, rfl⟩) rfl
  | update S ip =>
      simp only [step] at h
      split at h <;> cases h
      have hself : (s.setServer S ((s.servers S).serversUpdateRegistryServer ip.text
          (s.urlOf ip))).servers S =
          (s.servers S).serversUpdateRegistryServer ip.text (s.urlOf ip) :=
        Function.update_self ..
      -- the update of a refresh is the only step that moves a server
      refine hi.change S rfl rfl rfl (fun T hT => ?_) ?_ ?_ (fun htraced => ?_) fun _ => .inl
      · exact ⟨Function.update_of_ne hT .., rfl⟩
      · rw [hself]
        exact (Registry.updated_keeps (s.servers S) ip.text (s.urlOf ip)).name
      · rw [hself]
        exact (Registry.updated_keeps (s.servers S) ip.text (s.urlOf ip)).dynamic
      · rw [hself]
        exact htraced.updated hi.port hi.path ip
  | dial S =>
      simp only [step] at h
      split at h <;> cases h
      next hS =>
        refine hi.change S rfl rfl rfl (fun _ _ => ⟨rfl, rfl⟩) rfl rfl id fun verifier hmem => ?_
        refine (List.mem_append.mp hmem).imp_right fun hnew => ?_
        rw [List.mem_singleton.mp hnew]
        exact ⟨rfl, hS, nofun⟩
  | copy v now =>
      simp only [step] at h
      split at h <;> cases h
      next S hv =>
        refine hi.setVerifier hv fun podIp url podName hpc => ?_
        exact absurd hpc (copyAddress_ne (s.servers S) now podIp url podName)
  | probed v reported =>
      simp only [step] at h
      split at h <;> cases h
      next S podIp url hv =>
        refine hi.setVerifier hv fun podIp' url' podName hpc => ?_
        -- a match is one with the name of the server
        unfold VerifierPc.probed at hpc
        split at hpc
        · split at hpc <;> cases hpc
          next hname => exact hname
        · cases hpc
  | store v now =>
      simp only [step] at h
      split at h <;> cases h
      next S podIp url podName hv => exact hi.store hv (hg _ hv (podIp, url) rfl)

/-- As long as a verifier sets `last_verified` only when its server still has the address
    that the verifier copied, a server that counts as verified was verified by a probe of
    the address that it has now, which reported the name of the server. -/
theorem verified_where_it_is {s : State} (h : Reach step AddressKept Initial s) :
    ∀ S < s.serverCount, (s.servers S).dynamic = true → (s.servers S).lastVerified ≠ 0 →
      ∃ probe, s.verifiedBy S = some probe ∧ ProbedHere (s.servers S) probe := by
  have hconsistent : Consistent s := by
    refine h.invariant ?_ ?_
    · rintro _ ⟨url, parts, hparts, rfl⟩
      obtain ⟨hport, hpath⟩ := Registry.parts_fit hparts
      exact ⟨hport, hpath, nofun, nofun⟩
    · intro s a s' hi hg hs
      exact step_consistent hi hg hs
  intro S hS hdynamic hlast
  exact (hconsistent.servers S hS hdynamic).verified hlast

/-- The addresses of a pod before and after it is moved. -/
def formerIp : Ip := ⟨"10.0.0.1", by decide, by decide, by decide⟩

def presentIp : Ip := ⟨"10.0.0.9", by decide, by decide, by decide⟩

/-- A probe of the present address verifies the server. -/
theorem verified_where_it_is_probed :
    ∃ s : State, (s.servers 0).lastVerified = 200 ∧
      ∃ probe, s.verifiedBy 0 = some probe ∧ ProbedHere (s.servers 0) probe := by
  have h0 : Initial { port := "80", path := "" } :=
    ⟨"http://janus", ⟨"janus", "80", ""⟩, by decide, rfl⟩
  obtain ⟨s, hs, hp⟩ := Transition.reach_of_exec step AddressKept h0
    [.register "a" formerIp, .update 0 presentIp, .dial 0, .copy 0 100, .probed 0 (some "a"),
      .store 0 200]
    (fun s => s.serverCount = 1 ∧ (s.servers 0).dynamic = true ∧
      (s.servers 0).lastVerified = 200) (by decide)
  obtain ⟨hcount, hdynamic, hlast⟩ := of_decide_eq_true hp
  refine ⟨s, hlast, ?_⟩
  exact verified_where_it_is hs 0 (by omega) hdynamic (by omega)

/-- The pod is moved while its former address is probed. -/
theorem verified_where_it_was :
    ¬ ∀ s, Reach step Always Initial s → ∀ S < s.serverCount, (s.servers S).dynamic = true →
      (s.servers S).lastVerified ≠ 0 →
        ∃ probe, s.verifiedBy S = some probe ∧ ProbedHere (s.servers S) probe := by
  intro hclaim
  have h0 : Initial { port := "80", path := "" } :=
    ⟨"http://janus", ⟨"janus", "80", ""⟩, by decide, rfl⟩
  obtain ⟨s, hs, hp⟩ := Transition.reach_of_exec step Always h0
    [.register "a" formerIp, .dial 0, .copy 0 100, .update 0 presentIp, .probed 0 (some "a"),
      .store 0 200]
    (fun s => s.serverCount = 1 ∧ (s.servers 0).dynamic = true ∧
      (s.servers 0).lastVerified = 200 ∧ (s.servers 0).podIp = some "10.0.0.9" ∧
      (s.verifiedBy 0).map Probe.podIp = some "10.0.0.1") (by decide)
  obtain ⟨hcount, hdynamic, hlast, hpodIp, hby⟩ := of_decide_eq_true hp
  obtain ⟨probe, hprobe, hhere, -⟩ := hclaim s hs 0 (by omega) hdynamic (by omega)
  rw [hprobe] at hby
  rw [hpodIp] at hhere
  exact absurd (hhere.trans hby) (by decide)

end ModJanus.Verify
