/-
  ModJanus.Server.Params

  The `<param name=... value=.../>` elements of `serversAdd`.

  The function goes through the elements once and writes to the new `server_t`.  What a
  server ends up with is stated without the loop in `Settings.ReadFrom`: the last value
  counts, empty values mostly do not, and the candidate lists and addresses have rules of
  their own.  `switch_true`, `switch_find_interface_ip`, the address that FreeSWITCH guessed
  and the length of `cand_acl` are FreeSWITCH's.
-/
import ModJanus.Api.Request
import ModJanus.Lib.LastWrite

namespace ModJanus

open LastWrite (last collected collect fold_or fold_getD fold_collect length_collect)

/-! ## What FreeSWITCH provides -/

inductive AddressFamily where
  | unspec
  | inet
  | inet6
  deriving DecidableEq, Repr

structure ConfigEnv where
  /-- `globals.guess_ip`. -/
  guessIp : String
  /-- `switch_find_interface_ip`, when it succeeds. -/
  findInterfaceIp : String → AddressFamily → Option String
  switchTrue : String → Bool
  /-- `SWITCH_MAX_CAND_ACL`. -/
  maxCandAcl : Nat

/-- `strcasecmp` gives 0. -/
def strcasecmp (s t : String) : Bool :=
  s.toList.map Char.toLower == t.toList.map Char.toLower

/-- `strncasecmp` gives 0 for the whole of `start`. -/
def strncasecmp (s start : String) : Bool :=
  (start.toList.map Char.toLower).isPrefixOf (s.toList.map Char.toLower)

/-- The string behind `start`. -/
def behind (s start : String) : String := String.ofList (s.toList.drop start.toList.length)

/-! ## The settings of a server -/

/-- The first `cand_acl_count` entries of `cand_acl`. -/
abbrev CandAcl (maxCandAcl : Nat) := { acl : List String // acl.length ≤ maxCandAcl }

def CandAcl.empty (maxCandAcl : Nat) : CandAcl maxCandAcl := ⟨[], Nat.zero_le _⟩

/-- The members of `server_t` that `serverCloneDefaults` copies, as `serversAdd` first sets
    them. -/
structure Settings (maxCandAcl : Nat) where
  pSecret : Option Credential := none
  pAuthToken : Option Credential := none
  pHmacSecret : Option Credential := none
  localNetwork : String := "localnet.auto"
  codecString : String := "opus"
  extrtpip : Option String := none
  /-- `SFLAG_AUTO_NAT`. -/
  autoNat : Bool := false
  rtpip : Option String := none
  rtpip6 : Option String := none
  candAcl : CandAcl maxCandAcl := .empty maxCandAcl
  deriving DecidableEq, Repr

/-- `serverCloneDefaults`. -/
def Settings.serverCloneDefaults {maxCandAcl : Nat} (dst src : Settings maxCandAcl) :
    Settings maxCandAcl :=
  { src with autoNat := dst.autoNat || src.autoNat }

/-- The `server_t` of `serversAdd`, as far as the elements set it. -/
structure AddedServer (maxCandAcl : Nat) extends Settings maxCandAcl where
  pUrl : Option String := none
  /-- `SFLAG_ENABLED`. -/
  enabled : Bool := false
  deriving DecidableEq, Repr

/-- The names that `serversAdd` knows. -/
inductive ParamName where
  | url
  | secret
  | authToken
  | hmacSecret
  | localNetworkAcl
  | extRtpIp
  | rtpIp
  | applyCandidateAcl
  | codecString
  | enabled
  deriving DecidableEq, Repr

/-- The comparisons of `serversAdd`; two of them ignore the case. -/
def ParamName.ofString (pVarStr : String) : Option ParamName :=
  if pVarStr = "url" then some .url
  else if pVarStr = "secret" then some .secret
  else if pVarStr = "auth-token" then some .authToken
  else if pVarStr = "hmac-secret" then some .hmacSecret
  else if pVarStr = "local-network-acl" then some .localNetworkAcl
  else if pVarStr = "ext-rtp-ip" then some .extRtpIp
  else if pVarStr = "rtp-ip" then some .rtpIp
  else if strcasecmp pVarStr "apply-candidate-acl" then some .applyCandidateAcl
  else if strcasecmp pVarStr "codec-string" then some .codecString
  else if pVarStr = "enabled" then some .enabled
  else none

/-! ## `serversAdd` -/

namespace ConfigEnv

variable (env : ConfigEnv)

/-- The address of an `ext-rtp-ip`. -/
def extRtpIp (pValStr : String) : Option String :=
  if pValStr = "0.0.0.0" then some env.guessIp
  else if strcasecmp pValStr "auto-nat" then none
  else if strcasecmp pValStr "auto" then some env.guessIp
  else some pValStr

/-- An `ext-rtp-ip` that is not empty. -/
def setExtRtpIp (server : AddedServer env.maxCandAcl) (pValStr : String) :
    AddedServer env.maxCandAcl :=
  let server :=
    if pValStr = "0.0.0.0" ∨ strcasecmp pValStr "auto-nat" then server
    else { server with autoNat := false }
  match env.extRtpIp pValStr with
  | none => server
  | some ip =>
      if strncasecmp ip "autonat:" then
        { server with extrtpip := some (behind ip "autonat:"), autoNat := true }
      else { server with extrtpip := some ip }

/-- The interface that is named behind `interface:`, with the address family. -/
def interfaceFamily (ifname : String) : String × AddressFamily :=
  let ifname := if strncasecmp ifname "auto/" then behind ifname "auto/" else ifname
  let (ifname, family) :=
    if strncasecmp ifname "ipv4/" then (behind ifname "ipv4/", .inet) else (ifname, .unspec)
  if strncasecmp ifname "ipv6/" then (behind ifname "ipv6/", .inet6) else (ifname, family)

/-- The address of an `rtp-ip`, which may be empty. -/
def rtpIp (pValStr : String) : String :=
  if pValStr = "" ∨ pValStr = "0.0.0.0" then env.guessIp
  else if strncasecmp pValStr "interface:" then
    let (ifname, family) := interfaceFamily (behind pValStr "interface:")
    (env.findInterfaceIp ifname family).getD env.guessIp
  else if strcasecmp pValStr "auto" then env.guessIp
  else pValStr

/-- One element.  `url` and `rtp-ip` are taken with an empty value. -/
def setParam (server : AddedServer env.maxCandAcl) (param : String × String) :
    AddedServer env.maxCandAcl :=
  let pValStr := param.2
  match ParamName.ofString param.1 with
  | some .url => { server with pUrl := some pValStr }
  | some .secret => { server with pSecret := (credential? pValStr).or server.pSecret }
  | some .authToken => { server with pAuthToken := (credential? pValStr).or server.pAuthToken }
  | some .hmacSecret => { server with pHmacSecret := (credential? pValStr).or server.pHmacSecret }
  | some .localNetworkAcl =>
      if pValStr = "" ∨ strcasecmp pValStr "none" then server
      else { server with localNetwork := pValStr }
  | some .extRtpIp => if pValStr = "" then server else env.setExtRtpIp server pValStr
  | some .rtpIp =>
      let ip := env.rtpIp pValStr
      if ip.toList.contains ':' then { server with rtpip6 := some ip }
      else { server with rtpip := some ip }
  | some .applyCandidateAcl =>
      if pValStr = "" then server
      else if strcasecmp pValStr "none" then { server with candAcl := .empty env.maxCandAcl }
      else if h : server.candAcl.1.length < env.maxCandAcl then
        { server with
          candAcl := ⟨server.candAcl.1 ++ [pValStr], by rw [List.length_append]; exact h⟩ }
      else server
  | some .codecString =>
      if pValStr = "" then server else { server with codecString := pValStr }
  | some .enabled =>
      if pValStr ≠ "" ∧ env.switchTrue pValStr then { server with enabled := true } else server
  | none => server

/-- The loop of `serversAdd`. -/
def readParams (params : List (String × String)) : AddedServer env.maxCandAcl :=
  params.foldl env.setParam {}

end ConfigEnv

/-! ## The settings without the loop -/

/-- The value of an element with this name. -/
def valueOf (name : ParamName) (param : String × String) : Option String :=
  if ParamName.ofString param.1 = some name then some param.2 else none

/-- The same where an empty value is none. -/
def givenOf (name : ParamName) (param : String × String) : Option String :=
  (valueOf name param).filter (· ≠ "")

/-- A credential of this name. -/
def credentialOf (name : ParamName) (param : String × String) : Option Credential :=
  (valueOf name param).bind credential?

/-- The value of a `local-network-acl`. -/
def localNetworkOf (param : String × String) : Option String :=
  (givenOf .localNetworkAcl param).filter (!strcasecmp · "none")

/-- The `apply-candidate-acl` elements that clear the list. -/
def clearsCandAcl (param : String × String) : Bool :=
  (givenOf .applyCandidateAcl param).any (strcasecmp · "none")

namespace ConfigEnv

variable (env : ConfigEnv)

/-- What an `ext-rtp-ip` sets the address to. -/
def extrtpipOf (param : String × String) : Option String :=
  ((givenOf .extRtpIp param).bind env.extRtpIp).map fun ip =>
    if strncasecmp ip "autonat:" then behind ip "autonat:" else ip

/-- What an `ext-rtp-ip` sets the flag to.  `0.0.0.0` sets the address and leaves the flag of an
    element before. -/
def autoNatOf (param : String × String) : Option Bool :=
  (givenOf .extRtpIp param).bind fun pValStr =>
    ((env.extRtpIp pValStr).map (strncasecmp · "autonat:")).filter
      fun nat => nat || pValStr ≠ "0.0.0.0"

/-- The address of an `rtp-ip`, if it is of the asked family. -/
def rtpIpOf (v6 : Bool) (param : String × String) : Option String :=
  ((valueOf .rtpIp param).map env.rtpIp).filter fun ip => ip.toList.contains ':' == v6

/-- What the elements of a server make of its settings. -/
structure ReadFrom (params : List (String × String)) (settings : Settings env.maxCandAcl) :
    Prop where
  pSecret : settings.pSecret = last (credentialOf .secret) params
  pAuthToken : settings.pAuthToken = last (credentialOf .authToken) params
  pHmacSecret : settings.pHmacSecret = last (credentialOf .hmacSecret) params
  localNetwork : settings.localNetwork = (last localNetworkOf params).getD "localnet.auto"
  codecString : settings.codecString = (last (givenOf .codecString) params).getD "opus"
  extrtpip : settings.extrtpip = last env.extrtpipOf params
  autoNat : settings.autoNat = (last env.autoNatOf params).getD false
  rtpip : settings.rtpip = last (env.rtpIpOf false) params
  rtpip6 : settings.rtpip6 = last (env.rtpIpOf true) params
  candAcl : settings.candAcl.1 =
    collected env.maxCandAcl clearsCandAcl (givenOf .applyCandidateAcl) params

end ConfigEnv

/-! ## One element -/

section SetParam

variable {env : ConfigEnv} (server : AddedServer env.maxCandAcl) (param : String × String)

/-- What an element writes, member by member. -/
theorem setParam_eq : env.setParam server param =
    { pSecret := (credentialOf .secret param).or server.pSecret
      pAuthToken := (credentialOf .authToken param).or server.pAuthToken
      pHmacSecret := (credentialOf .hmacSecret param).or server.pHmacSecret
      localNetwork := (localNetworkOf param).getD server.localNetwork
      codecString := (givenOf .codecString param).getD server.codecString
      extrtpip := (env.extrtpipOf param).or server.extrtpip
      autoNat := (env.autoNatOf param).getD server.autoNat
      rtpip := (env.rtpIpOf false param).or server.rtpip
      rtpip6 := (env.rtpIpOf true param).or server.rtpip6
      candAcl := ⟨collect env.maxCandAcl clearsCandAcl (givenOf .applyCandidateAcl)
        server.candAcl.1 param, length_collect server.candAcl.2⟩
      pUrl := (valueOf .url param).or server.pUrl
      enabled := server.enabled || (givenOf .enabled param).any env.switchTrue } := by
  have hvalue : ∀ name, valueOf name param =
      if ParamName.ofString param.1 = some name then some param.2 else none := fun _ => rfl
  cases hname : ParamName.ofString param.1 with
  | none =>
      simp [ConfigEnv.setParam, credentialOf, localNetworkOf, ConfigEnv.extrtpipOf,
        ConfigEnv.autoNatOf, ConfigEnv.rtpIpOf, clearsCandAcl, givenOf, collect, hvalue, hname]
  | some name =>
      simp only [ConfigEnv.setParam, hname, credentialOf, localNetworkOf, ConfigEnv.extrtpipOf,
        ConfigEnv.autoNatOf, ConfigEnv.rtpIpOf, clearsCandAcl, givenOf, collect, hvalue]
      -- an empty value is none, but for `url` and `rtp-ip`
      by_cases hempty : param.2 = ""
      · cases name with
        | url | secret | authToken | hmacSecret | localNetworkAcl | extRtpIp | applyCandidateAcl
        | codecString | enabled => simp [hempty, Option.filter_some]
        | rtpIp =>
            by_cases hv6 : ':' ∈ (env.rtpIp "").toList <;> simp [hempty, hv6, Option.filter_some]
      · cases name with
        | url | secret | authToken | hmacSecret | codecString =>
            simp [hempty, Option.filter_some]
        | enabled =>
            cases htrue : env.switchTrue param.2 <;> simp [hempty, htrue, Option.filter_some]
        | localNetworkAcl =>
            cases hnone : strcasecmp param.2 "none" <;> simp [hempty, hnone, Option.filter_some]
        | extRtpIp =>
            simp only [ConfigEnv.setExtRtpIp]
            by_cases hzero : param.2 = "0.0.0.0"
            · cases hnat : strncasecmp env.guessIp "autonat:" <;>
                simp [ConfigEnv.extRtpIp, hzero, hnat, Option.filter_some]
            · cases hauto : strcasecmp param.2 "auto-nat" with
              | true =>
                  simp [ConfigEnv.extRtpIp, hzero, hauto, hempty, Option.filter_some]
              | false =>
                  obtain ⟨ip, hip⟩ : ∃ ip, env.extRtpIp param.2 = some ip := by
                    unfold ConfigEnv.extRtpIp
                    rw [if_neg hzero, hauto, if_neg Bool.false_ne_true]
                    split <;> exact ⟨_, rfl⟩
                  cases hnat : strncasecmp ip "autonat:" <;>
                    simp [hzero, hip, hnat, hempty, Option.filter_some]
        | rtpIp =>
            by_cases hv6 : ':' ∈ (env.rtpIp param.2).toList <;> simp [hv6, Option.filter_some]
        | applyCandidateAcl =>
            cases hnone : strcasecmp param.2 "none" with
            | true => simp [hempty, hnone, Option.filter_some, CandAcl.empty]
            | false =>
                by_cases hroom : server.candAcl.1.length < env.maxCandAcl <;>
                  simp [hempty, hnone, hroom, Option.filter_some]

end SetParam

/-! ## The whole loop -/

section ReadParams

variable {env : ConfigEnv} (params : List (String × String))

/-- What the loop makes of the elements. -/
theorem readParams_readFrom : env.ReadFrom params (env.readParams params).toSettings where
  pSecret := fold_or (fun server : AddedServer env.maxCandAcl => server.pSecret) _ rfl
    (fun server param => congrArg (·.toSettings.pSecret) (setParam_eq server param)) params
  pAuthToken := fold_or (fun server : AddedServer env.maxCandAcl => server.pAuthToken) _ rfl
    (fun server param => congrArg (·.toSettings.pAuthToken) (setParam_eq server param)) params
  pHmacSecret := fold_or (fun server : AddedServer env.maxCandAcl => server.pHmacSecret) _ rfl
    (fun server param => congrArg (·.toSettings.pHmacSecret) (setParam_eq server param)) params
  localNetwork := fold_getD (fun server : AddedServer env.maxCandAcl => server.localNetwork) _
    (fun server param => congrArg (·.toSettings.localNetwork) (setParam_eq server param)) params
  codecString := fold_getD (fun server : AddedServer env.maxCandAcl => server.codecString) _
    (fun server param => congrArg (·.toSettings.codecString) (setParam_eq server param)) params
  extrtpip := fold_or (fun server : AddedServer env.maxCandAcl => server.extrtpip) _ rfl
    (fun server param => congrArg (·.toSettings.extrtpip) (setParam_eq server param)) params
  autoNat := fold_getD (fun server : AddedServer env.maxCandAcl => server.autoNat) _
    (fun server param => congrArg (·.toSettings.autoNat) (setParam_eq server param)) params
  rtpip := fold_or (fun server : AddedServer env.maxCandAcl => server.rtpip) _ rfl
    (fun server param => congrArg (·.toSettings.rtpip) (setParam_eq server param)) params
  rtpip6 := fold_or (fun server : AddedServer env.maxCandAcl => server.rtpip6) _ rfl
    (fun server param => congrArg (·.toSettings.rtpip6) (setParam_eq server param)) params
  candAcl := fold_collect (fun server : AddedServer env.maxCandAcl => server.candAcl.1) rfl
    (fun server param => congrArg (fun server => server.candAcl.1) (setParam_eq server param))
    params

/-- The address, if an element has one. -/
theorem readParams_pUrl : (env.readParams params).pUrl = last (valueOf .url) params :=
  fold_or AddedServer.pUrl _ rfl
    (fun server param => congrArg AddedServer.pUrl (setParam_eq server param)) params

end ReadParams

/-! ## What the requests are made of -/

/-- The members that the requests read. -/
def AddedServer.config {maxCandAcl : Nat} (server : AddedServer maxCandAcl) : ServerConfig where
  pUrl := server.pUrl.getD ""
  transport := .http
  pSecret := server.pSecret
  pAuthToken := server.pAuthToken
  pHmacSecret := server.pHmacSecret

theorem setParam_config {env : ConfigEnv} (server : AddedServer env.maxCandAcl)
    (param : String × String) :
    (env.setParam server param).config = server.config.setParam param.1 param.2 := by
  rw [setParam_eq]
  unfold ServerConfig.setParam AddedServer.config credentialOf valueOf
  by_cases hurl : param.1 = "url"
  · simp [hurl, ParamName.ofString]
  by_cases hsecret : param.1 = "secret"
  · simp [hsecret, ParamName.ofString]
  by_cases htoken : param.1 = "auth-token"
  · simp [htoken, ParamName.ofString]
  by_cases hhmac : param.1 = "hmac-secret"
  · simp [hhmac, ParamName.ofString]
  have hother : ∀ name ∈ [ParamName.url, .secret, .authToken, .hmacSecret],
      ParamName.ofString param.1 ≠ some name := by
    unfold ParamName.ofString
    rw [if_neg hurl, if_neg hsecret, if_neg htoken, if_neg hhmac]
    simp only [List.forall_mem_cons]
    refine ⟨?_, ?_, ?_, ?_, ?_⟩ <;> split_ifs <;> simp
  simp [hurl, hsecret, htoken, hhmac, hother]

theorem valueOf_url_isSome (param : String × String) :
    (valueOf .url param).isSome = decide (param.1 = "url") := by
  have hname : ParamName.ofString param.1 = some .url ↔ param.1 = "url" := by
    unfold ParamName.ofString
    split_ifs <;> simp_all
  simp only [valueOf, hname]
  split
  · next hurl => simp [hurl]
  · next hurl => simp [hurl]

/-- The mandatory parameter is there. -/
theorem readParams_pUrl_isSome (env : ConfigEnv) (params : List (String × String)) :
    (env.readParams params).pUrl.isSome = params.any (·.1 = "url") := by
  rw [readParams_pUrl, LastWrite.last_isSome]
  congr 1
  funext param
  exact valueOf_url_isSome param

/-- The requests go to a server that is made of the same elements. -/
theorem ofParams_eq (env : ConfigEnv) (params : List (String × String)) :
    ServerConfig.ofParams params = (env.readParams params).pUrl.map fun pUrl =>
      { (env.readParams params).config with transport := transportOf pUrl } := by
  have hfold : (env.readParams params).config =
      params.foldl (fun server param => server.setParam param.1 param.2)
        ⟨"", .http, none, none, none⟩ :=
    (List.foldl_hom AddedServer.config fun server param => (setParam_config server param).symm).symm
  have hsome := readParams_pUrl_isSome env params
  unfold ServerConfig.ofParams
  dsimp only
  rw [← hsome, ← hfold]
  cases hurl : (env.readParams params).pUrl with
  | none => rfl
  | some pUrl =>
      have hpUrl : (env.readParams params).config.pUrl = pUrl := by
        rw [AddedServer.config, hurl]
        rfl
      rw [Option.isSome_some, if_pos rfl, hpUrl]
      rfl

end ModJanus
