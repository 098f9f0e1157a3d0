/-
  ModJanus.Server.Address

  The URLs of a headless service and of its pods, as URLs.

  `serversParseHttpUrlParts` keeps the host, the port and the path, the port that of the
  scheme if there is none.  `serversBuildJanusUrl` and the probe put an address in the place
  of the host.  Both write `http://`, whatever the scheme was, and the buffer for the path
  cuts off what does not fit, while a host or a port that does not fit is refused.
-/
import ModJanus.Server.Refresh

namespace ModJanus.Registry

/-! ## URLs -/

inductive Scheme where
  | http
  | https
  deriving DecidableEq, Repr

def Scheme.text : Scheme → String
  | .http => "http://"
  | .https => "https://"

def Scheme.defaultPort : Scheme → String
  | .http => "80"
  | .https => "443"

/-- A URL in its parts: the host ends before a `:` or a `/`, a port before a `/`, and what is
    left is empty or begins with a `/`. -/
structure HttpUrl where
  scheme : Scheme
  host : String
  port : Option String
  path : String
  host_plain : ∀ c ∈ host.toList, endsHost c = false
  port_plain : ∀ p ∈ port, ∀ c ∈ p.toList, c ≠ '/'
  path_rooted : path.toList.head? ∈ [none, some '/']

namespace HttpUrl

/-- The port, with its colon. -/
def portText (u : HttpUrl) : String :=
  match u.port with
  | some port => ":" ++ port
  | none => ""

def text (u : HttpUrl) : String := u.scheme.text ++ u.host ++ u.portText ++ u.path

/-- The port that a client connects to. -/
def portOrDefault (u : HttpUrl) : String := u.port.getD u.scheme.defaultPort

/-- The path, `/janus` if there is none. -/
def pathOrJanus (u : HttpUrl) : String := if u.path = "" then "/janus" else u.path

theorem portText_some {u : HttpUrl} {port : String} (h : u.port = some port) :
    u.portText.toList = ':' :: port.toList := by
  rw [portText, h, String.toList_append]
  rfl

theorem portText_none {u : HttpUrl} (h : u.port = none) : u.portText = "" := by
  rw [portText, h]

/-- What is behind the host begins with a `:` or a `/`, if there is anything. -/
theorem afterHost_head (u : HttpUrl) :
    (u.portText.toList ++ u.path.toList).takeWhile (fun c => !endsHost c) = [] := by
  have hrooted := u.path_rooted
  unfold portText
  cases u.port with
  | some port => simp [endsHost]
  | none =>
      cases hpath : u.path.toList with
      | nil => simp
      | cons c rest =>
          rw [hpath] at hrooted
          have hslash : c = '/' := by simpa using hrooted
          simp [hslash, endsHost]

end HttpUrl

/-! ## Parsing -/

theorem afterScheme_append (scheme : Scheme) (rest : List Char) :
    afterScheme (scheme.text.toList ++ rest) = some (rest, scheme.defaultPort) := by
  cases scheme <;> rfl

theorem rooted_takeWhile {path : List Char} (h : path.head? ∈ [none, some '/']) :
    path.takeWhile (· ≠ '/') = [] ∧ path.dropWhile (· ≠ '/') = path := by
  cases path with
  | nil => exact ⟨rfl, rfl⟩
  | cons c rest =>
      have hslash : c = '/' := by simpa using h
      simp [hslash]

/-- The parser takes a URL apart, refuses a host or a port that does not fit, and cuts the
    path off. -/
theorem serversParseHttpUrlParts_text (u : HttpUrl) :
    serversParseHttpUrlParts u.text =
      if u.host.length < HOST_SIZE ∧ u.portOrDefault.length < PORT_SIZE then
        some ⟨u.host, u.portOrDefault, snprintf PATH_SIZE u.path⟩
      else none := by
  have hhost : ∀ c ∈ u.host.toList, (!endsHost c) = true := by
    intro c hc
    rw [u.host_plain c hc]
    rfl
  have hlist : u.text.toList =
      u.scheme.text.toList ++ (u.host.toList ++ (u.portText.toList ++ u.path.toList)) := by
    simp [HttpUrl.text]
  have hhead := u.afterHost_head
  have htail : (u.portText.toList ++ u.path.toList).dropWhile (fun c => !endsHost c) =
      u.portText.toList ++ u.path.toList := by
    have happend := List.takeWhile_append_dropWhile (p := fun c => !endsHost c)
      (l := u.portText.toList ++ u.path.toList)
    rw [hhead] at happend
    exact happend
  unfold serversParseHttpUrlParts
  rw [hlist, afterScheme_append]
  dsimp only
  rw [List.takeWhile_append_of_pos hhost, List.dropWhile_append_of_pos hhost, hhead, htail,
    List.append_nil, String.length_toList, String.ofList_toList]
  obtain ⟨htake, hdrop⟩ := rooted_takeWhile u.path_rooted
  by_cases hfits : u.host.length < HOST_SIZE
  · rw [if_neg (by omega)]
    cases hport : u.port with
    | some port =>
        have hplain : ∀ c ∈ port.toList, decide (c ≠ '/') = true := by
          intro c hc
          exact decide_eq_true (u.port_plain port hport c hc)
        rw [HttpUrl.portText_some hport, HttpUrl.portOrDefault, hport, List.cons_append]
        have htakePort : (port.toList ++ u.path.toList).takeWhile (· ≠ '/') = port.toList := by
          rw [List.takeWhile_append_of_pos hplain, htake, List.append_nil]
        have hdropPort : (port.toList ++ u.path.toList).dropWhile (· ≠ '/') = u.path.toList := by
          rw [List.dropWhile_append_of_pos hplain, hdrop]
        simp only [htakePort, hdropPort, String.length_toList, String.ofList_toList,
          Option.getD_some]
        by_cases hlen : port.length < PORT_SIZE
        · rw [if_neg (by omega), if_pos ⟨hfits, hlen⟩]
        · rw [if_pos (by omega), if_neg (fun h => hlen h.2)]
    | none =>
        have hdefault : u.portOrDefault = u.scheme.defaultPort := by
          rw [HttpUrl.portOrDefault, hport]
          rfl
        have hlen : u.scheme.defaultPort.length < PORT_SIZE := by cases u.scheme <;> decide
        rw [HttpUrl.portText_none hport, String.toList_empty, List.nil_append, hdefault,
          if_pos ⟨hfits, hlen⟩]
        -- what is left begins with a `/`, not with a `:`
        have hrooted := u.path_rooted
        split
        · next portStart hcolon =>
            rw [hcolon] at hrooted
            simp at hrooted
        · rw [String.ofList_toList]
  · rw [if_pos (by omega), if_neg (fun h => hfits h.1)]

theorem afterScheme_eq_some {url p : List Char} {port : String}
    (h : afterScheme url = some (p, port)) : ∃ scheme : Scheme, url = scheme.text.toList ++ p := by
  unfold afterScheme at h
  split at h
  · next hprefix =>
      cases h
      have hurl := List.prefix_iff_eq_append.mp (List.isPrefixOf_iff_prefix.mp hprefix)
      exact ⟨.http, hurl.symm⟩
  · split at h
    · next hprefix =>
        cases h
        have hurl := List.prefix_iff_eq_append.mp (List.isPrefixOf_iff_prefix.mp hprefix)
        exact ⟨.https, hurl.symm⟩
    · cases h

/-- A text after the scheme, in its parts. -/
theorem exists_parts (scheme : Scheme) (p : List Char) :
    ∃ u : HttpUrl, u.scheme = scheme ∧ u.text.toList = scheme.text.toList ++ p := by
  have hhost : ∀ c ∈ p.takeWhile (fun c => !endsHost c), endsHost c = false := by
    intro c hc
    have hkeep := List.mem_takeWhile_imp hc
    simpa using hkeep
  have hsplit : p.takeWhile (fun c => !endsHost c) ++ p.dropWhile (fun c => !endsHost c) = p :=
    List.takeWhile_append_dropWhile
  cases hrest : p.dropWhile (fun c => !endsHost c) with
  | nil =>
      rw [hrest, List.append_nil] at hsplit
      refine ⟨⟨scheme, String.ofList (p.takeWhile fun c => !endsHost c), none, "",
        by simpa using hhost, nofun, by simp⟩, rfl, ?_⟩
      simp [HttpUrl.text, HttpUrl.portText, hsplit]
  | cons c rest =>
      have hends : endsHost c = true := by simpa using Firsts.dropWhile_head hrest
      rw [hrest] at hsplit
      by_cases hcolon : c = ':'
      · -- a port, up to the next `/`
        have hport : rest.takeWhile (· ≠ '/') ++ rest.dropWhile (· ≠ '/') = rest :=
          List.takeWhile_append_dropWhile
        refine ⟨⟨scheme, String.ofList (p.takeWhile fun c => !endsHost c),
          some (String.ofList (rest.takeWhile (· ≠ '/'))),
          String.ofList (rest.dropWhile (· ≠ '/')), by simpa using hhost, ?_, ?_⟩, rfl, ?_⟩
        · rintro port ⟨⟩ d hd
          rw [String.toList_ofList] at hd
          have hkeep := List.mem_takeWhile_imp hd
          simpa using hkeep
        · rw [String.toList_ofList]
          cases hpath : rest.dropWhile (· ≠ '/') with
          | nil => simp
          | cons d path =>
              have hslash := Firsts.dropWhile_head hpath
              simpa using hslash
        · simp only [HttpUrl.text, HttpUrl.portText, String.toList_append, String.toList_ofList]
          rw [List.append_assoc, List.append_assoc, List.append_assoc, hport]
          rw [hcolon] at hsplit
          exact congrArg _ hsplit
      · -- no port, and a path
        have hslash : c = '/' := by simpa [endsHost, hcolon] using hends
        refine ⟨⟨scheme, String.ofList (p.takeWhile fun c => !endsHost c), none,
          String.ofList (c :: rest), by simpa using hhost, nofun, by simp [hslash]⟩, rfl, ?_⟩
        simp only [HttpUrl.text, HttpUrl.portText, String.toList_append, String.toList_ofList,
          String.toList_empty, List.append_nil]
        rw [List.append_assoc, hsplit]

/-- Every URL that the parser accepts is one. -/
theorem exists_of_parse {url : String} {parts : HttpUrlParts}
    (h : serversParseHttpUrlParts url = some parts) : ∃ u : HttpUrl, u.text = url := by
  unfold serversParseHttpUrlParts at h
  split at h
  · cases h
  · next p defaultPort hscheme =>
      obtain ⟨scheme, hurl⟩ := afterScheme_eq_some hscheme
      obtain ⟨u, -, hu⟩ := exists_parts scheme p
      refine ⟨u, String.toList_injective ?_⟩
      rw [hu, hurl]

/-! ## The URLs of a pod -/

theorem Ip.not_endsHost (ip : Ip) : ∀ c ∈ ip.text.toList, endsHost c = false := by
  intro c hc
  have hplain := List.all_eq_true.mp ip.plain c hc
  rw [endsHost, Bool.or_eq_false_iff]
  constructor
  · rw [beq_eq_false_iff_ne]
    rintro rfl
    revert hplain
    decide
  · rw [beq_eq_false_iff_ne]
    rintro rfl
    revert hplain
    decide

namespace HttpUrl

theorem plain_of_all {port : String} (h : port.toList.all (fun c => c ≠ '/') = true) :
    ∀ c ∈ port.toList, c ≠ '/' := by
  intro c hc
  exact of_decide_eq_true (List.all_eq_true.mp h c hc)

theorem portOrDefault_plain (u : HttpUrl) : ∀ c ∈ u.portOrDefault.toList, c ≠ '/' := by
  unfold portOrDefault
  cases hport : u.port with
  | some port => exact u.port_plain port hport
  | none =>
      apply plain_of_all
      cases u.scheme <;> decide

theorem pathOrJanus_rooted (u : HttpUrl) : u.pathOrJanus.toList.head? ∈ [none, some '/'] := by
  unfold pathOrJanus
  split
  · decide
  · exact u.path_rooted

/-- The same URL at the address of a pod, with the port and the path written out. -/
def atPod (u : HttpUrl) (ip : Ip) : HttpUrl where
  scheme := u.scheme
  host := ip.text
  port := some u.portOrDefault
  path := u.pathOrJanus
  host_plain := ip.not_endsHost
  port_plain := by
    rintro port ⟨⟩
    exact u.portOrDefault_plain
  path_rooted := u.pathOrJanus_rooted

theorem atPod_text (u : HttpUrl) (ip : Ip) :
    (u.atPod ip).text = u.scheme.text ++ ip.text ++ ":" ++ u.portOrDefault ++ u.pathOrJanus := by
  show u.scheme.text ++ ip.text ++ (":" ++ u.portOrDefault) ++ u.pathOrJanus = _
  simp only [String.append_assoc]

end HttpUrl

/-- The address that the probe of a pod asks. -/
def infoUrl (ip port path : String) : String :=
  snprintf 512 ("http://" ++ ip ++ ":" ++ port ++ (if path = "" then "/janus" else path) ++ "/info")

theorem probe_infoUrl (httpGet : String → Option CJson) (ip port path : String) :
    serversProbeJanusPodAtIp httpGet ip port path =
      serversProbeJanusPodAtIp (fun _ => httpGet (infoUrl ip port path)) ip port path := rfl

section Pod

variable {url : String} {parts : HttpUrlParts}

/-- What the parser makes of a URL that it accepts. -/
theorem parts_of_text {u : HttpUrl} (hu : u.text = url)
    (h : serversParseHttpUrlParts url = some parts) :
    parts = ⟨u.host, u.portOrDefault, snprintf PATH_SIZE u.path⟩ := by
  rw [← hu, serversParseHttpUrlParts_text] at h
  split at h
  · cases h
    rfl
  · cases h

/-- The beginning of a path is a path. -/
theorem snprintf_rooted {size : Nat} (hsize : 1 < size) {path : String}
    (h : path.toList.head? ∈ [none, some '/']) :
    (snprintf size path).toList.head? ∈ [none, some '/'] := by
  rw [snprintf, String.toList_ofList, List.head?_take, if_neg (by omega)]
  exact h

theorem janusPath_janusPath (parts : HttpUrlParts) (host port : String) :
    HttpUrlParts.janusPath ⟨host, port, parts.janusPath⟩ = parts.janusPath := by
  unfold HttpUrlParts.janusPath
  split
  · rfl
  · rfl

/-- The URL that is built for a pod of the service. -/
theorem built_text (ip : Ip) (h : serversParseHttpUrlParts url = some parts) :
    ∃ u : HttpUrl, u.scheme = .http ∧ u.host = ip.text ∧ u.portOrDefault = parts.port ∧
      u.path = parts.janusPath ∧
      serversBuildJanusUrl ip.text parts.port parts.path = u.text := by
  obtain ⟨hport, hpath⟩ := parts_fit h
  obtain ⟨v, hv⟩ := exists_of_parse h
  have hparts := parts_of_text hv h
  have hplain : ∀ c ∈ parts.port.toList, c ≠ '/' := by
    rw [hparts]
    exact v.portOrDefault_plain
  have hrooted : parts.janusPath.toList.head? ∈ [none, some '/'] := by
    unfold HttpUrlParts.janusPath
    split
    · -- no path in the service URL: the default one
      decide
    · rw [hparts]
      exact snprintf_rooted (by decide) v.path_rooted
  refine ⟨⟨.http, ip.text, some parts.port, parts.janusPath, ip.not_endsHost, ?_, hrooted⟩,
    rfl, rfl, rfl, rfl, ?_⟩
  · rintro port ⟨⟩
    exact hplain
  · rw [serversBuildJanusUrl_eq ip hport hpath]
    show _ = "http://" ++ ip.text ++ (":" ++ parts.port) ++ parts.janusPath
    simp only [String.append_assoc]
    rfl

/-- The URL that is registered for a pod is taken apart into the address, the port and the path
    that the probe of the pod used, and the verification probes them again. -/
theorem verified_is_probed (ip : Ip) (h : serversParseHttpUrlParts url = some parts) :
    serversParseHttpUrlParts (snprintf 512 (serversBuildJanusUrl ip.text parts.port parts.path)) =
        some ⟨ip.text, parts.port, parts.janusPath⟩ ∧
      ∀ (service : Service) (podName : String),
        (endpointAt parts ip podName).url = serversBuildJanusUrl ip.text parts.port parts.path ∧
        service.probe ⟨ip.text, parts.port, parts.janusPath⟩ ip = service.probe parts ip := by
  obtain ⟨hport, hpath⟩ := parts_fit h
  obtain ⟨u, -, hhost, huport, hupath, hbuilt⟩ := built_text ip h
  have hjanus := janusPath_fits hpath
  constructor
  · -- the copy of the URL is the URL, and its parts fit their buffers
    have hcopy : snprintf 512 (serversBuildJanusUrl ip.text parts.port parts.path) =
        serversBuildJanusUrl ip.text parts.port parts.path :=
      snprintf_of_lt (length_snprintf_lt (by decide) _)
    have hipfits : ip.text.length < HOST_SIZE := Nat.lt_trans ip.fits (by decide)
    rw [hcopy, hbuilt, serversParseHttpUrlParts_text, hhost, huport, hupath,
      if_pos ⟨hipfits, hport⟩, snprintf_of_lt hjanus]
  · intro service podName
    constructor
    · show serversBuildJanusUrl ip.text parts.port parts.janusPath = _
      rw [serversBuildJanusUrl_eq ip hport hjanus, serversBuildJanusUrl_eq ip hport hpath]
      exact congrArg _ (janusPath_janusPath parts ip.text parts.port)
    · rw [Service.probe, janusPath_janusPath]
      rfl

end Pod

def podIp : Ip := ⟨"10.0.0.8", by decide, by decide, by decide⟩

theorem verified_is_probed_pod :
    serversParseHttpUrlParts (snprintf 512 (serversBuildJanusUrl "10.0.0.8" "8088" "")) =
      some ⟨"10.0.0.8", "8088", "/janus"⟩ := by
  have hparse : serversParseHttpUrlParts "http://janus:8088" = some ⟨"janus", "8088", ""⟩ := by
    decide
  exact (verified_is_probed podIp hparse).1

section Pod

variable {url : String} {parts : HttpUrlParts}

/-- The two URLs of a pod are the configured one at its address if and only if that has the
    scheme `http` and a path that fits. -/
theorem pod_urls_iff (ip : Ip) (podName : String) {u : HttpUrl} (hu : u.text = url)
    (h : serversParseHttpUrlParts url = some parts) :
    ((endpointAt parts ip podName).url = (u.atPod ip).text ∧
      infoUrl ip.text parts.port parts.janusPath = (u.atPod ip).text ++ "/info") ↔
      u.scheme = .http ∧ u.path.length < PATH_SIZE := by
  obtain ⟨hport, hpath⟩ := parts_fit h
  have hparts := parts_of_text hu h
  have hjanus := janusPath_fits hpath
  have hregistered : (endpointAt parts ip podName).url =
      "http://" ++ ip.text ++ ":" ++ parts.port ++ parts.janusPath := by
    show serversBuildJanusUrl ip.text parts.port parts.janusPath = _
    rw [serversBuildJanusUrl_eq ip hport hjanus]
    exact congrArg _ (janusPath_janusPath parts ip.text parts.port)
  have hport' : parts.port = u.portOrDefault := by rw [hparts]
  rw [hregistered, u.atPod_text ip, ← hport']
  constructor
  · rintro ⟨hsame, -⟩
    have hscheme : u.scheme = .http := by
      cases hu' : u.scheme with
      | http => rfl
      | https =>
          rw [hu'] at hsame
          have hlists := congrArg (fun text => text.toList.take 5) hsame
          simp [Scheme.text] at hlists
    refine ⟨hscheme, ?_⟩
    rw [hscheme] at hsame
    have hpaths : parts.janusPath = u.pathOrJanus := by
      have hlists := congrArg String.toList hsame
      simp only [Scheme.text, String.toList_append, List.append_cancel_left_eq] at hlists
      exact String.toList_injective hlists
    -- a path that is cut off is shorter than the path
    by_contra hlong
    have hne : u.path ≠ "" := by
      rintro hempty
      rw [hempty] at hlong
      exact hlong (by decide)
    rw [HttpUrl.pathOrJanus, if_neg hne] at hpaths
    rw [hpaths] at hjanus
    exact hlong hjanus
  · rintro ⟨hscheme, hlong⟩
    have hpaths : parts.janusPath = u.pathOrJanus := by
      rw [hparts, snprintf_of_lt hlong]
      rfl
    have hne : parts.janusPath ≠ "" := by
      unfold HttpUrlParts.janusPath
      split
      · decide
      · assumption
    rw [hscheme, ← hpaths]
    refine ⟨rfl, ?_⟩
    rw [infoUrl, if_neg hne]
    apply snprintf_of_lt
    have hip := ip.fits
    have hlen : "http://".length = 7 ∧ ":".length = 1 ∧ "/info".length = 5 := ⟨rfl, rfl, rfl⟩
    unfold INET_ADDRSTRLEN at hip
    unfold PORT_SIZE at hport
    unfold PATH_SIZE at hjanus
    simp only [String.length_append, hlen]
    omega

end Pod

/-- `http://janus:8088/a`, or the same with `https`. -/
def serviceUrl (scheme : Scheme) : HttpUrl where
  scheme := scheme
  host := "janus"
  port := some "8088"
  path := "/a"
  host_plain := by
    have hplain : "janus".toList.all (fun c => !endsHost c) = true := by decide
    intro c hc
    have hc := List.all_eq_true.mp hplain c hc
    rwa [Bool.not_eq_true'] at hc
  port_plain := by
    rintro port ⟨⟩
    apply HttpUrl.plain_of_all
    decide
  path_rooted := by decide

theorem pod_urls_iff_plain :
    (endpointAt ⟨"janus", "8088", "/a"⟩ podIp "a").url = ((serviceUrl .http).atPod podIp).text ∧
      infoUrl "10.0.0.8" "8088" "/a" = ((serviceUrl .http).atPod podIp).text ++ "/info" := by
  have hparse : serversParseHttpUrlParts "http://janus:8088/a" = some ⟨"janus", "8088", "/a"⟩ := by
    decide
  have htext : (serviceUrl .http).text = "http://janus:8088/a" := by decide
  exact (pod_urls_iff podIp "a" htext hparse).mpr ⟨rfl, by decide⟩

/-- A pod of a service with `https` is registered and probed without. -/
theorem pod_urls_https :
    ¬ ∀ (url : String) (parts : HttpUrlParts) (ip : Ip) (podName : String) (u : HttpUrl),
      u.text = url → serversParseHttpUrlParts url = some parts →
      (endpointAt parts ip podName).url = (u.atPod ip).text ∧
        infoUrl ip.text parts.port parts.janusPath = (u.atPod ip).text ++ "/info" := by
  intro h
  have hparse : serversParseHttpUrlParts "https://janus:8088/a" = some ⟨"janus", "8088", "/a"⟩ := by
    decide
  have hsame := (h _ _ podIp "a" (serviceUrl .https) (by decide) hparse).1
  exact absurd hsame (by decide)

end ModJanus.Registry
