/-
  ModJanus.Server.Url

  The addresses of the pods of a headless service: `serversParseHttpUrlParts`,
  `serversBuildJanusUrl`, `serversPodNameValid` and `serversProbeJanusPodAtIp` of
  servers.c.

  The sizes of the buffers are those of the two callers, which agree.  `httpGet` is a
  parameter: what Janus answers at a URL, if anything that is JSON.
-/
import ModJanus.Api.Auth
import ModJanus.Json

namespace ModJanus.Registry

/-! ## Addresses -/

/-- `INET_ADDRSTRLEN`. -/
def INET_ADDRSTRLEN : Nat := 16

/-- What `inet_ntop` writes for an IPv4 address. -/
structure Ip where
  text : String
  nonempty : text ≠ ""
  fits : text.length < INET_ADDRSTRLEN
  plain : text.toList.all (fun c => c.isDigit || c == '.') = true
  deriving DecidableEq

theorem Ip.ext {ip ip' : Ip} (h : ip.text = ip'.text) : ip = ip' := by
  cases ip
  cases ip'
  cases h
  rfl

/-! ## `serversParseHttpUrlParts` -/

/-- The buffers `host[256]`, `port[16]` and `path[128]`. -/
def HOST_SIZE : Nat := 256

def PORT_SIZE : Nat := 16

def PATH_SIZE : Nat := 128

/-- What `serversParseHttpUrlParts` fills in. -/
structure HttpUrlParts where
  host : String
  port : String
  path : String
  deriving DecidableEq, Repr

/-- The text after the scheme, and the default port of the scheme. -/
def afterScheme (url : List Char) : Option (List Char × String) :=
  if "http://".toList.isPrefixOf url then some (url.drop 7, "80")
  else if "https://".toList.isPrefixOf url then some (url.drop 8, "443")
  else none

/-- The character ends the host. -/
def endsHost (c : Char) : Bool := c == ':' || c == '/'

def serversParseHttpUrlParts (url : String) : Option HttpUrlParts :=
  match afterScheme url.toList with
  | none => none
  | some (p, defaultPort) =>
      let host := p.takeWhile fun c => !endsHost c
      if host.length ≥ HOST_SIZE then none
      else
        match p.dropWhile fun c => !endsHost c with
        | ':' :: portStart =>
            let port := portStart.takeWhile (· ≠ '/')
            if port.length ≥ PORT_SIZE then none
            else some {
              host := String.ofList host
              port := String.ofList port
              path := snprintf PATH_SIZE (String.ofList (portStart.dropWhile (· ≠ '/'))) }
        | hostEnd => some {
            host := String.ofList host
            port := defaultPort
            path := snprintf PATH_SIZE (String.ofList hostEnd) }

/-- `serversBuildJanusUrl`, without the copy. -/
def serversBuildJanusUrl (ip port path : String) : String :=
  snprintf 512 ("http://" ++ ip ++ ":" ++ port ++ (if path = "" then "/janus" else path))

theorem length_snprintf_lt {size : Nat} (hsize : 0 < size) (text : String) :
    (snprintf size text).length < size := by
  rw [snprintf, String.length_ofList, List.length_take]
  omega

theorem afterScheme_port {url p : List Char} {port : String}
    (h : afterScheme url = some (p, port)) : port = "80" ∨ port = "443" := by
  unfold afterScheme at h
  split at h
  · cases h
    exact .inl rfl
  · split at h
    · cases h
      exact .inr rfl
    · cases h

/-- The port and the path fit their buffers. -/
theorem parts_fit {url : String} {parts : HttpUrlParts}
    (h : serversParseHttpUrlParts url = some parts) :
    parts.port.length < PORT_SIZE ∧ parts.path.length < PATH_SIZE := by
  have hpath : ∀ text, (snprintf PATH_SIZE text).length < PATH_SIZE :=
    length_snprintf_lt (by decide)
  unfold serversParseHttpUrlParts at h
  split at h
  · cases h
  · next p defaultPort hscheme =>
      dsimp only at h
      split at h
      · cases h
      · split at h
        · next portStart hrest =>
            split at h
            · cases h
            · next hport =>
                cases h
                refine ⟨?_, hpath _⟩
                rw [String.length_ofList]
                exact Nat.lt_of_not_le hport
        · -- no port in the URL: the one of the scheme
          cases h
          refine ⟨?_, hpath _⟩
          rcases afterScheme_port hscheme with rfl | rfl
          · show "80".length < PORT_SIZE
            decide
          · show "443".length < PORT_SIZE
            decide

/-- An address, a port and a path that fit their buffers fit the URL as well. -/
theorem serversBuildJanusUrl_eq (ip : Ip) {port path : String} (hport : port.length < PORT_SIZE)
    (hpath : path.length < PATH_SIZE) :
    serversBuildJanusUrl ip.text port path =
      "http://" ++ ip.text ++ ":" ++ port ++ (if path = "" then "/janus" else path) := by
  have hip := ip.fits
  have hdefault : "/janus".length = 6 := by decide
  have hjanus : (if path = "" then "/janus" else path).length < PATH_SIZE := by
    split
    · decide
    · exact hpath
  rw [serversBuildJanusUrl]
  apply snprintf_of_lt
  have hscheme : "http://".length = 7 := by decide
  have hcolon : ":".length = 1 := by decide
  simp only [String.length_append, hscheme, hcolon]
  unfold INET_ADDRSTRLEN at hip
  unfold PORT_SIZE at hport
  unfold PATH_SIZE at hjanus
  omega

theorem serversBuildJanusUrl_ne (ip : Ip) {port path : String} (hport : port.length < PORT_SIZE)
    (hpath : path.length < PATH_SIZE) : serversBuildJanusUrl ip.text port path ≠ "" := by
  intro hnone
  rw [serversBuildJanusUrl_eq ip hport hpath] at hnone
  have hlength := congrArg String.length hnone
  have hscheme : "http://".length = 7 := by decide
  have hzero : "".length = 0 := by decide
  simp only [String.length_append, hscheme, hzero] at hlength
  omega

/-- With one port and one path, the URL tells the address. -/
theorem serversBuildJanusUrl_inj {ip ip' : Ip} {port path : String}
    (hport : port.length < PORT_SIZE) (hpath : path.length < PATH_SIZE)
    (h : serversBuildJanusUrl ip.text port path = serversBuildJanusUrl ip'.text port path) :
    ip = ip' := by
  rw [serversBuildJanusUrl_eq ip hport hpath, serversBuildJanusUrl_eq ip' hport hpath] at h
  apply Ip.ext
  have hlists := congrArg String.toList h
  simp only [String.toList_append, List.append_cancel_right_eq,
    List.append_cancel_left_eq] at hlists
  exact String.toList_injective hlists

/-! ## Probes -/

/-- The character may stand in the name of a pod. -/
def isPodNameChar (c : Char) : Bool :=
  ('a' ≤ c && c ≤ 'z') || ('0' ≤ c && c ≤ '9') || c == '-'

/-- `serversPodNameValid`. -/
def serversPodNameValid (podName : String) : Bool :=
  podName ≠ "" && podName.length ≤ 63 && podName.toList.all isPodNameChar &&
    podName.toList.head? ≠ some '-' && podName.toList.getLast? ≠ some '-'

/-- The buffer `pod_name[64]`. -/
def POD_NAME_SIZE : Nat := 64

/-- `serversProbeJanusPodAtIp`, with what it writes to `pod_name_out`. -/
def serversProbeJanusPodAtIp (httpGet : String → Option CJson) (ip port path : String) :
    Option String :=
  let infoUrl := snprintf 512
    ("http://" ++ ip ++ ":" ++ port ++ (if path = "" then "/janus" else path) ++ "/info")
  let serverName := valuestring (getObjectItem (httpGet infoUrl) "server-name")
  match serverName with
  | some podName =>
      if serversPodNameValid podName then some (snprintf POD_NAME_SIZE podName) else none
  | none => none

/-- A probe reports a valid name, as Janus sent it. -/
theorem probe_eq_some {httpGet : String → Option CJson} {ip port path podName : String}
    (h : serversProbeJanusPodAtIp httpGet ip port path = some podName) :
    serversPodNameValid podName = true := by
  unfold serversProbeJanusPodAtIp at h
  dsimp only at h
  split at h
  · next name hname =>
      split at h
      · next hvalid =>
          have hlength : name.length < POD_NAME_SIZE := by
            simp only [serversPodNameValid, Bool.and_eq_true, decide_eq_true_eq] at hvalid
            unfold POD_NAME_SIZE
            omega
          rw [snprintf_of_lt hlength] at h
          cases h
          exact hvalid
      · cases h
  · cases h

end ModJanus.Registry
