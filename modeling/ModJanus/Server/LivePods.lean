/-
  ModJanus.Server.LivePods

  Which pods `serversRegistryRefresh` takes for gone.

  The first loop stops when `endpoints` is full, and only the names it has seen by then are
  put into `seen_pods`.  The third loop takes every other dynamic server without calls for
  one that is no longer in the registry, also when its pod would have answered the next
  probe.
-/
import Mathlib.Data.Nat.Digits.Defs
import ModJanus.Server.Address

namespace ModJanus.Registry

open Transition (Reach Always)

/-! ## The names that a refresh sees -/

/-- The refresh gets to the name: fewer than `REGISTRY_MAX_ENDPOINTS` other names are reported
    at addresses that DNS lists before it. -/
def Service.gets (service : Service) (parts : HttpUrlParts) (res : List AddrInfo)
    (name : String) : Bool :=
  ((service.reported parts res).takeWhile (· ≠ name)).toFinset.card < REGISTRY_MAX_ENDPOINTS

/-- The server would be collected: no calls, and a name that is not reported or that the
    refresh does not get to. -/
def State.takenForGone (s : State) (service : Service) (parts : HttpUrlParts)
    (res : List AddrInfo) (S : Nat) : Bool :=
  (s.servers S).dynamic && (s.servers S).callsInProgress == 0 &&
    !((service.reported parts res).contains (s.servers S).name &&
      service.gets parts res (s.servers S).name)

section Seen

variable {service : Service} {parts : HttpUrlParts} {res : List AddrInfo}

/-- The names of the endpoints: those that are reported and that the refresh gets to. -/
theorem mem_probeLoop_names (name : String) :
    name ∈ (probeLoop service parts [] res).map Endpoint.podName ↔
      name ∈ service.reported parts res ∧ service.gets parts res name = true := by
  have hreported := endpointOf_podName service parts res
  rw [probeLoop_eq_firsts]
  by_cases hmem : name ∈ service.reported parts res
  · have hnodup : (([] : List Endpoint).map Endpoint.podName).Nodup := List.nodup_nil
    have hnew : name ∉ ([] : List Endpoint).map Endpoint.podName := List.not_mem_nil
    have hfirsts := Firsts.mem_firsts_iff REGISTRY_MAX_ENDPOINTS hnodup hnew
      (by rw [hreported]; exact hmem)
    rw [hfirsts, hreported, Service.gets, decide_eq_true_eq]
    exact (and_iff_right hmem).symm
  · refine iff_of_false ?_ (fun h => hmem h.1)
    intro hin
    obtain ⟨endpoint, hendpoint, rfl⟩ := List.mem_map.mp hin
    rcases Firsts.find?_of_mem_firsts _ hendpoint with hnil | ⟨-, hfind⟩
    · cases hnil
    · apply hmem
      rw [← hreported]
      exact List.mem_map_of_mem (List.mem_of_find?_eq_some hfind)

/-- The test of the third loop, before the second one has run. -/
theorem evictable_eq_takenForGone (s : State) :
    s.evictable ((probeLoop service parts [] res).map Endpoint.podName) =
      s.takenForGone service parts res := by
  funext S
  rw [Bool.eq_iff_iff, evictable_iff, mem_probeLoop_names]
  simp only [State.takenForGone, Bool.and_eq_true, Bool.not_eq_true', beq_iff_eq,
    Bool.and_eq_false_iff]
  constructor
  · rintro ⟨hdynamic, hname, hcalls⟩
    refine ⟨⟨hdynamic, hcalls⟩, ?_⟩
    by_cases hmem : (s.servers S).name ∈ service.reported parts res
    · right
      rw [← Bool.not_eq_true]
      exact fun hgets => hname ⟨hmem, hgets⟩
    · left
      simpa using hmem
  · rintro ⟨⟨hdynamic, hcalls⟩, hname⟩
    refine ⟨hdynamic, ?_, hcalls⟩
    rintro ⟨hmem, hgets⟩
    rcases hname with hname | hname
    · simp [hmem] at hname
    · rw [hgets] at hname
      cases hname

end Seen

/-! ## The table that the third loop goes through -/

/-- An endpoint adds an entry of its own name in front of the table, or none. -/
theorem refreshPod_entries (s : State) (endpoint : Endpoint) :
    ∃ added, (s.refreshPod endpoint).pServerNameLookup.entries =
        added ++ s.pServerNameLookup.entries ∧
      ∀ entry ∈ added, entry.1 = endpoint.podName := by
  unfold State.refreshPod
  split
  · next hnew =>
      refine ⟨[⟨endpoint.podName, s.serverCount⟩], ?_, by simp⟩
      exact AList.entries_insert_of_notMem (AList.lookup_eq_none.mp hnew)
  · refine ⟨[], ?_, nofun⟩
    split
    · dsimp only
      split <;> rfl
    · rfl

theorem foldl_refreshPod_entries (endpoints : List Endpoint) (s : State) :
    ∃ added, (endpoints.foldl State.refreshPod s).pServerNameLookup.entries =
        added ++ s.pServerNameLookup.entries ∧
      ∀ entry ∈ added, entry.1 ∈ endpoints.map Endpoint.podName := by
  induction endpoints generalizing s with
  | nil => exact ⟨[], rfl, nofun⟩
  | cons endpoint rest ih =>
      obtain ⟨first, hfirst, hown⟩ := refreshPod_entries s endpoint
      obtain ⟨added, hadded, hnames⟩ := ih (s.refreshPod endpoint)
      refine ⟨added ++ first, ?_, ?_⟩
      · rw [List.foldl_cons, hadded, hfirst, List.append_assoc]
      · intro entry hentry
        rw [List.map_cons, List.mem_cons]
        rcases List.mem_append.mp hentry with hlater | hnow
        · exact .inr (hnames entry hlater)
        · exact .inl (hown entry hnow)

section Table

variable {s s₁ : State} {endpoints : List Endpoint}

/-- A server that stood in the table stands there after the second loop. -/
theorem foldl_refreshPod_lookup (endpoints : List Endpoint) {name : String} {S : Nat}
    (hfind : s.pServerNameLookup.lookup name = some S) :
    (endpoints.foldl State.refreshPod s).pServerNameLookup.lookup name = some S := by
  obtain ⟨added, hentries, -⟩ := foldl_refreshPod_entries endpoints s
  have hmem : (⟨name, S⟩ : Sigma fun _ : String => Nat) ∈ s.pServerNameLookup.entries :=
    AList.mem_lookup_iff.mp hfind
  apply AList.mem_lookup_iff.mpr
  rw [hentries]
  exact List.mem_append_right _ hmem

/-- The servers that the third loop collects are those of the table before the second loop, in
    its order. -/
theorem evictList_eq (hk : Keyed s) (hpods : PodsRefreshed s endpoints s₁)
    (hs₁ : s₁ = endpoints.foldl State.refreshPod s) :
    s₁.evictList (endpoints.map Endpoint.podName) =
      (s.registeredServers.filter (s.evictable (endpoints.map Endpoint.podName))).take
        REGISTRY_MAX_ENDPOINTS := by
  obtain ⟨added, hentries, hadded⟩ := foldl_refreshPod_entries endpoints s
  rw [← hs₁] at hentries
  -- an entry of the table, and the server that it names
  have hentry : ∀ entry ∈ s₁.pServerNameLookup.entries, (s₁.servers entry.2).name = entry.1 := by
    intro entry hmem
    exact (hpods.keyed entry.1 entry.2 (AList.mem_lookup_iff.mpr hmem)).2
  have hnew : (added.map Sigma.snd).filter
      (s₁.evictable (endpoints.map Endpoint.podName)) = [] := by
    rw [List.filter_eq_nil_iff]
    intro S hS
    obtain ⟨entry, hmem, rfl⟩ := List.mem_map.mp hS
    have hname := hentry entry (by rw [hentries]; exact List.mem_append_left _ hmem)
    rw [evictable_iff, hname]
    exact fun h => h.2.1 (hadded entry hmem)
  have hold : s.registeredServers.filter (s₁.evictable (endpoints.map Endpoint.podName)) =
      s.registeredServers.filter (s.evictable (endpoints.map Endpoint.podName)) := by
    apply List.filter_congr
    intro S hS
    obtain ⟨name, hfind⟩ := mem_registeredServers.mp hS
    have hname := (hk name S hfind).2
    have hmem : (⟨name, S⟩ : Sigma fun _ : String => Nat) ∈ s₁.pServerNameLookup.entries := by
      rw [hentries]
      exact List.mem_append_right _ (AList.mem_lookup_iff.mp hfind)
    have hname₁ := hentry _ hmem
    by_cases hseen : name ∈ endpoints.map Endpoint.podName
    · simp [State.evictable, hname, hname₁, hseen]
    · -- not reported, and so not touched
      rw [State.evictable, State.evictable, (hpods.untouched name hseen).2 S hfind]
  rw [State.evictList, State.registeredServers, hentries, List.map_append, List.filter_append, hnew,
    List.nil_append]
  exact congrArg _ hold

end Table

/-! ## The refresh -/

section Refresh

variable {service : Service} {parts : HttpUrlParts} {res : List AddrInfo}

/-- A refresh removes a server if it takes it for gone and the array has room for it. -/
theorem refresh_lookup_iff (s : State) (hk : Keyed s) (hdefaults : service.podDefaults = true)
    (h : service.answer = some (parts, res)) {name : String} {S : Nat}
    (hfind : s.pServerNameLookup.lookup name = some S) :
    (s.serversRegistryRefresh service).1.pServerNameLookup.lookup name = some S ↔
      ¬ (s.takenForGone service parts res S = true ∧
        ((s.registeredServers.takeWhile (· ≠ S)).filter
          (s.takenForGone service parts res)).length < REGISTRY_MAX_ENDPOINTS) := by
  obtain ⟨hport, hpath⟩ := parts_fit (answer_eq_some h).1
  have hwhole : ∀ endpoint ∈ probeLoop service parts [] res, endpoint.Whole :=
    probeLoop_whole hport hpath
  have hpods := foldl_refreshPod hk probeLoop_nodup hwhole
  have hfind₁ := foldl_refreshPod_lookup (probeLoop service parts [] res) hfind
  have hlist := evictList_eq hk hpods rfl
  have hin : S ∈ s.registeredServers := mem_registeredServers.mpr ⟨name, hfind⟩
  have hcollected := Firsts.mem_take_filter_iff (n := REGISTRY_MAX_ENDPOINTS)
    (p := s.takenForGone service parts res) hin
  rw [evictable_eq_takenForGone] at hlist
  rw [serversRegistryRefresh_eq s hdefaults h, State.applyEndpoints, ← hcollected, ← hlist]
  -- from here on only what is known of the table between the loops counts
  generalize (probeLoop service parts [] res).foldl State.refreshPod s = s₁ at hpods hfind₁ ⊢
  have hevicted : ServersEvicted s₁
      (s₁.evictList ((probeLoop service parts [] res).map Endpoint.podName))
      ((s₁.evictList ((probeLoop service parts [] res).map Endpoint.podName)).foldl
        State.evict s₁) := by
    apply foldl_evict
    intro T hT
    exact (evictable_iff.mp (List.mem_filter.mp (List.mem_of_mem_take hT)).2).1
  have hname := (hpods.keyed name S hfind₁).2
  constructor
  · intro hkept hmem
    have hgone := hevicted.gone S hmem
    rw [hname, hkept] at hgone
    cases hgone
  · intro hnot
    rw [hevicted.kept name, hfind₁]
    -- a server of that name would be the same one
    intro T hT hTname
    obtain ⟨key, hkey⟩ := mem_registeredServers.mp
      (List.mem_of_mem_filter (List.mem_of_mem_take hT))
    rw [← (hpods.keyed key T hkey).2, hTname, hfind₁] at hkey
    cases hkey
    exact hnot hT

/-- No live pod is removed if and only if, for every registered one without calls, the refresh
    gets to its name, or the array is full before the third loop gets to it. -/
theorem live_pods_kept_iff (s : State) (hk : Keyed s) (h : service.answer = some (parts, res)) :
    (∀ name S, s.pServerNameLookup.lookup name = some S → (s.servers S).dynamic = true →
        name ∈ service.reported parts res →
        (s.serversRegistryRefresh service).1.pServerNameLookup.lookup name = some S) ↔
      service.podDefaults = false ∨
        ∀ name S, s.pServerNameLookup.lookup name = some S → (s.servers S).dynamic = true →
          name ∈ service.reported parts res → (s.servers S).callsInProgress = 0 →
          service.gets parts res name = true ∨
            REGISTRY_MAX_ENDPOINTS ≤ ((s.registeredServers.takeWhile (· ≠ S)).filter
              (s.takenForGone service parts res)).length := by
  cases hdefaults : service.podDefaults with
  | false =>
      -- without defaults for pods the refresh does nothing
      refine iff_of_true ?_ (.inl rfl)
      intro name S hfind _ _
      rw [serversRegistryRefresh_idle s (.inl hdefaults)]
      exact hfind
  | true =>
      rw [or_iff_right (by decide)]
      refine forall₂_congr fun name S => ?_
      refine forall_congr' fun hfind => forall_congr' fun hdynamic => ?_
      refine forall_congr' fun hreported => ?_
      rw [refresh_lookup_iff s hk hdefaults h hfind]
      have hgone : s.takenForGone service parts res S = true ↔
          (s.servers S).callsInProgress = 0 ∧ ¬ service.gets parts res name = true := by
        simp [State.takenForGone, hdynamic, (hk name S hfind).2, hreported]
      rw [hgone, ← Nat.not_lt]
      tauto

end Refresh

/-- The only pod is kept. -/
theorem live_pods_kept_iff_onePod :
    ∃ s : State, s.pServerNameLookup.lookup "a" = some 1 ∧
      (s.serversRegistryRefresh (onePod true)).1.pServerNameLookup.lookup "a" = some 1 := by
  have h0 : Initial { podServerFailMax := 1 } := ⟨1, rfl⟩
  obtain ⟨s, hs, hp⟩ := Transition.reach_of_exec step Always h0
    [.serversAdd "s" "http://10.1.1.1:8088/janus" false, .loaded, .refresh,
      .caller 0 (.register "a" "10.0.0.3" "http://10.0.0.3:80/janus"), .caller 0 .startTest,
      .caller 0 .create, .caller 0 .unlock, .caller 0 .refreshed]
    (fun s => s.pServerNameLookup.lookup "a" = some 1 ∧ (s.servers 1).dynamic = true) (by decide)
  obtain ⟨hfind, hdynamic⟩ := of_decide_eq_true hp
  have hanswer : (onePod true).answer = some (⟨"janus", "80", ""⟩, onePodAnswer) := by decide
  have hgets : ∀ name ∈ (onePod true).reported ⟨"janus", "80", ""⟩ onePodAnswer,
      (onePod true).gets ⟨"janus", "80", ""⟩ onePodAnswer name = true := by decide
  have hkept := (live_pods_kept_iff s (keyed_of_reach hs) hanswer).mpr
    (.inr fun name S _ _ hreported _ => .inl (hgets name hreported))
  exact ⟨s, hfind, hkept "a" 1 hfind hdynamic (by decide)⟩

/-! ## A service with many pods -/

/-- 10.0.0.n. -/
def lanIp (n : Fin 256) : Ip where
  text := "10.0.0." ++ toString n.val
  nonempty := by
    intro hempty
    have hlength := congrArg String.length hempty
    rw [String.length_append] at hlength
    have hnetwork : "10.0.0.".length = 7 ∧ "".length = 0 := by decide
    omega
  fits := by
    have hdigits : (toString n.val).length ≤ 3 := Nat.repr_length n.val 3 (by decide) (by omega)
    have hnetwork : "10.0.0.".length = 7 := by decide
    rw [String.length_append, INET_ADDRSTRLEN]
    omega
  plain := by
    rw [String.toList_append, List.all_append, Bool.and_eq_true]
    refine ⟨by decide, List.all_eq_true.mpr fun c hc => ?_⟩
    rw [isDigit_of_mem_toString hc]
    rfl

/-- The pod at 10.0.0.n is `pod` and its number. -/
def lanPod (n : Nat) : String := "pod" ++ toString n

theorem lanPod_length (n : Fin 256) : (lanPod n.val).length ≤ 6 := by
  have hdigits : (toString n.val).length ≤ 3 := Nat.repr_length n.val 3 (by decide) (by omega)
  have hpod : "pod".length = 3 := by decide
  rw [lanPod, String.length_append]
  omega

theorem isDigit_podName {d : Char} (hd : d.isDigit = true) : isPodNameChar d = true ∧ d ≠ '-' := by
  have hrange : '0' ≤ d ∧ d ≤ '9' := by
    rw [Char.isDigit, Bool.and_eq_true, decide_eq_true_eq, decide_eq_true_eq] at hd
    exact hd
  refine ⟨by simp [isPodNameChar, hrange.1, hrange.2], ?_⟩
  rintro rfl
  exact absurd hd (by decide)

theorem lanPod_valid (n : Fin 256) : serversPodNameValid (lanPod n.val) = true := by
  have hlist : (lanPod n.val).toList = 'p' :: 'o' :: 'd' :: (toString n.val).toList := by
    rw [lanPod, String.toList_append]
    rfl
  have hchars : ∀ c ∈ (lanPod n.val).toList, isPodNameChar c = true ∧ c ≠ '-' := by
    intro c hc
    rw [hlist] at hc
    simp only [List.mem_cons] at hc
    rcases hc with rfl | rfl | rfl | hc
    · decide
    · decide
    · decide
    · exact isDigit_podName (isDigit_of_mem_toString hc)
  -- the five tests of the name
  have hne : lanPod n.val ≠ "" := by
    intro hempty
    rw [hempty] at hlist
    cases hlist
  have hhead : (lanPod n.val).toList.head? ≠ some '-' := by
    intro hhead
    exact (hchars '-' (List.mem_of_mem_head? hhead)).2 rfl
  have hlast : (lanPod n.val).toList.getLast? ≠ some '-' := by
    intro hlast
    exact (hchars '-' (List.mem_of_mem_getLast? hlast)).2 rfl
  have hall : (lanPod n.val).toList.all isPodNameChar = true :=
    List.all_eq_true.mpr fun c hc => (hchars c hc).1
  unfold serversPodNameValid
  have hshort : (lanPod n.val).length ≤ 63 := Nat.le_trans (lanPod_length n) (by decide)
  rw [decide_eq_true hne, decide_eq_true hshort, hall, decide_eq_true hhead, decide_eq_true hlast]
  rfl

/-- A service with one pod at each of the addresses up to 10.0.0.64. -/
def manyPods : Service where
  headlessServiceUrl := "http://janus"
  podDefaults := true
  getaddrinfo := fun _ =>
    some ((List.finRange 65).map fun n => .inet (lanIp (n.castLE (by decide))))
  httpGet := fun url =>
    some (.object [("server-name",
      .string ("pod" ++ String.ofList ((url.toList.drop 14).takeWhile Char.isDigit)))])

theorem manyPods_probe (n : Fin 256) :
    manyPods.probe ⟨"janus", "80", ""⟩ (lanIp n) = some (lanPod n.val) := by
  have hdigits : (toString n.val).length ≤ 3 := Nat.repr_length n.val 3 (by decide) (by omega)
  have hurl : infoUrl (lanIp n).text "80" "/janus" =
      "http://10.0.0." ++ toString n.val ++ ":80/janus/info" := by
    have hjoin : "http://" ++ (lanIp n).text ++ ":" ++ "80" ++ "/janus" ++ "/info" =
        "http://10.0.0." ++ toString n.val ++ ":80/janus/info" := by
      apply String.toList_injective
      simp [lanIp]
    rw [infoUrl, if_neg (by decide), hjoin]
    apply snprintf_of_lt
    have hlen : "http://10.0.0.".length = 14 ∧ ":80/janus/info".length = 14 := by decide
    rw [String.length_append, String.length_append, hlen.1, hlen.2]
    omega
  -- the pod reads its own number in the address
  have hname : manyPods.httpGet (infoUrl (lanIp n).text "80" "/janus") =
      some (.object [("server-name", .string (lanPod n.val))]) := by
    have hdigit : ∀ c ∈ (toString n.val).toList, c.isDigit = true :=
      fun c => isDigit_of_mem_toString
    have hnumber : (("http://10.0.0." ++ toString n.val ++ ":80/janus/info").toList.drop 14).takeWhile
        Char.isDigit = (toString n.val).toList := by
      rw [String.toList_append, String.toList_append, List.append_assoc]
      show (((toString n.val).toList ++ ":80/janus/info".toList).takeWhile Char.isDigit) = _
      rw [List.takeWhile_append_of_pos hdigit]
      exact List.append_nil _
    show some (CJson.object [("server-name", .string ("pod" ++ String.ofList (List.takeWhile
      Char.isDigit (List.drop 14 (infoUrl (lanIp n).text "80" "/janus").toList))))]) = _
    rw [hurl, hnumber, String.ofList_toList]
    rfl
  show serversProbeJanusPodAtIp manyPods.httpGet (lanIp n).text "80" "/janus" = _
  rw [probe_infoUrl, hname]
  show (if serversPodNameValid (lanPod n.val) then some (snprintf POD_NAME_SIZE (lanPod n.val))
    else none) = _
  rw [if_pos (lanPod_valid n), snprintf_of_lt (Nat.lt_of_le_of_lt (lanPod_length n) (by decide))]

/-- The addresses of the service. -/
def manyAddresses : List AddrInfo :=
  (List.finRange 65).map fun n => .inet (lanIp (n.castLE (by decide)))

theorem manyPods_reported :
    manyPods.reported ⟨"janus", "80", ""⟩ manyAddresses =
      (List.finRange 65).map fun n => lanPod n.val := by
  have hprobe : manyPods.reportOf ⟨"janus", "80", ""⟩ ∘
      (fun n : Fin 65 => AddrInfo.inet (lanIp (n.castLE (by decide)))) =
        some ∘ fun n : Fin 65 => lanPod n.val := by
    funext n
    rw [Function.comp_apply, Function.comp_apply, Service.reportOf, manyPods_probe,
      Fin.val_castLE]
  rw [Service.reported, manyAddresses, List.filterMap_map, hprobe, List.filterMap_eq_map]

theorem lanPod_inj {m n : Nat} (h : lanPod m = lanPod n) : m = n := by
  have hlists := congrArg String.toList h
  rw [lanPod, lanPod, String.toList_append, String.toList_append,
    List.append_cancel_left_eq] at hlists
  have hnumbers := congrArg (Nat.ofDigitChars 10 · 0) hlists
  simpa using hnumbers

/-- The first loop is over before it gets to the last pod. -/
theorem manyPods_not_gets :
    manyPods.gets ⟨"janus", "80", ""⟩ manyAddresses (lanPod 64) = false := by
  have hothers : (List.finRange 65).takeWhile ((fun name => decide (name ≠ lanPod 64)) ∘
      fun n : Fin 65 => lanPod n.val) =
        (List.finRange 65).takeWhile fun n => decide (n.val ≠ 64) := by
    congr 1
    funext n
    rw [Function.comp_apply, decide_eq_decide]
    constructor
    · rintro h heq
      exact h (by rw [heq])
    · intro h heq
      exact h (lanPod_inj heq)
  have hnodup : (((List.finRange 65).takeWhile fun n => decide (n.val ≠ 64)).map
      fun n => lanPod n.val).Nodup := by
    apply List.Nodup.map
    · intro m n h
      exact Fin.ext (lanPod_inj h)
    · exact (List.nodup_finRange 65).sublist (List.takeWhile_sublist _)
  have hcount : ((List.finRange 65).takeWhile fun n => decide (n.val ≠ 64)).length = 64 := by decide
  rw [Service.gets, manyPods_reported, List.takeWhile_map, hothers,
    List.toFinset_card_of_nodup hnodup, List.length_map, hcount]
  decide

/-- The refresh removes the pod at 10.0.0.64, which is up. -/
theorem live_pod_removed :
    ¬ ∀ (s : State) (service : Service) (parts : HttpUrlParts) (res : List AddrInfo),
      Reach step Always Initial s → service.answer = some (parts, res) →
      ∀ name S, s.pServerNameLookup.lookup name = some S → (s.servers S).dynamic = true →
        name ∈ service.reported parts res →
        (s.serversRegistryRefresh service).1.pServerNameLookup.lookup name = some S := by
  intro hclaim
  have h0 : Initial { podServerFailMax := 1 } := ⟨1, rfl⟩
  obtain ⟨s, hs, hp⟩ := Transition.reach_of_exec step Always h0
    [.serversAdd "s" "http://10.1.1.1:8088/janus" false, .loaded, .refresh,
      .caller 0 (.register "pod64" "10.0.0.64" "http://10.0.0.64:80/janus"), .caller 0 .startTest,
      .caller 0 .create, .caller 0 .unlock, .caller 0 .refreshed]
    (fun s => s.pServerNameLookup.lookup "pod64" = some 1 ∧ (s.servers 1).dynamic = true ∧
      (s.servers 1).callsInProgress = 0 ∧ s.registeredServers.length ≤ 2) (by decide)
  obtain ⟨hfind, hdynamic, hcalls, hcount⟩ := of_decide_eq_true hp
  have hkeyed := keyed_of_reach hs
  have hanswer : manyPods.answer = some (⟨"janus", "80", ""⟩, manyAddresses) := by
    have hparse : serversParseHttpUrlParts "http://janus" = some ⟨"janus", "80", ""⟩ := by decide
    show (serversParseHttpUrlParts "http://janus").bind _ = _
    rw [hparse]
    rfl
  have hpod : lanPod 64 = "pod64" := by decide
  have hreported : "pod64" ∈ manyPods.reported ⟨"janus", "80", ""⟩ manyAddresses := by
    rw [manyPods_reported, ← hpod]
    have hlast : (64 : Fin 65).val = 64 := rfl
    exact List.mem_map.mpr ⟨64, List.mem_finRange 64, congrArg lanPod hlast⟩
  have hkept := hclaim s manyPods _ _ hs hanswer "pod64" 1 hfind hdynamic hreported
  -- the third loop gets to the pod with room in its array
  have hroom : ((s.registeredServers.takeWhile (· ≠ 1)).filter
      (s.takenForGone manyPods ⟨"janus", "80", ""⟩ manyAddresses)).length <
        REGISTRY_MAX_ENDPOINTS := by
    have hfilter := List.length_filter_le
      (s.takenForGone manyPods ⟨"janus", "80", ""⟩ manyAddresses)
      (s.registeredServers.takeWhile (· ≠ 1))
    have htake := (List.takeWhile_sublist (fun T => decide (T ≠ 1))
      (l := s.registeredServers)).length_le
    have hmax : REGISTRY_MAX_ENDPOINTS = 64 := rfl
    omega
  have hgone : s.takenForGone manyPods ⟨"janus", "80", ""⟩ manyAddresses 1 = true := by
    have hname := (hkeyed "pod64" 1 hfind).2
    have hgets := manyPods_not_gets
    rw [hpod] at hgets
    simp [State.takenForGone, hdynamic, hcalls, hname, hgets]
  exact (refresh_lookup_iff s hkeyed rfl hanswer hfind).mp hkept ⟨hgone, hroom⟩

end ModJanus.Registry
