/-
  ModJanus.Leg.Frame

  What the events that a server's thread polls can change.

  `apiPoll` passes an event on without saying which server it came from, and the
  handlers look the `session_id` of the event up in the one global table.  So an
  event acts on the server that the table names for that id, whoever polled it; of
  that server it changes one leg at most, and no flag, counter or table.
-/
import ModJanus.Leg.GateRun
import ModJanus.Server.Machine

namespace ModJanus

/-- The servers with their flags and counters, and the legs on them. -/
structure Module where
  servers : Servers.State := {}
  codecString : Nat → Option String := fun _ => none
  candAcl : Nat → List String := fun _ => []
  legs : Nat → Leg := fun _ => {}

namespace Module

/-- What the handlers work on. -/
def world (m : Module) : World where
  serverIdLookup := m.servers.serverIdLookup
  servers := fun S => {
    senderIdLookup := (m.servers.servers S).senderIdLookup
    codecString := m.codecString S
    candAcl := m.candAcl S }
  legs := m.legs

/-- The module after the handlers have made a world of it. -/
def setWorld (m : Module) (w : World) : Module where
  servers := { m.servers with
    serverIdLookup := w.serverIdLookup
    servers := fun S => { m.servers.servers S with
      senderIdLookup := (w.servers S).senderIdLookup } }
  codecString := fun S => (w.servers S).codecString
  candAcl := fun S => (w.servers S).candAcl
  legs := w.legs

end Module

section Polled

variable (switchTrue : Option String → Bool)

/-- The child loop of `apiPoll`, run by the thread of server `_S`, with what is outside
    while each of the events is handled. -/
def Module.polled (_S : Nat) (m : Module) : List (CJson × Env) → Except Fault Module
  | [] => .ok m
  | (pEvent, env) :: next => do
      let w ← m.world.input switchTrue (.event pEvent env)
      (m.setWorld w).polled _S next

/-- The ids of the event lead to the leg, through the server `T`. -/
def Module.Routes (m : Module) (pEvent : CJson) (T session : Nat) : Prop :=
  ∃ response, decode (some pEvent) = some response ∧
    hashFind m.servers.serverIdLookup response.serverId = some T ∧
    hashFind (m.servers.servers T).senderIdLookup response.senderId = some session

/-! ## Tables -/

/-- The handlers change legs and nothing else. -/
def World.SameTables (w w' : World) : Prop := ∃ legs, w' = { w with legs := legs }

theorem World.SameTables.refl (w : World) : w.SameTables w := ⟨w.legs, rfl⟩

theorem World.SameTables.trans {w w' w'' : World} (h : w.SameTables w')
    (h' : w'.SameTables w'') : w.SameTables w'' := by
  obtain ⟨legs, rfl⟩ := h
  obtain ⟨legs', rfl⟩ := h'
  exact ⟨legs', rfl⟩

theorem onLeg_tables (w : World) (serverId senderId : JanusId)
    (f : LegServer → Leg → Status × Leg) : w.SameTables (w.onLeg serverId senderId f).2 := by
  unfold World.onLeg
  split
  · exact .refl w
  · exact ⟨_, rfl⟩

theorem participant_tables (env : Env) (w : World) (serverId senderId : JanusId) (id : String)
    (isSelf setup : Bool) :
    w.SameTables (participant env serverId senderId id isSelf setup w).2 := by
  unfold participant
  split
  · exact onLeg_tables w _ _ _
  · split
    · exact .refl w
    · next pServer session hfind =>
        have hset : ∀ leg, w.SameTables (w.setLeg session leg) := fun leg => ⟨_, rfl⟩
        dsimp only
        split
        · apply (hset _).trans
          exact onLeg_tables _ _ _ _
        · exact hset _

theorem run_tables (env : Env) (w : World) (c : HandlerCall) :
    w.SameTables (c.run (handlers switchTrue env) w) := by
  cases c with
  | joined => exact onLeg_tables w _ _ _
  | accepted => exact onLeg_tables w _ _ _
  | trickle => exact onLeg_tables w _ _ _
  | answeredOnWebrtcup =>
      rw [run_answeredOnWebrtcup]
      split
      · exact onLeg_tables w _ _ _
      · exact .refl w
  | answeredOnAccept =>
      rw [run_answeredOnAccept]
      split
      · exact .refl w
      · exact onLeg_tables w _ _ _
  | hungup => exact onLeg_tables w _ _ _
  | participant => exact participant_tables env w _ _ _ _ _

theorem calls_tables (env : Env) (calls : List HandlerCall) (w : World) :
    w.SameTables (calls.foldl (HandlerCall.run (handlers switchTrue env)) w) := by
  induction calls generalizing w with
  | nil => exact .refl w
  | cons c calls ih => exact (run_tables switchTrue env w c).trans (ih _)

/-! ## Legs -/

/-- An event changes no leg but the one that its ids lead to. -/
theorem event_leg {w w' : World} {session : Nat} {pEvent : CJson} {env : Env}
    (hw : w.input switchTrue (.event pEvent env) = .ok w')
    (hchanged : w'.legs session ≠ w.legs session) :
    ∃ response, decode (some pEvent) = some response ∧
      w.Reaches session response.serverId response.senderId := by
  obtain ⟨calls, hcalls, rfl⟩ := dispatch_eq_ok switchTrue hw
  rcases pollEventCalls_shape hcalls with rfl | ⟨response, hd, hshape⟩
  · exact absurd rfl hchanged
  · refine ⟨response, hd, ?_⟩
    by_contra hunreached
    apply hchanged
    apply calls_unreached
    intro c hc hfor
    rw [HandlerCall.For, hshape.ids c hc] at hfor
    exact hunreached hfor

theorem routes_of_reaches {m : Module} {session : Nat} {pEvent : CJson} {response : Message}
    (hd : decode (some pEvent) = some response)
    (h : m.world.Reaches session response.serverId response.senderId) :
    ∃ T, m.Routes pEvent T session := by
  obtain ⟨pServer, hfind⟩ := h.find
  unfold World.find at hfind
  split at hfind
  · cases hfind
  · next T hserver =>
      obtain ⟨session', hsession, heq⟩ := Option.map_eq_some_iff.mp hfind
      cases heq
      exact ⟨T, response, hd, hserver, hsession⟩

/-- What the thread of a server polls changes no table, flag or counter of any server,
    and no leg but those that the ids of an event lead to: legs of the server that
    `serverIdLookup` names for the session id of the event. -/
theorem polled_frame {S : Nat} {m m' : Module} {events : List (CJson × Env)}
    (h : m.polled switchTrue S events = .ok m') :
    m'.servers = m.servers ∧ m'.codecString = m.codecString ∧ m'.candAcl = m.candAcl ∧
      ∀ session, m'.legs session ≠ m.legs session →
        ∃ event ∈ events, ∃ T, m.Routes event.1 T session := by
  induction events generalizing m with
  | nil =>
      cases h
      exact ⟨rfl, rfl, rfl, fun session hne => absurd rfl hne⟩
  | cons event next ih =>
      obtain ⟨pEvent, env⟩ := event
      simp only [Module.polled, bind, Except.bind] at h
      cases hw : m.world.input switchTrue (.event pEvent env) with
      | error fault => simp [hw] at h
      | ok w =>
          rw [hw] at h
          -- after the first event the tables are what they were
          have htables : m.world.SameTables w := by
            obtain ⟨calls, -, rfl⟩ := dispatch_eq_ok switchTrue hw
            exact calls_tables switchTrue env calls m.world
          obtain ⟨legs, rfl⟩ := htables
          have h : Module.polled switchTrue S { m with legs := legs } next = .ok m' := h
          obtain ⟨hservers, hcodec, hacl, hlegs⟩ := ih h
          refine ⟨hservers, hcodec, hacl, ?_⟩
          intro session hchanged
          by_cases hfirst : legs session = m.legs session
          · have hlater : m'.legs session ≠ legs session := by
              rw [hfirst]
              exact hchanged
            obtain ⟨event, hmem, T, hroutes⟩ := hlegs session hlater
            exact ⟨event, List.mem_cons_of_mem _ hmem, T, hroutes⟩
          · obtain ⟨response, hd, hreach⟩ := event_leg switchTrue hw hfirst
            obtain ⟨T, hroutes⟩ := routes_of_reaches hd hreach
            exact ⟨(pEvent, env), List.mem_cons_self, T, hroutes⟩

end Polled

/-- One server with one leg, under the ids 7 and 2. -/
def oneLeg : Module where
  servers := {
    serverIdLookup := hashInsert ∅ 7 0
    servers := fun _ => { senderIdLookup := hashInsert ∅ 2 0 } }

/-- Janus reports that the PeerConnection of a handle is gone. -/
def hangupEvent (serverId senderId : Int) : CJson :=
  .object [("janus", .string "hangup"), ("session_id", .number (.ofInt serverId)),
    ("sender", .number (.ofInt senderId)), ("reason", .string "DTLS alert")]

/-- The log of a leg once a server has polled the hangup of the handle 2. -/
def logAfterHangup (m : Module) (S session : Nat) : Option (List ChannelOp) :=
  (m.polled (· == some "true") S [(hangupEvent 7 2, {})]).toOption.map
    fun m' => (m'.legs session).ops

theorem logAfterHangup_ok {m : Module} {S session : Nat} {ops : List ChannelOp}
    (h : logAfterHangup m S session = some ops) :
    ∃ m', m.polled (· == some "true") S [(hangupEvent 7 2, {})] = .ok m' ∧
      (m'.legs session).ops = ops := by
  unfold logAfterHangup at h
  cases hrun : m.polled (· == some "true") S [(hangupEvent 7 2, {})] with
  | error fault => simp [hrun, Except.toOption] at h
  | ok m' => exact ⟨m', rfl, by simpa [hrun, Except.toOption] using h⟩

theorem polled_frame_oneLeg :
    ∃ m', oneLeg.polled (· == some "true") 0 [(hangupEvent 7 2, {})] = .ok m' ∧
      m'.servers = oneLeg.servers ∧ m'.legs 1 = oneLeg.legs 1 ∧ m'.legs 0 ≠ oneLeg.legs 0 := by
  obtain ⟨m', hrun, hops⟩ := logAfterHangup_ok
    (show logAfterHangup oneLeg 0 0 = some [.hangup .normalClearing] by decide)
  obtain ⟨hservers, -, -, hlegs⟩ := polled_frame (· == some "true") hrun
  refine ⟨m', hrun, hservers, ?_, ?_⟩
  · by_contra hchanged
    obtain ⟨event, hmem, T, response, -, -, hfind⟩ := hlegs 1 hchanged
    -- the only leg of any server is the first one
    have hheld : hashHolds (hashInsert ∅ 2 0 : Hash Nat) 1 = true := hashHolds_of_hashFind hfind
    exact absurd hheld (by decide)
  · intro heq
    rw [heq] at hops
    cases hops

/-- Two servers of different pods whose Janus instances hand out the same session id,
    with a leg each under the same sender id. -/
def sharedSession : List Servers.Action :=
  [.serversAdd "a" true, .serversAdd "b" true,
    .server 0 (.thread (.start true)), .server 0 (.thread (.outer true)),
    .server 0 (.thread (.create 7 true)), .server 0 (.thread .inner), .resolve 0, .call 0 .dial,
    .call 0 .initLookup, .call 0 (.attach 2), .call 0 (.insert true),
    .server 1 (.thread (.start true)), .server 1 (.thread (.outer true)),
    .server 1 (.thread (.create 7 true)), .server 1 (.thread .inner), .resolve 1, .call 1 .dial,
    .call 1 .initLookup, .call 1 (.attach 2), .call 1 (.insert true)]

/-- The hangup that the first server polls for its own leg hangs up the leg of the
    second. -/
theorem polled_crosses_servers :
    ¬ ∀ (switchTrue : Option String → Bool) (S : Nat) (m m' : Module)
        (events : List (CJson × Env)),
      Transition.Reach Servers.step Transition.Always Servers.Initial m.servers →
      m.polled switchTrue S events = .ok m' →
      ∀ session, m'.legs session ≠ m.legs session →
        ∃ senderId, hashFind (m.servers.servers S).senderIdLookup senderId = some session := by
  intro hclaim
  have h0 : Servers.Initial {} := ⟨0, rfl⟩
  obtain ⟨s, hs, hp⟩ := Transition.reach_of_exec Servers.step Transition.Always h0 sharedSession
    (fun s => hashHolds (s.servers 0).senderIdLookup 1 = false ∧
      logAfterHangup { servers := s } 0 1 = some [.hangup .normalClearing]) (by decide)
  obtain ⟨hown, hlog⟩ := of_decide_eq_true hp
  obtain ⟨m', hrun, hops⟩ := logAfterHangup_ok hlog
  have hchanged : m'.legs 1 ≠ ({} : Leg) := by
    intro heq
    rw [heq] at hops
    cases hops
  obtain ⟨senderId, hfind⟩ := hclaim _ 0 { servers := s } m' _ hs hrun 1 hchanged
  rw [hashHolds_of_hashFind hfind] at hown
  cases hown

end ModJanus
