/-
  ModJanus.Ws.Connection

  janus_ws.c: the life of the WebSocket connections, `janus_ws_server_open` and
  `janus_ws_server_close`, and the count of those who need libks.

  The threads of the servers open and close, the threads of the calls take the context
  of a server and work with it, all at once.  A call of one of these functions is a task;
  it takes one step for each thing that others can observe: a look at
  `janus_ws_handle`, an update of it, a section under `g_libks_ref_mutex`, the end of a
  context.  Whether a pool can be had and whether Janus accepts the connection is part of
  the action.
-/
import ModJanus.Lib.Census
import ModJanus.Lib.Transition

namespace ModJanus.Ws.Connection

open Census (weight countP_set countP_concat)
open Transition (Reach Never exec exec_unspoiled_iff not_never_iff reach_of_exec)

/-! ## libks -/

/-- `g_libks_refs`, and whether libks stands between `ks_init` and `ks_shutdown`. -/
structure Libks where
  refs : Nat := 0
  initialised : Bool := false
  deriving DecidableEq, Repr

/-- `janus_ws_libks_acquire`. -/
def Libks.acquire (k : Libks) : Libks where
  refs := k.refs + 1
  initialised := if k.refs = 0 then true else k.initialised

/-- `janus_ws_libks_release`. -/
def Libks.release (k : Libks) : Libks :=
  if 0 < k.refs then
    { refs := k.refs - 1, initialised := if k.refs - 1 = 0 then false else k.initialised }
  else k

/-- `janus_ws_mod_global_shutdown`. -/
def Libks.globalShutdown (k : Libks) : Libks :=
  if 0 < k.refs then { refs := 0, initialised := false } else k

/-- libks is up exactly while somebody needs it. -/
def Libks.Counted (k : Libks) : Prop := k.initialised = decide (0 < k.refs)

theorem acquire_counted {k : Libks} (h : k.Counted) : k.acquire.Counted := by
  unfold Libks.Counted Libks.acquire at *
  simp only [Nat.zero_lt_succ, decide_true]
  split
  · rfl
  · next hrefs => rw [h, decide_eq_true (Nat.pos_of_ne_zero hrefs)]

theorem release_counted {k : Libks} (h : k.Counted) : k.release.Counted := by
  unfold Libks.Counted Libks.release at *
  split
  · next hrefs =>
      simp only
      split
      · next hzero => rw [hzero]; rfl
      · next hmore => rw [h, decide_eq_true hrefs, decide_eq_true (Nat.pos_of_ne_zero hmore)]
  · exact h

/-! ## State -/

/-- `janus_ws_ctx_t`: whose it is, and whether it has not been destroyed. -/
structure Context where
  server : Nat
  alive : Bool
  deriving DecidableEq, Repr

/-- Where a task stands. -/
inductive TaskPc where
  /-- `janus_ws_server_open` has found no handle. -/
  | tested
  | acquired
  /-- In `kws_connect_ex`. -/
  | allocated (ctx : Nat)
  /-- `janus_ws_server_close` has found the handle. -/
  | found (ctx : Nat)
  /-- The handle is cleared, the context not yet destroyed. -/
  | detached (ctx : Nat)
  /-- There is no context any more, or none was made. -/
  | releasing
  /-- `janus_ws_rpc_json` works with the context. -/
  | working (ctx : Nat)
  | returned
  deriving DecidableEq, Repr

structure Task where
  server : Nat
  pc : TaskPc
  deriving DecidableEq, Repr

/-- The task opens or closes. -/
def Task.busy (task : Task) : Bool :=
  match task.pc with
  | .working _ | .returned => false
  | _ => true

/-- A reference to libks is in the hands of the task. -/
def Task.holds (task : Task) : Bool :=
  match task.pc with
  | .acquired | .allocated _ | .detached _ | .releasing => true
  | _ => false

/-- Only a call that opens or closes holds a reference. -/
theorem not_holds_of_idle {task : Task} (h : task.busy = false) : ¬ task.holds = true := by
  unfold Task.busy at h
  unfold Task.holds
  cases hpc : task.pc <;> simp [hpc] at h ⊢

/-- A server is its index in `handles`, which holds its `janus_ws_handle`. -/
structure World where
  libks : Libks := {}
  handles : List (Option Nat)
  contexts : List Context := []
  tasks : List Task := []
  deriving DecidableEq, Repr

inductive TaskAction where
  | acquire
  /-- `switch_core_new_memory_pool` and what follows, up to the connection. -/
  | allocate (pool : Bool)
  | connect (connected : Bool)
  | detach
  | destroy
  | release
  /-- Any use of the context. -/
  | work
  | finish
  deriving DecidableEq, Repr

inductive Action where
  /-- `janus_ws_server_open` is called. -/
  | serverOpen (S : Nat)
  /-- `janus_ws_server_close` is called. -/
  | serverClose (S : Nat)
  /-- `janus_ws_rpc_json` is called. -/
  | rpcJson (S : Nat)
  | task (t : Nat) (a : TaskAction)
  deriving DecidableEq, Repr

def World.begin (w : World) (S : Nat) (pc : TaskPc) : World :=
  { w with tasks := w.tasks ++ [⟨S, pc⟩] }

def World.setPc (w : World) (t : Nat) (task : Task) (pc : TaskPc) : World :=
  { w with tasks := w.tasks.set t { task with pc := pc } }

def World.taskStep (w : World) (t : Nat) (task : Task) (a : TaskAction) : Option World :=
  match task.pc, a with
  | .tested, .acquire => some { w.setPc t task .acquired with libks := w.libks.acquire }
  | .acquired, .allocate pool =>
      if pool then
        some { w.setPc t task (.allocated w.contexts.length) with
          contexts := w.contexts ++ [⟨task.server, true⟩] }
      else some (w.setPc t task .releasing)
  | .allocated ctx, .connect connected =>
      if connected then
        some { w.setPc t task .returned with handles := w.handles.set task.server (some ctx) }
      else
        some { w.setPc t task .releasing with
          contexts := w.contexts.set ctx ⟨task.server, false⟩ }
  | .found ctx, .detach =>
      some { w.setPc t task (.detached ctx) with handles := w.handles.set task.server none }
  | .detached ctx, .destroy =>
      some { w.setPc t task .releasing with
        contexts := w.contexts.set ctx ⟨task.server, false⟩ }
  | .releasing, .release => some { w.setPc t task .returned with libks := w.libks.release }
  | .working _, .work => some w
  | .working _, .finish => some (w.setPc t task .returned)
  | _, _ => none

def step (w : World) : Action → Option World
  | .serverOpen S =>
      w.handles[S]?.map fun handle =>
        match handle with
        | none => w.begin S .tested
        | some _ => w
  | .serverClose S =>
      w.handles[S]?.map fun handle =>
        match handle with
        | none => w
        | some ctx => w.begin S (.found ctx)
  | .rpcJson S =>
      w.handles[S]?.map fun handle =>
        match handle with
        | none => w
        | some ctx => w.begin S (.working ctx)
  | .task t a => w.tasks[t]?.bind fun task => w.taskStep t task a

/-- A server is opened and closed by one thread, so one such call at a time. -/
def OneAtATime (w : World) : Action → Prop
  | .serverOpen S | .serverClose S => ∀ task ∈ w.tasks, task.server = S → task.busy = false
  | _ => True

instance (w : World) (a : Action) : Decidable (OneAtATime w a) := by
  cases a with
  | serverOpen S | serverClose S =>
      exact inferInstanceAs
        (Decidable (∀ task ∈ w.tasks, task.server = S → task.busy = false))
  | rpcJson S | task t a => exact isTrue trivial

/-- The module is loaded: nothing is connected. -/
def Initial (w : World) : Prop := ∃ servers, w = { handles := List.replicate servers none }

/-- What a step of a task does. -/
inductive TaskEffect (w : World) (t : Nat) (task : Task) : TaskAction → World → Prop where
  | acquired (hpc : task.pc = .tested) :
      TaskEffect w t task .acquire { w.setPc t task .acquired with libks := w.libks.acquire }
  | allocated (hpc : task.pc = .acquired) :
      TaskEffect w t task (.allocate true)
        { w.setPc t task (.allocated w.contexts.length) with
          contexts := w.contexts ++ [⟨task.server, true⟩] }
  | noPool (hpc : task.pc = .acquired) :
      TaskEffect w t task (.allocate false) (w.setPc t task .releasing)
  | connected (ctx : Nat) (hpc : task.pc = .allocated ctx) :
      TaskEffect w t task (.connect true)
        { w.setPc t task .returned with handles := w.handles.set task.server (some ctx) }
  | refused (ctx : Nat) (hpc : task.pc = .allocated ctx) :
      TaskEffect w t task (.connect false)
        { w.setPc t task .releasing with contexts := w.contexts.set ctx ⟨task.server, false⟩ }
  | detached (ctx : Nat) (hpc : task.pc = .found ctx) :
      TaskEffect w t task .detach
        { w.setPc t task (.detached ctx) with handles := w.handles.set task.server none }
  | destroyed (ctx : Nat) (hpc : task.pc = .detached ctx) :
      TaskEffect w t task .destroy
        { w.setPc t task .releasing with contexts := w.contexts.set ctx ⟨task.server, false⟩ }
  | released (hpc : task.pc = .releasing) :
      TaskEffect w t task .release
        { w.setPc t task .returned with libks := w.libks.release }
  | worked (ctx : Nat) (hpc : task.pc = .working ctx) : TaskEffect w t task .work w
  | finished (ctx : Nat) (hpc : task.pc = .working ctx) :
      TaskEffect w t task .finish (w.setPc t task .returned)

theorem taskStep_effect {w w' : World} {t : Nat} {task : Task} {a : TaskAction}
    (h : w.taskStep t task a = some w') : TaskEffect w t task a w' := by
  unfold World.taskStep at h
  split at h
  · next hpc =>
      cases h
      exact .acquired hpc
  · next pool hpc =>
      cases pool <;> cases h
      · exact .noPool hpc
      · exact .allocated hpc
  · next ctx connected hpc =>
      cases connected <;> cases h
      · exact .refused ctx hpc
      · exact .connected ctx hpc
  · next ctx hpc =>
      cases h
      exact .detached ctx hpc
  · next ctx hpc =>
      cases h
      exact .destroyed ctx hpc
  · next hpc =>
      cases h
      exact .released hpc
  · next ctx hpc =>
      cases h
      exact .worked ctx hpc
  · next ctx hpc =>
      cases h
      exact .finished ctx hpc
  · cases h

/-- Who takes a step, and what it does. -/
inductive StepCase (w w' : World) : Action → Prop where
  /-- There is nothing to do for the call. -/
  | idle (a : Action) (ha : ∀ t action, a ≠ .task t action) (hstate : w' = w) : StepCase w w' a
  | opens (S : Nat) (hhandle : w.handles[S]? = some none) (hstate : w' = w.begin S .tested) :
      StepCase w w' (.serverOpen S)
  | closes (S ctx : Nat) (hhandle : w.handles[S]? = some (some ctx))
      (hstate : w' = w.begin S (.found ctx)) : StepCase w w' (.serverClose S)
  | calls (S ctx : Nat) (hhandle : w.handles[S]? = some (some ctx))
      (hstate : w' = w.begin S (.working ctx)) : StepCase w w' (.rpcJson S)
  | task (t : Nat) (task : Task) (action : TaskAction) (ht : w.tasks[t]? = some task)
      (heffect : TaskEffect w t task action w') : StepCase w w' (.task t action)

theorem step_case {w w' : World} {a : Action} (h : step w a = some w') : StepCase w w' a := by
  cases a with
  | serverOpen S =>
      obtain ⟨handle, hhandle, rfl⟩ := Option.map_eq_some_iff.mp h
      cases handle with
      | none => exact .opens S hhandle rfl
      | some ctx => exact .idle _ nofun rfl
  | serverClose S =>
      obtain ⟨handle, hhandle, rfl⟩ := Option.map_eq_some_iff.mp h
      cases handle with
      | none => exact .idle _ nofun rfl
      | some ctx => exact .closes S ctx hhandle rfl
  | rpcJson S =>
      obtain ⟨handle, hhandle, rfl⟩ := Option.map_eq_some_iff.mp h
      cases handle with
      | none => exact .idle _ nofun rfl
      | some ctx => exact .calls S ctx hhandle rfl
  | task t action =>
      obtain ⟨task, ht, hstep⟩ := Option.bind_eq_some_iff.mp h
      exact .task t task action ht (taskStep_effect hstep)

/-! ## References -/

/-- What a task relies on. -/
def TaskSound (w : World) (task : Task) : Prop :=
  match task.pc with
  | .tested | .acquired | .releasing => w.handles[task.server]? = some none
  | .allocated ctx | .detached ctx =>
      w.handles[task.server]? = some none ∧ w.contexts[ctx]? = some ⟨task.server, true⟩
  | .found ctx => w.handles[task.server]? = some (some ctx)
  | .working ctx => ∃ alive, w.contexts[ctx]? = some ⟨task.server, alive⟩
  | .returned => True

/-- Every reference to libks has its owner, a handle or a task, and so has every context
    that has not been destroyed. -/
structure Sound (w : World) : Prop where
  counted : w.libks.Counted
  refs : w.libks.refs = w.handles.countP Option.isSome + w.tasks.countP Task.holds
  handle : ∀ (S ctx : Nat), w.handles[S]? = some (some ctx) → w.contexts[ctx]? = some ⟨S, true⟩
  task : ∀ task ∈ w.tasks, TaskSound w task
  one : ∀ (t t' : Nat) (a b : Task), w.tasks[t]? = some a → w.tasks[t']? = some b →
    a.busy = true → b.busy = true → a.server = b.server → t = t'
  owned : ∀ (ctx S : Nat), w.contexts[ctx]? = some ⟨S, true⟩ →
    w.handles[S]? = some (some ctx) ∨
      ∃ task ∈ w.tasks, task.server = S ∧ (task.pc = .allocated ctx ∨ task.pc = .detached ctx)

/-- A context in the hands of a task is alive, and not the handle. -/
theorem TaskSound.inHands {w : World} {task : Task} {ctx : Nat} (h : TaskSound w task)
    (hpc : task.pc = .allocated ctx ∨ task.pc = .detached ctx) :
    w.handles[task.server]? = some none ∧ w.contexts[ctx]? = some ⟨task.server, true⟩ := by
  unfold TaskSound at h
  rcases hpc with hpc | hpc
  · rw [hpc] at h
    exact h
  · rw [hpc] at h
    exact h

theorem initial_sound {w : World} (h : Initial w) : Sound w := by
  obtain ⟨servers, rfl⟩ := h
  have hnone : ∀ (S ctx : Nat), (List.replicate servers (none : Option Nat))[S]? ≠
      some (some ctx) := by
    intro S ctx hhandle
    have := List.eq_of_mem_replicate (List.mem_of_getElem? hhandle)
    cases this
  refine ⟨rfl, ?_, ?_, nofun, nofun, nofun⟩
  · simp [List.countP_replicate]
  · intro S ctx hhandle
    exact absurd hhandle (hnone S ctx)

/-- A step concerns server `S` only: the handles and the contexts of the others are as they
    were, and no context changes hands. -/
structure Concerns (S : Nat) (w w' : World) : Prop where
  handles : ∀ T ≠ S, w'.handles[T]? = w.handles[T]?
  contexts : ∀ (ctx T : Nat) (alive : Bool), T ≠ S →
    (w'.contexts[ctx]? = some ⟨T, alive⟩ ↔ w.contexts[ctx]? = some ⟨T, alive⟩)
  kept : ∀ (ctx T : Nat) (alive : Bool), w.contexts[ctx]? = some ⟨T, alive⟩ →
    ∃ alive', w'.contexts[ctx]? = some ⟨T, alive'⟩

/-- A task of another server, or one that only works with a context, goes on as before. -/
theorem Concerns.taskSound {S : Nat} {w w' : World} (h : Concerns S w w') {task : Task}
    (hother : task.busy = false ∨ task.server ≠ S) (hsound : TaskSound w task) :
    TaskSound w' task := by
  unfold TaskSound at *
  cases hpc : task.pc with
  | returned => trivial
  | working ctx =>
      rw [hpc] at hsound
      obtain ⟨alive, hctx⟩ := hsound
      exact h.kept ctx task.server alive hctx
  | _ =>
      have hne : task.server ≠ S := by
        refine hother.resolve_left ?_
        simp [Task.busy, hpc]
      rw [hpc] at hsound
      simp only [h.handles _ hne, h.contexts _ _ _ hne]
      exact hsound

section Steps

variable {w w' : World} {t : Nat} {task : Task}

/-- The other tasks are still there. -/
theorem mem_tasks_of_ne {t' : Nat} {b : Task} {pc' : TaskPc}
    (htasks : w'.tasks = w.tasks.set t { task with pc := pc' }) (hne : t' ≠ t)
    (hb : w.tasks[t']? = some b) : w'.tasks[t']? = some b := by
  rw [htasks, List.getElem?_set_ne hne.symm, hb]

/-- A task after a step is the one that took it, or it was there before. -/
theorem task_after {t' : Nat} {b : Task} {pc' : TaskPc}
    (htasks : w'.tasks = w.tasks.set t { task with pc := pc' }) (hb : w'.tasks[t']? = some b) :
    (t' = t ∧ b = { task with pc := pc' }) ∨ (t' ≠ t ∧ w.tasks[t']? = some b) := by
  rw [htasks, List.getElem?_set] at hb
  split at hb
  · next heq =>
      split at hb <;> cases hb
      exact .inl ⟨heq.symm, rfl⟩
  · next hne => exact .inr ⟨fun h => hne h.symm, hb⟩

/-- The rule for a step of a task that opens or closes its server. -/
theorem Sound.busy_step (pc' : TaskPc) (hs : Sound w) (ht : w.tasks[t]? = some task)
    (hbusy : task.busy = true)
    (htasks : w'.tasks = w.tasks.set t { task with pc := pc' })
    (hconcerns : Concerns task.server w w') (hcounted : w'.libks.Counted)
    (hrefs : w'.libks.refs = w'.handles.countP Option.isSome + w'.tasks.countP Task.holds)
    (hnew : TaskSound w' { task with pc := pc' })
    (hhandle : ∀ ctx : Nat, w'.handles[task.server]? = some (some ctx) →
      w'.contexts[ctx]? = some ⟨task.server, true⟩)
    (howned : ∀ ctx : Nat, w'.contexts[ctx]? = some ⟨task.server, true⟩ →
      w'.handles[task.server]? = some (some ctx) ∨ pc' = .allocated ctx ∨ pc' = .detached ctx) :
    Sound w' := by
  -- another task is of another server, or it only works with a context
  have hother : ∀ (t' : Nat) (b : Task), t' ≠ t → w.tasks[t']? = some b →
      b.busy = false ∨ b.server ≠ task.server := by
    intro t' b hne hb
    cases hbusy' : b.busy with
    | false => exact .inl rfl
    | true =>
        refine .inr fun hserver => hne ?_
        exact hs.one t' t b task hb ht hbusy' hbusy hserver
  have hself : w'.tasks[t]? = some { task with pc := pc' } := by
    rw [htasks, List.getElem?_set_self]
    exact (List.getElem?_eq_some_iff.mp ht).1
  refine ⟨hcounted, hrefs, ?_, ?_, ?_, ?_⟩
  · intro S ctx hS
    by_cases heq : S = task.server
    · subst heq
      exact hhandle ctx hS
    · rw [hconcerns.handles S heq] at hS
      exact (hconcerns.contexts ctx S true heq).mpr (hs.handle S ctx hS)
  · intro b hb
    obtain ⟨t', hb⟩ := List.mem_iff_getElem?.mp hb
    rcases task_after htasks hb with ⟨-, rfl⟩ | ⟨hne, hold⟩
    · exact hnew
    · exact hconcerns.taskSound (hother t' b hne hold) (hs.task b (List.mem_of_getElem? hold))
  · intro t₁ t₂ a b ha hb hbusyA hbusyB hserver
    rcases task_after htasks ha with ⟨rfl, rfl⟩ | ⟨hneA, holdA⟩
    · rcases task_after htasks hb with ⟨rfl, rfl⟩ | ⟨hneB, holdB⟩
      · rfl
      · rcases hother t₂ b hneB holdB with hidle | hserver'
        · rw [hidle] at hbusyB
          cases hbusyB
        · exact absurd hserver.symm hserver'
    · rcases task_after htasks hb with ⟨rfl, rfl⟩ | ⟨hneB, holdB⟩
      · rcases hother t₁ a hneA holdA with hidle | hserver'
        · rw [hidle] at hbusyA
          cases hbusyA
        · exact absurd hserver hserver'
      · exact hs.one t₁ t₂ a b holdA holdB hbusyA hbusyB hserver
  · intro ctx S hctx
    by_cases heq : S = task.server
    · subst heq
      rcases howned ctx hctx with hhandle | hpc
      · exact .inl hhandle
      · exact .inr ⟨_, List.mem_of_getElem? hself, rfl, hpc⟩
    · rw [hconcerns.handles S heq]
      rcases hs.owned ctx S ((hconcerns.contexts ctx S true heq).mp hctx) with
        hhandle | ⟨b, hb, hserver, hpc⟩
      · exact .inl hhandle
      · obtain ⟨t', hb⟩ := List.mem_iff_getElem?.mp hb
        have hne : t' ≠ t := by
          rintro rfl
          rw [ht, Option.some.injEq] at hb
          exact heq (hb ▸ hserver.symm)
        exact .inr ⟨b, List.mem_of_getElem? (mem_tasks_of_ne htasks hne hb), hserver, hpc⟩

/-- The count of those who hold a reference after a step of a task. -/
theorem holds_set (pc' : TaskPc) (ht : w.tasks[t]? = some task) :
    (w.tasks.set t { task with pc := pc' }).countP Task.holds + weight Task.holds task =
      w.tasks.countP Task.holds + weight Task.holds { task with pc := pc' } :=
  countP_set ht _

end Steps

section Concerns

variable {w w' : World} {S : Nat}

theorem Concerns.of_same (hhandles : w'.handles = w.handles)
    (hcontexts : w'.contexts = w.contexts) : Concerns S w w' := by
  refine ⟨fun _ _ => by rw [hhandles], fun _ _ _ _ => by rw [hcontexts], ?_⟩
  intro ctx T alive hctx
  exact ⟨alive, hcontexts ▸ hctx⟩

theorem Concerns.handle (handle : Option Nat) (hhandles : w'.handles = w.handles.set S handle)
    (hcontexts : w'.contexts = w.contexts) : Concerns S w w' := by
  refine ⟨fun T hT => ?_, fun _ _ _ _ => by rw [hcontexts], ?_⟩
  · rw [hhandles, List.getElem?_set_ne hT.symm]
  · intro ctx T alive hctx
    exact ⟨alive, hcontexts ▸ hctx⟩

/-- A new context of `S` has a number of its own. -/
theorem Concerns.append (hhandles : w'.handles = w.handles)
    (hcontexts : w'.contexts = w.contexts ++ [⟨S, true⟩]) : Concerns S w w' := by
  refine ⟨fun _ _ => by rw [hhandles], ?_, ?_⟩
  · intro ctx T alive hT
    rw [hcontexts, List.getElem?_append]
    split
    · exact .rfl
    · next hlen =>
        rw [List.getElem?_eq_none (Nat.le_of_not_lt hlen)]
        refine ⟨fun hctx => ?_, nofun⟩
        have hmem := List.mem_of_getElem? hctx
        rw [List.mem_singleton, Context.mk.injEq] at hmem
        exact absurd hmem.1 hT
  · intro ctx T alive hctx
    refine ⟨alive, ?_⟩
    rw [hcontexts, List.getElem?_append_left (List.getElem?_eq_some_iff.mp hctx).1]
    exact hctx

/-- A context of `S` is destroyed. -/
theorem Concerns.destroy {c : Nat} (hhandles : w'.handles = w.handles)
    (hc : w.contexts[c]? = some ⟨S, true⟩)
    (hcontexts : w'.contexts = w.contexts.set c ⟨S, false⟩) : Concerns S w w' := by
  refine ⟨fun _ _ => by rw [hhandles], ?_, ?_⟩
  · intro ctx T alive hT
    rw [hcontexts]
    by_cases heq : ctx = c
    · subst heq
      rw [List.getElem?_set_self (List.getElem?_eq_some_iff.mp hc).1, hc]
      simp [hT.symm]
    · rw [List.getElem?_set_ne (Ne.symm heq)]
  · intro ctx T alive hctx
    rw [hcontexts]
    by_cases heq : ctx = c
    · subst heq
      rw [hc, Option.some.injEq, Context.mk.injEq] at hctx
      rw [List.getElem?_set_self (List.getElem?_eq_some_iff.mp hc).1]
      exact ⟨false, by rw [hctx.1]⟩
    · rw [List.getElem?_set_ne (Ne.symm heq)]
      exact ⟨alive, hctx⟩

end Concerns

/-- The owner of a context that `task` does not own is its handle. -/
theorem Sound.owned_self {w : World} (hs : Sound w) {t : Nat} {task : Task} {ctx : Nat}
    (ht : w.tasks[t]? = some task) (hbusy : task.busy = true)
    (hctx : w.contexts[ctx]? = some ⟨task.server, true⟩) :
    w.handles[task.server]? = some (some ctx) ∨ task.pc = .allocated ctx ∨
      task.pc = .detached ctx := by
  rcases hs.owned ctx task.server hctx with hhandle | ⟨b, hb, hserver, hpc⟩
  · exact .inl hhandle
  · obtain ⟨t', hb⟩ := List.mem_iff_getElem?.mp hb
    have hbusyB : b.busy = true := by
      rcases hpc with hpc | hpc <;> simp [Task.busy, hpc]
    have heq := hs.one t' t b task hb ht hbusyB hbusy hserver
    subst heq
    rw [ht, Option.some.injEq] at hb
    subst hb
    exact .inr hpc

/-- A context that is in no task's hands is the handle of its server. -/
theorem Sound.owned_handle {w : World} (hs : Sound w) {t : Nat} {task : Task} {ctx : Nat}
    (ht : w.tasks[t]? = some task) (hbusy : task.busy = true)
    (hallocated : task.pc ≠ .allocated ctx) (hdetached : task.pc ≠ .detached ctx)
    (hctx : w.contexts[ctx]? = some ⟨task.server, true⟩) :
    w.handles[task.server]? = some (some ctx) := by
  rcases hs.owned_self ht hbusy hctx with hhandle | hown | hown
  · exact hhandle
  · exact absurd hown hallocated
  · exact absurd hown hdetached

/-- The handle of a server is set or cleared. -/
theorem handles_set {w : World} {S : Nat} {handle : Option Nat} (h : w.handles[S]? = some handle)
    (handle' : Option Nat) :
    (w.handles.set S handle').countP Option.isSome + weight Option.isSome handle =
      w.handles.countP Option.isSome + weight Option.isSome handle' :=
  countP_set h _

theorem handle_self {w : World} {S : Nat} {handle : Option Nat} (h : w.handles[S]? = some handle)
    (handle' : Option Nat) : (w.handles.set S handle')[S]? = some handle' :=
  List.getElem?_set_self (List.getElem?_eq_some_iff.mp h).1

/-- After the end of a context no other one of its server is in a task's hands. -/
theorem Sound.not_owned {w : World} (hs : Sound w) {t : Nat} {task : Task} {c ctx : Nat}
    (ht : w.tasks[t]? = some task) (hbusy : task.busy = true)
    (hpc : task.pc = .allocated c ∨ task.pc = .detached c)
    (hnone : w.handles[task.server]? = some none)
    (hc : w.contexts[c]? = some ⟨task.server, true⟩) :
    (w.contexts.set c ⟨task.server, false⟩)[ctx]? ≠ some ⟨task.server, true⟩ := by
  intro hctx
  by_cases heq : ctx = c
  · subst heq
    rw [List.getElem?_set_self (List.getElem?_eq_some_iff.mp hc).1] at hctx
    cases hctx
  · rw [List.getElem?_set_ne (Ne.symm heq)] at hctx
    have hallocated : task.pc ≠ .allocated ctx := by
      rcases hpc with hpc | hpc <;> simp [hpc, Ne.symm heq]
    have hdetached : task.pc ≠ .detached ctx := by
      rcases hpc with hpc | hpc <;> simp [hpc, Ne.symm heq]
    have hhandle := hs.owned_handle ht hbusy hallocated hdetached hctx
    rw [hnone] at hhandle
    cases hhandle

/-- The rule for a task that ends its work with a context. -/
theorem Sound.finish {w : World} {t ctx : Nat} {task : Task} (hs : Sound w)
    (ht : w.tasks[t]? = some task) (hpc : task.pc = .working ctx) :
    Sound (w.setPc t task .returned) := by
  have htasks : (w.setPc t task .returned).tasks =
      w.tasks.set t { task with pc := .returned } := rfl
  refine ⟨hs.counted, ?_, hs.handle, ?_, ?_, ?_⟩
  · have hweight : weight Task.holds task = 0 := by simp [weight, Task.holds, hpc]
    have hset : _ + _ = _ + 0 := holds_set .returned ht
    have hrefs := hs.refs
    show w.libks.refs = w.handles.countP Option.isSome + (w.tasks.set t _).countP Task.holds
    omega
  · intro b hb
    obtain ⟨t', hb⟩ := List.mem_iff_getElem?.mp hb
    rcases task_after htasks hb with ⟨-, rfl⟩ | ⟨-, hold⟩
    · trivial
    · exact hs.task b (List.mem_of_getElem? hold)
  · intro t₁ t₂ a b ha hb hbusyA hbusyB hserver
    rcases task_after htasks ha with ⟨-, rfl⟩ | ⟨-, holdA⟩
    · cases hbusyA
    · rcases task_after htasks hb with ⟨-, rfl⟩ | ⟨-, holdB⟩
      · cases hbusyB
      · exact hs.one t₁ t₂ a b holdA holdB hbusyA hbusyB hserver
  · intro c S hctx
    rcases hs.owned c S hctx with hhandle | ⟨b, hb, hserver, hown⟩
    · exact .inl hhandle
    · obtain ⟨t', hb⟩ := List.mem_iff_getElem?.mp hb
      have hne : t' ≠ t := by
        rintro rfl
        rw [ht, Option.some.injEq] at hb
        subst hb
        simp [hpc] at hown
      exact .inr ⟨b, List.mem_of_getElem? (mem_tasks_of_ne htasks hne hb), hserver, hown⟩

/-- The rule for a call that begins. -/
theorem Sound.begin {w : World} {S : Nat} {pc : TaskPc} (hs : Sound w)
    (hnew : TaskSound w ⟨S, pc⟩) (hholds : Task.holds ⟨S, pc⟩ = false)
    (hfree : Task.busy ⟨S, pc⟩ = true →
      ∀ task ∈ w.tasks, task.server = S → task.busy = false) :
    Sound (w.begin S pc) := by
  have hbefore : ∀ (t : Nat) (b : Task), (w.tasks ++ [⟨S, pc⟩])[t]? = some b →
      w.tasks[t]? = some b ∨ (t = w.tasks.length ∧ b = ⟨S, pc⟩) := by
    intro t b hb
    rw [List.getElem?_append] at hb
    split at hb
    · exact .inl hb
    · have hlast := (List.getElem?_eq_some_iff.mp hb).1
      rw [List.length_singleton] at hlast
      exact .inr ⟨by omega, List.mem_singleton.mp (List.mem_of_getElem? hb)⟩
  refine ⟨hs.counted, ?_, hs.handle, ?_, ?_, ?_⟩
  · have hcount := countP_concat Task.holds w.tasks ⟨S, pc⟩
    rw [Census.weight_neg hholds] at hcount
    have hrefs := hs.refs
    show w.libks.refs = w.handles.countP Option.isSome + (w.tasks ++ _).countP Task.holds
    omega
  · intro b hb
    rcases List.mem_append.mp hb with hold | hlast
    · exact hs.task b hold
    · rw [List.mem_singleton.mp hlast]
      exact hnew
  · intro t₁ t₂ a b ha hb hbusyA hbusyB hserver
    rcases hbefore t₁ a ha with holdA | ⟨rfl, rfl⟩
    · rcases hbefore t₂ b hb with holdB | ⟨rfl, rfl⟩
      · exact hs.one t₁ t₂ a b holdA holdB hbusyA hbusyB hserver
      · rw [hfree hbusyB a (List.mem_of_getElem? holdA) hserver] at hbusyA
        cases hbusyA
    · rcases hbefore t₂ b hb with holdB | ⟨rfl, rfl⟩
      · rw [hfree hbusyA b (List.mem_of_getElem? holdB) hserver.symm] at hbusyB
        cases hbusyB
      · rfl
  · intro c T hctx
    rcases hs.owned c T hctx with hhandle | ⟨b, hb, hown⟩
    · exact .inl hhandle
    · exact .inr ⟨b, List.mem_append_left _ hb, hown⟩

theorem taskStep_sound {w w' : World} {t : Nat} {task : Task} {a : TaskAction} (hs : Sound w)
    (ht : w.tasks[t]? = some task) (h : TaskEffect w t task a w') : Sound w' := by
  have htask := hs.task task (List.mem_of_getElem? ht)
  have hrefs := hs.refs
  unfold TaskSound at htask
  have hcount := fun pc' => holds_set pc' ht
  cases h with
  | acquired hpc =>
      rw [hpc] at htask
      have hbusy : task.busy = true := by simp [Task.busy, hpc]
      have hweight : weight Task.holds task = 0 := by simp [weight, Task.holds, hpc]
      refine hs.busy_step .acquired ht hbusy rfl (.of_same rfl rfl)
        (acquire_counted hs.counted) ?_ htask (fun ctx hctx => hs.handle _ ctx hctx)
        fun ctx hctx => .inl (hs.owned_handle ht hbusy (by simp [hpc]) (by simp [hpc]) hctx)
      have hset : _ + _ = _ + 1 := hcount .acquired
      show w.libks.refs + 1 =
        w.handles.countP Option.isSome + (w.tasks.set t _).countP Task.holds
      omega
  | allocated hpc =>
      rw [hpc] at htask
      have hbusy : task.busy = true := by simp [Task.busy, hpc]
      have hweight : weight Task.holds task = 1 := by simp [weight, Task.holds, hpc]
      refine hs.busy_step (.allocated w.contexts.length) ht hbusy rfl (.append rfl rfl)
        hs.counted ?_ ⟨htask, List.getElem?_concat_length⟩ (fun ctx hctx => ?_)
        fun ctx hctx => ?_
      · have hset : _ + _ = _ + 1 := hcount (.allocated w.contexts.length)
        show w.libks.refs =
          w.handles.countP Option.isSome + (w.tasks.set t _).countP Task.holds
        omega
      · have hnone : w.handles[task.server]? = some (some ctx) := hctx
        rw [htask] at hnone
        cases hnone
      · rw [List.getElem?_append] at hctx
        split at hctx
        · exact .inl (hs.owned_handle ht hbusy (by simp [hpc]) (by simp [hpc]) hctx)
        · next hlen =>
            -- it is the new one
            have hlast := (List.getElem?_eq_some_iff.mp hctx).1
            rw [List.length_singleton] at hlast
            refine .inr (.inl (congrArg _ ?_))
            omega
  | noPool hpc =>
      rw [hpc] at htask
      have hbusy : task.busy = true := by simp [Task.busy, hpc]
      have hweight : weight Task.holds task = 1 := by simp [weight, Task.holds, hpc]
      refine hs.busy_step .releasing ht hbusy rfl (.of_same rfl rfl) hs.counted ?_
        htask (fun ctx hctx => hs.handle _ ctx hctx)
        fun ctx hctx => .inl (hs.owned_handle ht hbusy (by simp [hpc]) (by simp [hpc]) hctx)
      have hset : _ + _ = _ + 1 := hcount .releasing
      show w.libks.refs = w.handles.countP Option.isSome + (w.tasks.set t _).countP Task.holds
      omega
  | connected c hpc =>
      rw [hpc] at htask
      obtain ⟨hnone, hc⟩ := htask
      have hbusy : task.busy = true := by simp [Task.busy, hpc]
      have hweight : weight Task.holds task = 1 := by simp [weight, Task.holds, hpc]
      refine hs.busy_step .returned ht hbusy rfl (.handle _ rfl rfl) hs.counted ?_
        trivial (fun ctx hctx => ?_) fun ctx hctx => ?_
      · have hset : _ + _ = _ + 0 := hcount .returned
        have hhandles : _ + 0 = _ + 1 := handles_set hnone (some c)
        show w.libks.refs = (w.handles.set task.server (some c)).countP Option.isSome +
          (w.tasks.set t _).countP Task.holds
        omega
      · rw [handle_self hnone (some c)] at hctx
        cases hctx
        exact hc
      · -- its only context is the one that is connected
        rcases hs.owned_self ht hbusy hctx with hhandle | hown | hown
        · rw [hnone] at hhandle
          cases hhandle
        · rw [hpc] at hown
          cases hown
          exact .inl (handle_self hnone (some c))
        · rw [hpc] at hown
          cases hown
  | refused c hpc =>
      rw [hpc] at htask
      obtain ⟨hnone, hc⟩ := htask
      have hbusy : task.busy = true := by simp [Task.busy, hpc]
      have hweight : weight Task.holds task = 1 := by simp [weight, Task.holds, hpc]
      refine hs.busy_step .releasing ht hbusy rfl (.destroy rfl hc rfl) hs.counted ?_
        hnone (fun ctx hctx => ?_)
        fun ctx hctx => absurd hctx (hs.not_owned ht hbusy (.inl hpc) hnone hc)
      · have hset : _ + _ = _ + 1 := hcount .releasing
        show w.libks.refs = w.handles.countP Option.isSome + (w.tasks.set t _).countP Task.holds
        omega
      · have hsome : w.handles[task.server]? = some (some ctx) := hctx
        rw [hnone] at hsome
        cases hsome
  | detached c hpc =>
      rw [hpc] at htask
      have hbusy : task.busy = true := by simp [Task.busy, hpc]
      have hweight : weight Task.holds task = 0 := by simp [weight, Task.holds, hpc]
      have hcleared := handle_self htask none
      refine hs.busy_step (.detached c) ht hbusy rfl (.handle _ rfl rfl) hs.counted ?_
        ⟨hcleared, hs.handle _ _ htask⟩ (fun ctx hctx => ?_) fun ctx hctx => ?_
      · have hset : _ + _ = _ + 1 := hcount (.detached c)
        have hhandles : _ + 1 = _ + 0 := handles_set htask none
        show w.libks.refs = (w.handles.set task.server none).countP Option.isSome +
          (w.tasks.set t _).countP Task.holds
        omega
      · rw [hcleared] at hctx
        cases hctx
      · have hhandle := hs.owned_handle ht hbusy (by simp [hpc]) (by simp [hpc]) hctx
        rw [htask] at hhandle
        cases hhandle
        exact .inr (.inr rfl)
  | destroyed c hpc =>
      rw [hpc] at htask
      obtain ⟨hnone, hc⟩ := htask
      have hbusy : task.busy = true := by simp [Task.busy, hpc]
      have hweight : weight Task.holds task = 1 := by simp [weight, Task.holds, hpc]
      refine hs.busy_step .releasing ht hbusy rfl (.destroy rfl hc rfl) hs.counted ?_
        hnone (fun ctx hctx => ?_)
        fun ctx hctx => absurd hctx (hs.not_owned ht hbusy (.inr hpc) hnone hc)
      · have hset : _ + _ = _ + 1 := hcount .releasing
        show w.libks.refs = w.handles.countP Option.isSome + (w.tasks.set t _).countP Task.holds
        omega
      · have hsome : w.handles[task.server]? = some (some ctx) := hctx
        rw [hnone] at hsome
        cases hsome
  | released hpc =>
      rw [hpc] at htask
      have hbusy : task.busy = true := by simp [Task.busy, hpc]
      have hweight : weight Task.holds task = 1 := by simp [weight, Task.holds, hpc]
      refine hs.busy_step .returned ht hbusy rfl (.of_same rfl rfl)
        (release_counted hs.counted) ?_ trivial (fun ctx hctx => hs.handle _ ctx hctx)
        fun ctx hctx => .inl (hs.owned_handle ht hbusy (by simp [hpc]) (by simp [hpc]) hctx)
      have hset : _ + _ = _ + 0 := hcount .returned
      have hpos : 0 < w.libks.refs := by omega
      show w.libks.release.refs =
        w.handles.countP Option.isSome + (w.tasks.set t _).countP Task.holds
      rw [Libks.release, if_pos hpos]
      show w.libks.refs - 1 = _ + _
      omega
  | worked c hpc => exact hs
  | finished c hpc => exact hs.finish ht hpc

theorem step_sound {w w' : World} {a : Action} (hs : Sound w) (hguard : OneAtATime w a)
    (h : step w a = some w') : Sound w' := by
  cases step_case h with
  | idle _ _ hstate => exact hstate ▸ hs
  | opens S hhandle hstate =>
      subst hstate
      exact hs.begin hhandle rfl fun _ => hguard
  | closes S ctx hhandle hstate =>
      subst hstate
      exact hs.begin hhandle rfl fun _ => hguard
  | calls S ctx hhandle hstate =>
      subst hstate
      exact hs.begin ⟨true, hs.handle S ctx hhandle⟩ rfl nofun
  | task t task action ht heffect => exact taskStep_sound hs ht heffect

theorem reach_sound {w : World} (h : Reach step OneAtATime Initial w) : Sound w :=
  h.invariant (fun _ => initial_sound) fun _ _ _ hs hguard hstep => step_sound hs hguard hstep

/-! ## Who needs libks, and whose a context is -/

theorem Sound.refs_pos_iff {w : World} (hs : Sound w) :
    0 < w.libks.refs ↔
      (∃ S ctx : Nat, w.handles[S]? = some (some ctx)) ∨ ∃ task ∈ w.tasks, task.holds = true := by
  rw [hs.refs, Nat.add_pos_iff_pos_or_pos, List.countP_pos_iff, List.countP_pos_iff]
  refine or_congr_left ?_
  constructor
  · rintro ⟨handle, hmem, hsome⟩
    obtain ⟨ctx, rfl⟩ := Option.isSome_iff_exists.mp hsome
    obtain ⟨S, hS⟩ := List.mem_iff_getElem?.mp hmem
    exact ⟨S, ctx, hS⟩
  · rintro ⟨S, ctx, hS⟩
    exact ⟨some ctx, List.mem_of_getElem? hS, rfl⟩

/-- Between the calls, the shutdown of the module shuts libks down exactly when a server is
    still connected. -/
theorem globalShutdown_iff {w : World} (h : Reach step OneAtATime Initial w)
    (hidle : ∀ task ∈ w.tasks, task.busy = false) :
    w.libks.globalShutdown ≠ w.libks ↔ ∃ S ctx : Nat, w.handles[S]? = some (some ctx) := by
  have hs := reach_sound h
  have hnone : ¬ ∃ task ∈ w.tasks, task.holds = true := by
    rintro ⟨task, htask, hholds⟩
    exact not_holds_of_idle (hidle task htask) hholds
  have hpos := hs.refs_pos_iff.trans (or_iff_left hnone)
  rw [← hpos, Libks.globalShutdown]
  split
  · next hrefs =>
      refine iff_of_true ?_ hrefs
      intro heq
      rw [← heq] at hrefs
      exact absurd hrefs (Nat.lt_irrefl 0)
  · next hrefs => exact iff_of_false (fun hne => hne rfl) hrefs

/-- The thread of a server connects. -/
def connects : List Action :=
  [.serverOpen 0, .task 0 .acquire, .task 0 (.allocate true), .task 0 (.connect true)]

/-- The step destroys the context in a close of `S`. -/
def Destroys (S ctx : Nat) (w : World) (a : Action) : Prop :=
  ∃ t, a = .task t .destroy ∧ w.tasks[t]? = some ⟨S, .detached ctx⟩

/-- A context that is in use is not one that is being connected. -/
structure InUse (ctx : Nat) (w : World) : Prop where
  sound : Sound w
  made : ctx < w.contexts.length
  connected : ∀ task ∈ w.tasks, task.pc ≠ .allocated ctx

theorem inUse_begin {w : World} {S ctx : Nat} (hs : Sound w)
    (hhandle : w.handles[S]? = some (some ctx)) : InUse ctx (w.begin S (.working ctx)) := by
  have hctx := hs.handle S ctx hhandle
  refine ⟨hs.begin ⟨true, hctx⟩ rfl nofun, (List.getElem?_eq_some_iff.mp hctx).1, ?_⟩
  intro task htask hpc
  rcases List.mem_append.mp htask with hold | hlast
  · obtain ⟨hnone, halive⟩ := (hs.task task hold).inHands (.inl hpc)
    rw [hctx, Option.some.injEq, Context.mk.injEq] at halive
    rw [← halive.1, hhandle] at hnone
    cases hnone
  · rw [List.mem_singleton.mp hlast] at hpc
    cases hpc

/-- A step of a task connects no context that is made already. -/
theorem taskStep_connected {w w' : World} {t : Nat} {task : Task} {a : TaskAction} {ctx : Nat}
    (hmade : ctx < w.contexts.length)
    (hconnected : ∀ task ∈ w.tasks, task.pc ≠ .allocated ctx) (h : TaskEffect w t task a w') :
    ctx < w'.contexts.length ∧ ∀ task ∈ w'.tasks, task.pc ≠ .allocated ctx := by
  have hset : ∀ pc' : TaskPc, pc' ≠ .allocated ctx →
      ∀ b ∈ w.tasks.set t { task with pc := pc' }, b.pc ≠ .allocated ctx := by
    intro pc' hne b hb
    rcases List.mem_or_eq_of_mem_set hb with hold | rfl
    · exact hconnected b hold
    · exact hne
  cases h with
  | worked c hpc => exact ⟨hmade, hconnected⟩
  | allocated hpc =>
      refine ⟨?_, hset _ ?_⟩
      · show ctx < (w.contexts ++ _).length
        rw [List.length_append]
        omega
      · -- the new one has the next number
        intro heq
        cases heq
        exact absurd hmade (Nat.lt_irrefl _)
  | refused c hpc | destroyed c hpc =>
      refine ⟨?_, hset _ nofun⟩
      show ctx < (w.contexts.set c _).length
      rw [List.length_set]
      exact hmade
  | _ => exact ⟨hmade, hset _ nofun⟩

theorem inUse_step {w w' : World} {a : Action} {ctx : Nat} (hi : InUse ctx w)
    (hguard : OneAtATime w a) (h : step w a = some w') : InUse ctx w' := by
  have hsound := step_sound hi.sound hguard h
  have hbegin : ∀ (S : Nat) (pc : TaskPc), pc ≠ .allocated ctx →
      ∀ b ∈ (w.begin S pc).tasks, b.pc ≠ .allocated ctx := by
    intro S pc hne b hb
    rcases List.mem_append.mp hb with hold | hlast
    · exact hi.connected b hold
    · rw [List.mem_singleton.mp hlast]
      exact hne
  cases step_case h with
  | idle _ _ hstate => exact hstate ▸ hi
  | opens S hhandle hstate | closes S c hhandle hstate | calls S c hhandle hstate =>
      subst hstate
      exact ⟨hsound, hi.made, hbegin _ _ nofun⟩
  | task t task action ht heffect =>
      obtain ⟨hmade, hconnected⟩ := taskStep_connected hi.made hi.connected heffect
      exact ⟨hsound, hmade, hconnected⟩

/-- A context that is in use lives until it is destroyed in a close of its server. -/
theorem alive_step {w w' : World} {a : Action} {S ctx : Nat} (hi : InUse ctx w)
    (h : step w a = some w') :
    w'.contexts[ctx]? = some ⟨S, true⟩ ↔
      w.contexts[ctx]? = some ⟨S, true⟩ ∧ ¬ Destroys S ctx w a := by
  have hsame : (∀ t, a ≠ .task t .destroy) → w'.contexts[ctx]? = w.contexts[ctx]? →
      (w'.contexts[ctx]? = some ⟨S, true⟩ ↔
        w.contexts[ctx]? = some ⟨S, true⟩ ∧ ¬ Destroys S ctx w a) := by
    intro ha hcontexts
    rw [hcontexts, and_iff_left]
    rintro ⟨t, hdestroy, -⟩
    exact ha t hdestroy
  cases step_case h with
  | idle _ ha hstate =>
      subst hstate
      exact hsame (fun t => ha t _) rfl
  | opens T hhandle hstate | closes T c hhandle hstate | calls T c hhandle hstate =>
      subst hstate
      exact hsame nofun rfl
  | task t task action ht heffect =>
      cases heffect with
      | allocated hpc =>
          refine hsame nofun ?_
          exact List.getElem?_append_left hi.made
      | refused c hpc =>
          refine hsame nofun (List.getElem?_set_ne ?_)
          rintro rfl
          exact hi.connected task (List.mem_of_getElem? ht) hpc
      | destroyed c hpc =>
          obtain ⟨-, hc⟩ := (hi.sound.task task (List.mem_of_getElem? ht)).inHands (.inr hpc)
          show (w.contexts.set c _)[ctx]? = _ ↔ _
          by_cases heq : c = ctx
          · subst heq
            rw [List.getElem?_set_self hi.made]
            refine ⟨nofun, ?_⟩
            rintro ⟨halive, hkept⟩
            obtain ⟨server, pc⟩ := task
            rw [hc, Option.some.injEq, Context.mk.injEq] at halive
            obtain ⟨hserver, -⟩ := halive
            cases hserver
            cases hpc
            exact absurd ⟨t, rfl, ht⟩ hkept
          · rw [List.getElem?_set_ne heq, and_iff_left]
            rintro ⟨t', hdestroy, ht'⟩
            cases hdestroy
            rw [ht, Option.some.injEq] at ht'
            subst ht'
            cases hpc
            exact heq rfl
      | _ => exact hsame nofun rfl

/-- The context that a call of `janus_ws_rpc_json` works with has been destroyed exactly
    when the server's thread has since closed the connection: nothing makes the close wait
    for the call. -/
theorem closed_under_call_iff {w u w' : World} {S ctx : Nat} {as : List Action}
    (h : Reach step OneAtATime Initial w) (hhandle : w.handles[S]? = some (some ctx))
    (hcall : step w (.rpcJson S) = some u) (hrun : exec step OneAtATime u as = some w') :
    w'.contexts[ctx]? ≠ some ⟨S, true⟩ ↔
      ∃ before t later v, as = before ++ .task t .destroy :: later ∧
        exec step OneAtATime u before = some v ∧ v.tasks[t]? = some ⟨S, .detached ctx⟩ := by
  have hs := reach_sound h
  have hu : u = w.begin S (.working ctx) := by
    rw [step, hhandle] at hcall
    exact (Option.some.inj hcall).symm
  subst hu
  have halive : (w.begin S (.working ctx)).contexts[ctx]? = some ⟨S, true⟩ :=
    hs.handle S ctx hhandle
  have hkept : w'.contexts[ctx]? = some ⟨S, true⟩ ↔
      Never step OneAtATime (Destroys S ctx) (w.begin S (.working ctx)) as :=
    (exec_unspoiled_iff (I := InUse ctx) (P := fun v => v.contexts[ctx]? = some ⟨S, true⟩)
      (fun _ _ _ hi hguard hstep => inUse_step hi hguard hstep)
      (fun _ _ _ hi _ hstep => alive_step hi hstep) (inUse_begin hs hhandle) hrun).trans
        (and_iff_right halive)
  rw [Ne, hkept, not_never_iff]
  constructor
  · rintro ⟨before, a, later, v, has, hbefore, t, rfl, ht⟩
    exact ⟨before, t, later, v, has, hbefore, ht⟩
  · rintro ⟨before, t, later, v, has, hbefore, ht⟩
    exact ⟨before, _, later, v, has, hbefore, t, rfl, ht⟩

/-- A call is under way when the thread of the server closes the connection. -/
def closesUnderCall : List Action :=
  [.serverClose 0, .task 2 .detach, .task 2 .destroy]

theorem closed_under_call_iff_closes :
    ∃ w u w', step w (.rpcJson 0) = some u ∧
      exec step OneAtATime u closesUnderCall = some w' ∧
      w'.tasks[1]? = some ⟨0, .working 0⟩ ∧
      ∃ before t later v, closesUnderCall = before ++ .task t .destroy :: later ∧
        exec step OneAtATime u before = some v ∧ v.tasks[t]? = some ⟨0, .detached 0⟩ := by
  have h0 : Initial { handles := [none] } := ⟨1, rfl⟩
  obtain ⟨w, hw, hp⟩ := reach_of_exec step OneAtATime h0 connects
    (fun w => decide (w.handles[0]? = some (some 0)) &&
      ((step w (.rpcJson 0)).bind fun u =>
        (exec step OneAtATime u closesUnderCall).map fun w' =>
          decide (w'.tasks[1]? = some ⟨0, .working 0⟩ ∧
            w'.contexts[0]? ≠ some ⟨0, true⟩)) = some true)
    (by decide)
  obtain ⟨hhandle, hlater⟩ :=
    (Bool.and_eq_true_iff.mp hp).imp of_decide_eq_true of_decide_eq_true
  obtain ⟨u, hcall, hlater⟩ := Option.bind_eq_some_iff.mp hlater
  obtain ⟨w', hrun, hafter⟩ := Option.map_eq_some_iff.mp hlater
  obtain ⟨hworking, hdead⟩ := of_decide_eq_true hafter
  exact ⟨w, u, w', hcall, hrun, hworking,
    (closed_under_call_iff hw hhandle hcall hrun).mp hdead⟩

end ModJanus.Ws.Connection
