/-
  ModJanus.Server.Teardown

  The loop that hangs up the legs of a refused session.

  `hashIterate` advances an iterator of FreeSWITCH, which reads the entry that it stands
  on.  The loop deletes the entry of the leg it has just hung up, and that is the one the
  iterator stands on.  The entries of a table stand in any order, so that a statement
  about every table is one about every layout of its buckets.
-/
import ModJanus.Lib.Cursor
import ModJanus.Server.Thread

namespace ModJanus.Servers

/-! ## The iterator -/

/-- The iterator stands on an entry that is not in the table any more. -/
inductive HashError where
  | staleIndex
  deriving DecidableEq, Repr

/-- `hashIterate`: the entry that `pIndex` comes to, or the null pointer behind the last. -/
def hashIterate {α : Type} (pHash : Hash α) (pIndex : Option JanusId) :
    Except HashError (Option (JanusId × α)) :=
  match Cursor.next (hashIds pHash) pIndex with
  | none => .error .staleIndex
  | some none => .ok none
  | some (some id) => .ok ((hashFind pHash id).map fun pVal => (id, pVal))

section Iterator

variable {α : Type} {pHash : Hash α} {pIndex : Option JanusId} {id : JanusId} {pVal : α}

theorem hashIds_nodup (pHash : Hash α) : (hashIds pHash).Nodup := pHash.nodupKeys

theorem hashIds_hashDelete (pHash : Hash α) (id : JanusId) :
    hashIds (hashDelete pHash id).1 = (hashIds pHash).erase id := AList.keys_erase id pHash

theorem hashIds_eq_nil_iff : hashIds pHash = [] ↔ pHash = ∅ := by
  constructor
  · intro h
    exact AList.ext (List.map_eq_nil_iff.mp h)
  · rintro rfl
    rfl

theorem hashFind_isSome_iff : (hashFind pHash id).isSome = true ↔ id ∈ hashIds pHash :=
  AList.lookup_isSome

theorem hashIterate_ok (h : hashIterate pHash pIndex = .ok (some (id, pVal))) :
    Cursor.next (hashIds pHash) pIndex = some (some id) ∧ hashFind pHash id = some pVal := by
  unfold hashIterate at h
  split at h
  · cases h
  · cases h
  · next id' hnext =>
      obtain ⟨a, hfind, heq⟩ := Option.map_eq_some_iff.mp (Except.ok.inj h)
      cases heq
      exact ⟨hnext, hfind⟩

theorem hashIterate_of_next (h : Cursor.next (hashIds pHash) pIndex = some (some id)) :
    ∃ pVal, hashIterate pHash pIndex = .ok (some (id, pVal)) := by
  have hmem : (hashFind pHash id).isSome = true := hashFind_isSome_iff.mpr (Cursor.next_mem h)
  obtain ⟨pVal, hfind⟩ := Option.isSome_iff_exists.mp hmem
  refine ⟨pVal, ?_⟩
  simp only [hashIterate, h, hfind, Option.map_some]

theorem hashIterate_stale (h : hashFind pHash id = none) :
    hashIterate pHash (some id) = .error .staleIndex := by
  have hnone : Cursor.next (hashIds pHash) (some id) = none := by
    rw [Cursor.next_eq_none_iff, ← hashFind_isSome_iff, h]
    exact Bool.false_ne_true
  rw [hashIterate, hnone]

/-- Behind the last entry of a table the iterator stood on an entry of it, unless it had
    not been set. -/
theorem hashIterate_end (h : hashIterate pHash (some id) = .ok none) : pHash ≠ ∅ := by
  rintro rfl
  rw [hashIterate_stale rfl] at h
  cases h

end Iterator

/-! ## The loop -/

/-- What the loop has done when it ends, or when it advances a stale iterator. -/
structure Teardown where
  /-- The legs that were hung up, in order. -/
  hungUp : List Nat
  senderIdLookup : Hash Nat
  stale : Bool
  deriving DecidableEq

/-- The loop of `server_thread_run` for a refused claim. -/
def teardown (senderIdOf : Nat → JanusId) (senderIdLookup : Hash Nat) (pIndex : Option JanusId) :
    Teardown :=
  match _h : hashIterate senderIdLookup pIndex with
  | .error .staleIndex => { hungUp := [], senderIdLookup := senderIdLookup, stale := true }
  | .ok none => { hungUp := [], senderIdLookup := senderIdLookup, stale := false }
  | .ok (some (id, leg)) =>
      let rest := teardown senderIdOf (hashDelete senderIdLookup (senderIdOf leg)).1 (some id)
      { rest with hungUp := leg :: rest.hungUp }
termination_by Cursor.distance (hashIds senderIdLookup) pIndex
decreasing_by
  -- whichever entry is deleted, there are fewer behind the iterator
  rw [hashIds_hashDelete]
  exact Cursor.distance_erase_lt (hashIds_nodup _) (hashIterate_ok _h).1

/-- Every leg of the table was hung up exactly once, and the table is empty. -/
def Teardown.Complete (done : Teardown) (senderIdLookup : Hash Nat) : Prop :=
  done.stale = false ∧ done.senderIdLookup = ∅ ∧ done.hungUp.Nodup ∧
    ∀ leg, leg ∈ done.hungUp ↔ ∃ id, hashFind senderIdLookup id = some leg

/-- Every leg stands in the table under its own id. -/
def FiledBySenderId (senderIdOf : Nat → JanusId) (senderIdLookup : Hash Nat) : Prop :=
  ∀ id leg, hashFind senderIdLookup id = some leg → senderIdOf leg = id

section Loop

variable {senderIdOf : Nat → JanusId} {senderIdLookup : Hash Nat} {pIndex : Option JanusId}
  {id : JanusId} {leg : Nat}

theorem teardown_stale (h : hashIterate senderIdLookup pIndex = .error .staleIndex) :
    teardown senderIdOf senderIdLookup pIndex =
      { hungUp := [], senderIdLookup := senderIdLookup, stale := true } := by
  rw [teardown]
  split <;> simp_all

theorem teardown_end (h : hashIterate senderIdLookup pIndex = .ok none) :
    teardown senderIdOf senderIdLookup pIndex =
      { hungUp := [], senderIdLookup := senderIdLookup, stale := false } := by
  rw [teardown]
  split <;> simp_all

theorem teardown_round (h : hashIterate senderIdLookup pIndex = .ok (some (id, leg))) :
    teardown senderIdOf senderIdLookup pIndex =
      let rest := teardown senderIdOf (hashDelete senderIdLookup (senderIdOf leg)).1 (some id)
      { rest with hungUp := leg :: rest.hungUp } := by
  rw [teardown]
  split <;> simp_all

/-- A round does to the table what the thread does in a step of its own. -/
theorem refuse_round {pServer : Server} {pIds : List JanusId}
    (h : hashIterate pServer.senderIdLookup pIndex = .ok (some (id, leg))) :
    pServer.refuse pIds (fun leg => some (senderIdOf leg)) (some id) =
      some { pServer with
        senderIdLookup := (hashDelete pServer.senderIdLookup (senderIdOf leg)).1
        pc := .refusing (pIds.erase id) } := by
  obtain ⟨-, hfind⟩ := hashIterate_ok h
  rw [Server.refuse, hfind]
  rfl

/-- A loop that has visited an entry and comes to the end leaves the last one it visited. -/
theorem teardown_leaves (h : (teardown senderIdOf senderIdLookup (some id)).stale = false) :
    (teardown senderIdOf senderIdLookup (some id)).senderIdLookup ≠ ∅ := by
  generalize hindex : some id = pIndex at h ⊢
  induction senderIdLookup, pIndex using teardown.induct senderIdOf generalizing id with
  | case1 senderIdLookup pIndex hiterate =>
      rw [teardown_stale hiterate] at h
      cases h
  | case2 senderIdLookup pIndex hiterate =>
      subst hindex
      rw [teardown_end hiterate]
      exact hashIterate_end hiterate
  | case3 senderIdLookup pIndex id' leg hiterate ih =>
      rw [teardown_round hiterate] at h ⊢
      exact ih rfl h

/-- With every leg under its own id, the first one is hung up, its entry is deleted, and
    the iterator is stale. -/
theorem teardown_filed (hfiled : FiledBySenderId senderIdOf senderIdLookup)
    (h : hashIterate senderIdLookup pIndex = .ok (some (id, leg))) :
    teardown senderIdOf senderIdLookup pIndex =
      { hungUp := [leg], senderIdLookup := (hashDelete senderIdLookup id).1, stale := true } := by
  obtain ⟨-, hfind⟩ := hashIterate_ok h
  have hstale : hashIterate (hashDelete senderIdLookup id).1 (some id) = .error .staleIndex :=
    hashIterate_stale (hashFind_hashDelete senderIdLookup id)
  rw [teardown_round h, hfiled id leg hfind, teardown_stale hstale]

end Loop

/-- The loop does what it is for when the table is empty, and then there is nothing to do. -/
theorem teardown_complete_iff (senderIdOf : Nat → JanusId) (senderIdLookup : Hash Nat) :
    (teardown senderIdOf senderIdLookup none).Complete senderIdLookup ↔ senderIdLookup = ∅ := by
  constructor
  · intro hcomplete
    by_contra hne
    have hkeys : hashIds senderIdLookup ≠ [] := fun hnil => hne (hashIds_eq_nil_iff.mp hnil)
    obtain ⟨id, rest, hids⟩ := List.exists_cons_of_ne_nil hkeys
    have hnext : Cursor.next (hashIds senderIdLookup) none = some (some id) := by
      rw [hids]
      rfl
    obtain ⟨leg, hiterate⟩ := hashIterate_of_next hnext
    obtain ⟨hstale, hempty, -⟩ := hcomplete
    rw [teardown_round hiterate] at hstale hempty
    exact teardown_leaves hstale hempty
  · rintro rfl
    rw [teardown_end rfl]
    refine ⟨rfl, rfl, List.nodup_nil, fun leg => ?_⟩
    constructor
    · intro hmem
      cases hmem
    · rintro ⟨id, hfind⟩
      cases hfind

/-- A table with one leg: the iterator is advanced from the entry that was deleted. -/
theorem teardown_one_leg :
    ¬ ∀ (senderIdOf : Nat → JanusId) (senderIdLookup : Hash Nat),
      (teardown senderIdOf senderIdLookup none).Complete senderIdLookup := by
  intro h
  have hiterate : hashIterate (hashInsert ∅ 11 0) none = .ok (some (11, 0)) := rfl
  have hfiled : FiledBySenderId (fun _ => 11) (hashInsert ∅ 11 0) := by
    intro id leg hfind
    rcases hashFind_hashInsert_eq_some hfind with ⟨rfl, -⟩ | ⟨-, hold⟩
    · rfl
    · cases hold
  obtain ⟨hstale, -⟩ := h (fun _ => 11) (hashInsert ∅ 11 0)
  rw [teardown_filed hfiled hiterate] at hstale
  cases hstale

end ModJanus.Servers
