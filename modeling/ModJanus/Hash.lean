/-
  ModJanus.Hash

  hash.c: tables keyed by a Janus id.

  The wrapper turns the id into its decimal form and locks the table around each
  operation, so that an operation is atomic and the form of the key plays no part.
  An insertion replaces the entry of the same key.
-/
import Mathlib.Data.List.AList
import ModJanus.Basic

namespace ModJanus

/-- `hash_t` with values of type `α`: at most one entry for an id. -/
abbrev Hash (α : Type) := AList fun _ : JanusId => α

variable {α : Type}

/-- `hashInsert`, when it succeeds. -/
def hashInsert (pHash : Hash α) (id : JanusId) (pData : α) : Hash α := pHash.insert id pData

/-- `hashFind`. -/
def hashFind (pHash : Hash α) (id : JanusId) : Option α := pHash.lookup id

/-- `hashDelete`, with the status that says whether there was an entry. -/
def hashDelete (pHash : Hash α) (id : JanusId) : Hash α × Status :=
  (pHash.erase id, if (pHash.lookup id).isSome then .success else .false)

/-- The ids of the entries, as `hashIterate` visits them. -/
def hashIds (pHash : Hash α) : List JanusId := pHash.keys

@[simp] theorem hashFind_hashInsert (pHash : Hash α) (id : JanusId) (pData : α) :
    hashFind (hashInsert pHash id pData) id = some pData :=
  AList.lookup_insert pHash

theorem hashFind_hashInsert_ne (pHash : Hash α) {id id' : JanusId} (h : id' ≠ id) (pData : α) :
    hashFind (hashInsert pHash id pData) id' = hashFind pHash id' :=
  AList.lookup_insert_ne h

@[simp] theorem hashFind_hashDelete (pHash : Hash α) (id : JanusId) :
    hashFind (hashDelete pHash id).1 id = none :=
  AList.lookup_erase id pHash

theorem hashFind_hashDelete_ne (pHash : Hash α) {id id' : JanusId} (h : id' ≠ id) :
    hashFind (hashDelete pHash id).1 id' = hashFind pHash id' :=
  AList.lookup_erase_ne h

/-- What is found after an insertion is the new entry or was there before. -/
theorem hashFind_hashInsert_eq_some {pHash : Hash α} {id id' : JanusId} {pData a : α}
    (h : hashFind (hashInsert pHash id pData) id' = some a) :
    (id' = id ∧ a = pData) ∨ (id' ≠ id ∧ hashFind pHash id' = some a) := by
  by_cases hid : id' = id
  · subst hid
    rw [hashFind_hashInsert] at h
    exact .inl ⟨rfl, (Option.some.inj h).symm⟩
  · rw [hashFind_hashInsert_ne pHash hid] at h
    exact .inr ⟨hid, h⟩

/-- What is found after a deletion was there before, under another id. -/
theorem hashFind_hashDelete_eq_some {pHash : Hash α} {id id' : JanusId} {a : α}
    (h : hashFind (hashDelete pHash id).1 id' = some a) :
    id' ≠ id ∧ hashFind pHash id' = some a := by
  by_cases hid : id' = id
  · subst hid
    rw [hashFind_hashDelete] at h
    cases h
  · rw [hashFind_hashDelete_ne pHash hid] at h
    exact ⟨hid, h⟩

/-! ## Entries of one table in another -/

/-- Every entry of `pHash` is one of `pHash'`. -/
def HashSubset (pHash pHash' : Hash α) : Prop :=
  ∀ id a, hashFind pHash id = some a → hashFind pHash' id = some a

theorem HashSubset.refl (pHash : Hash α) : HashSubset pHash pHash := fun _ _ h => h

theorem hashSubset_empty (pHash : Hash α) : HashSubset ∅ pHash := by
  intro id a h
  cases h

theorem hashSubset_hashDelete (pHash : Hash α) (id : JanusId) :
    HashSubset (hashDelete pHash id).1 pHash := by
  intro id' a h
  exact (hashFind_hashDelete_eq_some h).2

/-- Some entry has the value `a`. -/
def hashHolds [DecidableEq α] (pHash : Hash α) (a : α) : Bool :=
  pHash.entries.any fun entry => entry.2 = a

theorem hashHolds_of_hashFind [DecidableEq α] {pHash : Hash α} {id : JanusId} {a : α}
    (h : hashFind pHash id = some a) : hashHolds pHash a = true := by
  have hentry : (⟨id, a⟩ : Sigma fun _ => α) ∈ pHash.entries := AList.mem_lookup_iff.mp h
  exact List.any_eq_true.mpr ⟨⟨id, a⟩, hentry, by simp⟩

end ModJanus
