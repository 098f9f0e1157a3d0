/-
  ModJanus.Text.Keys

  hash.c as it stands: a table of FreeSWITCH with texts for keys, and the decimal form of
  the id for the text.

  No run of insertions, searches and deletions can tell it from a table that has the ids
  themselves for keys, which is what the rest of the development uses: two ids never have
  the same text.
-/
import ModJanus.Hash
import ModJanus.Lib.Mealy
import ModJanus.Text.Wire

namespace ModJanus

variable {α : Type}

/-! ## The two tables -/

/-- `pTable` of `hash_t`. -/
abbrev TextTable (α : Type) := AList fun _ : String => α

/-- `idToStr`. -/
def idToStr (id : JanusId) : String := decimal id

/-- A call of hash.c.  What `hashIterate` comes to in a whole loop is one call here. -/
inductive HashCall (α : Type) where
  | insert (id : JanusId) (pData : α)
  | find (id : JanusId)
  | delete (id : JanusId)
  | iterate

/-- What a call returns. -/
inductive HashReturn (α : Type) where
  | found (pResult : Option α)
  | status (status : Status)
  | values (pVals : List α)
  deriving DecidableEq

/-- The functions of hash.c, when an insertion succeeds. -/
def TextTable.call (pTable : TextTable α) : HashCall α → TextTable α × Option (HashReturn α)
  | .insert id pData => (pTable.insert (idToStr id) pData, some (.status .success))
  | .find id => (pTable, some (.found (pTable.lookup (idToStr id))))
  | .delete id =>
      (pTable.erase (idToStr id),
        some (.status (if (pTable.lookup (idToStr id)).isSome then .success else .false)))
  | .iterate => (pTable, some (.values (pTable.entries.map Sigma.snd)))

/-- The same with the ids for keys. -/
def hashCall (pHash : Hash α) : HashCall α → Hash α × Option (HashReturn α)
  | .insert id pData => (hashInsert pHash id pData, some (.status .success))
  | .find id => (pHash, some (.found (hashFind pHash id)))
  | .delete id => ((hashDelete pHash id).1, some (.status (hashDelete pHash id).2))
  | .iterate => (pHash, some (.values (pHash.entries.map Sigma.snd)))

/-! ## They agree -/

theorem idToStr_injective : Function.Injective idToStr := fun _ _ => decimal_inj

/-- The entry of an id, under its text. -/
def textEntry (entry : Sigma fun _ : JanusId => α) : Sigma fun _ : String => α :=
  ⟨idToStr entry.1, entry.2⟩

/-- The texts of the ids are the keys. -/
def SameEntries (pTable : TextTable α) (pHash : Hash α) : Prop :=
  pTable.entries = pHash.entries.map textEntry

theorem kerase_textEntry (entries : List (Sigma fun _ : JanusId => α)) (id : JanusId) :
    (entries.map textEntry).kerase (idToStr id) = (entries.kerase id).map textEntry := by
  unfold List.kerase
  rw [List.eraseP_map]
  congr 2
  funext entry
  exact decide_eq_decide.mpr idToStr_injective.eq_iff

variable {pTable : TextTable α} {pHash : Hash α} {id : JanusId}

theorem SameEntries.lookup (h : SameEntries pTable pHash) :
    pTable.lookup (idToStr id) = hashFind pHash id := by
  show List.dlookup (idToStr id) pTable.entries = List.dlookup id pHash.entries
  rw [h]
  exact List.dlookup_map₁ pHash.entries idToStr_injective id

theorem SameEntries.erase (h : SameEntries pTable pHash) :
    SameEntries (pTable.erase (idToStr id)) (hashDelete pHash id).1 := by
  show List.kerase (idToStr id) pTable.entries = (List.kerase id pHash.entries).map textEntry
  rw [h, kerase_textEntry]

theorem SameEntries.insert (pData : α) (h : SameEntries pTable pHash) :
    SameEntries (pTable.insert (idToStr id) pData) (hashInsert pHash id pData) := by
  have herase : List.kerase (idToStr id) pTable.entries =
      (List.kerase id pHash.entries).map textEntry := h.erase
  show List.kinsert (idToStr id) pData pTable.entries =
    (List.kinsert id pData pHash.entries).map textEntry
  rw [List.kinsert_def, List.kinsert_def, herase]
  rfl

theorem SameEntries.call (h : SameEntries pTable pHash) (call : HashCall α) :
    SameEntries (pTable.call call).1 (hashCall pHash call).1 ∧
      (pTable.call call).2 = (hashCall pHash call).2 := by
  cases call with
  | insert id pData => exact ⟨h.insert pData, rfl⟩
  | find id => exact ⟨h, by rw [TextTable.call, hashCall, h.lookup]⟩
  | delete id => exact ⟨h.erase, by rw [TextTable.call, hashCall, hashDelete, h.lookup]; rfl⟩
  | iterate =>
      refine ⟨h, ?_⟩
      rw [TextTable.call, hashCall, h, List.map_map]
      rfl

/-- Every run of calls returns what it returns on a table with the ids for keys. -/
theorem text_keys_play_no_part (calls : List (HashCall α)) :
    Mealy.outputs TextTable.call (∅ : TextTable α) calls =
      Mealy.outputs hashCall (∅ : Hash α) calls :=
  Mealy.outputs_eq_of_related (R := SameEntries) (fun _ _ call h => h.call call) rfl

end ModJanus
