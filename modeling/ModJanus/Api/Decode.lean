/-
  ModJanus.Api.Decode

  `decode` of api.c: the fields of a Janus message, read out of its JSON.

  Every field is optional; a field that is there with the wrong type makes
  `decode` give up.  `decode_eq_none_iff` says on the JSON alone when that
  happens (`DecodeRejects`), and `decode_pType` that a message that is not
  rejected has a type exactly when the JSON has a `janus` member.
-/
import ModJanus.Json

namespace ModJanus

/-- `JANUS_PLUGIN`. -/
def JANUS_PLUGIN : String := "janus.plugin.audiobridge"

/-- The fields of `message_t` that `decode` fills in; a field that was not
    received keeps the zero of `switch_zmalloc`. -/
structure Message where
  pType : Option String
  serverId : JanusId
  pTransactionId : Option String
  senderId : JanusId
  pJsonBody : Option CJson
  pJsonJsep : Option CJson
  pCandidate : Option String

/-- A member that may be absent but, when it is there, has to be read by `read`.
    The outer `none` is the `return NULL` of `decode`. -/
def checked {α : Type} (item : Option CJson) (read : CJson → Option α) : Option (Option α) :=
  match item with
  | none => some none
  | some json => (read json).map some

/-- An object item, as itself. -/
def CJson.asObject (json : CJson) : Option CJson := if json.isObject then some json else none

/-- A number item, as a Janus id. -/
def CJson.asId (json : CJson) : Option JanusId :=
  if json.isNumber then some json.valuedouble.toJanusId else none

/-- The `plugindata` branch of `decode`: the plugin has to be the audiobridge and
    its data an object. -/
def decodePluginData (pluginData : CJson) : Option CJson :=
  if pluginData.isObject then
    if valuestring (getObjectItem (some pluginData) "plugin") = some JANUS_PLUGIN then
      (getObjectItem (some pluginData) "data").bind CJson.asObject
    else none
  else none

/-- The `candidate` branch of `decode`: the `pCandidate` of a trickle message,
    the empty string when gathering is complete. -/
def decodeCandidate (candidate : CJson) : Option (Option String) :=
  if candidate.isObject then
    match getObjectItem (some candidate) "completed" with
    | some completed => if completed.isTrue then some (some "") else none
    | none => checked (getObjectItem (some candidate) "candidate") CJson.valuestring
  else none

/-- `pJsonBody` and `pCandidate`.  A `data` member hides `plugindata`, and either
    of them hides `candidate`. -/
def decodeBody (response : CJson) : Option (Option CJson × Option String) :=
  match getObjectItem (some response) "data" with
  | some data => data.asObject.map fun body => (some body, none)
  | none =>
      match getObjectItem (some response) "plugindata" with
      | some pluginData => (decodePluginData pluginData).map fun body => (some body, none)
      | none =>
          match getObjectItem (some response) "candidate" with
          | some candidate => (decodeCandidate candidate).map fun c => (none, c)
          | none => some (none, none)

/-- `decode` of api.c; `none` is the null pointer it returns for a response that
    is missing or has a field of the wrong type. -/
def decode (pJsonResponse : Option CJson) : Option Message := do
  let response ← pJsonResponse
  let (pJsonBody, pCandidate) ← decodeBody response
  let pJsonJsep ← checked (getObjectItem (some response) "jsep") CJson.asObject
  let pType ← checked (getObjectItem (some response) "janus") CJson.valuestring
  let pTransactionId ← checked (getObjectItem (some response) "transaction") CJson.valuestring
  let serverId ← checked (getObjectItem (some response) "session_id") CJson.asId
  let senderId ← checked (getObjectItem (some response) "sender") CJson.asId
  return {
    pType
    serverId := serverId.getD 0
    pTransactionId
    senderId := senderId.getD 0
    pJsonBody
    pJsonJsep
    pCandidate }

/-! ## What is rejected -/

/-- The item is there and `read` cannot read it. -/
def Mistyped {α : Type} (item : Option CJson) (read : CJson → Option α) : Prop :=
  ∃ json, item = some json ∧ read json = none

/-- `plugindata` is there and is not data of the audiobridge. -/
def PluginDataRejects (response : CJson) : Prop :=
  ∃ pluginData, getObjectItem (some response) "plugindata" = some pluginData ∧
    (pluginData.isObject = false ∨
      valuestring (getObjectItem (some pluginData) "plugin") ≠ some JANUS_PLUGIN ∨
      (getObjectItem (some pluginData) "data").bind CJson.asObject = none)

/-- `candidate` is there and is neither a completion nor a candidate string nor
    an object without both. -/
def CandidateRejects (response : CJson) : Prop :=
  ∃ candidate, getObjectItem (some response) "candidate" = some candidate ∧
    (candidate.isObject = false ∨
      (∃ completed, getObjectItem (some candidate) "completed" = some completed ∧
        completed.isTrue = false) ∨
      (getObjectItem (some candidate) "completed" = none ∧
        Mistyped (getObjectItem (some candidate) "candidate") CJson.valuestring))

/-- The type checks of `decode` that a response fails. -/
def DecodeRejects (response : CJson) : Prop :=
  Mistyped (getObjectItem (some response) "data") CJson.asObject ∨
  (getObjectItem (some response) "data" = none ∧ PluginDataRejects response) ∨
  (getObjectItem (some response) "data" = none ∧
    getObjectItem (some response) "plugindata" = none ∧ CandidateRejects response) ∨
  Mistyped (getObjectItem (some response) "jsep") CJson.asObject ∨
  Mistyped (getObjectItem (some response) "janus") CJson.valuestring ∨
  Mistyped (getObjectItem (some response) "transaction") CJson.valuestring ∨
  Mistyped (getObjectItem (some response) "session_id") CJson.asId ∨
  Mistyped (getObjectItem (some response) "sender") CJson.asId

@[simp] theorem checked_eq_none_iff {α : Type} (item : Option CJson) (read : CJson → Option α) :
    checked item read = none ↔ Mistyped item read := by
  cases item with
  | none => simp [checked, Mistyped]
  | some json => simp [checked, Mistyped]

theorem checked_eq_some {α : Type} {item : Option CJson} {read : CJson → Option α}
    {result : Option α} (h : checked item read = some result) : result = item.bind read := by
  cases item with
  | none => simpa [checked] using h.symm
  | some json =>
      simp only [checked, Option.map_eq_some_iff] at h
      obtain ⟨a, ha, rfl⟩ := h
      simp [ha]

theorem decodePluginData_eq_none_iff (pluginData : CJson) :
    decodePluginData pluginData = none ↔
      pluginData.isObject = false ∨
        valuestring (getObjectItem (some pluginData) "plugin") ≠ some JANUS_PLUGIN ∨
        (getObjectItem (some pluginData) "data").bind CJson.asObject = none := by
  unfold decodePluginData
  split
  · next hobj =>
      split
      · next hplugin => simp [hobj, hplugin]
      · next hplugin => simp [hplugin]
  · next hobj => simp [hobj]

theorem decodeCandidate_eq_none_iff (candidate : CJson) :
    decodeCandidate candidate = none ↔
      candidate.isObject = false ∨
        (∃ completed, getObjectItem (some candidate) "completed" = some completed ∧
          completed.isTrue = false) ∨
        (getObjectItem (some candidate) "completed" = none ∧
          Mistyped (getObjectItem (some candidate) "candidate") CJson.valuestring) := by
  unfold decodeCandidate
  split
  · next hobj =>
      cases hc : getObjectItem (some candidate) "completed" with
      | none => simp [hobj]
      | some completed => cases hb : completed.isTrue <;> simp [hobj, hb]
  · next hobj => simp [hobj]

theorem decodeBody_eq_none_iff (response : CJson) :
    decodeBody response = none ↔
      Mistyped (getObjectItem (some response) "data") CJson.asObject ∨
      (getObjectItem (some response) "data" = none ∧ PluginDataRejects response) ∨
      (getObjectItem (some response) "data" = none ∧
        getObjectItem (some response) "plugindata" = none ∧ CandidateRejects response) := by
  unfold decodeBody
  cases hd : getObjectItem (some response) "data" with
  | some data => simp [Mistyped]
  | none =>
      cases hp : getObjectItem (some response) "plugindata" with
      | some pluginData =>
          simp [Mistyped, PluginDataRejects, hp, decodePluginData_eq_none_iff]
      | none =>
          cases hc : getObjectItem (some response) "candidate" with
          | some candidate =>
              simp [Mistyped, PluginDataRejects, CandidateRejects, hp, hc,
                decodeCandidate_eq_none_iff]
          | none => simp [Mistyped, PluginDataRejects, CandidateRejects, hp, hc]

/-- `decode` gives up on a response exactly when a type check fails. -/
theorem decode_eq_none_iff (response : CJson) :
    decode (some response) = none ↔ DecodeRejects response := by
  unfold DecodeRejects
  have hbody := decodeBody_eq_none_iff response
  rw [← or_assoc, ← or_assoc, or_assoc (a := Mistyped _ _), ← hbody]
  simp only [← checked_eq_none_iff]
  simp only [decode, Option.bind_eq_bind, Option.bind_some]
  cases decodeBody response <;>
    cases checked (getObjectItem (some response) "jsep") CJson.asObject <;>
    cases checked (getObjectItem (some response) "janus") CJson.valuestring <;>
    cases checked (getObjectItem (some response) "transaction") CJson.valuestring <;>
    cases checked (getObjectItem (some response) "session_id") CJson.asId <;>
    cases checked (getObjectItem (some response) "sender") CJson.asId <;> simp

/-! ## What is decoded -/

/-- What a decoded message says about the response it came from. -/
theorem decode_eq_some {response : CJson} {message : Message}
    (h : decode (some response) = some message) :
    message.pType = valuestring (getObjectItem (some response) "janus") ∧
    message.pTransactionId = valuestring (getObjectItem (some response) "transaction") ∧
    message.serverId = ((getObjectItem (some response) "session_id").bind CJson.asId).getD 0 ∧
    message.senderId = ((getObjectItem (some response) "sender").bind CJson.asId).getD 0 := by
  simp only [decode, Option.bind_eq_bind, Option.bind_some, Option.bind_eq_some_iff,
    Option.pure_def, Option.some.injEq] at h
  obtain ⟨_, _, _, _, _, htype, _, htxn, _, hserver, _, hsender, rfl⟩ := h
  rw [checked_eq_some htype, checked_eq_some htxn, checked_eq_some hserver,
    checked_eq_some hsender]
  exact ⟨rfl, rfl, rfl, rfl⟩

/-- A decoded message has no type exactly when the response has no `janus`
    member. -/
theorem decode_pType {response : CJson} {message : Message}
    (h : decode (some response) = some message) :
    message.pType = none ↔ getObjectItem (some response) "janus" = none := by
  rw [(decode_eq_some h).1]
  cases hj : getObjectItem (some response) "janus" with
  | none => simp [valuestring]
  | some json =>
      have hnot : ¬ Mistyped (getObjectItem (some response) "janus") CJson.valuestring := by
        intro hmis
        have hnone := (decode_eq_none_iff response).mpr (by simp [DecodeRejects, hmis])
        rw [hnone] at h
        cases h
      simp only [Mistyped, hj, Option.some.injEq, exists_eq_left'] at hnot
      simpa [valuestring] using hnot

/-- A scalar decodes to a message with no field at all: nothing in it can fail a
    type check. -/
theorem decode_string (s : String) :
    decode (some (.string s)) = some
      { pType := none, serverId := 0, pTransactionId := none, senderId := 0,
        pJsonBody := none, pJsonJsep := none, pCandidate := none } := rfl

end ModJanus
