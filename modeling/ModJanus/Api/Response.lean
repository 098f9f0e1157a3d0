/-
  ModJanus.Api.Response

  What the functions of api.c make of the response to their request.

  Each of them decodes the response, compares its type and its transaction with what
  was asked for, and reports a status or an id; 0 is no id.  The response is a null
  pointer when none came, and also when `api_send_request` had no room for the URL.
  The functions are as they run once the request has been encoded.
-/
import ModJanus.Api.Request

namespace ModJanus

/-! ## The checks -/

/-- `valueint` of a number: truncated, and saturated at the bounds of an `int`. -/
def Double.toInt : Double → Int
  | .finite mantissa exponent => max (-2 ^ 31) (min (2 ^ 31 - 1) (trunc mantissa exponent))
  | .inf negative => if negative then -2 ^ 31 else 2 ^ 31 - 1

/-- `pType` and `pTransactionId` are there and are the expected ones. -/
def Message.hasAnswer (pResponse : Message) (pType pTransactionId : String) : Bool :=
  pResponse.pType == some pType && pResponse.pTransactionId == some pTransactionId

/-- A response was decoded that has the type and the transaction. -/
def Answered (pType pTransactionId : String) (pJsonResponse : Option CJson) : Prop :=
  ∃ pResponse, decode pJsonResponse = some pResponse ∧
    pResponse.pTransactionId = some pTransactionId ∧ pResponse.pType = some pType

theorem Message.hasAnswer_iff {pResponse : Message} {pType pTransactionId : String} :
    pResponse.hasAnswer pType pTransactionId = true ↔
      pResponse.pType = some pType ∧ pResponse.pTransactionId = some pTransactionId := by
  simp [hasAnswer]

theorem Message.hasAnswer.answered {pResponse : Message} {pType pTransactionId : String}
    {pJsonResponse : Option CJson} (h : pResponse.hasAnswer pType pTransactionId = true)
    (hdecode : decode pJsonResponse = some pResponse) :
    Answered pType pTransactionId pJsonResponse := by
  obtain ⟨htype, htransaction⟩ := hasAnswer_iff.mp h
  exact ⟨pResponse, hdecode, htransaction, htype⟩

/-! ## The functions -/

/-- A function that waits for a response of one type and reports a status. -/
def statusResult (pType pTransactionId : String) (pJsonResponse : Option CJson) : Status :=
  match decode pJsonResponse with
  | none => .false
  | some pResponse => if pResponse.hasAnswer pType pTransactionId then .success else .false

section Results

variable (pTransactionId : String) (pJsonResponse : Option CJson)

/-- `apiJoin`. -/
def apiJoinResult : Status := statusResult "ack" pTransactionId pJsonResponse

/-- `apiConfigure`. -/
def apiConfigureResult : Status := statusResult "ack" pTransactionId pJsonResponse

/-- `apiLeave`. -/
def apiLeaveResult : Status := statusResult "ack" pTransactionId pJsonResponse

/-- `apiDetach`: `result` keeps its initial value when nothing is decoded. -/
def apiDetachResult : Status :=
  match decode pJsonResponse with
  | none => .success
  | some pResponse => if pResponse.hasAnswer "success" pTransactionId then .success else .false

/-- `apiClaimServerId`. -/
def apiClaimServerIdResult : Status :=
  match decode pJsonResponse with
  | none => .sockErr
  | some pResponse =>
      match pResponse.pType, pResponse.pTransactionId with
      | some pType, some transaction =>
          if transaction ≠ pTransactionId then .false
          else if pType = "success" then .success
          else if pType = "error" then
            match getObjectItem pJsonResponse "error" with
            | some (.object error) =>
                if !isNumber (getObjectItem (some (.object error)) "code") then .false
                else if !isString (getObjectItem (some (.object error)) "reason") then .false
                else .notInitialized
            | _ => .false
          else .false
      | _, _ => .false

/-- `apiGetServerId`. -/
def apiGetServerIdResult : JanusId :=
  match decode pJsonResponse with
  | none => 0
  | some pResponse =>
      if pResponse.hasAnswer "success" pTransactionId && pResponse.pJsonBody.isSome then
        numericId (getObjectItem pResponse.pJsonBody "id")
      else 0

/-- `apiGetSenderId`. -/
def apiGetSenderIdResult : JanusId :=
  match decode pJsonResponse with
  | none => 0
  | some pResponse =>
      if pResponse.hasAnswer "success" pTransactionId then
        numericId (getObjectItem pResponse.pJsonBody "id")
      else 0

/-- The `event` branch of `apiCreateRoom`: error 486 says that the room exists. -/
def roomExists (roomId : JanusId) (pRoomIdStr : Option String) (pJsonBody : Option CJson) :
    JanusId :=
  match getObjectItem pJsonBody "error_code" with
  | some (.number code) =>
      if code.toInt = 486 then
        if pRoomIdStr.any (· ≠ "") then 1 else if roomId ≠ 0 then roomId else 1
      else 0
  | _ => 0

/-- The `created` branch of `apiCreateRoom`. -/
def roomCreated (pJsonBody : Option CJson) : JanusId :=
  match getObjectItem pJsonBody "room" with
  | some (.number room) => room.toJanusId
  | some (.string _) => 1
  | _ => 0

/-- `apiCreateRoom`. -/
def apiCreateRoomResult (senderId roomId : JanusId) (pRoomIdStr : Option String) : JanusId :=
  match decode pJsonResponse with
  | none => 0
  | some pResponse =>
      if pResponse.hasAnswer "success" pTransactionId && pResponse.senderId == senderId &&
          pResponse.pJsonBody.isSome then
        match valuestring (getObjectItem pResponse.pJsonBody "audiobridge") with
        | some "event" => roomExists roomId pRoomIdStr pResponse.pJsonBody
        | some "created" => roomCreated pResponse.pJsonBody
        | _ => 0
      else 0

end Results

/-- What a function reports. -/
inductive Report where
  | status (result : Status)
  | id (result : JanusId)
  deriving DecidableEq, Repr

/-- `SWITCH_STATUS_SUCCESS`, or an id. -/
def Report.isSuccess : Report → Bool
  | .status result => result = .success
  | .id result => result ≠ 0

/-- What the function that makes the request reports for the response.  The long poll
    compares nothing, and nobody looks at the response to a keepalive. -/
def ApiRequest.report (pTransactionId : String) (pJsonResponse : Option CJson) :
    ApiRequest → Option Report
  | .create => some (.id (apiGetServerIdResult pTransactionId pJsonResponse))
  | .claim _ => some (.status (apiClaimServerIdResult pTransactionId pJsonResponse))
  | .attach _ _ => some (.id (apiGetSenderIdResult pTransactionId pJsonResponse))
  | .createRoom _ senderId roomId _ _ _ _ _ pRoomIdStr =>
      some (.id (apiCreateRoomResult pTransactionId pJsonResponse senderId roomId pRoomIdStr))
  | .join .. => some (.status (apiJoinResult pTransactionId pJsonResponse))
  | .configure .. => some (.status (apiConfigureResult pTransactionId pJsonResponse))
  | .leave .. => some (.status (apiLeaveResult pTransactionId pJsonResponse))
  | .detach _ _ => some (.status (apiDetachResult pTransactionId pJsonResponse))
  | .poll _ | .keepalive _ => none

/-- The type of the response that the request asks for. -/
def ApiRequest.expectedType : ApiRequest → String
  | .join .. | .configure .. | .leave .. => "ack"
  | _ => "success"

def ApiRequest.isDetach : ApiRequest → Bool
  | .detach _ _ => true
  | _ => false

/-! ## Success and the response -/

section Success

variable {pType pTransactionId : String} {pJsonResponse : Option CJson}

theorem statusResult_success (h : statusResult pType pTransactionId pJsonResponse = .success) :
    Answered pType pTransactionId pJsonResponse := by
  unfold statusResult at h
  split at h
  · cases h
  · next pResponse hdecode =>
      split at h
      · next hanswer => exact Message.hasAnswer.answered hanswer hdecode
      · cases h

theorem apiDetachResult_success (h : apiDetachResult pTransactionId pJsonResponse = .success) :
    decode pJsonResponse = none ∨ Answered "success" pTransactionId pJsonResponse := by
  unfold apiDetachResult at h
  split at h
  · next hdecode => exact .inl hdecode
  · next pResponse hdecode =>
      split at h
      · next hanswer => exact .inr (Message.hasAnswer.answered hanswer hdecode)
      · cases h

theorem apiClaimServerIdResult_success
    (h : apiClaimServerIdResult pTransactionId pJsonResponse = .success) :
    Answered "success" pTransactionId pJsonResponse := by
  unfold apiClaimServerIdResult at h
  split at h
  · cases h
  · next pResponse hdecode =>
      split at h
      · next pType transaction htype htransaction =>
          split at h
          · cases h
          · next hsame =>
              rw [ne_eq, not_not] at hsame
              subst hsame
              split at h
              · next hsuccess => exact ⟨pResponse, hdecode, htransaction, hsuccess ▸ htype⟩
              · -- an error, of whatever form, is reported as one
                split at h
                · split at h
                  · split at h
                    · cases h
                    · split at h <;> cases h
                  · cases h
                · cases h
      · cases h

theorem apiGetServerIdResult_ne_zero
    (h : apiGetServerIdResult pTransactionId pJsonResponse ≠ 0) :
    Answered "success" pTransactionId pJsonResponse := by
  unfold apiGetServerIdResult at h
  split at h
  · exact absurd rfl h
  · next pResponse hdecode =>
      split at h
      · next hanswer =>
          rw [Bool.and_eq_true] at hanswer
          exact Message.hasAnswer.answered hanswer.1 hdecode
      · exact absurd rfl h

theorem apiGetSenderIdResult_ne_zero
    (h : apiGetSenderIdResult pTransactionId pJsonResponse ≠ 0) :
    Answered "success" pTransactionId pJsonResponse := by
  unfold apiGetSenderIdResult at h
  split at h
  · exact absurd rfl h
  · next pResponse hdecode =>
      split at h
      · next hanswer => exact Message.hasAnswer.answered hanswer hdecode
      · exact absurd rfl h

theorem apiCreateRoomResult_ne_zero {senderId roomId : JanusId} {pRoomIdStr : Option String}
    (h : apiCreateRoomResult pTransactionId pJsonResponse senderId roomId pRoomIdStr ≠ 0) :
    Answered "success" pTransactionId pJsonResponse := by
  unfold apiCreateRoomResult at h
  split at h
  · exact absurd rfl h
  · next pResponse hdecode =>
      split at h
      · next hanswer =>
          rw [Bool.and_eq_true, Bool.and_eq_true] at hanswer
          exact Message.hasAnswer.answered hanswer.1.1 hdecode
      · exact absurd rfl h

end Success

/-- A function reports success only for a response that was decoded and has the type
    and the transaction of its request, unless it is a detach for which nothing was
    decoded. -/
theorem success_answered_iff (request : ApiRequest) (pTransactionId : String)
    (pJsonResponse : Option CJson) :
    (∀ report, request.report pTransactionId pJsonResponse = some report →
        report.isSuccess = true →
        Answered request.expectedType pTransactionId pJsonResponse) ↔
      (request.isDetach = true → decode pJsonResponse ≠ none) := by
  constructor
  · intro h hdetach hnone
    cases request with
    | detach serverId senderId =>
        -- nothing is decoded, and the result is what it was at the beginning
        have hsuccess : apiDetachResult pTransactionId pJsonResponse = .success := by
          rw [apiDetachResult, hnone]
        obtain ⟨pResponse, hdecode, -⟩ := h _ rfl (decide_eq_true hsuccess)
        rw [hnone] at hdecode
        cases hdecode
    | _ => cases hdetach
  · intro h report hreport hsuccess
    cases request with
    | create =>
        cases hreport
        exact apiGetServerIdResult_ne_zero (of_decide_eq_true hsuccess)
    | attach serverId callId =>
        cases hreport
        exact apiGetSenderIdResult_ne_zero (of_decide_eq_true hsuccess)
    | createRoom =>
        cases hreport
        exact apiCreateRoomResult_ne_zero (of_decide_eq_true hsuccess)
    | claim serverId =>
        cases hreport
        exact apiClaimServerIdResult_success (of_decide_eq_true hsuccess)
    | join | configure | leave =>
        cases hreport
        exact statusResult_success (of_decide_eq_true hsuccess)
    | detach serverId senderId =>
        cases hreport
        rcases apiDetachResult_success (of_decide_eq_true hsuccess) with hnone | hanswered
        · exact absurd hnone (h rfl)
        · exact hanswered
    | poll | keepalive => cases hreport

/-- A detach that gets no response is reported as done. -/
theorem detach_without_response :
    ¬ ∀ (request : ApiRequest) (pTransactionId : String) (pJsonResponse : Option CJson)
        (report : Report), request.report pTransactionId pJsonResponse = some report →
      report.isSuccess = true → Answered request.expectedType pTransactionId pJsonResponse := by
  intro h
  obtain ⟨pResponse, hdecode, -⟩ := h (.detach 7 11) "t" none (.status .success) rfl rfl
  cases hdecode

end ModJanus
