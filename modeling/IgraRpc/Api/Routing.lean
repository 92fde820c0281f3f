import IgraRpc.Services.AcceptPath
import IgraRpc.Services.Proxy
import IgraRpc.Types.Whitelist

/-!
# Routing — `api/routing.rs`

`routeAndProcess` is the one way from a request to the services, for both
transports: the gate of `validateRequestAuthorization`, then the transaction
service for `eth_sendRawTransaction` and the EL for every other method.

* `routeAndProcess_of_refused` — behind a closed gate nothing happens;
* `routeAndProcess_answersId` — the id every response carries.
-/

namespace IgraRpc

open Lib

/-- What one request meets outside itself: the fee service and the EL as it reads them,
the id generated for it, and the queue when it gets there. -/
structure Surroundings where
  view : FeeView
  uuid : String
  queue : TransactionQueue

/-- `json_rpc_error`. -/
def jsonRpcError (id : Value) (code : Int) (message : String) : Value :=
  .object [
    ("jsonrpc", .string "2.0"),
    ("error", .object [("code", .int code), ("message", .string message)]),
    ("id", id)]

/-- `validate_request_authorization`: the error for a request that may not pass. -/
def validateRequestAuthorization (security : SecurityConfig) (req : RpcRequest) :
    Option Value :=
  if security.enableWhitelist = true ∧ isMethodAllowed req.method = false then
    some ((AppError.methodNotAllowed req.method).toJsonRpcError req.id)
  else if security.isReadOnly = true ∧ isWriteMethod req.method = true then
    some (AppError.readOnlyMode.toJsonRpcError req.id)
  else none

/-- `route_request_to_service`. -/
def routeRequestToService (alloy : Alloy) (around : Surroundings) (req : RpcRequest) :
    Submission :=
  if req.method = "eth_sendRawTransaction" then
    processTransaction alloy around.view around.uuid req around.queue
  else
    { response := forwardToEl around.view.config around.view.el req
      queue := around.queue
      events := [.elCall req.toValue] }

/-- `route_and_process`. -/
def routeAndProcess (security : SecurityConfig) (alloy : Alloy) (around : Surroundings)
    (req : RpcRequest) : Submission :=
  match validateRequestAuthorization security req with
  | some errorResponse => ⟨errorResponse, around.queue, []⟩
  | none => routeRequestToService alloy around req

/-- A refused request has no effect, and its answer depends on nothing but its method
and id. -/
theorem routeAndProcess_of_refused {security : SecurityConfig} {req : RpcRequest}
    {errorResponse : Value}
    (h : validateRequestAuthorization security req = some errorResponse) (alloy : Alloy)
    (around : Surroundings) :
    routeAndProcess security alloy around req = ⟨errorResponse, around.queue, []⟩ := by
  rw [routeAndProcess, h]

theorem routeAndProcess_of_allowed {security : SecurityConfig} {req : RpcRequest}
    (h : validateRequestAuthorization security req = none) (alloy : Alloy)
    (around : Surroundings) :
    routeAndProcess security alloy around req = routeRequestToService alloy around req := by
  rw [routeAndProcess, h]

-- ---------------------------------------------------------------------------
-- The id of a response
-- ---------------------------------------------------------------------------

/-- A raw transaction that gets past the gate. -/
def Submitted (security : SecurityConfig) (req : RpcRequest) : Prop :=
  validateRequestAuthorization security req = none ∧ req.method = "eth_sendRawTransaction"

/-- A submission without an id that is well formed: it is given an id of its own. -/
def GivenId (security : SecurityConfig) (alloy : Alloy) (req : RpcRequest) : Prop :=
  Submitted security req ∧ req.id = .null ∧ ∃ checked, formatChecks alloy req = .ok checked

/-- A submission whose hex does not decode. -/
def Undecodable (security : SecurityConfig) (req : RpcRequest) : Prop :=
  Submitted security req ∧ formatCheck req = .error .badHex

/-- The response to a request carries the id generated for it where it is given one, and
otherwise its own; for undecodable hex nothing is said. -/
def AnswersId (security : SecurityConfig) (alloy : Alloy) (req : RpcRequest) (uuid : String)
    (response : Value) : Prop :=
  (GivenId security alloy req → response.get "id" = some (.string uuid)) ∧
    (¬GivenId security alloy req → ¬Undecodable security req →
      response.get "id" = some req.id)

variable {security : SecurityConfig} {alloy : Alloy} {req : RpcRequest} {uuid : String}

/-- A request that is no submission is answered for by its own id. -/
theorem answersId_of_own (hreq : ¬Submitted security req) {response : Value}
    (h : response.get "id" = some req.id) : AnswersId security alloy req uuid response :=
  ⟨fun hgiven => absurd hgiven.1 hreq, fun _ _ => h⟩

/-- A refusal carries the id of the request. -/
theorem validateRequestAuthorization_id {errorResponse : Value}
    (h : validateRequestAuthorization security req = some errorResponse) :
    errorResponse.get "id" = some req.id := by
  unfold validateRequestAuthorization at h
  split at h
  · obtain rfl := Option.some.inj h
    rfl
  · split at h
    · obtain rfl := Option.some.inj h
      rfl
    · exact absurd h (by simp)

/-- Faults found in the request alone are answered with its own id, except bad hex. -/
theorem formatChecks_error_id {fault : AcceptFault}
    (h : formatChecks alloy req = .error fault) (idValue : Value) :
    formatCheck req = .error .badHex ∨
      (fault.response req idValue).get "id" = some req.id := by
  rcases formatCheck_spec req with ⟨txBytes, -, hformat, -⟩ | ⟨-, hformat, -⟩ | ⟨hformat, -⟩
  · cases hparse : parseRlpTransaction alloy txBytes with
    | ok parsed =>
      obtain ⟨tx, txType⟩ := parsed
      have hok : formatChecks alloy req = .ok (txBytes, tx, txType) :=
        formatChecks_eq_ok.mpr ⟨hformat, hparse⟩
      rw [hok] at h
      exact absurd h (by simp)
    | error e =>
      rw [formatChecks, hformat, Result.ok_bind, envelopeCheck, hparse,
        Result.mapError_error, Result.error_bind] at h
      obtain rfl : AcceptFault.malformed e = fault := Except.error.inj h
      exact Or.inr (TransactionError.toJsonRpcError_id _ _)
  · exact Or.inl hformat
  · rw [formatChecks, hformat, Result.error_bind] at h
    obtain rfl : AcceptFault.missingPrefix = fault := Except.error.inj h
    exact Or.inr (AppError.toJsonRpcError_id _ _)

/-- Faults found after that are answered with the id of the submission. -/
theorem feeChecks_error_id {view : FeeView} {tx : TxEnvelope} {txType : UInt8}
    {fault : AcceptFault} (h : feeChecks alloy view tx txType = .error fault)
    (idValue : Value) : (fault.response req idValue).get "id" = some idValue := by
  unfold feeChecks baseFeeCheck feeRuleCheck at h
  cases hfee : (view.baseFee alloy).result with
  | error e =>
    rw [hfee] at h
    obtain rfl : AcceptFault.noBaseFee e = fault := Except.error.inj h
    exact GasError.toJsonRpcError_id _ _
  | ok baseFee =>
    rw [hfee, Result.mapError_ok, Result.ok_bind] at h
    cases hrule : validateGasFeeWithType tx baseFee txType with
    | ok u =>
      rw [hrule] at h
      exact absurd h (by simp [Except.mapError])
    | error e =>
      rw [hrule] at h
      obtain rfl : AcceptFault.feeTooLow e = fault := Except.error.inj h
      exact TransactionError.toJsonRpcError_id _ _

theorem queueCheck_error_id {queue : TransactionQueue} {fault : AcceptFault}
    (h : queueCheck queue = .error fault) (idValue : Value) :
    (fault.response req idValue).get "id" = some idValue := by
  unfold queueCheck at h
  split at h
  · obtain rfl := Except.error.inj h
    exact TransactionError.toJsonRpcError_id _ _
  · split at h
    · obtain rfl := Except.error.inj h
      exact TransactionError.toJsonRpcError_id _ _
    · exact absurd h (by simp)

/-- A well-formed submission is answered with the submission's id, accepted or not. -/
theorem processTransaction_id {checked : List UInt8 × TxEnvelope × UInt8}
    (h : formatChecks alloy req = .ok checked) (view : FeeView) (uuid : String)
    (queue : TransactionQueue) :
    (processTransaction alloy view uuid req queue).response.get "id" =
      some (submissionId uuid req) := by
  obtain ⟨txBytes, tx, txType⟩ := checked
  have hchain := acceptChecks_of_wellFormed h view (queueCheck queue)
  cases hfees : feeChecks alloy view tx txType with
  | error fault =>
    have hchecks : acceptChecks alloy view req (queueCheck queue) = .error fault := by
      rw [hchain, hfees, Result.error_bind]
    rw [(processTransaction_of_error hchecks uuid).1]
    exact feeChecks_error_id hfees _
  | ok u =>
    cases hqueue : queueCheck queue with
    | error fault =>
      have hchecks : acceptChecks alloy view req (queueCheck queue) = .error fault := by
        rw [hchain, hfees, Result.ok_bind, hqueue, Result.error_bind]
      rw [(processTransaction_of_error hchecks uuid).1]
      exact queueCheck_error_id hqueue _
    | ok u =>
      have hchecks : acceptChecks alloy view req (queueCheck queue) = .ok txBytes := by
        rw [hchain, hfees, Result.ok_bind, hqueue, Result.ok_bind]
        rfl
      rw [(processTransaction_of_ok hchecks uuid).1]
      rfl

/-- What a submission past the gate is answered with. -/
theorem processTransaction_answersId (hsubmitted : Submitted security req) (view : FeeView)
    (queue : TransactionQueue) :
    AnswersId security alloy req uuid
      (processTransaction alloy view uuid req queue).response := by
  cases hformat : formatChecks alloy req with
  | error fault =>
    rw [processTransaction_of_malformed hformat]
    refine ⟨?_, ?_⟩
    · intro ⟨_, _, checked, hok⟩
      rw [hformat] at hok
      exact absurd hok (by simp)
    · intro _ hdecodable
      rcases formatChecks_error_id hformat (submissionId uuid req) with hbad | hown
      · exact absurd ⟨hsubmitted, hbad⟩ hdecodable
      · exact hown
  | ok checked =>
    rw [AnswersId, processTransaction_id hformat]
    refine ⟨?_, ?_⟩
    · intro ⟨_, hnull, _⟩
      rw [submissionId, if_pos (Value.isNull_iff.mpr hnull)]
    · intro hgiven _
      have hid : ¬req.id.isNull = true := fun hnull =>
        hgiven ⟨hsubmitted, Value.isNull_iff.mp hnull, checked, hformat⟩
      rw [submissionId, if_neg hid]

/-- **The id of a response**, whatever the configuration, the services and the queue. -/
theorem routeAndProcess_answersId {around : Surroundings} (hecho : EchoesId around.view.el) :
    AnswersId security alloy req around.uuid
      (routeAndProcess security alloy around req).response := by
  cases hgate : validateRequestAuthorization security req with
  | some errorResponse =>
    rw [routeAndProcess_of_refused hgate]
    refine answersId_of_own ?_ (validateRequestAuthorization_id hgate)
    intro ⟨hpassed, _⟩
    rw [hgate] at hpassed
    exact absurd hpassed (by simp)
  | none =>
    rw [routeAndProcess_of_allowed hgate]
    by_cases hmethod : req.method = "eth_sendRawTransaction"
    · rw [routeRequestToService, if_pos hmethod]
      exact processTransaction_answersId ⟨hgate, hmethod⟩ _ _
    · rw [routeRequestToService, if_neg hmethod]
      exact answersId_of_own (fun hsubmitted => hmethod hsubmitted.2)
        (forwardToEl_id hecho _ _)

end IgraRpc
