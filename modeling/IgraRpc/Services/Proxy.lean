import IgraRpc.Services.GasPrice
import IgraRpc.Types.Rpc

/-!
# Forwarding to the EL — `services/proxy.rs`

* `forwardToEl` — a request goes to the EL as it is; fee oracle responses come back
  floored, and a failed exchange is answered in the EL's place;
* `forwardToEl_id` — the response has the request's id, if the EL's has the id it was
  sent.

Serializing a request cannot fail, so the branch for that is left out.
-/

namespace IgraRpc

/-- The EL answers every request with the id it was sent. -/
def EchoesId (el : El) : Prop :=
  ∀ req response, el req = some response → response.get "id" = req.get "id"

/-- The post-processing of an EL response, by method. -/
def interceptResponse (config : GasConfig) (method : String) (response : Value) : Value :=
  if method = "eth_gasPrice" ∨ method = "eth_maxPriorityFeePerGas" then
    floorGasPriceValue config response
  else if method = "eth_feeHistory" then floorFeeHistoryValue config response
  else response

/-- The answer when the EL could not be asked. -/
def elFailure (err : AppError) (id : Value) : Value :=
  .object [
    ("jsonrpc", .string "2.0"),
    ("error", .object [
      ("code", .int (-32000)),
      ("message", .string s!"EL request failed: {err.display}")]),
    ("id", id)]

/-- `forward_to_el`. -/
def forwardToEl (config : GasConfig) (el : El) (req : RpcRequest) : Value :=
  match sendRpcRequest el req.toValue with
  | .ok response => interceptResponse config req.method response
  | .error err => elFailure err req.id

/-- Post-processing changes nothing but `result`. -/
theorem interceptResponse_get {key : String} (hkey : key ≠ "result") (config : GasConfig)
    (method : String) (response : Value) :
    (interceptResponse config method response).get key = response.get key := by
  unfold interceptResponse
  split
  · exact floorGasPriceValue_get hkey config response
  · split
    · exact floorFeeHistoryValue_get hkey config response
    · rfl

/-- A forwarded request is answered with its id. -/
theorem forwardToEl_id {el : El} (hecho : EchoesId el) (config : GasConfig)
    (req : RpcRequest) : (forwardToEl config el req).get "id" = some req.id := by
  unfold forwardToEl sendRpcRequest
  cases hreply : el req.toValue with
  | none => rfl
  | some response =>
    show (interceptResponse config req.method response).get "id" = some req.id
    rw [interceptResponse_get (by decide), hecho req.toValue response hreply,
      RpcRequest.toValue_id]

end IgraRpc
