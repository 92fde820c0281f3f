import IgraRpc.Types.Json

/-!
# The application error — `error.rs`

`AppError` with its `Display` text and the JSON-RPC error object it is answered
as. The payload of `ElCallError` (a transport error) never reaches a text, so it
is left out.
-/

namespace IgraRpc

/-- The application's error type. -/
inductive AppError where
  | configError (msg : String)
  | invalidTransactionFormat
  | elCallError
  | walletCallError
  | methodNotAllowed (method : String)
  | invalidPayload (reason : String)
  | serializationError (reason : String)
  | miningTimeout (timeoutSeconds : Nat)
  | nonceExhaustion (noncesTried : Nat)
  | transactionCodecError (operation reason : String)
  | miningError (reason : String)
  | miningConfigError (reason : String)
  | miningInvalidState (reason : String)
  | walletError (reason : String)
  | jsonRpcError (error : Value)
  | internal (reason : String)
  | utxoExhausted
  | retryExhausted (attempts : Nat) (reason : String)
  | readOnlyMode
  | laneEnforcementFailed (reason : String)
  deriving Repr

namespace AppError

/-- The `Display` text. -/
def display : AppError → String
  | configError msg => s!"Configuration error: {msg}"
  | invalidTransactionFormat => "Invalid L2 transaction format"
  | elCallError => "IGRA EL Client call failed"
  | walletCallError => "KASPA Wallet call failed"
  | methodNotAllowed _ => "RPC method not allowed"
  | invalidPayload reason => s!"Invalid IGRA payload data: {reason}"
  | serializationError reason => s!"Payload serialization error: {reason}"
  | miningTimeout timeoutSeconds => s!"Mining timeout after {timeoutSeconds} seconds"
  | nonceExhaustion noncesTried =>
    s!"Mining nonce exhaustion after trying {noncesTried} nonces"
  | transactionCodecError operation reason =>
    s!"Transaction codec error: {operation} failed - {reason}"
  | miningError reason => s!"Transaction mining error: {reason}"
  | miningConfigError reason => s!"Mining configuration error: {reason}"
  | miningInvalidState reason => s!"Mining invalid transaction state: {reason}"
  | walletError reason => s!"Wallet error: {reason}"
  | jsonRpcError error => s!"JSON-RPC error: {error.toText}"
  | internal reason => s!"Internal error: {reason}"
  | utxoExhausted => "UTXO exhausted: no funds available to send"
  | retryExhausted attempts reason => s!"Retry exhausted after {attempts} attempts: {reason}"
  | readOnlyMode => "Read-only mode is enabled"
  | laneEnforcementFailed reason => s!"KIP-21 lane enforcement failed: {reason}"

/-- The JSON-RPC code and message. -/
def codeAndMessage : AppError → Int × String
  | configError s => (-32000, s!"Configuration error: {s}")
  | invalidTransactionFormat => (-32001, "Invalid L2 transaction format")
  | elCallError => (-32000, "IGRA EL Client call failed")
  | walletCallError => (-32005, "KASPA Wallet call failed")
  | methodNotAllowed method => (-32002, s!"RPC method not allowed: {method}")
  | invalidPayload reason => (-32003, s!"Invalid IGRA payload: {reason}")
  | serializationError reason => (-32004, s!"Payload serialization error: {reason}")
  | miningTimeout timeoutSeconds =>
    (-32007, s!"Transaction mining timeout after {timeoutSeconds} seconds")
  | nonceExhaustion noncesTried =>
    (-32008, s!"Transaction mining exhausted {noncesTried} nonces")
  | transactionCodecError operation reason =>
    (-32009, s!"Transaction codec {operation} failed: {reason}")
  | miningError reason => (-32006, s!"Transaction mining error: {reason}")
  | miningConfigError reason => (-32010, s!"Mining configuration error: {reason}")
  | miningInvalidState reason => (-32011, s!"Mining invalid transaction state: {reason}")
  | walletError reason => (-32012, s!"Wallet error: {reason}")
  | jsonRpcError error => (-32000, s!"JSON-RPC error: {error.toText}")
  | internal reason => (-32000, s!"Internal error: {reason}")
  | utxoExhausted => (-32014, "UTXO exhausted: no funds available to send")
  | retryExhausted attempts reason =>
    (-32015, s!"Retry exhausted after {attempts} attempts: {reason}")
  | readOnlyMode => (-32000, "Read-only mode is enabled")
  | laneEnforcementFailed reason => (-32016, s!"KIP-21 lane enforcement failed: {reason}")

/-- The JSON-RPC error response for a request with the given id. -/
def toJsonRpcError (e : AppError) (id : Value) : Value :=
  .object [
    ("jsonrpc", .string "2.0"),
    ("error", .object [
      ("code", .int e.codeAndMessage.1),
      ("message", .string e.codeAndMessage.2)]),
    ("id", id)]

/-- An error response carries the id it is given. -/
@[simp] theorem toJsonRpcError_id (e : AppError) (id : Value) :
    (e.toJsonRpcError id).get "id" = some id := rfl

/-- An error response is never a result. -/
@[simp] theorem toJsonRpcError_result (e : AppError) (id : Value) :
    (e.toJsonRpcError id).get "result" = none := rfl

/-- Every error is answered with a server code of the range the provider uses. -/
theorem codeAndMessage_range (e : AppError) :
    -32016 ≤ e.codeAndMessage.1 ∧ e.codeAndMessage.1 ≤ -32000 := by
  cases e <;> simp [codeAndMessage]

end AppError

end IgraRpc
