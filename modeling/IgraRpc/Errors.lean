import IgraRpc.Types.Json

/-!
# Domain errors — `errors/transaction.rs`, `errors/gas.rs`, `errors/mod.rs`

`TransactionError` and `GasError` with their texts, their classification and the
JSON-RPC error object of `ToJsonRpcError`. Amounts appear in the texts as the
decimal strings the callers pass.
-/

namespace IgraRpc

-- ---------------------------------------------------------------------------
-- Transaction errors
-- ---------------------------------------------------------------------------

inductive TransactionError where
  | decodingFailed (reason : String)
  | validationFailed (reason : String)
  | gasPriceValidationFailed (reason : String)
  | eip1559ValidationFailed (maxFee priorityFee baseFee : String)
  | legacyGasPriceTooLow (gasPrice baseFee : String)
  | missingGasPricing
  | payloadValidationFailed (reason : String)
  | transactionTooLarge (size maxAllowed : Nat)
  | transactionExpired (currentBlock transactionBlock : Nat)
  | invalidNonce (expected got : Nat)
  | queueFull (capacity : Nat)
  | processingTimeout (timeoutSeconds : Nat)
  | miningFailed (reason : String)
  | walletOperationFailed (reason : String)
  | invalidFormat (reason : String)
  | alreadyExists (hash : String)
  | insufficientFunds (required available : String)
  | signatureVerificationFailed (reason : String)
  | internalError (reason : String)
  | invalidTransactionFormat (reason : String)
  | insufficientGasFee (required provided : String)
  deriving DecidableEq, Repr

namespace TransactionError

/-- The `Display` text. -/
def display : TransactionError → String
  | decodingFailed reason => s!"Failed to decode transaction: {reason}"
  | validationFailed reason => s!"Transaction validation failed: {reason}"
  | gasPriceValidationFailed reason => s!"Gas price validation failed: {reason}"
  | eip1559ValidationFailed maxFee priorityFee baseFee =>
    s!"EIP-1559 fee validation failed: max_fee={maxFee}, priority_fee={priorityFee}, " ++
      s!"base_fee={baseFee}"
  | legacyGasPriceTooLow gasPrice baseFee =>
    s!"Legacy gas price too low: gas_price={gasPrice}, required_base_fee={baseFee}"
  | missingGasPricing => "Transaction missing gas pricing information"
  | payloadValidationFailed reason => s!"Transaction payload validation failed: {reason}"
  | transactionTooLarge size maxAllowed =>
    s!"Transaction too large: size={size} bytes, max_allowed={maxAllowed} bytes"
  | transactionExpired currentBlock transactionBlock =>
    s!"Transaction expired: current_block={currentBlock}, " ++
      s!"transaction_block={transactionBlock}"
  | invalidNonce expected got => s!"Nonce validation failed: expected={expected}, got={got}"
  | queueFull capacity => s!"Transaction queue is full, capacity={capacity}"
  | processingTimeout timeoutSeconds =>
    s!"Transaction processing timed out after {timeoutSeconds} seconds"
  | miningFailed reason => s!"Transaction mining failed: {reason}"
  | walletOperationFailed reason => s!"Wallet operation failed: {reason}"
  | invalidFormat reason => s!"Invalid transaction format: {reason}"
  | alreadyExists hash => s!"Transaction already exists: hash={hash}"
  | insufficientFunds required available =>
    s!"Insufficient funds: required={required}, available={available}"
  | signatureVerificationFailed reason =>
    s!"Transaction signature verification failed: {reason}"
  | internalError reason => s!"Internal transaction processing error: {reason}"
  | invalidTransactionFormat reason => s!"Invalid transaction format: {reason}"
  | insufficientGasFee required provided =>
    s!"Insufficient gas fee: required {required} wei, provided {provided} wei"

def isRetryable : TransactionError → Bool
  | queueFull _ | processingTimeout _ | internalError _ | miningFailed _
  | walletOperationFailed _ => true
  | _ => false

def isValidationError : TransactionError → Bool
  | validationFailed _ | gasPriceValidationFailed _ | eip1559ValidationFailed _ _ _
  | legacyGasPriceTooLow _ _ | missingGasPricing | payloadValidationFailed _
  | invalidNonce _ _ | transactionTooLarge _ _ | transactionExpired _ _ | invalidFormat _
  | insufficientFunds _ _ | signatureVerificationFailed _ | invalidTransactionFormat _
  | insufficientGasFee _ _ | decodingFailed _ => true
  | _ => false

def errorCode : TransactionError → String
  | decodingFailed _ => "DECODE_FAILED"
  | validationFailed _ => "VALIDATION_FAILED"
  | gasPriceValidationFailed _ => "GAS_PRICE_VALIDATION_FAILED"
  | eip1559ValidationFailed _ _ _ => "EIP1559_VALIDATION_FAILED"
  | legacyGasPriceTooLow _ _ => "LEGACY_GAS_PRICE_TOO_LOW"
  | missingGasPricing => "MISSING_GAS_PRICING"
  | payloadValidationFailed _ => "PAYLOAD_VALIDATION_FAILED"
  | transactionTooLarge _ _ => "TRANSACTION_TOO_LARGE"
  | transactionExpired _ _ => "TRANSACTION_EXPIRED"
  | invalidNonce _ _ => "INVALID_NONCE"
  | queueFull _ => "QUEUE_FULL"
  | processingTimeout _ => "PROCESSING_TIMEOUT"
  | miningFailed _ => "MINING_FAILED"
  | walletOperationFailed _ => "WALLET_OPERATION_FAILED"
  | invalidFormat _ => "INVALID_FORMAT"
  | alreadyExists _ => "ALREADY_EXISTS"
  | insufficientFunds _ _ => "INSUFFICIENT_FUNDS"
  | signatureVerificationFailed _ => "SIGNATURE_VERIFICATION_FAILED"
  | internalError _ => "INTERNAL_ERROR"
  | invalidTransactionFormat _ => "INVALID_TRANSACTION_FORMAT"
  | insufficientGasFee _ _ => "INSUFFICIENT_GAS_FEE"

def jsonRpcErrorCode : TransactionError → Int
  | decodingFailed _ => -32700
  | queueFull _ | processingTimeout _ | miningFailed _ | walletOperationFailed _
  | alreadyExists _ | transactionExpired _ _ => -32000
  | internalError _ => -32603
  | _ => -32602

end TransactionError

-- ---------------------------------------------------------------------------
-- Gas errors
-- ---------------------------------------------------------------------------

inductive GasError where
  | calculationFailed (reason : String)
  | baseFetchFailed (reason : String)
  | invalidFormat (value : String)
  | conversionError (reason : String)
  | eip1559ValidationFailed (reason : String)
  | legacyValidationFailed (reason : String)
  | belowMinimumFloor (price floor : String)
  | priorityFeeExceedsMax (priorityFee maxFee : String)
  | maxFeeBelowBase (maxFee baseFee : String)
  | cacheError (reason : String)
  | arithmeticOverflow (operation : String)
  | configurationError (reason : String)
  | networkError (reason : String)
  | responseParsingError (reason : String)
  | serviceUnavailable
  | invalidConfiguration (field value reason : String)
  | staleData (ageSeconds maxAgeSeconds : Nat)
  | internalError (reason : String)
  deriving DecidableEq, Repr

namespace GasError

/-- The `Display` text. -/
def display : GasError → String
  | calculationFailed reason => s!"Gas price calculation failed: {reason}"
  | baseFetchFailed reason => s!"Failed to fetch base fee from EL client: {reason}"
  | invalidFormat value => s!"Invalid gas price format: {value}, expected hex string"
  | conversionError reason => s!"Gas price conversion error: {reason}"
  | eip1559ValidationFailed reason => s!"EIP-1559 fee validation failed: {reason}"
  | legacyValidationFailed reason => s!"Legacy gas price validation failed: {reason}"
  | belowMinimumFloor price floor =>
    s!"Gas price below minimum floor: price={price} wei, floor={floor} wei"
  | priorityFeeExceedsMax priorityFee maxFee =>
    s!"Priority fee exceeds max fee: priority_fee={priorityFee}, max_fee={maxFee}"
  | maxFeeBelowBase maxFee baseFee =>
    s!"Max fee below current base fee: max_fee={maxFee}, base_fee={baseFee}"
  | cacheError reason => s!"Gas price cache error: {reason}"
  | arithmeticOverflow operation => s!"Gas price arithmetic overflow: {operation}"
  | configurationError reason => s!"Gas configuration error: {reason}"
  | networkError reason => s!"Network error fetching gas prices: {reason}"
  | responseParsingError reason => s!"Failed to parse gas price response: {reason}"
  | serviceUnavailable => "Gas price service temporarily unavailable"
  | invalidConfiguration field value reason =>
    s!"Invalid gas configuration: {field}={value}, {reason}"
  | staleData ageSeconds maxAgeSeconds =>
    s!"Gas price data is stale: age={ageSeconds}s, max_age={maxAgeSeconds}s"
  | internalError reason => s!"Internal gas service error: {reason}"

def isRetryable : GasError → Bool
  | baseFetchFailed _ | networkError _ | serviceUnavailable | cacheError _
  | responseParsingError _ | internalError _ => true
  | _ => false

def isValidationError : GasError → Bool
  | eip1559ValidationFailed _ | legacyValidationFailed _ | belowMinimumFloor _ _
  | priorityFeeExceedsMax _ _ | maxFeeBelowBase _ _ | invalidFormat _
  | invalidConfiguration _ _ _ => true
  | _ => false

def errorCode : GasError → String
  | calculationFailed _ => "CALCULATION_FAILED"
  | baseFetchFailed _ => "BASE_FETCH_FAILED"
  | invalidFormat _ => "INVALID_FORMAT"
  | conversionError _ => "CONVERSION_ERROR"
  | eip1559ValidationFailed _ => "EIP1559_VALIDATION_FAILED"
  | legacyValidationFailed _ => "LEGACY_VALIDATION_FAILED"
  | belowMinimumFloor _ _ => "BELOW_MINIMUM_FLOOR"
  | priorityFeeExceedsMax _ _ => "PRIORITY_FEE_EXCEEDS_MAX"
  | maxFeeBelowBase _ _ => "MAX_FEE_BELOW_BASE"
  | cacheError _ => "CACHE_ERROR"
  | arithmeticOverflow _ => "ARITHMETIC_OVERFLOW"
  | configurationError _ => "CONFIGURATION_ERROR"
  | networkError _ => "NETWORK_ERROR"
  | responseParsingError _ => "RESPONSE_PARSING_ERROR"
  | serviceUnavailable => "SERVICE_UNAVAILABLE"
  | invalidConfiguration _ _ _ => "INVALID_CONFIGURATION"
  | staleData _ _ => "STALE_DATA"
  | internalError _ => "INTERNAL_ERROR"

def jsonRpcErrorCode : GasError → Int
  | invalidFormat _ | eip1559ValidationFailed _ | legacyValidationFailed _
  | belowMinimumFloor _ _ | priorityFeeExceedsMax _ _ | maxFeeBelowBase _ _
  | invalidConfiguration _ _ _ => -32602
  | conversionError _ => -32700
  | internalError _ => -32603
  | _ => -32000

end GasError

-- ---------------------------------------------------------------------------
-- JSON-RPC error objects
-- ---------------------------------------------------------------------------

/-- The error object both kinds are rendered to. -/
def domainError (code : Int) (message errorCode : String) (retryable validationError : Bool)
    (id : Value) : Value :=
  .object [
    ("jsonrpc", .string "2.0"),
    ("error", .object [
      ("code", .int code),
      ("message", .string message),
      ("data", .object [
        ("error_code", .string errorCode),
        ("retryable", .bool retryable),
        ("validation_error", .bool validationError)])]),
    ("id", id)]

def TransactionError.toJsonRpcError (e : TransactionError) (id : Value) : Value :=
  domainError e.jsonRpcErrorCode e.display e.errorCode e.isRetryable e.isValidationError id

def GasError.toJsonRpcError (e : GasError) (id : Value) : Value :=
  domainError e.jsonRpcErrorCode e.display e.errorCode e.isRetryable e.isValidationError id

@[simp] theorem TransactionError.toJsonRpcError_id (e : TransactionError) (id : Value) :
    (e.toJsonRpcError id).get "id" = some id := rfl

@[simp] theorem TransactionError.toJsonRpcError_result (e : TransactionError) (id : Value) :
    (e.toJsonRpcError id).get "result" = none := rfl

@[simp] theorem GasError.toJsonRpcError_id (e : GasError) (id : Value) :
    (e.toJsonRpcError id).get "id" = some id := rfl

@[simp] theorem GasError.toJsonRpcError_result (e : GasError) (id : Value) :
    (e.toJsonRpcError id).get "result" = none := rfl

/-- No transaction error is both the client's fault and worth retrying. -/
theorem TransactionError.isRetryable_not_validation {e : TransactionError}
    (h : e.isRetryable = true) : e.isValidationError = false := by
  cases e <;> first | rfl | exact absurd h Bool.false_ne_true

/-- A gas error the client can retry is a server-side one. -/
theorem GasError.isRetryable_code {e : GasError} (h : e.isRetryable = true) :
    e.jsonRpcErrorCode = -32000 ∨ e.jsonRpcErrorCode = -32603 := by
  cases e <;> first
    | exact Or.inl rfl
    | exact Or.inr rfl
    | exact absurd h Bool.false_ne_true

end IgraRpc
