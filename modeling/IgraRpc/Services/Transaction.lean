import IgraRpc.Errors
import IgraRpc.Lib.Channel
import IgraRpc.Services.GasPrice
import IgraRpc.Types.Rpc

/-!
# The accept path — `services/transaction.rs`

`eth_sendRawTransaction` from the request to the processing queue.

* `parseRlpTransaction` — size, type byte, then Alloy's decoder;
* `validateGasFeeWithType` — the fee checks, chosen by the type byte;
* `validateTransactionRequest`, `validateAcceptRequest` — the two rounds of
  validation, without and with a base fee;
* `processTransaction` — validation, then a non-waiting enqueue.

What the provider takes from Alloy is the structure `Alloy`. The ids and hashes that
only appear in logs are left out.
-/

namespace IgraRpc

open Lib

-- ---------------------------------------------------------------------------
-- Envelopes
-- ---------------------------------------------------------------------------

/-- A signed transaction: the fees the provider reads, and under `signed` everything
else, which only Alloy reads. -/
inductive TxEnvelope where
  | legacy (gasPrice : Nat) (signed : List UInt8)
  | eip2930 (gasPrice : Nat) (signed : List UInt8)
  | eip1559 (maxFeePerGas maxPriorityFeePerGas : Nat) (signed : List UInt8)
  | eip4844 (signed : List UInt8)
  | eip7702 (maxFeePerGas maxPriorityFeePerGas : Nat) (signed : List UInt8)
  deriving DecidableEq, Repr

/-- What the provider uses of Alloy. -/
structure Alloy where
  /-- `TxEnvelope::decode`: the envelope and the unread rest of the slice, or the
  error's text. -/
  decode : List UInt8 → Except String (TxEnvelope × List UInt8)
  /-- The envelope's EIP-2718 encoding. -/
  encode2718 : TxEnvelope → List UInt8
  keccak256 : List UInt8 → FixedBytes 32
  parseBlock : BlockParser

/-- `compute_transaction_hash`. -/
def computeTransactionHash (alloy : Alloy) (txBytes : List UInt8) : FixedBytes 32 :=
  alloy.keccak256 txBytes

/-- `{:#x}` of a hash. -/
def hashText (hash : FixedBytes 32) : String := "0x" ++ hexEncode hash.bytes

-- ---------------------------------------------------------------------------
-- Types and decoding
-- ---------------------------------------------------------------------------

namespace TxTypes

def LEGACY : UInt8 := 0
def EIP2930 : UInt8 := 1
def EIP1559 : UInt8 := 2
def BLOB : UInt8 := 3
def EIP7702 : UInt8 := 4

end TxTypes

/-- `detect_transaction_type`. -/
def detectTransactionType : List UInt8 → Except AppError UInt8
  | [] => .error (.internal "Empty transaction data")
  | firstByte :: _ => if firstByte < 0x80 then .ok firstByte else .ok TxTypes.LEGACY

def maxTransactionSize : Nat := 128 * 1024

/-- The types the provider refuses. -/
def UnsupportedType (txType : UInt8) : Prop :=
  txType = TxTypes.BLOB ∨ txType > TxTypes.EIP7702

instance (txType : UInt8) : Decidable (UnsupportedType txType) :=
  inferInstanceAs (Decidable (_ ∨ _))

/-- `parse_rlp_transaction`. What the decoder leaves unread is dropped. -/
def parseRlpTransaction (alloy : Alloy) (data : List UInt8) :
    Except AppError (TxEnvelope × UInt8) :=
  if data.length > maxTransactionSize then
    .error (.internal
      (s!"Transaction too large: {data.length} bytes " ++
        s!"(max: {maxTransactionSize} bytes)"))
  else
    match detectTransactionType data with
    | .error e => .error e
    | .ok txType =>
      if UnsupportedType txType then
        .error (.internal s!"Unsupported transaction type: {txType}")
      else
        match alloy.decode data with
        | .error e =>
          .error (.internal s!"Failed to decode transaction (type {txType}): {e}")
        | .ok (tx, _) => .ok (tx, txType)

/-- `get_transaction_type_name`. -/
def getTransactionTypeName (txType : UInt8) : String :=
  if txType = TxTypes.LEGACY then "Legacy"
  else if txType = TxTypes.EIP2930 then "EIP-2930"
  else if txType = TxTypes.EIP1559 then "EIP-1559"
  else if txType = TxTypes.BLOB then "EIP-4844 (Blob)"
  else if txType = TxTypes.EIP7702 then "EIP-7702"
  else "Unknown"

-- ---------------------------------------------------------------------------
-- Fees
-- ---------------------------------------------------------------------------

/-- `insufficient_gas_fee` with amounts in wei. -/
def insufficientGasFee (required provided : Nat) : TransactionError :=
  .insufficientGasFee (toString required) (toString provided)

/-- A gas price against the minimum. -/
def validateGasPrice (gasPrice minProtocolFee : Nat) : Except TransactionError Unit :=
  if gasPrice < minProtocolFee then .error (insufficientGasFee minProtocolFee gasPrice)
  else .ok ()

/-- `validate_legacy_or_eip2930`. -/
def validateLegacyOrEip2930 (tx : TxEnvelope) (minProtocolFee : Nat) (txType : UInt8) :
    Except TransactionError Unit :=
  match tx with
  | .legacy gasPrice _ => validateGasPrice gasPrice minProtocolFee
  | .eip2930 gasPrice _ => validateGasPrice gasPrice minProtocolFee
  | _ =>
    .error (.invalidTransactionFormat
      s!"{getTransactionTypeName txType} transaction has unexpected envelope type")

/-- The three checks on dynamic fees. -/
def validateDynamicFees (maxFeePerGas maxPriorityFeePerGas minProtocolFee : Nat) :
    Except TransactionError Unit :=
  if maxPriorityFeePerGas > maxFeePerGas then
    .error (.eip1559ValidationFailed (toString maxFeePerGas) (toString maxPriorityFeePerGas)
      (toString minProtocolFee))
  else if maxFeePerGas < minProtocolFee then
    .error (insufficientGasFee minProtocolFee maxFeePerGas)
  else if maxPriorityFeePerGas < minProtocolFee then
    .error (insufficientGasFee minProtocolFee maxPriorityFeePerGas)
  else .ok ()

/-- `validate_eip1559`. -/
def validateEip1559 (tx : TxEnvelope) (minProtocolFee : Nat) : Except TransactionError Unit :=
  match tx with
  | .eip1559 maxFeePerGas maxPriorityFeePerGas _ =>
    validateDynamicFees maxFeePerGas maxPriorityFeePerGas minProtocolFee
  | .eip7702 maxFeePerGas maxPriorityFeePerGas _ =>
    validateDynamicFees maxFeePerGas maxPriorityFeePerGas minProtocolFee
  | _ =>
    .error (.invalidTransactionFormat
      "transaction has unexpected envelope type (expected EIP-1559 or EIP-7702)")

/-- `validate_gas_fee_with_type`. -/
def validateGasFeeWithType (tx : TxEnvelope) (minProtocolFee : Nat) (txType : UInt8) :
    Except TransactionError Unit :=
  if txType = TxTypes.LEGACY ∨ txType = TxTypes.EIP2930 then
    validateLegacyOrEip2930 tx minProtocolFee txType
  else if txType = TxTypes.EIP1559 ∨ txType = TxTypes.EIP7702 then
    validateEip1559 tx minProtocolFee
  else if UnsupportedType txType then
    .error (.invalidTransactionFormat
      s!"Unsupported transaction type: {txType} ({getTransactionTypeName txType})")
  else .error (.invalidTransactionFormat s!"Unknown transaction type: {txType}")

/-- `parse_transaction_with_context`. -/
def parseTransactionWithContext (alloy : Alloy) (txBytes : List UInt8) :
    Except TransactionError (TxEnvelope × UInt8) :=
  match parseRlpTransaction alloy txBytes with
  | .ok parsed => .ok parsed
  | .error e => .error (.invalidTransactionFormat e.display)

/-- `validate_comprehensive_transaction`: the fees are checked if there is a base fee. -/
def validateComprehensiveTransaction (alloy : Alloy) (txBytes : List UInt8)
    (effectiveBaseFee : Option Nat) : Except TransactionError Unit :=
  match parseTransactionWithContext alloy txBytes with
  | .error e => .error e
  | .ok (tx, txType) =>
    match effectiveBaseFee with
    | some baseFee => validateGasFeeWithType tx baseFee txType
    | none => .ok ()

/-- `validate_transaction_fees`. -/
def validateTransactionFees (alloy : Alloy) (txBytes : List UInt8) (baseFee : Option Nat) :
    Except TransactionError Unit :=
  validateComprehensiveTransaction alloy txBytes baseFee

-- ---------------------------------------------------------------------------
-- The request
-- ---------------------------------------------------------------------------

/-- `extract_transaction_id`. -/
def extractTransactionId (req : RpcRequest) : String :=
  if req.id.isNull then "null" else req.id.toText

/-- `"0x"`, as bytes. -/
def hexPrefix : List UInt8 := [48, 120]

/-- `extract_raw_transaction`: the raw transaction's text, as bytes. -/
def extractRawTransaction (req : RpcRequest) : Except Value (List UInt8) :=
  let rawTx := strBytes (((req.params.index 0).asStr).getD "")
  if hexPrefix.isPrefixOf rawTx then .ok rawTx
  else .error (AppError.invalidTransactionFormat.toJsonRpcError req.id)

/-- `decode_hex_transaction`: text of odd length is padded behind its prefix. -/
def decodeHexTransaction (rawTx : List UInt8) (id : String) : Except Value (List UInt8) :=
  let hexStr := if rawTx.length % 2 ≠ 0 then 48 :: rawTx.drop 2 else rawTx.drop 2
  match hexDecode hexStr with
  | .ok bytes => .ok bytes
  | .error _ => .error (AppError.invalidTransactionFormat.toJsonRpcError (.string id))

/-- `validate_transaction_request`. -/
def validateTransactionRequest (alloy : Alloy) (req : RpcRequest)
    (effectiveBaseFee : Option Nat) : Except Value Unit × Option (List UInt8) :=
  let transactionId := extractTransactionId req
  match extractRawTransaction req with
  | .error error => (.error error, none)
  | .ok rawTx =>
    match decodeHexTransaction rawTx transactionId with
    | .error error => (.error error, none)
    | .ok txBytes =>
      match validateComprehensiveTransaction alloy txBytes effectiveBaseFee with
      | .error transactionError => (.error (transactionError.toJsonRpcError req.id), none)
      | .ok () => (.ok (), some txBytes)

-- ---------------------------------------------------------------------------
-- Validation on the accept path
-- ---------------------------------------------------------------------------

/-- What a request meets of the fee service and the EL: the configured floor, the
cache as the request reads it, the clock, and the EL's replies. -/
structure FeeView where
  config : GasConfig
  el : El
  cache : Option CachedFee
  now : Nat

/-- The effective base fee a request gets. -/
def FeeView.baseFee (view : FeeView) (alloy : Alloy) : FeeCall AppError Nat :=
  getEffectiveBaseFee view.config alloy.parseBlock view.el view.cache view.now

/-- The error for bytes that validation passed but did not return. -/
def noBytesError (idValue : Value) : Value :=
  .object [
    ("jsonrpc", .string "2.0"),
    ("error", .object [
      ("code", .int (-32000)),
      ("message", .string "Transaction validation passed but no bytes were returned")]),
    ("id", idValue)]

/-- `validate_accept_request`. -/
def validateAcceptRequest (alloy : Alloy) (view : FeeView) (req : RpcRequest)
    (idValue : Value) : FeeCall Value (List UInt8) :=
  match validateTransactionRequest alloy req none with
  | (.error error, _) => ⟨[], .error error⟩
  | (.ok (), none) => ⟨[], .error (noBytesError idValue)⟩
  | (.ok (), some txBytes) =>
    let fee := view.baseFee alloy
    match fee.result with
    | .error e =>
      ⟨fee.events, .error ((GasError.baseFetchFailed e.display).toJsonRpcError idValue)⟩
    | .ok effectiveBaseFee =>
      match validateTransactionFees alloy txBytes (some effectiveBaseFee) with
      | .error txErr => ⟨fee.events, .error (txErr.toJsonRpcError idValue)⟩
      | .ok () => ⟨fee.events, .ok txBytes⟩

-- ---------------------------------------------------------------------------
-- Enqueueing
-- ---------------------------------------------------------------------------

/-- `TRANSACTION_QUEUE_CAPACITY`. -/
def transactionQueueCapacity : Nat := 1024

/-- A transaction waiting for the background worker. -/
structure TransactionRequest where
  txBytes : List UInt8
  id : Value

abbrev TransactionQueue := Channel TransactionRequest transactionQueueCapacity

/-- What a submission did: its response, the queue after it, and its calls. -/
structure Submission where
  response : Value
  queue : TransactionQueue
  events : List FeeEvent

/-- The response to an accepted transaction. -/
def acceptedResponse (hash : String) (idValue : Value) : Value :=
  .object [("jsonrpc", .string "2.0"), ("result", .string hash), ("id", idValue)]

/-- The id a submission is answered with; `uuid` is the one generated for it. -/
def submissionId (uuid : String) (req : RpcRequest) : Value :=
  if req.id.isNull then .string uuid else req.id

/-- `process_transaction`. -/
def processTransaction (alloy : Alloy) (view : FeeView) (uuid : String) (req : RpcRequest)
    (transactionSender : TransactionQueue) : Submission :=
  let idValue := submissionId uuid req
  let validated := validateAcceptRequest alloy view req idValue
  match validated.result with
  | .error errorJson => ⟨errorJson, transactionSender, validated.events⟩
  | .ok txBytes =>
    match transactionSender.trySend ⟨txBytes, idValue⟩ with
    | .ok queue =>
      ⟨acceptedResponse (hashText (computeTransactionHash alloy txBytes)) idValue, queue,
        validated.events⟩
    | .error .full =>
      ⟨(TransactionError.queueFull transactionQueueCapacity).toJsonRpcError idValue,
        transactionSender, validated.events⟩
    | .error .closed =>
      ⟨(TransactionError.internalError "Transaction processor channel closed").toJsonRpcError
        idValue, transactionSender, validated.events⟩

-- ---------------------------------------------------------------------------
-- What each check accepts
-- ---------------------------------------------------------------------------

/-- The fee rule of each transaction type against a base fee. -/
def FeeRule (baseFee : Nat) : TxEnvelope → Prop
  | .legacy gasPrice _ => baseFee ≤ gasPrice
  | .eip2930 gasPrice _ => baseFee ≤ gasPrice
  | .eip1559 maxFeePerGas maxPriorityFeePerGas _ =>
    maxPriorityFeePerGas ≤ maxFeePerGas ∧ baseFee ≤ maxPriorityFeePerGas
  | .eip4844 _ => False
  | .eip7702 maxFeePerGas maxPriorityFeePerGas _ =>
    maxPriorityFeePerGas ≤ maxFeePerGas ∧ baseFee ≤ maxPriorityFeePerGas

/-- The type bytes under which an envelope's own fee fields are read. -/
def LabelFits (txType : UInt8) : TxEnvelope → Prop
  | .legacy _ _ => txType = TxTypes.LEGACY ∨ txType = TxTypes.EIP2930
  | .eip2930 _ _ => txType = TxTypes.LEGACY ∨ txType = TxTypes.EIP2930
  | .eip1559 _ _ _ => txType = TxTypes.EIP1559 ∨ txType = TxTypes.EIP7702
  | .eip4844 _ => False
  | .eip7702 _ _ _ => txType = TxTypes.EIP1559 ∨ txType = TxTypes.EIP7702

theorem validateGasPrice_eq_ok {gasPrice minProtocolFee : Nat} :
    validateGasPrice gasPrice minProtocolFee = .ok () ↔ minProtocolFee ≤ gasPrice := by
  unfold validateGasPrice
  split
  case isTrue hlow => simp only [reduceCtorEq, false_iff]; omega
  case isFalse hhigh => simp only [true_iff]; omega

theorem validateDynamicFees_eq_ok {maxFee priorityFee minProtocolFee : Nat} :
    validateDynamicFees maxFee priorityFee minProtocolFee = .ok () ↔
      priorityFee ≤ maxFee ∧ minProtocolFee ≤ priorityFee := by
  unfold validateDynamicFees
  split
  case isTrue hexceeds => simp only [reduceCtorEq, false_iff]; omega
  case isFalse hexceeds =>
    split
    case isTrue hmax => simp only [reduceCtorEq, false_iff]; omega
    case isFalse hmax =>
      split
      case isTrue hpriority => simp only [reduceCtorEq, false_iff]; omega
      case isFalse hpriority => simp only [true_iff]; omega

theorem validateLegacyOrEip2930_eq_ok {tx : TxEnvelope} {minProtocolFee : Nat}
    {txType : UInt8} (htype : txType = TxTypes.LEGACY ∨ txType = TxTypes.EIP2930) :
    validateLegacyOrEip2930 tx minProtocolFee txType = .ok () ↔
      LabelFits txType tx ∧ FeeRule minProtocolFee tx := by
  have hdynamic : ¬(txType = TxTypes.EIP1559 ∨ txType = TxTypes.EIP7702) := by
    rcases htype with rfl | rfl <;> decide
  cases tx with
  | legacy gasPrice _ =>
    rw [validateLegacyOrEip2930, validateGasPrice_eq_ok, LabelFits, FeeRule]
    exact (and_iff_right htype).symm
  | eip2930 gasPrice _ =>
    rw [validateLegacyOrEip2930, validateGasPrice_eq_ok, LabelFits, FeeRule]
    exact (and_iff_right htype).symm
  | eip1559 => simp [validateLegacyOrEip2930, LabelFits, hdynamic]
  | eip4844 => simp [validateLegacyOrEip2930, LabelFits]
  | eip7702 => simp [validateLegacyOrEip2930, LabelFits, hdynamic]

theorem validateEip1559_eq_ok {tx : TxEnvelope} {minProtocolFee : Nat} {txType : UInt8}
    (htype : txType = TxTypes.EIP1559 ∨ txType = TxTypes.EIP7702) :
    validateEip1559 tx minProtocolFee = .ok () ↔
      LabelFits txType tx ∧ FeeRule minProtocolFee tx := by
  have hstatic : ¬(txType = TxTypes.LEGACY ∨ txType = TxTypes.EIP2930) := by
    rcases htype with rfl | rfl <;> decide
  cases tx with
  | legacy => simp [validateEip1559, LabelFits, hstatic]
  | eip2930 => simp [validateEip1559, LabelFits, hstatic]
  | eip1559 maxFee priorityFee _ =>
    rw [validateEip1559, validateDynamicFees_eq_ok, LabelFits, FeeRule]
    exact (and_iff_right htype).symm
  | eip4844 => simp [validateEip1559, LabelFits]
  | eip7702 maxFee priorityFee _ =>
    rw [validateEip1559, validateDynamicFees_eq_ok, LabelFits, FeeRule]
    exact (and_iff_right htype).symm

/-- **The fee check.** Chosen by the label, it accepts exactly the envelopes that the
label fits and that obey their own fee rule. -/
theorem validateGasFeeWithType_eq_ok {tx : TxEnvelope} {minProtocolFee : Nat}
    {txType : UInt8} :
    validateGasFeeWithType tx minProtocolFee txType = .ok () ↔
      LabelFits txType tx ∧ FeeRule minProtocolFee tx := by
  unfold validateGasFeeWithType
  split
  case isTrue hstatic => exact validateLegacyOrEip2930_eq_ok hstatic
  case isFalse hstatic =>
    split
    case isTrue hdynamic => exact validateEip1559_eq_ok hdynamic
    case isFalse hdynamic =>
      have hfits : ¬LabelFits txType tx := by
        cases tx <;> simp [LabelFits, hstatic, hdynamic]
      split <;> simp [hfits]

/-- What parsing accepts: a nonempty slice of bounded size and supported type, whose
front decodes. -/
theorem parseRlpTransaction_eq_ok {alloy : Alloy} {data : List UInt8} {tx : TxEnvelope}
    {txType : UInt8} :
    parseRlpTransaction alloy data = .ok (tx, txType) ↔
      data.length ≤ maxTransactionSize ∧ detectTransactionType data = .ok txType ∧
        ¬UnsupportedType txType ∧ ∃ rest, alloy.decode data = .ok (tx, rest) := by
  unfold parseRlpTransaction
  split
  case isTrue hlarge =>
    have hsize : ¬data.length ≤ maxTransactionSize := Nat.not_le.mpr hlarge
    simp [hsize]
  case isFalse hsmall =>
    have hsize : data.length ≤ maxTransactionSize := Nat.not_lt.mp hsmall
    cases hdetect : detectTransactionType data with
    | error e => simp
    | ok detected =>
      by_cases hunsupported : UnsupportedType detected
      · simp only [if_pos hunsupported, reduceCtorEq, Except.ok.injEq, false_iff]
        rintro ⟨-, rfl, hsupported, -⟩
        exact hsupported hunsupported
      · cases hdecode : alloy.decode data with
        | error e => simp [hunsupported]
        | ok decoded =>
          obtain ⟨decodedTx, rest⟩ := decoded
          simp only [if_neg hunsupported, Except.ok.injEq, Prod.mk.injEq, hsize, true_and]
          refine ⟨?_, ?_⟩
          · rintro ⟨rfl, rfl⟩
            exact ⟨rfl, hunsupported, rest, rfl, rfl⟩
          · rintro ⟨rfl, -, -, rfl, -⟩
            exact ⟨rfl, rfl⟩

end IgraRpc
