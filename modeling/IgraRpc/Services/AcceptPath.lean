import IgraRpc.Lib.Result
import IgraRpc.Services.Transaction

/-!
# The order of the accept path

`acceptChecks` states what a submission is for: a chain of independent checks, of
which the first that fails decides the answer. `processTransaction` validates the
same bytes twice, in three nested functions; it refines the chain:

* `processTransaction_agrees` — the answer is that of the first failing check and
  the queue is unchanged, or nothing fails and the queue has one more item;
* `processTransaction_of_malformed` — a request that is malformed on its own is
  answered without the EL, the fee cache or the queue.
-/

namespace IgraRpc

open Lib

-- ---------------------------------------------------------------------------
-- The checks
-- ---------------------------------------------------------------------------

/-- Why a submission is refused, in the order the reasons are looked for. -/
inductive AcceptFault where
  | missingPrefix
  | badHex
  | malformed (e : AppError)
  | noBaseFee (e : AppError)
  | feeTooLow (e : TransactionError)
  | closed
  | full

/-- The answer to a refused submission. Hex that does not decode is answered with the
id's text in place of the id. -/
def AcceptFault.response (req : RpcRequest) (idValue : Value) : AcceptFault → Value
  | missingPrefix => AppError.invalidTransactionFormat.toJsonRpcError req.id
  | badHex =>
    AppError.invalidTransactionFormat.toJsonRpcError (.string (extractTransactionId req))
  | malformed e => (TransactionError.invalidTransactionFormat e.display).toJsonRpcError req.id
  | noBaseFee e => (GasError.baseFetchFailed e.display).toJsonRpcError idValue
  | feeTooLow e => e.toJsonRpcError idValue
  | closed =>
    (TransactionError.internalError "Transaction processor channel closed").toJsonRpcError
      idValue
  | full => (TransactionError.queueFull transactionQueueCapacity).toJsonRpcError idValue

theorem AcceptFault.response_result (req : RpcRequest) (idValue : Value)
    (fault : AcceptFault) : (fault.response req idValue).get "result" = none := by
  cases fault <;> rfl

/-- The text a request submits, as bytes. -/
def submittedText (req : RpcRequest) : List UInt8 :=
  strBytes (((req.params.index 0).asStr).getD "")

/-- The digits behind the prefix, an even number of them. -/
def submittedDigits (req : RpcRequest) : List UInt8 :=
  let digits := (submittedText req).drop 2
  if digits.length % 2 = 0 then digits else 48 :: digits

/-- The text must start with `0x` and the rest of it be hex. -/
def formatCheck (req : RpcRequest) : Except AcceptFault (List UInt8) :=
  if hexPrefix.isPrefixOf (submittedText req) then
    (hexDecode (submittedDigits req)).mapError fun _ => .badHex
  else .error .missingPrefix

/-- The bytes must be of bounded size, of a supported type, and decode. -/
def envelopeCheck (alloy : Alloy) (txBytes : List UInt8) :
    Except AcceptFault (TxEnvelope × UInt8) :=
  (parseRlpTransaction alloy txBytes).mapError .malformed

/-- There must be a base fee. -/
def baseFeeCheck (alloy : Alloy) (view : FeeView) : Except AcceptFault Nat :=
  (view.baseFee alloy).result.mapError .noBaseFee

/-- The envelope must pay the base fee. -/
def feeRuleCheck (tx : TxEnvelope) (baseFee : Nat) (txType : UInt8) :
    Except AcceptFault Unit :=
  (validateGasFeeWithType tx baseFee txType).mapError .feeTooLow

/-- The queue must be open, and then have a place. -/
def queueCheck (queue : TransactionQueue) : Except AcceptFault Unit :=
  if queue.closed then .error .closed
  else if queue.items.length = transactionQueueCapacity then .error .full
  else .ok ()

/-- The checks on the request alone. -/
def formatChecks (alloy : Alloy) (req : RpcRequest) :
    Except AcceptFault (List UInt8 × TxEnvelope × UInt8) := do
  let txBytes ← formatCheck req
  let (tx, txType) ← envelopeCheck alloy txBytes
  return (txBytes, tx, txType)

/-- The checks on the fees. -/
def feeChecks (alloy : Alloy) (view : FeeView) (tx : TxEnvelope) (txType : UInt8) :
    Except AcceptFault Unit := do
  let baseFee ← baseFeeCheck alloy view
  feeRuleCheck tx baseFee txType

/-- All checks in order; `queueOk` is the check on the queue. -/
def acceptChecks (alloy : Alloy) (view : FeeView) (req : RpcRequest)
    (queueOk : Except AcceptFault Unit) : Except AcceptFault (List UInt8) := do
  let (txBytes, tx, txType) ← formatChecks alloy req
  feeChecks alloy view tx txType
  queueOk
  return txBytes

/-- A submission does what a chain of checks asks for: the first failing check is
answered and nothing is enqueued, or the bytes are enqueued and their hash answered. -/
def Submission.AgreesWith (r : Submission) (checks : Except AcceptFault (List UInt8))
    (alloy : Alloy) (uuid : String) (req : RpcRequest) (queue : TransactionQueue) : Prop :=
  match checks with
  | .ok txBytes =>
    r.response = acceptedResponse (hashText (computeTransactionHash alloy txBytes))
        (submissionId uuid req) ∧
      r.queue.items = queue.items ++ [⟨txBytes, submissionId uuid req⟩] ∧
      r.queue.closed = queue.closed
  | .error fault =>
    r.response = fault.response req (submissionId uuid req) ∧
      r.response.get "result" = none ∧ r.queue = queue

-- ---------------------------------------------------------------------------
-- The code refines the checks
-- ---------------------------------------------------------------------------

/-- Extraction and hex decoding are the check of the format. -/
theorem formatCheck_spec (req : RpcRequest) :
    (∃ txBytes rawTx, formatCheck req = .ok txBytes ∧ extractRawTransaction req = .ok rawTx ∧
      decodeHexTransaction rawTx (extractTransactionId req) = .ok txBytes) ∨
    (∃ rawTx, formatCheck req = .error .badHex ∧ extractRawTransaction req = .ok rawTx ∧
      decodeHexTransaction rawTx (extractTransactionId req) =
        .error (AppError.invalidTransactionFormat.toJsonRpcError
          (.string (extractTransactionId req)))) ∨
    (formatCheck req = .error .missingPrefix ∧ extractRawTransaction req =
      .error (AppError.invalidTransactionFormat.toJsonRpcError req.id)) := by
  by_cases hprefix : hexPrefix.isPrefixOf (submittedText req) = true
  · have hextract : extractRawTransaction req = .ok (submittedText req) := if_pos hprefix
    have hformat : formatCheck req =
        (hexDecode (submittedDigits req)).mapError fun _ => .badHex := if_pos hprefix
    -- the prefix has two bytes, so the digits are odd exactly when the text is
    have hdigits : (if (submittedText req).length % 2 ≠ 0 then 48 :: (submittedText req).drop 2
        else (submittedText req).drop 2) = submittedDigits req := by
      have hlen : 2 ≤ (submittedText req).length :=
        (List.isPrefixOf_iff_prefix.mp hprefix).length_le
      simp only [submittedDigits, List.length_drop]
      split_ifs with h1 h2 h2 <;> first | rfl | omega
    cases hhex : hexDecode (submittedDigits req) with
    | ok txBytes =>
      refine Or.inl ⟨txBytes, submittedText req, ?_, hextract, ?_⟩
      · rw [hformat, hhex]
        rfl
      · simp only [decodeHexTransaction, hdigits, hhex]
    | error e =>
      refine Or.inr (Or.inl ⟨submittedText req, ?_, hextract, ?_⟩)
      · rw [hformat, hhex]
        rfl
      · simp only [decodeHexTransaction, hdigits, hhex]
  · refine Or.inr (Or.inr ⟨?_, ?_⟩)
    · exact if_neg hprefix
    · exact if_neg hprefix

/-- The first round of validation is the checks on the request alone. -/
theorem validateTransactionRequest_none (alloy : Alloy) (req : RpcRequest) (idValue : Value) :
    validateTransactionRequest alloy req none =
      match formatChecks alloy req with
      | .ok (txBytes, _, _) => (.ok (), some txBytes)
      | .error fault => (.error (fault.response req idValue), none) := by
  rcases formatCheck_spec req with ⟨txBytes, rawTx, hformat, hraw, hdecode⟩ |
    ⟨rawTx, hformat, hraw, hdecode⟩ | ⟨hformat, hraw⟩
  · simp only [validateTransactionRequest, formatChecks, hformat, hraw, hdecode, Bind.bind,
      Except.bind, validateComprehensiveTransaction, parseTransactionWithContext, envelopeCheck]
    cases parseRlpTransaction alloy txBytes with
    | error e => rfl
    | ok parsed => rfl
  · simp only [validateTransactionRequest, formatChecks, hformat, hraw, hdecode]
    rfl
  · simp only [validateTransactionRequest, formatChecks, hformat, hraw]
    rfl

theorem formatChecks_eq_ok {alloy : Alloy} {req : RpcRequest} {txBytes : List UInt8}
    {tx : TxEnvelope} {txType : UInt8} :
    formatChecks alloy req = .ok (txBytes, tx, txType) ↔
      formatCheck req = .ok txBytes ∧ parseRlpTransaction alloy txBytes = .ok (tx, txType) := by
  simp only [formatChecks, envelopeCheck, Result.bind_eq_ok, Result.mapError_eq_ok,
    Result.pure_eq_ok, Prod.mk.injEq]
  refine ⟨?_, ?_⟩
  · rintro ⟨_, hformat, ⟨_, _⟩, hparse, rfl, rfl, rfl⟩
    exact ⟨hformat, hparse⟩
  · intro ⟨hformat, hparse⟩
    exact ⟨txBytes, hformat, (tx, txType), hparse, rfl, rfl, rfl⟩

theorem feeChecks_eq_ok {alloy : Alloy} {view : FeeView} {tx : TxEnvelope} {txType : UInt8} :
    feeChecks alloy view tx txType = .ok () ↔
      ∃ baseFee, (view.baseFee alloy).result = .ok baseFee ∧ LabelFits txType tx ∧
        FeeRule baseFee tx := by
  simp only [feeChecks, baseFeeCheck, feeRuleCheck, Result.bind_eq_ok, Result.mapError_eq_ok,
    validateGasFeeWithType_eq_ok]

/-- All checks pass exactly when the request is well formed, the fees suffice and the
queue takes one more item. -/
theorem acceptChecks_eq_ok {alloy : Alloy} {view : FeeView} {req : RpcRequest}
    {queueOk : Except AcceptFault Unit} {txBytes : List UInt8} :
    acceptChecks alloy view req queueOk = .ok txBytes ↔
      ∃ tx txType, formatChecks alloy req = .ok (txBytes, tx, txType) ∧
        feeChecks alloy view tx txType = .ok () ∧ queueOk = .ok () := by
  simp only [acceptChecks, Result.bind_eq_ok, Result.pure_eq_ok]
  refine ⟨?_, ?_⟩
  · rintro ⟨⟨_, tx, txType⟩, hformat, _, hfees, _, hqueue, rfl⟩
    exact ⟨tx, txType, hformat, hfees, hqueue⟩
  · intro ⟨tx, txType, hformat, hfees, hqueue⟩
    exact ⟨(txBytes, tx, txType), hformat, (), hfees, (), hqueue, rfl⟩

/-- For a well-formed request the fees and the queue are left to check. -/
theorem acceptChecks_of_wellFormed {alloy : Alloy} {req : RpcRequest} {txBytes : List UInt8}
    {tx : TxEnvelope} {txType : UInt8}
    (h : formatChecks alloy req = .ok (txBytes, tx, txType)) (view : FeeView)
    (queueOk : Except AcceptFault Unit) :
    acceptChecks alloy view req queueOk = (do
      feeChecks alloy view tx txType
      queueOk
      return txBytes) := by
  rw [acceptChecks, h, Result.ok_bind]

/-- The second round parses the same bytes again: only the fees can still fail. -/
theorem validateTransactionFees_of_parsed {alloy : Alloy} {txBytes : List UInt8}
    {tx : TxEnvelope} {txType : UInt8} {baseFee : Nat}
    (h : parseRlpTransaction alloy txBytes = .ok (tx, txType)) :
    validateTransactionFees alloy txBytes (some baseFee) =
      validateGasFeeWithType tx baseFee txType := by
  simp only [validateTransactionFees, validateComprehensiveTransaction,
    parseTransactionWithContext, h]

/-- A request that is malformed on its own meets neither the EL nor the cache. -/
theorem validateAcceptRequest_of_malformed {alloy : Alloy} {req : RpcRequest}
    {fault : AcceptFault} (h : formatChecks alloy req = .error fault) (view : FeeView)
    (idValue : Value) :
    validateAcceptRequest alloy view req idValue =
      ⟨[], .error (fault.response req idValue)⟩ := by
  rw [validateAcceptRequest, validateTransactionRequest_none alloy req idValue, h]

/-- A well-formed request is decided by the base fee and the fee rule. -/
theorem validateAcceptRequest_of_wellFormed {alloy : Alloy} {req : RpcRequest}
    {txBytes : List UInt8} {tx : TxEnvelope} {txType : UInt8}
    (h : formatChecks alloy req = .ok (txBytes, tx, txType)) (view : FeeView)
    (idValue : Value) :
    (validateAcceptRequest alloy view req idValue).result =
      match feeChecks alloy view tx txType with
      | .error fault => .error (fault.response req idValue)
      | .ok () => .ok txBytes := by
  have hparse := (formatChecks_eq_ok.mp h).2
  rw [validateAcceptRequest, validateTransactionRequest_none alloy req idValue, h]
  simp only [feeChecks, baseFeeCheck, feeRuleCheck]
  cases (view.baseFee alloy).result with
  | error e => rfl
  | ok baseFee =>
    simp only [validateTransactionFees_of_parsed hparse, Except.mapError, Bind.bind, Except.bind]
    cases validateGasFeeWithType tx baseFee txType with
    | error e => rfl
    | ok u => rfl

/-- The enqueue is the check of the queue. -/
theorem queueCheck_spec (queue : TransactionQueue) (item : TransactionRequest) :
    (∃ queue', queueCheck queue = .ok () ∧ queue.trySend item = .ok queue') ∨
    (queueCheck queue = .error .closed ∧ queue.trySend item = .error .closed) ∨
    (queueCheck queue = .error .full ∧ queue.trySend item = .error .full) := by
  have hbound := queue.bounded
  unfold queueCheck
  split
  case isTrue hclosed =>
    exact Or.inr (Or.inl ⟨rfl, Channel.trySend_eq_closed.mpr hclosed⟩)
  case isFalse hopen =>
    have hopen : queue.closed = false := by simpa using hopen
    split
    case isTrue hfull => exact Or.inr (Or.inr ⟨rfl, Channel.trySend_eq_full.mpr ⟨hopen, hfull⟩⟩)
    case isFalse hroom =>
      have hlt : queue.items.length < transactionQueueCapacity := by omega
      let queue' : TransactionQueue :=
        ⟨queue.items ++ [item], false, by rw [List.length_append]; exact hlt⟩
      exact Or.inl ⟨queue', rfl, Channel.trySend_eq_ok.mpr ⟨hopen, hlt, rfl, rfl⟩⟩

/-- **Refinement.** A submission does what the checks ask for, in their order. -/
theorem processTransaction_agrees (alloy : Alloy) (view : FeeView) (uuid : String)
    (req : RpcRequest) (queue : TransactionQueue) :
    (processTransaction alloy view uuid req queue).AgreesWith
      (acceptChecks alloy view req (queueCheck queue)) alloy uuid req queue := by
  have hrefused : ∀ fault, (validateAcceptRequest alloy view req (submissionId uuid req)).result
      = .error (fault.response req (submissionId uuid req)) →
      (processTransaction alloy view uuid req queue).AgreesWith (.error fault) alloy uuid req
        queue := by
    intro fault h
    simp only [processTransaction, h]
    exact ⟨rfl, fault.response_result _ _, rfl⟩
  cases hformat : formatChecks alloy req with
  | error fault =>
    rw [acceptChecks, hformat]
    apply hrefused
    rw [validateAcceptRequest_of_malformed hformat]
  | ok checked =>
    obtain ⟨txBytes, tx, txType⟩ := checked
    have hvalidated := validateAcceptRequest_of_wellFormed hformat view (submissionId uuid req)
    rw [acceptChecks_of_wellFormed hformat view (queueCheck queue)]
    cases hfees : feeChecks alloy view tx txType with
    | error fault =>
      rw [hfees] at hvalidated
      rw [Result.error_bind]
      exact hrefused fault hvalidated
    | ok u =>
      rw [hfees] at hvalidated
      have haccepted : (validateAcceptRequest alloy view req (submissionId uuid req)).result =
          .ok txBytes := hvalidated
      rw [Result.ok_bind]
      rcases queueCheck_spec queue ⟨txBytes, submissionId uuid req⟩ with
        ⟨queue', hcheck, hsend⟩ | ⟨hcheck, hsend⟩ | ⟨hcheck, hsend⟩
      · obtain ⟨hopen, -, hitems, hopen'⟩ := Channel.trySend_eq_ok.mp hsend
        simp only [processTransaction, haccepted, hsend, hcheck]
        exact ⟨rfl, hitems, hopen'.trans hopen.symm⟩
      · simp only [processTransaction, haccepted, hsend, hcheck]
        exact ⟨rfl, rfl, rfl⟩
      · simp only [processTransaction, haccepted, hsend, hcheck]
        exact ⟨rfl, rfl, rfl⟩

theorem processTransaction_of_ok {alloy : Alloy} {view : FeeView} {req : RpcRequest}
    {queue : TransactionQueue} {txBytes : List UInt8}
    (h : acceptChecks alloy view req (queueCheck queue) = .ok txBytes) (uuid : String) :
    (processTransaction alloy view uuid req queue).AgreesWith (.ok txBytes) alloy uuid req
      queue :=
  h ▸ processTransaction_agrees alloy view uuid req queue

theorem processTransaction_of_error {alloy : Alloy} {view : FeeView} {req : RpcRequest}
    {queue : TransactionQueue} {fault : AcceptFault}
    (h : acceptChecks alloy view req (queueCheck queue) = .error fault) (uuid : String) :
    (processTransaction alloy view uuid req queue).AgreesWith (.error fault) alloy uuid req
      queue :=
  h ▸ processTransaction_agrees alloy view uuid req queue

/-- A malformed request is answered without a call, and the same whatever the EL, the
cache and the queue are. -/
theorem processTransaction_of_malformed {alloy : Alloy} {req : RpcRequest}
    {fault : AcceptFault} (h : formatChecks alloy req = .error fault) (view : FeeView)
    (uuid : String) (queue : TransactionQueue) :
    processTransaction alloy view uuid req queue =
      ⟨fault.response req (submissionId uuid req), queue, []⟩ := by
  simp only [processTransaction, validateAcceptRequest_of_malformed h]

/-- A request whose first parameter is `0x` and hex submits the bytes behind it. -/
theorem formatCheck_hex {req : RpcRequest} {txBytes : List UInt8}
    (h : (req.params.index 0).asStr = some ("0x" ++ hexEncode txBytes)) :
    formatCheck req = .ok txBytes := by
  have htext : submittedText req = hexPrefix ++ hexEncodeBytes txBytes := by
    rw [submittedText, h, Option.getD_some, strBytes_append, strBytes_hexEncode]
    rfl
  have hprefix : hexPrefix.isPrefixOf (submittedText req) = true := by
    rw [htext, List.isPrefixOf_iff_prefix]
    exact List.prefix_append _ _
  have hdigits : submittedDigits req = hexEncodeBytes txBytes := by
    have heven : (hexEncodeBytes txBytes).length % 2 = 0 := by
      rw [hexEncodeBytes_length]
      omega
    have hdrop : (submittedText req).drop 2 = hexEncodeBytes txBytes := by
      rw [htext]
      rfl
    simp only [submittedDigits, hdrop, heven, if_true]
  rw [formatCheck, if_pos hprefix, hdigits, hexDecode_hexEncodeBytes, Result.mapError_ok]

-- ---------------------------------------------------------------------------
-- Atomicity and order
-- ---------------------------------------------------------------------------

/-- **Atomic and ordered.** A submission either enqueues its bytes and answers with
their hash, or changes nothing and answers for the first failing check: format, envelope,
base fee, fee rule, channel closed, queue full. When the request fails on its own, no
call is made and the answer is the same for every EL, cache and queue. -/
theorem processTransaction_atomic (alloy : Alloy) (view : FeeView) (uuid : String)
    (req : RpcRequest) (queue : TransactionQueue) :
    (processTransaction alloy view uuid req queue).AgreesWith
      (acceptChecks alloy view req (queueCheck queue)) alloy uuid req queue ∧
    ∀ fault, formatChecks alloy req = .error fault →
      (processTransaction alloy view uuid req queue).events = [] ∧
      ∀ view' queue', (processTransaction alloy view' uuid req queue').response =
        (processTransaction alloy view uuid req queue).response := by
  refine ⟨processTransaction_agrees alloy view uuid req queue, ?_⟩
  intro fault h
  refine ⟨?_, ?_⟩
  · rw [processTransaction_of_malformed h]
  · intro view' queue'
    rw [processTransaction_of_malformed h, processTransaction_of_malformed h]

/-! ### A legacy transaction -/

/-- A legacy transaction paying 10^9 wei for gas: sixteen bytes behind one list
header. -/
def legacyTx : List UInt8 :=
  [0xcf, 0x80, 0x84, 0x3b, 0x9a, 0xca, 0x00, 0x82, 0x52, 0x08, 0x80, 0x80, 0x80, 0x1b, 0x01,
    0x01]

/-- The base fee of a block reply. -/
def parseBlockReply (reply : Value) : Except String (Option Nat) :=
  match ((reply.get "result").bind (·.get "baseFeePerGas")).bind Value.asStr with
  | some fee => .ok (u256FromHex (fee.toList.drop 2))
  | none => .ok none

/-- Alloy on `legacyTx`, alone or with a zero byte behind it. -/
def legacyAlloy : Alloy where
  decode data :=
    if legacyTx.isPrefixOf data then .ok (.legacy 1000000000 legacyTx, data.drop 16)
    else .error "unexpected string"
  encode2718
    | .legacy _ signed => signed
    | .eip2930 _ signed => signed
    | .eip1559 _ _ signed => signed
    | .eip4844 signed => signed
    | .eip7702 _ _ signed => signed
  keccak256 data :=
    if data = legacyTx then
      ⟨[137, 179, 158, 205, 68, 196, 27, 113, 197, 128, 151, 225, 152, 59, 187, 188, 46, 108,
        162, 185, 105, 215, 92, 153, 33, 173, 116, 7, 218, 84, 92, 176], rfl⟩
    else
      ⟨[52, 123, 175, 145, 205, 124, 242, 182, 77, 114, 109, 96, 112, 39, 146, 242, 74, 235,
        255, 72, 206, 120, 115, 17, 173, 146, 133, 15, 147, 237, 9, 235], rfl⟩
  parseBlock := parseBlockReply

/-- An EL whose latest block has a base fee of 7 wei. -/
def cheapEl : El := fun _ =>
  some (.object [("jsonrpc", .string "2.0"), ("id", .int 1),
    ("result", .object [("baseFeePerGas", .string "0x7")])])

/-- A fresh fee cache before that EL, with a floor of 1 gwei. -/
def cheapView : FeeView where
  config := ⟨1⟩
  el := cheapEl
  cache := none
  now := 0

def sendRawTransaction (txBytes : List UInt8) : RpcRequest where
  jsonrpc := "2.0"
  method := "eth_sendRawTransaction"
  params := .array [.string ("0x" ++ hexEncode txBytes)]
  id := .int 1

theorem sendRawTransaction_formatCheck (txBytes : List UInt8) :
    formatCheck (sendRawTransaction txBytes) = .ok txBytes := formatCheck_hex rfl

theorem cheapView_baseFee : (cheapView.baseFee legacyAlloy).result = .ok 1000000000 := rfl

/-- The transaction is read from the front of the slice, whatever stands behind it. -/
theorem legacyAlloy_decode (rest : List UInt8) :
    legacyAlloy.decode (legacyTx ++ rest) = .ok (.legacy 1000000000 legacyTx, rest) := by
  have hprefix : legacyTx.isPrefixOf (legacyTx ++ rest) = true :=
    List.isPrefixOf_iff_prefix.mpr (List.prefix_append _ _)
  simp only [legacyAlloy, hprefix, if_true]
  rfl

theorem legacyTx_formatChecks {rest : List UInt8} (h : rest.length ≤ 1) :
    formatChecks legacyAlloy (sendRawTransaction (legacyTx ++ rest)) =
      .ok (legacyTx ++ rest, .legacy 1000000000 legacyTx, TxTypes.LEGACY) := by
  have hsize : (legacyTx ++ rest).length ≤ maxTransactionSize := by
    have hlen : legacyTx.length + 1 ≤ maxTransactionSize := by decide
    rw [List.length_append]
    exact Nat.le_trans (Nat.add_le_add_left h _) hlen
  exact formatChecks_eq_ok.mpr ⟨sendRawTransaction_formatCheck _,
    parseRlpTransaction_eq_ok.mpr ⟨hsize, rfl, by decide, rest, legacyAlloy_decode rest⟩⟩

theorem legacyTx_feeChecks :
    feeChecks legacyAlloy cheapView (.legacy 1000000000 legacyTx) TxTypes.LEGACY = .ok () :=
  feeChecks_eq_ok.mpr ⟨1000000000, cheapView_baseFee, Or.inl rfl, Nat.le_refl _⟩

/-- The check of the queue that looks for room before it looks whether anyone listens. -/
def roomFirst (queue : TransactionQueue) : Except AcceptFault Unit :=
  if queue.items.length = transactionQueueCapacity then .error .full
  else if queue.closed then .error .closed
  else .ok ()

/-- A full queue whose receiver is closed. -/
def fullAndClosed : TransactionQueue where
  items := List.replicate transactionQueueCapacity ⟨legacyTx, .int 0⟩
  closed := true
  bounded := Nat.le_of_eq List.length_replicate

/-- The queue does not look for room first: a full queue that is closed answers that it
is closed. -/
theorem processTransaction_not_roomFirst :
    ¬(processTransaction legacyAlloy cheapView "" (sendRawTransaction legacyTx)
        fullAndClosed).AgreesWith
      (acceptChecks legacyAlloy cheapView (sendRawTransaction legacyTx)
        (roomFirst fullAndClosed))
      legacyAlloy "" (sendRawTransaction legacyTx) fullAndClosed := by
  have hfull : roomFirst fullAndClosed = .error .full := if_pos List.length_replicate
  have hclosed : queueCheck fullAndClosed = .error .closed := if_pos rfl
  have hformat : formatChecks legacyAlloy (sendRawTransaction legacyTx) = _ :=
    legacyTx_formatChecks (Nat.zero_le 1)
  have hactual : acceptChecks legacyAlloy cheapView (sendRawTransaction legacyTx)
      (queueCheck fullAndClosed) = .error .closed := by
    simp only [acceptChecks, hformat, legacyTx_feeChecks, hclosed, Result.ok_bind,
      Result.error_bind]
  have hexpected : acceptChecks legacyAlloy cheapView (sendRawTransaction legacyTx)
      (roomFirst fullAndClosed) = .error .full := by
    simp only [acceptChecks, hformat, legacyTx_feeChecks, hfull, Result.ok_bind,
      Result.error_bind]
  rw [hexpected]
  intro hclaimed
  have hsame := (processTransaction_of_error hactual "").1.symm.trans hclaimed.1
  have hcodes : some (Value.int (-32603)) = some (Value.int (-32000)) :=
    congrArg (fun v => (v.get "error").bind (·.get "code")) hsame
  exact absurd hcodes (by simp [Value.int])

end IgraRpc
