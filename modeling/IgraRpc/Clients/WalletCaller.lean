import IgraRpc.Services.Lane
import IgraRpc.Types.WalletCodec

/-!
# The wallet daemon's client — `clients/wallet_caller.rs`, `config/retry.rs`

One submission to L1: create unsigned transactions (with retries while the daemon
has no funds), mine and check the last one, have them signed, broadcast them.

The daemon, the clock and the random draws are an environment: a reply for every
call. What the client does to the outside is the list of `WalletEvent`s it emits,
in order, so that "sign is never called" is a statement about that list.
-/

namespace IgraRpc

open Lib

-- ---------------------------------------------------------------------------
-- Calls and replies
-- ---------------------------------------------------------------------------

/-- A gRPC status: its code, its message and its `Display` text. -/
structure Status where
  resourceExhausted : Bool
  message : String
  text : String
  deriving DecidableEq

/-- What comes back from a gRPC call under a timeout. -/
inductive GrpcReply (α : Type) where
  | ok (a : α)
  | status (s : Status)
  | elapsed

/-- Parameters for creating a transaction. -/
structure TransactionParams where
  toAddress : String
  amount : UInt64
  isSendAll : Bool
  payload : List UInt8
  l2TransactionHash : Option String
  deriving DecidableEq

/-- `TransactionParams::entry_transaction`. -/
def TransactionParams.entryTransaction (toAddress : String) (amount : UInt64)
    (payload : List UInt8) : TransactionParams :=
  { toAddress, amount, isSendAll := false, payload, l2TransactionHash := none }

/-- `TransactionParams::send_all`. -/
def TransactionParams.sendAll (toAddress : String) (payload : List UInt8)
    (transactionHash : Option String) : TransactionParams :=
  { toAddress, amount := 0, isSendAll := true, payload, l2TransactionHash := transactionHash }

/-- What the client does to the outside. -/
inductive WalletEvent where
  | create (params : TransactionParams)
  | sleep (ms : Nat)
  | sign (transactions : List Proto.WalletSignableTransaction)
  | broadcast (transactions : List Proto.WalletSignableTransaction)
  deriving DecidableEq

/-- Everything a submission depends on besides its arguments: the daemon's answer to
each call, the runtime's treatment of the mining task, and the jitter draws. -/
structure WalletEnv where
  createReply : Nat → GrpcReply (List Proto.WalletSignableTransaction)
  signReply : List Proto.WalletSignableTransaction →
    GrpcReply (List Proto.WalletSignableTransaction)
  broadcastReply : List Proto.WalletSignableTransaction → GrpcReply (List String)
  mining : MiningRun
  jitterPercent : Nat → Int

-- ---------------------------------------------------------------------------
-- Errors
-- ---------------------------------------------------------------------------

def grpcTimeoutSecs : Nat := 30

/-- The errors of a submission. Those of the client's construction are left out. -/
inductive WalletCallerError where
  | transactionCreationFailed (status : Status)
  | transactionSigningFailed (status : Status)
  | transactionBroadcastFailed (status : Status)
  | miningFailed (error : AppError)
  | laneEnforcementFailed (error : AppError)
  | noTransactionIds
  | transactionDecodingFailed (reason : String)
  | transactionEncodingFailed (reason : String)
  | grpcTimeout (operation : String) (timeoutSeconds : Nat)

/-- The `Display` text. -/
def WalletCallerError.display : WalletCallerError → String
  | transactionCreationFailed status => s!"Failed to create unsigned transactions: {status.text}"
  | transactionSigningFailed status => s!"Failed to sign transactions: {status.text}"
  | transactionBroadcastFailed status => s!"Failed to broadcast transactions: {status.text}"
  | miningFailed error => s!"Mining failed: {error.display}"
  | laneEnforcementFailed error => s!"Lane enforcement failed: {error.display}"
  | noTransactionIds => "No transaction IDs returned from broadcast"
  | transactionDecodingFailed reason => s!"Failed to decode wallet transaction: {reason}"
  | transactionEncodingFailed reason => s!"Failed to encode wallet transaction: {reason}"
  | grpcTimeout operation timeoutSeconds =>
    s!"Wallet gRPC call '{operation}' timed out after {timeoutSeconds}s"

/-- `needle` stands somewhere in the text. -/
def containsChars (needle : List Char) : List Char → Bool
  | [] => needle.isEmpty
  | c :: rest => needle.isPrefixOf (c :: rest) || containsChars needle rest

/-- `message.contains(needle)`. -/
def containsText (message needle : String) : Bool :=
  containsChars needle.toList message.toList

/-- `is_no_funds_error`. -/
def isNoFundsError (status : Status) : Bool :=
  let messageLower := status.message.toLower
  status.resourceExhausted ||
    (containsText messageLower "no funds" || containsText messageLower "utxo exhausted" ||
      containsText messageLower "insufficient utxo")

/-- `is_utxo_exhaustion_error`. -/
def isUtxoExhaustionError : WalletCallerError → Bool
  | .transactionCreationFailed status => isNoFundsError status
  | _ => false

-- ---------------------------------------------------------------------------
-- Retry delays
-- ---------------------------------------------------------------------------

structure RetryConfig where
  maxAttempts : UInt32
  initialDelayMs : UInt64
  maxDelayMs : UInt64

def u64Max : Nat := 18446744073709551615

/-- `calculate_delay_ms`: doubles with each attempt, saturating, capped. -/
def RetryConfig.calculateDelayMs (retryConfig : RetryConfig) (attempt : Nat) : Nat :=
  if attempt = 0 then 0
  else
    let shift := min (attempt - 1) 63
    let exponentialDelay := min (retryConfig.initialDelayMs.toNat * 2 ^ shift) u64Max
    min exponentialDelay retryConfig.maxDelayMs.toNat

/-- `add_jitter` for the draw `jitterPercent`. -/
def addJitter (jitterPercent : Int) (delayMs : Nat) : Nat :=
  let product := delayMs * jitterPercent.natAbs
  let jitterAmount := if product ≤ u64Max then product / 100 else 0
  if 0 ≤ jitterPercent then min (delayMs + jitterAmount) u64Max
  else delayMs - jitterAmount

-- ---------------------------------------------------------------------------
-- The client
-- ---------------------------------------------------------------------------

/-- `WalletCaller`, less the connection and the password. -/
structure WalletCaller where
  toAddress : String
  laneEnforcement : Option LaneEnforcement

/-- A reply to the named call, with the error a status becomes. -/
def GrpcReply.result {α : Type} (operation : String) (onStatus : Status → WalletCallerError) :
    GrpcReply α → Outcome WalletCallerError α
  | .ok a => .ok a
  | .status s => .err (onStatus s)
  | .elapsed => .err (.grpcTimeout operation grpcTimeoutSecs)

/-- `create_unsigned_transaction`. -/
def createUnsignedTransaction (env : WalletEnv) (attempt : Nat) (params : TransactionParams) :
    Traced WalletEvent WalletCallerError (List Proto.WalletSignableTransaction) :=
  ⟨[.create params], (env.createReply attempt).result "create_unsigned_transactions"
    .transactionCreationFailed⟩

/-- `sign_transactions`. -/
def signTransactions (env : WalletEnv) (transactions : List Proto.WalletSignableTransaction) :
    Traced WalletEvent WalletCallerError (List Proto.WalletSignableTransaction) :=
  ⟨[.sign transactions], (env.signReply transactions).result "sign"
    .transactionSigningFailed⟩

/-- `broadcast_transactions`. -/
def broadcastTransactions (env : WalletEnv)
    (transactions : List Proto.WalletSignableTransaction) :
    Traced WalletEvent WalletCallerError (List String) :=
  ⟨[.broadcast transactions], (env.broadcastReply transactions).result "broadcast"
    .transactionBroadcastFailed⟩

/-- The index and payload length of the first transaction with a payload. -/
def stagingPayload : Nat → List Proto.WalletSignableTransaction → Option (Nat × Nat)
  | _, [] => none
  | i, tx :: rest =>
    if protoPayloadLen tx > 0 then some (i, protoPayloadLen tx) else stagingPayload (i + 1) rest

/-- The error for a staging transaction that carries a payload. -/
def stagingError (i payloadLen : Nat) : WalletCallerError :=
  .laneEnforcementFailed (.laneEnforcementFailed
    (s!"staging tx {i} carries {payloadLen}-byte payload; only the " ++
      "last tx in a multi-tx wallet response may carry payload"))

/-- The gate of one stage, if lane enforcement is on. -/
def laneGate (K : Consensus) (caller : WalletCaller) (stage : Stage)
    (tx : SignableTransaction) : Outcome WalletCallerError Unit :=
  match caller.laneEnforcement with
  | none => .ok ()
  | some e =>
    (Outcome.ofExcept (validateLaneTransaction K tx e.lane e.txIdPrefix stage)).mapErr
      .laneEnforcementFailed

/-- Decode, check, mine, check again and re-encode the last transaction. -/
def prepareLast (K : Consensus) (caller : WalletCaller) (config : MiningConfig)
    (env : WalletEnv) (lastTransaction : Proto.WalletSignableTransaction) :
    Outcome WalletCallerError Proto.WalletSignableTransaction := do
  let signableTx ← (protoToSignableTransaction K lastTransaction).mapErr
    fun e => .transactionDecodingFailed e.display
  laneGate K caller .preMining signableTx
  let (minedTransaction, _) ← (mineTransaction K config env.mining signableTx).mapErr
    .miningFailed
  laneGate K caller .preBroadcast minedTransaction
  (updateProtoWithMinedTransaction lastTransaction minedTransaction).mapErr
    fun e => .transactionEncodingFailed e.display

/-- Sign and broadcast; the result is the last transaction id. -/
def signAndBroadcast (env : WalletEnv) (transactions : List Proto.WalletSignableTransaction) :
    Traced WalletEvent WalletCallerError String := do
  let signedTransactions ← signTransactions env transactions
  let transactionIds ← broadcastTransactions env signedTransactions
  match transactionIds.getLast? with
  | none => .lift (.err .noTransactionIds)
  | some lastTxId => return lastTxId

/-- `complete_transaction_flow`. -/
def completeTransactionFlow (K : Consensus) (caller : WalletCaller) (config : MiningConfig)
    (env : WalletEnv) (unsignedTransactions : List Proto.WalletSignableTransaction) :
    Traced WalletEvent WalletCallerError String :=
  match unsignedTransactions.getLast? with
  | none => .lift (.err .noTransactionIds)
  | some lastTransaction =>
    match stagingPayload 0 unsignedTransactions.dropLast with
    | some (i, payloadLen) => .lift (.err (stagingError i payloadLen))
    | none => do
      let updated ← .lift (prepareLast K caller config env lastTransaction)
      signAndBroadcast env (unsignedTransactions.dropLast ++ [updated])

/-- What the retry loop ends with once its attempts are used up. -/
def retryExhausted (retryConfig : RetryConfig) :
    Option WalletCallerError → WalletCallerError
  | some (.transactionCreationFailed _) =>
    .miningFailed (.retryExhausted retryConfig.maxAttempts.toNat "UTXO exhaustion")
  | some e => e
  | none => .miningFailed (.retryExhausted retryConfig.maxAttempts.toNat
      "UTXO exhaustion (no error captured)")

/-- The attempts still to make, the first of them numbered `attempt`. -/
def retryAttempts (retryConfig : RetryConfig) (env : WalletEnv) (params : TransactionParams) :
    Nat → Nat → Option WalletCallerError →
      Traced WalletEvent WalletCallerError (List Proto.WalletSignableTransaction)
  | 0, _, lastError => .lift (.err (retryExhausted retryConfig lastError))
  | remaining + 1, attempt, _ =>
    let call := createUnsignedTransaction env attempt params
    match call.outcome with
    | .ok result => ⟨call.events, .ok result⟩
    | .panicked => ⟨call.events, .panicked⟩
    | .err e =>
      if isUtxoExhaustionError e then
        let pause := if attempt < retryConfig.maxAttempts.toNat then
          [WalletEvent.sleep (addJitter (env.jitterPercent attempt)
            (retryConfig.calculateDelayMs attempt))] else []
        let rest := retryAttempts retryConfig env params remaining (attempt + 1) (some e)
        ⟨call.events ++ pause ++ rest.events, rest.outcome⟩
      else ⟨call.events, .err e⟩

/-- `create_unsigned_transaction_with_retry`. -/
def createUnsignedTransactionWithRetry (retryConfig : RetryConfig) (env : WalletEnv)
    (params : TransactionParams) :
    Traced WalletEvent WalletCallerError (List Proto.WalletSignableTransaction) :=
  retryAttempts retryConfig env params retryConfig.maxAttempts.toNat 1 none

/-- `mine_and_send_transaction_with_retry`. -/
def mineAndSendTransactionWithRetry (K : Consensus) (caller : WalletCaller)
    (config : MiningConfig) (retryConfig : RetryConfig) (env : WalletEnv)
    (params : TransactionParams) : Traced WalletEvent WalletCallerError String := do
  let unsignedTransactions ← createUnsignedTransactionWithRetry retryConfig env params
  completeTransactionFlow K caller config env unsignedTransactions

end IgraRpc
