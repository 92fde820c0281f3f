import IgraRpc.Services.Mining
import IgraRpc.Tools.LogText

/-!
# What a mining run logs — `services/mining.rs`, `clients/wallet_caller.rs`

The records of `mine_transaction` and of its blocking task, in order, and the line of the
wallet caller for the run. Left out are the performance alerts, which depend on thresholds
of floating-point numbers and have no duration in milliseconds.

* `mineLoopLog` — the records of the nonce loop, written along `mineLoop`;
* `miningRunLines` — the lines of a run, for each way it can end;
* `minedRecord_mem` — **a loop that succeeds logs the success** once it has it.
-/

namespace IgraRpc

open Lib Lib.Text

-- ---------------------------------------------------------------------------
-- The code
-- ---------------------------------------------------------------------------

/-- What a run takes from the clock, and the texts of its floating-point fields. -/
structure MiningClock where
  /-- The time that has passed when a round reaches a nonce. -/
  progress : Nat → Nat → Duration
  /-- The time until the nonce was found. -/
  mined : Duration
  /-- The time until a failure is logged. -/
  ended : Duration
  secondsText : Duration → List Char
  hashRateText : Nat → Duration → List Char
  /-- The hash rate with two decimals. -/
  hashRateShort : Nat → Duration → List Char
  remainingText : Nat → Duration → Option (List Char)
  timestamp : List Char

/-- The error of a task that did not finish; its text names no field of the miner. -/
structure JoinError where
  text : String
  plain : contains "mining_duration_ms".toList text.toList = false

/-- How a run ends. After a timeout the blocking task goes on; `logged` of its records are
out when the log is read. -/
inductive MiningEnd where
  | finishes
  | timesOut (logged : Nat)
  | taskFails (error : JoinError)

/-- What the end means for `mine_transaction`. -/
def MiningEnd.run : MiningEnd → MiningRun
  | finishes => .finishes
  | timesOut _ => .timesOut
  | taskFails error => .taskFails error.text

def progressLogInterval : Nat := 100000

def hexText (bytes : List UInt8) : List Char := "0x".toList ++ (hexEncode bytes).toList

def idText (id : TransactionId) : List Char := (hexEncode id.bytes).toList

/-- The big-endian bytes of a nonce, as `{:?}` prints an array. -/
def nonceBytesText (nonce : Nat) : List Char :=
  '[' :: List.intercalate ", ".toList
    ((beBytes nonceLength nonce).map fun b => natText b.toNat) ++ [']']

def loopStartRecord (txIdPrefix : List UInt8) (originalPayload : List UInt8) : LogRecord where
  message := "Starting nonce iteration loop"
  fields := [
    ("mining_operation", strText "loop_start"),
    ("mining_original_payload_size", natText originalPayload.length),
    ("tx_id_prefix", hexText txIdPrefix)]

def minedRecord (clock : MiningClock) (nonce : Nat) (transaction : SignableTransaction) :
    LogRecord where
  message := "Successfully mined transaction"
  fields := [
    ("event_type", strText "mining_success"),
    ("mining_operation", strText "success"),
    ("mining_nonces_tried", natText nonce),
    ("mining_duration_ms", natText clock.mined.asMillis),
    ("mining_duration_seconds", clock.secondsText clock.mined),
    ("mining_hash_rate", clock.hashRateText nonce clock.mined),
    ("mining_payload_size", natText transaction.tx.payload.length),
    ("transaction_final_id", idText transaction.tx.id),
    ("nonce_value", natText nonce),
    ("nonce_bytes", nonceBytesText nonce),
    ("timestamp", quoted clock.timestamp)]

def exhaustionRecord (clock : MiningClock) (nonceExhaustionCount : Nat) : LogRecord where
  message := "Nonce space exhausted, trying fallback strategy"
  fields := [
    ("event_type", strText "nonce_exhaustion"),
    ("mining_operation", strText "nonce_exhaustion"),
    ("mining_attempt", natText (nonceExhaustionCount + 1)),
    ("mining_max_attempts", natText maxNonceExhaustionAttempts),
    ("mining_nonces_tried", natText u32Max),
    ("timestamp", quoted clock.timestamp)]

def exhaustionFailureRecords (clock : MiningClock) : List LogRecord := [
  { message := "Maximum nonce exhaustion attempts reached"
    fields := [
      ("event_type", strText "exhaustion_failure"),
      ("mining_operation", strText "exhaustion_failure"),
      ("mining_max_attempts", natText maxNonceExhaustionAttempts),
      ("mining_total_nonces", natText u32Max),
      ("timestamp", quoted clock.timestamp)] },
  { message := "Nonce exhaustion alert"
    fields := [
      ("alert_type", strText "operational"),
      ("alert_severity", strText "critical"),
      ("alert_name", strText "NonceExhaustion"),
      ("attempts", natText maxNonceExhaustionAttempts),
      ("total_nonces", natText u32Max),
      ("timestamp", quoted clock.timestamp)] }]

/-- The record of a fallback that lowers an output. -/
def varianceRecords (nonceExhaustionCount : Nat) (transaction : SignableTransaction) :
    List LogRecord :=
  let outputIndex := nonceExhaustionCount % transaction.tx.outputs.length
  match transaction.tx.outputs[outputIndex]? with
  | none => []
  | some output =>
    if output.value > 0 then [
      { message := "Modified output value to create variance"
        fields := [
          ("mining_operation", strText "variance_modification"),
          ("mining_output_index", natText outputIndex),
          ("mining_old_value", natText output.value.toNat),
          ("mining_new_value", natText (lowerOutput output).value.toNat)] }]
    else []

/-- The records of periodic progress, for the nonce that is tried next. -/
def progressRecords (clock : MiningClock) (nonceExhaustionCount nonce : Nat) : List LogRecord :=
  if nonce % progressLogInterval = 0 ∧ nonce > 0 then
    let elapsed := clock.progress nonceExhaustionCount nonce
    (if nonce / progressLogInterval % 10 = 0 then [
      { message := "Mining progress update"
        fields := [
          ("event_type", strText "mining_progress"),
          ("mining_operation", strText "progress"),
          ("mining_nonces_tried", natText nonce),
          ("mining_duration_ms", natText elapsed.asMillis),
          ("mining_duration_seconds", clock.secondsText elapsed),
          ("mining_hash_rate", clock.hashRateText nonce elapsed),
          ("mining_interval", natText progressLogInterval)] ++
          (clock.remainingText nonce elapsed).toList.map
            (fun remaining => ("mining_estimated_remaining_seconds", remaining)) ++
          [("timestamp", quoted clock.timestamp)] }]
    else []) ++ [
      { message := "Mining progress debug"
        fields := [
          ("mining_operation", strText "progress"),
          ("mining_nonces_tried", natText nonce),
          ("mining_duration_ms", natText elapsed.asMillis),
          ("mining_hash_rate", clock.hashRateText nonce elapsed),
          ("mining_interval", natText progressLogInterval)] }]
  else []

/-- The records of the nonce loop. -/
def mineLoopLog (K : Consensus) (clock : MiningClock) (txIdPrefix : List UInt8)
    (transaction : SignableTransaction) (nonce nonceExhaustionCount : Nat) : List LogRecord :=
  if transaction.tx.payload.length < nonceLength then []
  else
    let transaction := writeNonce K transaction nonce
    if checkPrefix transaction.tx.id txIdPrefix then [minedRecord clock nonce transaction]
    else if nonce < u32Max then
      progressRecords clock nonceExhaustionCount (nonce + 1) ++
        mineLoopLog K clock txIdPrefix transaction (nonce + 1) nonceExhaustionCount
    else if nonceExhaustionCount < maxNonceExhaustionAttempts then
      exhaustionRecord clock nonceExhaustionCount ::
        (varianceRecords nonceExhaustionCount transaction ++
          mineLoopLog K clock txIdPrefix (varyOutput nonceExhaustionCount transaction) 0
            (nonceExhaustionCount + 1))
    else exhaustionRecord clock nonceExhaustionCount :: exhaustionFailureRecords clock
termination_by (maxNonceExhaustionAttempts - nonceExhaustionCount, u32Max - nonce)
decreasing_by
  · exact Prod.Lex.right _ (by omega)
  · exact Prod.Lex.left _ _ (by omega)

/-- The records of `mine_blocking`. -/
def mineBlockingLog (K : Consensus) (clock : MiningClock) (transaction : SignableTransaction)
    (txIdPrefix : List UInt8) : List LogRecord :=
  loopStartRecord txIdPrefix transaction.tx.payload ::
    mineLoopLog K clock txIdPrefix
      { transaction with
        tx := { transaction.tx with payload := initPayload transaction.tx.payload } } 0 0

/-- `log_mining_start`, and the record of the task. -/
def startRecords (clock : MiningClock) (config : MiningConfig)
    (transaction : SignableTransaction) : List LogRecord := [
  { message := "Mining operation started"
    fields := [
      ("event_type", strText "mining_start"),
      ("mining_operation", strText "start"),
      ("tx_id_prefix", hexText config.txIdPrefix),
      ("mining_timeout_seconds", natText config.timeoutSeconds),
      ("transaction_id", idText transaction.tx.id),
      ("transaction_payload_size", natText transaction.tx.payload.length),
      ("timestamp", quoted clock.timestamp)] },
  { message := "Spawning blocking task for CPU-intensive mining"
    fields := [("mining_operation", strText "spawn_blocking")] }]

def blockingCompleteRecord (success : Bool) : LogRecord where
  message := "Blocking mining task completed"
  fields := [
    ("mining_operation", strText "blocking_complete"),
    ("mining_success", (if success then "true" else "false").toList)]

def blockingErrorRecord (error : JoinError) : LogRecord where
  message := "Mining blocking task failed"
  fields := [
    ("mining_operation", strText "blocking_error"),
    ("mining_error", error.text.toList)]

def completeRecord (clock : MiningClock) (stats : MiningStats) : LogRecord where
  message := "Mining completed successfully"
  fields := [
    ("event_type", strText "mining_complete"),
    ("mining_operation", strText "complete"),
    ("mining_result", strText "success"),
    ("mining_nonces_tried", natText stats.noncesTried),
    ("mining_duration_ms", natText clock.mined.asMillis),
    ("mining_duration_seconds", clock.secondsText clock.mined),
    ("mining_hash_rate", clock.hashRateText stats.noncesTried clock.mined),
    ("transaction_final_id", idText stats.finalTransactionId),
    ("timestamp", quoted clock.timestamp)]

/-- A record of `log_metrics`. -/
def metricRecord (message metricType metricName : String) (metricValue : List Char) :
    LogRecord where
  message := message
  fields := [
    ("metric_type", strText metricType),
    ("metric_name", strText metricName),
    ("metric_value", metricValue),
    ("operation", strText "success")]

def healthRecord (clock : MiningClock) (healthCheck status : String)
    (details : List (String × List Char)) (message : String) : LogRecord where
  message := message
  fields := [("health_check", strText healthCheck), ("status", strText status)] ++ details ++
    [("timestamp", quoted clock.timestamp)]

/-- `log_mining_success`. -/
def logMiningSuccess (clock : MiningClock) (stats : MiningStats) : List LogRecord := [
  completeRecord clock stats,
  metricRecord "Mining nonces tried metric" "counter" "mining_nonces_tried_total"
    (natText stats.noncesTried),
  metricRecord "Mining duration metric" "histogram" "mining_duration_seconds"
    (clock.secondsText clock.mined),
  metricRecord "Mining hash rate metric" "gauge" "mining_hash_rate_per_second"
    (clock.hashRateText stats.noncesTried clock.mined),
  healthRecord clock "mining_success" "healthy" [] "Mining health check: success"]

/-- `classify_error`. -/
def classifyError : AppError → String
  | .miningTimeout _ => "timeout"
  | .nonceExhaustion _ => "nonce_exhaustion"
  | .transactionCodecError _ _ => "codec_error"
  | .miningInvalidState _ => "invalid_state"
  | .miningConfigError _ => "config_error"
  | _ => "unknown"

def errorRecord (clock : MiningClock) (err : AppError) (originalTxId : TransactionId) :
    LogRecord where
  message := "Mining operation failed"
  fields := [
    ("event_type", strText "mining_error"),
    ("mining_operation", strText "complete"),
    ("mining_result", strText "error"),
    ("mining_error", err.display.toList),
    ("mining_error_type", strText (classifyError err)),
    ("mining_duration_ms", natText clock.ended.asMillis),
    ("transaction_original_id", idText originalTxId),
    ("timestamp", quoted clock.timestamp)]

def timeoutRecord (clock : MiningClock) (timeoutSeconds : Nat) (originalTxId : TransactionId) :
    LogRecord where
  message := "Mining operation timed out"
  fields := [
    ("event_type", strText "mining_timeout"),
    ("mining_operation", strText "complete"),
    ("mining_result", strText "timeout"),
    ("mining_timeout_seconds", natText timeoutSeconds),
    ("mining_duration_ms", natText clock.ended.asMillis),
    ("mining_duration_seconds", clock.secondsText clock.ended),
    ("transaction_original_id", idText originalTxId),
    ("timestamp", quoted clock.timestamp)]

/-- `log_mining_timeout`. -/
def logMiningTimeout (clock : MiningClock) (timeoutSeconds : Nat)
    (originalTxId : TransactionId) : List LogRecord := [
  timeoutRecord clock timeoutSeconds originalTxId,
  { message := "Mining timeout alert"
    fields := [
      ("alert_type", strText "operational"),
      ("alert_severity", strText "critical"),
      ("alert_name", strText "MiningTimeout"),
      ("timeout_seconds", natText timeoutSeconds),
      ("actual_duration_seconds", clock.secondsText clock.ended),
      ("transaction_id", idText originalTxId),
      ("timestamp", quoted clock.timestamp)] },
  healthRecord clock "mining_timeout" "unhealthy" [("timeout_seconds", natText timeoutSeconds)]
    "Mining health check: timeout"]

/-- `log_mining_error`. -/
def logMiningError (clock : MiningClock) (err : AppError) (originalTxId : TransactionId) :
    List LogRecord :=
  match err with
  | .miningTimeout timeoutSeconds => logMiningTimeout clock timeoutSeconds originalTxId
  | err => [
    errorRecord clock err originalTxId,
    healthRecord clock "mining_error" "unhealthy" [("error_type", strText (classifyError err))]
      "Mining health check: error"]

/-- `log_and_record_result`. -/
def logAndRecordResult (clock : MiningClock) (originalTxId : TransactionId) :
    Outcome AppError (SignableTransaction × MiningStats) → List LogRecord
  | .ok (_, stats) => logMiningSuccess clock stats
  | .err err => logMiningError clock err originalTxId
  | .panicked => []

/-- The records of the task, as far as the end of the run lets them out. -/
def taskRecords (K : Consensus) (clock : MiningClock) (config : MiningConfig)
    (transaction : SignableTransaction) : MiningEnd → List LogRecord
  | .finishes =>
    mineBlockingLog K clock transaction config.txIdPrefix ++
      [blockingCompleteRecord
        (mineTransaction K config .finishes transaction matches .ok _)]
  | .timesOut logged => (mineBlockingLog K clock transaction config.txIdPrefix).take logged
  | .taskFails error => [blockingErrorRecord error]

/-- The records of `mine_transaction`. -/
def mineTransactionLog (K : Consensus) (clock : MiningClock) (config : MiningConfig)
    (ending : MiningEnd) (transaction : SignableTransaction) : List LogRecord :=
  startRecords clock config transaction ++ taskRecords K clock config transaction ending ++
    logAndRecordResult clock transaction.tx.id (mineTransaction K config ending.run transaction)

/-- The line of the wallet caller for a run whose transaction passed its checks. -/
def miningCompletedLine (clock : MiningClock) (stats : MiningStats) : List Char :=
  "Mining completed: ".toList ++ natText stats.noncesTried ++ " nonces in ".toList ++
    clock.mined.debug ++ ", hash rate: ".toList ++
    clock.hashRateShort stats.noncesTried clock.mined ++ " H/s".toList

/-- The lines of a run. -/
def miningRunLines (K : Consensus) (clock : MiningClock) (config : MiningConfig)
    (ending : MiningEnd) (passed : Bool) (transaction : SignableTransaction) :
    List (List Char) :=
  (mineTransactionLog K clock config ending transaction).map LogRecord.line ++
    match mineTransaction K config ending.run transaction with
    | .ok (_, stats) => if passed then [miningCompletedLine clock stats] else []
    | _ => []

-- ---------------------------------------------------------------------------
-- The loop logs its success
-- ---------------------------------------------------------------------------

/-- **The loop logs what it returns.** -/
theorem minedRecord_mem {K : Consensus} {clock : MiningClock} {txIdPrefix : List UInt8}
    {tx : SignableTransaction} {nonce count : Nat} {t : SignableTransaction}
    {stats : MiningStats} (h : mineLoop K txIdPrefix tx nonce count = .ok (t, stats)) :
    minedRecord clock stats.noncesTried t ∈ mineLoopLog K clock txIdPrefix tx nonce count := by
  fun_induction mineLoopLog K clock txIdPrefix tx nonce count with
  | case1 tx nonce count hlen =>
    rw [mineLoop, if_pos hlen] at h
    exact absurd h (by simp)
  | case2 tx nonce count hlen tx' hhit =>
    rw [mineLoop, if_neg hlen, if_pos hhit] at h
    obtain ⟨rfl, rfl⟩ := Prod.mk.inj (Outcome.ok.inj h)
    exact List.mem_singleton_self _
  | case3 tx nonce count hlen tx' hhit hn ih =>
    rw [mineLoop, if_neg hlen, if_neg hhit, if_pos hn] at h
    exact List.mem_append_right _ (ih h)
  | case4 tx nonce count hlen tx' hhit hn hr ih =>
    rw [mineLoop, if_neg hlen, if_neg hhit, if_neg hn, if_pos hr] at h
    exact List.mem_cons_of_mem _ (List.mem_append_right _ (ih h))
  | case5 tx nonce count hlen tx' hhit hn hr =>
    rw [mineLoop, if_neg hlen, if_neg hhit, if_neg hn, if_neg hr] at h
    exact absurd h (by simp)

end IgraRpc
