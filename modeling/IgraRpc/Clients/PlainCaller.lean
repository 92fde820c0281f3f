import IgraRpc.Clients.Retries
import IgraRpc.Types.WalletRoundTrip

/-!
# The two ways to submit — `clients/wallet_caller.rs`

`mine_and_send_transaction` asks the daemon once; `mine_and_send_transaction_with_retry` asks
again while the daemon has no funds. What follows is one flow: mining, both gates, signing and
broadcasting.

* `mineAndSendTransaction` — the submission without retries;
* `retries_plain` — **the retries only repeat the first call**: a submission with them is the
  plain one, made after the calls that were refused and their pauses; when all of them are
  refused, nothing is mined, signed or broadcast, and neither would a plain one have.
-/

namespace IgraRpc

open Lib

/-- `mine_and_send_transaction`. -/
def mineAndSendTransaction (K : Consensus) (caller : WalletCaller) (config : MiningConfig)
    (env : WalletEnv) (params : TransactionParams) : Traced WalletEvent WalletCallerError String :=
  do
    let unsignedTransactions ← createUnsignedTransaction env 1 params
    completeTransactionFlow K caller config env unsignedTransactions

/-- The daemon as it is met after so many calls. -/
def WalletEnv.after (env : WalletEnv) (calls : Nat) : WalletEnv :=
  { env with createReply := fun attempt => env.createReply (calls + attempt) }

/-- Calls that are refused, from attempt `attempt` on, with the pauses after them. -/
def refusals (retryConfig : RetryConfig) (env : WalletEnv) (params : TransactionParams) :
    Nat → Nat → List WalletEvent
  | _, 0 => []
  | attempt, n + 1 =>
    .create params :: .sleep (retryDelay retryConfig env attempt) ::
      refusals retryConfig env params (attempt + 1) n

section
variable {K : Consensus} {caller : WalletCaller} {config : MiningConfig}
  {retryConfig : RetryConfig} {env : WalletEnv} {params : TransactionParams}

/-- The calls of a run are the refused ones and the last. -/
theorem callsFrom_succ (retryConfig : RetryConfig) (env : WalletEnv) (params : TransactionParams)
    (n : Nat) : ∀ attempt, callsFrom retryConfig env params attempt (n + 1) =
      refusals retryConfig env params attempt n ++ [.create params] := by
  induction n with
  | zero => exact fun attempt => rfl
  | succ n ih =>
    intro attempt
    rw [callsFrom, ih (attempt + 1)]
    rfl

/-- The first call of a plain submission is the next one of the daemon. -/
theorem createUnsignedTransaction_after (calls attempt : Nat) :
    createUnsignedTransaction (env.after calls) attempt params =
      createUnsignedTransaction env (calls + attempt) params := rfl

end

/-- What the retries make of a submission. -/
structure RetriesPlain (K : Consensus) (caller : WalletCaller) (config : MiningConfig)
    (retryConfig : RetryConfig) (env : WalletEnv) (params : TransactionParams) : Prop where
  settled : ∀ n < retryConfig.maxAttempts.toNat,
    (∀ j < n, ExhaustedAt env params (j + 1)) → ¬ExhaustedAt env params (n + 1) →
      mineAndSendTransactionWithRetry K caller config retryConfig env params =
        ⟨refusals retryConfig env params 1 n ++
            (mineAndSendTransaction K caller config (env.after n) params).events,
          (mineAndSendTransaction K caller config (env.after n) params).outcome⟩
  refused : (∀ j < retryConfig.maxAttempts.toNat, ExhaustedAt env params (j + 1)) →
    mineAndSendTransactionWithRetry K caller config retryConfig env params =
        ⟨refusals retryConfig env params 1 (retryConfig.maxAttempts.toNat - 1) ++ [.create params],
          .err (.miningFailed
            (.retryExhausted retryConfig.maxAttempts.toNat "UTXO exhaustion"))⟩ ∧
      ∀ n < retryConfig.maxAttempts.toNat, ∃ status, isNoFundsError status = true ∧
        mineAndSendTransaction K caller config (env.after n) params =
          ⟨[.create params], .err (.transactionCreationFailed status)⟩

/-- **The retries only repeat the first call**, for every daemon. -/
theorem retries_plain (K : Consensus) (caller : WalletCaller) (config : MiningConfig)
    (retryConfig : RetryConfig) (hmax : 1 ≤ retryConfig.maxAttempts.toNat) (env : WalletEnv)
    (params : TransactionParams) : RetriesPlain K caller config retryConfig env params := by
  refine ⟨fun n hn hrefused hsettled => ?_, fun hrefused => ⟨?_, fun n hn => ?_⟩⟩
  · have hfirst : FirstSettled env params (n + 1) := by
      refine ⟨Nat.succ_pos n, hsettled, fun j hj hlt => ?_⟩
      obtain ⟨k, rfl⟩ : ∃ k, j = k + 1 := ⟨j - 1, by omega⟩
      exact hrefused k (by omega)
    have hrun := createUnsignedTransactionWithRetry_settled hfirst hn
    rw [callsFrom_succ] at hrun
    have hevents : (createUnsignedTransactionWithRetry retryConfig env params).events =
        refusals retryConfig env params 1 n ++
          (createUnsignedTransaction (env.after n) 1 params).events := by
      rw [hrun]
      rfl
    have houtcome : (createUnsignedTransactionWithRetry retryConfig env params).outcome =
        (createUnsignedTransaction (env.after n) 1 params).outcome := by
      rw [hrun, createUnsignedTransaction_after]
    rw [mineAndSendTransactionWithRetry, Traced.bind_front hevents houtcome]
    rfl
  · have hrun := createUnsignedTransactionWithRetry_refused hmax fun j hj hle => by
      obtain ⟨k, rfl⟩ : ∃ k, j = k + 1 := ⟨j - 1, by omega⟩
      exact hrefused k (by omega)
    obtain ⟨m, hm⟩ : ∃ m, retryConfig.maxAttempts.toNat = m + 1 :=
      ⟨retryConfig.maxAttempts.toNat - 1, by omega⟩
    rw [mineAndSendTransactionWithRetry, hrun]
    rw [Traced.bind_of_err rfl, hm, callsFrom_succ]
    rfl
  · obtain ⟨status, hreply, hfunds⟩ := exhaustedAt_iff.mp (hrefused n hn)
    refine ⟨status, hfunds, ?_⟩
    have hcall : createUnsignedTransaction (env.after n) 1 params =
        ⟨[.create params], .err (.transactionCreationFailed status)⟩ := by
      rw [createUnsignedTransaction_after, createUnsignedTransaction, hreply]
      rfl
    rw [mineAndSendTransaction, hcall]
    exact Traced.bind_of_err rfl _

/-! ### A daemon that has no funds at first -/

theorem retries_plain_poorDaemon :
    RetriesPlain toccataConsensus ⟨"", none⟩ .default .default poorDaemon (.sendAll "" [] none) :=
  retries_plain _ _ _ _ (by decide) _ _

end IgraRpc
