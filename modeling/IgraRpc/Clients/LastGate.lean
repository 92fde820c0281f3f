import IgraRpc.Config.MiningPrefix
import IgraRpc.Startup

/-!
# The gate before broadcast — `clients/wallet_caller.rs`, `main.rs`

`complete_transaction_flow` checks the lane twice, the second time on the mined transaction
"so a bug in the mining loop cannot let a non-conforming tx through". Both checks and the
miner take the prefix from one configuration, and mining keeps what the first check saw.

* `laneGate_preBroadcast_of_mined` — what passes the first gate passes the second once it is
  mined for the prefix that is enforced;
* `startWallet_enforcesMined` — the wallet that startup makes enforces the miner's prefix;
* `lastGate_redundant` — **for such a wallet the flow is the flow without the second gate**,
  whatever the daemon answers: it never stops a transaction that was mined.
-/

namespace IgraRpc

open Lib

-- ---------------------------------------------------------------------------
-- The plain flow
-- ---------------------------------------------------------------------------

/-- `prepareLast` without the check before broadcast. -/
def prepareLastUnchecked (K : Consensus) (caller : WalletCaller) (config : MiningConfig)
    (env : WalletEnv) (lastTransaction : Proto.WalletSignableTransaction) :
    Outcome WalletCallerError Proto.WalletSignableTransaction := do
  let signableTx ← (protoToSignableTransaction K lastTransaction).mapErr
    fun e => .transactionDecodingFailed e.display
  laneGate K caller .preMining signableTx
  let (minedTransaction, _) ← (mineTransaction K config env.mining signableTx).mapErr
    .miningFailed
  (updateProtoWithMinedTransaction lastTransaction minedTransaction).mapErr
    fun e => .transactionEncodingFailed e.display

/-- `complete_transaction_flow` without the check before broadcast. -/
def completeTransactionFlowUnchecked (K : Consensus) (caller : WalletCaller)
    (config : MiningConfig) (env : WalletEnv)
    (unsignedTransactions : List Proto.WalletSignableTransaction) :
    Traced WalletEvent WalletCallerError String :=
  match unsignedTransactions.getLast? with
  | none => .lift (.err .noTransactionIds)
  | some lastTransaction =>
    match stagingPayload 0 unsignedTransactions.dropLast with
    | some (i, payloadLen) => .lift (.err (stagingError i payloadLen))
    | none => do
      let updated ← .lift (prepareLastUnchecked K caller config env lastTransaction)
      signAndBroadcast env (unsignedTransactions.dropLast ++ [updated])

-- ---------------------------------------------------------------------------
-- Mining and the gate
-- ---------------------------------------------------------------------------

/-- The wallet enforces the prefix that is mined for, if it enforces any. -/
def EnforcesMined (caller : WalletCaller) (config : MiningConfig) : Prop :=
  ∀ e, caller.laneEnforcement = some e → e.txIdPrefix = config.txIdPrefix

section
variable {K : Consensus}

/-- **Mining keeps what the first gate saw, and adds the prefix.** -/
theorem laneGate_preBroadcast_of_mined {caller : WalletCaller} {config : MiningConfig}
    (h : EnforcesMined caller config) {sig mined : SignableTransaction} {stats : MiningStats}
    (hpre : laneGate K caller .preMining sig = .ok ())
    (hmine : mineBlocking K sig config.txIdPrefix = .ok (mined, stats)) :
    laneGate K caller .preBroadcast mined = .ok () := by
  obtain ⟨toAddress, enforcement⟩ := caller
  cases enforcement with
  | none => rfl
  | some e =>
    have hmined : e.txIdPrefix = config.txIdPrefix := h e rfl
    have hseen := laneGate_eq_ok.mp hpre
    obtain ⟨r, n, hhit, rfl, -⟩ := mineBlocking_eq_ok_iff.mp hmine
    have hframe := candidate_sameFrame (K := K) sig r n
    have hlength : (candidate K sig r n).tx.payload.length = sig.tx.payload.length := by
      have hfive := hseen.payload
      rw [candidate_payload, writeTail_length]
      rw [beBytes_length]
      show 4 ≤ _
      omega
    refine laneGate_eq_ok.mpr ⟨?_, ?_, ?_, fun _ => ?_⟩
    · rw [hframe.version]
      exact hseen.version
    · rw [hframe.subnetworkId]
      exact hseen.subnetwork
    · rw [hlength]
      exact hseen.payload
    · rw [hmined]
      exact checkPrefix_iff.mp hhit.hit

/-- What is mined matches the configured prefix by the configuration's own test too. -/
theorem hashMatchesPrefix_of_mined {config : MiningConfig} {sig mined : SignableTransaction}
    {stats : MiningStats} (hmine : mineBlocking K sig config.txIdPrefix = .ok (mined, stats)) :
    config.hashMatchesPrefix mined.tx.id.bytes = true := by
  obtain ⟨r, n, hhit, rfl, -⟩ := mineBlocking_eq_ok_iff.mp hmine
  rw [MiningConfig.hashMatchesPrefix_eq]
  exact hhit.hit

theorem prepareLast_eq_unchecked {caller : WalletCaller} {config : MiningConfig}
    (h : EnforcesMined caller config) (env : WalletEnv)
    (last : Proto.WalletSignableTransaction) :
    prepareLast K caller config env last = prepareLastUnchecked K caller config env last := by
  rw [prepareLast, prepareLastUnchecked]
  cases hdecode : protoToSignableTransaction K last with
  | panicked => rfl
  | err e => rfl
  | ok sig =>
    simp only [Outcome.mapErr_ok, Outcome.ok_bind]
    cases hpre : laneGate K caller .preMining sig with
    | panicked => rfl
    | err e => rfl
    | ok passed =>
      simp only [Outcome.ok_bind]
      cases hmine : mineTransaction K config env.mining sig with
      | panicked => rfl
      | err e => rfl
      | ok result =>
        obtain ⟨mined, stats⟩ := result
        have hpost := laneGate_preBroadcast_of_mined h hpre (mineTransaction_eq_ok hmine)
        simp only [Outcome.mapErr_ok, Outcome.ok_bind, hpost]

theorem completeTransactionFlow_eq_unchecked {caller : WalletCaller} {config : MiningConfig}
    (h : EnforcesMined caller config) (env : WalletEnv)
    (unsigned : List Proto.WalletSignableTransaction) :
    completeTransactionFlow K caller config env unsigned =
      completeTransactionFlowUnchecked K caller config env unsigned := by
  rw [completeTransactionFlow, completeTransactionFlowUnchecked]
  cases unsigned.getLast? with
  | none => rfl
  | some last =>
    cases stagingPayload 0 unsigned.dropLast with
    | some found => rfl
    | none =>
      exact congrArg (fun prepared => Traced.lift prepared >>= fun updated =>
        signAndBroadcast env (unsigned.dropLast ++ [updated]))
        (prepareLast_eq_unchecked h env last)

end

-- ---------------------------------------------------------------------------
-- The wallet of a deployment
-- ---------------------------------------------------------------------------

/-- What a configuration enforces has the miner's prefix. -/
theorem laneEnforcement_txIdPrefix {subnets : Subnets} {config : Config.AppConfig}
    {e : LaneEnforcement} (h : laneEnforcement subnets config = .ok (some e)) :
    e.txIdPrefix = config.mining.txIdPrefix := by
  rw [laneEnforcement] at h
  cases hresolve : config.lane.resolve subnets with
  | error reason =>
    rw [hresolve] at h
    exact absurd h (by simp [Except.mapError, bind, Except.bind])
  | ok mode =>
    rw [hresolve] at h
    cases mode with
    | disabled => exact absurd h (by simp [Except.mapError, bind, Except.bind, pure, Except.pure])
    | enforced id =>
      have hnew : ∀ made, LaneEnforcement.new id config.mining.txIdPrefix = .ok made →
          made.txIdPrefix = config.mining.txIdPrefix := by
        intro made hmade
        rw [LaneEnforcement.new] at hmade
        split at hmade
        · exact absurd hmade (by simp)
        · rw [← Except.ok.inj hmade]
      cases hmade : LaneEnforcement.new id config.mining.txIdPrefix with
      | error reason =>
        simp [Except.mapError, bind, Except.bind, hmade] at h
      | ok made =>
        simp only [Except.mapError, bind, Except.bind, hmade, pure, Except.pure,
          Except.ok.injEq, Option.some.injEq] at h
        rw [← h]
        exact hnew made hmade

/-- The wallet that startup makes enforces the prefix that is mined for. -/
theorem startWallet_enforcesMined {subnets : Subnets} {daemon : WalletDaemon}
    {config : Config.AppConfig} {caller : WalletCaller}
    (h : (startWallet subnets daemon config).outcome = .ok (some caller)) :
    EnforcesMined caller config.mining := by
  intro e he
  rw [startWallet] at h
  split at h
  · exact absurd h (by simp [pure])
  · simp only [Traced.bind_outcome, Traced.lift_outcome, Outcome.bind_eq_ok,
      Outcome.mapErr_eq_ok, Outcome.ofExcept_eq_ok, createWallet] at h
    obtain ⟨-, -, enforcement, hlane, -, -, hmade⟩ := h
    rw [WalletCaller.new] at hmade
    cases hdaemon : daemon config.wallet with
    | error reason => simp [hdaemon, Except.map] at hmade
    | ok toAddress =>
      simp only [hdaemon, Except.map, pure, Outcome.ok.injEq, Option.some.injEq] at hmade
      rw [← hmade] at he
      rw [show enforcement = some e from he] at hlane
      exact laneEnforcement_txIdPrefix hlane

/-- **The second gate stops nothing.** With the wallet that startup makes from a
configuration and that configuration's miner, the flow does for every answer of the daemon
what it would do without the check before broadcast. -/
theorem lastGate_redundant (K : Consensus) {subnets : Subnets} {daemon : WalletDaemon}
    {config : Config.AppConfig} {caller : WalletCaller}
    (h : (startWallet subnets daemon config).outcome = .ok (some caller)) (env : WalletEnv)
    (unsigned : List Proto.WalletSignableTransaction) :
    completeTransactionFlow K caller config.mining env unsigned =
      completeTransactionFlowUnchecked K caller config.mining env unsigned :=
  completeTransactionFlow_eq_unchecked (startWallet_enforcesMined h) env unsigned

theorem lastGate_redundant_laneDeployment :
    ∃ caller, (startWallet kaspaSubnets reachedDaemon laneDeployment).outcome =
        .ok (some caller) ∧
      ∀ unsigned, completeTransactionFlow toccataConsensus caller laneDeployment.mining
          silentDaemon unsigned =
        completeTransactionFlowUnchecked toccataConsensus caller laneDeployment.mining
          silentDaemon unsigned := by
  have hstart : ∃ caller, (startWallet kaspaSubnets reachedDaemon laneDeployment).outcome =
      .ok (some caller) := ⟨_, rfl⟩
  obtain ⟨caller, hcaller⟩ := hstart
  exact ⟨caller, hcaller, lastGate_redundant toccataConsensus hcaller silentDaemon⟩

end IgraRpc
