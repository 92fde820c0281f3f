import IgraRpc.Clients.SigningGate
import IgraRpc.Services.AcceptPath
import IgraRpc.Services.Payload

/-!
# Submitting L2 messages — `process_wallet_call`, `services/entry_transaction.rs`

The two ways an L2 message reaches the wallet daemon: a raw transaction taken from
the queue, and an entry request of the command line tool.

* `create_mem_processWalletCall`, `create_mem_processTransaction` — what the daemon is
  asked to build, and when;
* `submitted_payload_determines` — **the final L1 payload determines the message**:
  the payload handed to the daemon, carried through mining with any nonce, is read back
  as the message, so two messages never share a final payload up to the nonce.
-/

namespace IgraRpc

open Lib

variable {K : Consensus}

-- ---------------------------------------------------------------------------
-- The code
-- ---------------------------------------------------------------------------

/-- The settings a submission uses. -/
structure AppConfig where
  mining : MiningConfig
  retry : RetryConfig

/-- `process_wallet_call`. -/
def processWalletCall (K : Consensus) (alloy : Alloy) (zlib : Zlib) (config : AppConfig)
    (walletCaller : Option WalletCaller) (env : WalletEnv) (txBytes : List UInt8)
    (id : Value) : Traced WalletEvent String Value :=
  let txHash := hashText (computeTransactionHash alloy txBytes)
  match serializePayload (rawPayload zlib txBytes) with
  | .error e => .lift (.err s!"Failed to serialize payload: {e.display}")
  | .ok walletPayloadBytes =>
    match walletCaller with
    | none => .lift (.err "Wallet is not available: server is running in read-only mode")
    | some walletCaller =>
      let sent := mineAndSendTransactionWithRetry K walletCaller config.mining config.retry env
        (.sendAll walletCaller.toAddress walletPayloadBytes (some txHash))
      ⟨sent.events, do
        let _ ← sent.outcome.mapErr fun err => s!"KASPA Wallet call failed: {err.display}"
        return acceptedResponse txHash id⟩

/-- The errors of validating and processing an entry request. -/
inductive EntryTransactionError where
  | wallet (error : WalletCallerError)
  | serialization (reason : String)
  | validation (reason : String)

/-- A validated entry request; the recipient is its address text. -/
structure EntryTransactionRequest where
  recipient : String
  amountSompi : UInt64
  l2Address : FixedBytes ethereumAddressSize

structure EntryTransactionService where
  walletCaller : WalletCaller
  miningConfig : MiningConfig
  retryConfig : RetryConfig

/-- `EntryTransactionService::process_transaction`. -/
def EntryTransactionService.processTransaction (K : Consensus)
    (service : EntryTransactionService) (env : WalletEnv) (request : EntryTransactionRequest) :
    Traced WalletEvent EntryTransactionError String :=
  let l2Data := L2Data.new request.l2Address request.amountSompi
  match serializePayload (entryPayload l2Data) with
  | .error e => .lift (.err (.serialization e.display))
  | .ok serialized =>
    let sent := mineAndSendTransactionWithRetry K service.walletCaller service.miningConfig
      service.retryConfig env
      (.entryTransaction request.recipient request.amountSompi serialized)
    ⟨sent.events, sent.outcome.mapErr .wallet⟩

-- ---------------------------------------------------------------------------
-- What the daemon is asked to build
-- ---------------------------------------------------------------------------

/-- The flow after creation asks for no further transaction. -/
theorem create_not_mem_completeTransactionFlow (caller : WalletCaller) (config : MiningConfig)
    (env : WalletEnv) (unsigned : List Proto.WalletSignableTransaction)
    (params : TransactionParams) :
    .create params ∉ (completeTransactionFlow K caller config env unsigned).events := by
  have hsign : ∀ txs, .create params ∉ (signAndBroadcast env txs).events := by
    intro txs h
    simp only [signAndBroadcast, Traced.mem_bind_events] at h
    rcases h with h | ⟨signed, -, h | ⟨ids, -, h⟩⟩
    · exact absurd h (by simp [signTransactions])
    · exact absurd h (by simp [broadcastTransactions])
    · split at h
      · exact absurd h (by simp)
      · exact absurd h (by simp)
  rcases completeTransactionFlow_cases (K := K) caller config env unsigned with
    ⟨-, hflow⟩ | ⟨i, len, -, hflow⟩ | ⟨last, -, -, ⟨e, -, hflow⟩ | ⟨-, hflow⟩ | ⟨tx, -, hflow⟩⟩
  · simp [hflow]
  · simp [hflow]
  · simp [hflow]
  · simp [hflow]
  · rw [hflow]
    exact hsign _

/-- The daemon refuses attempt `n` for lack of funds. -/
def RefusesAttempt (env : WalletEnv) (n : Nat) : Prop :=
  ∃ status, env.createReply n = .status status ∧ isNoFundsError status = true

/-- One attempt settles the outcome, unless the daemon refuses it for lack of funds: then
the attempts that are left do. -/
theorem retryAttempts_succ (retryConfig : RetryConfig) (env : WalletEnv)
    (params : TransactionParams) (remaining attempt : Nat)
    (lastError : Option WalletCallerError) :
    (¬RefusesAttempt env attempt ∧
      retryAttempts retryConfig env params (remaining + 1) attempt lastError =
        createUnsignedTransaction env attempt params) ∨
    (RefusesAttempt env attempt ∧ ∃ e pause, (∀ p, WalletEvent.create p ∉ pause) ∧
      retryAttempts retryConfig env params (remaining + 1) attempt lastError =
        let rest := retryAttempts retryConfig env params remaining (attempt + 1) (some e)
        ⟨.create params :: pause ++ rest.events, rest.outcome⟩) := by
  rw [retryAttempts]
  cases hreply : env.createReply attempt with
  | ok result => simp [createUnsignedTransaction, GrpcReply.result, RefusesAttempt, hreply]
  | elapsed =>
    simp [createUnsignedTransaction, GrpcReply.result, RefusesAttempt, hreply,
      isUtxoExhaustionError]
  | status status =>
    by_cases hfunds : isNoFundsError status = true
    · refine Or.inr ⟨⟨status, hreply, hfunds⟩, .transactionCreationFailed status,
        if attempt < retryConfig.maxAttempts.toNat then
          [.sleep (addJitter (env.jitterPercent attempt)
            (retryConfig.calculateDelayMs attempt))] else [], ?_, ?_⟩
      · intro p
        split <;> simp
      · simp [createUnsignedTransaction, GrpcReply.result, hreply, isUtxoExhaustionError, hfunds]
    · simp [createUnsignedTransaction, GrpcReply.result, RefusesAttempt, hreply,
        isUtxoExhaustionError, hfunds]

/-- Every attempt asks for the same transaction. -/
theorem create_mem_retryAttempts (retryConfig : RetryConfig) (env : WalletEnv)
    (params p : TransactionParams) (remaining : Nat) :
    ∀ attempt lastError,
      .create p ∈ (retryAttempts retryConfig env params remaining attempt lastError).events →
        p = params := by
  induction remaining with
  | zero =>
    intro attempt lastError h
    exact absurd h (by simp [retryAttempts])
  | succ remaining ih =>
    intro attempt lastError h
    rcases retryAttempts_succ retryConfig env params remaining attempt lastError with
      ⟨-, hsettled⟩ | ⟨-, e, pause, hpause, hretried⟩
    · rw [hsettled] at h
      simpa [createUnsignedTransaction] using h
    · rw [hretried] at h
      rcases List.mem_append.mp h with h | h
      · rcases List.mem_cons.mp h with h | h
        · exact WalletEvent.create.inj h
        · exact absurd h (hpause p)
      · exact ih _ _ h

/-- The first attempt is made whenever one is allowed. -/
theorem retryAttempts_creates (retryConfig : RetryConfig) (env : WalletEnv)
    (params : TransactionParams) (remaining attempt : Nat)
    (lastError : Option WalletCallerError) :
    .create params ∈
      (retryAttempts retryConfig env params (remaining + 1) attempt lastError).events := by
  rcases retryAttempts_succ retryConfig env params remaining attempt lastError with
    ⟨-, hsettled⟩ | ⟨-, e, pause, -, hretried⟩
  · rw [hsettled]
    exact List.mem_singleton_self _
  · rw [hretried]
    exact List.mem_cons_self

/-- The daemon is asked to build the given transaction and no other, provided that any
attempt is allowed. -/
theorem create_mem_mineAndSend {caller : WalletCaller} {config : MiningConfig}
    {retryConfig : RetryConfig} {env : WalletEnv} {params p : TransactionParams} :
    .create p ∈
        (mineAndSendTransactionWithRetry K caller config retryConfig env params).events ↔
      p = params ∧ 0 < retryConfig.maxAttempts.toNat := by
  let created := createUnsignedTransactionWithRetry retryConfig env params
  have hcreated : .create p ∈ created.events ↔
      p = params ∧ 0 < retryConfig.maxAttempts.toNat := by
    show .create p ∈ (retryAttempts retryConfig env params retryConfig.maxAttempts.toNat 1
      none).events ↔ _
    cases hmax : retryConfig.maxAttempts.toNat with
    | zero => simp [retryAttempts]
    | succ n =>
      refine ⟨?_, ?_⟩
      · intro h
        exact ⟨create_mem_retryAttempts _ _ _ _ _ _ _ h, Nat.succ_pos n⟩
      · rintro ⟨rfl, -⟩
        exact retryAttempts_creates _ _ _ _ _ _
  rw [mineAndSendTransactionWithRetry, Traced.mem_bind_events]
  refine ⟨?_, ?_⟩
  · rintro (h | ⟨unsigned, -, h⟩)
    · exact hcreated.mp h
    · exact absurd h (create_not_mem_completeTransactionFlow _ _ _ _ _)
  · intro h
    exact Or.inl (hcreated.mpr h)

/-- A raw transaction is handed to the daemon serialized, by a provider with a wallet. -/
theorem create_mem_processWalletCall {alloy : Alloy} {zlib : Zlib} {config : AppConfig}
    {walletCaller : Option WalletCaller} {env : WalletEnv} {txBytes : List UInt8} {id : Value}
    {p : TransactionParams} :
    .create p ∈
        (processWalletCall K alloy zlib config walletCaller env txBytes id).events ↔
      ∃ bytes caller, serializePayload (rawPayload zlib txBytes) = .ok bytes ∧
        walletCaller = some caller ∧ 0 < config.retry.maxAttempts.toNat ∧
        p = .sendAll caller.toAddress bytes
          (some (hashText (computeTransactionHash alloy txBytes))) := by
  unfold processWalletCall
  cases serializePayload (rawPayload zlib txBytes) with
  | error e => simp
  | ok bytes =>
    cases walletCaller with
    | none => simp
    | some caller =>
      simp only [create_mem_mineAndSend, Except.ok.injEq, Option.some.injEq]
      refine ⟨?_, ?_⟩
      · intro ⟨hp, hattempts⟩
        exact ⟨bytes, caller, rfl, rfl, hattempts, hp⟩
      · rintro ⟨_, _, rfl, rfl, hattempts, hp⟩
        exact ⟨hp, hattempts⟩

/-- An entry request is handed to the daemon serialized. -/
theorem create_mem_processTransaction {service : EntryTransactionService} {env : WalletEnv}
    {request : EntryTransactionRequest} {p : TransactionParams} :
    .create p ∈ (service.processTransaction K env request).events ↔
      ∃ bytes, serializePayload
          (entryPayload (L2Data.new request.l2Address request.amountSompi)) = .ok bytes ∧
        0 < service.retryConfig.maxAttempts.toNat ∧
        p = .entryTransaction request.recipient request.amountSompi bytes := by
  simp only [EntryTransactionService.processTransaction]
  cases serializePayload (entryPayload (L2Data.new request.l2Address request.amountSompi)) with
  | error e => simp
  | ok bytes =>
    simp only [create_mem_mineAndSend, Except.ok.injEq]
    refine ⟨?_, ?_⟩
    · intro ⟨hp, hattempts⟩
      exact ⟨bytes, rfl, hattempts, hp⟩
    · rintro ⟨_, rfl, hattempts, hp⟩
      exact ⟨hp, hattempts⟩

-- ---------------------------------------------------------------------------
-- When a submission panics
-- ---------------------------------------------------------------------------

theorem GrpcReply.result_ne_panicked {α : Type} (operation : String)
    (onStatus : Status → WalletCallerError) (reply : GrpcReply α) :
    reply.result operation onStatus ≠ .panicked := by
  cases reply <;> simp [GrpcReply.result]

/-- The daemon answers a creation call with a list, after refusing any earlier attempts
for lack of funds. -/
def DaemonAnswers (env : WalletEnv) (maxAttempts : Nat)
    (unsigned : List Proto.WalletSignableTransaction) : Prop :=
  ∃ k < maxAttempts, env.createReply (1 + k) = .ok unsigned ∧
    ∀ j < k, RefusesAttempt env (1 + j)

theorem createUnsignedTransaction_ne_panicked (env : WalletEnv) (attempt : Nat)
    (params : TransactionParams) :
    (createUnsignedTransaction env attempt params).outcome ≠ .panicked :=
  GrpcReply.result_ne_panicked _ _ _

theorem createUnsignedTransaction_eq_ok {env : WalletEnv} {attempt : Nat}
    {params : TransactionParams} {unsigned : List Proto.WalletSignableTransaction} :
    (createUnsignedTransaction env attempt params).outcome = .ok unsigned ↔
      env.createReply attempt = .ok unsigned := by
  show (env.createReply attempt).result _ _ = _ ↔ _
  cases env.createReply attempt <;> simp [GrpcReply.result]

/-- The attempts go on exactly while the daemon refuses for lack of funds. -/
theorem retryAttempts_eq_ok {retryConfig : RetryConfig} {env : WalletEnv}
    {params : TransactionParams} {unsigned : List Proto.WalletSignableTransaction}
    {remaining : Nat} : ∀ {attempt : Nat} {lastError : Option WalletCallerError},
    (retryAttempts retryConfig env params remaining attempt lastError).outcome = .ok unsigned ↔
      ∃ k < remaining, env.createReply (attempt + k) = .ok unsigned ∧
        ∀ j < k, RefusesAttempt env (attempt + j) := by
  induction remaining with
  | zero =>
    intro attempt lastError
    simp [retryAttempts]
  | succ remaining ih =>
    intro attempt lastError
    rw [exists_first_succ]
    rcases retryAttempts_succ retryConfig env params remaining attempt lastError with
      ⟨haccepts, hsettled⟩ | ⟨hrefused, e, pause, -, hretried⟩
    · rw [hsettled, createUnsignedTransaction_eq_ok]
      refine ⟨Or.inl, ?_⟩
      rintro (hanswer | ⟨hrefused, -⟩)
      · exact hanswer
      · exact absurd hrefused haccepts
    · have hrest : (retryAttempts retryConfig env params remaining (attempt + 1)
          (some e)).outcome = .ok unsigned ↔ _ := ih
      simp only [Nat.add_right_comm attempt 1] at hrest
      rw [hretried]
      refine hrest.trans ⟨fun hlater => Or.inr ⟨hrefused, hlater⟩, ?_⟩
      rintro (hanswer | ⟨-, hlater⟩)
      · obtain ⟨status, hstatus, -⟩ := hrefused
        exact absurd (hstatus.symm.trans hanswer) (by simp)
      · exact hlater

theorem retryAttempts_ne_panicked (retryConfig : RetryConfig) (env : WalletEnv)
    (params : TransactionParams) (remaining : Nat) : ∀ attempt lastError,
    (retryAttempts retryConfig env params remaining attempt lastError).outcome ≠ .panicked := by
  induction remaining with
  | zero =>
    intro attempt lastError
    simp [retryAttempts]
  | succ remaining ih =>
    intro attempt lastError
    rcases retryAttempts_succ retryConfig env params remaining attempt lastError with
      ⟨-, hsettled⟩ | ⟨-, e, pause, -, hretried⟩
    · rw [hsettled]
      exact createUnsignedTransaction_ne_panicked env attempt params
    · rw [hretried]
      exact ih _ _

/-- The flow panics exactly when it reaches a message on which decoding does. -/
theorem completeTransactionFlow_eq_panicked {caller : WalletCaller} {config : MiningConfig}
    {env : WalletEnv} {unsigned : List Proto.WalletSignableTransaction} :
    (completeTransactionFlow K caller config env unsigned).outcome = .panicked ↔
      ReachesDecodePanic K unsigned := by
  have hsign : ∀ txs, (signAndBroadcast env txs).outcome ≠ .panicked := by
    intro txs h
    simp only [signAndBroadcast, Traced.bind_outcome, Outcome.bind_eq_panicked] at h
    rcases h with h | ⟨signed, -, h | ⟨ids, -, h⟩⟩
    · exact GrpcReply.result_ne_panicked _ _ _ h
    · exact GrpcReply.result_ne_panicked _ _ _ h
    · split at h
      · exact absurd h (by simp)
      · exact absurd h (by simp)
  refine ⟨?_, ?_⟩
  · intro h
    rcases completeTransactionFlow_cases (K := K) caller config env unsigned with
      ⟨-, hflow⟩ | ⟨i, len, -, hflow⟩ | ⟨last, hlast, hstaging, hrest⟩
    · exact absurd h (by simp [hflow])
    · exact absurd h (by simp [hflow])
    · rcases hrest with ⟨e, -, hflow⟩ | ⟨hpanic, -⟩ | ⟨tx, -, hflow⟩
      · exact absurd h (by simp [hflow])
      · exact ⟨last, hlast, hstaging, prepareLast_eq_panicked.mp hpanic⟩
      · rw [hflow] at h
        exact absurd h (hsign _)
  · intro h
    rw [completeTransactionFlow_of_decodePanic h]

/-- **When a submission panics.** A raw transaction whose payload serializes, with a
wallet, panics exactly when the daemon answers with a list that reaches a message on
which decoding panics. -/
theorem processWalletCall_eq_panicked {alloy : Alloy} {zlib : Zlib} {config : AppConfig}
    {walletCaller : Option WalletCaller} {env : WalletEnv} {txBytes : List UInt8} {id : Value} :
    (processWalletCall K alloy zlib config walletCaller env txBytes id).outcome = .panicked ↔
      (∃ bytes, serializePayload (rawPayload zlib txBytes) = .ok bytes) ∧
        walletCaller ≠ none ∧ ∃ unsigned,
          DaemonAnswers env config.retry.maxAttempts.toNat unsigned ∧
            ReachesDecodePanic K unsigned := by
  unfold processWalletCall
  cases serializePayload (rawPayload zlib txBytes) with
  | error e => simp
  | ok bytes =>
    cases walletCaller with
    | none => simp
    | some caller =>
      simp only [Outcome.bind_eq_panicked, Outcome.mapErr_eq_panicked,
        mineAndSendTransactionWithRetry, Traced.bind_outcome, retryAttempts_ne_panicked,
        completeTransactionFlow_eq_panicked, createUnsignedTransactionWithRetry,
        retryAttempts_eq_ok, false_or]
      simp [DaemonAnswers]

-- ---------------------------------------------------------------------------
-- From the message to the final payload
-- ---------------------------------------------------------------------------

/-- A message is submitted when processing it asks the daemon to build a transaction. -/
inductive Submits (K : Consensus) (alloy : Alloy) (zlib : Zlib) :
    Message → TransactionParams → Prop where
  | raw {config : AppConfig} {walletCaller : Option WalletCaller} {env : WalletEnv}
      {txBytes : List UInt8} {id : Value} {params : TransactionParams}
      (h : .create params ∈
        (processWalletCall K alloy zlib config walletCaller env txBytes id).events) :
      Submits K alloy zlib (.raw txBytes) params
  | entry {service : EntryTransactionService} {env : WalletEnv}
      {request : EntryTransactionRequest} {params : TransactionParams}
      (h : .create params ∈ (service.processTransaction K env request).events) :
      Submits K alloy zlib (.entry request.l2Address request.amountSompi) params

/-- The payloads a transaction with the given payload can end up with: that of a
candidate, for any round and nonce, or of what mining returns. -/
inductive FinalPayload (K : Consensus) (payload : List UInt8) : List UInt8 → Prop where
  | tried {tx : SignableTransaction} (h : tx.tx.payload = payload) (round nonce : Nat) :
      FinalPayload K payload (candidate K tx round nonce).tx.payload
  | mined {tx mined : SignableTransaction} {txIdPrefix : List UInt8} {stats : MiningStats}
      (h : tx.tx.payload = payload)
      (hmine : mineBlocking K tx txIdPrefix = .ok (mined, stats)) :
      FinalPayload K payload mined.tx.payload

/-- What a final payload tells about the message: the header gives the version and the
type, the bytes up to the nonce are the L2 data, and reading gives the message. -/
structure Determines (zlib : Zlib) (m : Message) (final : List UInt8) : Prop where
  header : ∃ header rest, final = header :: rest ∧ header.toNat / 16 = VERSION.toNat ∧
    header.toNat % 16 = (m.payload zlib).txTypeId.toUInt8.toNat
  l2Data : (final.drop 1).take (final.length - nonceLength - 1) = (m.payload zlib).l2Data
  decodes : decodeMessage zlib final = some m

/-- Whatever the daemon is asked to build for a message carries the message's payload. -/
theorem submits_payload {alloy : Alloy} {zlib : Zlib} {m : Message} {params : TransactionParams}
    (h : Submits K alloy zlib m params) :
    serializePayload (m.payload zlib) = .ok params.payload := by
  cases h with
  | raw hraw =>
    obtain ⟨bytes, caller, hserialize, -, -, rfl⟩ := create_mem_processWalletCall.mp hraw
    exact hserialize
  | entry hentry =>
    obtain ⟨bytes, hserialize, -, rfl⟩ := create_mem_processTransaction.mp hentry
    exact hserialize

/-- A final payload is the submitted one with four nonce bytes written over its end. -/
theorem finalPayload_eq {payload final : List UInt8} (h : FinalPayload K payload final) :
    ∃ nonce : FixedBytes 4, final = writeTail payload nonce.bytes := by
  have hcandidate : ∀ (tx : SignableTransaction) (round n : Nat), tx.tx.payload = payload →
      ∃ nonce : FixedBytes 4, (candidate K tx round n).tx.payload =
        writeTail payload nonce.bytes := by
    intro tx round n htx
    refine ⟨⟨beBytes nonceLength n, beBytes_length _ _⟩, ?_⟩
    rw [candidate_payload, htx]
  cases h with
  | tried htx round nonce => exact hcandidate _ round nonce htx
  | mined htx hmine =>
    obtain ⟨round, n, -, rfl, -⟩ := mineBlocking_eq_ok_iff.mp hmine
    exact hcandidate _ round n htx

/-- A final payload of a submitted message determines it. -/
theorem finalPayload_determines {alloy : Alloy} {zlib : Zlib} (hz : zlib.Inverts) {m : Message}
    {params : TransactionParams} {final : List UInt8} (hsubmit : Submits K alloy zlib m params)
    (hfinal : FinalPayload K params.payload final) : Determines zlib m final := by
  have hserialize := submits_payload hsubmit
  obtain ⟨nonce, rfl⟩ := finalPayload_eq hfinal
  obtain ⟨hversion, htype⟩ := headerByte_halves (m.payload zlib).txTypeId
  have hbytes := writeTail_serialized hserialize nonce
  refine ⟨⟨_, _, hbytes, hversion, htype⟩, ?_, decodeMessage_writeTail hz hserialize nonce⟩
  rw [hbytes, List.drop_one, List.tail_cons]
  apply List.take_left'
  rw [List.length_cons, List.length_append, nonce.size]
  show _ = (m.payload zlib).l2Data.length + 4 + 1 - 4 - 1
  omega

theorem finalPayload_length {alloy : Alloy} {zlib : Zlib} {m : Message}
    {params : TransactionParams} {final : List UInt8} (hsubmit : Submits K alloy zlib m params)
    (hfinal : FinalPayload K params.payload final) :
    final.length = (m.payload zlib).l2Data.length + 5 := by
  obtain ⟨nonce, rfl⟩ := finalPayload_eq hfinal
  rw [writeTail_serialized (submits_payload hsubmit) nonce, List.length_cons,
    List.length_append, nonce.size]

/-- **The final payload determines the message.** Whatever nonce mining writes, the
payload of a submitted message gives version, type and L2 data, reads back as the
message, and for a raw transaction is at most five bytes longer than it; and final
payloads that agree up to the nonce belong to the same message. -/
theorem submitted_payload_determines {alloy : Alloy} {zlib : Zlib} (hz : zlib.Inverts) :
    (∀ m params final, Submits K alloy zlib m params → FinalPayload K params.payload final →
      Determines zlib m final ∧
        ∀ txBytes, m = .raw txBytes → final.length ≤ txBytes.length + 5) ∧
    (∀ m m' params params' final final', Submits K alloy zlib m params →
      Submits K alloy zlib m' params' → FinalPayload K params.payload final →
      FinalPayload K params'.payload final' → SameUpToNonce final final' → m = m') := by
  refine ⟨?_, ?_⟩
  · intro m params final hsubmit hfinal
    refine ⟨finalPayload_determines hz hsubmit hfinal, ?_⟩
    rintro txBytes rfl
    rw [finalPayload_length hsubmit hfinal]
    exact Nat.add_le_add_right (rawPayload_length_le zlib txBytes) 5
  · intro m m' params params' final final' hsubmit hsubmit' hfinal hfinal' hsame
    have hlong : nonceLength < final.length := by
      rw [finalPayload_length hsubmit hfinal]
      show 4 < _
      omega
    have hread : decodeMessage zlib final = decodeMessage zlib final' :=
      decodeMessage_congr hsame hlong
    rw [(finalPayload_determines hz hsubmit hfinal).decodes,
      (finalPayload_determines hz hsubmit' hfinal').decodes] at hread
    exact Option.some.inj hread

/-! ### A transaction worth compressing, and one that is not -/

def zippedZeros : List UInt8 := [120, 156, 99, 96, 160, 12, 0, 0, 0, 64, 0, 1]

def zippedLegacyTx : List UInt8 :=
  [120, 156, 59, 223, 208, 98, 61, 235, 20, 67, 83, 16, 71, 67, 67, 131, 52, 35, 35, 0, 61,
    203, 5, 236]

/-- Zlib on sixty-four zero bytes and on `legacyTx`. -/
def sampleZlib : Zlib where
  compress data :=
    if data = List.replicate 64 0 then .ok zippedZeros
    else if data = legacyTx then .ok zippedLegacyTx
    else .error "write zero"
  decompress compressed :=
    if compressed = zippedZeros then some (List.replicate 64 0)
    else if compressed = zippedLegacyTx then some legacyTx
    else none

theorem sampleZlib_inverts : sampleZlib.Inverts := by
  intro data compressed h
  simp only [sampleZlib] at h
  split at h
  case isTrue hdata =>
    obtain rfl := Except.ok.inj h
    rw [hdata]
    rfl
  case isFalse =>
    split at h
    case isTrue hdata =>
      obtain rfl := Except.ok.inj h
      rw [hdata]
      rfl
    case isFalse => exact absurd h (by simp)

/-- One KAS for the address of zeros. -/
def zeroEntry : EntryTransactionRequest := ⟨"kaspa:entry", 100000000, ⟨List.replicate 20 0, rfl⟩⟩

/-- Sixty-four zero bytes reach the daemon as the payload of a zipped transaction, in
seventeen bytes that still read as the sixty-four; and an entry request as the address and the
amount. Nothing final of the one is final of the other. -/
theorem submitted_payload_determines_both :
    ∃ params params', .create params ∈ (processWalletCall toccataConsensus legacyAlloy sampleZlib
        ⟨⟨[0], 60⟩, ⟨3, 1000, 1000⟩⟩ (some ⟨"", none⟩) silentDaemon (List.replicate 64 0)
        .null).events ∧
      .create params' ∈ (EntryTransactionService.processTransaction toccataConsensus
        ⟨⟨"", none⟩, ⟨[0], 60⟩, ⟨3, 1000, 1000⟩⟩ silentDaemon zeroEntry).events ∧
      ∀ final final', FinalPayload toccataConsensus params.payload final →
        FinalPayload toccataConsensus params'.payload final' →
        decodeMessage sampleZlib final = some (.raw (List.replicate 64 0)) ∧
          decodeMessage sampleZlib final' = some (.entry zeroEntry.l2Address 100000000) ∧
          ¬SameUpToNonce final final' := by
  have hserialize : serializePayload (rawPayload sampleZlib (List.replicate 64 0)) =
      .ok [149, 120, 156, 99, 96, 160, 12, 0, 0, 0, 64, 0, 1, 0, 0, 0, 1] := by
    rfl
  obtain ⟨bytes, hserialize'⟩ : ∃ bytes, serializePayload
      (entryPayload (L2Data.new zeroEntry.l2Address zeroEntry.amountSompi)) = .ok bytes :=
    ⟨_, rfl⟩
  obtain ⟨params, hcreate⟩ : ∃ params, .create params ∈ (processWalletCall toccataConsensus
      legacyAlloy sampleZlib ⟨⟨[0], 60⟩, ⟨3, 1000, 1000⟩⟩ (some ⟨"", none⟩) silentDaemon
      (List.replicate 64 0) .null).events :=
    ⟨_, create_mem_processWalletCall.mpr ⟨_, ⟨"", none⟩, hserialize, rfl, by decide, rfl⟩⟩
  obtain ⟨params', hcreate'⟩ : ∃ params', .create params' ∈
      (EntryTransactionService.processTransaction toccataConsensus
        ⟨⟨"", none⟩, ⟨[0], 60⟩, ⟨3, 1000, 1000⟩⟩ silentDaemon zeroEntry).events :=
    ⟨_, create_mem_processTransaction.mpr ⟨bytes, hserialize', by decide, rfl⟩⟩
  have h := @submitted_payload_determines toccataConsensus legacyAlloy _ sampleZlib_inverts
  refine ⟨params, params', hcreate, hcreate', fun final final' hfinal hfinal' => ⟨?_, ?_, ?_⟩⟩
  · exact (h.1 _ _ _ (.raw hcreate) hfinal).1.decodes
  · exact (h.1 _ _ _ (.entry hcreate') hfinal').1.decodes
  · intro hsame
    have heq := h.2 _ _ _ _ _ _ (.raw hcreate) (.entry hcreate') hfinal hfinal' hsame
    exact absurd heq (by simp)

end IgraRpc
