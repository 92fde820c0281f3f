import IgraRpc.Services.Worker

/-!
# Submissions to L1 over whole runs — `services/transaction.rs`, `clients/wallet_caller.rs`

The worker beside the daemon calls it makes: each transaction it takes is one
`process_wallet_call`, whose events are kept in order. What one call may do to the daemon
becomes a fact about every run, whatever the order of submissions and whatever the daemon
answers, decoding panics included.

* `SubmitsOnce` — one call signs at most one list and broadcasts at most one, the one the
  signer returned;
* `reachable_submittedInOrder` — **no accepted transaction is submitted twice**: the calls
  are for the accepted transactions, in order, and what is recorded is whether the daemon
  acknowledged a broadcast;
* `reachable_countsKept` — the worker's counters are those of its records.
-/

namespace IgraRpc

open Lib

-- ---------------------------------------------------------------------------
-- The calls of a run
-- ---------------------------------------------------------------------------

/-- One call of `process_wallet_call`: what it was for, and the daemon as it met it. -/
structure WalletRun where
  item : TransactionRequest
  uuid : String
  env : WalletEnv

/-- The worker and the calls it has made. -/
structure Submissions where
  processor : Processor
  runs : List WalletRun

/-- The lists handed to `sign`, in order. -/
def signedLists (events : List WalletEvent) : List (List Proto.WalletSignableTransaction) :=
  events.filterMap fun
    | .sign transactions => some transactions
    | _ => none

/-- The lists handed to `broadcast`, in order. -/
def broadcastLists (events : List WalletEvent) : List (List Proto.WalletSignableTransaction) :=
  events.filterMap fun
    | .broadcast transactions => some transactions
    | _ => none

/-- The daemon took the list and named an id. -/
def GrpcReply.acknowledges : GrpcReply (List String) → Bool
  | .ok transactionIds => !transactionIds.isEmpty
  | _ => false

def WorkOutcome.isSuccess : WorkOutcome → Bool
  | .success => true
  | .asyncTransactionFailed _ => false

section
variable (K : Consensus) (alloy : Alloy) (zlib : Zlib) (appState : AppState)

namespace WalletRun

/-- What the call did and how it ended. -/
def call (run : WalletRun) : Traced WalletEvent String Value :=
  processWalletCall K alloy zlib appState.config appState.walletCaller run.env run.item.txBytes
    (workerIdValue run.uuid run.item)

/-- The call returned: it did not end the worker. -/
def returned (run : WalletRun) : Bool :=
  match (run.call K alloy zlib appState).outcome with
  | .panicked => false
  | _ => true

/-- A broadcast of the call was acknowledged. -/
def acknowledged (run : WalletRun) : Bool :=
  (broadcastLists (run.call K alloy zlib appState).events).any fun transactions =>
    (run.env.broadcastReply transactions).acknowledges

end WalletRun

/-- The calls after a step: one more when the worker ends its work on a transaction. -/
def Submissions.runsAfter (s : Submissions) : ProcessorLabel → List WalletRun
  | .finish uuid env => s.runs ++ s.processor.worker.current.map fun item => ⟨item, uuid, env⟩
  | _ => s.runs

/-- The system of `processor`, with its calls. -/
def submissions : Lts Submissions ProcessorLabel where
  init s := s = ⟨⟨Channel.empty, .idle, 0, 0, [], [], []⟩, []⟩
  step s l t := (processor K alloy zlib appState).step s.processor l t.processor ∧
    t.runs = s.runsAfter l

end

-- ---------------------------------------------------------------------------
-- One call
-- ---------------------------------------------------------------------------

/-- Neither a signature nor a broadcast. -/
def OnlyCreates (events : List WalletEvent) : Prop :=
  signedLists events = [] ∧ broadcastLists events = []

theorem signedLists_append (events more : List WalletEvent) :
    signedLists (events ++ more) = signedLists events ++ signedLists more :=
  List.filterMap_append

theorem broadcastLists_append (events more : List WalletEvent) :
    broadcastLists (events ++ more) = broadcastLists events ++ broadcastLists more :=
  List.filterMap_append

theorem mem_signedLists {events : List WalletEvent}
    {transactions : List Proto.WalletSignableTransaction} :
    transactions ∈ signedLists events ↔ .sign transactions ∈ events := by
  rw [signedLists, List.mem_filterMap]
  refine ⟨?_, fun h => ⟨_, h, rfl⟩⟩
  rintro ⟨event, hmem, hsign⟩
  cases event with
  | sign transactions' => rwa [← Option.some.inj hsign]
  | create => exact absurd hsign (by simp)
  | sleep => exact absurd hsign (by simp)
  | broadcast => exact absurd hsign (by simp)

/-- The retries create and sleep, whatever the daemon answers. -/
theorem onlyCreates_retryAttempts (retryConfig : RetryConfig) (env : WalletEnv)
    (params : TransactionParams) (remaining : Nat) : ∀ attempt lastError,
    OnlyCreates (retryAttempts retryConfig env params remaining attempt lastError).events := by
  induction remaining with
  | zero =>
    intro attempt lastError
    exact ⟨rfl, rfl⟩
  | succ remaining ih =>
    intro attempt lastError
    rw [retryAttempts]
    cases (createUnsignedTransaction env attempt params).outcome with
    | ok result => exact ⟨rfl, rfl⟩
    | panicked => exact ⟨rfl, rfl⟩
    | err e =>
      by_cases hexhausted : isUtxoExhaustionError e = true
      · obtain ⟨hsigned, hbroadcast⟩ := ih (attempt + 1) (some e)
        simp only [hexhausted, if_true]
        rw [OnlyCreates, signedLists_append, broadcastLists_append, hsigned, hbroadcast]
        by_cases hlast : attempt < retryConfig.maxAttempts.toNat
        · rw [if_pos hlast]
          exact ⟨rfl, rfl⟩
        · rw [if_neg hlast]
          exact ⟨rfl, rfl⟩
      · simp only [if_neg hexhausted]
        exact ⟨rfl, rfl⟩

/-- What a call does with the signer: nothing; one list is signed and no answer comes; or one
list is signed and the answer broadcast. The outcome is good in the last case only, and
there if the broadcast is acknowledged. -/
inductive SigningEnd (env : WalletEnv) : List WalletEvent → Bool → Prop where
  | unsigned {events : List WalletEvent} (h : OnlyCreates events) : SigningEnd env events false
  | unanswered {events : List WalletEvent}
      (transactions : List Proto.WalletSignableTransaction)
      (hsigned : signedLists events = [transactions]) (hbroadcast : broadcastLists events = []) :
      SigningEnd env events false
  | sent {events : List WalletEvent} (transactions signed : List Proto.WalletSignableTransaction)
      (hsigned : signedLists events = [transactions])
      (hreply : env.signReply transactions = .ok signed)
      (hbroadcast : broadcastLists events = [signed]) :
      SigningEnd env events (env.broadcastReply signed).acknowledges

/-- Creating before does not matter. -/
theorem SigningEnd.append_left {env : WalletEnv} {events more : List WalletEvent} {good : Bool}
    (hcreates : OnlyCreates events) (h : SigningEnd env more good) :
    SigningEnd env (events ++ more) good := by
  have hsigns : signedLists (events ++ more) = signedLists more := by
    rw [signedLists_append, hcreates.1, List.nil_append]
  have hbroadcasts : broadcastLists (events ++ more) = broadcastLists more := by
    rw [broadcastLists_append, hcreates.2, List.nil_append]
  cases h with
  | unsigned hmore => exact .unsigned ⟨hsigns.trans hmore.1, hbroadcasts.trans hmore.2⟩
  | unanswered transactions hsigned hbroadcast =>
    exact .unanswered transactions (hsigns.trans hsigned) (hbroadcasts.trans hbroadcast)
  | sent transactions signed hsigned hreply hbroadcast =>
    exact .sent transactions signed (hsigns.trans hsigned) hreply (hbroadcasts.trans hbroadcast)

/-- The outcome is a value. -/
def isOk {ε α : Type} : Outcome ε α → Bool
  | .ok _ => true
  | _ => false

theorem isOk_mapErr {ε ε' α : Type} (f : ε → ε') (outcome : Outcome ε α) :
    isOk (outcome.mapErr f) = isOk outcome := by
  cases outcome <;> rfl

theorem signAndBroadcast_signingEnd (env : WalletEnv)
    (transactions : List Proto.WalletSignableTransaction) :
    SigningEnd env (signAndBroadcast env transactions).events
      (isOk (signAndBroadcast env transactions).outcome) := by
  rw [signAndBroadcast]
  cases hsign : env.signReply transactions with
  | status status =>
    have houtcome : (signTransactions env transactions).outcome =
        .err (.transactionSigningFailed status) := by
      rw [signTransactions, hsign]
      rfl
    rw [Traced.bind_of_err houtcome]
    exact .unanswered transactions rfl rfl
  | elapsed =>
    have houtcome : (signTransactions env transactions).outcome =
        .err (.grpcTimeout "sign" grpcTimeoutSecs) := by
      rw [signTransactions, hsign]
      rfl
    rw [Traced.bind_of_err houtcome]
    exact .unanswered transactions rfl rfl
  | ok signed =>
    have houtcome : (signTransactions env transactions).outcome = .ok signed := by
      rw [signTransactions, hsign]
      rfl
    rw [Traced.bind_of_ok houtcome]
    have hlists : SigningEnd env [.sign transactions, .broadcast signed]
        (env.broadcastReply signed).acknowledges := .sent transactions signed rfl hsign rfl
    cases hbroadcast : env.broadcastReply signed with
    | status status =>
      have hfailed : (broadcastTransactions env signed).outcome =
          .err (.transactionBroadcastFailed status) := by
        rw [broadcastTransactions, hbroadcast]
        rfl
      rw [hbroadcast] at hlists
      rw [Traced.bind_of_err hfailed]
      exact hlists
    | elapsed =>
      have hfailed : (broadcastTransactions env signed).outcome =
          .err (.grpcTimeout "broadcast" grpcTimeoutSecs) := by
        rw [broadcastTransactions, hbroadcast]
        rfl
      rw [hbroadcast] at hlists
      rw [Traced.bind_of_err hfailed]
      exact hlists
    | ok transactionIds =>
      have hids : (broadcastTransactions env signed).outcome = .ok transactionIds := by
        rw [broadcastTransactions, hbroadcast]
        rfl
      rw [hbroadcast] at hlists
      rw [Traced.bind_of_ok hids]
      cases hlast : transactionIds.getLast? with
      | none =>
        obtain rfl : transactionIds = [] := List.getLast?_eq_none_iff.mp hlast
        exact hlists
      | some lastTxId =>
        have hne : transactionIds.isEmpty = false := by
          cases transactionIds with
          | nil => exact absurd hlast (by simp)
          | cons => rfl
        have hgood : GrpcReply.acknowledges (.ok transactionIds) = true := by
          rw [GrpcReply.acknowledges, hne]
          rfl
        rw [hgood] at hlists
        exact hlists

/-- The flow signs at the end only. -/
theorem completeTransactionFlow_signingEnd (K : Consensus) (caller : WalletCaller)
    (config : MiningConfig) (env : WalletEnv)
    (unsigned : List Proto.WalletSignableTransaction) :
    SigningEnd env (completeTransactionFlow K caller config env unsigned).events
      (isOk (completeTransactionFlow K caller config env unsigned).outcome) := by
  rcases completeTransactionFlow_cases (K := K) caller config env unsigned with
    ⟨-, hflow⟩ | ⟨i, len, -, hflow⟩ | ⟨last, -, -, ⟨e, -, hflow⟩ | ⟨-, hflow⟩ | ⟨tx, -, hflow⟩⟩
  · rw [hflow]
    exact .unsigned ⟨rfl, rfl⟩
  · rw [hflow]
    exact .unsigned ⟨rfl, rfl⟩
  · rw [hflow]
    exact .unsigned ⟨rfl, rfl⟩
  · rw [hflow]
    exact .unsigned ⟨rfl, rfl⟩
  · rw [hflow]
    exact signAndBroadcast_signingEnd env _

theorem mineAndSend_signingEnd (K : Consensus) (caller : WalletCaller) (config : MiningConfig)
    (retryConfig : RetryConfig) (env : WalletEnv) (params : TransactionParams) :
    SigningEnd env
      (mineAndSendTransactionWithRetry K caller config retryConfig env params).events
      (isOk (mineAndSendTransactionWithRetry K caller config retryConfig env params).outcome) := by
  have hcreates : OnlyCreates (createUnsignedTransactionWithRetry retryConfig env params).events :=
    onlyCreates_retryAttempts retryConfig env params _ 1 none
  rw [mineAndSendTransactionWithRetry]
  cases hcreated : (createUnsignedTransactionWithRetry retryConfig env params).outcome with
  | err e =>
    rw [Traced.bind_of_err hcreated]
    exact .unsigned hcreates
  | panicked =>
    rw [Traced.bind_of_panicked hcreated]
    exact .unsigned hcreates
  | ok unsigned =>
    rw [Traced.bind_of_ok hcreated]
    exact (completeTransactionFlow_signingEnd K caller config env unsigned).append_left hcreates

/-- So does `process_wallet_call`, which forgets the id. -/
theorem processWalletCall_signingEnd (K : Consensus) (alloy : Alloy) (zlib : Zlib)
    (config : AppConfig) (walletCaller : Option WalletCaller) (env : WalletEnv)
    (txBytes : List UInt8) (id : Value) :
    SigningEnd env (processWalletCall K alloy zlib config walletCaller env txBytes id).events
      (isOk (processWalletCall K alloy zlib config walletCaller env txBytes id).outcome) := by
  rw [processWalletCall]
  cases serializePayload (rawPayload zlib txBytes) with
  | error e => exact .unsigned ⟨rfl, rfl⟩
  | ok walletPayloadBytes =>
    cases walletCaller with
    | none => exact .unsigned ⟨rfl, rfl⟩
    | some caller =>
      have hsent := mineAndSend_signingEnd K caller config.mining config.retry env
        (.sendAll caller.toAddress walletPayloadBytes
          (some (hashText (computeTransactionHash alloy txBytes))))
      revert hsent
      cases hcall : mineAndSendTransactionWithRetry K caller config.mining config.retry env
          (.sendAll caller.toAddress walletPayloadBytes
            (some (hashText (computeTransactionHash alloy txBytes)))) with
      | mk events outcome =>
        intro hsent
        simp only [hcall]
        cases outcome with
        | ok lastTxId => exact hsent
        | err e => exact hsent
        | panicked => exact hsent

-- ---------------------------------------------------------------------------
-- What a call may do
-- ---------------------------------------------------------------------------

/-- A call signs at most one list and broadcasts at most one: what the signer returned. It
ends well exactly when that broadcast is acknowledged. -/
structure SubmitsOnce (env : WalletEnv) (events : List WalletEvent) (good : Bool) : Prop where
  signs : (signedLists events).length ≤ 1
  broadcasts : (broadcastLists events).length ≤ 1
  signed : ∀ transactions ∈ broadcastLists events, ∃ unsigned ∈ signedLists events,
    env.signReply unsigned = .ok transactions
  acknowledged : good =
    (broadcastLists events).any fun transactions => (env.broadcastReply transactions).acknowledges

theorem SigningEnd.submitsOnce {env : WalletEnv} {events : List WalletEvent} {good : Bool}
    (h : SigningEnd env events good) : SubmitsOnce env events good := by
  cases h with
  | unsigned hcreates =>
    obtain ⟨hsigned, hbroadcast⟩ := hcreates
    refine ⟨by rw [hsigned]; exact Nat.zero_le 1, by rw [hbroadcast]; exact Nat.zero_le 1, ?_, ?_⟩
    · rw [hbroadcast]
      exact fun transactions hmem => absurd hmem List.not_mem_nil
    · rw [hbroadcast]
      rfl
  | unanswered transactions hsigned hbroadcast =>
    refine ⟨by rw [hsigned]; exact Nat.le_refl 1, by rw [hbroadcast]; exact Nat.zero_le 1, ?_, ?_⟩
    · rw [hbroadcast]
      exact fun transactions hmem => absurd hmem List.not_mem_nil
    · rw [hbroadcast]
      rfl
  | sent transactions signed hsigned hreply hbroadcast =>
    refine ⟨by rw [hsigned]; exact Nat.le_refl 1, by rw [hbroadcast]; exact Nat.le_refl 1, ?_, ?_⟩
    · rw [hbroadcast, hsigned]
      intro sent hmem
      rw [List.mem_singleton.mp hmem]
      exact ⟨transactions, List.mem_singleton_self _, hreply⟩
    · rw [hbroadcast, List.any_cons, List.any_nil, Bool.or_false]

/-- The list is staging transactions without payload and one that conforms to the lane. -/
def ListConforms (K : Consensus) (e : LaneEnforcement)
    (transactions : List Proto.WalletSignableTransaction) : Prop :=
  (∀ tx ∈ transactions.dropLast, protoPayloadLen tx = 0) ∧
    ∃ last, transactions.getLast? = some last ∧ MessageConforms K e last

/-- With lane enforcement on, the flow signs conforming lists only, also when it panics. -/
theorem completeTransactionFlow_signs {K : Consensus} {toAddress : String} {e : LaneEnforcement}
    {config : MiningConfig} {env : WalletEnv} {unsigned : List Proto.WalletSignableTransaction}
    {transactions : List Proto.WalletSignableTransaction}
    (h : .sign transactions ∈
      (completeTransactionFlow K ⟨toAddress, some e⟩ config env unsigned).events) :
    ListConforms K e transactions := by
  rcases completeTransactionFlow_cases (K := K) ⟨toAddress, some e⟩ config env unsigned with
    ⟨-, hflow⟩ | ⟨i, len, -, hflow⟩ | ⟨last, -, hstaging, hrest⟩
  · rw [hflow] at h
    exact absurd h List.not_mem_nil
  · rw [hflow] at h
    exact absurd h List.not_mem_nil
  · rcases hrest with ⟨e, -, hflow⟩ | ⟨-, hflow⟩ | ⟨updated, hprep, hflow⟩
    · rw [hflow] at h
      exact absurd h List.not_mem_nil
    · rw [hflow] at h
      exact absurd h List.not_mem_nil
    · rw [hflow] at h
      obtain rfl := sign_mem_signAndBroadcast.mp h
      rw [ListConforms, List.dropLast_concat, List.getLast?_concat]
      exact ⟨hstaging, updated, rfl, updated_conforms hprep⟩

theorem mineAndSend_signs {K : Consensus} {toAddress : String} {e : LaneEnforcement}
    {config : MiningConfig} {retryConfig : RetryConfig} {env : WalletEnv}
    {params : TransactionParams} {transactions : List Proto.WalletSignableTransaction}
    (h : .sign transactions ∈
      (mineAndSendTransactionWithRetry K ⟨toAddress, some e⟩ config retryConfig env
        params).events) : ListConforms K e transactions := by
  rw [mineAndSendTransactionWithRetry, Traced.mem_bind_events] at h
  rcases h with h | ⟨unsigned, -, h⟩
  · have hnone := (onlyCreates_retryAttempts retryConfig env params
      retryConfig.maxAttempts.toNat 1 none).1
    have hmem : transactions ∈ signedLists
        (retryAttempts retryConfig env params retryConfig.maxAttempts.toNat 1 none).events :=
      mem_signedLists.mpr h
    rw [hnone] at hmem
    exact absurd hmem List.not_mem_nil
  · exact completeTransactionFlow_signs h

theorem processWalletCall_signs {K : Consensus} {alloy : Alloy} {zlib : Zlib}
    {config : AppConfig} {toAddress : String} {e : LaneEnforcement} {env : WalletEnv}
    {txBytes : List UInt8} {id : Value} {transactions : List Proto.WalletSignableTransaction}
    (h : .sign transactions ∈ (processWalletCall K alloy zlib config
      (some ⟨toAddress, some e⟩) env txBytes id).events) : ListConforms K e transactions := by
  rw [processWalletCall] at h
  cases hserialize : serializePayload (rawPayload zlib txBytes) with
  | error error =>
    simp only [hserialize] at h
    exact absurd h List.not_mem_nil
  | ok walletPayloadBytes =>
    simp only [hserialize] at h
    exact mineAndSend_signs h

-- ---------------------------------------------------------------------------
-- Every run
-- ---------------------------------------------------------------------------

/-- What is recorded of a call that returned. -/
def WalletRun.record (K : Consensus) (alloy : Alloy) (zlib : Zlib) (appState : AppState)
    (run : WalletRun) : Option (TransactionRequest × Bool) :=
  if run.returned K alloy zlib appState then
    some (run.item, run.acknowledged K alloy zlib appState)
  else none

/-- The calls are for the transactions taken, in order, and these for a first part of those
accepted; each call submits once, the payload of its own transaction, and signs for the lane
only; and the records say which broadcasts were acknowledged. -/
structure SubmittedInOrder (K : Consensus) (alloy : Alloy) (zlib : Zlib) (appState : AppState)
    (s : Submissions) : Prop where
  in_order : s.processor.taken = s.runs.map WalletRun.item ++ s.processor.worker.current
  accepted : s.processor.taken <+: s.processor.accepted
  once : ∀ run ∈ s.runs, SubmitsOnce run.env (run.call K alloy zlib appState).events
    (isOk (run.call K alloy zlib appState).outcome)
  payload : ∀ run ∈ s.runs, ∀ params,
    .create params ∈ (run.call K alloy zlib appState).events →
      serializePayload (rawPayload zlib run.item.txBytes) = .ok params.payload
  gated : ∀ toAddress e, appState.walletCaller = some ⟨toAddress, some e⟩ → ∀ run ∈ s.runs,
    ∀ transactions ∈ signedLists (run.call K alloy zlib appState).events,
      ListConforms K e transactions
  recorded : (s.processor.outcomes.map fun entry => (entry.1, entry.2.isSuccess)) =
    s.runs.filterMap (WalletRun.record K alloy zlib appState)

section
variable {K : Consensus} {alloy : Alloy} {zlib : Zlib} {appState : AppState}

/-- What was accepted and not taken is in the queue, as long as there is a worker. -/
structure QueueKept (s : Processor) : Prop where
  accepted : s.taken <+: s.accepted
  waiting : s.worker ≠ .gone → s.accepted = s.taken ++ s.queue.items

theorem queueKept_step {s t : Processor} {l : ProcessorLabel} (hs : QueueKept s)
    (h : (processor K alloy zlib appState).step s l t) : QueueKept t := by
  cases h with
  | accept view uuid req item hitems =>
    refine ⟨hs.accepted.trans (List.prefix_append _ _), fun halive => ?_⟩
    show s.accepted ++ [item] =
      s.taken ++ (processTransaction alloy view uuid req s.queue).queue.items
    rw [hitems, hs.waiting halive, List.append_assoc]
  | refuse => exact hs
  | take item queue hidle hrecv =>
    obtain ⟨hitems, -⟩ := Channel.recv_eq_some.mp hrecv
    have hbefore := hs.waiting (by rw [hidle]; simp)
    have hafter : s.accepted = s.taken ++ [item] ++ queue.items := by
      rw [hbefore, hitems, List.append_assoc, List.singleton_append]
    refine ⟨?_, fun _ => hafter⟩
    show s.taken ++ [item] <+: s.accepted
    rw [hafter]
    exact List.prefix_append _ _
  | finish uuid env item hbusy =>
    have hbefore := hs.waiting (by rw [hbusy]; simp)
    cases (processWalletCall K alloy zlib appState.config appState.walletCaller env item.txBytes
      (workerIdValue uuid item)).outcome with
    | ok response => exact ⟨hs.accepted, fun _ => hbefore⟩
    | err error => exact ⟨hs.accepted, fun _ => hbefore⟩
    | panicked => exact ⟨hs.accepted, fun halive => absurd rfl halive⟩

/-- Each call by itself does as it may. -/
theorem WalletRun.submitsOnce (run : WalletRun) :
    SubmitsOnce run.env (run.call K alloy zlib appState).events
      (isOk (run.call K alloy zlib appState).outcome) :=
  (processWalletCall_signingEnd K alloy zlib appState.config appState.walletCaller run.env
    run.item.txBytes (workerIdValue run.uuid run.item)).submitsOnce

theorem WalletRun.payload {run : WalletRun} {params : TransactionParams}
    (h : .create params ∈ (run.call K alloy zlib appState).events) :
    serializePayload (rawPayload zlib run.item.txBytes) = .ok params.payload := by
  obtain ⟨bytes, caller, hserialize, -, -, rfl⟩ := create_mem_processWalletCall.mp h
  exact hserialize

theorem WalletRun.gated {run : WalletRun} {toAddress : String} {e : LaneEnforcement}
    (hwallet : appState.walletCaller = some ⟨toAddress, some e⟩)
    {transactions : List Proto.WalletSignableTransaction}
    (h : transactions ∈ signedLists (run.call K alloy zlib appState).events) :
    ListConforms K e transactions := by
  have hsign := mem_signedLists.mp h
  rw [WalletRun.call, hwallet] at hsign
  exact processWalletCall_signs hsign

/-- What the worker records of a transaction is what the call's record says. -/
theorem finish_record (K : Consensus) (alloy : Alloy) (zlib : Zlib) (appState : AppState)
    (s : Processor) (uuid : String) (item : TransactionRequest) (env : WalletEnv) :
    ((s.finish alloy uuid item (processWalletCall K alloy zlib appState.config
        appState.walletCaller env item.txBytes (workerIdValue uuid item)).outcome).outcomes.map
          fun entry => (entry.1, entry.2.isSuccess)) =
      (s.outcomes.map fun entry => (entry.1, entry.2.isSuccess)) ++
        [⟨item, uuid, env⟩].filterMap (WalletRun.record K alloy zlib appState) := by
  have honce : SubmitsOnce env (WalletRun.call K alloy zlib appState ⟨item, uuid, env⟩).events
      (isOk (WalletRun.call K alloy zlib appState ⟨item, uuid, env⟩).outcome) :=
    WalletRun.submitsOnce ⟨item, uuid, env⟩
  have hgood := honce.acknowledged
  have hcall : (WalletRun.call K alloy zlib appState ⟨item, uuid, env⟩) =
      processWalletCall K alloy zlib appState.config appState.walletCaller env item.txBytes
        (workerIdValue uuid item) := rfl
  rw [List.filterMap_cons, List.filterMap_nil, WalletRun.record, WalletRun.returned,
    WalletRun.acknowledged, ← hgood, hcall]
  cases (processWalletCall K alloy zlib appState.config appState.walletCaller env item.txBytes
    (workerIdValue uuid item)).outcome with
  | ok response => exact List.map_append
  | err error => exact List.map_append
  | panicked => exact (List.append_nil _).symm

theorem submittedInOrder_init (K : Consensus) (alloy : Alloy) (zlib : Zlib)
    (appState : AppState) : SubmittedInOrder K alloy zlib appState
      ⟨⟨Channel.empty, .idle, 0, 0, [], [], []⟩, []⟩ := by
  refine ⟨rfl, List.prefix_rfl, ?_, ?_, ?_, rfl⟩
  · exact fun run hrun => absurd hrun List.not_mem_nil
  · exact fun run hrun => absurd hrun List.not_mem_nil
  · exact fun _ _ _ run hrun => absurd hrun List.not_mem_nil

theorem submittedInOrder_step {s t : Submissions} {l : ProcessorLabel}
    (hqueue : QueueKept t.processor) (hs : SubmittedInOrder K alloy zlib appState s)
    (h : (submissions K alloy zlib appState).step s l t) :
    SubmittedInOrder K alloy zlib appState t := by
  obtain ⟨hstep, hruns⟩ := h
  obtain ⟨p, runs⟩ := t
  obtain rfl : runs = s.runsAfter l := hruns
  have hstep : ProcessorStep K alloy zlib appState s.processor l p := hstep
  -- each call does as it may by itself, so only order and records depend on the step
  refine ⟨?_, hqueue.accepted, fun run _ => run.submitsOnce, fun run _ params => run.payload,
    fun toAddress e hwallet run _ transactions => run.gated hwallet, ?_⟩
  · cases hstep with
    | accept view uuid req item hitems => exact hs.in_order
    | refuse => exact hs.in_order
    | take item queue hidle hrecv =>
      have hbefore := hs.in_order
      rw [hidle, WorkerState.current, List.append_nil] at hbefore
      show s.processor.taken ++ [item] = s.runs.map WalletRun.item ++ [item]
      rw [hbefore]
    | finish uuid env item hbusy =>
      have hbefore := hs.in_order
      have hruns : s.runsAfter (.finish uuid env) = s.runs ++ [⟨item, uuid, env⟩] := by
        rw [Submissions.runsAfter, hbusy]
        rfl
      rw [hbusy, WorkerState.current] at hbefore
      rw [hruns, List.map_append]
      cases (processWalletCall K alloy zlib appState.config appState.walletCaller env item.txBytes
        (workerIdValue uuid item)).outcome with
      | ok response => exact hbefore.trans (List.append_nil _).symm
      | err error => exact hbefore.trans (List.append_nil _).symm
      | panicked => exact hbefore.trans (List.append_nil _).symm
  · cases hstep with
    | accept view uuid req item hitems => exact hs.recorded
    | refuse => exact hs.recorded
    | take item queue hidle hrecv => exact hs.recorded
    | finish uuid env item hbusy =>
      have hruns : s.runsAfter (.finish uuid env) = s.runs ++ [⟨item, uuid, env⟩] := by
        rw [Submissions.runsAfter, hbusy]
        rfl
      have hrecord := finish_record K alloy zlib appState s.processor uuid item env
      rw [hruns, List.filterMap_append, ← hs.recorded]
      exact hrecord

theorem reachable_queueKept {s : Submissions}
    (h : (submissions K alloy zlib appState).Reachable s) : QueueKept s.processor := by
  refine Lts.invariant (P := fun s => QueueKept s.processor) ?_ ?_ s h
  · rintro s rfl
    exact ⟨List.prefix_rfl, fun _ => rfl⟩
  · intro s l t _ hs hstep
    exact queueKept_step hs hstep.1

/-- So in every state of every run, whatever else is asked of its steps. -/
theorem submittedInOrder_of_restrict {G : Submissions → ProcessorLabel → Prop} {s : Submissions}
    (h : ((submissions K alloy zlib appState).restrict G).Reachable s) :
    SubmittedInOrder K alloy zlib appState s := by
  refine Lts.invariant ?_ ?_ s h
  · rintro s rfl
    exact submittedInOrder_init K alloy zlib appState
  · intro s l t hreach hs hstep
    have hqueue := reachable_queueKept (hreach.next hstep).of_restrict
    exact submittedInOrder_step hqueue hs hstep.1

/-- **Every accepted transaction is submitted at most once**, in order of acceptance, for its
own lane and with its own payload, in every state of every run; and a success is recorded
for those whose broadcast the daemon acknowledged, and for no others. -/
theorem reachable_submittedInOrder {s : Submissions}
    (h : (submissions K alloy zlib appState).Reachable s) :
    SubmittedInOrder K alloy zlib appState s :=
  submittedInOrder_of_restrict h.to_restrict

theorem processor_reachable {s : Submissions}
    (h : (submissions K alloy zlib appState).Reachable s) :
    (processor K alloy zlib appState).Reachable s.processor := by
  refine Lts.invariant (P := fun s => (processor K alloy zlib appState).Reachable s.processor)
    ?_ ?_ s h
  · rintro s rfl
    exact Lts.reachable_init rfl
  · intro s l t _ hs hstep
    exact hs.next hstep.1

/-- Keeping the calls rules out no run of the worker. -/
theorem exists_submissions {p : Processor} (h : (processor K alloy zlib appState).Reachable p) :
    ∃ runs, (submissions K alloy zlib appState).Reachable ⟨p, runs⟩ := by
  refine Lts.invariant (P := fun p => ∃ runs, (submissions K alloy zlib appState).Reachable
    ⟨p, runs⟩) ?_ ?_ p h
  · rintro p rfl
    exact ⟨[], Lts.reachable_init rfl⟩
  · intro p l q _ hp hstep
    obtain ⟨runs, hreach⟩ := hp
    exact ⟨_, hreach.next (t := ⟨q, Submissions.runsAfter ⟨p, runs⟩ l⟩) ⟨hstep, rfl⟩⟩

end

-- ---------------------------------------------------------------------------
-- The worker's counters
-- ---------------------------------------------------------------------------

/-- The outcomes of one kind. -/
def countOutcomes (success : Bool) (outcomes : List (TransactionRequest × WorkOutcome)) : Nat :=
  outcomes.countP fun entry => entry.2.isSuccess == success

/-- The counters are those of the records, as far as a `u16` goes; and the alert of each
failure names its transaction and how many have failed by then. -/
structure CountsKept (alloy : Alloy) (s : Processor) : Prop where
  processed : s.processedCount = min (countOutcomes true s.outcomes) 65535
  errors : s.errorCount = min (countOutcomes false s.outcomes) 65535
  alerts : ∀ before item alert after,
    s.outcomes = before ++ (item, .asyncTransactionFailed alert) :: after →
      alert.totalErrors = min (countOutcomes false before + 1) 65535 ∧
        alert.hash = hashText (computeTransactionHash alloy item.txBytes) ∧
        alert.payloadSize = item.txBytes.length

theorem countOutcomes_append (success : Bool)
    (outcomes more : List (TransactionRequest × WorkOutcome)) :
    countOutcomes success (outcomes ++ more) =
      countOutcomes success outcomes + countOutcomes success more :=
  List.countP_append

/-- Counting one more of those counted so far. -/
theorem countUp_min (n : Nat) : countUp (min n 65535) = min (n + 1) 65535 := by
  rw [countUp]
  omega

/-- An entry of a longer list is the last one or an earlier one. -/
theorem snoc_eq_append_cons {α : Type} {xs before after : List α} {a b : α}
    (h : xs ++ [a] = before ++ b :: after) :
    (before = xs ∧ b = a) ∨ ∃ more, xs = before ++ b :: more := by
  rcases List.append_eq_append_iff.mp h with ⟨more, hbefore, hrest⟩ | ⟨more, hold, hrest⟩
  · cases more with
    | nil => exact Or.inl ⟨hbefore.trans (List.append_nil _), (List.cons.inj hrest).1.symm⟩
    | cons entry more =>
      have hlength := congrArg List.length hrest
      simp at hlength
  · cases more with
    | nil => exact Or.inl ⟨(hold.trans (List.append_nil _)).symm, (List.cons.inj hrest).1⟩
    | cons entry more =>
      obtain ⟨rfl, -⟩ := List.cons.inj hrest
      exact Or.inr ⟨more, hold⟩

theorem countsKept_success {alloy : Alloy} {s : Processor} (hs : CountsKept alloy s)
    (item : TransactionRequest) :
    CountsKept alloy { s with
      worker := .idle
      processedCount := countUp s.processedCount
      outcomes := s.outcomes ++ [(item, .success)] } := by
  refine ⟨?_, ?_, ?_⟩
  · show countUp s.processedCount = min (countOutcomes true (s.outcomes ++ [(item, .success)])) _
    rw [hs.processed, countUp_min, countOutcomes_append]
    rfl
  · show s.errorCount = min (countOutcomes false (s.outcomes ++ [(item, .success)])) _
    rw [hs.errors, countOutcomes_append]
    rfl
  · intro before failed alert after hsplit
    -- the new record is no alert, so the alert is an earlier one
    rcases snoc_eq_append_cons hsplit with ⟨-, hentry⟩ | ⟨more, hold⟩
    · exact absurd (congrArg Prod.snd hentry) (by simp)
    · exact hs.alerts before failed alert more hold

theorem countsKept_failure {alloy : Alloy} {s : Processor} (hs : CountsKept alloy s)
    (uuid : String) (item : TransactionRequest) (error : String) :
    CountsKept alloy (s.finish alloy uuid item (.err error)) := by
  refine ⟨?_, ?_, ?_⟩
  · show s.processedCount = min (countOutcomes true (s.outcomes ++ [_])) _
    rw [hs.processed, countOutcomes_append]
    rfl
  · show countUp s.errorCount = min (countOutcomes false (s.outcomes ++ [_])) _
    rw [hs.errors, countUp_min, countOutcomes_append]
    rfl
  · intro before failed alert after hsplit
    rcases snoc_eq_append_cons hsplit with ⟨rfl, hentry⟩ | ⟨more, hold⟩
    · obtain ⟨rfl, halert⟩ := Prod.mk.inj hentry
      obtain rfl := WorkOutcome.asyncTransactionFailed.inj halert
      refine ⟨?_, rfl, rfl⟩
      show countUp s.errorCount = _
      rw [hs.errors, countUp_min]
    · exact hs.alerts before failed alert more hold

section
variable {K : Consensus} {alloy : Alloy} {zlib : Zlib} {appState : AppState}

theorem countsKept_step {s t : Processor} {l : ProcessorLabel} (hs : CountsKept alloy s)
    (h : (processor K alloy zlib appState).step s l t) : CountsKept alloy t := by
  cases h with
  | accept view uuid req item hitems => exact ⟨hs.processed, hs.errors, hs.alerts⟩
  | refuse => exact hs
  | take item queue hidle hrecv => exact ⟨hs.processed, hs.errors, hs.alerts⟩
  | finish uuid env item hbusy =>
    cases (processWalletCall K alloy zlib appState.config appState.walletCaller env item.txBytes
      (workerIdValue uuid item)).outcome with
    | ok response => exact countsKept_success hs item
    | err error => exact countsKept_failure hs uuid item error
    | panicked => exact ⟨hs.processed, hs.errors, hs.alerts⟩

/-- **The counters are right in every state of every run**, and every alert tells of its own
transaction. -/
theorem reachable_countsKept {s : Processor} (h : (processor K alloy zlib appState).Reachable s) :
    CountsKept alloy s := by
  refine Lts.invariant ?_ ?_ s h
  · rintro s rfl
    refine ⟨rfl, rfl, ?_⟩
    intro before item alert after hsplit
    exact absurd hsplit.symm (by simp)
  · intro s l t _ hs hstep
    exact countsKept_step hs hstep

end

/-! ### A run in which the daemon never answers -/

/-- `legacyTx` is accepted, taken and processed, whatever else is asked of the steps. -/
theorem exists_legacyItem (env : WalletEnv) {G : Submissions → ProcessorLabel → Prop}
    (hsubmit : ∀ s, G s (.submit cheapView "" (sendRawTransaction legacyTx)))
    (htake : ∀ s, G s .take)
    (hfinish : ∀ s, s.processor.worker = .busy legacyItem → G s (.finish "" env)) :
    ∃ s, ((submissions toccataConsensus legacyAlloy sampleZlib walletState).restrict G).Reachable
        s ∧ s.runs = [⟨legacyItem, "", env⟩] ∧ s.processor.accepted = [legacyItem] := by
  have hinit : ((submissions toccataConsensus legacyAlloy sampleZlib walletState).restrict
      G).Reachable ⟨⟨Channel.empty, .idle, 0, 0, [], [], []⟩, []⟩ := Lts.reachable_init rfl
  obtain ⟨p, hstep, hitems, -, haccepted, hworker, -, -⟩ :=
    submit_legacyTx (s := ⟨Channel.empty, .idle, 0, 0, [], [], []⟩) rfl (by decide)
  have hsubmitted : ((submissions toccataConsensus legacyAlloy sampleZlib walletState).restrict
      G).Reachable ⟨p, []⟩ := hinit.next_restrict
    (l := .submit cheapView "" (sendRawTransaction legacyTx)) ⟨hstep, rfl⟩ (hsubmit _)
  have hitems : p.queue.items = [legacyItem] := hitems
  let rest : TransactionQueue := ⟨[], p.queue.closed, by decide⟩
  have hrecv : p.queue.recv = some (legacyItem, rest) := Channel.recv_eq_some.mpr ⟨hitems, rfl⟩
  have htaken : ((submissions toccataConsensus legacyAlloy sampleZlib walletState).restrict
      G).Reachable ⟨{ p with
        queue := rest, worker := .busy legacyItem, taken := p.taken ++ [legacyItem] }, []⟩ :=
    hsubmitted.next_restrict (l := .take) ⟨.take p legacyItem rest hworker hrecv, rfl⟩ (htake _)
  refine ⟨⟨_, [⟨legacyItem, "", env⟩]⟩, htaken.next_restrict (l := .finish "" env)
    ⟨.finish _ "" env legacyItem rfl, rfl⟩ (hfinish _ rfl), rfl, ?_⟩
  cases (processWalletCall toccataConsensus legacyAlloy sampleZlib walletState.config
    walletState.walletCaller env legacyItem.txBytes (workerIdValue "" legacyItem)).outcome <;>
      exact haccepted

/-- `legacyTx` is accepted, taken and given up. -/
theorem exists_legacyItem_failed :
    ∃ s, (submissions toccataConsensus legacyAlloy sampleZlib walletState).Reachable s ∧
      s.runs = [⟨legacyItem, "", silentDaemon⟩] ∧ s.processor.accepted = [legacyItem] := by
  obtain ⟨s, hreach, hrun⟩ := exists_legacyItem silentDaemon (G := fun _ _ => True)
    (fun _ => trivial) (fun _ => trivial) fun _ _ => trivial
  exact ⟨s, hreach.of_restrict, hrun⟩

theorem reachable_submittedInOrder_legacyItem :
    ∃ s, s.processor.accepted = [legacyItem] ∧ s.runs = [⟨legacyItem, "", silentDaemon⟩] ∧
      SubmittedInOrder toccataConsensus legacyAlloy sampleZlib walletState s := by
  obtain ⟨s, hreach, hruns, haccepted⟩ := exists_legacyItem_failed
  exact ⟨s, haccepted, hruns, reachable_submittedInOrder hreach⟩

theorem reachable_countsKept_legacyItem :
    ∃ s, s.accepted = [legacyItem] ∧ CountsKept legacyAlloy s := by
  obtain ⟨s, hreach, -, haccepted⟩ := exists_legacyItem_failed
  exact ⟨s.processor, haccepted, reachable_countsKept (processor_reachable hreach)⟩

end IgraRpc
