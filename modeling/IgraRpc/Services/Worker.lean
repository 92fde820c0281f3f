import IgraRpc.Lib.Lts
import IgraRpc.Services.WalletCall

/-!
# The background worker — `start_transaction_processor`

The accept path, the queue and the worker as one system: handlers submit at any
time, the worker takes one transaction after the other, and the wallet daemon answers
as it likes.

* `NothingLost` — what "no accepted transaction is lost silently" asks of a state;
* `processor_nothingLost` — **nothing is lost in any run whose daemon answers reach no
  decoding panic**, whatever the order of submissions and the failures on the way;
* `processor_loses` — one answer that does ends the worker: the transaction being
  processed and all that are queued never get an outcome.

A panic ends the worker's task and drops the receiver with what it still holds. The
server does not shut down here, so the queue always has a sender.
-/

namespace IgraRpc

open Lib

-- ---------------------------------------------------------------------------
-- The system
-- ---------------------------------------------------------------------------

/-- What the worker needs of the application's state. -/
structure AppState where
  config : AppConfig
  walletCaller : Option WalletCaller

/-- The alert `AsyncTransactionFailed`. -/
structure Alert where
  id : String
  hash : String
  payloadSize : Nat
  totalErrors : Nat
  error : String

/-- What is recorded of a processed transaction. -/
inductive WorkOutcome where
  | success
  | asyncTransactionFailed (alert : Alert)

inductive WorkerState where
  | idle
  | busy (txRequest : TransactionRequest)
  | gone

/-- The transaction being processed. -/
def WorkerState.current : WorkerState → List TransactionRequest
  | idle => []
  | busy txRequest => [txRequest]
  | gone => []

/-- The queue, the worker with its counters, and the history: what was accepted, what
was taken and what became of it, each in order. -/
structure Processor where
  queue : TransactionQueue
  worker : WorkerState
  processedCount : Nat
  errorCount : Nat
  accepted : List TransactionRequest
  taken : List TransactionRequest
  outcomes : List (TransactionRequest × WorkOutcome)

/-- `saturating_add(1)` of a `u16`. -/
def countUp (count : Nat) : Nat := min (count + 1) 65535

/-- The id a transaction is logged under. -/
def workerIdText (uuid : String) (txRequest : TransactionRequest) : String :=
  if txRequest.id.isNull then uuid else txRequest.id.toText

/-- The id passed to `process_wallet_call`. -/
def workerIdValue (uuid : String) (txRequest : TransactionRequest) : Value :=
  if txRequest.id.isNull then .string uuid else txRequest.id

/-- The end of one round of the worker's loop. -/
def Processor.finish (alloy : Alloy) (s : Processor) (uuid : String)
    (txRequest : TransactionRequest) : Outcome String Value → Processor
  | .ok _ =>
    { s with
      worker := .idle
      processedCount := countUp s.processedCount
      outcomes := s.outcomes ++ [(txRequest, .success)] }
  | .err err =>
    { s with
      worker := .idle
      errorCount := countUp s.errorCount
      outcomes := s.outcomes ++ [(txRequest, .asyncTransactionFailed {
        id := workerIdText uuid txRequest
        hash := hashText (computeTransactionHash alloy txRequest.txBytes)
        payloadSize := txRequest.txBytes.length
        totalErrors := countUp s.errorCount
        error := err })] }
  -- the task ends, and the receiver with it
  | .panicked => { s with worker := .gone, queue := s.queue.dropReceiver }

/-- What a handler, the worker and the daemon can do next: a submission with the fee
service as it meets it, the worker taking a transaction, and the worker ending its work
on one, with the daemon's answers. -/
inductive ProcessorLabel where
  | submit (view : FeeView) (uuid : String) (req : RpcRequest)
  | take
  | finish (uuid : String) (env : WalletEnv)

variable (K : Consensus) (alloy : Alloy) (zlib : Zlib) (appState : AppState)

inductive ProcessorStep : Processor → ProcessorLabel → Processor → Prop where
  | accept (s : Processor) (view : FeeView) (uuid : String) (req : RpcRequest)
      (item : TransactionRequest)
      (h : (processTransaction alloy view uuid req s.queue).queue.items =
        s.queue.items ++ [item]) :
      ProcessorStep s (.submit view uuid req)
        { s with
          queue := (processTransaction alloy view uuid req s.queue).queue
          accepted := s.accepted ++ [item] }
  | refuse (s : Processor) (view : FeeView) (uuid : String) (req : RpcRequest)
      (h : (processTransaction alloy view uuid req s.queue).queue = s.queue) :
      ProcessorStep s (.submit view uuid req) s
  | take (s : Processor) (item : TransactionRequest) (queue : TransactionQueue)
      (hidle : s.worker = .idle) (h : s.queue.recv = some (item, queue)) :
      ProcessorStep s .take
        { s with queue := queue, worker := .busy item, taken := s.taken ++ [item] }
  | finish (s : Processor) (uuid : String) (env : WalletEnv) (item : TransactionRequest)
      (h : s.worker = .busy item) :
      ProcessorStep s (.finish uuid env)
        (s.finish alloy uuid item (processWalletCall K alloy zlib appState.config
          appState.walletCaller env item.txBytes (workerIdValue uuid item)).outcome)

/-- The system from its start. -/
def processor : Lts Processor ProcessorLabel where
  init s := s = ⟨Channel.empty, .idle, 0, 0, [], [], []⟩
  step := ProcessorStep K alloy zlib appState

/-- No list the daemon answers with reaches a message on which decoding panics. A
provider without a wallet asks for none. -/
def DaemonSound (env : WalletEnv) : Prop :=
  appState.walletCaller ≠ none → ∀ unsigned,
    DaemonAnswers env appState.config.retry.maxAttempts.toNat unsigned →
      ¬ReachesDecodePanic K unsigned

/-- The condition on a step. -/
def SoundStep (_ : Processor) : ProcessorLabel → Prop
  | .finish _ env => DaemonSound K appState env
  | _ => True

/-- The runs in which every answer of the daemon is sound. -/
def soundProcessor : Lts Processor ProcessorLabel :=
  (processor K alloy zlib appState).restrict (SoundStep K appState)

/-- The history is complete: the worker is there and the queue open; what was accepted
was taken in that order or is still queued; and what was taken has its outcome, but for
the one being processed. -/
structure HistoryKept (s : Processor) : Prop where
  alive : s.worker ≠ .gone
  queue_open : s.queue.closed = false
  in_order : s.accepted = s.taken ++ s.queue.items
  recorded : s.taken = s.outcomes.map Prod.fst ++ s.worker.current

/-- No accepted transaction is lost: the history is complete; the transaction being
processed gets its outcome whatever the daemon answers, soundly; and everything accepted
can still get one. -/
structure NothingLost (s : Processor) : Prop extends HistoryKept s where
  answered : ∀ item uuid env, s.worker = .busy item → DaemonSound K appState env →
    ∃ t outcome, (soundProcessor K alloy zlib appState).step s (.finish uuid env) t ∧
      t.worker = .idle ∧ t.outcomes = s.outcomes ++ [(item, outcome)]
  can_finish : ∃ t, (soundProcessor K alloy zlib appState).Steps s t ∧
    t.outcomes.map Prod.fst = s.accepted

variable {K alloy zlib appState}

-- ---------------------------------------------------------------------------
-- One step
-- ---------------------------------------------------------------------------

/-- A submission never opens or closes the queue. -/
theorem processTransaction_closed (view : FeeView) (uuid : String) (req : RpcRequest)
    (queue : TransactionQueue) :
    (processTransaction alloy view uuid req queue).queue.closed = queue.closed := by
  cases hchecks : acceptChecks alloy view req (queueCheck queue) with
  | error fault => rw [(processTransaction_of_error hchecks uuid).2.2]
  | ok txBytes => exact (processTransaction_of_ok hchecks uuid).2.2

/-- Every submission is a step of the system. -/
theorem submit_step (s : Processor) (view : FeeView) (uuid : String) (req : RpcRequest) :
    ∃ t, ProcessorStep K alloy zlib appState s (.submit view uuid req) t := by
  cases hchecks : acceptChecks alloy view req (queueCheck s.queue) with
  | error fault => exact ⟨_, .refuse s view uuid req (processTransaction_of_error hchecks uuid).2.2⟩
  | ok txBytes => exact ⟨_, .accept s view uuid req _ (processTransaction_of_ok hchecks uuid).2.1⟩

/-- With sound answers, processing a transaction does not panic. -/
theorem processWalletCall_ne_panicked (alloy : Alloy) (zlib : Zlib) {env : WalletEnv}
    (h : DaemonSound K appState env) (txBytes : List UInt8) (id : Value) :
    (processWalletCall K alloy zlib appState.config appState.walletCaller env txBytes
      id).outcome ≠ .panicked := by
  intro hpanic
  obtain ⟨-, hwallet, unsigned, hanswers, hreaches⟩ := processWalletCall_eq_panicked.mp hpanic
  exact h hwallet unsigned hanswers hreaches

/-- The end of a round that does not panic: the outcome is recorded, and nothing else of
the history changes. -/
theorem finish_recorded {outcome : Outcome String Value} (h : outcome ≠ .panicked)
    (s : Processor) (uuid : String) (item : TransactionRequest) :
    (s.finish alloy uuid item outcome).worker = .idle ∧
      (s.finish alloy uuid item outcome).queue = s.queue ∧
      (s.finish alloy uuid item outcome).accepted = s.accepted ∧
      (s.finish alloy uuid item outcome).taken = s.taken ∧
      ∃ recorded, (s.finish alloy uuid item outcome).outcomes =
        s.outcomes ++ [(item, recorded)] := by
  cases outcome with
  | ok response => exact ⟨rfl, rfl, rfl, rfl, _, rfl⟩
  | err error => exact ⟨rfl, rfl, rfl, rfl, _, rfl⟩
  | panicked => exact absurd rfl h

theorem soundStep_historyKept {s t : Processor} {l : ProcessorLabel} (hs : HistoryKept s)
    (h : (soundProcessor K alloy zlib appState).step s l t) : HistoryKept t := by
  obtain ⟨hstep, hsound⟩ := h
  cases hstep with
  | accept view uuid req item hitems =>
    refine ⟨hs.alive, ?_, ?_, hs.recorded⟩
    · rw [← hs.queue_open]
      exact processTransaction_closed view uuid req s.queue
    · show s.accepted ++ [item] =
        s.taken ++ (processTransaction alloy view uuid req s.queue).queue.items
      rw [hitems, hs.in_order, List.append_assoc]
  | refuse => exact hs
  | take item queue hidle hrecv =>
    obtain ⟨hitems, hclosed⟩ := Channel.recv_eq_some.mp hrecv
    refine ⟨by simp, hclosed.trans hs.queue_open, ?_, ?_⟩
    · show s.accepted = s.taken ++ [item] ++ queue.items
      rw [hs.in_order, hitems, List.append_assoc, List.singleton_append]
    · -- an idle worker has an outcome for all it took
      have htaken := hs.recorded
      rw [hidle, WorkerState.current, List.append_nil] at htaken
      show s.taken ++ [item] = s.outcomes.map Prod.fst ++ [item]
      rw [htaken]
  | finish uuid env item hbusy =>
    obtain ⟨hworker, hqueue, haccepted, htaken, recorded, houtcomes⟩ :=
      finish_recorded (processWalletCall_ne_panicked alloy zlib hsound
        item.txBytes (workerIdValue uuid item)) s uuid item
    have hbefore := hs.recorded
    rw [hbusy, WorkerState.current] at hbefore
    refine ⟨by rw [hworker]; simp, by rw [hqueue, hs.queue_open], ?_, ?_⟩
    · rw [haccepted, htaken, hqueue]
      exact hs.in_order
    · rw [htaken, houtcomes, hworker, hbefore, List.map_append, WorkerState.current,
        List.append_nil]
      rfl

theorem reachable_historyKept {s : Processor}
    (h : (soundProcessor K alloy zlib appState).Reachable s) : HistoryKept s := by
  refine Lts.invariant ?_ ?_ s h
  · rintro s rfl
    exact ⟨by simp, rfl, rfl, rfl⟩
  · intro s l t _ hs hstep
    exact soundStep_historyKept hs hstep

-- ---------------------------------------------------------------------------
-- Getting an outcome
-- ---------------------------------------------------------------------------

/-- Whatever the daemon answers, soundly, the transaction being processed gets its
outcome and the worker is free again. -/
theorem finish_step (alloy : Alloy) (zlib : Zlib) {s : Processor} {item : TransactionRequest}
    {env : WalletEnv}
    (hbusy : s.worker = .busy item) (hsound : DaemonSound K appState env) (uuid : String) :
    ∃ t outcome, (soundProcessor K alloy zlib appState).step s (.finish uuid env) t ∧
      t.worker = .idle ∧ t.outcomes = s.outcomes ++ [(item, outcome)] ∧
      t.queue = s.queue ∧ t.accepted = s.accepted := by
  obtain ⟨hworker, hqueue, haccepted, -, recorded, houtcomes⟩ :=
    finish_recorded (processWalletCall_ne_panicked alloy zlib hsound
      item.txBytes (workerIdValue uuid item)) s uuid item
  exact ⟨_, recorded, ⟨.finish s uuid env item hbusy, hsound⟩, hworker, houtcomes, hqueue,
    haccepted⟩

theorem silentDaemon_sound (appState : AppState) : DaemonSound K appState silentDaemon := by
  intro _ unsigned hanswers
  obtain ⟨k, -, hanswer, -⟩ := hanswers
  exact absurd hanswer (by simp [silentDaemon])

/-- From an idle worker the queue can be worked off. -/
theorem drain_idle {items : List TransactionRequest} : ∀ {s : Processor},
    s.worker = .idle → s.queue.items = items →
      ∃ t, (soundProcessor K alloy zlib appState).Steps s t ∧ t.worker = .idle ∧
        t.queue.items = [] ∧ t.accepted = s.accepted := by
  induction items with
  | nil =>
    intro s hidle hitems
    exact ⟨s, Lts.Steps.refl s, hidle, hitems, rfl⟩
  | cons item rest ih =>
    intro s hidle hitems
    have hrecv : ∃ queue, s.queue.recv = some (item, queue) := by
      cases hr : s.queue.recv with
      | none => exact absurd (Channel.recv_eq_none.mp hr) (by simp [hitems])
      | some taken =>
        obtain ⟨first, queue⟩ := taken
        have hfirst := (Channel.recv_eq_some.mp hr).1
        rw [hitems] at hfirst
        obtain ⟨rfl, -⟩ := List.cons.inj hfirst
        exact ⟨queue, rfl⟩
    obtain ⟨queue, hrecv⟩ := hrecv
    have hrest : queue.items = rest := by
      have hcons := (Channel.recv_eq_some.mp hrecv).1
      rw [hitems] at hcons
      exact (List.cons.inj hcons).2.symm
    -- take the first one, let the daemon time out on it, go on with the rest
    have htake : (soundProcessor K alloy zlib appState).step s .take
        { s with queue := queue, worker := .busy item, taken := s.taken ++ [item] } :=
      ⟨.take s item queue hidle hrecv, trivial⟩
    obtain ⟨s', outcome, hfinish, hidle', -, hqueue', haccepted'⟩ :=
      finish_step alloy zlib (s := { s with
        queue := queue, worker := .busy item, taken := s.taken ++ [item] })
        rfl (silentDaemon_sound appState) ""
    obtain ⟨t, hrun, hidle_t, hitems_t, haccepted_t⟩ :=
      ih hidle' (by rw [hqueue']; exact hrest)
    exact ⟨t, Lts.Steps.head htake (Lts.Steps.head hfinish hrun), hidle_t, hitems_t,
      haccepted_t.trans haccepted'⟩

/-- From any worker that is there, everything accepted can get its outcome. -/
theorem drain (K : Consensus) (alloy : Alloy) (zlib : Zlib) (appState : AppState)
    {s : Processor} (halive : s.worker ≠ .gone) :
    ∃ t, (soundProcessor K alloy zlib appState).Steps s t ∧ t.worker = .idle ∧
      t.queue.items = [] ∧ t.accepted = s.accepted := by
  cases hworker : s.worker with
  | gone => exact absurd hworker halive
  | idle => exact drain_idle hworker rfl
  | busy item =>
    obtain ⟨s', outcome, hfinish, hidle, -, -, haccepted⟩ :=
      finish_step alloy zlib hworker (silentDaemon_sound appState) ""
    obtain ⟨t, hrun, hidle_t, hitems, haccepted_t⟩ := drain_idle hidle rfl
    exact ⟨t, Lts.Steps.head hfinish hrun, hidle_t, hitems, haccepted_t.trans haccepted⟩

/-- **Nothing is lost** in any state of any run in which no answer of the daemon reaches
a decoding panic. -/
theorem processor_nothingLost {s : Processor}
    (h : (soundProcessor K alloy zlib appState).Reachable s) :
    NothingLost K alloy zlib appState s := by
  have hs := reachable_historyKept h
  refine ⟨hs, ?_, ?_⟩
  · intro item uuid env hbusy hsound
    obtain ⟨t, outcome, hstep, hidle, houtcomes, -, -⟩ :=
      finish_step alloy zlib hbusy hsound uuid
    exact ⟨t, outcome, hstep, hidle, houtcomes⟩
  · obtain ⟨t, hrun, hidle, hitems, haccepted⟩ :=
      drain K alloy zlib appState hs.alive
    have ht := reachable_historyKept (h.steps hrun)
    have hall := ht.in_order
    rw [hitems, List.append_nil, ht.recorded, hidle, WorkerState.current, List.append_nil,
      haccepted] at hall
    exact ⟨t, hrun, hall.symm⟩

/-! ### A run of two submissions, and one that loses two -/

def walletState : AppState where
  config := ⟨⟨[0], 60⟩, ⟨3, 1000, 1000⟩⟩
  walletCaller := some ⟨"", some abcdLane⟩

/-- `legacyTx` in the queue. -/
def legacyItem : TransactionRequest := ⟨legacyTx, .int 1⟩

/-- The lane transaction with the payload of `legacyTx`. -/
def carryingMessage : Proto.WalletSignableTransaction where
  transaction := some ⟨some (.partially { laneSignable 0 with
    tx := some { laneProtoTx 0 with payload := 148 :: (legacyTx ++ [0, 0, 0, 1]) } })⟩
  otherFields := []

/-- A daemon that builds it, signs and broadcasts. -/
def carryingDaemon : WalletEnv where
  createReply _ := .ok [carryingMessage]
  signReply := .ok
  broadcastReply _ := .ok ["00"]
  mining := .finishes
  jitterPercent _ := 0

theorem mine_toccata (sig : SignableTransaction) : mineBlocking toccataConsensus sig [0] =
    .ok (candidate toccataConsensus sig 0 0, ⟨0, FixedBytes.zero 32⟩) := by
  have hid : (candidate toccataConsensus sig 0 0).tx.id = FixedBytes.zero 32 :=
    candidate_id sig 0 0
  refine mineBlocking_eq_ok_iff.mpr ⟨0, 0, ⟨by decide, by decide, ?_, ?_⟩, rfl, ?_⟩
  · rw [hid]
    rfl
  · intro r n _ hlt
    omega
  · rw [hid]

theorem prepared_carryingMessage : ∃ updated, prepareLast toccataConsensus ⟨"", some abcdLane⟩
    ⟨[0], 60⟩ carryingDaemon carryingMessage = .ok updated := by
  obtain ⟨sig, hsig⟩ : ∃ sig, protoToSignableTransaction toccataConsensus carryingMessage =
    .ok sig := ⟨_, rfl⟩
  have hmine : mineTransaction toccataConsensus ⟨[0], 60⟩ .finishes sig = _ :=
    (mineTransaction_finishes ⟨[0], 60⟩ sig).trans (mine_toccata sig)
  obtain ⟨updated, hupdate⟩ : ∃ updated, updateProtoWithMinedTransaction carryingMessage
      (candidate toccataConsensus sig 0 0) = .ok updated := by
    obtain rfl := Outcome.ok.inj hsig
    exact ⟨_, rfl⟩
  refine ⟨updated, ?_⟩
  simp only [prepareLast, Outcome.bind_eq_ok, Outcome.mapErr_eq_ok]
  refine ⟨sig, hsig, (), ?_, _, hmine, (), ?_, hupdate⟩ <;>
  · obtain rfl := Outcome.ok.inj hsig
    rfl

/-- The call is acknowledged. -/
theorem carryingDaemon_sent (id : Value) :
    ∃ value, (processWalletCall toccataConsensus legacyAlloy sampleZlib walletState.config
      walletState.walletCaller carryingDaemon legacyTx id).outcome = .ok value := by
  obtain ⟨updated, hprep⟩ := prepared_carryingMessage
  let params := TransactionParams.sendAll "" (148 :: (legacyTx ++ [0, 0, 0, 1]))
    (some (hashText (computeTransactionHash legacyAlloy legacyTx)))
  have hsent : (mineAndSendTransactionWithRetry toccataConsensus ⟨"", some abcdLane⟩
      ⟨[0], 60⟩ walletState.config.retry carryingDaemon params).outcome = .ok "00" := by
    show (Traced.bind (Traced.lift (prepareLast toccataConsensus ⟨"", some abcdLane⟩
      ⟨[0], 60⟩ carryingDaemon carryingMessage)) fun updated =>
        signAndBroadcast carryingDaemon ([] ++ [updated])).outcome = _
    rw [hprep]
    rfl
  show ∃ value, Outcome.bind (Outcome.mapErr _ (mineAndSendTransactionWithRetry toccataConsensus
    ⟨"", some abcdLane⟩ ⟨[0], 60⟩ walletState.config.retry carryingDaemon params).outcome) _ =
      .ok value
  rw [hsent]
  exact ⟨_, rfl⟩

/-- Submitting `legacyTx` to an open queue with room. -/
theorem submit_legacyTx {s : Processor} (hopen : s.queue.closed = false)
    (hroom : s.queue.items.length < transactionQueueCapacity) :
    ∃ t, ProcessorStep toccataConsensus legacyAlloy sampleZlib walletState s
        (.submit cheapView "" (sendRawTransaction legacyTx)) t ∧
      t.queue.items = s.queue.items ++ [legacyItem] ∧ t.queue.closed = false ∧
      t.accepted = s.accepted ++ [legacyItem] ∧ t.worker = s.worker ∧ t.taken = s.taken ∧
      t.outcomes = s.outcomes := by
  have hqueue : queueCheck s.queue = .ok () := by
    rw [queueCheck, if_neg (by simp [hopen]), if_neg (by omega)]
  have hchecks : acceptChecks legacyAlloy cheapView (sendRawTransaction legacyTx)
      (queueCheck s.queue) = .ok legacyTx :=
    acceptChecks_eq_ok.mpr ⟨_, _, legacyTx_formatChecks (Nat.zero_le 1), legacyTx_feeChecks,
      hqueue⟩
  obtain ⟨-, hitems, hclosed⟩ := processTransaction_of_ok hchecks ""
  exact ⟨_, .accept s cheapView "" (sendRawTransaction legacyTx) legacyItem hitems, hitems,
    hclosed.trans hopen, rfl, rfl, rfl, rfl⟩

theorem carryingDaemon_sound : DaemonSound toccataConsensus walletState carryingDaemon := by
  rintro - unsigned ⟨k, -, hanswer, -⟩ ⟨last, hlast, -, hpanics⟩
  obtain rfl : [carryingMessage] = unsigned := GrpcReply.ok.inj hanswer
  obtain rfl : carryingMessage = last := Option.some.inj hlast
  obtain ⟨sig, hsig⟩ : ∃ sig, protoToSignableTransaction toccataConsensus carryingMessage =
    .ok sig := ⟨_, rfl⟩
  rw [protoToSignableTransaction_eq_panicked.mpr hpanics] at hsig
  exact absurd hsig (by simp)

/-- Two transactions are accepted, and the first of them is broadcast. -/
theorem processor_nothingLost_twoItems :
    ∃ s, (soundProcessor toccataConsensus legacyAlloy sampleZlib walletState).Reachable s ∧
      s.accepted = [legacyItem, legacyItem] ∧ s.queue.items = [legacyItem] ∧
      s.outcomes = [(legacyItem, .success)] ∧
      NothingLost toccataConsensus legacyAlloy sampleZlib walletState s := by
  have hinit : (soundProcessor toccataConsensus legacyAlloy sampleZlib walletState).Reachable
      ⟨Channel.empty, .idle, 0, 0, [], [], []⟩ := Lts.reachable_init rfl
  obtain ⟨s₁, hsubmit₁, hitems₁, hopen₁, haccepted₁, hworker₁, -, houtcomes₁⟩ :=
    submit_legacyTx (s := ⟨Channel.empty, .idle, 0, 0, [], [], []⟩) rfl (by decide)
  obtain ⟨s₂, hsubmit₂, hitems₂, -, haccepted₂, hworker₂, -, houtcomes₂⟩ :=
    submit_legacyTx (s := s₁) hopen₁ (by rw [hitems₁]; decide)
  have hitems : s₂.queue.items = [legacyItem, legacyItem] := by
    rw [hitems₂, hitems₁]
    rfl
  have haccepted : s₂.accepted = [legacyItem, legacyItem] := by
    rw [haccepted₂, haccepted₁]
    rfl
  have houtcomes : s₂.outcomes ++ [(legacyItem, WorkOutcome.success)] =
      [(legacyItem, .success)] := by
    rw [houtcomes₂, houtcomes₁]
    rfl
  let rest : TransactionQueue := ⟨[legacyItem], s₂.queue.closed, by decide⟩
  have hrecv : s₂.queue.recv = some (legacyItem, rest) :=
    Channel.recv_eq_some.mpr ⟨hitems, rfl⟩
  have hreach₂ := (hinit.next_restrict hsubmit₁ trivial).next_restrict hsubmit₂ trivial
  have hreach₃ := hreach₂.next_restrict (.take s₂ legacyItem rest (hworker₂.trans hworker₁) hrecv)
    trivial
  have hreach := hreach₃.next_restrict (.finish _ "" carryingDaemon legacyItem rfl)
    carryingDaemon_sound
  obtain ⟨value, hsent⟩ := carryingDaemon_sent (workerIdValue "" legacyItem)
  have hbytes : legacyItem.txBytes = legacyTx := rfl
  rw [hbytes, hsent] at hreach
  exact ⟨_, hreach, haccepted, rfl, houtcomes, processor_nothingLost hreach⟩

/-- Once the worker is gone, nothing gets an outcome any more. -/
theorem outcomes_of_gone {s t : Processor} (hgone : s.worker = .gone)
    (hrun : (processor K alloy zlib appState).Steps s t) :
    t.worker = .gone ∧ t.outcomes = s.outcomes := by
  induction hrun with
  | refl => exact ⟨hgone, rfl⟩
  | tail _ hmove ih =>
    obtain ⟨hworker, houtcomes⟩ := ih
    obtain ⟨l, hstep⟩ := hmove
    cases hstep with
    | accept => exact ⟨hworker, houtcomes⟩
    | refuse => exact ⟨hworker, houtcomes⟩
    | take item queue hidle => exact absurd (hworker.symm.trans hidle) (by simp)
    | finish uuid env item hbusy => exact absurd (hworker.symm.trans hbusy) (by simp)

/-- A daemon that answers with a transaction whose entries do not match its inputs. -/
def malformedDaemon : WalletEnv :=
  { silentDaemon with createReply := fun _ => .ok [missingEntryMessage] }

theorem malformedDaemon_panics (id : Value) :
    (processWalletCall toccataConsensus legacyAlloy sampleZlib walletState.config
      walletState.walletCaller malformedDaemon legacyItem.txBytes id).outcome = .panicked := by
  refine processWalletCall_eq_panicked.mpr ⟨⟨_, rfl⟩, by simp [walletState], ?_⟩
  exact ⟨[missingEntryMessage], ⟨0, by decide, rfl, by simp⟩, missingEntryMessage, rfl, by simp,
    missingEntryMessage_decodePanics⟩

/-- Two transactions are accepted, the first is taken, and the daemon's answer ends the
worker: neither of the two ever gets an outcome. -/
theorem processor_loses :
    ∃ s, (processor toccataConsensus legacyAlloy sampleZlib walletState).Reachable s ∧
      s.accepted = [legacyItem, legacyItem] ∧ s.taken = [legacyItem] ∧ s.outcomes = [] ∧
      s.queue.items = [] ∧
      (∀ t, (processor toccataConsensus legacyAlloy sampleZlib walletState).Steps s t →
        t.outcomes = []) ∧
      ¬NothingLost toccataConsensus legacyAlloy sampleZlib walletState s := by
  have hinit : (processor toccataConsensus legacyAlloy sampleZlib walletState).Reachable
      ⟨Channel.empty, .idle, 0, 0, [], [], []⟩ := Lts.reachable_init rfl
  obtain ⟨s₁, hsubmit₁, hitems₁, hopen₁, haccepted₁, hworker₁, htaken₁, houtcomes₁⟩ :=
    submit_legacyTx (s := ⟨Channel.empty, .idle, 0, 0, [], [], []⟩) rfl (by decide)
  obtain ⟨s₂, hsubmit₂, hitems₂, hopen₂, haccepted₂, hworker₂, htaken₂, houtcomes₂⟩ :=
    submit_legacyTx (s := s₁) hopen₁ (by rw [hitems₁]; decide)
  have hreach₂ := (hinit.next hsubmit₁).next hsubmit₂
  have hidle₂ : s₂.worker = .idle := hworker₂.trans hworker₁
  have hitems : s₂.queue.items = [legacyItem, legacyItem] := by
    rw [hitems₂, hitems₁]
    rfl
  let rest : TransactionQueue := ⟨[legacyItem], s₂.queue.closed, by decide⟩
  have hrecv : s₂.queue.recv = some (legacyItem, rest) :=
    Channel.recv_eq_some.mpr ⟨hitems, rfl⟩
  have hreach₃ := hreach₂.next (.take s₂ legacyItem rest hidle₂ hrecv)
  have hreach := hreach₃.next (.finish _ "" malformedDaemon legacyItem rfl)
  have houtcomes : s₂.outcomes = [] := houtcomes₂.trans houtcomes₁
  have haccepted : s₂.accepted = [legacyItem, legacyItem] := by
    rw [haccepted₂, haccepted₁]
    rfl
  have htaken : s₂.taken ++ [legacyItem] = [legacyItem] := by
    rw [htaken₂, htaken₁]
    rfl
  rw [malformedDaemon_panics] at hreach
  refine ⟨_, hreach, haccepted, htaken, houtcomes, rfl, ?_, ?_⟩
  · intro t hrun
    obtain ⟨-, hsame⟩ := outcomes_of_gone rfl hrun
    exact hsame.trans houtcomes
  · intro hkept
    exact hkept.alive rfl

end IgraRpc
