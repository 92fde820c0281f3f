import Mathlib.Data.List.Flatten
import IgraRpc.Services.AcceptedTransactions
import IgraRpc.Services.Submissions

/-!
# What L1 reads of a run

What the provider is for, from the request to the payloads that an L2 node reads on L1: the
worker of `Services.Submissions` with a daemon that puts the payload it is given into the last
transaction of its list and signs without changing payloads, and with base fees out of the
cache.

* `readMessages` — the L2 messages in a list of L1 transactions;
* `signed_reads` — **a signed list reads as its own transaction**, staging transactions and
  mining included;
* `reachable_readOnL1` — **L1 reads what was accepted**: of everything that is broadcast, in
  order, a part of the accepted transactions, each at most once and each with its fee paid;
  and of what the daemon acknowledged exactly the successes.
-/

namespace IgraRpc

open Lib

-- ---------------------------------------------------------------------------
-- Reading L1
-- ---------------------------------------------------------------------------

/-- The payload of the transaction in a wallet message. -/
def messagePayload (wst : Proto.WalletSignableTransaction) : Option (List UInt8) :=
  (innerTransaction wst).map fun tx => tx.payload

/-- The L2 messages that are read in a list of L1 transactions. -/
def readMessages (zlib : Zlib) (transactions : List Proto.WalletSignableTransaction) :
    List Message :=
  transactions.filterMap fun wst => (messagePayload wst).bind (decodeMessage zlib)

theorem readMessages_append (zlib : Zlib) (txs more : List Proto.WalletSignableTransaction) :
    readMessages zlib (txs ++ more) = readMessages zlib txs ++ readMessages zlib more :=
  List.filterMap_append

/-- Only payloads are read. -/
theorem readMessages_congr (zlib : Zlib) {txs txs' : List Proto.WalletSignableTransaction}
    (h : txs.map messagePayload = txs'.map messagePayload) :
    readMessages zlib txs = readMessages zlib txs' := by
  have hpayloads : ∀ txs, readMessages zlib txs =
      (txs.map messagePayload).filterMap fun payload => payload.bind (decodeMessage zlib) := by
    intro txs
    rw [List.filterMap_map]
    rfl
  rw [hpayloads, hpayloads, h]

/-- A transaction without payload says nothing. -/
theorem readMessages_staging (zlib : Zlib) {txs : List Proto.WalletSignableTransaction}
    (h : ∀ tx ∈ txs, protoPayloadLen tx = 0) : readMessages zlib txs = [] := by
  refine List.filterMap_eq_nil_iff.mpr fun tx htx => ?_
  have hlength := h tx htx
  rw [protoPayloadLen] at hlength
  rw [messagePayload]
  cases hinner : innerTransaction tx with
  | none => rfl
  | some inner =>
    rw [hinner] at hlength
    have hempty : inner.payload = [] := List.length_eq_zero_iff.mp hlength
    show decodeMessage zlib inner.payload = none
    rw [hempty]
    rfl

-- ---------------------------------------------------------------------------
-- What is signed
-- ---------------------------------------------------------------------------

/-- A list that is signed: an answer of the daemon whose last transaction was mined. -/
structure Prepared (K : Consensus) (config : MiningConfig) (env : WalletEnv)
    (unsigned transactions : List Proto.WalletSignableTransaction) : Prop where
  staging : ∀ tx ∈ unsigned.dropLast, protoPayloadLen tx = 0
  mined : ∃ caller last updated, unsigned.getLast? = some last ∧
    prepareLast K caller config env last = .ok updated ∧
    transactions = unsigned.dropLast ++ [updated]

section
variable {K : Consensus} {alloy : Alloy} {zlib : Zlib} {env : WalletEnv}
  {transactions : List Proto.WalletSignableTransaction}

theorem sign_mem_completeTransactionFlow {caller : WalletCaller} {config : MiningConfig}
    {unsigned : List Proto.WalletSignableTransaction}
    (h : .sign transactions ∈ (completeTransactionFlow K caller config env unsigned).events) :
    Prepared K config env unsigned transactions := by
  rcases completeTransactionFlow_cases (K := K) caller config env unsigned with
    ⟨-, hflow⟩ | ⟨i, len, -, hflow⟩ | ⟨last, hlast, hstaging, hrest⟩
  · rw [hflow] at h
    exact absurd h List.not_mem_nil
  · rw [hflow] at h
    exact absurd h List.not_mem_nil
  · rcases hrest with ⟨e, -, hflow⟩ | ⟨-, hflow⟩ | ⟨updated, hprep, hflow⟩
    · rw [hflow] at h
      exact absurd h List.not_mem_nil
    · rw [hflow] at h
      exact absurd h List.not_mem_nil
    · rw [hflow] at h
      exact ⟨hstaging, caller, last, updated, hlast, hprep, sign_mem_signAndBroadcast.mp h⟩

/-- A call signs an answer to its own request. -/
theorem sign_mem_processWalletCall {config : AppConfig} {walletCaller : Option WalletCaller}
    {txBytes : List UInt8} {id : Value}
    (h : .sign transactions ∈
      (processWalletCall K alloy zlib config walletCaller env txBytes id).events) :
    ∃ params attempt unsigned,
      .create params ∈ (processWalletCall K alloy zlib config walletCaller env txBytes id).events ∧
      env.createReply attempt = .ok unsigned ∧
      Prepared K config.mining env unsigned transactions := by
  cases hserialize : serializePayload (rawPayload zlib txBytes) with
  | error e =>
    rw [processWalletCall] at h
    simp only [hserialize] at h
    exact absurd h List.not_mem_nil
  | ok payload =>
    cases walletCaller with
    | none =>
      rw [processWalletCall] at h
      simp only [hserialize] at h
      exact absurd h List.not_mem_nil
    | some caller =>
      let params := TransactionParams.sendAll caller.toAddress payload
        (some (hashText (computeTransactionHash alloy txBytes)))
      have hsent : .sign transactions ∈ (mineAndSendTransactionWithRetry K caller config.mining
          config.retry env params).events := by
        rw [processWalletCall] at h
        simp only [hserialize] at h
        exact h
      rw [mineAndSendTransactionWithRetry, Traced.mem_bind_events] at hsent
      rcases hsent with hcreate | ⟨unsigned, hunsigned, hflow⟩
      · have hnone := (onlyCreates_retryAttempts config.retry env params
          config.retry.maxAttempts.toNat 1 none).1
        have hmem : transactions ∈ signedLists (retryAttempts config.retry env params
            config.retry.maxAttempts.toNat 1 none).events := mem_signedLists.mpr hcreate
        rw [hnone] at hmem
        exact absurd hmem List.not_mem_nil
      · obtain ⟨k, hk, hreply, -⟩ := retryAttempts_eq_ok.mp hunsigned
        refine ⟨params, 1 + k, unsigned, ?_, hreply, sign_mem_completeTransactionFlow hflow⟩
        exact create_mem_processWalletCall.mpr
          ⟨payload, caller, hserialize, rfl, Nat.zero_lt_of_lt hk, rfl⟩

/-- Mining carries a payload to one of its final forms. -/
theorem prepareLast_payload {caller : WalletCaller} {config : MiningConfig}
    {last updated : Proto.WalletSignableTransaction}
    (h : prepareLast K caller config env last = .ok updated) :
    ∃ payload final, messagePayload last = some payload ∧ FinalPayload K payload final ∧
      messagePayload updated = some final := by
  obtain ⟨sig, mined, stats, hsig, -, hmine, -, hupdate⟩ := prepareLast_eq_ok h
  obtain ⟨st, hst, hdecoded⟩ := protoToSignableTransaction_eq_ok.mp hsig
  obtain ⟨protoTx, tx, entries, htx, hbody, -, -, rfl⟩ := protoSignableToKaspa_eq_ok.mp hdecoded
  obtain ⟨version, inputs, outputs, lane, -, -, -, -, rfl⟩ := protoTransactionToKaspa_eq_ok.mp hbody
  obtain ⟨-, entries', -, rfl⟩ := updateProtoWithMinedTransaction_eq_ok.mp hupdate
  refine ⟨protoTx.payload, mined.tx.payload, ?_, .mined rfl hmine, rfl⟩
  rw [messagePayload, innerTransaction, hst]
  show st.tx.map _ = _
  rw [htx]
  rfl

end

-- ---------------------------------------------------------------------------
-- One call
-- ---------------------------------------------------------------------------

/-- The daemon of the call does its part: what it builds carries the payload that it was
given in the last transaction, and signing changes no payload. -/
structure WalletRun.Carries (K : Consensus) (alloy : Alloy) (zlib : Zlib) (appState : AppState)
    (run : WalletRun) : Prop where
  builds : ∀ params, .create params ∈ (run.call K alloy zlib appState).events →
    ∀ attempt unsigned, run.env.createReply attempt = .ok unsigned →
      ∀ last, unsigned.getLast? = some last →
        ∀ payload, messagePayload last = some payload → payload = params.payload
  signs : ∀ unsigned signed, run.env.signReply unsigned = .ok signed →
    signed.map messagePayload = unsigned.map messagePayload

section
variable {K : Consensus} {alloy : Alloy} {zlib : Zlib} {appState : AppState} {run : WalletRun}
  {transactions : List Proto.WalletSignableTransaction}

/-- **What a call signs reads as its own transaction**, once. -/
theorem signed_reads (hz : zlib.Inverts) (hrun : run.Carries K alloy zlib appState)
    (h : transactions ∈ signedLists (run.call K alloy zlib appState).events) :
    readMessages zlib transactions = [.raw run.item.txBytes] := by
  obtain ⟨params, attempt, unsigned, hcreate, hreply, hstaging, caller, last, updated, hlast,
    hprep, rfl⟩ := sign_mem_processWalletCall (mem_signedLists.mp h)
  obtain ⟨payload, final, hpayload, hfinal, hupdated⟩ := prepareLast_payload hprep
  obtain rfl := hrun.builds params hcreate attempt unsigned hreply last hlast payload hpayload
  have hserialize : serializePayload ((Message.raw run.item.txBytes).payload zlib) =
      .ok params.payload := WalletRun.payload hcreate
  obtain ⟨nonce, rfl⟩ := finalPayload_eq hfinal
  have hread : readMessages zlib [updated] = [.raw run.item.txBytes] := by
    rw [readMessages, List.filterMap_cons, hupdated, Option.bind_some,
      decodeMessage_writeTail hz hserialize nonce]
    rfl
  rw [readMessages_append, readMessages_staging zlib hstaging, hread, List.nil_append]

theorem broadcast_reads (hz : zlib.Inverts) (hrun : run.Carries K alloy zlib appState)
    (h : transactions ∈ broadcastLists (run.call K alloy zlib appState).events) :
    readMessages zlib transactions = [.raw run.item.txBytes] := by
  obtain ⟨unsigned, hsigned, hreply⟩ := run.submitsOnce.signed transactions h
  rw [readMessages_congr zlib (hrun.signs unsigned transactions hreply)]
  exact signed_reads hz hrun hsigned

end

-- ---------------------------------------------------------------------------
-- Whole runs
-- ---------------------------------------------------------------------------

/-- The transactions recorded as successes, in order. -/
def Processor.successes (s : Processor) : List TransactionRequest :=
  (s.outcomes.filter fun entry => entry.2.isSuccess).map Prod.fst

section
variable (K : Consensus) (alloy : Alloy) (zlib : Zlib) (appState : AppState)

/-- What a call broadcast and the daemon acknowledged. -/
def WalletRun.settled (run : WalletRun) : List (List Proto.WalletSignableTransaction) :=
  (broadcastLists (run.call K alloy zlib appState).events).filter fun transactions =>
    (run.env.broadcastReply transactions).acknowledges

/-- All that was broadcast, in order. -/
def Submissions.broadcasts (s : Submissions) : List (List Proto.WalletSignableTransaction) :=
  s.runs.flatMap fun run => broadcastLists (run.call K alloy zlib appState).events

/-- All that was acknowledged, in order. -/
def Submissions.settled (s : Submissions) : List (List Proto.WalletSignableTransaction) :=
  s.runs.flatMap (WalletRun.settled K alloy zlib appState)

/-- A submission meets a cache as the fee service leaves it, and a call a daemon that does its
part. -/
def FaithfulStep (gas : GasConfig) (s : Submissions) : ProcessorLabel → Prop
  | .submit view _ _ => ∃ w el, (feeCache gas alloy.parseBlock).Reachable w ∧
      view = ⟨gas, el, w.cache, w.now⟩
  | .take => True
  | .finish uuid env => ∀ item ∈ s.processor.worker.current,
      (WalletRun.mk item uuid env).Carries K alloy zlib appState

/-- The runs with such fees and such a daemon. -/
def faithfulSubmissions (gas : GasConfig) : Lts Submissions ProcessorLabel :=
  (submissions K alloy zlib appState).restrict (FaithfulStep K alloy zlib appState gas)

/-- The bytes decode to a transaction that pays a base fee of at least the floor. -/
def PaysFee (gas : GasConfig) (txBytes : List UInt8) : Prop :=
  ∃ tx rest baseFee, alloy.decode txBytes = .ok (tx, rest) ∧ gas.floor ≤ baseFee ∧
    FeeRule baseFee tx

/-- What can be read on L1. -/
structure ReadOnL1 (gas : GasConfig) (s : Submissions) : Prop where
  /-- A call puts one message on L1 at most, its own transaction. -/
  own : ∀ run ∈ s.runs, (broadcastLists (run.call K alloy zlib appState).events).length ≤ 1 ∧
    ∀ transactions ∈ broadcastLists (run.call K alloy zlib appState).events,
      readMessages zlib transactions = [.raw run.item.txBytes]
  /-- All messages together are some of the accepted transactions, in order. -/
  in_order : ∃ sent : List TransactionRequest, sent.Sublist s.processor.accepted ∧
    (s.broadcasts K alloy zlib appState).flatMap (readMessages zlib) =
      sent.map fun item => .raw item.txBytes
  /-- The acknowledged ones are the successes. -/
  settled : (s.settled K alloy zlib appState).flatMap (readMessages zlib) =
    s.processor.successes.map fun item => .raw item.txBytes
  paid : ∀ item ∈ s.processor.accepted, PaysFee alloy gas item.txBytes

end

section
variable {K : Consensus} {alloy : Alloy} {zlib : Zlib} {appState : AppState} {gas : GasConfig}
  {s : Submissions}

theorem reachable_carries
    (h : (faithfulSubmissions K alloy zlib appState gas).Reachable s) :
    ∀ run ∈ s.runs, run.Carries K alloy zlib appState := by
  refine Lts.invariant (P := fun s : Submissions => ∀ run ∈ s.runs, run.Carries K alloy zlib
    appState) ?_ ?_ s h
  · rintro s rfl run hrun
    exact absurd hrun List.not_mem_nil
  · rintro s l ⟨p, runs⟩ _ hs ⟨⟨-, hruns⟩, hfaithful⟩ run hrun
    obtain rfl : runs = s.runsAfter l := hruns
    cases l with
    | submit view uuid req => exact hs run hrun
    | take => exact hs run hrun
    | finish uuid env =>
      rcases List.mem_append.mp hrun with hrun | hrun
      · exact hs run hrun
      · obtain ⟨item, hitem, rfl⟩ := List.mem_map.mp hrun
        exact hfaithful item hitem

/-- What is enqueued in a reachable state of the cache pays its fee. -/
theorem accepted_paysFee {el : El} {w : FeeWorld} {uuid : String} {req : RpcRequest}
    {queue : TransactionQueue} {item : TransactionRequest}
    (hw : (feeCache gas alloy.parseBlock).Reachable w)
    (h : (processTransaction alloy ⟨gas, el, w.cache, w.now⟩ uuid req queue).queue.items =
      queue.items ++ [item]) : PaysFee alloy gas item.txBytes := by
  have hgrown : (processTransaction alloy ⟨gas, el, w.cache, w.now⟩ uuid req queue).queue.items ≠
      queue.items := by
    rw [h]
    simp
  obtain ⟨txBytes, hchecks, hitems⟩ := enqueued_checks hgrown
  obtain ⟨tx, rest, baseFee, -, hdecode, hfee, hrule⟩ := acceptChecks_feeRule hchecks
  rw [h] at hitems
  obtain rfl : item = ⟨txBytes, submissionId uuid req⟩ :=
    List.singleton_inj.mp (List.append_cancel_left hitems)
  exact ⟨tx, rest, baseFee, hdecode, getEffectiveBaseFee_ge_floor (feeCache_floor hw) hfee, hrule⟩

theorem reachable_paid (h : (faithfulSubmissions K alloy zlib appState gas).Reachable s) :
    ∀ item ∈ s.processor.accepted, PaysFee alloy gas item.txBytes := by
  refine Lts.invariant (P := fun s : Submissions => ∀ item ∈ s.processor.accepted,
    PaysFee alloy gas item.txBytes) ?_ ?_ s h
  · rintro s rfl item hitem
    exact absurd hitem List.not_mem_nil
  · rintro s l ⟨p, runs⟩ _ hs ⟨⟨hstep, -⟩, hfaithful⟩ item hitem
    have hstep : ProcessorStep K alloy zlib appState s.processor l p := hstep
    cases hstep with
    | accept view uuid req new hitems =>
      rcases List.mem_append.mp hitem with hbefore | hnew
      · exact hs item hbefore
      · obtain ⟨w, el, hw, rfl⟩ := hfaithful
        rw [List.mem_singleton.mp hnew]
        exact accepted_paysFee hw hitems
    | refuse => exact hs item hitem
    | take => exact hs item hitem
    | finish uuid env busy hbusy =>
      refine hs item ?_
      revert hitem
      cases (processWalletCall K alloy zlib appState.config appState.walletCaller env busy.txBytes
        (workerIdValue uuid busy)).outcome <;> exact id

/-- Lists that each read as one message read together as these. -/
theorem flatMap_readMessages {lists : List (List Proto.WalletSignableTransaction)} {m : Message}
    (h : ∀ transactions ∈ lists, readMessages zlib transactions = [m]) :
    lists.flatMap (readMessages zlib) = lists.map fun _ => m := by
  rw [List.map_eq_flatMap]
  exact List.flatMap_congr h

/-- A broadcast is acknowledged in the calls that end well, and there once. -/
theorem settled_items (run : WalletRun) :
    ((run.settled K alloy zlib appState).map fun _ => run.item) =
      if isOk (run.call K alloy zlib appState).outcome then [run.item] else [] := by
  have honce : SubmitsOnce run.env (run.call K alloy zlib appState).events
      (isOk (run.call K alloy zlib appState).outcome) := run.submitsOnce
  have hlength := honce.broadcasts
  rw [WalletRun.settled, honce.acknowledged]
  cases hlists : broadcastLists (run.call K alloy zlib appState).events with
  | nil => rfl
  | cons transactions more =>
    obtain rfl : more = [] := by
      rw [hlists, List.length_cons] at hlength
      exact List.length_eq_zero_iff.mp (by omega)
    rw [List.any_cons, List.any_nil, Bool.or_false, List.filter_cons, List.filter_nil]
    cases (run.env.broadcastReply transactions).acknowledges <;> rfl

/-- So the record of a call is a success exactly if its broadcast was acknowledged. -/
theorem record_success (run : WalletRun) :
    (((run.record K alloy zlib appState).filter Prod.snd).map Prod.fst).toList =
      (run.settled K alloy zlib appState).map fun _ => run.item := by
  have honce : SubmitsOnce run.env (run.call K alloy zlib appState).events
      (isOk (run.call K alloy zlib appState).outcome) := run.submitsOnce
  rw [settled_items, WalletRun.record, WalletRun.acknowledged, ← honce.acknowledged,
    WalletRun.returned]
  cases (run.call K alloy zlib appState).outcome <;> rfl

/-- The successes are the transactions whose broadcasts were acknowledged. -/
theorem successes_eq (h : SubmittedInOrder K alloy zlib appState s) :
    s.processor.successes = s.runs.flatMap fun run =>
      (run.settled K alloy zlib appState).map fun _ => run.item := by
  have hsplit : s.processor.successes = ((s.processor.outcomes.map fun entry =>
      (entry.1, entry.2.isSuccess)).filter Prod.snd).map Prod.fst := by
    rw [List.filter_map, List.map_map]
    rfl
  rw [hsplit, h.recorded, List.filter_filterMap, List.map_filterMap,
    List.filterMap_eq_flatMap_toList]
  exact List.flatMap_congr fun run _ => record_success run

/-- All that is broadcast reads as some of the accepted transactions, in order. -/
theorem broadcasts_read (hz : zlib.Inverts) (horder : SubmittedInOrder K alloy zlib appState s)
    (hcarries : ∀ run ∈ s.runs, run.Carries K alloy zlib appState) :
    ∃ sent : List TransactionRequest, sent.Sublist s.processor.accepted ∧
      (s.broadcasts K alloy zlib appState).flatMap (readMessages zlib) =
        sent.map fun item => .raw item.txBytes := by
  refine ⟨s.runs.flatMap fun run =>
    (broadcastLists (run.call K alloy zlib appState).events).map fun _ => run.item, ?_, ?_⟩
  · have hsublist : (s.runs.flatMap fun run => (broadcastLists (run.call K alloy zlib
        appState).events).map fun _ => run.item).Sublist (s.runs.map WalletRun.item) := by
      rw [List.map_eq_flatMap]
      refine List.Sublist.flatMap_right _ fun run hrun => ?_
      rw [List.map_const', ← List.replicate_one]
      exact (List.replicate_sublist_replicate _).mpr (horder.once run hrun).broadcasts
    have htaken : s.runs.map WalletRun.item <+: s.processor.taken := by
      rw [horder.in_order]
      exact List.prefix_append _ _
    exact hsublist.trans (htaken.trans horder.accepted).sublist
  · rw [Submissions.broadcasts, List.flatMap_assoc, List.map_flatMap]
    refine List.flatMap_congr fun run hrun => ?_
    rw [flatMap_readMessages fun transactions => broadcast_reads hz (hcarries run hrun),
      List.map_map]
    rfl

/-- All that was acknowledged reads as the successes. -/
theorem settled_read (hz : zlib.Inverts) (horder : SubmittedInOrder K alloy zlib appState s)
    (hcarries : ∀ run ∈ s.runs, run.Carries K alloy zlib appState) :
    (s.settled K alloy zlib appState).flatMap (readMessages zlib) =
      s.processor.successes.map fun item => .raw item.txBytes := by
  rw [Submissions.settled, List.flatMap_assoc, successes_eq horder, List.map_flatMap]
  refine List.flatMap_congr fun run hrun => ?_
  have hsettled : ∀ transactions ∈ run.settled K alloy zlib appState,
      readMessages zlib transactions = [.raw run.item.txBytes] := fun transactions htx =>
    broadcast_reads hz (hcarries run hrun) (List.mem_filter.mp htx).1
  rw [flatMap_readMessages hsettled, List.map_map]
  rfl

/-- **L1 reads what was accepted.** In every run with a daemon that does its part, all that is
ever broadcast reads as accepted transactions, in the order of acceptance and each at most
once; what was acknowledged reads as the successes; and all of them have paid their fee. -/
theorem reachable_readOnL1 (hz : zlib.Inverts)
    (h : (faithfulSubmissions K alloy zlib appState gas).Reachable s) :
    ReadOnL1 K alloy zlib appState gas s := by
  have hcarries := reachable_carries h
  have horder := submittedInOrder_of_restrict h
  refine ⟨fun run hrun => ⟨?_, fun transactions => broadcast_reads hz (hcarries run hrun)⟩,
    broadcasts_read hz horder hcarries, settled_read hz horder hcarries, reachable_paid h⟩
  exact run.submitsOnce.broadcasts

end

/-! ### A daemon that does its part -/

theorem carryingDaemon_carries : WalletRun.Carries toccataConsensus legacyAlloy sampleZlib
    walletState ⟨legacyItem, "", carryingDaemon⟩ where
  builds params hcreate attempt unsigned hreply last hlast payload hpayload := by
    have hserialize : serializePayload (rawPayload sampleZlib legacyTx) =
      .ok (148 :: (legacyTx ++ [0, 0, 0, 1])) := rfl
    have hparams := WalletRun.payload hcreate
    rw [show (WalletRun.item ⟨legacyItem, "", carryingDaemon⟩).txBytes = legacyTx from rfl,
      hserialize] at hparams
    rw [← Except.ok.inj hparams]
    obtain rfl : [carryingMessage] = unsigned := GrpcReply.ok.inj hreply
    obtain rfl : carryingMessage = last := Option.some.inj hlast
    exact (Option.some.inj hpayload).symm
  signs unsigned signed hreply := by
    rw [← GrpcReply.ok.inj hreply]

theorem successes_legacyItem {s : Submissions}
    (h : SubmittedInOrder toccataConsensus legacyAlloy sampleZlib walletState s)
    (hruns : s.runs = [⟨legacyItem, "", carryingDaemon⟩]) :
    s.processor.successes = [legacyItem] := by
  have hsent : isOk (WalletRun.call toccataConsensus legacyAlloy sampleZlib walletState
      ⟨legacyItem, "", carryingDaemon⟩).outcome = true := by
    obtain ⟨value, hvalue⟩ := carryingDaemon_sent (workerIdValue "" legacyItem)
    exact congrArg isOk hvalue
  rw [successes_eq h, hruns, List.flatMap_singleton, settled_items, if_pos hsent]

/-- One transaction is accepted, broadcast and read. -/
theorem reachable_readOnL1_legacyItem :
    ∃ s, ReadOnL1 toccataConsensus legacyAlloy sampleZlib walletState ⟨1⟩ s ∧
      s.processor.accepted = [legacyItem] ∧
      (s.settled toccataConsensus legacyAlloy sampleZlib walletState).flatMap
        (readMessages sampleZlib) = [.raw legacyTx] := by
  obtain ⟨s, hreach, hruns, haccepted⟩ := exists_legacyItem carryingDaemon
    (G := FaithfulStep toccataConsensus legacyAlloy sampleZlib walletState ⟨1⟩)
    (fun _ => ⟨⟨0, none, [], []⟩, cheapEl, Lts.reachable_init ⟨rfl, rfl, rfl⟩, rfl⟩)
    (fun _ => trivial) (fun s hbusy item hitem => by
      rw [hbusy, WorkerState.current] at hitem
      rw [List.mem_singleton.mp hitem]
      exact carryingDaemon_carries)
  have hread := reachable_readOnL1 sampleZlib_inverts hreach
  refine ⟨s, hread, haccepted, ?_⟩
  rw [hread.settled, successes_legacyItem (submittedInOrder_of_restrict hreach) hruns]
  rfl

end IgraRpc
