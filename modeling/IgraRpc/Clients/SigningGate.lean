import IgraRpc.Clients.WalletCaller
import IgraRpc.Types.WalletRoundTrip

/-!
# What reaches the signer

With lane enforcement on, the transactions handed to `sign` are staging
transactions without payload followed by one transaction that conforms to the lane
*as encoded*: the checks run on the decoded transaction, mining rewrites its payload
and id in between, and the last check is followed by a re-encoding.

* `prepareLast_eq_ok` — everything the flow has established when it gets to signing;
* `updated_conforms` — the encoded transaction inherits the checked properties, and
  its id field is the id of exactly that encoding;
* `completeTransactionFlow_signsOnlyConforming` — **the gate**: the flow signs
  nothing else and otherwise fails, except when decoding panics.
-/

namespace IgraRpc

open Lib

variable {K : Consensus}

-- ---------------------------------------------------------------------------
-- The staging scan
-- ---------------------------------------------------------------------------

theorem stagingPayload_eq_none {i : Nat} {txs : List Proto.WalletSignableTransaction} :
    stagingPayload i txs = none ↔ ∀ tx ∈ txs, protoPayloadLen tx = 0 := by
  induction txs generalizing i with
  | nil => simp [stagingPayload]
  | cons tx rest ih =>
    rw [stagingPayload, List.forall_mem_cons]
    by_cases hpos : protoPayloadLen tx > 0
    · rw [if_pos hpos]
      simp only [reduceCtorEq, false_iff, not_and]
      omega
    · rw [if_neg hpos, ih]
      have hzero : protoPayloadLen tx = 0 := by omega
      simp [hzero]

-- ---------------------------------------------------------------------------
-- The last transaction
-- ---------------------------------------------------------------------------

theorem laneGate_ne_panicked (caller : WalletCaller) (stage : Stage)
    (tx : SignableTransaction) : laneGate K caller stage tx ≠ .panicked := by
  unfold laneGate
  split
  · simp
  · simp [Outcome.mapErr_eq_panicked]

theorem laneGate_eq_ok {toAddress : String} {e : LaneEnforcement} {stage : Stage}
    {tx : SignableTransaction} :
    laneGate K ⟨toAddress, some e⟩ stage tx = .ok () ↔
      LaneConforms K e.lane e.txIdPrefix stage tx := by
  rw [← validateLaneTransaction_eq_ok]
  simp only [laneGate, Outcome.mapErr_eq_ok, Outcome.ofExcept_eq_ok]

/-- What has been established when the last transaction is ready to be signed. -/
theorem prepareLast_eq_ok {caller : WalletCaller} {config : MiningConfig} {env : WalletEnv}
    {last updated : Proto.WalletSignableTransaction}
    (h : prepareLast K caller config env last = .ok updated) :
    ∃ sig mined stats, protoToSignableTransaction K last = .ok sig ∧
      laneGate K caller .preMining sig = .ok () ∧
      mineBlocking K sig config.txIdPrefix = .ok (mined, stats) ∧
      laneGate K caller .preBroadcast mined = .ok () ∧
      updateProtoWithMinedTransaction last mined = .ok updated := by
  simp only [prepareLast, Outcome.bind_eq_ok, Outcome.mapErr_eq_ok] at h
  obtain ⟨sig, hsig, ⟨⟩, hpre, ⟨mined, stats⟩, hmine, ⟨⟩, hpost, hupdate⟩ := h
  exact ⟨sig, mined, stats, hsig, hpre, mineTransaction_eq_ok hmine, hpost, hupdate⟩

/-- Preparing the last transaction panics when decoding it does, and only then. -/
theorem prepareLast_eq_panicked {caller : WalletCaller} {config : MiningConfig}
    {env : WalletEnv} {last : Proto.WalletSignableTransaction} :
    prepareLast K caller config env last = .panicked ↔ DecodePanics K last := by
  rw [← protoToSignableTransaction_eq_panicked]
  simp only [prepareLast, Outcome.bind_eq_panicked, Outcome.mapErr_eq_panicked,
    laneGate_ne_panicked, mineTransaction_ne_panicked,
    updateProtoWithMinedTransaction_ne_panicked, and_false, exists_false, or_false]

/-- A transaction that conforms to the lane as it is encoded. -/
structure EncodedConforms (K : Consensus) (e : LaneEnforcement)
    (protoTx : Proto.Transaction) : Prop where
  version : K.txVersionToccata.toNat ≤ protoTx.version.toNat
  subnetwork : protoTx.subnetworkId = e.lane.bytes
  payload : 5 ≤ protoTx.payload.length
  prefix_ne_nil : e.txIdPrefix ≠ []
  id_prefix : e.txIdPrefix <+: protoTx.id
  /-- Decoding the encoding and hashing what comes out gives the id field. -/
  id_is_own : ∃ tx, protoTransactionToKaspa K protoTx = .ok tx ∧
    protoTx.id = (K.transactionId tx.toTransactionBody).bytes

/-- The message holds a partially signed transaction that conforms to the lane. -/
def MessageConforms (K : Consensus) (e : LaneEnforcement)
    (wst : Proto.WalletSignableTransaction) : Prop :=
  ∃ st protoTx, wst.transaction = some ⟨some (.partially st)⟩ ∧ st.tx = some protoTx ∧
    EncodedConforms K e protoTx

/-- Mining keeps a decoded transaction well-formed. -/
theorem candidate_wellFormed {sig : SignableTransaction} (h : WellFormed K sig.tx) (r n : Nat) :
    WellFormed K (candidate K sig r n).tx := by
  have hframe := candidate_sameFrame (K := K) sig r n
  refine ⟨by rw [hframe.mass, h.mass_zero], ?_, candidate_id sig r n⟩
  rw [hframe.inputs, hframe.version]
  exact h.inputs_match

/-- **The encoding inherits the checks.** What the last gate accepted is what the
re-encoded transaction satisfies, and its id field is its own id. -/
theorem updated_conforms {toAddress : String} {e : LaneEnforcement} {config : MiningConfig}
    {env : WalletEnv} {last updated : Proto.WalletSignableTransaction}
    (h : prepareLast K ⟨toAddress, some e⟩ config env last = .ok updated) :
    MessageConforms K e updated := by
  obtain ⟨sig, mined, stats, hsig, -, hmine, hpost, hupdate⟩ := prepareLast_eq_ok h
  obtain ⟨r, n, -, rfl, -⟩ := mineBlocking_eq_ok_iff.mp hmine
  have hwf := candidate_wellFormed (protoToSignableTransaction_wellFormed hsig).1 r n
  have hlane := laneGate_eq_ok.mp hpost
  obtain ⟨-, entries, -, rfl⟩ := updateProtoWithMinedTransaction_eq_ok.mp hupdate
  refine ⟨_, _, rfl, rfl, ?_⟩
  refine ⟨?_, ?_, hlane.payload, e.prefix_ne_nil, hlane.id_prefix rfl, ?_⟩
  · show _ ≤ (candidate K sig r n).tx.version.toUInt32.toNat
    rw [UInt16.toNat_toUInt32]
    exact hlane.version
  · exact congrArg FixedBytes.bytes hlane.subnetwork
  · refine ⟨_, protoTransactionToKaspa_kaspaTransactionToProto hwf, ?_⟩
    exact congrArg FixedBytes.bytes hwf.id_current

-- ---------------------------------------------------------------------------
-- The flow
-- ---------------------------------------------------------------------------

/-- The flow's four ways: no transaction, a staging payload, a last transaction that
is not ready, or signing. -/
theorem completeTransactionFlow_cases (caller : WalletCaller) (config : MiningConfig)
    (env : WalletEnv) (unsigned : List Proto.WalletSignableTransaction) :
    (unsigned = [] ∧ completeTransactionFlow K caller config env unsigned =
      ⟨[], .err .noTransactionIds⟩) ∨
    (∃ i len, stagingPayload 0 unsigned.dropLast = some (i, len) ∧
      completeTransactionFlow K caller config env unsigned = ⟨[], .err (stagingError i len)⟩) ∨
    (∃ last, unsigned.getLast? = some last ∧
      (∀ tx ∈ unsigned.dropLast, protoPayloadLen tx = 0) ∧
      ((∃ e, prepareLast K caller config env last = .err e ∧
          completeTransactionFlow K caller config env unsigned = ⟨[], .err e⟩) ∨
        (prepareLast K caller config env last = .panicked ∧
          completeTransactionFlow K caller config env unsigned = ⟨[], .panicked⟩) ∨
        ∃ updated, prepareLast K caller config env last = .ok updated ∧
          completeTransactionFlow K caller config env unsigned =
            signAndBroadcast env (unsigned.dropLast ++ [updated]))) := by
  cases hlast : unsigned.getLast? with
  | none =>
    refine Or.inl ⟨List.getLast?_eq_none_iff.mp hlast, ?_⟩
    rw [completeTransactionFlow, hlast]
    rfl
  | some last =>
    cases hstaging : stagingPayload 0 unsigned.dropLast with
    | some found =>
      obtain ⟨i, len⟩ := found
      refine Or.inr (Or.inl ⟨i, len, rfl, ?_⟩)
      rw [completeTransactionFlow, hlast]
      simp only [hstaging]
      rfl
    | none =>
      refine Or.inr (Or.inr ⟨last, rfl, stagingPayload_eq_none.mp hstaging, ?_⟩)
      have hflow : completeTransactionFlow K caller config env unsigned =
          (Traced.lift (prepareLast K caller config env last) >>= fun updated =>
            signAndBroadcast env (unsigned.dropLast ++ [updated])) := by
        rw [completeTransactionFlow, hlast]
        simp only [hstaging]
      rw [hflow]
      cases hprep : prepareLast K caller config env last with
      | err e => exact Or.inl ⟨e, rfl, Traced.bind_of_err rfl _⟩
      | panicked => exact Or.inr (Or.inl ⟨rfl, Traced.bind_of_panicked rfl _⟩)
      | ok updated => exact Or.inr (Or.inr ⟨updated, rfl, Traced.bind_of_ok rfl _⟩)

/-- Signing is the first thing `signAndBroadcast` does, and it is done once. -/
theorem sign_mem_signAndBroadcast {env : WalletEnv}
    {txs txs' : List Proto.WalletSignableTransaction} :
    WalletEvent.sign txs' ∈ (signAndBroadcast env txs).events ↔ txs' = txs := by
  have hsign : WalletEvent.sign txs' ∈ (signTransactions env txs).events ↔ txs' = txs := by
    simp [signTransactions]
  have hcast : ∀ signed, WalletEvent.sign txs' ∉ (broadcastTransactions env signed).events := by
    intro signed
    simp [broadcastTransactions]
  rw [signAndBroadcast, Traced.mem_bind_events, hsign]
  refine or_iff_left ?_
  intro ⟨signed, _, hmem⟩
  rcases Traced.mem_bind_events.mp hmem with hbroadcast | ⟨ids, _, hlast⟩
  · exact hcast signed hbroadcast
  · cases hids : ids.getLast? with
    | none => simp [hids] at hlast
    | some id => simp [hids] at hlast

/-- The list is not empty, nothing before its last transaction carries a payload,
and decoding that last transaction panics. -/
def ReachesDecodePanic (K : Consensus) (unsigned : List Proto.WalletSignableTransaction) :
    Prop :=
  ∃ last, unsigned.getLast? = some last ∧
    (∀ tx ∈ unsigned.dropLast, protoPayloadLen tx = 0) ∧ DecodePanics K last

/-- Whatever is signed conforms to the lane; and if nothing is signed, the flow
returns an error and broadcasts nothing. -/
def SignsOnlyConforming (K : Consensus) (e : LaneEnforcement)
    (run : Traced WalletEvent WalletCallerError String) : Prop :=
  (∀ txs, WalletEvent.sign txs ∈ run.events →
    (∀ tx ∈ txs.dropLast, protoPayloadLen tx = 0) ∧
      ∃ last, txs.getLast? = some last ∧ MessageConforms K e last) ∧
  ((∀ txs, WalletEvent.sign txs ∉ run.events) →
    (∃ err, run.outcome = .err err) ∧ ∀ txs, WalletEvent.broadcast txs ∉ run.events)

/-- A flow whose last message panics in decoding neither signs nor returns. -/
theorem completeTransactionFlow_of_decodePanic {unsigned : List Proto.WalletSignableTransaction}
    (h : ReachesDecodePanic K unsigned) (caller : WalletCaller) (config : MiningConfig)
    (env : WalletEnv) :
    completeTransactionFlow K caller config env unsigned = ⟨[], .panicked⟩ := by
  obtain ⟨last, hlast, hstaging, hpanic⟩ := h
  rcases completeTransactionFlow_cases (K := K) caller config env unsigned with
    ⟨rfl, -⟩ | ⟨i, len, hfound, -⟩ | ⟨last', hlast', -, hrest⟩
  · exact absurd hlast (by simp)
  · rw [stagingPayload_eq_none.mpr hstaging] at hfound
    exact absurd hfound (by simp)
  · obtain rfl : last = last' := Option.some.inj (hlast.symm.trans hlast')
    have hprep : prepareLast K caller config env last = .panicked :=
      prepareLast_eq_panicked.mpr hpanic
    rcases hrest with ⟨e, he, -⟩ | ⟨-, hflow⟩ | ⟨updated, hok, -⟩
    · exact absurd (hprep.symm.trans he) (by simp)
    · exact hflow
    · exact absurd (hprep.symm.trans hok) (by simp)

/-- **The signing gate.** For every list the daemon may return, every miner and every
environment, the flow signs only what conforms to the lane and otherwise fails
without signing or broadcasting — exactly when it does not reach a message on which
decoding panics. -/
theorem completeTransactionFlow_signsOnlyConforming (toAddress : String)
    (e : LaneEnforcement) (config : MiningConfig) (env : WalletEnv)
    (unsigned : List Proto.WalletSignableTransaction) :
    SignsOnlyConforming K e
        (completeTransactionFlow K ⟨toAddress, some e⟩ config env unsigned) ↔
      ¬ ReachesDecodePanic K unsigned := by
  refine ⟨?_, ?_⟩
  · intro hgate hpanic
    rw [completeTransactionFlow_of_decodePanic hpanic] at hgate
    obtain ⟨⟨err, herr⟩, -⟩ := hgate.2 (by simp)
    exact absurd herr (by simp)
  · intro hno
    rcases completeTransactionFlow_cases (K := K) ⟨toAddress, some e⟩ config env unsigned with
      ⟨-, hflow⟩ | ⟨i, len, -, hflow⟩ | ⟨last, hlast, hstaging, hrest⟩
    · rw [hflow]
      exact ⟨by simp, fun _ => ⟨⟨_, rfl⟩, by simp⟩⟩
    · rw [hflow]
      exact ⟨by simp, fun _ => ⟨⟨_, rfl⟩, by simp⟩⟩
    · rcases hrest with ⟨err, -, hflow⟩ | ⟨hpanic, -⟩ | ⟨updated, hprep, hflow⟩
      · rw [hflow]
        exact ⟨by simp, fun _ => ⟨⟨_, rfl⟩, by simp⟩⟩
      · exact absurd ⟨last, hlast, hstaging, prepareLast_eq_panicked.mp hpanic⟩ hno
      · rw [hflow]
        refine ⟨?_, fun hnone => ?_⟩
        · intro txs hsign
          obtain rfl := sign_mem_signAndBroadcast.mp hsign
          rw [List.dropLast_concat, List.getLast?_concat]
          exact ⟨hstaging, updated, rfl, updated_conforms hprep⟩
        · -- the flow has reached `sign`, so this case cannot arise
          exact absurd (sign_mem_signAndBroadcast.mpr rfl) (hnone _)

/-! ### A message with an input but no entry -/

/-- The lane message without its UTXO entry: one input, no entries. -/
def missingEntryMessage : Proto.WalletSignableTransaction where
  transaction := some ⟨some (.partially { laneSignable 0 with entries := [] })⟩
  otherFields := []

def abcdLane : LaneEnforcement where
  lane := ⟨97 :: 98 :: 99 :: 100 :: List.replicate 16 0, by decide⟩
  txIdPrefix := [0]
  prefix_ne_nil := by decide

/-- A daemon that never answers. -/
def silentDaemon : WalletEnv where
  createReply _ := .elapsed
  signReply _ := .elapsed
  broadcastReply _ := .elapsed
  mining := .finishes
  jitterPercent _ := 0

theorem missingEntryMessage_decodePanics :
    DecodePanics toccataConsensus missingEntryMessage :=
  protoToSignableTransaction_eq_panicked.mp (by decide)

/-- On a message whose entries do not match its inputs the flow panics: it neither
signs nor returns an error. -/
theorem completeTransactionFlow_escapes :
    completeTransactionFlow toccataConsensus ⟨"", some abcdLane⟩ ⟨[0], 60⟩ silentDaemon
        [missingEntryMessage] = ⟨[], .panicked⟩ ∧
      ¬ SignsOnlyConforming toccataConsensus abcdLane
        (completeTransactionFlow toccataConsensus ⟨"", some abcdLane⟩ ⟨[0], 60⟩ silentDaemon
          [missingEntryMessage]) := by
  have hpanic : ReachesDecodePanic toccataConsensus [missingEntryMessage] :=
    ⟨missingEntryMessage, rfl, by simp, missingEntryMessage_decodePanics⟩
  have hflow := completeTransactionFlow_of_decodePanic hpanic ⟨"", some abcdLane⟩ ⟨[0], 60⟩
    silentDaemon
  refine ⟨hflow, fun hgate => ?_⟩
  rw [hflow] at hgate
  obtain ⟨⟨err, herr⟩, -⟩ := hgate.2 (by simp)
  exact absurd herr (by simp)

end IgraRpc
