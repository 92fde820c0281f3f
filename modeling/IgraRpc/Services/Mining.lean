import IgraRpc.Error
import IgraRpc.Lib.Search
import IgraRpc.Types.Wallet

/-!
# Mining a transaction id — `services/mining.rs`

`mineBlocking` overwrites the last four payload bytes with successive nonces until
the recomputed transaction id starts with the wanted prefix. After a full round of
2^32 nonces it lowers one output value and starts over, three times at most.

* `candidate K tx r n` — the transaction that is tried with nonce `n` after `r`
  failed rounds, as a function of the input alone;
* `mineBlocking_eq_ok_iff` — **mining is that search**: it returns the candidate of
  the first round and nonce whose id has the prefix;
* `mineBlocking_ne_panicked`, `mineBlocking_eq_err_iff` — otherwise it reports
  exhaustion, and it never panics.

The statistics leave out the duration and the hash rate (wall-clock time); the
progress and alert logs are left out too.
-/

namespace IgraRpc

open Lib

-- ---------------------------------------------------------------------------
-- The code
-- ---------------------------------------------------------------------------

structure MiningConfig where
  txIdPrefix : List UInt8
  timeoutSeconds : Nat

structure MiningStats where
  noncesTried : Nat
  finalTransactionId : TransactionId
  deriving DecidableEq

/-- `u32::MAX`. -/
def u32Max : Nat := 4294967295

/-- `mem::size_of_val(&nonce)`. -/
def nonceLength : Nat := 4

def maxNonceExhaustionAttempts : Nat := 3

/-- `transaction_id.as_bytes().starts_with(tx_id_prefix)`. -/
def checkPrefix (transactionId : TransactionId) (txIdPrefix : List UInt8) : Bool :=
  txIdPrefix.isPrefixOf transactionId.bytes

/-- Write the big-endian nonce into the last payload bytes and recompute the id. -/
def writeNonce (K : Consensus) (transaction : SignableTransaction) (nonce : Nat) :
    SignableTransaction :=
  { transaction with
    tx := Transaction.finalize K
      { transaction.tx with
        payload := writeTail transaction.tx.payload (beBytes nonceLength nonce) } }

/-- `if old_value > 0 { value = old_value.saturating_sub(1) }`. -/
def lowerOutput (output : TransactionOutput) : TransactionOutput :=
  if output.value > 0 then { output with value := output.value - 1 } else output

/-- The exhaustion fallback: lower the value of one output, chosen by the count. -/
def varyOutput (count : Nat) (transaction : SignableTransaction) : SignableTransaction :=
  { transaction with
    tx := { transaction.tx with
      outputs := transaction.tx.outputs.modify (count % transaction.tx.outputs.length)
        lowerOutput } }

/-- The nonce loop. The payload slice panics on a payload shorter than the nonce. -/
def mineLoop (K : Consensus) (txIdPrefix : List UInt8) (transaction : SignableTransaction)
    (nonce nonceExhaustionCount : Nat) :
    Outcome AppError (SignableTransaction × MiningStats) :=
  if transaction.tx.payload.length < nonceLength then .panicked
  else
    let transaction := writeNonce K transaction nonce
    if checkPrefix transaction.tx.id txIdPrefix then
      .ok (transaction, ⟨nonce, transaction.tx.id⟩)
    -- `nonce.checked_add(1)`
    else if nonce < u32Max then
      mineLoop K txIdPrefix transaction (nonce + 1) nonceExhaustionCount
    else if nonceExhaustionCount < maxNonceExhaustionAttempts then
      mineLoop K txIdPrefix (varyOutput nonceExhaustionCount transaction) 0
        (nonceExhaustionCount + 1)
    else .err (.nonceExhaustion u32Max)
termination_by (maxNonceExhaustionAttempts - nonceExhaustionCount, u32Max - nonce)
decreasing_by
  · exact Prod.Lex.right _ (by omega)
  · exact Prod.Lex.left _ _ (by omega)

/-- The payload with its last bytes, or all of it if shorter, replaced by nonce 0. -/
def initPayload (originalPayload : List UInt8) : List UInt8 :=
  originalPayload.take (originalPayload.length - nonceLength) ++ beBytes nonceLength 0

/-- `TransactionMiner::mine_blocking`. -/
def mineBlocking (K : Consensus) (transaction : SignableTransaction)
    (txIdPrefix : List UInt8) : Outcome AppError (SignableTransaction × MiningStats) :=
  mineLoop K txIdPrefix
    { transaction with
      tx := { transaction.tx with payload := initPayload transaction.tx.payload } } 0 0

/-- How the runtime treats the blocking mining task. -/
inductive MiningRun where
  | finishes
  | timesOut
  | taskFails (reason : String)

/-- `TransactionMiner::mine_transaction`. A panic inside the task is a failed task. -/
def mineTransaction (K : Consensus) (config : MiningConfig) (run : MiningRun)
    (transaction : SignableTransaction) :
    Outcome AppError (SignableTransaction × MiningStats) :=
  match run with
  | .finishes =>
    match mineBlocking K transaction config.txIdPrefix with
    | .panicked => .err (.miningInvalidState "Mining task failed: task panicked")
    | result => result
  | .timesOut => .err (.miningTimeout config.timeoutSeconds)
  | .taskFails reason => .err (.miningInvalidState s!"Mining task failed: {reason}")

-- ---------------------------------------------------------------------------
-- The candidates
-- ---------------------------------------------------------------------------

/-- The input after the fallbacks of `r` failed rounds. -/
def varied (transaction : SignableTransaction) : Nat → SignableTransaction
  | 0 => transaction
  | r + 1 => varyOutput r (varied transaction r)

/-- The transaction tried with nonce `n` after `r` failed rounds. -/
def candidate (K : Consensus) (transaction : SignableTransaction) (r n : Nat) :
    SignableTransaction :=
  writeNonce K (varied transaction r) n

/-- What the tries and the fallbacks leave alone. -/
structure SameFrame (a b : SignableTransaction) : Prop where
  version : a.tx.version = b.tx.version
  inputs : a.tx.inputs = b.tx.inputs
  scripts : a.tx.outputs.map (·.scriptPublicKey) = b.tx.outputs.map (·.scriptPublicKey)
  lockTime : a.tx.lockTime = b.tx.lockTime
  subnetworkId : a.tx.subnetworkId = b.tx.subnetworkId
  gas : a.tx.gas = b.tx.gas
  mass : a.tx.mass = b.tx.mass
  entries : a.entries = b.entries
  calculatedFee : a.calculatedFee = b.calculatedFee
  calculatedNonContextualMasses :
    a.calculatedNonContextualMasses = b.calculatedNonContextualMasses

theorem SameFrame.refl (a : SignableTransaction) : SameFrame a a :=
  ⟨rfl, rfl, rfl, rfl, rfl, rfl, rfl, rfl, rfl, rfl⟩

theorem SameFrame.trans {a b c : SignableTransaction} (h : SameFrame a b)
    (h' : SameFrame b c) : SameFrame a c where
  version := h.version.trans h'.version
  inputs := h.inputs.trans h'.inputs
  scripts := h.scripts.trans h'.scripts
  lockTime := h.lockTime.trans h'.lockTime
  subnetworkId := h.subnetworkId.trans h'.subnetworkId
  gas := h.gas.trans h'.gas
  mass := h.mass.trans h'.mass
  entries := h.entries.trans h'.entries
  calculatedFee := h.calculatedFee.trans h'.calculatedFee
  calculatedNonContextualMasses :=
    h.calculatedNonContextualMasses.trans h'.calculatedNonContextualMasses

variable {K : Consensus}

theorem writeNonce_sameFrame (tx : SignableTransaction) (n : Nat) :
    SameFrame (writeNonce K tx n) tx :=
  ⟨rfl, rfl, rfl, rfl, rfl, rfl, rfl, rfl, rfl, rfl⟩

@[simp] theorem writeNonce_payload (tx : SignableTransaction) (n : Nat) :
    (writeNonce K tx n).tx.payload = writeTail tx.tx.payload (beBytes nonceLength n) := rfl

/-- A try leaves room for the next one. -/
theorem writeNonce_room {tx : SignableTransaction} (h : nonceLength ≤ tx.tx.payload.length)
    (n : Nat) : nonceLength ≤ (writeNonce K tx n).tx.payload.length := by
  rw [writeNonce_payload, writeTail_length (by rw [beBytes_length]; exact h)]
  exact h

@[simp] theorem lowerOutput_script (o : TransactionOutput) :
    (lowerOutput o).scriptPublicKey = o.scriptPublicKey := by
  unfold lowerOutput
  split <;> rfl

theorem map_script_modify (outputs : List TransactionOutput) (i : Nat) :
    (outputs.modify i lowerOutput).map (·.scriptPublicKey) =
      outputs.map (·.scriptPublicKey) := by
  induction outputs generalizing i with
  | nil => cases i <;> rfl
  | cons o rest ih =>
    cases i with
    | zero => simp
    | succ i => simp [ih]

theorem varyOutput_sameFrame (count : Nat) (tx : SignableTransaction) :
    SameFrame (varyOutput count tx) tx :=
  ⟨rfl, rfl, map_script_modify _ _, rfl, rfl, rfl, rfl, rfl, rfl, rfl⟩

@[simp] theorem varyOutput_payload (count : Nat) (tx : SignableTransaction) :
    (varyOutput count tx).tx.payload = tx.tx.payload := rfl

@[simp] theorem varied_payload (tx : SignableTransaction) (r : Nat) :
    (varied tx r).tx.payload = tx.tx.payload := by
  induction r with
  | zero => rfl
  | succ r ih => rw [varied, varyOutput_payload, ih]

theorem varied_sameFrame (tx : SignableTransaction) (r : Nat) :
    SameFrame (varied tx r) tx := by
  induction r with
  | zero => exact SameFrame.refl tx
  | succ r ih => exact (varyOutput_sameFrame r _).trans ih

/-- A candidate differs from the input in the nonce bytes, the id and output values. -/
theorem candidate_sameFrame (tx : SignableTransaction) (r n : Nat) :
    SameFrame (candidate K tx r n) tx :=
  (writeNonce_sameFrame _ n).trans (varied_sameFrame tx r)

theorem candidate_payload (tx : SignableTransaction) (r n : Nat) :
    (candidate K tx r n).tx.payload =
      writeTail tx.tx.payload (beBytes nonceLength n) := by
  rw [candidate, writeNonce_payload, varied_payload]

theorem candidate_id (tx : SignableTransaction) (r n : Nat) :
    (candidate K tx r n).tx.id =
      K.transactionId (candidate K tx r n).tx.toTransactionBody := rfl

theorem candidate_outputs (tx : SignableTransaction) (r n : Nat) :
    (candidate K tx r n).tx.outputs = (varied tx r).tx.outputs := rfl

-- ---------------------------------------------------------------------------
-- Mining is a search by rounds
-- ---------------------------------------------------------------------------

/-- A second nonce overwrites the first. -/
theorem writeNonce_writeNonce (tx : SignableTransaction) (m n : Nat) :
    writeNonce K (writeNonce K tx m) n = writeNonce K tx n := by
  have hpayload : writeTail (writeTail tx.tx.payload (beBytes nonceLength m))
      (beBytes nonceLength n) = writeTail tx.tx.payload (beBytes nonceLength n) :=
    writeTail_writeTail (by simp)
  simp only [writeNonce, Transaction.finalize, hpayload]

/-- The search that mining performs. -/
def miningRounds (K : Consensus) (txIdPrefix : List UInt8) : Rounds SignableTransaction where
  probe := writeNonce K
  hit tx := checkPrefix tx.tx.id txIdPrefix
  renew := varyOutput
  last := u32Max
  renewals := maxNonceExhaustionAttempts
  probe_probe := writeNonce_writeNonce
  probe_renew_probe r tx m n := by
    -- the fallback reads outputs only, which a nonce does not change
    have hswap : varyOutput r (writeNonce K tx m) =
        { varyOutput r tx with
          tx := { (varyOutput r tx).tx with
            payload := (writeNonce K tx m).tx.payload
            id := (writeNonce K tx m).tx.id } } := rfl
    have hpayload : writeTail (writeTail tx.tx.payload (beBytes nonceLength m))
        (beBytes nonceLength n) = writeTail tx.tx.payload (beBytes nonceLength n) :=
      writeTail_writeTail (by simp)
    rw [hswap]
    simp only [writeNonce, Transaction.finalize, varyOutput, hpayload]

theorem miningRounds_cand (txIdPrefix : List UInt8) (tx : SignableTransaction) (r n : Nat) :
    (miningRounds K txIdPrefix).cand tx r n = candidate K tx r n := by
  have hbase : (miningRounds K txIdPrefix).base tx r = varied tx r := by
    induction r with
    | zero => rfl
    | succ r ih => rw [Rounds.base, ih]; rfl
  rw [Rounds.cand, hbase]
  rfl

/-- What the loop makes of the search's result. -/
def searchResult :
    Option (SignableTransaction × Nat × Nat) →
      Outcome AppError (SignableTransaction × MiningStats)
  | some (tx, n, _) => .ok (tx, ⟨n, tx.tx.id⟩)
  | none => .err (.nonceExhaustion u32Max)

/-- **The nonce loop is the search**, as long as the payload has room for a nonce. -/
theorem mineLoop_eq (txIdPrefix : List UInt8) (tx : SignableTransaction) (n r : Nat)
    (hlen : nonceLength ≤ tx.tx.payload.length) :
    mineLoop K txIdPrefix tx n r = searchResult ((miningRounds K txIdPrefix).loop tx n r) := by
  rw [mineLoop, Rounds.loop, if_neg (by omega)]
  have hlen' : nonceLength ≤ (writeNonce K tx n).tx.payload.length := writeNonce_room hlen n
  show (if checkPrefix (writeNonce K tx n).tx.id txIdPrefix = true then _
    else if n < u32Max then _ else if r < maxNonceExhaustionAttempts then _ else _) =
    searchResult (if checkPrefix (writeNonce K tx n).tx.id txIdPrefix = true then _
      else if n < u32Max then _ else if r < maxNonceExhaustionAttempts then _ else _)
  by_cases hhit : checkPrefix (writeNonce K tx n).tx.id txIdPrefix = true
  · rw [if_pos hhit, if_pos hhit]
    rfl
  · rw [if_neg hhit, if_neg hhit]
    by_cases hn : n < u32Max
    · rw [if_pos hn, if_pos hn]
      exact mineLoop_eq txIdPrefix (writeNonce K tx n) (n + 1) r hlen'
    · rw [if_neg hn, if_neg hn]
      by_cases hr : r < maxNonceExhaustionAttempts
      · rw [if_pos hr, if_pos hr]
        exact mineLoop_eq txIdPrefix (varyOutput r (writeNonce K tx n)) 0 (r + 1) hlen'
      · rw [if_neg hr, if_neg hr]
        rfl
termination_by (maxNonceExhaustionAttempts - r, u32Max - n)
decreasing_by
  · exact Prod.Lex.right _ (by omega)
  · exact Prod.Lex.left _ _ (by omega)

/-- The payload is long enough for a nonce from the start. -/
theorem initPayload_length (payload : List UInt8) :
    nonceLength ≤ (initPayload payload).length := by
  rw [initPayload, List.length_append, beBytes_length]
  omega

theorem initPayload_eq_writeTail (payload : List UInt8) :
    initPayload payload = writeTail payload (beBytes nonceLength 0) := by
  rw [initPayload, writeTail, beBytes_length]

/-- The first hit of the search that starts from `tx`. -/
structure FirstHit (K : Consensus) (txIdPrefix : List UInt8) (tx : SignableTransaction)
    (r n : Nat) : Prop where
  round_le : r ≤ maxNonceExhaustionAttempts
  nonce_le : n ≤ u32Max
  hit : checkPrefix (candidate K tx r n).tx.id txIdPrefix = true
  first : ∀ r' n', n' ≤ u32Max → r' < r ∨ (r' = r ∧ n' < n) →
    checkPrefix (candidate K tx r' n').tx.id txIdPrefix = false

theorem firstHit_iff {txIdPrefix : List UInt8} {tx : SignableTransaction} {r n : Nat} :
    (miningRounds K txIdPrefix).IsFirst tx 0 0 r n ↔ FirstHit K txIdPrefix tx r n := by
  have hge : ∀ r n, ¬ Rounds.Before r n 0 0 := by
    unfold Rounds.Before
    omega
  have hcand := miningRounds_cand (K := K) txIdPrefix tx
  refine ⟨?_, ?_⟩
  · intro h
    refine ⟨h.round_le, h.try_le, ?_, fun r' n' hn' hlt => ?_⟩
    · rw [← hcand r n]
      exact h.hit
    · rw [← hcand r' n']
      exact h.first r' n' (hge r' n') hn' hlt
  · intro h
    refine ⟨h.round_le, h.nonce_le, ?_, hge r n, fun r' n' _ hn' hlt => ?_⟩
    · rw [hcand r n]
      exact h.hit
    · rw [hcand r' n']
      exact h.first r' n' hn' hlt

/-- The transaction the loop starts from tries like the input does. -/
theorem writeNonce_initPayload (tx : SignableTransaction) (n : Nat) :
    writeNonce K { tx with tx := { tx.tx with payload := initPayload tx.tx.payload } } n =
      writeNonce K tx n := by
  have hpayload : writeTail (initPayload tx.tx.payload) (beBytes nonceLength n) =
      writeTail tx.tx.payload (beBytes nonceLength n) := by
    rw [initPayload_eq_writeTail, writeTail_writeTail (by simp)]
  simp only [writeNonce, Transaction.finalize, hpayload]

/-- **`mine_blocking`, success.** Mining returns the candidate of the first round
and nonce whose id has the prefix, with that nonce and id in the statistics. -/
theorem mineBlocking_eq_ok_iff {txIdPrefix : List UInt8} {tx t : SignableTransaction}
    {stats : MiningStats} :
    mineBlocking K tx txIdPrefix = .ok (t, stats) ↔
      ∃ r n, FirstHit K txIdPrefix tx r n ∧ t = candidate K tx r n ∧
        stats = ⟨n, t.tx.id⟩ := by
  rw [mineBlocking, mineLoop_eq txIdPrefix _ 0 0 (initPayload_length _)]
  refine ⟨?_, ?_⟩
  · intro h
    cases hloop : (miningRounds K txIdPrefix).loop _ 0 0 with
    | none =>
      rw [hloop] at h
      exact absurd h (by simp [searchResult])
    | some found =>
      obtain ⟨t', n, r⟩ := found
      rw [hloop] at h
      simp only [searchResult, Outcome.ok.injEq, Prod.mk.injEq] at h
      obtain ⟨rfl, rfl⟩ := h
      obtain ⟨ht, hfirst⟩ := (Rounds.loop_eq_some_iff (writeNonce_initPayload tx)).mp hloop
      rw [miningRounds_cand] at ht
      exact ⟨r, n, firstHit_iff.mp hfirst, ht, rfl⟩
  · rintro ⟨r, n, hfirst, rfl, rfl⟩
    have hloop := (Rounds.loop_eq_some_iff (writeNonce_initPayload tx)).mpr
      ⟨rfl, firstHit_iff.mpr hfirst⟩
    rw [hloop, miningRounds_cand]
    rfl

/-- **`mine_blocking`, failure.** Mining fails only when no nonce of any round is a
hit, and then with the exhaustion error. -/
theorem mineBlocking_eq_err_iff {txIdPrefix : List UInt8} {tx : SignableTransaction}
    {e : AppError} :
    mineBlocking K tx txIdPrefix = .err e ↔
      e = .nonceExhaustion u32Max ∧ ∀ r n, r ≤ maxNonceExhaustionAttempts → n ≤ u32Max →
        checkPrefix (candidate K tx r n).tx.id txIdPrefix = false := by
  rw [mineBlocking, mineLoop_eq txIdPrefix _ 0 0 (initPayload_length _)]
  have hnone := Rounds.loop_eq_none_iff (R := miningRounds K txIdPrefix)
    (writeNonce_initPayload tx)
  simp only [miningRounds_cand] at hnone
  refine ⟨?_, ?_⟩
  · intro h
    cases hloop : (miningRounds K txIdPrefix).loop _ 0 0 with
    | none =>
      rw [hloop] at h
      exact ⟨(Outcome.err.inj h).symm, hnone.mp hloop⟩
    | some found =>
      rw [hloop] at h
      exact absurd h (by simp [searchResult])
  · rintro ⟨rfl, hmiss⟩
    rw [hnone.mpr hmiss]
    rfl

/-- **Mining never panics**: the payload has room for a nonce from the start. -/
theorem mineBlocking_ne_panicked (txIdPrefix : List UInt8) (tx : SignableTransaction) :
    mineBlocking K tx txIdPrefix ≠ .panicked := by
  rw [mineBlocking, mineLoop_eq txIdPrefix _ 0 0 (initPayload_length _)]
  cases (miningRounds K txIdPrefix).loop _ 0 0 <;> simp [searchResult]

/-- Within the timeout, `mine_transaction` is `mine_blocking`. -/
theorem mineTransaction_finishes (config : MiningConfig) (tx : SignableTransaction) :
    mineTransaction K config .finishes tx = mineBlocking K tx config.txIdPrefix := by
  simp only [mineTransaction]
  cases hm : mineBlocking K tx config.txIdPrefix with
  | panicked => exact absurd hm (mineBlocking_ne_panicked _ _)
  | ok result => rfl
  | err e => rfl

/-- What `mine_transaction` returns is what `mine_blocking` returns. -/
theorem mineTransaction_eq_ok {config : MiningConfig} {run : MiningRun}
    {tx t : SignableTransaction} {stats : MiningStats}
    (h : mineTransaction K config run tx = .ok (t, stats)) :
    mineBlocking K tx config.txIdPrefix = .ok (t, stats) := by
  cases run with
  | finishes => rwa [mineTransaction_finishes] at h
  | timesOut => exact absurd h (by simp [mineTransaction])
  | taskFails reason => exact absurd h (by simp [mineTransaction])

theorem mineTransaction_ne_panicked (config : MiningConfig) (run : MiningRun)
    (tx : SignableTransaction) : mineTransaction K config run tx ≠ .panicked := by
  cases run with
  | finishes =>
    rw [mineTransaction_finishes]
    exact mineBlocking_ne_panicked _ _
  | timesOut => simp [mineTransaction]
  | taskFails reason => simp [mineTransaction]

end IgraRpc
