import IgraRpc.Services.Payload

/-!
# What mining changes in a transaction

A mined transaction is the daemon's transaction with new nonce bytes, a recomputed
id, and, when whole rounds of nonces failed, slightly lower output values.

* `lowerings` — how often an output was lowered after `r` failed rounds;
* `mineBlocking_frame` — **the frame of mining**: everything else is unchanged, and
  the outputs are exactly the input's, lowered that often;
* `mineBlocking_lowers_outputs` — the fallback does take place: an entry
  transaction whose first round fails locks less than its payload says.
-/

namespace IgraRpc

open Lib

variable {K : Consensus}

/-- How many of the first `r` fallbacks lower output `i` of `count` outputs. -/
def lowerings (r count i : Nat) : Nat :=
  (List.range r).countP fun c => c % count == i

/-- An output with its value lowered `k` times, stopping at 0. -/
def lowerBy (k : Nat) (output : TransactionOutput) : TransactionOutput :=
  { output with value := UInt64.ofNat (output.value.toNat - k) }

theorem lowerBy_value (k : Nat) (output : TransactionOutput) :
    (lowerBy k output).value.toNat = output.value.toNat - k := by
  have := output.value.toNat_lt
  rw [lowerBy, UInt64.toNat_ofNat']
  omega

@[simp] theorem lowerBy_zero (output : TransactionOutput) : lowerBy 0 output = output := by
  simp [lowerBy]

theorem lowerOutput_value (output : TransactionOutput) :
    (lowerOutput output).value.toNat = output.value.toNat - 1 := by
  unfold lowerOutput
  by_cases hpos : output.value > 0
  · have hone : (1 : UInt64) ≤ output.value := by
      rw [UInt64.le_iff_toNat_le]
      rwa [gt_iff_lt, UInt64.lt_iff_toNat_lt] at hpos
    rw [if_pos hpos]
    exact UInt64.toNat_sub_of_le _ _ hone
  · rw [if_neg hpos]
    rw [gt_iff_lt, UInt64.lt_iff_toNat_lt] at hpos
    have hzero : (0 : UInt64).toNat = 0 := rfl
    omega

/-- One fallback lowers a value once more. -/
theorem lowerOutput_lowerBy (k : Nat) (output : TransactionOutput) :
    lowerOutput (lowerBy k output) = lowerBy (k + 1) output := by
  have hscript : (lowerOutput (lowerBy k output)).scriptPublicKey =
      (lowerBy (k + 1) output).scriptPublicKey := lowerOutput_script _
  have hvalue : (lowerOutput (lowerBy k output)).value = (lowerBy (k + 1) output).value := by
    apply UInt64.toNat_inj.mp
    rw [lowerOutput_value, lowerBy_value, lowerBy_value]
    omega
  cases h : lowerOutput (lowerBy k output) with
  | mk value script =>
    rw [h] at hscript hvalue
    obtain rfl : value = _ := hvalue
    obtain rfl : script = _ := hscript
    rfl

theorem lowerings_succ (r count i : Nat) :
    lowerings (r + 1) count i = lowerings r count i + if r % count = i then 1 else 0 := by
  rw [lowerings, List.range_succ, List.countP_append, ← lowerings, List.countP_singleton]
  simp

theorem varied_outputs_length (tx : SignableTransaction) (r : Nat) :
    (varied tx r).tx.outputs.length = tx.tx.outputs.length := by
  have := congrArg List.length (varied_sameFrame tx r).scripts
  simpa using this

/-- **The outputs after `r` fallbacks**, one by one. -/
theorem varied_outputs_getElem? (tx : SignableTransaction) (r i : Nat) :
    (varied tx r).tx.outputs[i]? =
      (tx.tx.outputs[i]?).map (lowerBy (lowerings r tx.tx.outputs.length i)) := by
  induction r with
  | zero =>
    show tx.tx.outputs[i]? = _
    cases tx.tx.outputs[i]? <;> simp [lowerings]
  | succ r ih =>
    -- fallback `r` lowers output `r % count` and no other
    show ((varied tx r).tx.outputs.modify (r % (varied tx r).tx.outputs.length)
      lowerOutput)[i]? = _
    rw [List.getElem?_modify, varied_outputs_length, ih, lowerings_succ]
    by_cases hi : r % tx.tx.outputs.length = i
    · simp only [hi, if_true]
      cases tx.tx.outputs[i]? with
      | none => rfl
      | some o => exact congrArg some (lowerOutput_lowerBy _ _)
    · simp only [hi, if_false, Nat.add_zero]
      cases tx.tx.outputs[i]? <;> rfl

/-- What mining may have changed after `r` failed rounds. -/
structure MinedFrom (K : Consensus) (tx t : SignableTransaction) (r : Nat) : Prop where
  same : SameFrame t tx
  payload_length : t.tx.payload.length = tx.tx.payload.length
  payload_prefix : ∀ i, i ≤ tx.tx.payload.length - nonceLength →
    t.tx.payload.take i = tx.tx.payload.take i
  id_current : t.tx.id = K.transactionId t.tx.toTransactionBody
  outputs : ∀ i, t.tx.outputs[i]? =
    (tx.tx.outputs[i]?).map (lowerBy (lowerings r tx.tx.outputs.length i))

theorem candidate_minedFrom {tx : SignableTransaction}
    (hlen : nonceLength ≤ tx.tx.payload.length) (r n : Nat) :
    MinedFrom K tx (candidate K tx r n) r where
  same := candidate_sameFrame tx r n
  payload_length := by
    rw [candidate_payload, writeTail_length (by rw [beBytes_length]; exact hlen)]
  payload_prefix i hi := by
    rw [candidate_payload, take_writeTail (by rw [beBytes_length]; exact hi)]
  id_current := candidate_id tx r n
  outputs i := by rw [candidate_outputs, varied_outputs_getElem?]

/-- With no failed round the outputs are untouched. -/
theorem MinedFrom.outputs_eq {tx t : SignableTransaction} (h : MinedFrom K tx t 0) :
    t.tx.outputs = tx.tx.outputs := by
  apply List.ext_getElem?
  intro i
  rw [h.outputs i]
  cases tx.tx.outputs[i]? <;> simp [lowerings]

/-- The L2 data of an entry payload sits before the nonce. -/
theorem MinedFrom.entry_data {tx t : SignableTransaction} {r : Nat} (h : MinedFrom K tx t r)
    {l2Data : L2Data} {nonce : FixedBytes 4}
    (hentry : tx.tx.payload = headerByte .entry :: (l2Data.data.bytes ++ nonce.bytes)) :
    (t.tx.payload.drop 1).take l2DataSize = l2Data.data.bytes := by
  have hlen : tx.tx.payload.length = 33 := by
    rw [hentry, List.length_cons, List.length_append, l2Data.data.size, nonce.size]
    rfl
  have hsize : l2DataSize + 1 ≤ tx.tx.payload.length - nonceLength := by
    rw [hlen]
    decide
  have htake := h.payload_prefix (l2DataSize + 1) hsize
  rw [List.take_drop, Nat.add_comm 1 l2DataSize, htake, hentry, List.take_succ_cons,
    List.drop_succ_cons, List.drop_zero]
  exact List.take_left' l2Data.data.size

/-- **The frame of mining.** A mined transaction is the input with new nonce bytes
and a recomputed id; after `r` rounds without a hit, output `i` is lower by the
number of fallbacks that chose it, and nothing else differs. An entry payload keeps
its amount, and an output that held that amount holds it less those fallbacks. -/
theorem mineBlocking_frame {tx t : SignableTransaction} {txIdPrefix : List UInt8}
    {stats : MiningStats} (hlen : 4 ≤ tx.tx.payload.length)
    (hmine : mineBlocking K tx txIdPrefix = .ok (t, stats)) :
    ∃ r ≤ 3,
      (∀ r' < r, ∀ n ≤ u32Max,
        checkPrefix (candidate K tx r' n).tx.id txIdPrefix = false) ∧
      MinedFrom K tx t r ∧
      (r = 0 → t.tx.outputs = tx.tx.outputs) ∧
      ∀ (address : FixedBytes ethereumAddressSize) (amountSompi : UInt64)
        (nonce : FixedBytes 4),
        tx.tx.payload = headerByte .entry ::
          ((L2Data.new address amountSompi).data.bytes ++ nonce.bytes) →
        (t.tx.payload.drop 1).take l2DataSize =
            (L2Data.new address amountSompi).data.bytes ∧
          ∀ i o, tx.tx.outputs[i]? = some o → o.value = amountSompi →
            ∃ o', t.tx.outputs[i]? = some o' ∧ o'.scriptPublicKey = o.scriptPublicKey ∧
              o'.value.toNat = amountSompi.toNat - lowerings r tx.tx.outputs.length i := by
  obtain ⟨r, n, hfirst, rfl, -⟩ := mineBlocking_eq_ok_iff.mp hmine
  have hmined := candidate_minedFrom (K := K) hlen r n
  refine ⟨r, hfirst.round_le, fun r' hr' n' hn' => hfirst.first r' n' hn' (Or.inl hr'),
    hmined, ?_, ?_⟩
  · rintro rfl
    exact hmined.outputs_eq
  · intro address amountSompi nonce hentry
    refine ⟨hmined.entry_data hentry, fun i o ho hamount => ?_⟩
    refine ⟨lowerBy (lowerings r tx.tx.outputs.length i) o, ?_, rfl, ?_⟩
    · rw [hmined.outputs i, ho, Option.map_some]
    · rw [lowerBy_value, hamount]

/-! ### An entry transaction over 1 KAS -/

/-- An id function under which a transaction whose first output holds 1 KAS or more
has an id of `ff` bytes, and any other the id 0. -/
def thresholdConsensus : Consensus where
  transactionId body :=
    if body.outputs.any fun o => 100000000 ≤ o.value.toNat then
      ⟨List.replicate 32 0xff, by decide⟩
    else FixedBytes.zero 32
  txVersionToccata := 1
  versionExpectsComputeBudgetField version := version == 1

def entryAddress : FixedBytes ethereumAddressSize := ⟨List.replicate 20 0x11, by decide⟩

/-- The daemon's transaction for an entry of 1 KAS, in its first output. -/
def entryTransaction : SignableTransaction where
  tx := Transaction.new thresholdConsensus 1
    [⟨⟨FixedBytes.zero 32, 0⟩, [], 0, .computeBudget 10⟩]
    [⟨100000000, ⟨0, [0x51]⟩⟩] 0 (FixedBytes.zero 20) 0
    (headerByte .entry :: ((L2Data.new entryAddress 100000000).data.bytes ++ [0, 0, 0, 0]))
  entries := [some ⟨100010000, ⟨0, [0x51]⟩, 1234, false, none⟩]
  calculatedFee := some 10000
  calculatedNonContextualMasses := none

/-- With the prefix `ff`, the first nonce is a hit. -/
theorem mine_entryTransaction_ff :
    mineBlocking thresholdConsensus entryTransaction [0xff] =
      .ok (candidate thresholdConsensus entryTransaction 0 0,
        ⟨0, ⟨List.replicate 32 0xff, by decide⟩⟩) := by
  refine mineBlocking_eq_ok_iff.mpr ⟨0, 0, ⟨by decide, by decide, rfl, ?_⟩, rfl, rfl⟩
  intro r' n' _ hlt
  omega

theorem mineBlocking_frame_entryTransaction :
    ∃ r ≤ 3, MinedFrom thresholdConsensus entryTransaction
      (candidate thresholdConsensus entryTransaction 0 0) r := by
  obtain ⟨r, hr, -, hmined, -⟩ :=
    mineBlocking_frame (K := thresholdConsensus) (by decide) mine_entryTransaction_ff
  exact ⟨r, hr, hmined⟩

/-- **The fallback at work.** With the prefix `00` no nonce of the first round is a
hit, and the transaction that comes back locks one sompi less than 1 KAS, while its
payload still says 1 KAS. -/
theorem mineBlocking_lowers_outputs :
    ∃ t stats, mineBlocking thresholdConsensus entryTransaction [0x00] = .ok (t, stats) ∧
      4 ≤ entryTransaction.tx.payload.length ∧
      t.tx.outputs ≠ entryTransaction.tx.outputs ∧
      (t.tx.payload.drop 1).take l2DataSize =
        (L2Data.new entryAddress 100000000).data.bytes ∧
      t.tx.outputs[0]?.map (·.value) = some 99999999 := by
  refine ⟨candidate thresholdConsensus entryTransaction 1 0,
    ⟨0, FixedBytes.zero 32⟩, ?_, by decide, by decide, by decide, by decide⟩
  refine mineBlocking_eq_ok_iff.mpr ⟨1, 0, ⟨by decide, by decide, rfl, ?_⟩, rfl, rfl⟩
  intro r' n' _ hlt
  -- every try of round 0 still has 1 KAS in its output, whatever the nonce
  obtain rfl : r' = 0 := by omega
  rfl

end IgraRpc
