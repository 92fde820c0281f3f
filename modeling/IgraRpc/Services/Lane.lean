import IgraRpc.Services.Mining

/-!
# The lane gate — `services/lane.rs`

* `LaneEnforcement` — a lane with a non-empty id prefix; an empty prefix cannot be
  built;
* `validateLaneTransaction` — the four checks, the last of them only before
  broadcast;
* `validateLaneTransaction_eq_ok` — what a transaction that passes satisfies.
-/

namespace IgraRpc

open Lib

/-- A lane id paired with a non-empty transaction id prefix. -/
structure LaneEnforcement where
  lane : SubnetworkId
  txIdPrefix : List UInt8
  prefix_ne_nil : txIdPrefix ≠ []

/-- `LaneEnforcement::new`. -/
def LaneEnforcement.new (lane : SubnetworkId) (txIdPrefix : List UInt8) :
    Except String LaneEnforcement :=
  if h : txIdPrefix = [] then
    .error ("LaneEnforcement: tx_id_prefix must be non-empty (an empty prefix " ++
      "makes the post-mining invariant vacuously true)")
  else .ok ⟨lane, txIdPrefix, h⟩

def minLanePayloadLen : Nat := nonceLength + 1

/-- The stage at which a transaction is validated. -/
inductive Stage where
  | preMining
  | preBroadcast
  deriving DecidableEq

/-- `Stage::as_str`. -/
def Stage.asStr : Stage → String
  | .preMining => "pre-mining"
  | .preBroadcast => "pre-broadcast"

/-- `validate_lane_transaction`: version, subnetwork, payload, and the id prefix
before broadcast. The error names the first check that fails. -/
def validateLaneTransaction (K : Consensus) (tx : SignableTransaction)
    (expectedLane : SubnetworkId) (txIdPrefix : List UInt8) (stage : Stage) :
    Except AppError Unit :=
  if tx.tx.version < K.txVersionToccata then
    .error (.laneEnforcementFailed s!"{stage.asStr}: version")
  else if tx.tx.subnetworkId ≠ expectedLane then
    .error (.laneEnforcementFailed s!"{stage.asStr}: subnetwork")
  else if tx.tx.payload.length < minLanePayloadLen then
    .error (.laneEnforcementFailed s!"{stage.asStr}: payload")
  else if stage = .preBroadcast ∧ checkPrefix tx.tx.id txIdPrefix = false then
    .error (.laneEnforcementFailed "pre-broadcast: prefix")
  else .ok ()

/-- The lane conditions that hold of a transaction at a stage. -/
structure LaneConforms (K : Consensus) (expectedLane : SubnetworkId)
    (txIdPrefix : List UInt8) (stage : Stage) (tx : SignableTransaction) : Prop where
  version : K.txVersionToccata.toNat ≤ tx.tx.version.toNat
  subnetwork : tx.tx.subnetworkId = expectedLane
  payload : 5 ≤ tx.tx.payload.length
  id_prefix : stage = .preBroadcast → txIdPrefix <+: tx.tx.id.bytes

theorem checkPrefix_iff {id : TransactionId} {txIdPrefix : List UInt8} :
    checkPrefix id txIdPrefix = true ↔ txIdPrefix <+: id.bytes := by
  rw [checkPrefix, List.isPrefixOf_iff_prefix]

/-- **The gate.** A transaction passes exactly when it conforms to the lane. -/
theorem validateLaneTransaction_eq_ok {K : Consensus} {tx : SignableTransaction}
    {lane : SubnetworkId} {txIdPrefix : List UInt8} {stage : Stage} :
    validateLaneTransaction K tx lane txIdPrefix stage = .ok () ↔
      LaneConforms K lane txIdPrefix stage tx := by
  unfold validateLaneTransaction
  refine ⟨?_, ?_⟩
  · intro h
    split at h
    · exact absurd h (by simp)
    · next hversion =>
      split at h
      · exact absurd h (by simp)
      · next hlane =>
        split at h
        · exact absurd h (by simp)
        · next hpayload =>
          split at h
          · exact absurd h (by simp)
          · next hprefix =>
            refine ⟨?_, not_not.mp hlane, Nat.le_of_not_lt hpayload, fun hstage => ?_⟩
            · rw [UInt16.lt_iff_toNat_lt] at hversion
              exact Nat.le_of_not_lt hversion
            · rw [← checkPrefix_iff]
              by_contra hmiss
              exact hprefix ⟨hstage, by simpa using hmiss⟩
  · intro h
    have hpayload : ¬ tx.tx.payload.length < minLanePayloadLen := Nat.not_lt.mpr h.payload
    rw [if_neg, if_neg (by rw [h.subnetwork]; simp), if_neg hpayload, if_neg]
    · intro ⟨hstage, hmiss⟩
      rw [checkPrefix_iff.mpr (h.id_prefix hstage)] at hmiss
      exact absurd hmiss (by simp)
    · rw [UInt16.lt_iff_toNat_lt]
      exact Nat.not_lt.mpr h.version

/-- A gate error is always a lane enforcement error. -/
theorem validateLaneTransaction_error {K : Consensus} {tx : SignableTransaction}
    {lane : SubnetworkId} {txIdPrefix : List UInt8} {stage : Stage} {e : AppError}
    (h : validateLaneTransaction K tx lane txIdPrefix stage = .error e) :
    ∃ reason, e = .laneEnforcementFailed reason := by
  unfold validateLaneTransaction at h
  split_ifs at h <;> exact ⟨_, (Except.error.inj h).symm⟩

end IgraRpc
