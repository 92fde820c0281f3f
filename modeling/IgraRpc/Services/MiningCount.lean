import IgraRpc.Services.MiningFrame
import IgraRpc.Services.MiningRounds

/-!
# The number of nonces tried — `services/mining.rs`

`MiningStats` holds the "number of nonces tried during mining", and so does the exhaustion
error. The loop reports the nonce it is at: a nonce starts at 0, is counted up after the
test, and starts over in every round.

* `length_tries_of_first` — how many tries a hit takes;
* `tries_of_success` — the report is short by one, and by 2^32 for each failed round;
* `countsTries_iff` — **the reported counts are those of the tries exactly when no try is a
  hit**, that is, in the runs that end in exhaustion.
-/

namespace IgraRpc

open Lib

/-- The reported counts are those of the tries: all of them after a success, and as many as
the counter can hold when the nonces are exhausted. -/
structure CountsTries (K : Consensus) (tx : SignableTransaction) (txIdPrefix : List UInt8) :
    Prop where
  success : ∀ t stats, mineBlocking K tx txIdPrefix = .ok (t, stats) →
    stats.noncesTried = (mineBlockingTraced K tx txIdPrefix).events.length
  exhausted : ∀ count, mineBlocking K tx txIdPrefix = .err (.nonceExhaustion count) →
    count = min (mineBlockingTraced K tx txIdPrefix).events.length u32Max

variable {K : Consensus} {tx : SignableTransaction} {txIdPrefix : List UInt8}

/-- A hit takes the tries of the failed rounds, those of its round before it, and itself. -/
theorem length_tries_of_first {r n : Nat} (h : FirstHit K txIdPrefix tx r n) :
    (mineBlockingTraced K tx txIdPrefix).events.length = r * 2 ^ 32 + n + 1 := by
  have hloop := (Rounds.loop_eq_some_iff (writeNonce_initPayload tx)).mpr
    ⟨rfl, firstHit_iff.mpr h⟩
  have hsize : (miningRounds K txIdPrefix).last + 1 = 2 ^ 32 := u32Max_succ
  rw [mineBlockingTraced_events hloop, List.length_map, List.length_range, Rounds.stop,
    Rounds.index, hsize]

/-- **What a success reports** is the nonce of its round: one less than the tries of this
round, and none of the rounds before it. -/
theorem tries_of_success {t : SignableTransaction} {stats : MiningStats}
    (h : mineBlocking K tx txIdPrefix = .ok (t, stats)) :
    ∃ r ≤ maxNonceExhaustionAttempts,
      (mineBlockingTraced K tx txIdPrefix).events.length =
        r * 2 ^ 32 + stats.noncesTried + 1 := by
  obtain ⟨r, n, hfirst, -, rfl⟩ := mineBlocking_eq_ok_iff.mp h
  exact ⟨r, hfirst.round_le, length_tries_of_first hfirst⟩

/-- Exhaustion takes four full rounds. -/
theorem length_tries_of_miss
    (h : ∀ r ≤ maxNonceExhaustionAttempts, ∀ n ≤ u32Max,
      checkPrefix (candidate K tx r n).tx.id txIdPrefix = false) :
    (mineBlockingTraced K tx txIdPrefix).events.length = 4 * 2 ^ 32 := by
  have hloop := (Rounds.loop_eq_none_iff (R := miningRounds K txIdPrefix)
    (writeNonce_initPayload tx)).mpr fun r n hr hn => by
      rw [miningRounds_cand]
      exact h r hr n hn
  rw [mineBlockingTraced_events hloop, List.length_map, List.length_range,
    miningRounds_stop_none]

/-- **The counts are right exactly when mining fails.** For every transaction, prefix and id
function, what mining reports is the number of its tries if and only if no candidate of the
four rounds has an id with the prefix. -/
theorem countsTries_iff (K : Consensus) (tx : SignableTransaction) (txIdPrefix : List UInt8) :
    CountsTries K tx txIdPrefix ↔
      ∀ r ≤ maxNonceExhaustionAttempts, ∀ n ≤ u32Max,
        checkPrefix (candidate K tx r n).tx.id txIdPrefix = false := by
  refine ⟨?_, ?_⟩
  · intro hcounts r hr n hn
    by_contra hhit
    rw [Bool.not_eq_false] at hhit
    obtain ⟨t, stats, hok⟩ := mineBlocking_ok_of_hit hr hn hhit
    obtain ⟨rounds, -, htries⟩ := tries_of_success hok
    have hcount := hcounts.success t stats hok
    omega
  · intro hmiss
    have herr : mineBlocking K tx txIdPrefix = .err (.nonceExhaustion u32Max) :=
      mineBlocking_eq_err_iff.mpr ⟨rfl, fun r n hr hn => hmiss r hr n hn⟩
    refine ⟨?_, ?_⟩
    · intro t stats hok
      rw [herr] at hok
      exact absurd hok (by simp)
    · intro count hcount
      rw [herr] at hcount
      have hmax : u32Max ≤ 4 * 2 ^ 32 := by decide
      rw [length_tries_of_miss hmiss, Nat.min_eq_right hmax]
      simpa using hcount.symm

/-- A hit on the first try is reported as none, and the same is reported after a whole round
without a hit and one more try. -/
theorem countsTries_fails :
    (∃ t stats, mineBlocking thresholdConsensus entryTransaction [0xff] = .ok (t, stats) ∧
      stats.noncesTried = 0 ∧
      (mineBlockingTraced thresholdConsensus entryTransaction [0xff]).events.length = 1) ∧
    (∃ t stats, mineBlocking thresholdConsensus entryTransaction [0x00] = .ok (t, stats) ∧
      stats.noncesTried = 0 ∧
      (mineBlockingTraced thresholdConsensus entryTransaction [0x00]).events.length =
        2 ^ 32 + 1) ∧
    ¬ CountsTries thresholdConsensus entryTransaction [0xff] := by
  have hfirst : FirstHit thresholdConsensus [0xff] entryTransaction 0 0 :=
    ⟨by decide, by decide, rfl, fun r' n' _ hlt => by omega⟩
  have hsecond : FirstHit thresholdConsensus [0x00] entryTransaction 1 0 := by
    refine ⟨by decide, by decide, rfl, fun r' n' _ hlt => ?_⟩
    obtain rfl : r' = 0 := by omega
    rfl
  have htries := length_tries_of_first hfirst
  refine ⟨⟨_, _, mineBlocking_eq_ok_iff.mpr ⟨0, 0, hfirst, rfl, rfl⟩, rfl, htries⟩,
    ⟨_, _, mineBlocking_eq_ok_iff.mpr ⟨1, 0, hsecond, rfl, rfl⟩, rfl,
      length_tries_of_first hsecond⟩, ?_⟩
  intro hcounts
  have hcount := hcounts.success _ _ mine_entryTransaction_ff
  rw [htries] at hcount
  exact absurd hcount (by decide)

end IgraRpc
