import IgraRpc.Services.Mining

/-!
# The rounds of mining

`mine_blocking` makes up to four rounds of 2^32 tries. Here the nonce loop also says
which tries it makes, and the whole of its result is put together.

* `mineLoopTraced_eq` — with its tries, the loop is the search with its tries;
* `mineBlocking_search` — **mining is total**: it never panics, succeeds exactly when
  some nonce of some round is a hit, with the first of them, and otherwise fails after
  four full rounds.
-/

namespace IgraRpc

open Lib

/-- The nonce loop with the rounds and nonces it tries, in order. -/
def mineLoopTraced (K : Consensus) (txIdPrefix : List UInt8)
    (transaction : SignableTransaction) (nonce nonceExhaustionCount : Nat) :
    Traced (Nat × Nat) AppError (SignableTransaction × MiningStats) :=
  if transaction.tx.payload.length < nonceLength then ⟨[], .panicked⟩
  else
    let transaction := writeNonce K transaction nonce
    if checkPrefix transaction.tx.id txIdPrefix then
      ⟨[(nonceExhaustionCount, nonce)], .ok (transaction, ⟨nonce, transaction.tx.id⟩)⟩
    else if nonce < u32Max then
      let later := mineLoopTraced K txIdPrefix transaction (nonce + 1) nonceExhaustionCount
      ⟨(nonceExhaustionCount, nonce) :: later.events, later.outcome⟩
    else if nonceExhaustionCount < maxNonceExhaustionAttempts then
      let later := mineLoopTraced K txIdPrefix (varyOutput nonceExhaustionCount transaction) 0
        (nonceExhaustionCount + 1)
      ⟨(nonceExhaustionCount, nonce) :: later.events, later.outcome⟩
    else ⟨[(nonceExhaustionCount, nonce)], .err (.nonceExhaustion u32Max)⟩
termination_by (maxNonceExhaustionAttempts - nonceExhaustionCount, u32Max - nonce)
decreasing_by
  · exact Prod.Lex.right _ (by omega)
  · exact Prod.Lex.left _ _ (by omega)

/-- `mine_blocking` with its tries. -/
def mineBlockingTraced (K : Consensus) (transaction : SignableTransaction)
    (txIdPrefix : List UInt8) : Traced (Nat × Nat) AppError (SignableTransaction × MiningStats) :=
  mineLoopTraced K txIdPrefix
    { transaction with
      tx := { transaction.tx with payload := initPayload transaction.tx.payload } } 0 0

/-- The try at place `k`: the round and the nonce. -/
def tryAt (k : Nat) : Nat × Nat := (k / 2 ^ 32, k % 2 ^ 32)

variable {K : Consensus}

/-- **The traced loop is the loop**, and its tries are those of the search. -/
theorem mineLoopTraced_eq (txIdPrefix : List UInt8) (tx : SignableTransaction) (n r : Nat)
    (hlen : nonceLength ≤ tx.tx.payload.length) :
    mineLoopTraced K txIdPrefix tx n r =
      ⟨(miningRounds K txIdPrefix).tries tx n r, mineLoop K txIdPrefix tx n r⟩ := by
  have hroom : ¬tx.tx.payload.length < nonceLength := Nat.not_lt.mpr hlen
  rw [mineLoopTraced, mineLoop, Rounds.tries, if_neg hroom, if_neg hroom]
  have hlen' : nonceLength ≤ (writeNonce K tx n).tx.payload.length := writeNonce_room hlen n
  show (if checkPrefix (writeNonce K tx n).tx.id txIdPrefix = true then _
    else if n < u32Max then _ else if r < maxNonceExhaustionAttempts then _ else _) =
    Traced.mk ((r, n) :: if checkPrefix (writeNonce K tx n).tx.id txIdPrefix = true then _
      else if n < u32Max then _ else if r < maxNonceExhaustionAttempts then _ else _)
      (if checkPrefix (writeNonce K tx n).tx.id txIdPrefix = true then _
        else if n < u32Max then _ else if r < maxNonceExhaustionAttempts then _ else _)
  by_cases hhit : checkPrefix (writeNonce K tx n).tx.id txIdPrefix = true
  · rw [if_pos hhit, if_pos hhit, if_pos hhit]
  · rw [if_neg hhit, if_neg hhit, if_neg hhit]
    by_cases hn : n < u32Max
    · rw [if_pos hn, if_pos hn, if_pos hn]
      have hrest := mineLoopTraced_eq txIdPrefix (writeNonce K tx n) (n + 1) r hlen'
      rw [hrest]
      rfl
    · rw [if_neg hn, if_neg hn, if_neg hn]
      by_cases hr : r < maxNonceExhaustionAttempts
      · rw [if_pos hr, if_pos hr, if_pos hr]
        have hrest := mineLoopTraced_eq txIdPrefix (varyOutput r (writeNonce K tx n)) 0 (r + 1)
          hlen'
        rw [hrest]
        rfl
      · rw [if_neg hr, if_neg hr, if_neg hr]
termination_by (maxNonceExhaustionAttempts - r, u32Max - n)
decreasing_by
  · exact Prod.Lex.right _ (by omega)
  · exact Prod.Lex.left _ _ (by omega)

/-- A prefix on some candidate's id is a success. -/
theorem mineBlocking_ok_of_hit {txIdPrefix : List UInt8} {tx : SignableTransaction} {r n : Nat}
    (hr : r ≤ maxNonceExhaustionAttempts) (hn : n ≤ u32Max)
    (hhit : checkPrefix (candidate K tx r n).tx.id txIdPrefix = true) :
    ∃ t stats, mineBlocking K tx txIdPrefix = .ok (t, stats) := by
  cases hmine : mineBlocking K tx txIdPrefix with
  | ok found => exact ⟨found.1, found.2, rfl⟩
  | err e =>
    have hmiss := (mineBlocking_eq_err_iff.mp hmine).2 r n hr hn
    rw [hhit] at hmiss
    exact absurd hmiss (by simp)
  | panicked => exact absurd hmine (mineBlocking_ne_panicked txIdPrefix tx)

theorem u32Max_succ : u32Max + 1 = 2 ^ 32 := by decide

theorem miningRounds_atIndex (txIdPrefix : List UInt8) (k : Nat) :
    (miningRounds K txIdPrefix).atIndex k = tryAt k := by
  have hsize : (miningRounds K txIdPrefix).last + 1 = 2 ^ 32 := u32Max_succ
  rw [Rounds.atIndex, tryAt, hsize]

theorem miningRounds_stop_none (txIdPrefix : List UInt8) :
    (miningRounds K txIdPrefix).stop none = 4 * 2 ^ 32 := by
  have hsize : (miningRounds K txIdPrefix).last + 1 = 2 ^ 32 := u32Max_succ
  have hrounds : (miningRounds K txIdPrefix).renewals = 3 := rfl
  rw [Rounds.stop, Rounds.index, Nat.add_assoc, hsize, hrounds]
  exact (Nat.succ_mul 3 (2 ^ 32)).symm

/-- Mining makes the tries of the search, from the first nonce of the first round to the
place where the search stops. -/
theorem mineBlockingTraced_events {txIdPrefix : List UInt8} {tx : SignableTransaction}
    {found : Option (SignableTransaction × Nat × Nat)}
    (h : (miningRounds K txIdPrefix).loop
      { tx with tx := { tx.tx with payload := initPayload tx.tx.payload } } 0 0 = found) :
    (mineBlockingTraced K tx txIdPrefix).events =
      (List.range ((miningRounds K txIdPrefix).stop found)).map tryAt := by
  rw [mineBlockingTraced, mineLoopTraced_eq txIdPrefix _ 0 0 (initPayload_length _)]
  have hlength := Rounds.index_add_tries_length (R := miningRounds K txIdPrefix)
    { tx with tx := { tx.tx with payload := initPayload tx.tx.payload } } 0 0
    (Nat.zero_le _) (Nat.zero_le _)
  have htries := Rounds.tries_eq (R := miningRounds K txIdPrefix)
    { tx with tx := { tx.tx with payload := initPayload tx.tx.payload } } 0 0 (Nat.zero_le _)
  have hzero : (miningRounds K txIdPrefix).index 0 0 = 0 := by simp [Rounds.index]
  rw [hzero, Nat.zero_add, h] at hlength
  rw [hzero, hlength, ← List.range_eq_range'] at htries
  rw [htries]
  exact List.map_congr_left fun k _ => miningRounds_atIndex txIdPrefix k

/-- With its tries, mining is mining, and it is the search. -/
theorem mineBlockingTraced_eq (txIdPrefix : List UInt8) (tx : SignableTransaction) :
    (mineBlockingTraced K tx txIdPrefix).outcome = mineBlocking K tx txIdPrefix ∧
      ∃ found, mineBlocking K tx txIdPrefix = searchResult found ∧
        (mineBlockingTraced K tx txIdPrefix).events =
          (List.range ((miningRounds K txIdPrefix).stop found)).map tryAt := by
  have htraced := mineLoopTraced_eq (K := K) txIdPrefix
    { tx with tx := { tx.tx with payload := initPayload tx.tx.payload } } 0 0
    (initPayload_length tx.tx.payload)
  refine ⟨?_, _, mineLoop_eq txIdPrefix _ 0 0 (initPayload_length _),
    mineBlockingTraced_events rfl⟩
  rw [mineBlockingTraced, htraced]
  rfl

/-- **Mining is a total search.** For every transaction, prefix and id function mining does
not panic. It succeeds exactly when the id of some candidate has the prefix, and then
returns the first of these candidates in the order of rounds and nonces, under its own id;
otherwise it reports exhaustion, and has tried every nonce of four rounds once, in order. -/
theorem mineBlocking_search (K : Consensus) (txIdPrefix : List UInt8)
    (tx : SignableTransaction) :
    mineBlocking K tx txIdPrefix ≠ .panicked ∧
    ((∃ t stats, mineBlocking K tx txIdPrefix = .ok (t, stats)) ↔
      ∃ r ≤ 3, ∃ n ≤ u32Max,
        checkPrefix (candidate K tx r n).tx.id txIdPrefix = true) ∧
    (∀ t stats, mineBlocking K tx txIdPrefix = .ok (t, stats) →
      ∃ r n, FirstHit K txIdPrefix tx r n ∧ t = candidate K tx r n ∧
        t.tx.payload =
          tx.tx.payload.take (tx.tx.payload.length - 4) ++ beBytes 4 n ∧
        t.tx.id = K.transactionId t.tx.toTransactionBody ∧
        stats.finalTransactionId = K.transactionId t.tx.toTransactionBody) ∧
    ((¬∃ r ≤ 3, ∃ n ≤ u32Max,
        checkPrefix (candidate K tx r n).tx.id txIdPrefix = true) →
      (mineBlockingTraced K tx txIdPrefix).outcome = mineBlocking K tx txIdPrefix ∧
      mineBlocking K tx txIdPrefix = .err (.nonceExhaustion u32Max) ∧
      (mineBlockingTraced K tx txIdPrefix).events =
        (List.range (4 * 2 ^ 32)).map tryAt) := by
  have hnever := mineBlocking_ne_panicked (K := K) txIdPrefix tx
  refine ⟨hnever, ⟨?_, ?_⟩, ?_, ?_⟩
  · intro ⟨t, stats, hok⟩
    obtain ⟨r, n, hfirst, -, -⟩ := mineBlocking_eq_ok_iff.mp hok
    exact ⟨r, hfirst.round_le, n, hfirst.nonce_le, hfirst.hit⟩
  · intro ⟨r, hr, n, hn, hhit⟩
    exact mineBlocking_ok_of_hit hr hn hhit
  · intro t stats hok
    obtain ⟨r, n, hfirst, rfl, rfl⟩ := mineBlocking_eq_ok_iff.mp hok
    refine ⟨r, n, hfirst, rfl, ?_, candidate_id tx r n, candidate_id tx r n⟩
    rw [candidate_payload, writeTail, beBytes_length]
    rfl
  · intro hmiss
    obtain ⟨houtcome, found, hresult, hevents⟩ := mineBlockingTraced_eq (K := K) txIdPrefix tx
    have herr : mineBlocking K tx txIdPrefix = .err (.nonceExhaustion u32Max) := by
      refine mineBlocking_eq_err_iff.mpr ⟨rfl, ?_⟩
      intro r n hr hn
      have hno : ¬checkPrefix (candidate K tx r n).tx.id txIdPrefix = true :=
        fun hhit => hmiss ⟨r, hr, n, hn, hhit⟩
      exact Bool.eq_false_iff.mpr hno
    refine ⟨houtcome, herr, ?_⟩
    cases found with
    | some hit =>
      rw [herr] at hresult
      exact absurd hresult (by simp [searchResult])
    | none => rw [hevents, miningRounds_stop_none]

end IgraRpc
