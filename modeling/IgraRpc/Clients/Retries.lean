import IgraRpc.Config.App
import IgraRpc.Services.WalletCall

/-!
# The retry loop — `clients/wallet_caller.rs`, `config/retry.rs`

* `createUnsignedTransactionWithRetry_runs` — **the daemon is called up to the first answer
  that is not a UTXO exhaustion, and at most `max_attempts` times**, with one pause between
  consecutive calls and none after the last; what comes back is that answer, or
  `RetryExhausted`;
* `calculateDelayMs_eq` — the delay is the doubled one, capped, unless the shift was cut
  before the cap was reached;
* `sleptDelay_iff` — **the delay that is slept is the documented one exactly when the shift
  was not cut and the jitter, which is added after the cap, fits under it**.
-/

namespace IgraRpc

open Lib

-- ---------------------------------------------------------------------------
-- Calls and pauses
-- ---------------------------------------------------------------------------

/-- The delay slept after attempt `attempt`. -/
def retryDelay (retryConfig : RetryConfig) (env : WalletEnv) (attempt : Nat) : Nat :=
  addJitter (env.jitterPercent attempt) (retryConfig.calculateDelayMs attempt)

/-- `n` calls, the first of them attempt `attempt`, with a pause between any two. -/
def callsFrom (retryConfig : RetryConfig) (env : WalletEnv) (params : TransactionParams) :
    Nat → Nat → List WalletEvent
  | _, 0 => []
  | _, 1 => [.create params]
  | attempt, n + 2 =>
    .create params :: .sleep (retryDelay retryConfig env attempt) ::
      callsFrom retryConfig env params (attempt + 1) (n + 1)

/-- A call of the daemon. -/
def isCreate : WalletEvent → Bool
  | .create _ => true
  | _ => false

/-- A pause. -/
def isSleep : WalletEvent → Bool
  | .sleep _ => true
  | _ => false

theorem countP_isCreate_callsFrom (retryConfig : RetryConfig) (env : WalletEnv)
    (params : TransactionParams) (attempt n : Nat) :
    (callsFrom retryConfig env params attempt n).countP isCreate = n := by
  fun_induction callsFrom retryConfig env params attempt n with
  | case1 => rfl
  | case2 => rfl
  | case3 attempt n ih => simp [List.countP_cons, ih, isCreate]

theorem countP_isSleep_callsFrom (retryConfig : RetryConfig) (env : WalletEnv)
    (params : TransactionParams) (attempt n : Nat) :
    (callsFrom retryConfig env params attempt n).countP isSleep = n - 1 := by
  fun_induction callsFrom retryConfig env params attempt n with
  | case1 => rfl
  | case2 => rfl
  | case3 attempt n ih => simp [List.countP_cons, ih, isSleep]

/-- The last event is a call. -/
theorem getLast?_callsFrom (retryConfig : RetryConfig) (env : WalletEnv)
    (params : TransactionParams) (attempt n : Nat) :
    (callsFrom retryConfig env params attempt (n + 1)).getLast? = some (.create params) := by
  induction n generalizing attempt with
  | zero => rfl
  | succ n ih =>
    rw [callsFrom, List.getLast?_cons, List.getLast?_cons, ih (attempt + 1)]
    rfl

-- ---------------------------------------------------------------------------
-- The loop
-- ---------------------------------------------------------------------------

/-- Attempt `n` ends in a UTXO exhaustion error. -/
def ExhaustedAt (env : WalletEnv) (params : TransactionParams) (n : Nat) : Prop :=
  ∃ e, (createUnsignedTransaction env n params).outcome = .err e ∧
    isUtxoExhaustionError e = true

/-- Only the daemon's own refusal counts as exhaustion. -/
theorem exhaustedAt_iff {env : WalletEnv} {params : TransactionParams} {n : Nat} :
    ExhaustedAt env params n ↔
      ∃ status, env.createReply n = .status status ∧ isNoFundsError status = true := by
  unfold ExhaustedAt createUnsignedTransaction
  cases env.createReply n with
  | ok result => simp [GrpcReply.result]
  | elapsed => simp [GrpcReply.result, isUtxoExhaustionError]
  | status status => simp [GrpcReply.result, isUtxoExhaustionError]

section
variable (retryConfig : RetryConfig) {env : WalletEnv} {params : TransactionParams}

/-- An attempt that is not refused for lack of funds ends the loop. -/
theorem retryAttempts_settled {attempt : Nat} (h : ¬ ExhaustedAt env params attempt)
    (remaining : Nat) (lastError : Option WalletCallerError) :
    retryAttempts retryConfig env params (remaining + 1) attempt lastError =
      createUnsignedTransaction env attempt params := by
  rcases retryAttempts_succ retryConfig env params remaining attempt lastError with
    ⟨-, hsettled⟩ | ⟨hrefused, -⟩
  · exact hsettled
  · exact absurd (exhaustedAt_iff.mpr hrefused) h

/-- A refused attempt is followed by a pause, if another may follow, and by the rest. -/
theorem retryAttempts_refused {attempt : Nat} (h : ExhaustedAt env params attempt)
    (remaining : Nat) (lastError : Option WalletCallerError) :
    ∃ status, retryAttempts retryConfig env params (remaining + 1) attempt lastError =
      let pause := if attempt < retryConfig.maxAttempts.toNat then
        [WalletEvent.sleep (retryDelay retryConfig env attempt)] else []
      let rest := retryAttempts retryConfig env params remaining (attempt + 1)
        (some (.transactionCreationFailed status))
      ⟨.create params :: pause ++ rest.events, rest.outcome⟩ := by
  obtain ⟨status, hreply, hfunds⟩ := exhaustedAt_iff.mp h
  refine ⟨status, ?_⟩
  simp [retryAttempts, createUnsignedTransaction, GrpcReply.result, hreply,
    isUtxoExhaustionError, hfunds, retryDelay]

/-- The run up to the first attempt that is not refused. -/
theorem retryAttempts_of_settled {k : Nat} :
    ∀ attempt remaining, attempt + k ≤ retryConfig.maxAttempts.toNat →
      k < remaining → (∀ j < k, ExhaustedAt env params (attempt + j)) →
      ¬ ExhaustedAt env params (attempt + k) → ∀ lastError,
      retryAttempts retryConfig env params remaining attempt lastError =
        ⟨callsFrom retryConfig env params attempt (k + 1),
          (createUnsignedTransaction env (attempt + k) params).outcome⟩ := by
  induction k with
  | zero =>
    intro attempt remaining _ hremaining _ hsettled lastError
    obtain ⟨n, rfl⟩ : ∃ n, remaining = n + 1 := ⟨remaining - 1, by omega⟩
    exact retryAttempts_settled retryConfig hsettled n lastError
  | succ k ih =>
    intro attempt remaining hmax hremaining hrefused hsettled lastError
    obtain ⟨n, rfl⟩ : ∃ n, remaining = n + 1 := ⟨remaining - 1, by omega⟩
    have hhead : ExhaustedAt env params attempt := hrefused 0 (Nat.succ_pos k)
    obtain ⟨status, hstep⟩ := retryAttempts_refused retryConfig hhead n lastError
    have hnext : attempt + 1 + k = attempt + (k + 1) := by omega
    have hrest := ih (attempt + 1) n (by omega) (by omega)
      (fun j hj => by
        have hj' := hrefused (j + 1) (by omega)
        rwa [show attempt + (j + 1) = attempt + 1 + j by omega] at hj')
      (by rwa [hnext]) (some (.transactionCreationFailed status))
    have hpause : attempt < retryConfig.maxAttempts.toNat := by omega
    rw [hstep]
    simp only [if_pos hpause, hrest, hnext]
    rfl

/-- The run when every attempt is refused. -/
theorem retryAttempts_of_refused {n : Nat} :
    ∀ attempt, attempt + n = retryConfig.maxAttempts.toNat →
      (∀ j < n + 1, ExhaustedAt env params (attempt + j)) → ∀ lastError,
      retryAttempts retryConfig env params (n + 1) attempt lastError =
        ⟨callsFrom retryConfig env params attempt (n + 1),
          .err (.miningFailed
            (.retryExhausted retryConfig.maxAttempts.toNat "UTXO exhaustion"))⟩ := by
  induction n with
  | zero =>
    intro attempt hmax hrefused lastError
    have hhead : ExhaustedAt env params attempt := hrefused 0 Nat.one_pos
    obtain ⟨status, hstep⟩ := retryAttempts_refused retryConfig hhead 0 lastError
    have hlast : ¬ attempt < retryConfig.maxAttempts.toNat := by omega
    rw [hstep]
    simp only [if_neg hlast]
    rfl
  | succ n ih =>
    intro attempt hmax hrefused lastError
    have hhead : ExhaustedAt env params attempt := hrefused 0 (Nat.succ_pos _)
    obtain ⟨status, hstep⟩ :=
      retryAttempts_refused retryConfig hhead (n + 1) lastError
    have hrest := ih (attempt + 1) (by omega)
      (fun j hj => by
        have hj' := hrefused (j + 1) (by omega)
        rwa [show attempt + (j + 1) = attempt + 1 + j by omega] at hj')
      (some (.transactionCreationFailed status))
    have hpause : attempt < retryConfig.maxAttempts.toNat := by omega
    rw [hstep]
    simp only [if_pos hpause, hrest]
    rfl

end

/-- The calls and pauses of a run that calls the daemon `n` times. -/
structure CallsDaemon (retryConfig : RetryConfig) (env : WalletEnv)
    (params : TransactionParams) (n : Nat) (events : List WalletEvent) : Prop where
  /-- Calls and pauses alternate, from the first attempt on. -/
  alternate : events = callsFrom retryConfig env params 1 n
  calls : events.countP isCreate = n
  pauses : events.countP isSleep = n - 1
  /-- No pause follows the last call. -/
  last : events.getLast? = some (.create params)

theorem callsDaemon_callsFrom (retryConfig : RetryConfig) (env : WalletEnv)
    (params : TransactionParams) {n : Nat} (h : 1 ≤ n) :
    CallsDaemon retryConfig env params n (callsFrom retryConfig env params 1 n) := by
  refine ⟨rfl, countP_isCreate_callsFrom _ _ _ _ _, countP_isSleep_callsFrom _ _ _ _ _, ?_⟩
  obtain ⟨m, rfl⟩ : ∃ m, n = m + 1 := ⟨n - 1, by omega⟩
  exact getLast?_callsFrom _ _ _ _ _

/-- Attempt `i` is the first whose answer is not a UTXO exhaustion. -/
def FirstSettled (env : WalletEnv) (params : TransactionParams) (i : Nat) : Prop :=
  1 ≤ i ∧ ¬ ExhaustedAt env params i ∧ ∀ j, 1 ≤ j → j < i → ExhaustedAt env params j

/-- What a run of the retry loop does and returns. -/
structure RetriesExhaustion (retryConfig : RetryConfig) (env : WalletEnv)
    (params : TransactionParams)
    (run : Traced WalletEvent WalletCallerError (List Proto.WalletSignableTransaction)) :
    Prop where
  /-- The first answer that is not an exhaustion comes back, if an attempt is left for it. -/
  settled : ∀ i, FirstSettled env params i →
    CallsDaemon retryConfig env params (min i retryConfig.maxAttempts.toNat) run.events ∧
    run.outcome =
      if i ≤ retryConfig.maxAttempts.toNat then (createUnsignedTransaction env i params).outcome
      else .err (.miningFailed
        (.retryExhausted retryConfig.maxAttempts.toNat "UTXO exhaustion"))
  /-- There may be no such answer at all. -/
  exhausted : (∀ j, 1 ≤ j → ExhaustedAt env params j) →
    CallsDaemon retryConfig env params retryConfig.maxAttempts.toNat run.events ∧
    run.outcome = .err (.miningFailed
      (.retryExhausted retryConfig.maxAttempts.toNat "UTXO exhaustion"))
  /-- The branch for a loop without an error is not reached. -/
  captured : run.outcome ≠ .err (retryExhausted retryConfig none)

/-- All attempts allowed are refused. -/
theorem createUnsignedTransactionWithRetry_refused {retryConfig : RetryConfig}
    {env : WalletEnv} {params : TransactionParams} (hmax : 1 ≤ retryConfig.maxAttempts.toNat)
    (h : ∀ j, 1 ≤ j → j ≤ retryConfig.maxAttempts.toNat → ExhaustedAt env params j) :
    createUnsignedTransactionWithRetry retryConfig env params =
      ⟨callsFrom retryConfig env params 1 retryConfig.maxAttempts.toNat,
        .err (.miningFailed
          (.retryExhausted retryConfig.maxAttempts.toNat "UTXO exhaustion"))⟩ := by
  obtain ⟨n, hn⟩ : ∃ n, retryConfig.maxAttempts.toNat = n + 1 :=
    ⟨retryConfig.maxAttempts.toNat - 1, by omega⟩
  have hrun := retryAttempts_of_refused retryConfig (n := n) 1 (by omega)
    (fun j hj => h (1 + j) (by omega) (by omega)) none
  rw [createUnsignedTransactionWithRetry, hn, hrun, hn]

/-- An attempt allowed is not refused, and it is the first. -/
theorem createUnsignedTransactionWithRetry_settled {retryConfig : RetryConfig}
    {env : WalletEnv} {params : TransactionParams} {i : Nat} (hi : FirstSettled env params i)
    (hmax : i ≤ retryConfig.maxAttempts.toNat) :
    createUnsignedTransactionWithRetry retryConfig env params =
      ⟨callsFrom retryConfig env params 1 i,
        (createUnsignedTransaction env i params).outcome⟩ := by
  obtain ⟨hone, hsettled, hrefused⟩ := hi
  obtain ⟨k, rfl⟩ : ∃ k, i = 1 + k := ⟨i - 1, by omega⟩
  rw [createUnsignedTransactionWithRetry,
    retryAttempts_of_settled retryConfig (k := k) 1 _ hmax (by omega)
      (fun j hj => hrefused (1 + j) (by omega) (by omega)) hsettled none,
    Nat.add_comm k 1]

/-- Creation alone never gives the error of the unreachable branch. -/
theorem createUnsignedTransaction_ne_exhausted (retryConfig : RetryConfig) (env : WalletEnv)
    (params : TransactionParams) (n : Nat) :
    (createUnsignedTransaction env n params).outcome ≠ .err (retryExhausted retryConfig none) := by
  unfold createUnsignedTransaction
  cases env.createReply n with
  | _ => simp [GrpcReply.result, retryExhausted]

/-- **The retry loop.** With at least one attempt allowed, and whatever the daemon answers. -/
theorem createUnsignedTransactionWithRetry_runs (retryConfig : RetryConfig)
    (hmax : 1 ≤ retryConfig.maxAttempts.toNat) (env : WalletEnv) (params : TransactionParams) :
    RetriesExhaustion retryConfig env params
      (createUnsignedTransactionWithRetry retryConfig env params) := by
  have hnotcaptured : AppError.retryExhausted retryConfig.maxAttempts.toNat "UTXO exhaustion" ≠
      .retryExhausted retryConfig.maxAttempts.toNat "UTXO exhaustion (no error captured)" := by
    simp
  refine ⟨fun i hi => ?_, fun hall => ?_, ?_⟩
  · by_cases hle : i ≤ retryConfig.maxAttempts.toNat
    · rw [createUnsignedTransactionWithRetry_settled hi hle, Nat.min_eq_left hle, if_pos hle]
      exact ⟨callsDaemon_callsFrom _ _ _ hi.1, rfl⟩
    · have hrefused : ∀ j, 1 ≤ j → j ≤ retryConfig.maxAttempts.toNat →
          ExhaustedAt env params j := fun j hj hjmax => hi.2.2 j hj (by omega)
      rw [createUnsignedTransactionWithRetry_refused hmax hrefused, if_neg hle,
        Nat.min_eq_right (by omega)]
      exact ⟨callsDaemon_callsFrom _ _ _ hmax, rfl⟩
  · rw [createUnsignedTransactionWithRetry_refused hmax fun j hj _ => hall j hj]
    exact ⟨callsDaemon_callsFrom _ _ _ hmax, rfl⟩
  · by_cases hsettled : ∃ i, 1 ≤ i ∧ i ≤ retryConfig.maxAttempts.toNat ∧
        ¬ ExhaustedAt env params i
    · classical
      -- the least attempt that is not refused
      have hfirst : FirstSettled env params (Nat.find hsettled) := by
        refine ⟨(Nat.find_spec hsettled).1, (Nat.find_spec hsettled).2.2, fun j hj hlt => ?_⟩
        have hmin := Nat.find_min hsettled hlt
        have hle := (Nat.find_spec hsettled).2.1
        exact not_not.mp fun h => hmin ⟨hj, by omega, h⟩
      rw [createUnsignedTransactionWithRetry_settled hfirst (Nat.find_spec hsettled).2.1]
      exact createUnsignedTransaction_ne_exhausted retryConfig env params _
    · have hrefused : ∀ j, 1 ≤ j → j ≤ retryConfig.maxAttempts.toNat →
          ExhaustedAt env params j := fun j hj hjmax =>
        not_not.mp fun h => hsettled ⟨j, hj, hjmax, h⟩
      rw [createUnsignedTransactionWithRetry_refused hmax hrefused]
      simp [retryExhausted]

/-- A daemon that has no funds at first, and nothing to send then. -/
def poorDaemon : WalletEnv where
  createReply attempt := if attempt ≤ 1 then .status ⟨true, "No funds to send", ""⟩ else .ok []
  signReply := .ok
  broadcastReply _ := .ok []
  mining := .timesOut
  jitterPercent _ := 0

/-- It is asked twice, with a pause in between; with one attempt allowed there is none left. -/
theorem createUnsignedTransactionWithRetry_runs_poorDaemon :
    let params := TransactionParams.sendAll "to" [] none
    let run := createUnsignedTransactionWithRetry ⟨2, 100, 3000⟩ poorDaemon params
    let short := createUnsignedTransactionWithRetry ⟨1, 100, 3000⟩ poorDaemon params
    (run.events = [.create params, .sleep 100, .create params] ∧ run.outcome = .ok [] ∧
        RetriesExhaustion ⟨2, 100, 3000⟩ poorDaemon params run) ∧
      short.outcome = .err (.miningFailed (.retryExhausted 1 "UTXO exhaustion")) ∧
        RetriesExhaustion ⟨1, 100, 3000⟩ poorDaemon params short := by
  intro params run short
  exact ⟨⟨rfl, rfl, createUnsignedTransactionWithRetry_runs ⟨2, 100, 3000⟩ (by decide) _ _⟩, rfl,
    createUnsignedTransactionWithRetry_runs ⟨1, 100, 3000⟩ (by decide) _ _⟩

-- ---------------------------------------------------------------------------
-- Delays
-- ---------------------------------------------------------------------------

/-- The documented delay: it doubles with each attempt and is capped, in unbounded
integers. -/
def backoffDelay (retryConfig : RetryConfig) (attempt : Nat) : Nat :=
  min (retryConfig.initialDelayMs.toNat * 2 ^ (attempt - 1)) retryConfig.maxDelayMs.toNat

/-- What `add_jitter` adds or takes away. -/
def jitterAmount (jitterPercent : Int) (delayMs : Nat) : Nat :=
  if delayMs * jitterPercent.natAbs ≤ u64Max then delayMs * jitterPercent.natAbs / 100 else 0

theorem addJitter_eq (jitterPercent : Int) (delayMs : Nat) :
    addJitter jitterPercent delayMs =
      if 0 ≤ jitterPercent then min (delayMs + jitterAmount jitterPercent delayMs) u64Max
      else delayMs - jitterAmount jitterPercent delayMs := rfl

theorem toNat_le_u64Max (n : UInt64) : n.toNat ≤ u64Max := Nat.le_of_lt_succ n.toNat_lt

/-- A validated configuration waits at least a millisecond. -/
theorem RetryConfig.one_le_of_validate {retryConfig : RetryConfig}
    (h : retryConfig.validate = .ok ()) : 1 ≤ retryConfig.initialDelayMs.toNat := by
  unfold RetryConfig.validate at h
  obtain ⟨-, h⟩ := Config.reject_bind_eq_ok.mp h
  obtain ⟨hnonzero, -⟩ := Config.reject_bind_eq_ok.mp h
  have hzero : retryConfig.initialDelayMs ≠ 0 := by simpa using hnonzero
  have hpos : retryConfig.initialDelayMs.toNat ≠ 0 := fun hz =>
    hzero (UInt64.toNat.inj hz)
  omega

theorem calculateDelayMs_of_pos (retryConfig : RetryConfig) {attempt : Nat}
    (h : 1 ≤ attempt) :
    retryConfig.calculateDelayMs attempt =
      min (retryConfig.initialDelayMs.toNat * 2 ^ min (attempt - 1) 63)
        retryConfig.maxDelayMs.toNat := by
  have hmax := toNat_le_u64Max retryConfig.maxDelayMs
  rw [RetryConfig.calculateDelayMs, if_neg (by omega)]
  show min (min _ u64Max) _ = _
  rw [Nat.min_assoc, Nat.min_eq_right hmax]

/-- The shift reaches the cap, unless it is cut at 63 with a first delay of one
millisecond. -/
def ShiftReaches (retryConfig : RetryConfig) (attempt : Nat) : Prop :=
  retryConfig.initialDelayMs ≠ 1 ∨ attempt ≤ 64 ∨ retryConfig.maxDelayMs.toNat ≤ 2 ^ 63

/-- **The delay before jitter.** It is the documented one exactly when the shift reaches. -/
theorem calculateDelayMs_eq {retryConfig : RetryConfig}
    (hinitial : 1 ≤ retryConfig.initialDelayMs.toNat) {attempt : Nat} (h : 1 ≤ attempt) :
    retryConfig.calculateDelayMs attempt = backoffDelay retryConfig attempt ↔
      ShiftReaches retryConfig attempt := by
  have hmax : retryConfig.maxDelayMs.toNat < 2 ^ 64 := retryConfig.maxDelayMs.toNat_lt
  have hone : retryConfig.initialDelayMs = 1 ↔ retryConfig.initialDelayMs.toNat = 1 :=
    ⟨fun heq => by rw [heq]; rfl, fun heq => UInt64.toNat.inj heq⟩
  rw [calculateDelayMs_of_pos retryConfig h, backoffDelay, ShiftReaches, ne_eq, hone]
  by_cases hsmall : attempt ≤ 64
  · rw [Nat.min_eq_left (show attempt - 1 ≤ 63 by omega)]
    exact iff_of_true rfl (Or.inr (Or.inl hsmall))
  · have hcut : min (attempt - 1) 63 = 63 := by omega
    have hpow : 2 ^ 64 ≤ 2 ^ (attempt - 1) := Nat.pow_le_pow_right (by decide) (by omega)
    have hfull : retryConfig.maxDelayMs.toNat ≤
        retryConfig.initialDelayMs.toNat * 2 ^ (attempt - 1) :=
      calc retryConfig.maxDelayMs.toNat ≤ 2 ^ 64 := Nat.le_of_lt hmax
        _ ≤ 2 ^ (attempt - 1) := hpow
        _ ≤ _ := Nat.le_mul_of_pos_left _ hinitial
    rw [hcut, Nat.min_eq_right hfull]
    omega

/-- The delay does not decrease. -/
theorem calculateDelayMs_mono (retryConfig : RetryConfig) {attempt later : Nat}
    (h : 1 ≤ attempt) (hle : attempt ≤ later) :
    retryConfig.calculateDelayMs attempt ≤ retryConfig.calculateDelayMs later := by
  rw [calculateDelayMs_of_pos retryConfig h,
    calculateDelayMs_of_pos retryConfig (h.trans hle)]
  have hshift : min (attempt - 1) 63 ≤ min (later - 1) 63 := by omega
  have hpow : 2 ^ min (attempt - 1) 63 ≤ 2 ^ min (later - 1) 63 :=
    Nat.pow_le_pow_right (by decide) hshift
  exact min_le_min (Nat.mul_le_mul_left _ hpow) le_rfl

/-- A draw of at most 25 percent moves a delay by at most a quarter. -/
theorem four_mul_jitterAmount_le {jitterPercent : Int} (hlow : -25 ≤ jitterPercent)
    (hhigh : jitterPercent ≤ 25) (delayMs : Nat) :
    4 * jitterAmount jitterPercent delayMs ≤ delayMs := by
  have hproduct : delayMs * jitterPercent.natAbs ≤ delayMs * 25 :=
    Nat.mul_le_mul_left delayMs (by omega)
  rw [jitterAmount]
  split
  · omega
  · omega

/-- The documented behaviour of the delay slept after an attempt. -/
structure SleptDelay (retryConfig : RetryConfig) (attempt : Nat) (jitterPercent : Int) :
    Prop where
  exact : retryConfig.calculateDelayMs attempt = backoffDelay retryConfig attempt
  capped : addJitter jitterPercent (retryConfig.calculateDelayMs attempt) ≤
    retryConfig.maxDelayMs.toNat
  within : 3 * retryConfig.calculateDelayMs attempt ≤
      4 * addJitter jitterPercent (retryConfig.calculateDelayMs attempt) ∧
    4 * addJitter jitterPercent (retryConfig.calculateDelayMs attempt) ≤
      5 * retryConfig.calculateDelayMs attempt
  monotone : ∀ later ≥ attempt,
    retryConfig.calculateDelayMs attempt ≤ retryConfig.calculateDelayMs later
  /-- The shifted one, the delay, the difference and the sum are 64-bit numbers. -/
  noWrap : 2 ^ min (attempt - 1) 63 ≤ u64Max ∧
    retryConfig.calculateDelayMs attempt ≤ u64Max ∧
    jitterAmount jitterPercent (retryConfig.calculateDelayMs attempt) ≤
      retryConfig.calculateDelayMs attempt ∧
    addJitter jitterPercent (retryConfig.calculateDelayMs attempt) ≤ u64Max

/-- The jitter, which is added after the cap, stays under it: it takes away, its product
overflows and is dropped, the cap is the largest number, or the sum is at most the cap. -/
def JitterFits (retryConfig : RetryConfig) (attempt : Nat) (jitterPercent : Int) : Prop :=
  jitterPercent ≤ 0 ∨ u64Max < backoffDelay retryConfig attempt * jitterPercent.natAbs ∨
    retryConfig.maxDelayMs.toNat = u64Max ∨
    backoffDelay retryConfig attempt +
      backoffDelay retryConfig attempt * jitterPercent.natAbs / 100 ≤
        retryConfig.maxDelayMs.toNat

theorem addJitter_le_iff {retryConfig : RetryConfig} {attempt : Nat} {jitterPercent : Int} :
    addJitter jitterPercent (backoffDelay retryConfig attempt) ≤
        retryConfig.maxDelayMs.toNat ↔
      JitterFits retryConfig attempt jitterPercent := by
  have hmax := toNat_le_u64Max retryConfig.maxDelayMs
  have hdelay : backoffDelay retryConfig attempt ≤ retryConfig.maxDelayMs.toNat :=
    Nat.min_le_right _ _
  have hzero : jitterPercent = 0 → backoffDelay retryConfig attempt * jitterPercent.natAbs = 0 := by
    rintro rfl
    exact Nat.mul_zero _
  rw [addJitter_eq, JitterFits, jitterAmount]
  generalize backoffDelay retryConfig attempt * jitterPercent.natAbs = product at hzero ⊢
  split
  · split
    · omega
    · omega
  · omega

/-- **The delay that is slept.** It is the documented one exactly when the shift reaches the
cap and the jitter fits under it. -/
theorem sleptDelay_iff {retryConfig : RetryConfig} (hvalid : retryConfig.validate = .ok ())
    {attempt : Nat} (hattempt : 1 ≤ attempt) {jitterPercent : Int}
    (hlow : -25 ≤ jitterPercent) (hhigh : jitterPercent ≤ 25) :
    SleptDelay retryConfig attempt jitterPercent ↔
      ShiftReaches retryConfig attempt ∧ JitterFits retryConfig attempt jitterPercent := by
  have hexact := calculateDelayMs_eq (RetryConfig.one_le_of_validate hvalid) hattempt
  refine ⟨?_, ?_⟩
  · intro h
    have hcapped := h.capped
    rw [h.exact] at hcapped
    exact ⟨hexact.mp h.exact, addJitter_le_iff.mp hcapped⟩
  · rintro ⟨hreach, hfits⟩
    have hdelay := hexact.mpr hreach
    have hcapped := addJitter_le_iff.mpr hfits
    have hmax := toNat_le_u64Max retryConfig.maxDelayMs
    have hbelow : backoffDelay retryConfig attempt ≤ retryConfig.maxDelayMs.toNat :=
      Nat.min_le_right _ _
    have hquarter :=
      four_mul_jitterAmount_le hlow hhigh (backoffDelay retryConfig attempt)
    have hpow : 2 ^ min (attempt - 1) 63 ≤ 2 ^ 63 :=
      Nat.pow_le_pow_right (by decide) (Nat.min_le_right _ _)
    have hone : 2 ^ min (attempt - 1) 63 ≤ u64Max := hpow.trans (by decide)
    refine ⟨hdelay, ?_, ?_, fun later hle => calculateDelayMs_mono retryConfig hattempt hle,
      ?_⟩
    · rw [hdelay]
      exact hcapped
    · rw [hdelay, addJitter_eq]
      split
      · omega
      · omega
    · rw [hdelay]
      omega

/-- The first delay of the default configuration, with the largest draw. -/
theorem sleptDelay_default : SleptDelay RetryConfig.default 1 25 :=
  (sleptDelay_iff rfl (by decide) (by decide) (by decide)).mpr
    ⟨Or.inl (by decide), Or.inr (Or.inr (Or.inr (by decide)))⟩

/-- A delay at the cap is slept for longer than the cap. -/
theorem sleptDelay_fails :
    RetryConfig.validate ⟨3, 3000, 3000⟩ = .ok () ∧ ¬ SleptDelay ⟨3, 3000, 3000⟩ 1 25 :=
  ⟨rfl, fun h => absurd h.capped (by decide)⟩

end IgraRpc
