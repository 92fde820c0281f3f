import IgraRpc.Config.App
import IgraRpc.Tools.Duration

/-!
# Estimates of the mining time — `config/mining.rs`

How long mining is expected to take for the configured prefix. The difficulty is a power of
256 in a 64-bit word, and the plain power of the standard library depends on the build when
it overflows.

* `exactSeconds` — the estimate in unbounded arithmetic, which is monotone;
* `estimatedMiningTime_exact`, `estimatedMiningTime_long` — up to seven bytes the code
  computes it; from eight on it panics in a debug build and says one second in a release
  build;
* `estimatesSoundly_iff` — **the estimates are sound exactly for prefixes of at most seven
  bytes**, while validation admits up to 32.
-/

namespace IgraRpc

open Lib

-- ---------------------------------------------------------------------------
-- The code
-- ---------------------------------------------------------------------------

/-- Whether the build checks the plain arithmetic for overflow, as a debug build does, or
lets it wrap around, as a release build does. -/
inductive Build where
  | debug
  | release
  deriving DecidableEq

/-- `u64::pow`. -/
def u64Pow (build : Build) (base : UInt64) (exponent : Nat) : Outcome Empty UInt64 :=
  if base.toNat ^ exponent < 2 ^ 64 then .ok (.ofNat (base.toNat ^ exponent))
  else
    match build with
    | .debug => .panicked
    -- what leaves the word is cut off
    | .release => .ok (.ofNat (base.toNat ^ exponent % 2 ^ 64))

/-- `u64::checked_div`. -/
def checkedDiv (dividend divisor : UInt64) : Option UInt64 :=
  if divisor = 0 then none else some (dividend / divisor)

/-- `Duration::from_secs`. -/
def Duration.fromSecs (secs : UInt64) : Duration := ⟨secs, 0, by decide⟩

namespace MiningConfig

/-- `difficulty_estimate`. -/
def difficultyEstimate (build : Build) (config : MiningConfig) : Outcome Empty UInt64 :=
  -- `u32::try_from(len).unwrap_or(0)`
  let len := if config.txIdPrefix.length ≤ u32Max then config.txIdPrefix.length else 0
  u64Pow build 256 len

/-- `estimated_mining_time`. -/
def estimatedMiningTime (build : Build) (config : MiningConfig) (hashRate : UInt64) :
    Outcome Empty Duration :=
  if hashRate = 0 then .ok (.fromSecs (.ofNat u64Max))
  else do
    let difficulty ← config.difficultyEstimate build
    let expectedAttempts := difficulty / 2
    let seconds := (checkedDiv expectedAttempts hashRate).getD (.ofNat u64Max)
    return .fromSecs (max seconds 1)

end MiningConfig

-- ---------------------------------------------------------------------------
-- The exact estimates
-- ---------------------------------------------------------------------------

/-- The estimate in unbounded arithmetic: half the difficulty over the hash rate, at least
one second. -/
def exactSeconds (len rate : Nat) : Nat :=
  if rate = 0 then u64Max else max (256 ^ len / 2 / rate) 1

/-- A difficulty fits the word up to seven bytes. -/
theorem difficulty_lt_iff (len : Nat) : 256 ^ len < 2 ^ 64 ↔ len ≤ 7 := by
  have hpow : 256 ^ len = 2 ^ (8 * len) := (Nat.pow_mul 2 8 len).symm
  rw [hpow, Nat.pow_lt_pow_iff_right (by decide)]
  omega

theorem exactSeconds_mono {len len' : Nat} (h : len ≤ len') (rate : Nat) :
    exactSeconds len rate ≤ exactSeconds len' rate := by
  unfold exactSeconds
  split
  · exact Nat.le_refl _
  · have hpow : 256 ^ len ≤ 256 ^ len' := Nat.pow_le_pow_right (by decide) h
    have hdiv : 256 ^ len / 2 / rate ≤ 256 ^ len' / 2 / rate :=
      Nat.div_le_div_right (Nat.div_le_div_right hpow)
    omega

theorem exactSeconds_anti {slow fast : Nat} (hslow : 0 < slow) (h : slow ≤ fast) (len : Nat) :
    exactSeconds len fast ≤ exactSeconds len slow := by
  have hdiv : 256 ^ len / 2 / fast ≤ 256 ^ len / 2 / slow := Nat.div_le_div_left h hslow
  rw [exactSeconds, exactSeconds, if_neg (by omega), if_neg (by omega)]
  omega

theorem exactSeconds_le {len : Nat} (h : len ≤ 7) (rate : Nat) :
    exactSeconds len rate ≤ u64Max := by
  have hpow := (difficulty_lt_iff len).mpr h
  have hhalf : 256 ^ len / 2 / rate ≤ 256 ^ len / 2 := Nat.div_le_self _ _
  unfold exactSeconds u64Max
  split <;> omega

-- ---------------------------------------------------------------------------
-- The computed estimates
-- ---------------------------------------------------------------------------

theorem u64Pow_of_lt {base : UInt64} {exponent : Nat} (h : base.toNat ^ exponent < 2 ^ 64)
    (build : Build) :
    ∃ power, u64Pow build base exponent = .ok power ∧
      power.toNat = base.toNat ^ exponent := by
  refine ⟨.ofNat (base.toNat ^ exponent), ?_, ?_⟩
  · unfold u64Pow
    exact if_pos h
  · rw [UInt64.toNat_ofNat']
    exact Nat.mod_eq_of_lt h

@[simp] theorem Duration.nanos_fromSecs (secs : UInt64) :
    (Duration.fromSecs secs).nanos = secs.toNat * 1000000000 := by
  rw [Duration.nanos]
  exact Nat.add_zero _

theorem toNat_max (a b : UInt64) : (max a b).toNat = max a.toNat b.toNat := by
  show (if a ≤ b then b else a).toNat = _
  split
  · next h =>
    have hle : a.toNat ≤ b.toNat := h
    omega
  · next h =>
    have hlt : ¬a.toNat ≤ b.toNat := h
    omega

namespace MiningConfig

/-- The difficulty is what it should be exactly when it fits. -/
theorem difficultyEstimate_exact_iff (build : Build) (config : MiningConfig) :
    (∃ d, config.difficultyEstimate build = .ok d ∧
      d.toNat = 256 ^ config.txIdPrefix.length) ↔ config.txIdPrefix.length ≤ 7 := by
  refine ⟨?_, ?_⟩
  · intro ⟨d, _, hd⟩
    have hword := d.toNat_lt
    rw [hd] at hword
    exact (difficulty_lt_iff _).mp hword
  · intro h
    have hlen : config.txIdPrefix.length ≤ u32Max := h.trans (by decide)
    rw [difficultyEstimate, if_pos hlen]
    exact u64Pow_of_lt ((difficulty_lt_iff _).mpr h) build

/-- Up to seven bytes the estimated time is exact. -/
theorem estimatedMiningTime_exact {config : MiningConfig} (h : config.txIdPrefix.length ≤ 7)
    (build : Build) (hashRate : UInt64) :
    ∃ t, config.estimatedMiningTime build hashRate = .ok t ∧
      t.nanos = exactSeconds config.txIdPrefix.length hashRate.toNat * 1000000000 := by
  by_cases hzero : hashRate = 0
  · refine ⟨.fromSecs (.ofNat u64Max), ?_, ?_⟩
    · rw [estimatedMiningTime, if_pos hzero]
    · have hrate : hashRate.toNat = 0 := congrArg UInt64.toNat hzero
      have hmax : (UInt64.ofNat u64Max).toNat = u64Max := by decide
      rw [Duration.nanos_fromSecs, exactSeconds, if_pos hrate, hmax]
  · obtain ⟨d, hd, hexact⟩ := (difficultyEstimate_exact_iff build config).mpr h
    have hrate : hashRate.toNat ≠ 0 := fun heq => hzero (UInt64.toNat_inj.mp heq)
    refine ⟨.fromSecs (max (d / 2 / hashRate) 1), ?_, ?_⟩
    · rw [estimatedMiningTime, if_neg hzero, hd]
      simp only [Outcome.ok_bind, Outcome.pure_eq, checkedDiv, if_neg hzero, Option.getD_some]
    · have hone : (1 : UInt64).toNat = 1 := by decide
      have htwo : (2 : UInt64).toNat = 2 := by decide
      rw [Duration.nanos_fromSecs, toNat_max, UInt64.toNat_div, UInt64.toNat_div, hexact,
        exactSeconds, if_neg hrate, hone, htwo]

/-- From eight bytes on the difficulty overflows, and all of it is cut off. -/
theorem difficultyEstimate_long {config : MiningConfig} (h : config.validate = .ok ())
    (hlong : 8 ≤ config.txIdPrefix.length) :
    config.difficultyEstimate .debug = .panicked ∧
      config.difficultyEstimate .release = .ok 0 := by
  have hbound := (length_of_validate h).2
  have hlen : config.txIdPrefix.length ≤ u32Max := hbound.trans (by decide)
  have hover : ¬(256 : UInt64).toNat ^ config.txIdPrefix.length < 2 ^ 64 := by
    rw [show (256 : UInt64).toNat = 256 from by decide, difficulty_lt_iff]
    omega
  have hcut : (256 : UInt64).toNat ^ config.txIdPrefix.length % 2 ^ 64 = 0 :=
    Nat.mod_eq_zero_of_dvd (Nat.pow_dvd_pow 256 hlong)
  refine ⟨?_, ?_⟩
  · rw [difficultyEstimate, if_pos hlen]
    unfold u64Pow
    rw [if_neg hover]
  · rw [difficultyEstimate, if_pos hlen]
    unfold u64Pow
    rw [if_neg hover, hcut]
    rfl

/-- **A long prefix** panics in a debug build, and is estimated at one second in a release
build, whatever the hash rate. -/
theorem estimatedMiningTime_long {config : MiningConfig} (h : config.validate = .ok ())
    (hlong : 8 ≤ config.txIdPrefix.length) {hashRate : UInt64} (hrate : hashRate ≠ 0) :
    config.estimatedMiningTime .debug hashRate = .panicked ∧
      config.estimatedMiningTime .release hashRate = .ok (.fromSecs 1) := by
  obtain ⟨hdebug, hrelease⟩ := difficultyEstimate_long h hlong
  refine ⟨?_, ?_⟩
  · rw [estimatedMiningTime, if_neg hrate, hdebug]
    rfl
  · have hzero : max ((0 : UInt64) / 2 / hashRate) 1 = 1 := by
      apply UInt64.toNat_inj.mp
      rw [toNat_max, UInt64.toNat_div, UInt64.toNat_div]
      simp
    rw [estimatedMiningTime, if_neg hrate, hrelease]
    simp only [Outcome.ok_bind, Outcome.pure_eq, checkedDiv, if_neg hrate, Option.getD_some,
      hzero]

end MiningConfig

-- ---------------------------------------------------------------------------
-- Sound estimates
-- ---------------------------------------------------------------------------

/-- The estimates complete without overflow for every hash rate, and the estimated time does
not fall with the length of the prefix nor rise with the hash rate, zero being the lowest
rate. -/
structure EstimatesSoundly (build : Build) (config : MiningConfig) : Prop where
  difficulty : ∃ d, config.difficultyEstimate build = .ok d ∧
    d.toNat = 256 ^ config.txIdPrefix.length
  time : ∀ rate, ∃ t, config.estimatedMiningTime build rate = .ok t ∧
    t.nanos = exactSeconds config.txIdPrefix.length rate.toNat * 1000000000
  longer : ∀ shorter : MiningConfig, shorter.validate = .ok () →
    shorter.txIdPrefix.length ≤ config.txIdPrefix.length →
    ∀ rate, ∃ s t, shorter.estimatedMiningTime build rate = .ok s ∧
      config.estimatedMiningTime build rate = .ok t ∧ s.nanos ≤ t.nanos
  faster : ∀ slow fast, slow ≠ 0 → slow ≤ fast →
    ∃ s t, config.estimatedMiningTime build slow = .ok s ∧
      config.estimatedMiningTime build fast = .ok t ∧ t.nanos ≤ s.nanos
  slowest : ∀ rate, ∃ s t, config.estimatedMiningTime build 0 = .ok s ∧
    config.estimatedMiningTime build rate = .ok t ∧ t.nanos ≤ s.nanos

/-- **Sound estimates.** In either build, the estimates of a configuration are sound if and
only if its prefix has at most seven bytes; validation admits prefixes of up to 32. -/
theorem estimatesSoundly_iff (build : Build) (config : MiningConfig) :
    EstimatesSoundly build config ↔ config.txIdPrefix.length ≤ 7 := by
  refine ⟨?_, ?_⟩
  · intro h
    exact (MiningConfig.difficultyEstimate_exact_iff build config).mp h.difficulty
  · intro h
    have hexact := MiningConfig.estimatedMiningTime_exact h build
    refine ⟨(MiningConfig.difficultyEstimate_exact_iff build config).mpr h, hexact,
      ?_, ?_, ?_⟩
    · intro shorter _ hle rate
      obtain ⟨s, hs, hsnanos⟩ :=
        MiningConfig.estimatedMiningTime_exact (hle.trans h) build rate
      obtain ⟨t, ht, htnanos⟩ := hexact rate
      refine ⟨s, t, hs, ht, ?_⟩
      rw [hsnanos, htnanos]
      exact Nat.mul_le_mul_right _ (exactSeconds_mono hle _)
    · intro slow fast hslow hle
      obtain ⟨s, hs, hsnanos⟩ := hexact slow
      obtain ⟨t, ht, htnanos⟩ := hexact fast
      have hpos : 0 < slow.toNat :=
        Nat.pos_of_ne_zero fun heq => hslow (UInt64.toNat_inj.mp heq)
      refine ⟨s, t, hs, ht, ?_⟩
      rw [hsnanos, htnanos]
      exact Nat.mul_le_mul_right _ (exactSeconds_anti hpos hle _)
    · intro rate
      obtain ⟨s, hs, hsnanos⟩ := hexact 0
      obtain ⟨t, ht, htnanos⟩ := hexact rate
      have hzero : exactSeconds config.txIdPrefix.length (0 : UInt64).toNat = u64Max := if_pos rfl
      refine ⟨s, t, hs, ht, ?_⟩
      rw [hsnanos, htnanos, hzero]
      exact Nat.mul_le_mul_right _ (exactSeconds_le h _)

/-- An accepted prefix of `count` zero bytes. -/
def zeroPrefix (count : Nat) : MiningConfig := ⟨List.replicate count 0, 10⟩

/-- Eight bytes are accepted. At one hash per second a debug build panics, and a release
build estimates one second, where it estimates 2^55 for seven bytes. -/
theorem estimatesSoundly_fails :
    (zeroPrefix 8).validate = .ok () ∧ (zeroPrefix 7).validate = .ok () ∧
    (zeroPrefix 8).estimatedMiningTime .debug 1 = .panicked ∧
    (zeroPrefix 8).estimatedMiningTime .release 1 = .ok (.fromSecs 1) ∧
    (∃ t, (zeroPrefix 7).estimatedMiningTime .release 1 = .ok t ∧
      t.nanos = 2 ^ 55 * 1000000000) ∧
    ∀ build, ¬ EstimatesSoundly build (zeroPrefix 8) := by
  have haccepted : (zeroPrefix 8).validate = .ok () := rfl
  have hlong : 8 ≤ (zeroPrefix 8).txIdPrefix.length := by decide
  have hshort : (zeroPrefix 7).txIdPrefix.length ≤ 7 := by decide
  have hrate : (1 : UInt64) ≠ 0 := by decide
  obtain ⟨hdebug, hrelease⟩ := MiningConfig.estimatedMiningTime_long haccepted hlong hrate
  refine ⟨haccepted, rfl, hdebug, hrelease, ?_, ?_⟩
  · obtain ⟨t, ht, hnanos⟩ := MiningConfig.estimatedMiningTime_exact hshort .release 1
    exact ⟨t, ht, hnanos⟩
  · intro build h
    have hfits := (MiningConfig.difficultyEstimate_exact_iff build (zeroPrefix 8)).mp h.difficulty
    exact absurd hfits (by decide)

end IgraRpc
