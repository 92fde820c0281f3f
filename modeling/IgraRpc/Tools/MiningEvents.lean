import IgraRpc.Services.MiningFrame
import IgraRpc.Services.MiningLog
import IgraRpc.Tools.Parser

/-!
# Mining runs as the reader counts them

* `counts_line` — **a record with a `mining_duration_ms` field is read as a success**, whatever
  it reports, if nothing before the field names it;
* `two_le_length_of_ok`, `one_le_length_of_err` — a successful run is counted at least twice,
  and a failed one at least once;
* `not_countsRun` — so no run is counted as it ended.
-/

namespace IgraRpc

open Lib Lib.Text

-- ---------------------------------------------------------------------------
-- What is to be counted
-- ---------------------------------------------------------------------------

/-- The duration of a mining success. -/
def ParsedEvent.miningMicros : ParsedEvent → Option Nat
  | .miningSuccess durationMicros => some durationMicros
  | _ => none

/-- The mining successes that are read from the lines. -/
def miningEvents (lib : ReaderLib) (lines : List (List Char)) : List Nat :=
  lines.filterMap fun line => (parseLine lib line).bind ParsedEvent.miningMicros

/-- The reading is within a millisecond of the duration. -/
def SameMillis (micros : Nat) (d : Duration) : Prop :=
  micros * 1000 < d.nanos + 1000000 ∧ d.nanos < micros * 1000 + 1000000

/-- A run that succeeded is read as one success of its duration, and any other run as none. -/
def CountsRun (lib : ReaderLib) (K : Consensus) (clock : MiningClock) (config : MiningConfig)
    (ending : MiningEnd) (passed : Bool) (transaction : SignableTransaction) : Prop :=
  match mineTransaction K config ending.run transaction with
  | .ok _ => ∃ micros,
      miningEvents lib (miningRunLines K clock config ending passed transaction) = [micros] ∧
        SameMillis micros clock.mined
  | _ => miningEvents lib (miningRunLines K clock config ending passed transaction) = []

-- ---------------------------------------------------------------------------
-- Records with the field
-- ---------------------------------------------------------------------------

/-- The key that makes a record a success. -/
def durationKey : List Char := "mining_duration_ms".toList

theorem durationKey_ne_nil : durationKey ≠ [] := by decide

theorem mul_thousand_finite {n : Nat} (hn : n < 2 ^ 80) :
    ∃ q, (F64.ofRat false n).mul (F64.ofRat false 1000) = .fin false q := by
  have hlarge : (n : ℚ) ≤ 2 ^ 80 := by exact_mod_cast hn.le
  have hthousand : F64.ofRat false 1000 = .fin false (1000 : ℚ) := by
    exact_mod_cast @F64.ofRat_natCast false 1000 (by decide)
  have hpow : (2 : ℚ) ^ 80 ≤ 2 ^ 1000 := pow_le_pow_right₀ (by norm_num) (by norm_num)
  have hbound : F64.nearest n * 1000 ≤ 2 ^ 1000 := by
    have hnearest : F64.nearest n ≤ 2 * 2 ^ 80 :=
      (F64.nearest_le n).trans
        (mul_le_mul_of_nonneg_left (max_le (by norm_num) hlarge) (by norm_num))
    calc F64.nearest n * 1000 ≤ 2 * 2 ^ 80 * 1000 :=
          mul_le_mul_of_nonneg_right hnearest (by norm_num)
      _ ≤ 2 ^ 100 := by norm_num
      _ ≤ 2 ^ 1000 := pow_le_pow_right₀ (by norm_num) (by norm_num)
  rw [F64.ofRat_of_le false (hlarge.trans hpow), hthousand]
  exact ⟨_, F64.ofRat_of_le _ hbound⟩

theorem positiveMicros_fin (q : ℚ) :
    positiveMicros (.fin false q) = some ((F64.fin false q).round.toNat maxMicros) :=
  if_pos (by simp [F64.round, F64.isSignNegative, F64.isFinite])

theorem contains_mining {line before after : List Char}
    (hcut : cut durationKey line = some (before, after)) :
    contains "mining_".toList line = true := by
  have hkey : durationKey = "mining_".toList ++ "duration_ms".toList := by decide
  rw [contains_eq_true, cut_some hcut, hkey, List.append_assoc]
  exact List.infix_append' before _ _

theorem isSeparator_of_isDigit {c : Char} (h : c.isDigit = true) : isSeparator c = false := by
  by_contra hsep
  simp only [isSeparator, Bool.or_eq_true, beq_iff_eq, Bool.not_eq_false] at hsep
  rcases hsep with (((rfl | rfl) | rfl) | rfl) | rfl <;> exact absurd h (by decide)

/-- The number of a field is what stands between its sign of equality and the next blank. -/
theorem number_of_field (n : Nat) (later : List (String × List Char)) :
    (('=' :: (natText n ++ fieldsText later)).dropWhile isSeparator).takeWhile isNumeric =
      natText n := by
  have hdigits : ∀ c ∈ natText n, c.isDigit = true := isDigit_toDigits n
  have hdrop : (natText n ++ fieldsText later).dropWhile isSeparator =
      natText n ++ fieldsText later := by
    obtain ⟨c, digits, hcons⟩ := List.exists_cons_of_ne_nil (natText_ne_nil n)
    rw [hcons] at hdigits ⊢
    have hc := isSeparator_of_isDigit (hdigits c List.mem_cons_self)
    rw [List.cons_append, List.dropWhile_cons_of_neg (by simp [hc])]
  rw [List.dropWhile_cons_of_pos (by decide), hdrop]
  refine takeWhile_append_fieldsText (by decide) (fun c hc => ?_) later
  rw [isNumeric, hdigits c hc, Bool.true_or]

theorem extractNumericAfterKey_of_cut {line key before : List Char} {n : Nat}
    {later : List (String × List Char)}
    (hcut : cut key line = some (before, '=' :: (natText n ++ fieldsText later))) :
    extractNumericAfterKey line key = some (F64.ofRat false n) := by
  have hparse : F64.parse (natText n) = some (F64.ofRat false n) := by
    rw [natText, F64.parse_digits Nat.toDigits_ne_nil (isDigit_toDigits n),
      Nat.ofDigitChars_ten_toDigits]
  have hne : (natText n).isEmpty = false := by simp [natText_ne_nil]
  rw [extractNumericAfterKey, hcut, Option.bind_some]
  simp only [number_of_field, hne, Bool.false_eq_true, if_false, hparse]

/-- The field's number is read, and is never negative or out of range. -/
theorem recordedMicros_of_cut {line before : List Char} {ms : Nat} (hms : ms < 2 ^ 80)
    {later : List (String × List Char)}
    (hcut : cut durationKey line = some (before, '=' :: (natText ms ++ fieldsText later))) :
    ∃ micros, recordedMicros line = some micros := by
  obtain ⟨q, hq⟩ := mul_thousand_finite hms
  have hextract : extractNumericAfterKey line "mining_duration_ms".toList =
      some (F64.ofRat false ms) := extractNumericAfterKey_of_cut hcut
  refine ⟨(F64.fin false q).round.toNat maxMicros, ?_⟩
  simp only [recordedMicros, contains_mining hcut, if_true, hextract, hq, positiveMicros_fin]

theorem parseLine_of_recordedMicros (lib : ReaderLib) {line : List Char} {micros : Nat}
    (h : recordedMicros line = some micros) :
    parseLine lib line = some (.miningSuccess micros) := by
  rw [parseLine, parseMiningSuccess, h]
  rfl

/-- The line is read as a mining success. -/
def Counts (lib : ReaderLib) (line : List Char) : Prop :=
  ∃ micros, parseLine lib line = some (.miningSuccess micros)

/-- **Such a record counts.** -/
theorem counts_line (lib : ReaderLib) {record : LogRecord} {ms : Nat} (hms : ms < 2 ^ 80)
    {earlier later : List (String × List Char)}
    (hfields : record.fields = earlier ++ ("mining_duration_ms", natText ms) :: later)
    (hmessage : contains durationKey record.message.toList = false)
    (hearlier : ∀ field ∈ earlier, contains durationKey field.1.toList = false ∧
      contains durationKey field.2 = false) : Counts lib record.line := by
  obtain ⟨before, hcut⟩ := LogRecord.cut_line (by decide) (by decide) durationKey_ne_nil hfields
    hmessage hearlier
  obtain ⟨micros, hmicros⟩ := recordedMicros_of_cut hms hcut
  exact ⟨micros, parseLine_of_recordedMicros lib hmicros⟩

-- ---------------------------------------------------------------------------
-- The records of the miner
-- ---------------------------------------------------------------------------

theorem contains_natText (n : Nat) : contains durationKey (natText n) = false :=
  contains_of_notMem 'm' (by decide) (notMem_natText (by decide) n)

theorem minedRecord_counts (lib : ReaderLib) (clock : MiningClock) (nonce : Nat)
    (tx : SignableTransaction) : Counts lib (minedRecord clock nonce tx).line := by
  refine @counts_line lib (minedRecord clock nonce tx) _ clock.mined.asMillis_lt
    ((minedRecord clock nonce tx).fields.take 3) _ rfl ?_ ?_
  · show contains durationKey "Successfully mined transaction".toList = false
    decide
  intro field hfield
  simp only [minedRecord, List.take_succ_cons, List.take_zero, List.mem_cons,
    List.not_mem_nil, or_false] at hfield
  rcases hfield with rfl | rfl | rfl
  · decide
  · decide
  · exact ⟨by dsimp only; decide, contains_natText nonce⟩

theorem completeRecord_counts (lib : ReaderLib) (clock : MiningClock) (stats : MiningStats) :
    Counts lib (completeRecord clock stats).line := by
  refine @counts_line lib (completeRecord clock stats) _ clock.mined.asMillis_lt
    ((completeRecord clock stats).fields.take 4) _ rfl ?_ ?_
  · show contains durationKey "Mining completed successfully".toList = false
    decide
  intro field hfield
  simp only [completeRecord, List.take_succ_cons, List.take_zero, List.mem_cons,
    List.not_mem_nil, or_false] at hfield
  rcases hfield with rfl | rfl | rfl | rfl
  · decide
  · decide
  · decide
  · exact ⟨by dsimp only; decide, contains_natText _⟩

theorem timeoutRecord_counts (lib : ReaderLib) (clock : MiningClock) (timeoutSeconds : Nat)
    (id : TransactionId) : Counts lib (timeoutRecord clock timeoutSeconds id).line := by
  refine @counts_line lib (timeoutRecord clock timeoutSeconds id) _ clock.ended.asMillis_lt
    ((timeoutRecord clock timeoutSeconds id).fields.take 4) _ rfl ?_ ?_
  · show contains durationKey "Mining operation timed out".toList = false
    decide
  intro field hfield
  simp only [timeoutRecord, List.take_succ_cons, List.take_zero, List.mem_cons,
    List.not_mem_nil, or_false] at hfield
  rcases hfield with rfl | rfl | rfl | rfl
  · decide
  · decide
  · decide
  · exact ⟨by dsimp only; decide, contains_natText _⟩

/-- An error record counts if the error's text does not name the field. -/
theorem errorRecord_counts (lib : ReaderLib) (clock : MiningClock) {err : AppError}
    (id : TransactionId) (herr : contains durationKey err.display.toList = false) :
    Counts lib (errorRecord clock err id).line := by
  refine @counts_line lib (errorRecord clock err id) _ clock.ended.asMillis_lt
    ((errorRecord clock err id).fields.take 5) _ rfl ?_ ?_
  · show contains durationKey "Mining operation failed".toList = false
    decide
  intro field hfield
  simp only [errorRecord, List.take_succ_cons, List.take_zero, List.mem_cons,
    List.not_mem_nil, or_false] at hfield
  rcases hfield with rfl | rfl | rfl | rfl | rfl
  · decide
  · decide
  · decide
  · exact ⟨by dsimp only; decide, herr⟩
  · refine ⟨by dsimp only; decide, ?_⟩
    unfold classifyError
    split <;> decide

theorem contains_exhaustion (n : Nat) :
    contains durationKey (AppError.nonceExhaustion n).display.toList = false := by
  have htext : (AppError.nonceExhaustion n).display.toList =
      "Mining nonce exhaustion after trying".toList ++ ' ' :: (natText n ++ " nonces".toList) := by
    have hfirst : "Mining nonce exhaustion after trying ".toList =
        "Mining nonce exhaustion after trying".toList ++ [' '] := by decide
    have hnumber : (toString n).toList = natText n := Nat.toList_repr
    show ("Mining nonce exhaustion after trying " ++ toString n ++ " nonces").toList = _
    rw [String.toList_append, String.toList_append, hnumber, hfirst, List.append_assoc,
      List.append_assoc]
    rfl
  have hrest : contains durationKey (natText n ++ " nonces".toList) = false := by
    refine contains_of_notMem 'm' (by decide) ?_
    rw [List.mem_append, not_or]
    exact ⟨notMem_natText (by decide) n, by decide⟩
  rw [htext, contains_append_cons (by decide) durationKey_ne_nil, hrest]
  decide

theorem contains_invalidState (error : JoinError) :
    contains durationKey (AppError.miningInvalidState
      s!"Mining task failed: {error.text}").display.toList = false := by
  have htext : (AppError.miningInvalidState
      s!"Mining task failed: {error.text}").display.toList =
      "Mining invalid transaction state: Mining task failed:".toList ++
        ' ' :: error.text.toList := by
    have hfirst : "Mining invalid transaction state: ".toList ++ "Mining task failed: ".toList =
        "Mining invalid transaction state: Mining task failed:".toList ++ [' '] := by decide
    show ("Mining invalid transaction state: " ++ ("Mining task failed: " ++ error.text)).toList =
      _
    rw [String.toList_append, String.toList_append, ← List.append_assoc, hfirst,
      List.append_assoc]
    rfl
  have hplain : contains durationKey error.text.toList = false := error.plain
  rw [htext, contains_append_cons (by decide) durationKey_ne_nil, hplain]
  decide

/-- The errors of a run name no field. -/
theorem contains_display {K : Consensus} {config : MiningConfig} {ending : MiningEnd}
    {tx : SignableTransaction} {err : AppError}
    (h : mineTransaction K config ending.run tx = .err err) :
    (∃ timeoutSeconds, err = .miningTimeout timeoutSeconds) ∨
      contains durationKey err.display.toList = false := by
  cases ending with
  | finishes =>
    rw [MiningEnd.run, mineTransaction_finishes] at h
    obtain ⟨rfl, -⟩ := mineBlocking_eq_err_iff.mp h
    exact Or.inr (contains_exhaustion u32Max)
  | timesOut logged =>
    rw [MiningEnd.run, mineTransaction] at h
    exact Or.inl ⟨_, (Outcome.err.inj h).symm⟩
  | taskFails error =>
    rw [MiningEnd.run, mineTransaction] at h
    rw [← Outcome.err.inj h]
    exact Or.inr (contains_invalidState error)

-- ---------------------------------------------------------------------------
-- Runs
-- ---------------------------------------------------------------------------

theorem miningEvents_append (lib : ReaderLib) (lines lines' : List (List Char)) :
    miningEvents lib (lines ++ lines') = miningEvents lib lines ++ miningEvents lib lines' :=
  List.filterMap_append

theorem one_le_length_of_mem {lib : ReaderLib} {lines : List (List Char)} {line : List Char}
    (hmem : line ∈ lines) (h : Counts lib line) : 1 ≤ (miningEvents lib lines).length := by
  obtain ⟨micros, hmicros⟩ := h
  have hin : micros ∈ miningEvents lib lines :=
    List.mem_filterMap.mpr ⟨line, hmem, by rw [hmicros]; rfl⟩
  exact List.length_pos_of_mem hin

variable {K : Consensus} {config : MiningConfig} {ending : MiningEnd} {tx : SignableTransaction}

/-- **A successful run is counted twice**: by the miner's task, and by the miner. -/
theorem two_le_length_of_ok (lib : ReaderLib) (clock : MiningClock) (passed : Bool)
    {t : SignableTransaction} {stats : MiningStats}
    (h : mineTransaction K config ending.run tx = .ok (t, stats)) :
    2 ≤ (miningEvents lib (miningRunLines K clock config ending passed tx)).length := by
  have hmined : minedRecord clock stats.noncesTried t ∈ taskRecords K clock config tx ending := by
    have hblocking := mineTransaction_eq_ok h
    cases ending with
    | finishes =>
      exact List.mem_append_left _ (List.mem_cons_of_mem _ (minedRecord_mem hblocking))
    | timesOut logged => exact absurd h (by simp [MiningEnd.run, mineTransaction])
    | taskFails error => exact absurd h (by simp [MiningEnd.run, mineTransaction])
  have htask : 1 ≤ (miningEvents lib ((startRecords clock config tx ++
      taskRecords K clock config tx ending).map LogRecord.line)).length :=
    one_le_length_of_mem (List.mem_map_of_mem (List.mem_append_right _ hmined))
      (minedRecord_counts lib clock _ t)
  have hcomplete : 1 ≤ (miningEvents lib
      ((logMiningSuccess clock stats).map LogRecord.line)).length :=
    one_le_length_of_mem (List.mem_map_of_mem List.mem_cons_self)
      (completeRecord_counts lib clock stats)
  simp only [miningRunLines, mineTransactionLog, h, logAndRecordResult]
  rw [List.map_append, miningEvents_append, miningEvents_append, List.length_append,
    List.length_append]
  omega

/-- **A failed run is counted**: by the record of its failure. -/
theorem one_le_length_of_err (lib : ReaderLib) (clock : MiningClock) (passed : Bool)
    {err : AppError} (h : mineTransaction K config ending.run tx = .err err) :
    1 ≤ (miningEvents lib (miningRunLines K clock config ending passed tx)).length := by
  have hfailure : ∃ record ∈ logMiningError clock err tx.tx.id, Counts lib record.line := by
    by_cases htimeout : ∃ timeoutSeconds, err = .miningTimeout timeoutSeconds
    · obtain ⟨timeoutSeconds, rfl⟩ := htimeout
      exact ⟨_, List.mem_cons_self, timeoutRecord_counts lib clock timeoutSeconds _⟩
    · have hplain := (contains_display h).resolve_left htimeout
      refine ⟨errorRecord clock err tx.tx.id, ?_, errorRecord_counts lib clock _ hplain⟩
      unfold logMiningError
      split
      · next timeoutSeconds => exact absurd ⟨timeoutSeconds, rfl⟩ htimeout
      · exact List.mem_cons_self
  obtain ⟨record, hmem, hcounts⟩ := hfailure
  refine one_le_length_of_mem (List.mem_append_left _ (List.mem_map_of_mem ?_)) hcounts
  rw [mineTransactionLog, h]
  exact List.mem_append_right _ hmem

/-- **No run is counted as it ended.** -/
theorem not_countsRun (lib : ReaderLib) (K : Consensus) (clock : MiningClock)
    (config : MiningConfig) (ending : MiningEnd) (passed : Bool)
    (transaction : SignableTransaction) :
    ¬ CountsRun lib K clock config ending passed transaction := by
  unfold CountsRun
  cases h : mineTransaction K config ending.run transaction with
  | ok found =>
    rintro ⟨micros, hevents, -⟩
    have htwo := two_le_length_of_ok lib clock passed h
    rw [hevents, List.length_singleton] at htwo
    omega
  | err err =>
    intro hevents
    have hone := one_le_length_of_err lib clock passed h
    rw [hevents, List.length_nil] at hone
    omega
  | panicked => exact absurd h (mineTransaction_ne_panicked config ending.run transaction)

/-- A clock by which everything takes a millisecond. -/
def millisecondClock : MiningClock where
  progress _ _ := ⟨0, 1000000, by decide⟩
  mined := ⟨0, 1000000, by decide⟩
  ended := ⟨0, 1000000, by decide⟩
  secondsText _ := "0.001".toList
  hashRateText _ _ := "0.0".toList
  hashRateShort _ _ := "0.00".toList
  remainingText _ _ := none
  timestamp := "2025-01-01T00:00:00+00:00".toList

/-- A run that finds its prefix with the first nonce. -/
theorem countsRun_fails :
    ¬ CountsRun ⟨fun _ => none, Char.isDigit, by decide⟩ thresholdConsensus millisecondClock
      ⟨[0xff], 30⟩ .finishes true entryTransaction :=
  not_countsRun _ _ _ _ _ _ _

end IgraRpc
