import IgraRpc.Tools.FixedMinHeap
import IgraRpc.Tools.Parser
import IgraRpc.Tools.SlidingWindow

/-!
# Totals since the start — `tools/tx_perf/metrics.rs`

The rest of `CumulativeMetrics`: errors, capacities and the mining histogram beside the
successes of `Tools.Metrics`, and what an event of the log does to each.

* `CumulativeTotals.apply` — an event, as the analyzer's loop records it;
* `parseLine_bounded` — **every number the parser reads fits into 64 bits**, so that nothing
  is cut off when it is recorded;
* `summarize_totals` — **counts, slowest calls and capacities are those of all events**, and
  the statistics are those of the latencies since the histogram was last replaced.
-/

namespace IgraRpc

open Lib Lib.Text

-- ---------------------------------------------------------------------------
-- The code
-- ---------------------------------------------------------------------------

/-- `CumulativeMetrics` with all of its fields. -/
structure CumulativeTotals where
  rpc : CumulativeMetrics
  errors : Nat
  capacityMin : Option Nat
  capacitySum : Nat
  capacityCount : Nat
  startedAt : Nat
  miningHist : Option Histogram
  miningSuccesses : Nat

/-- `CumulativeSummary` with all of its fields. -/
structure CumulativeReport where
  rpc : CumulativeSummary
  errors : Nat
  tps : F64
  capacityMin : Option Nat
  capacityAvg : Option Nat
  elapsedSecs : Nat
  mining : Option (Nat × HistogramStats)

namespace CumulativeTotals

def new (hdr : Hdr) (topN startedAt : Nat) : CumulativeTotals where
  rpc := .new hdr topN
  errors := 0
  capacityMin := none
  capacitySum := 0
  capacityCount := 0
  startedAt := startedAt
  miningHist := none
  miningSuccesses := 0

def recordSuccess (hdr : Hdr) (self : CumulativeTotals) (item : SlowItem) : CumulativeTotals :=
  { self with rpc := self.rpc.recordSuccess hdr item }

def recordError (self : CumulativeTotals) : CumulativeTotals :=
  { self with errors := min (self.errors + 1) maxCount }

def recordCapacity (self : CumulativeTotals) (capacity : UInt64) : CumulativeTotals :=
  { self with
    capacityMin := some (match self.capacityMin with
      | some m => min m capacity.toNat
      | none => capacity.toNat)
    capacitySum := min (self.capacitySum + capacity.toNat) maxU128
    capacityCount := min (self.capacityCount + 1) maxCount }

/-- The histogram that a first mining success makes. -/
def newMiningHist (hdr : Hdr) : Histogram :=
  (hdr.newWithMax 60000000).getD ⟨hdr.bound 100000, []⟩

def recordMiningSuccess (hdr : Hdr) (self : CumulativeTotals) (durationMicros : UInt64) :
    CumulativeTotals :=
  { self with
    miningHist := some (recordOrReplace hdr (self.miningHist.getD (newMiningHist hdr))
      durationMicros.toNat)
    miningSuccesses := min (self.miningSuccesses + 1) maxCount }

/-- `summarize`; a second has 10^9 nanoseconds. -/
def summarize (hdr : Hdr) (self : CumulativeTotals) (now : Nat) : Option CumulativeReport :=
  (self.rpc.summarize hdr).map fun rpc => {
    rpc
    errors := self.errors
    tps := throughput rpc.p50
    capacityMin := self.capacityMin
    capacityAvg := if self.capacityCount = 0 then none
      else some (self.capacitySum / self.capacityCount % 2 ^ 64)
    elapsedSecs := (now - self.startedAt) / 1000000000
    mining := self.miningHist.map fun mhist => (self.miningSuccesses, mhist.stats hdr) }

/-- What an event of the log is recorded as. -/
def apply (hdr : Hdr) (self : CumulativeTotals) : ParsedEvent → CumulativeTotals
  | .miningSuccess durationMicros => self.recordMiningSuccess hdr (.ofNat durationMicros)
  | .rpcSuccess id hash latencyMicros => self.recordSuccess hdr
      ⟨.ofNat latencyMicros, some (String.ofList id), some (String.ofList hash)⟩
  | .processorError .. => self.recordError
  | .walletError .. => self.recordError
  | .capacity free => self.recordCapacity (.ofNat free)
  | .walletOkTime .. => self
  | .processorOkTime .. => self

end CumulativeTotals

-- ---------------------------------------------------------------------------
-- What the parser reads
-- ---------------------------------------------------------------------------

/-- The number of the event fits into 64 bits. -/
def ParsedEvent.Bounded : ParsedEvent → Prop
  | miningSuccess durationMicros => durationMicros < 2 ^ 64
  | rpcSuccess _ _ latencyMicros => latencyMicros < 2 ^ 64
  | capacity free => free < 2 ^ 64
  | walletOkTime _ sendMicros => sendMicros < 2 ^ 64
  | processorOkTime _ _ timeMicros => timeMicros < 2 ^ 64
  | processorError .. => True
  | walletError .. => True

theorem toNat_le (bound : Nat) (x : F64) : x.toNat bound ≤ bound := by
  cases x with
  | nan => exact Nat.zero_le _
  | inf negative =>
    rw [F64.toNat]
    split <;> omega
  | fin negative q =>
    rw [F64.toNat]
    split
    · exact Nat.zero_le _
    · exact Nat.min_le_right _ _

theorem positiveMicros_lt {micros : F64} {n : Nat} (h : positiveMicros micros = some n) :
    n < 2 ^ 64 := by
  rw [positiveMicros] at h
  split at h
  · have hle := toNat_le maxMicros micros.round
    rw [Option.some.inj h, maxMicros] at hle
    omega
  · exact absurd h (by simp)

theorem parseDurationMicros_lt {humantime : Humantime} {input : List Char} {n : Nat}
    (h : parseDurationMicros humantime input = some n) : n < 2 ^ 64 := by
  rw [parseDurationMicros] at h
  split at h
  · exact absurd h (by simp)
  · split at h
    · obtain ⟨value, -, hround⟩ := Option.bind_eq_some_iff.mp h
      rw [roundedMicros] at hround
      split at hround
      · exact absurd hround (by simp)
      · split at hround
        · exact absurd hround (by simp)
        · simp only at hround
          split at hround
          · exact absurd hround (by simp)
          · next hle =>
            rw [Option.some.inj hround, maxMicros] at hle
            omega
    · obtain ⟨d, -, hmicros⟩ := Option.bind_eq_some_iff.mp h
      have hle := Nat.min_le_right
        (min (d.secs.toNat * 1000000) maxMicros + d.subsecNanos / 1000) maxMicros
      rw [← Option.some.inj hmicros]
      rw [maxMicros] at hle ⊢
      omega

theorem lineTime_lt {lib : ReaderLib} {line key : List Char} {n : Nat}
    (h : lineTime lib line key = some n) : n < 2 ^ 64 := by
  obtain ⟨text, -, hparse⟩ := Option.bind_eq_some_iff.mp h
  exact parseDurationMicros_lt hparse

theorem parseU64_lt {text : List Char} {n : Nat} (h : parseU64 text = some n) : n < 2 ^ 64 := by
  rw [parseU64] at h
  generalize (if text.head? = some '+' then text.tail else text) = digits at h
  split at h
  · next hdigits =>
    rw [← Option.some.inj h]
    exact hdigits.2.2
  · exact absurd h (by simp)

theorem extractCapacityValue_lt {line : List Char} {n : Nat}
    (h : extractCapacityValue line = some n) : n < 2 ^ 64 := by
  rcases Option.or_eq_some_iff.mp h with h | ⟨-, h⟩
  · obtain ⟨text, -, hparse⟩ := Option.bind_eq_some_iff.mp h
    exact parseU64_lt hparse
  · obtain ⟨text, -, hparse⟩ := Option.bind_eq_some_iff.mp h
    exact parseU64_lt hparse

theorem recordedMicros_lt {line : List Char} {n : Nat} (h : recordedMicros line = some n) :
    n < 2 ^ 64 := by
  rw [recordedMicros] at h
  split at h
  · split at h
    · exact positiveMicros_lt h
    · split at h
      · exact positiveMicros_lt h
      · exact absurd h (by simp)
  · exact absurd h (by simp)

/-- **Every number the parser reads fits into 64 bits.** -/
theorem parseLine_bounded {lib : ReaderLib} {line : List Char} {event : ParsedEvent}
    (h : parseLine lib line = some event) : event.Bounded := by
  rw [parseLine] at h
  rcases Option.or_eq_some_iff.mp h with h | ⟨-, h⟩
  · obtain ⟨micros, hmicros, rfl⟩ := Option.map_eq_some_iff.mp h
    rcases Option.or_eq_some_iff.mp hmicros with hmicros | ⟨-, hmicros⟩
    · exact recordedMicros_lt hmicros
    · obtain ⟨text, -, hparse⟩ := Option.bind_eq_some_iff.mp hmicros
      exact parseDurationMicros_lt hparse
  rcases Option.or_eq_some_iff.mp h with h | ⟨-, h⟩
  · obtain ⟨ids, -, htime⟩ := Option.bind_eq_some_iff.mp h
    obtain ⟨micros, hmicros, rfl⟩ := Option.map_eq_some_iff.mp htime
    exact lineTime_lt hmicros
  rcases Option.or_eq_some_iff.mp h with h | ⟨-, h⟩
  · obtain ⟨capacity, hcapacity, rfl⟩ := Option.map_eq_some_iff.mp h
    exact extractCapacityValue_lt hcapacity
  rcases Option.or_eq_some_iff.mp h with h | ⟨-, h⟩
  · rw [parseProcessorOk] at h
    split at h
    · exact absurd h (by simp)
    · obtain ⟨ids, -, htime⟩ := Option.bind_eq_some_iff.mp h
      obtain ⟨micros, hmicros, rfl⟩ := Option.map_eq_some_iff.mp htime
      exact lineTime_lt hmicros
  rcases Option.or_eq_some_iff.mp h with h | ⟨-, h⟩
  · rw [parseProcessorErr] at h
    split at h
    · exact absurd h (by simp)
    · obtain ⟨ids, -, herror⟩ := Option.bind_eq_some_iff.mp h
      obtain ⟨error, -, rfl⟩ := Option.map_eq_some_iff.mp herror
      exact trivial
  rcases Option.or_eq_some_iff.mp h with h | ⟨-, h⟩
  · rw [parseWalletOk] at h
    split at h
    · exact absurd h (by simp)
    · obtain ⟨hash, -, htime⟩ := Option.bind_eq_some_iff.mp h
      obtain ⟨micros, hmicros, rfl⟩ := Option.map_eq_some_iff.mp htime
      exact lineTime_lt hmicros
  · rw [parseWalletErr] at h
    split at h
    · exact absurd h (by simp)
    · obtain ⟨hash, -, herror⟩ := Option.bind_eq_some_iff.mp h
      obtain ⟨error, -, rfl⟩ := Option.map_eq_some_iff.mp herror
      exact trivial

-- ---------------------------------------------------------------------------
-- Events by kind
-- ---------------------------------------------------------------------------

namespace ParsedEvent

def slowItem? : ParsedEvent → Option SlowItem
  | rpcSuccess id hash latencyMicros =>
    some ⟨.ofNat latencyMicros, some (String.ofList id), some (String.ofList hash)⟩
  | _ => none

/-- The errors of the processor and of the wallet are counted alike. -/
def errorMessage? : ParsedEvent → Option String
  | processorError _ _ error => some (String.ofList error)
  | walletError _ error => some (String.ofList error)
  | _ => none

def capacity? : ParsedEvent → Option UInt64
  | capacity free => some (.ofNat free)
  | _ => none

def miningDuration? : ParsedEvent → Option UInt64
  | miningSuccess durationMicros => some (.ofNat durationMicros)
  | _ => none

end ParsedEvent

/-- The totals after a sequence of events. -/
def totalsOf (hdr : Hdr) (topN startedAt : Nat) (events : List ParsedEvent) : CumulativeTotals :=
  events.foldl (CumulativeTotals.apply hdr) (.new hdr topN startedAt)

section
variable (hdr : Hdr) (topN startedAt : Nat) (events : List ParsedEvent)

theorem totals_rpc : (totalsOf hdr topN startedAt events).rpc =
    recordAll hdr topN (events.filterMap ParsedEvent.slowItem?) :=
  foldl_component (CumulativeTotals.apply hdr) CumulativeTotals.rpc ParsedEvent.slowItem?
    (CumulativeMetrics.recordSuccess hdr) (fun _ e => by cases e <;> rfl) events _

theorem totals_errors : (totalsOf hdr topN startedAt events).errors =
    min (events.filterMap ParsedEvent.errorMessage?).length maxCount :=
  foldl_counter (CumulativeTotals.apply hdr) CumulativeTotals.errors ParsedEvent.errorMessage?
    maxCount (fun _ e => by cases e <;> rfl) events rfl

theorem totals_capacitySum : (totalsOf hdr topN startedAt events).capacitySum =
    capacitySum (events.filterMap ParsedEvent.capacity?) :=
  foldl_component (CumulativeTotals.apply hdr) CumulativeTotals.capacitySum
    ParsedEvent.capacity? (fun sum free => min (sum + free.toNat) maxU128)
    (fun _ e => by cases e <;> rfl) events _

theorem totals_capacityCount : (totalsOf hdr topN startedAt events).capacityCount =
    min (events.filterMap ParsedEvent.capacity?).length maxCount :=
  foldl_counter (CumulativeTotals.apply hdr) CumulativeTotals.capacityCount ParsedEvent.capacity?
    maxCount (fun _ e => by cases e <;> rfl) events rfl

/-- The minimum that is kept is that of all capacities. -/
theorem totals_capacityMin : (totalsOf hdr topN startedAt events).capacityMin =
    ((events.filterMap ParsedEvent.capacity?).map UInt64.toNat).min? := by
  have hleast := foldl_component (CumulativeTotals.apply hdr) CumulativeTotals.capacityMin
    ParsedEvent.capacity? (fun least free => some (match least with
      | some m => min m free.toNat
      | none => free.toNat))
    (fun _ e => by cases e <;> rfl) events (.new hdr topN startedAt)
  rw [totalsOf, hleast]
  have hrun : ∀ (capacities : List UInt64) (m : Nat),
      capacities.foldl (fun least free => some (match least with
        | some m => min m free.toNat
        | none => free.toNat)) (some m) = some ((capacities.map UInt64.toNat).foldl min m) := by
    intro capacities
    induction capacities with
    | nil =>
      intro m
      rfl
    | cons free rest ih =>
      intro m
      exact ih (min m free.toNat)
  cases events.filterMap ParsedEvent.capacity? with
  | nil => rfl
  | cons free rest =>
    rw [List.foldl_cons, List.map_cons, List.min?_cons']
    exact hrun rest free.toNat

theorem totals_miningSuccesses : (totalsOf hdr topN startedAt events).miningSuccesses =
    min (events.filterMap ParsedEvent.miningDuration?).length maxCount :=
  foldl_counter (CumulativeTotals.apply hdr) CumulativeTotals.miningSuccesses
    ParsedEvent.miningDuration? maxCount (fun _ e => by cases e <;> rfl) events rfl

/-- The durations of the mining successes. -/
def miningDurations (events : List ParsedEvent) : List Nat :=
  (events.filterMap ParsedEvent.miningDuration?).map UInt64.toNat

/-- The mining histogram is made for the first success, and then used like the other. -/
theorem totals_miningHist : (totalsOf hdr topN startedAt events).miningHist =
    if miningDurations events = [] then none else
      some (histAfter hdr (CumulativeTotals.newMiningHist hdr) (miningDurations events)) := by
  have hhist := foldl_component (CumulativeTotals.apply hdr) CumulativeTotals.miningHist
    ParsedEvent.miningDuration? (fun hist duration => some (recordOrReplace hdr
      (hist.getD (CumulativeTotals.newMiningHist hdr)) duration.toNat))
    (fun _ e => by cases e <;> rfl) events (.new hdr topN startedAt)
  rw [totalsOf, hhist, miningDurations]
  have hrun : ∀ (durations : List UInt64) (hist : Histogram),
      durations.foldl (fun hist duration => some (recordOrReplace hdr
        (hist.getD (CumulativeTotals.newMiningHist hdr)) duration.toNat)) (some hist) =
      some (histAfter hdr hist (durations.map UInt64.toNat)) := by
    intro durations
    induction durations with
    | nil =>
      intro hist
      rfl
    | cons duration rest ih =>
      intro hist
      exact ih (recordOrReplace hdr hist duration.toNat)
  cases events.filterMap ParsedEvent.miningDuration? with
  | nil => rfl
  | cons duration rest =>
    rw [List.foldl_cons, List.map_cons, if_neg (List.cons_ne_nil _ _)]
    exact hrun rest _

end

-- ---------------------------------------------------------------------------
-- Histograms that are replaced
-- ---------------------------------------------------------------------------

/-- **What a histogram holds is a last part of what was recorded**: all since the value for
which it was made, or since the start. -/
theorem histAfter_lastPart (hdr : Hdr) {hist : Histogram} (hempty : hist.samples = [])
    {values : List Nat} (hvalues : ∀ v ∈ values, v ≤ maxCount) :
    ∃ earlier later, values = earlier ++ later ∧ (values ≠ [] → later ≠ []) ∧
      (histAfter hdr hist values).samples = later.reverse := by
  induction values using List.reverseRecOn with
  | nil => exact ⟨[], [], rfl, fun h => h, hempty⟩
  | append_singleton values v ih =>
    have hv : v ≤ maxCount := hvalues v (List.mem_append_right _ (List.mem_singleton_self v))
    obtain ⟨earlier, later, hsplit, -, hsamples⟩ :=
      ih fun w hw => hvalues w (List.mem_append_left _ hw)
    have hstep : histAfter hdr hist (values ++ [v]) =
        recordOrReplace hdr (histAfter hdr hist values) v := List.foldl_append
    rw [hstep]
    by_cases hfits : v ≤ (histAfter hdr hist values).bound
    · refine ⟨earlier, later ++ [v], ?_, fun _ => by simp, ?_⟩
      · rw [hsplit, List.append_assoc]
      · rw [recordOrReplace_of_le hdr hfits, hsamples, List.reverse_append, List.reverse_singleton,
          List.singleton_append]
    · refine ⟨values, [v], rfl, fun _ => by simp, ?_⟩
      rw [recordOrReplace_of_gt hdr (Nat.not_le.mp hfits) hv]
      rfl

-- ---------------------------------------------------------------------------
-- Reports
-- ---------------------------------------------------------------------------

def CumulativeSummary.stats (summary : CumulativeSummary) : HistogramStats where
  p10 := summary.p10
  p25 := summary.p25
  p50 := summary.p50
  p90 := summary.p90
  p95 := summary.p95
  p99 := summary.p99
  min := summary.min
  max := summary.max
  mean := summary.mean

/-- The statistics are those of a last part of the values, which is not empty. -/
def StatsOfLastPart (hdr : Hdr) (values : List Nat) (stats : HistogramStats) : Prop :=
  ∃ earlier later, values = earlier ++ later ∧ later ≠ [] ∧ stats = statsOf hdr later

/-- The successes among the events. -/
def successesOf (events : List ParsedEvent) : List SlowItem :=
  events.filterMap ParsedEvent.slowItem?

/-- The report counts all events, and has the slowest calls and the capacities of all; its
statistics are those of a last part of the values. -/
structure CumulativeReport.Describes (hdr : Hdr) (topN : Nat) (events : List ParsedEvent)
    (report : CumulativeReport) : Prop where
  success : report.rpc.success = min (successesOf events).length maxCount
  errors : report.errors = min (events.filterMap ParsedEvent.errorMessage?).length maxCount
  slowest : latencies report.rpc.slowest =
    (descending (latencies (successesOf events))).take topN
  rpc : StatsOfLastPart hdr (latencies (successesOf events)) report.rpc.stats
  tps : report.tps = throughput report.rpc.p50
  capacityMin : report.capacityMin =
    ((events.filterMap ParsedEvent.capacity?).map UInt64.toNat).min?
  capacityAvg : (events.filterMap ParsedEvent.capacity?).length ≤ maxCount →
    report.capacityAvg = if events.filterMap ParsedEvent.capacity? = [] then none else
      some (((events.filterMap ParsedEvent.capacity?).map UInt64.toNat).sum /
        (events.filterMap ParsedEvent.capacity?).length)
  mining : (miningDurations events = [] ∧ report.mining = none) ∨
    ∃ stats, StatsOfLastPart hdr (miningDurations events) stats ∧
      report.mining = some (min (miningDurations events).length maxCount, stats)

theorem samples_newHistogram (hdr : Hdr) :
    ((hdr.newWithMax 60000000).getD ⟨hdr.bound 100000, []⟩).samples = [] := rfl

theorem map_toNat_le_maxCount (numbers : List UInt64) :
    ∀ v ∈ numbers.map UInt64.toNat, v ≤ maxCount := by
  intro v hv
  obtain ⟨n, -, rfl⟩ := List.mem_map.mp hv
  exact Nat.le_of_lt_succ n.toNat_lt

theorem statsOfLastPart_histAfter (hdr : Hdr) {hist : Histogram} (hempty : hist.samples = [])
    {values : List Nat} (hvalues : ∀ v ∈ values, v ≤ maxCount) (hne : values ≠ []) :
    StatsOfLastPart hdr values ((histAfter hdr hist values).stats hdr) := by
  obtain ⟨earlier, later, hsplit, hlater, hsamples⟩ := histAfter_lastPart hdr hempty hvalues
  refine ⟨earlier, later, hsplit, hlater hne, ?_⟩
  simp only [statsOf, Histogram.stats, Histogram.min, Histogram.max, hsamples]

/-- The average of the capacities does not overflow. -/
theorem capacityAvg_eq {capacities : List UInt64} (hlength : capacities.length ≤ maxCount) :
    (if min capacities.length maxCount = 0 then none
      else some (capacitySum capacities / min capacities.length maxCount % 2 ^ 64)) =
      if capacities = [] then none else
        some ((capacities.map UInt64.toNat).sum / capacities.length) := by
  rw [Nat.min_eq_left hlength]
  by_cases hnil : capacities = []
  · rw [hnil]
    rfl
  · have hpos : 0 < capacities.length := List.length_pos_iff.mpr hnil
    have hsum := sum_le_length_mul capacities
    have hfits : (capacities.map UInt64.toNat).sum ≤ maxU128 := by
      refine hsum.trans ?_
      rw [maxCount] at hlength
      exact (Nat.mul_le_mul_right _ hlength).trans (by decide)
    have hmean : (capacities.map UInt64.toNat).sum / capacities.length < 2 ^ 64 := by
      rw [Nat.div_lt_iff_lt_mul hpos]
      omega
    rw [if_neg (Nat.ne_of_gt hpos), if_neg hnil, capacitySum_eq, Nat.min_eq_left hfits,
      Nat.mod_eq_of_lt hmean]

theorem summarize_recordAll (hdr : Hdr) (topN : Nat) (items : List SlowItem) :
    (items = [] ∧ (recordAll hdr topN items).summarize hdr = none) ∨
      items ≠ [] ∧ ∃ summary, (recordAll hdr topN items).summarize hdr = some summary ∧
        summary.success = min items.length maxCount ∧
        summary.stats = (recordAll hdr topN items).hist.stats hdr := by
  have hsuccesses := successes_recordAll hdr topN items
  rw [CumulativeMetrics.summarize]
  cases items with
  | nil => exact Or.inl ⟨rfl, rfl⟩
  | cons item rest =>
    have hpos : ¬ (recordAll hdr topN (item :: rest)).successes = 0 := by
      rw [hsuccesses, List.length_cons, maxCount]
      omega
    rw [if_neg hpos]
    exact Or.inr ⟨List.cons_ne_nil _ _, _, rfl, hsuccesses, rfl⟩

/-- **Counts, slowest calls and capacities are those of all events**; there is a report exactly
if a call succeeded. -/
theorem summarize_totals (hdr : Hdr) (topN startedAt : Nat) (events : List ParsedEvent)
    (now : Nat) :
    ((totalsOf hdr topN startedAt events).summarize hdr now = none ↔ successesOf events = []) ∧
      ∀ report, (totalsOf hdr topN startedAt events).summarize hdr now = some report →
        report.Describes hdr topN events := by
  rw [CumulativeTotals.summarize, totals_rpc]
  rcases summarize_recordAll hdr topN (successesOf events) with
    ⟨hnone, hsummary⟩ | ⟨hne, summary, hsummary, hsuccess, hstats⟩
  · rw [show recordAll hdr topN (events.filterMap ParsedEvent.slowItem?) =
      recordAll hdr topN (successesOf events) from rfl, hsummary]
    exact ⟨iff_of_true rfl hnone, fun report h => absurd h (by simp)⟩
  · rw [show recordAll hdr topN (events.filterMap ParsedEvent.slowItem?) =
      recordAll hdr topN (successesOf events) from rfl, hsummary]
    refine ⟨iff_of_false (by simp) hne, fun report h => ?_⟩
    obtain rfl := (Option.some.inj h).symm
    have hlatencies : latencies (successesOf events) ≠ [] := by
      rwa [latencies, Ne, List.map_eq_nil_iff]
    refine ⟨hsuccess, totals_errors .., ?_, ?_, rfl, totals_capacityMin .., ?_, ?_⟩
    · exact slowest_summarize hdr topN (successesOf events) hsummary
    · rw [hstats, recordAll, hist_foldl_recordSuccess]
      refine statsOfLastPart_histAfter hdr (samples_newHistogram hdr) ?_ hlatencies
      intro v hv
      obtain ⟨item, -, rfl⟩ := List.mem_map.mp hv
      exact Nat.le_of_lt_succ item.latencyMicros.toNat_lt
    · intro hlength
      rw [totals_capacityCount, totals_capacitySum]
      exact capacityAvg_eq hlength
    · rw [totals_miningHist, totals_miningSuccesses]
      by_cases hmining : miningDurations events = []
      · rw [if_pos hmining]
        exact Or.inl ⟨hmining, rfl⟩
      · refine Or.inr ⟨_, statsOfLastPart_histAfter hdr (samples_newHistogram hdr)
          (map_toNat_le_maxCount _) hmining, ?_⟩
        rw [if_neg hmining, miningDurations, List.length_map]
        rfl

end IgraRpc
