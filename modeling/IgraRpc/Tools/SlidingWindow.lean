import IgraRpc.Lib.Expiry
import IgraRpc.Lib.Tally
import IgraRpc.Tools.Metrics

/-!
# The sliding window — `tools/tx_perf/metrics.rs`

Four queues of samples, one for each kind of event. `purge_expired` takes old samples off
their fronts, and `summarize` makes histograms, averages and lists of what is left.

* `windowHistogram_eq` — the histogram of a window has room for all of its values;
* `summarize_describes` — **a summary is about all samples of its window**: the counts and
  statistics are theirs, the slowest are the slowest and the errors shown are those that no
  other error outnumbers, whatever order the map of the errors has.

Times are in nanoseconds. The statistics of the mining samples are ten optional fields in
the source, which are there together.
-/

namespace IgraRpc

open Lib

-- ---------------------------------------------------------------------------
-- The code
-- ---------------------------------------------------------------------------

structure RpcSample where
  time : Nat
  latencyMicros : UInt64
  id : Option String
  hash : Option String

structure MiningSample where
  time : Nat
  durationMicros : UInt64

structure ErrorSample where
  time : Nat
  message : String

structure CapacitySample where
  time : Nat
  capacity : UInt64

structure SlidingWindowMetrics where
  window : Nat
  rpcSamples : List RpcSample
  miningSamples : List MiningSample
  errorSamples : List ErrorSample
  capacitySamples : List CapacitySample

/-- The order in which `HashMap<&str, usize>` lists its entries. -/
structure MapOrder where
  list : List (String × Nat) → List (String × Nat)
  perm : ∀ table, (list table).Perm table

/-- The statistics of a histogram that the summaries show. -/
structure HistogramStats where
  p10 : Nat
  p25 : Nat
  p50 : Nat
  p90 : Nat
  p95 : Nat
  p99 : Nat
  min : Nat
  max : Nat
  mean : F64

structure WindowSummary where
  success : Nat
  errors : Nat
  rpc : HistogramStats
  tps : F64
  capacityMin : Option Nat
  capacityAvg : Option Nat
  topErrors : List (String × Nat)
  slowest : List (Option String × Option String × Nat)
  mining : Option (Nat × HistogramStats)

def Histogram.stats (hdr : Hdr) (hist : Histogram) : HistogramStats where
  p10 := hdr.valueAtPercent hist.samples 10
  p25 := hdr.valueAtPercent hist.samples 25
  p50 := hdr.valueAtPercent hist.samples 50
  p90 := hdr.valueAtPercent hist.samples 90
  p95 := hdr.valueAtPercent hist.samples 95
  p99 := hdr.valueAtPercent hist.samples 99
  min := hist.min hdr
  max := hist.max hdr
  mean := hdr.mean hist.samples

/-- `1_000_000.0 / p50`, zero for a median of zero. -/
def throughput (p50 : Nat) : F64 :=
  if p50 = 0 then .fin false 0 else .ofRat false (1000000 / F64.nearest p50)

/-- A histogram for the largest of the values, or 100 ms, with all values recorded. -/
def windowHistogram (hdr : Hdr) (values : List Nat) : Option Histogram :=
  let maxVal := values.foldl (fun maxVal v => if v > maxVal then v else maxVal) 100000
  (hdr.newWithMax (max maxVal 1)).map fun hist =>
    values.foldl (fun hist v => (hist.record v).getD hist) hist

/-- The largest 128-bit number. -/
def maxU128 : Nat := 2 ^ 128 - 1

/-- The sum of capacities, which saturates. -/
def capacitySum (capacities : List UInt64) : Nat :=
  capacities.foldl (fun sum c => min (sum + c.toNat) maxU128) 0

namespace SlidingWindowMetrics

def new (window : Nat) : SlidingWindowMetrics := ⟨window, [], [], [], []⟩

def addRpcSuccess (self : SlidingWindowMetrics) (sample : RpcSample) : SlidingWindowMetrics :=
  { self with rpcSamples := self.rpcSamples ++ [sample] }

def addMiningSuccess (self : SlidingWindowMetrics) (now : Nat) (durationMicros : UInt64) :
    SlidingWindowMetrics :=
  { self with miningSamples := self.miningSamples ++ [⟨now, durationMicros⟩] }

def addError (self : SlidingWindowMetrics) (now : Nat) (message : String) :
    SlidingWindowMetrics :=
  { self with errorSamples := self.errorSamples ++ [⟨now, message⟩] }

def addCapacity (self : SlidingWindowMetrics) (now : Nat) (capacity : UInt64) :
    SlidingWindowMetrics :=
  { self with capacitySamples := self.capacitySamples ++ [⟨now, capacity⟩] }

/-- `purge_expired`. -/
def purgeExpired (self : SlidingWindowMetrics) (now : Nat) : SlidingWindowMetrics where
  window := self.window
  rpcSamples := expire RpcSample.time self.window now self.rpcSamples
  miningSamples := expire MiningSample.time self.window now self.miningSamples
  errorSamples := expire ErrorSample.time self.window now self.errorSamples
  capacitySamples := expire CapacitySample.time self.window now self.capacitySamples

def latencies (self : SlidingWindowMetrics) : List Nat :=
  self.rpcSamples.map fun s => s.latencyMicros.toNat

def miningDurations (self : SlidingWindowMetrics) : List Nat :=
  self.miningSamples.map fun s => s.durationMicros.toNat

def capacities (self : SlidingWindowMetrics) : List UInt64 :=
  self.capacitySamples.map CapacitySample.capacity

def messages (self : SlidingWindowMetrics) : List String :=
  self.errorSamples.map ErrorSample.message

/-- A success as the summary shows it. -/
def shown (self : SlidingWindowMetrics) :
    List (Option String × Option String × Nat) :=
  self.rpcSamples.map fun s => (s.id, s.hash, s.latencyMicros.toNat)

/-- The mining part of the summary; its histogram can fail. -/
def miningStats (hdr : Hdr) (self : SlidingWindowMetrics) :
    Option (Option (Nat × HistogramStats)) :=
  if self.miningSamples.isEmpty then some none
  else
    (windowHistogram hdr self.miningDurations).map fun mhist =>
      some (self.miningSamples.length, mhist.stats hdr)

/-- Capacity minimum and average. -/
def capacityMinAvg (capacities : List UInt64) : Option Nat × Option Nat :=
  if capacities.isEmpty then (none, none)
  else
    (some (capacities.foldl
        (fun minVal c => if c.toNat < minVal then c.toNat else minVal) (2 ^ 64 - 1)),
      some (capacitySum capacities / capacities.length % 2 ^ 64))

/-- Top errors by frequency. -/
def topErrors (order : MapOrder) (self : SlidingWindowMetrics) : List (String × Nat) :=
  ((order.list (tally self.messages)).mergeSort fun a b => b.2 ≤ a.2).take 5

/-- `summarize`. -/
def summarize (hdr : Hdr) (order : MapOrder) (self : SlidingWindowMetrics) (topSlowest : Nat) :
    Option WindowSummary :=
  if self.rpcSamples.isEmpty then none
  else do
    let hist ← windowHistogram hdr self.latencies
    let rpc := hist.stats hdr
    let mining ← self.miningStats hdr
    let (capacityMin, capacityAvg) := capacityMinAvg self.capacities
    return {
      success := self.rpcSamples.length
      errors := self.errorSamples.length
      rpc
      tps := throughput rpc.p50
      capacityMin
      capacityAvg
      topErrors := self.topErrors order
      slowest := (self.shown.mergeSort fun a b => b.2.2 ≤ a.2.2).take topSlowest
      mining }

end SlidingWindowMetrics

-- ---------------------------------------------------------------------------
-- Histograms
-- ---------------------------------------------------------------------------

/-- The statistics of a list of values, which do not depend on the histogram's bound. -/
def statsOf (hdr : Hdr) (values : List Nat) : HistogramStats :=
  Histogram.stats hdr ⟨0, values.reverse⟩

/-- Values below the bound are recorded one and all. -/
theorem foldl_record {values : List Nat} : ∀ {hist : Histogram}, (∀ v ∈ values, v ≤ hist.bound) →
    values.foldl (fun hist v => (hist.record v).getD hist) hist =
      ⟨hist.bound, values.reverse ++ hist.samples⟩ := by
  induction values with
  | nil =>
    intro hist _
    rfl
  | cons v rest ih =>
    intro hist hle
    have hrecord : (hist.record v).getD hist = ⟨hist.bound, v :: hist.samples⟩ := by
      rw [Histogram.record, if_pos (hle v List.mem_cons_self)]
      rfl
    have hrest : ∀ w ∈ rest, w ≤ hist.bound := fun w hw => hle w (List.mem_cons_of_mem v hw)
    rw [List.foldl_cons, hrecord, List.reverse_cons, List.append_assoc, List.singleton_append]
    exact ih hrest

/-- A running maximum is above its start and above all values. -/
theorem le_foldl_max {values : List Nat} : ∀ start : Nat,
    start ≤ values.foldl (fun maxVal v => if v > maxVal then v else maxVal) start ∧
      ∀ v ∈ values, v ≤ values.foldl (fun maxVal v => if v > maxVal then v else maxVal) start := by
  induction values with
  | nil =>
    intro start
    exact ⟨Nat.le_refl _, fun v hv => absurd hv List.not_mem_nil⟩
  | cons w rest ih =>
    intro start
    have hnext : start ≤ (if w > start then w else start) ∧ w ≤ if w > start then w else start := by
      split <;> omega
    rw [List.foldl_cons]
    generalize (if w > start then w else start) = next at hnext ⊢
    obtain ⟨hstart, hrest⟩ := ih next
    refine ⟨hnext.1.trans hstart, ?_⟩
    intro v hv
    rcases List.mem_cons.mp hv with rfl | hv
    · exact hnext.2.trans hstart
    · exact hrest v hv

/-- **The histogram of a window has room for all of its values.** -/
theorem windowHistogram_eq (hdr : Hdr) (values : List Nat) :
    ∃ bound, windowHistogram hdr values = some ⟨bound, values.reverse⟩ := by
  obtain ⟨hstart, hall⟩ := le_foldl_max 100000
  rw [windowHistogram]
  generalize values.foldl (fun maxVal v => if v > maxVal then v else maxVal) 100000 = maxVal at *
  have hbound := hdr.le_bound (max maxVal 1)
  refine ⟨hdr.bound (max maxVal 1), ?_⟩
  rw [Hdr.newWithMax, if_neg (by omega), Option.map_some]
  rw [foldl_record fun v hv => (hall v hv).trans ((Nat.le_max_left maxVal 1).trans hbound),
    List.append_nil]

-- ---------------------------------------------------------------------------
-- Capacities
-- ---------------------------------------------------------------------------

/-- A saturating sum is the sum or the largest number. -/
theorem foldl_saturating (capacities : List UInt64) : ∀ start : Nat,
    capacities.foldl (fun sum c => min (sum + c.toNat) maxU128) (min start maxU128) =
      min (start + (capacities.map UInt64.toNat).sum) maxU128 := by
  induction capacities with
  | nil =>
    intro start
    rfl
  | cons c rest ih =>
    intro start
    have hstep : min (min start maxU128 + c.toNat) maxU128 = min (start + c.toNat) maxU128 := by
      omega
    rw [List.foldl_cons, hstep, ih (start + c.toNat), List.map_cons, List.sum_cons,
      Nat.add_assoc]

theorem capacitySum_eq (capacities : List UInt64) :
    capacitySum capacities = min (capacities.map UInt64.toNat).sum maxU128 := by
  have h := foldl_saturating capacities 0
  rwa [Nat.zero_add] at h

theorem sum_le_length_mul (capacities : List UInt64) :
    (capacities.map UInt64.toNat).sum ≤ capacities.length * (2 ^ 64 - 1) := by
  induction capacities with
  | nil => exact Nat.zero_le _
  | cons c rest ih =>
    have hc := c.toNat_lt
    rw [List.map_cons, List.sum_cons, List.length_cons, Nat.succ_mul]
    omega

/-- A running minimum, from the largest value on, is the minimum. -/
theorem foldl_min_eq {capacities : List UInt64} (hne : capacities ≠ []) :
    (capacities.map UInt64.toNat).min? =
      some (capacities.foldl
        (fun minVal c => if c.toNat < minVal then c.toNat else minVal) (2 ^ 64 - 1)) := by
  have hrun : ∀ (rest : List UInt64) (start : Nat),
      rest.foldl (fun minVal c => if c.toNat < minVal then c.toNat else minVal) start =
        (rest.map UInt64.toNat).foldl min start := by
    intro rest
    induction rest with
    | nil =>
      intro start
      rfl
    | cons c rest ih =>
      intro start
      have hstep : (if c.toNat < start then c.toNat else start) = min start c.toNat := by
        split <;> omega
      rw [List.foldl_cons, hstep, ih, List.map_cons, List.foldl_cons]
  obtain ⟨c, rest, rfl⟩ := List.exists_cons_of_ne_nil hne
  have hc := c.toNat_lt
  rw [hrun, List.map_cons, List.foldl_cons, List.min?_cons', Nat.min_eq_right (by omega)]

-- ---------------------------------------------------------------------------
-- Summaries
-- ---------------------------------------------------------------------------

/-- The summary is about all samples that are given. -/
structure WindowSummary.Describes (hdr : Hdr) (metrics : SlidingWindowMetrics)
    (topSlowest : Nat) (summary : WindowSummary) : Prop where
  success : summary.success = metrics.rpcSamples.length
  errors : summary.errors = metrics.errorSamples.length
  rpc : summary.rpc = statsOf hdr metrics.latencies
  tps : summary.tps = throughput summary.rpc.p50
  slowest : IsTop (fun entry => entry.2.2) topSlowest metrics.shown summary.slowest
  slowest_sorted : (summary.slowest.map fun entry => entry.2.2).Pairwise (· ≥ ·)
  topErrors : ∃ table, Tallies metrics.messages table ∧ IsTop Prod.snd 5 table summary.topErrors
  topErrors_sorted : (summary.topErrors.map Prod.snd).Pairwise (· ≥ ·)
  capacityMin : summary.capacityMin = (metrics.capacities.map UInt64.toNat).min?
  capacityAvg : summary.capacityAvg = if metrics.capacities = [] then none else
    some (min (metrics.capacities.map UInt64.toNat).sum maxU128 / metrics.capacities.length)
  mining : summary.mining = if metrics.miningSamples = [] then none else
    some (metrics.miningSamples.length, statsOf hdr metrics.miningDurations)

/-- The first of a list in descending order are in that order. -/
theorem pairwise_take_mergeSort {α : Type} (key : α → Nat) (n : Nat) (all : List α) :
    (((all.mergeSort fun a b => key b ≤ key a).take n).map key).Pairwise (· ≥ ·) := by
  exact List.pairwise_map.mpr
    ((pairwise_mergeSort_descending key all).sublist (List.take_sublist n _))

theorem capacityMinAvg_eq (capacities : List UInt64) :
    SlidingWindowMetrics.capacityMinAvg capacities =
      ((capacities.map UInt64.toNat).min?,
        if capacities = [] then none else
          some (min (capacities.map UInt64.toNat).sum maxU128 / capacities.length)) := by
  by_cases hnil : capacities = []
  · subst hnil
    rfl
  · have hlength : 0 < capacities.length := List.length_pos_iff.mpr hnil
    have hmean : min (capacities.map UInt64.toNat).sum maxU128 / capacities.length < 2 ^ 64 := by
      rw [Nat.div_lt_iff_lt_mul hlength]
      have hsum := sum_le_length_mul capacities
      omega
    rw [SlidingWindowMetrics.capacityMinAvg, if_neg (by simpa using hnil), if_neg hnil,
      foldl_min_eq hnil, capacitySum_eq, Nat.mod_eq_of_lt hmean]

theorem miningStats_eq (hdr : Hdr) (metrics : SlidingWindowMetrics) :
    metrics.miningStats hdr = some (if metrics.miningSamples = [] then none else
      some (metrics.miningSamples.length, statsOf hdr metrics.miningDurations)) := by
  rw [SlidingWindowMetrics.miningStats]
  by_cases hnil : metrics.miningSamples = []
  · rw [if_pos (by simpa using hnil), if_pos hnil]
  · obtain ⟨bound, hhist⟩ := windowHistogram_eq hdr metrics.miningDurations
    rw [if_neg (by simpa using hnil), if_neg hnil, hhist]
    rfl

/-- **A summary is about all samples of its window**; there is none exactly if no call
succeeded in it. -/
theorem summarize_describes (hdr : Hdr) (order : MapOrder) (metrics : SlidingWindowMetrics)
    (topSlowest : Nat) :
    (metrics.summarize hdr order topSlowest = none ↔ metrics.rpcSamples = []) ∧
      ∀ summary, metrics.summarize hdr order topSlowest = some summary →
        summary.Describes hdr metrics topSlowest := by
  obtain ⟨bound, hhist⟩ := windowHistogram_eq hdr metrics.latencies
  rw [SlidingWindowMetrics.summarize]
  by_cases hnil : metrics.rpcSamples = []
  · rw [if_pos (by simpa using hnil)]
    exact ⟨iff_of_true rfl hnil, fun summary h => absurd h (by simp)⟩
  · rw [if_neg (by simpa using hnil), hhist, miningStats_eq, capacityMinAvg_eq]
    refine ⟨iff_of_false (by simp) hnil, fun summary h => ?_⟩
    obtain rfl := (Option.some.inj h).symm
    have htable := (tally_tallies metrics.messages).perm (order.perm (tally metrics.messages))
    exact ⟨rfl, rfl, rfl, rfl, IsTop.take_mergeSort _ topSlowest metrics.shown,
      pairwise_take_mergeSort _ topSlowest metrics.shown,
      ⟨_, htable, IsTop.take_mergeSort Prod.snd 5 _⟩, pairwise_take_mergeSort Prod.snd 5 _,
      rfl, rfl, rfl⟩

end IgraRpc
