import IgraRpc.Lib.Binary64
import Mathlib.Data.List.MinMax

/-!
# Cumulative metrics — `tools/tx_perf/metrics.rs`

`CumulativeMetrics` counts successes, keeps the slowest of them, and records every latency in
a histogram whose bound is fixed when it is made. A latency above the bound replaces the
histogram by an empty, larger one.

* `Hdr` — what is assumed of the histogram library: the bound of a histogram covers the
  maximum it is made for, and a value is known up to three digits;
* `CoversAll` — the summary is about every latency recorded since the start;
* `coversAll_of_fit` — **in a run in which every latency after the first fits the histogram in
  use it does**; and in a run of fewer than 2^64 calls only then.

Errors, capacities, the mining histogram and the clock are left out: no call of
`record_success` touches them.
-/

namespace IgraRpc

open Lib

-- ---------------------------------------------------------------------------
-- The histogram
-- ---------------------------------------------------------------------------

/-- The largest 64-bit count. -/
def maxCount : Nat := 2 ^ 64 - 1

/-- The histogram library at three significant digits: the largest value a histogram made for
`max` records, the ends of the bucket a value falls into, and the statistics of a list of
recorded values. -/
structure Hdr where
  bound : Nat → Nat
  lowest : Nat → Nat
  highest : Nat → Nat
  valueAtPercent : List Nat → Nat → Nat
  mean : List Nat → F64
  le_bound : ∀ max, max ≤ bound max
  lowest_le : ∀ v, lowest v ≤ v
  le_highest : ∀ v, v ≤ highest v
  precise : ∀ v, 1000 * (highest v - lowest v) ≤ v

/-- `Histogram<u64>`: its bound and what was recorded, the last value first. -/
structure Histogram where
  bound : Nat
  samples : List Nat

/-- `Histogram::new_with_max`: no histogram for a maximum below two. -/
def Hdr.newWithMax (hdr : Hdr) (max : Nat) : Option Histogram :=
  if max < 2 then none else some ⟨hdr.bound max, []⟩

/-- `record`: an error for a value above the bound. -/
def Histogram.record (hist : Histogram) (value : Nat) : Option Histogram :=
  if value ≤ hist.bound then some { hist with samples := value :: hist.samples } else none

/-- `len`: the number of samples, which saturates. -/
def Histogram.len (hist : Histogram) : Nat := min hist.samples.length maxCount

/-- `min`, zero for an empty histogram. -/
def Histogram.min (hdr : Hdr) (hist : Histogram) : Nat :=
  match hist.samples.min? with
  | some least => hdr.lowest least
  | none => 0

/-- `max`, zero for an empty histogram. -/
def Histogram.max (hdr : Hdr) (hist : Histogram) : Nat :=
  match hist.samples.max? with
  | some greatest => hdr.highest greatest
  | none => 0

-- ---------------------------------------------------------------------------
-- The metrics
-- ---------------------------------------------------------------------------

/-- A success with its latency. -/
structure SlowItem where
  latencyMicros : UInt64
  id : Option String
  hash : Option String
  deriving DecidableEq

/-- `FixedMinHeap::push`: beyond the capacity, an item replaces a smallest one. -/
def pushSlowest (cap : Nat) (heap : List SlowItem) (item : SlowItem) : List SlowItem :=
  if cap = 0 then heap
  else if heap.length < cap then item :: heap
  else
    match heap.argmin (fun entry => entry.latencyMicros.toNat) with
    | none => heap
    | some smallest =>
      if item.latencyMicros > smallest.latencyMicros then item :: heap.erase smallest else heap

structure CumulativeMetrics where
  hist : Histogram
  successes : Nat
  topN : Nat
  topSlowest : List SlowItem

/-- `CumulativeMetrics::new`. -/
def CumulativeMetrics.new (hdr : Hdr) (topN : Nat) : CumulativeMetrics where
  hist := (hdr.newWithMax 60000000).getD ⟨hdr.bound 100000, []⟩
  successes := 0
  topN := topN
  topSlowest := []

/-- The histogram after a latency: a larger one in its place, if the latency is above the
bound. -/
def recordOrReplace (hdr : Hdr) (hist : Histogram) (latency : Nat) : Histogram :=
  match hist.record latency with
  | some recorded => recorded
  | none =>
    let newMax := max (min (latency * 2) maxCount) (hist.max hdr)
    match hdr.newWithMax newMax with
    | some newHist => (newHist.record latency).getD newHist
    | none => hist

/-- `record_success`. -/
def CumulativeMetrics.recordSuccess (hdr : Hdr) (metrics : CumulativeMetrics)
    (item : SlowItem) : CumulativeMetrics :=
  { metrics with
    hist := recordOrReplace hdr metrics.hist item.latencyMicros.toNat
    successes := min (metrics.successes + 1) maxCount
    topSlowest := pushSlowest metrics.topN metrics.topSlowest item }

/-- The parts of `CumulativeSummary` that are about successes. -/
structure CumulativeSummary where
  success : Nat
  p10 : Nat
  p25 : Nat
  p50 : Nat
  p90 : Nat
  p95 : Nat
  p99 : Nat
  min : Nat
  max : Nat
  mean : F64
  slowest : List SlowItem

/-- `to_sorted_desc`. -/
def sortedDesc (heap : List SlowItem) : List SlowItem :=
  (heap.mergeSort fun a b => a.latencyMicros ≤ b.latencyMicros).reverse

/-- `summarize`. -/
def CumulativeMetrics.summarize (hdr : Hdr) (metrics : CumulativeMetrics) :
    Option CumulativeSummary :=
  if metrics.successes = 0 then none
  else
    let quantile := hdr.valueAtPercent metrics.hist.samples
    some
      { success := metrics.successes
        p10 := quantile 10
        p25 := quantile 25
        p50 := quantile 50
        p90 := quantile 90
        p95 := quantile 95
        p99 := quantile 99
        min := metrics.hist.min hdr
        max := metrics.hist.max hdr
        mean := hdr.mean metrics.hist.samples
        slowest := sortedDesc metrics.topSlowest }

/-- The metrics after a sequence of successes. -/
def recordAll (hdr : Hdr) (topN : Nat) (items : List SlowItem) : CumulativeMetrics :=
  items.foldl (CumulativeMetrics.recordSuccess hdr) (.new hdr topN)

-- ---------------------------------------------------------------------------
-- Recording
-- ---------------------------------------------------------------------------

section
variable (hdr : Hdr)

theorem recordOrReplace_of_le {hist : Histogram} {latency : Nat} (h : latency ≤ hist.bound) :
    recordOrReplace hdr hist latency = ⟨hist.bound, latency :: hist.samples⟩ := by
  rw [recordOrReplace, Histogram.record, if_pos h]

/-- The bound of the histogram that replaces one for a latency. -/
def grownBound (hist : Histogram) (latency : Nat) : Nat :=
  hdr.bound (max (min (latency * 2) maxCount) (hist.max hdr))

/-- **A latency above the bound empties the histogram.** Only the latency itself is in the
one that replaces it. -/
theorem recordOrReplace_of_gt {hist : Histogram} {latency : Nat} (h : hist.bound < latency)
    (hlatency : latency ≤ maxCount) :
    recordOrReplace hdr hist latency = ⟨grownBound hdr hist latency, [latency]⟩ := by
  have hmax : latency ≤ max (min (latency * 2) maxCount) (hist.max hdr) := by omega
  have htwo : ¬ max (min (latency * 2) maxCount) (hist.max hdr) < 2 := by
    have hpos : 1 ≤ latency := by omega
    have htwo : 2 ≤ min (latency * 2) maxCount := by
      rw [maxCount]
      omega
    omega
  have hfits : latency ≤ grownBound hdr hist latency := hmax.trans (hdr.le_bound _)
  rw [recordOrReplace, Histogram.record, if_neg (Nat.not_le.mpr h)]
  simp only [Hdr.newWithMax, if_neg htwo]
  show ((Histogram.record ⟨grownBound hdr hist latency, []⟩ latency).getD _) = _
  rw [Histogram.record, if_pos hfits]
  rfl

/-- A step records at most one sample. -/
theorem length_recordOrReplace_le (hist : Histogram) (latency : UInt64) :
    (recordOrReplace hdr hist latency.toNat).samples.length ≤ hist.samples.length + 1 := by
  by_cases h : latency.toNat ≤ hist.bound
  · rw [recordOrReplace_of_le hdr h]
    exact Nat.le_refl _
  · rw [recordOrReplace_of_gt hdr (Nat.not_le.mp h) (Nat.le_of_lt_succ latency.toNat_lt)]
    exact Nat.le_add_left 1 _

/-- The latencies of a sequence of successes. -/
def latencies (items : List SlowItem) : List Nat := items.map fun item => item.latencyMicros.toNat

/-- The histogram after a sequence of latencies. -/
def histAfter (hist : Histogram) (values : List Nat) : Histogram :=
  values.foldl (recordOrReplace hdr) hist

theorem hist_foldl_recordSuccess (items : List SlowItem) (metrics : CumulativeMetrics) :
    (items.foldl (CumulativeMetrics.recordSuccess hdr) metrics).hist =
      histAfter hdr metrics.hist (latencies items) := by
  induction items generalizing metrics with
  | nil => rfl
  | cons item rest ih => exact ih _

theorem successes_foldl_recordSuccess (items : List SlowItem) (metrics : CumulativeMetrics)
    (h : metrics.successes ≤ maxCount) :
    (items.foldl (CumulativeMetrics.recordSuccess hdr) metrics).successes =
      min (metrics.successes + items.length) maxCount := by
  induction items generalizing metrics with
  | nil => exact (Nat.min_eq_left h).symm
  | cons item rest ih =>
    rw [List.foldl_cons, ih _ (Nat.min_le_right _ _), List.length_cons]
    show min (min (metrics.successes + 1) maxCount + rest.length) maxCount = _
    omega

/-- Latencies that fit are all recorded. -/
theorem histAfter_of_fit {values : List Nat} :
    ∀ hist : Histogram, (∀ v ∈ values, v ≤ hist.bound) →
      histAfter hdr hist values = ⟨hist.bound, values.reverse ++ hist.samples⟩ := by
  induction values with
  | nil =>
    intro hist _
    rfl
  | cons v rest ih =>
    intro hist h
    have hhead : v ≤ hist.bound := h v List.mem_cons_self
    have hrest := ih ⟨hist.bound, v :: hist.samples⟩
      fun w hw => h w (List.mem_cons_of_mem v hw)
    show histAfter hdr (recordOrReplace hdr hist v) rest = _
    rw [recordOrReplace_of_le hdr hhead, hrest, List.reverse_cons, List.append_assoc]
    rfl

theorem length_histAfter_le (items : List SlowItem) :
    ∀ hist : Histogram, (histAfter hdr hist (latencies items)).samples.length ≤
      hist.samples.length + items.length := by
  induction items with
  | nil =>
    intro hist
    exact Nat.le_refl _
  | cons item rest ih =>
    intro hist
    have hstep := length_recordOrReplace_le hdr hist item.latencyMicros
    have hrest := ih (recordOrReplace hdr hist item.latencyMicros.toNat)
    have hfold : histAfter hdr hist (latencies (item :: rest)) =
        histAfter hdr (recordOrReplace hdr hist item.latencyMicros.toNat) (latencies rest) := rfl
    rw [hfold, List.length_cons]
    omega

/-- If no sample of a histogram that holds one is lost, every latency fits. -/
theorem fit_of_length {items : List SlowItem} :
    ∀ hist : Histogram, 1 ≤ hist.samples.length →
      (histAfter hdr hist (latencies items)).samples.length =
        hist.samples.length + items.length →
      ∀ v ∈ latencies items, v ≤ hist.bound := by
  induction items with
  | nil =>
    intro hist _ _ v hv
    exact absurd hv List.not_mem_nil
  | cons item rest ih =>
    intro hist hone hlength v hv
    have hfold : histAfter hdr hist (latencies (item :: rest)) =
        histAfter hdr (recordOrReplace hdr hist item.latencyMicros.toNat) (latencies rest) := rfl
    rw [hfold, List.length_cons] at hlength
    by_cases hfits : item.latencyMicros.toNat ≤ hist.bound
    · rw [recordOrReplace_of_le hdr hfits] at hlength
      rcases List.mem_cons.mp hv with rfl | hv
      · exact hfits
      · refine ih ⟨hist.bound, item.latencyMicros.toNat :: hist.samples⟩
          (Nat.le_add_left 1 _) ?_ v hv
        rw [hlength, List.length_cons]
        omega
    · -- the replaced histogram starts over with one sample
      rw [recordOrReplace_of_gt hdr (Nat.not_le.mp hfits)
        (Nat.le_of_lt_succ item.latencyMicros.toNat_lt)] at hlength
      have hbound := length_histAfter_le hdr rest
        ⟨grownBound hdr hist item.latencyMicros.toNat, [item.latencyMicros.toNat]⟩
      rw [hlength, List.length_singleton] at hbound
      omega

end

-- ---------------------------------------------------------------------------
-- The summary
-- ---------------------------------------------------------------------------

/-- What three digits of precision leave of a value: `shown` is at most `value`, and off by
at most a thousandth. -/
def ShownBelow (shown value : Nat) : Prop := shown ≤ value ∧ 1000 * (value - shown) ≤ value

def ShownAbove (shown value : Nat) : Prop := value ≤ shown ∧ 1000 * (shown - value) ≤ value

/-- The summary is about every latency recorded since the start. -/
structure CoversAll (hdr : Hdr) (items : List SlowItem) (metrics : CumulativeMetrics) :
    Prop where
  count : metrics.hist.len = metrics.successes
  successes : metrics.successes = min items.length maxCount
  least : ∀ summary, metrics.summarize hdr = some summary →
    ∃ v ∈ latencies items, (∀ w ∈ latencies items, v ≤ w) ∧ ShownBelow summary.min v
  greatest : ∀ summary, metrics.summarize hdr = some summary →
    ∃ v ∈ latencies items, (∀ w ∈ latencies items, w ≤ v) ∧ ShownAbove summary.max v

/-- The bound of the histogram once the first latency is recorded. -/
def boundAfterFirst (hdr : Hdr) (first : Nat) : Nat :=
  if first ≤ hdr.bound 60000000 then hdr.bound 60000000
  else hdr.bound (min (first * 2) maxCount)

/-- Every latency after the first is within the bound of the histogram in use. -/
def LatenciesFit (hdr : Hdr) : List SlowItem → Prop
  | [] => True
  | first :: rest => ∀ v ∈ latencies rest, v ≤ boundAfterFirst hdr first.latencyMicros.toNat

theorem hist_new (hdr : Hdr) (topN : Nat) :
    (CumulativeMetrics.new hdr topN).hist = ⟨hdr.bound 60000000, []⟩ := rfl

/-- The first latency loses nothing. -/
theorem recordOrReplace_first (hdr : Hdr) (first : UInt64) :
    recordOrReplace hdr ⟨hdr.bound 60000000, []⟩ first.toNat =
      ⟨boundAfterFirst hdr first.toNat, [first.toNat]⟩ := by
  rw [boundAfterFirst]
  split
  · next hfits => exact recordOrReplace_of_le hdr hfits
  · next hlarge =>
    have hempty : Histogram.max hdr ⟨hdr.bound 60000000, []⟩ = 0 := rfl
    rw [recordOrReplace_of_gt hdr (Nat.not_le.mp hlarge) (Nat.le_of_lt_succ first.toNat_lt),
      grownBound, hempty, Nat.max_zero]

/-- In a run that fits, the samples are the latencies, the last one first. -/
theorem samples_recordAll {hdr : Hdr} {items : List SlowItem} (h : LatenciesFit hdr items)
    (topN : Nat) : (recordAll hdr topN items).hist.samples = (latencies items).reverse := by
  rw [recordAll, hist_foldl_recordSuccess, hist_new]
  cases items with
  | nil => rfl
  | cons first rest =>
    have hrest := histAfter_of_fit hdr
      ⟨boundAfterFirst hdr first.latencyMicros.toNat, [first.latencyMicros.toNat]⟩ h
    show (histAfter hdr (recordOrReplace hdr _ first.latencyMicros.toNat)
      (latencies rest)).samples = _
    rw [recordOrReplace_first, hrest]
    exact List.reverse_cons.symm

theorem successes_recordAll (hdr : Hdr) (topN : Nat) (items : List SlowItem) :
    (recordAll hdr topN items).successes = min items.length maxCount := by
  rw [recordAll, successes_foldl_recordSuccess hdr items _ (Nat.zero_le _)]
  exact congrArg (min · maxCount) (Nat.zero_add _)

theorem length_samples_recordAll_le (hdr : Hdr) (topN : Nat) (items : List SlowItem) :
    (recordAll hdr topN items).hist.samples.length ≤ items.length := by
  have hlength := length_histAfter_le hdr items ⟨hdr.bound 60000000, []⟩
  rw [recordAll, hist_foldl_recordSuccess, hist_new]
  simpa using hlength

theorem Histogram.min_shown (hdr : Hdr) {hist : Histogram} (h : hist.samples ≠ []) :
    ∃ v ∈ hist.samples, (∀ w ∈ hist.samples, v ≤ w) ∧ ShownBelow (hist.min hdr) v := by
  obtain ⟨v, hv⟩ := Option.isSome_iff_exists.mp (List.isSome_min?_of_ne_nil h)
  obtain ⟨hmem, hleast⟩ := List.min?_eq_some_iff.mp hv
  have hprecise := hdr.precise v
  have hhigh := hdr.le_highest v
  refine ⟨v, hmem, hleast, ?_⟩
  rw [Histogram.min, hv]
  exact ⟨hdr.lowest_le v, by show 1000 * (v - hdr.lowest v) ≤ v; omega⟩

theorem Histogram.max_shown (hdr : Hdr) {hist : Histogram} (h : hist.samples ≠ []) :
    ∃ v ∈ hist.samples, (∀ w ∈ hist.samples, w ≤ v) ∧ ShownAbove (hist.max hdr) v := by
  obtain ⟨v, hv⟩ := Option.isSome_iff_exists.mp (List.isSome_max?_of_ne_nil h)
  obtain ⟨hmem, hgreatest⟩ := List.max?_eq_some_iff.mp hv
  have hprecise := hdr.precise v
  have hlow := hdr.lowest_le v
  refine ⟨v, hmem, hgreatest, ?_⟩
  rw [Histogram.max, hv]
  exact ⟨hdr.le_highest v, by show 1000 * (hdr.highest v - v) ≤ v; omega⟩

/-- A summary is there once there is a success, and shows the histogram's ends. -/
theorem summarize_eq_some {hdr : Hdr} {metrics : CumulativeMetrics}
    {summary : CumulativeSummary} (h : metrics.summarize hdr = some summary) :
    metrics.successes ≠ 0 ∧ summary.min = metrics.hist.min hdr ∧
      summary.max = metrics.hist.max hdr := by
  unfold CumulativeMetrics.summarize at h
  split at h
  · exact absurd h (by simp)
  · next hsome =>
    obtain rfl := Option.some.inj h
    exact ⟨hsome, rfl, rfl⟩

/-- **The whole summary.** In a run in which every latency after the first fits the histogram
in use, the summary covers everything since the start; in a run of fewer than 2^64 calls, only
then. -/
theorem coversAll_of_fit (hdr : Hdr) (topN : Nat) (items : List SlowItem) :
    (LatenciesFit hdr items → CoversAll hdr items (recordAll hdr topN items)) ∧
      (items.length < 2 ^ 64 → CoversAll hdr items (recordAll hdr topN items) →
        LatenciesFit hdr items) := by
  have hsuccesses := successes_recordAll hdr topN items
  refine ⟨fun h => ?_, fun hlength h => ?_⟩
  · have hsamples := samples_recordAll h topN
    have hmem : ∀ v, v ∈ (recordAll hdr topN items).hist.samples ↔ v ∈ latencies items := by
      intro v
      rw [hsamples, List.mem_reverse]
    have hne : (recordAll hdr topN items).successes ≠ 0 →
        (recordAll hdr topN items).hist.samples ≠ [] := by
      rw [hsuccesses, hsamples]
      intro hcount hnil
      rw [List.reverse_eq_nil_iff, latencies, List.map_eq_nil_iff] at hnil
      exact hcount (by rw [hnil]; exact Nat.zero_min _)
    refine ⟨?_, hsuccesses, fun summary hsummary => ?_, fun summary hsummary => ?_⟩
    · rw [hsuccesses, Histogram.len, hsamples, List.length_reverse, latencies, List.length_map]
    · obtain ⟨hcount, hmin, -⟩ := summarize_eq_some hsummary
      have hshown := Histogram.min_shown hdr (hne hcount)
      simp only [hmem] at hshown
      rwa [hmin]
    · obtain ⟨hcount, -, hmax⟩ := summarize_eq_some hsummary
      have hshown := Histogram.max_shown hdr (hne hcount)
      simp only [hmem] at hshown
      rwa [hmax]
  · have hcount := h.count
    rw [hsuccesses, Histogram.len, maxCount] at hcount
    have hle := length_samples_recordAll_le hdr topN items
    have hall : (recordAll hdr topN items).hist.samples.length = items.length := by omega
    cases items with
    | nil => trivial
    | cons first rest =>
      refine fit_of_length hdr
        ⟨boundAfterFirst hdr first.latencyMicros.toNat, [first.latencyMicros.toNat]⟩
        (Nat.le_refl 1) ?_
      have hfold : (recordAll hdr topN (first :: rest)).hist =
          histAfter hdr
            (recordOrReplace hdr ⟨hdr.bound 60000000, []⟩ first.latencyMicros.toNat)
            (latencies rest) := by
        rw [recordAll, hist_foldl_recordSuccess, hist_new]
        rfl
      rw [hfold, recordOrReplace_first, List.length_cons] at hall
      rw [hall, List.length_singleton, Nat.add_comm]

-- ---------------------------------------------------------------------------
-- A library
-- ---------------------------------------------------------------------------

/-- The width of the bucket of a value: eleven significant bits are kept. -/
def bucketWidth (v : Nat) : Nat := 2 ^ (v.log2 - 10)

/-- Buckets as the library lays them out. -/
def hdrBuckets : Hdr where
  bound max := 2 ^ (Nat.max 10 max.log2 + 1) - 1
  lowest v := v / bucketWidth v * bucketWidth v
  highest v := v / bucketWidth v * bucketWidth v + (bucketWidth v - 1)
  valueAtPercent samples percent :=
    let sorted := samples.mergeSort fun a b => decide (a ≤ b)
    sorted.getD ((percent * samples.length + 99) / 100 - 1) 0
  mean samples := .ofRat false ((samples.foldl (fun sum v => sum + v) 0 : Nat) / samples.length)
  le_bound max := by
    have hlog : max < 2 ^ (max.log2 + 1) := Nat.lt_log2_self
    have hpow : 2 ^ (max.log2 + 1) ≤ 2 ^ (Nat.max 10 max.log2 + 1) :=
      Nat.pow_le_pow_right (by decide) (Nat.succ_le_succ (Nat.le_max_right _ _))
    omega
  lowest_le v := Nat.div_mul_le_self v (bucketWidth v)
  le_highest v := by
    have hpos : 0 < bucketWidth v := Nat.pow_pos (by decide)
    have hmod := Nat.mod_lt v hpos
    have hdiv := Nat.div_add_mod' v (bucketWidth v)
    omega
  precise v := by
    have hdifference : v / bucketWidth v * bucketWidth v + (bucketWidth v - 1) -
        v / bucketWidth v * bucketWidth v = bucketWidth v - 1 := Nat.add_sub_cancel_left _ _
    rw [hdifference, bucketWidth]
    by_cases hsmall : v.log2 ≤ 10
    · rw [Nat.sub_eq_zero_of_le hsmall]
      exact Nat.zero_le v
    · obtain ⟨k, hk⟩ : ∃ k, v.log2 = k + 10 := ⟨v.log2 - 10, by omega⟩
      have hne : v ≠ 0 := by
        rintro rfl
        exact hsmall (by decide)
      have hlarge : 2 ^ (k + 10) ≤ v := hk ▸ Nat.log2_self_le hne
      have hpow : 2 ^ (k + 10) = 1024 * 2 ^ k := by rw [Nat.pow_add, Nat.mul_comm]
      rw [hk, Nat.add_sub_cancel]
      omega

/-- A success after 1 ms. -/
def fastItem : SlowItem := ⟨1000, none, none⟩

/-- A success after 100 s. -/
def slowItem : SlowItem := ⟨100000000, none, none⟩

/-- An oversized latency leaves one sample for two successes. -/
theorem coversAll_fails :
    ¬ CoversAll hdrBuckets [fastItem, slowItem]
      (recordAll hdrBuckets 5 [fastItem, slowItem]) := by
  intro h
  have hfit := (coversAll_of_fit hdrBuckets 5 _).2 (by decide) h
  exact absurd (hfit 100000000 (by decide)) (by decide)

end IgraRpc
