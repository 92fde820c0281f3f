import IgraRpc.Lib.TopN
import IgraRpc.Tools.Metrics

/-!
# The slowest transactions — `tools/tx_perf/metrics.rs`

`FixedMinHeap` keeps a bounded number of items, and when it is full a larger item overwrites
the smallest one. It rests on the standard library's `BinaryHeap`, of which only the laws of
a heap are used: which of several smallest items is on top is left open.

* `FixedMinHeap.push` — with the bound on the number of items carried in the type;
* `FixedMinHeap.toSortedDesc_run` — **after any pushes it holds the largest of everything
  pushed**, for every order of the items;
* `slowItems_keepTop` — so for the items of the metrics, which are compared by latency alone;
* `topSlowest_recordAll`, `slowest_summarize` — the list in the metrics is such a heap, and
  the summary shows the slowest successes since the start.
-/

namespace IgraRpc

open Lib

-- ---------------------------------------------------------------------------
-- The code
-- ---------------------------------------------------------------------------

section
variable {T σ κ : Type} [LinearOrder κ] {key : T → κ}

/-- `FixedMinHeap<T>` over a `BinaryHeap<Reverse<T>>`; the order of `T` is that of the keys. -/
structure FixedMinHeap (H : MinHeap key σ) where
  heap : σ
  cap : Nat
  fits : (H.elements heap).length ≤ cap

variable {H : MinHeap key σ}

namespace FixedMinHeap

def new (H : MinHeap key σ) (cap : Nat) : FixedMinHeap H where
  heap := H.empty
  cap := cap
  fits := by
    rw [H.elements_empty]
    exact Nat.zero_le cap

theorem length_push (heap : σ) (item : T) :
    (H.elements (H.push heap item)).length = (H.elements heap).length + 1 := by
  rw [(H.elements_push heap item).length_eq, List.length_cons]

theorem length_replaceTop {heap : σ} {smallest : T} (h : H.top heap = some smallest) (item : T) :
    (H.elements (H.replaceTop heap item)).length = (H.elements heap).length := by
  obtain ⟨rest, hbefore, hafter⟩ := H.elements_replaceTop heap smallest item h
  rw [hbefore.length_eq, hafter.length_eq, List.length_cons, List.length_cons]

/-- `push`. -/
def push (self : FixedMinHeap H) (item : T) : FixedMinHeap H :=
  if self.cap = 0 then self
  else if hroom : (H.elements self.heap).length < self.cap then
    { self with
      heap := H.push self.heap item
      fits := (length_push self.heap item).trans_le hroom }
  else
    match htop : H.top self.heap with
    | none => self
    | some smallest =>
      -- `item > smallest.0`
      if key smallest < key item then
        { self with
          heap := H.replaceTop self.heap item
          fits := (length_replaceTop htop item).trans_le self.fits }
      else self

/-- `to_sorted_desc`: a stable ascending sort, reversed. -/
def toSortedDesc (self : FixedMinHeap H) : List T :=
  ((H.elements self.heap).mergeSort fun a b => key a ≤ key b).reverse

/-- The heap after a sequence of pushes. -/
def run (H : MinHeap key σ) (cap : Nat) (items : List T) : FixedMinHeap H :=
  items.foldl push (new H cap)

-- ---------------------------------------------------------------------------
-- One push
-- ---------------------------------------------------------------------------

@[simp] theorem push_cap (self : FixedMinHeap H) (item : T) : (self.push item).cap = self.cap := by
  unfold push
  split
  · rfl
  · split
    · rfl
    · split
      · rfl
      · split <;> rfl

/-- What a push does: it adds the item, puts it in place of a smaller smallest one, or drops
it because all others are at least as large. The last happens too when there is no capacity. -/
theorem push_cases (self : FixedMinHeap H) (item : T) :
    ((H.elements self.heap).length < self.cap ∧
      (H.elements (self.push item).heap).Perm (item :: H.elements self.heap)) ∨
    (self.cap ≤ (H.elements self.heap).length ∧
      ∃ smallest rest, (H.elements self.heap).Perm (smallest :: rest) ∧
        (∀ k ∈ H.elements self.heap, key smallest ≤ key k) ∧ key smallest < key item ∧
        (H.elements (self.push item).heap).Perm (item :: rest)) ∨
    (self.cap ≤ (H.elements self.heap).length ∧
      (∀ k ∈ H.elements self.heap, key item ≤ key k) ∧ self.push item = self) := by
  unfold push
  split
  · next hzero =>
    have hnil : H.elements self.heap = [] :=
      List.length_eq_zero_iff.mp (Nat.le_zero.mp (hzero ▸ self.fits))
    refine Or.inr (Or.inr ⟨by omega, ?_, rfl⟩)
    rw [hnil]
    exact fun k hk => absurd hk List.not_mem_nil
  · next hpos =>
    split
    · next hroom => exact Or.inl ⟨hroom, H.elements_push self.heap item⟩
    · next hfull =>
      have hfull : self.cap ≤ (H.elements self.heap).length := Nat.not_lt.mp hfull
      split
      · next htop =>
        -- a full heap with a capacity has a top
        rw [H.top_eq_none self.heap htop, List.length_nil] at hfull
        exact absurd (Nat.le_zero.mp hfull) hpos
      · next smallest htop =>
        have hleast := H.top_least self.heap smallest htop
        split
        · next hlarger =>
          obtain ⟨rest, hbefore, hafter⟩ := H.elements_replaceTop self.heap smallest item htop
          exact Or.inr (Or.inl ⟨hfull, smallest, rest, hbefore, hleast, hlarger, hafter⟩)
        · next hsmaller =>
          refine Or.inr (Or.inr ⟨hfull, fun k hk => ?_, rfl⟩)
          exact (not_lt.mp hsmaller).trans (hleast k hk)

/-- A push keeps the largest of everything pushed. -/
theorem push_isTop {self : FixedMinHeap H} {all : List T}
    (h : IsTop key self.cap all (H.elements self.heap)) (item : T) :
    IsTop key self.cap (item :: all) (H.elements (self.push item).heap) := by
  rcases push_cases self item with ⟨hroom, hpush⟩ |
    ⟨hfull, smallest, rest, hbefore, hleast, hlarger, hpush⟩ | ⟨hfull, hle, hpush⟩
  · exact (h.add hroom item).perm (.refl _) hpush.symm
  · exact (h.replace hfull hbefore hleast (le_of_lt hlarger)).perm (.refl _) hpush.symm
  · rw [hpush]
    exact h.skip hfull hle

-- ---------------------------------------------------------------------------
-- Any number of pushes
-- ---------------------------------------------------------------------------

theorem foldl_push_cap (items : List T) (self : FixedMinHeap H) :
    (items.foldl push self).cap = self.cap := by
  induction items generalizing self with
  | nil => rfl
  | cons item rest ih => rw [List.foldl_cons, ih, push_cap]

theorem run_cap (H : MinHeap key σ) (cap : Nat) (items : List T) : (run H cap items).cap = cap :=
  foldl_push_cap items (new H cap)

theorem foldl_push_isTop (items : List T) {self : FixedMinHeap H} {all : List T}
    (h : IsTop key self.cap all (H.elements self.heap)) :
    IsTop key self.cap (items ++ all) (H.elements (items.foldl push self).heap) := by
  induction items generalizing self all with
  | nil => exact h
  | cons item rest ih =>
    have hstep := push_isTop h item
    rw [← push_cap self item] at hstep
    have hrest := ih hstep
    rw [push_cap] at hrest
    exact hrest.perm List.perm_middle (.refl _)

theorem run_isTop (H : MinHeap key σ) (cap : Nat) (items : List T) :
    IsTop key cap items (H.elements (run H cap items).heap) := by
  have hempty : IsTop key (new H cap).cap [] (H.elements (new H cap).heap) := by
    rw [show H.elements (new H cap).heap = [] from H.elements_empty]
    exact IsTop.nil key cap
  have hrun := foldl_push_isTop items hempty
  rwa [List.append_nil] at hrun

theorem toSortedDesc_perm (self : FixedMinHeap H) :
    self.toSortedDesc.Perm (H.elements self.heap) :=
  (List.reverse_perm _).trans (List.mergeSort_perm _ _)

theorem pairwise_toSortedDesc (self : FixedMinHeap H) :
    (self.toSortedDesc.map key).Pairwise (· ≥ ·) := by
  rw [toSortedDesc, List.map_reverse, List.pairwise_reverse]
  exact pairwise_map_mergeSort key _

/-- **The heap keeps the top.** After any pushes its items in descending order have the first
`cap` of all keys pushed. -/
theorem toSortedDesc_run (H : MinHeap key σ) (cap : Nat) (items : List T) :
    (run H cap items).toSortedDesc.map key = (descending (items.map key)).take cap :=
  (run_isTop H cap items).keys_eq (pairwise_toSortedDesc _) ((toSortedDesc_perm _).map key)

end FixedMinHeap

end

-- ---------------------------------------------------------------------------
-- The items of the metrics
-- ---------------------------------------------------------------------------

/-- `Ord for SlowItem`: the latency alone, whatever the id and the hash. -/
def SlowItem.order (item : SlowItem) : Nat := item.latencyMicros.toNat

/-- **The slowest items are kept.** For every heap, every capacity and every sequence of
pushes, the bounded heap holds at most that many items, all of them pushed ones. In the
descending order it returns them, their latencies are the first so many of all latencies
pushed, and so the same for every order of the pushes. -/
theorem slowItems_keepTop {σ : Type} (H : MinHeap SlowItem.order σ) (cap : Nat)
    (items : List SlowItem) :
    (H.elements (FixedMinHeap.run H cap items).heap).length ≤ cap ∧
    (∃ evicted, ((FixedMinHeap.run H cap items).toSortedDesc ++ evicted).Perm items) ∧
    (latencies (FixedMinHeap.run H cap items).toSortedDesc).Pairwise (· ≥ ·) ∧
    latencies (FixedMinHeap.run H cap items).toSortedDesc =
      (descending (latencies items)).take cap ∧
    ∀ reordered, items.Perm reordered →
      latencies (FixedMinHeap.run H cap reordered).toSortedDesc =
        latencies (FixedMinHeap.run H cap items).toSortedDesc := by
  have hkept := FixedMinHeap.run_isTop H cap items
  have htop := FixedMinHeap.toSortedDesc_run H cap
  refine ⟨?_, ?_, ?_, htop items, ?_⟩
  · have hfits := (FixedMinHeap.run H cap items).fits
    rwa [FixedMinHeap.run_cap] at hfits
  · obtain ⟨evicted, hperm, -⟩ := hkept.split
    exact ⟨evicted, ((FixedMinHeap.toSortedDesc_perm _).append_right evicted).trans hperm⟩
  · exact FixedMinHeap.pairwise_toSortedDesc _
  · intro reordered hperm
    have hsame := descending_congr (hperm.map SlowItem.order)
    exact (htop reordered).trans ((congrArg (List.take cap) hsame.symm).trans (htop items).symm)

/-- The heap of the metrics is the bounded heap over a list. -/
theorem push_listHeap (self : FixedMinHeap (listHeap SlowItem.order)) (item : SlowItem) :
    (self.push item).heap = pushSlowest self.cap self.heap item := by
  by_cases hzero : self.cap = 0
  · rw [FixedMinHeap.push, if_pos hzero, pushSlowest, if_pos hzero]
  · rw [FixedMinHeap.push, if_neg hzero, pushSlowest, if_neg hzero]
    by_cases hroom : self.heap.length < self.cap
    · have helements : ((listHeap SlowItem.order).elements self.heap).length < self.cap := hroom
      rw [dif_pos helements, if_pos hroom]
      rfl
    · have helements : ¬((listHeap SlowItem.order).elements self.heap).length < self.cap := hroom
      rw [dif_neg helements, if_neg hroom]
      split
      · next htop =>
        have hnone : self.heap.argmin (fun entry => entry.latencyMicros.toNat) = none := htop
        rw [hnone]
      · next smallest htop =>
        have hsome : self.heap.argmin (fun entry => entry.latencyMicros.toNat) = some smallest :=
          htop
        rw [hsome]
        by_cases hlarger : smallest.order < item.order
        · rw [if_pos hlarger]
          exact (listHeap_replaceTop htop item).trans (if_pos hlarger).symm
        · rw [if_neg hlarger]
          exact (if_neg hlarger).symm

/-- The slowest items in the metrics are those of a bounded heap that got every success. -/
theorem topSlowest_recordAll (hdr : Hdr) (topN : Nat) (items : List SlowItem) :
    (recordAll hdr topN items).topSlowest =
      (FixedMinHeap.run (listHeap SlowItem.order) topN items).heap := by
  have hrun : ∀ (items : List SlowItem) (metrics : CumulativeMetrics)
      (self : FixedMinHeap (listHeap SlowItem.order)), metrics.topN = self.cap →
      metrics.topSlowest = self.heap →
      (items.foldl (CumulativeMetrics.recordSuccess hdr) metrics).topSlowest =
        (items.foldl FixedMinHeap.push self).heap := by
    intro items
    induction items with
    | nil =>
      intro metrics self _ hheap
      exact hheap
    | cons item rest ih =>
      intro metrics self hcap hheap
      refine ih (metrics.recordSuccess hdr item) (self.push item) ?_ ?_
      · rw [FixedMinHeap.push_cap]
        exact hcap
      · rw [push_listHeap, ← hcap, ← hheap]
        rfl
  exact hrun items _ _ rfl rfl

/-- **The slowest are never lost**, whatever happens to the histogram: no latency since the
start exceeds all that are kept. -/
theorem exists_le_topSlowest (hdr : Hdr) {topN : Nat} (htop : 0 < topN)
    (items : List SlowItem) :
    ∀ v ∈ latencies items, ∃ entry ∈ (recordAll hdr topN items).topSlowest,
      v ≤ entry.latencyMicros.toNat := by
  intro v hv
  obtain ⟨item, hitem, rfl⟩ := List.mem_map.mp hv
  rw [topSlowest_recordAll]
  exact (FixedMinHeap.run_isTop (listHeap SlowItem.order) topN items).exists_le htop hitem

theorem sortedDesc_eq (self : FixedMinHeap (listHeap SlowItem.order)) :
    sortedDesc self.heap = self.toSortedDesc := rfl

/-- **The summary shows the slowest** successes since the start, even when the histogram was
replaced. -/
theorem slowest_summarize (hdr : Hdr) (topN : Nat) (items : List SlowItem)
    {summary : CumulativeSummary}
    (h : (recordAll hdr topN items).summarize hdr = some summary) :
    latencies summary.slowest = (descending (latencies items)).take topN := by
  have hslowest : summary.slowest = sortedDesc (recordAll hdr topN items).topSlowest := by
    unfold CumulativeMetrics.summarize at h
    split at h
    · exact absurd h (by simp)
    · rw [← Option.some.inj h]
  rw [hslowest, topSlowest_recordAll, sortedDesc_eq]
  exact FixedMinHeap.toSortedDesc_run (listHeap SlowItem.order) topN items

end IgraRpc
