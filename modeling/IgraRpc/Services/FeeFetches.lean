import IgraRpc.Lib.Lts
import IgraRpc.Services.AcceptPath

/-!
# Overlapping fetches — `get_effective_base_fee`

A call reads the cache, looks at the clock, and if the fee it read is not fresh asks the
EL; it stores the fee when the reply is there. Between these steps other calls go on, and
the EL answers in any order. Each fetch is numbered when the EL is asked.

* `served_from_cache` — **what a call is served from the cache**: the fee stored last
  before it read, less than a second after it was stored; and if a fetch issued later had
  been stored before, the two fetches overlapped;
* `staleFee_served` — two overlapping fetches: the older one's reply comes last, and is
  served long after the EL was asked.
-/

namespace IgraRpc

open Lib

-- ---------------------------------------------------------------------------
-- Calls
-- ---------------------------------------------------------------------------

/-- A fetch: its number, when the EL was asked, and the fetches that were in flight then. -/
structure Fetch where
  issue : Nat
  askedAt : Nat
  overlaps : List Nat
  deriving DecidableEq, Repr

/-- A fee in the cache, now or before: the fetch that obtained it and when it was stored. -/
structure StoredFee where
  fetch : Fetch
  fee : Nat
  storedAt : Nat
  deriving DecidableEq, Repr

/-- What the cache holds of it. -/
def StoredFee.cached (stored : StoredFee) : CachedFee := ⟨stored.fee, stored.storedAt⟩

/-- How far a call has come. One that has read the cache keeps what it read, beside all the
fees that had been stored by then. -/
inductive FeeCallState where
  | checking (cached : Option CachedFee) (seen : List StoredFee)
  | fetching (fetch : Fetch)
  | storing (fetch : Fetch) (fee : Nat)
  | served (seen : List StoredFee) (fee now : Nat)
  | fetched (fee : Nat)
  | failed (e : AppError)
  | dropped

/-- The fetch that a call has in flight. -/
def FeeCallState.fetch? : FeeCallState → Option Fetch
  | fetching fetch => some fetch
  | storing fetch _ => some fetch
  | _ => none

/-- The clock, the cache, the calls that share it, the number of fetches so far, and what
has been stored, in order. -/
structure FeeCalls where
  now : Nat
  cache : Option CachedFee
  calls : List FeeCallState
  issued : Nat
  stores : List StoredFee

/-- The fetch is in flight. -/
def FeeCalls.InFlight (s : FeeCalls) (f : Fetch) : Prop :=
  ∃ call ∈ s.calls, call.fetch? = some f

/-- The numbers of the fetches in flight. -/
def FeeCalls.inFlight (s : FeeCalls) : List Nat :=
  s.calls.filterMap fun call => call.fetch?.map Fetch.issue

inductive FeeCallsLabel where
  | tick (elapsed : Nat)
  | read
  | hit (i : Nat)
  | ask (i : Nat)
  | reply (i : Nat) (el : El)
  | store (i : Nat)
  | drop (i : Nat)

variable (config : GasConfig) (parseBlock : BlockParser)

inductive FeeCallsStep : FeeCalls → FeeCallsLabel → FeeCalls → Prop where
  | tick (s : FeeCalls) (elapsed : Nat) :
      FeeCallsStep s (.tick elapsed) { s with now := s.now + elapsed }
  | read (s : FeeCalls) :
      FeeCallsStep s .read { s with calls := s.calls ++ [.checking s.cache s.stores] }
  | hit (s : FeeCalls) (i : Nat) (cached : Option CachedFee) (seen : List StoredFee)
      (fee : Nat) (hcall : s.calls[i]? = some (.checking cached seen))
      (hfresh : freshFee cached s.now = some fee) :
      FeeCallsStep s (.hit i) { s with calls := s.calls.set i (.served seen fee s.now) }
  | ask (s : FeeCalls) (i : Nat) (cached : Option CachedFee) (seen : List StoredFee)
      (hcall : s.calls[i]? = some (.checking cached seen))
      (hstale : freshFee cached s.now = none) :
      FeeCallsStep s (.ask i)
        { s with
          calls := s.calls.set i (.fetching ⟨s.issued, s.now, s.inFlight⟩)
          issued := s.issued + 1 }
  | replyOk (s : FeeCalls) (i : Nat) (el : El) (fetch : Fetch) (fee : Nat)
      (hcall : s.calls[i]? = some (.fetching fetch))
      (hfee : refreshedFee config parseBlock el = .ok fee) :
      FeeCallsStep s (.reply i el) { s with calls := s.calls.set i (.storing fetch fee) }
  | replyErr (s : FeeCalls) (i : Nat) (el : El) (fetch : Fetch) (e : AppError)
      (hcall : s.calls[i]? = some (.fetching fetch))
      (he : refreshedFee config parseBlock el = .error e) :
      FeeCallsStep s (.reply i el) { s with calls := s.calls.set i (.failed e) }
  | store (s : FeeCalls) (i : Nat) (fetch : Fetch) (fee : Nat)
      (hcall : s.calls[i]? = some (.storing fetch fee)) :
      FeeCallsStep s (.store i)
        { s with
          cache := some ⟨fee, s.now⟩
          calls := s.calls.set i (.fetched fee)
          stores := s.stores ++ [⟨fetch, fee, s.now⟩] }
  | drop (s : FeeCalls) (i : Nat) :
      -- the caller is gone
      FeeCallsStep s (.drop i) { s with calls := s.calls.set i .dropped }

/-- The calls on a new cache. -/
def feeCalls : Lts FeeCalls FeeCallsLabel where
  init s := s = ⟨0, none, [], 0, []⟩
  step := FeeCallsStep config parseBlock

variable {config parseBlock}

-- ---------------------------------------------------------------------------
-- The invariant
-- ---------------------------------------------------------------------------

/-- Of two fetches the one that is stored second, or still in flight, was in flight when the
other one was issued, if it was issued first. -/
def Fetch.Overtaken (g f : Fetch) : Prop := f.issue < g.issue → f.issue ∈ g.overlaps

/-- What is true of a served call: the fee is that of the last store it saw, not a second
old. -/
def ServedFee (seen : List StoredFee) (fee now : Nat) : Prop :=
  ∃ source, seen.getLast? = some source ∧ source.fee = fee ∧
    now < source.storedAt + igraBlockTime

/-- What is true of a call that has read the cache. -/
def FeeCallState.Reads : FeeCallState → Prop
  | checking cached seen => cached = seen.getLast?.map StoredFee.cached ∧
    seen.Pairwise fun g f => g.fetch.Overtaken f.fetch
  | served seen fee now => ServedFee seen fee now ∧
    seen.Pairwise fun g f => g.fetch.Overtaken f.fetch
  | _ => True

structure FeeCalls.Invariant (s : FeeCalls) : Prop where
  cache : s.cache = s.stores.getLast?.map StoredFee.cached
  reads : ∀ call ∈ s.calls, call.Reads
  numbered : ∀ f, s.InFlight f → f.issue < s.issued
  stored_numbered : ∀ g ∈ s.stores, g.fetch.issue < s.issued
  flying : ∀ f g, s.InFlight f → s.InFlight g → g.Overtaken f
  flying_stored : ∀ f, s.InFlight f → ∀ g ∈ s.stores, g.fetch.Overtaken f
  stored : s.stores.Pairwise fun g f => g.fetch.Overtaken f.fetch

variable {s t : FeeCalls}

theorem FeeCalls.mem_inFlight {n : Nat} : n ∈ s.inFlight ↔ ∃ f, s.InFlight f ∧ f.issue = n := by
  simp only [inFlight, InFlight, List.mem_filterMap, Option.map_eq_some_iff]
  refine ⟨?_, ?_⟩
  · intro ⟨call, hcall, f, hf, hn⟩
    exact ⟨f, ⟨call, hcall, hf⟩, hn⟩
  · intro ⟨f, ⟨call, hcall, hf⟩, hn⟩
    exact ⟨call, hcall, f, hf, hn⟩

/-- After one call has gone on, a fetch in flight is that call's or was in flight before. -/
theorem inFlight_set {i : Nat} {call : FeeCallState} {f : Fetch}
    (h : ∃ c ∈ s.calls.set i call, c.fetch? = some f) : s.InFlight f ∨ call.fetch? = some f := by
  obtain ⟨c, hc, hf⟩ := h
  rcases List.mem_or_eq_of_mem_set hc with hc | rfl
  · exact Or.inl ⟨c, hc, hf⟩
  · exact Or.inr hf

theorem inFlight_of_getElem? {i : Nat} {call : FeeCallState} (h : s.calls[i]? = some call)
    {f : Fetch} (hf : call.fetch? = some f) : s.InFlight f :=
  ⟨call, List.mem_of_getElem? h, hf⟩

/-- A fee read from the cache is that of the last store. -/
theorem servedFee_of_fresh {cached : Option CachedFee} {seen : List StoredFee} {now fee : Nat}
    (hcached : cached = seen.getLast?.map StoredFee.cached)
    (hfresh : freshFee cached now = some fee) : ServedFee seen fee now := by
  rw [hcached] at hfresh
  cases hlast : seen.getLast? with
  | none =>
    rw [hlast] at hfresh
    exact absurd hfresh (by simp [freshFee])
  | some source =>
    rw [hlast] at hfresh
    obtain ⟨cached, hsome, hage, hfee⟩ := freshFee_eq_some hfresh
    obtain rfl := Option.some.inj hsome
    have hage' : now - source.storedAt < igraBlockTime := hage
    exact ⟨source, hlast, hfee, by omega⟩

theorem reads_set {i : Nat} {call : FeeCallState} (hs : ∀ c ∈ s.calls, c.Reads)
    (hcall : call.Reads) : ∀ c ∈ s.calls.set i call, c.Reads := by
  intro c hc
  rcases List.mem_or_eq_of_mem_set hc with hc | rfl
  · exact hs c hc
  · exact hcall

/-- A call goes on without a new fetch. -/
theorem FeeCalls.Invariant.set (hs : s.Invariant) (i : Nat) {call : FeeCallState}
    (hreads : call.Reads) (hfetch : ∀ f, call.fetch? = some f → s.InFlight f) :
    FeeCalls.Invariant { s with calls := s.calls.set i call } := by
  have hbefore : ∀ f, FeeCalls.InFlight { s with calls := s.calls.set i call } f →
      s.InFlight f := by
    intro f hf
    rcases inFlight_set hf with hf | hf
    · exact hf
    · exact hfetch f hf
  exact ⟨hs.cache, reads_set hs.reads hreads, fun f hf => hs.numbered f (hbefore f hf),
    hs.stored_numbered, fun f g hf hg => hs.flying f g (hbefore f hf) (hbefore g hg),
    fun f hf => hs.flying_stored f (hbefore f hf), hs.stored⟩

/-- A call asks the EL: its fetch is issued after all others, beside those in flight. -/
theorem FeeCalls.Invariant.ask (hs : s.Invariant) (i : Nat) :
    FeeCalls.Invariant { s with
      calls := s.calls.set i (.fetching ⟨s.issued, s.now, s.inFlight⟩)
      issued := s.issued + 1 } := by
  have hbefore : ∀ f, FeeCalls.InFlight { s with
      calls := s.calls.set i (.fetching ⟨s.issued, s.now, s.inFlight⟩)
      issued := s.issued + 1 } f → s.InFlight f ∨ f = ⟨s.issued, s.now, s.inFlight⟩ := by
    intro f hf
    rcases inFlight_set hf with hf | hf
    · exact Or.inl hf
    · exact Or.inr (Option.some.inj hf).symm
  refine ⟨hs.cache, reads_set hs.reads trivial, ?_, ?_, ?_, ?_, hs.stored⟩
  · intro f hf
    rcases hbefore f hf with hf | rfl
    · exact Nat.lt_succ_of_lt (hs.numbered f hf)
    · exact Nat.lt_succ_self s.issued
  · intro g hg
    exact Nat.lt_succ_of_lt (hs.stored_numbered g hg)
  · intro f g hf hg hlt
    rcases hbefore f hf with hf | rfl
    · rcases hbefore g hg with hg | rfl
      · exact hs.flying f g hf hg hlt
      · exact FeeCalls.mem_inFlight.mpr ⟨f, hf, rfl⟩
    · -- the new fetch was issued last
      rcases hbefore g hg with hg | rfl
      · exact absurd hlt (Nat.not_lt.mpr (Nat.le_of_lt (hs.numbered g hg)))
      · exact absurd hlt (Nat.lt_irrefl _)
  · intro f hf g hg hlt
    rcases hbefore f hf with hf | rfl
    · exact hs.flying_stored f hf g hg hlt
    · exact absurd hlt (Nat.not_lt.mpr (Nat.le_of_lt (hs.stored_numbered g hg)))

/-- A call stores its fee. -/
theorem FeeCalls.Invariant.store (hs : s.Invariant) {i : Nat} {fetch : Fetch} {fee : Nat}
    (hcall : s.calls[i]? = some (.storing fetch fee)) :
    FeeCalls.Invariant { s with
      cache := some ⟨fee, s.now⟩
      calls := s.calls.set i (.fetched fee)
      stores := s.stores ++ [⟨fetch, fee, s.now⟩] } := by
  have hflight : s.InFlight fetch := inFlight_of_getElem? hcall rfl
  have hbefore : ∀ f, (∃ c ∈ s.calls.set i (.fetched fee), c.fetch? = some f) →
      s.InFlight f := by
    intro f hf
    rcases inFlight_set hf with hf | hf
    · exact hf
    · exact absurd hf (by simp [FeeCallState.fetch?])
  refine ⟨?_, reads_set hs.reads trivial, fun f hf => hs.numbered f (hbefore f hf), ?_,
    fun f g hf hg => hs.flying f g (hbefore f hf) (hbefore g hg), ?_, ?_⟩
  · show some _ = (s.stores ++ [_]).getLast?.map StoredFee.cached
    rw [List.getLast?_append_of_ne_nil _ (by simp)]
    rfl
  · intro g hg
    rcases List.mem_append.mp hg with hg | hg
    · exact hs.stored_numbered g hg
    · rw [List.mem_singleton.mp hg]
      exact hs.numbered fetch hflight
  · intro f hf g hg
    rcases List.mem_append.mp hg with hg | hg
    · exact hs.flying_stored f (hbefore f hf) g hg
    · rw [List.mem_singleton.mp hg]
      exact hs.flying f fetch (hbefore f hf) hflight
  · refine List.pairwise_append.mpr ⟨hs.stored, List.pairwise_singleton _ _, ?_⟩
    intro g hg f hf
    rw [List.mem_singleton.mp hf]
    exact hs.flying_stored fetch hflight g hg

/-- A call begins: it reads the cache. -/
theorem FeeCalls.Invariant.read (hs : s.Invariant) :
    FeeCalls.Invariant { s with calls := s.calls ++ [.checking s.cache s.stores] } := by
  have hbefore : ∀ f, (∃ c ∈ s.calls ++ [.checking s.cache s.stores], c.fetch? = some f) →
      s.InFlight f := by
    intro f ⟨c, hc, hf⟩
    rcases List.mem_append.mp hc with hc | hc
    · exact ⟨c, hc, hf⟩
    · rw [List.mem_singleton.mp hc] at hf
      exact absurd hf (by simp [FeeCallState.fetch?])
  refine ⟨hs.cache, ?_, fun f hf => hs.numbered f (hbefore f hf), hs.stored_numbered,
    fun f g hf hg => hs.flying f g (hbefore f hf) (hbefore g hg),
    fun f hf => hs.flying_stored f (hbefore f hf), hs.stored⟩
  intro c hc
  rcases List.mem_append.mp hc with hc | hc
  · exact hs.reads c hc
  · rw [List.mem_singleton.mp hc]
    exact ⟨hs.cache, hs.stored⟩

theorem feeCallsStep_invariant {l : FeeCallsLabel} (hs : s.Invariant)
    (h : FeeCallsStep config parseBlock s l t) : t.Invariant := by
  cases h with
  | tick elapsed =>
    exact ⟨hs.cache, hs.reads, hs.numbered, hs.stored_numbered, hs.flying, hs.flying_stored,
      hs.stored⟩
  | read => exact hs.read
  | hit i cached seen fee hcall hfresh =>
    obtain ⟨hcached, hseen⟩ := hs.reads _ (List.mem_of_getElem? hcall)
    exact hs.set i ⟨servedFee_of_fresh hcached hfresh, hseen⟩
      fun f hf => absurd hf (by simp [FeeCallState.fetch?])
  | ask i cached seen hcall hstale => exact hs.ask i
  | replyOk i el fetch fee hcall hfee =>
    refine hs.set i trivial fun f hf => inFlight_of_getElem? hcall hf
  | replyErr i el fetch e hcall he =>
    exact hs.set i trivial fun f hf => absurd hf (by simp [FeeCallState.fetch?])
  | store i fetch fee hcall => exact hs.store hcall
  | drop i => exact hs.set i trivial fun f hf => absurd hf (by simp [FeeCallState.fetch?])

theorem feeCalls_invariant (h : (feeCalls config parseBlock).Reachable s) : s.Invariant := by
  refine Lts.invariant ?_ ?_ s h
  · rintro s rfl
    exact ⟨rfl, by simp, by simp [FeeCalls.InFlight], by simp, by simp [FeeCalls.InFlight],
      by simp [FeeCalls.InFlight], List.Pairwise.nil⟩
  · intro s l t _ hs hstep
    exact feeCallsStep_invariant hs hstep

-- ---------------------------------------------------------------------------
-- What is served
-- ---------------------------------------------------------------------------

/-- What a call is served from the cache at `now`, having seen `seen` stored: the fee stored
last, less than a second after it was stored, and obtained by a fetch that every fetch
issued later and stored before overlapped. -/
structure ServedFromCache (seen : List StoredFee) (fee now : Nat) (source : StoredFee) :
    Prop where
  last : seen.getLast? = some source
  fee : source.fee = fee
  fresh : now < source.storedAt + igraBlockTime
  overlapped : ∀ g ∈ seen, source.fetch.issue < g.fetch.issue →
    source.fetch.issue ∈ g.fetch.overlaps

/-- **What a call is served from the cache**, however the calls interleave and in whatever
order the EL answers. -/
theorem served_from_cache (h : (feeCalls config parseBlock).Reachable s)
    {seen : List StoredFee} {fee now : Nat} (hserved : .served seen fee now ∈ s.calls) :
    ∃ source, ServedFromCache seen fee now source := by
  obtain ⟨⟨source, hlast, hfee, hfresh⟩, hseen⟩ := (feeCalls_invariant h).reads _ hserved
  refine ⟨source, hlast, hfee, hfresh, ?_⟩
  intro g hg hlt
  obtain ⟨before, hsplit⟩ := List.getLast?_eq_some_iff.mp hlast
  rw [hsplit] at hg hseen
  rcases List.mem_append.mp hg with hg | hg
  · exact (List.pairwise_append.mp hseen).2.2 g hg source (List.mem_singleton_self source) hlt
  · rw [List.mem_singleton.mp hg] at hlt
    exact absurd hlt (Nat.lt_irrefl _)

/-! ### An older fee that is stored last -/

/-- An EL whose latest block has this base fee. -/
def blockEl (baseFeePerGas : String) : El := fun _ =>
  some (.object [("jsonrpc", .string "2.0"), ("id", .int 1),
    ("result", .object [("baseFeePerGas", .string baseFeePerGas)])])

theorem blockEl_older :
    refreshedFee ⟨1⟩ parseBlockReply (blockEl "0x77359400") = .ok 2000000000 := rfl

theorem blockEl_newer :
    refreshedFee ⟨1⟩ parseBlockReply (blockEl "0xb2d05e00") = .ok 3000000000 := rfl

/-- The first of two fetches, and the second one, a tenth of a second later. -/
def olderFetch : Fetch := ⟨0, 0, []⟩
def newerFetch : Fetch := ⟨1, 100000000, [0]⟩

/-- What has been stored when the EL answers the second fetch at once and the first one
after five seconds. -/
def staleStores : List StoredFee :=
  [⟨newerFetch, 3000000000, 100000000⟩, ⟨olderFetch, 2000000000, 5100000000⟩]

theorem staleFee_run :
    (feeCalls ⟨1⟩ parseBlockReply).Reachable
      { now := 5100000000
        cache := some ⟨2000000000, 5100000000⟩
        calls := [.fetched 2000000000, .fetched 3000000000,
          .served staleStores 2000000000 5100000000]
        issued := 2
        stores := staleStores } := by
  have h0 : (feeCalls ⟨1⟩ parseBlockReply).Reachable ⟨0, none, [], 0, []⟩ :=
    Lts.reachable_init rfl
  have h1 := (h0.next (.read _)).next (.read _)
  have h2 := h1.next (.ask _ 0 none [] rfl rfl)
  have h3 := (h2.next (.tick _ 100000000)).next (.ask _ 1 none [] rfl rfl)
  -- the second fetch is answered and stored
  have h4 := h3.next (.replyOk _ 1 _ newerFetch _ rfl blockEl_newer)
  have h5 := h4.next (.store _ 1 newerFetch _ rfl)
  -- the first one five seconds later
  have h6 := (h5.next (.tick _ 5000000000)).next (.replyOk _ 0 _ olderFetch _ rfl blockEl_older)
  have h7 := h6.next (.store _ 0 olderFetch _ rfl)
  have h8 := h7.next (.read _)
  exact h8.next (.hit _ 2 (some ⟨2000000000, 5100000000⟩) staleStores 2000000000 rfl rfl)

/-- **The cache goes back**, and an old fee passes for fresh: the third call is served the fee
of the first fetch, after that of the second had been stored, and more than five seconds
after the EL was asked for it. -/
theorem staleFee_served :
    ∃ s, (feeCalls ⟨1⟩ parseBlockReply).Reachable s ∧
      ∃ seen fee now source g, .served seen fee now ∈ s.calls ∧
        seen.getLast? = some source ∧ source.fee = fee ∧ g ∈ seen ∧
        source.fetch.issue < g.fetch.issue ∧
        ¬now - source.fetch.askedAt < igraBlockTime :=
  ⟨_, staleFee_run, staleStores, 2000000000, 5100000000, ⟨olderFetch, 2000000000, 5100000000⟩,
    ⟨newerFetch, 3000000000, 100000000⟩, by simp, rfl, rfl, by simp [staleStores], by decide,
    by decide⟩

theorem served_from_cache_stale :
    ∃ source, ServedFromCache staleStores 2000000000 5100000000 source :=
  served_from_cache staleFee_run (by simp)

end IgraRpc
