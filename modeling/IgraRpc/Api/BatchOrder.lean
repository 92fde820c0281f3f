import IgraRpc.Api.Gate
import IgraRpc.Api.WsTask

/-!
# The order of a batch — `handle_rpc`, `process_ws_batch`

One batch beside everything else that goes on: other requests, the worker, and other
callers of the fee service. An item that runs looks at the fee cache; without a fresh fee
it waits for the EL, and it enters the queue, if it is accepted, when it ends. Over HTTP
the items run one after the other, over a WebSocket up to 64 at a time.

* `batch_order` — **over HTTP accepted transactions enter the queue in the order of the
  batch**, whatever the timing of the fetches; over a WebSocket one is overtaken only by
  others that were in flight with it;
* `wsBatch_overtakes` — two fetches at once whose replies change places.
-/

namespace IgraRpc

open Lib

-- ---------------------------------------------------------------------------
-- Batches that run
-- ---------------------------------------------------------------------------

inductive Transport where
  | http
  | ws

/-- How many of `n` items run at once. -/
def Transport.width (n : Nat) : Transport → Nat
  | http => 1
  | ws => min n maxInflightRequests

/-- What is done about an item. -/
def Transport.process (security : SecurityConfig) (alloy : Alloy) :
    Transport → Surroundings → RpcRequest → Submission
  | http => routeAndProcess security alloy
  | ws => processWsRequestValue security alloy

/-- What an item finds when it looks at the fee cache. -/
structure Look where
  index : Nat
  cache : Option CachedFee
  now : Nat

/-- A transaction of the batch that was accepted: its item, its place among all that were
accepted, and the other items in flight then. -/
structure Entered where
  index : Nat
  txRequest : TransactionRequest
  place : Nat
  inFlight : List Nat

/-- The items of a batch, what each has found in the fee cache, the cache itself with the
clock, the queue with its worker, and which items have entered the queue. -/
structure BatchRun where
  window : Window Value
  looks : List Look
  now : Nat
  cache : Option CachedFee
  processor : Processor
  entered : List Entered

/-- The cache after an event of the fee service. -/
def storeEvent (now : Nat) (cache : Option CachedFee) : FeeEvent → Option CachedFee
  | .storeFee fee => some ⟨fee, now⟩
  | .elCall _ => cache

/-- An item ends, and with its place in the window taken the next one runs. -/
def BatchRun.finish (s : BatchRun) (index : Nat) (result : Submission) : BatchRun :=
  { s with
    window := s.window.complete index result.response
    cache := result.events.foldl (storeEvent s.now) s.cache
    processor := s.processor.receive result.queue
    entered := s.entered ++
      (result.queue.items.drop s.processor.queue.items.length).map fun txRequest =>
        ⟨index, txRequest, s.processor.accepted.length, s.window.running.erase index⟩ }

inductive BatchRunLabel where
  | look (index : Nat)
  | finish (index : Nat) (el : El) (uuid : String)
  | tick (elapsed : Nat)
  | storeElsewhere (fee : Nat)
  | processor (l : ProcessorLabel)

variable (K : Consensus) (zlib : Zlib) (appState : AppState) (security : SecurityConfig)
  (alloy : Alloy) (gas : GasConfig) (transport : Transport) (requests : List RpcRequest)

inductive BatchRunStep : BatchRun → BatchRunLabel → BatchRun → Prop where
  | look (s : BatchRun) (index : Nat) (hrunning : index ∈ s.window.running)
      (hfirst : ∀ look ∈ s.looks, look.index ≠ index) :
      BatchRunStep s (.look index) { s with looks := s.looks ++ [⟨index, s.cache, s.now⟩] }
  | finish (s : BatchRun) (look : Look) (el : El) (uuid : String) (req : RpcRequest)
      (hlook : look ∈ s.looks) (hrunning : look.index ∈ s.window.running)
      (hreq : requests[look.index]? = some req) :
      BatchRunStep s (.finish look.index el uuid)
        (s.finish look.index (transport.process security alloy
          ⟨⟨gas, el, look.cache, look.now⟩, uuid, s.processor.queue⟩ req))
  | tick (s : BatchRun) (elapsed : Nat) :
      BatchRunStep s (.tick elapsed) { s with now := s.now + elapsed }
  | storeElsewhere (s : BatchRun) (fee : Nat) :
      BatchRunStep s (.storeElsewhere fee) { s with cache := some ⟨fee, s.now⟩ }
  | processor (s : BatchRun) (l : ProcessorLabel) (p : Processor)
      (h : ProcessorStep K alloy zlib appState s.processor l p) :
      BatchRunStep s (.processor l) { s with processor := p }

/-- The batch from its start, whatever the state of the provider. -/
def batchRun : Lts BatchRun BatchRunLabel where
  init s := s.window = Window.prime requests.length (transport.width requests.length) ∧
    s.looks = [] ∧ s.entered = []
  step := BatchRunStep K zlib appState security alloy gas transport requests

variable {K zlib appState security alloy gas transport requests}

-- ---------------------------------------------------------------------------
-- The queue
-- ---------------------------------------------------------------------------

/-- An item adds at most one transaction. -/
theorem process_queue (security : SecurityConfig) (alloy : Alloy) (transport : Transport)
    (around : Surroundings) (req : RpcRequest) :
    (transport.process security alloy around req).queue = around.queue ∨
      ∃ txRequest, (transport.process security alloy around req).queue.items =
        around.queue.items ++ [txRequest] := by
  have hqueue : QueueAfter security alloy around req
      (transport.process security alloy around req).queue := by
    cases transport with
    | http => exact routeAndProcess_queue alloy around
    | ws => exact handleWsItem_queue alloy true around
  rcases hqueue with hsame | ⟨-, -, hsubmit⟩
  · exact Or.inl hsame
  · rw [hsubmit]
    exact processTransaction_queue alloy around.view around.uuid req around.queue

/-- The worker's system never forgets what was accepted. -/
theorem processorStep_accepted {s t : Processor} {l : ProcessorLabel}
    (h : ProcessorStep K alloy zlib appState s l t) :
    ∃ more, t.accepted = s.accepted ++ more := by
  cases h with
  | accept view uuid req item hitems => exact ⟨[item], rfl⟩
  | refuse | take => exact ⟨[], (List.append_nil _).symm⟩
  | finish uuid env item hbusy =>
    refine ⟨[], ?_⟩
    rw [List.append_nil]
    generalize (processWalletCall K alloy zlib appState.config appState.walletCaller env
      item.txBytes (workerIdValue uuid item)).outcome = outcome
    cases outcome <;> rfl

-- ---------------------------------------------------------------------------
-- The invariant
-- ---------------------------------------------------------------------------

/-- What has entered: each transaction stands at its place among the accepted ones, with
fewer than `k` other items in flight, and every earlier item was one of them or is done. -/
structure BatchRun.Placed (k : Nat) (s : BatchRun) (e : Entered) : Prop where
  place : s.processor.accepted[e.place]? = some e.txRequest
  finished : e.index ∈ s.window.finished.map Prod.fst
  others : e.inFlight.length < k
  earlier : ∀ i < e.index, i ∈ e.inFlight ∨ i ∈ s.window.finished.map Prod.fst

/-- `e` entered before `e'`: if it stands later in the batch, it has overtaken `e'`. -/
def Entered.Before (e e' : Entered) : Prop :=
  e.place < e'.place ∧ (e'.index < e.index → e'.index ∈ e.inFlight)

structure BatchRun.Invariant (n k : Nat) (s : BatchRun) : Prop where
  window : s.window.Valid n k
  placed : ∀ e ∈ s.entered, s.Placed k e
  order : s.entered.Pairwise Entered.Before

variable {n k : Nat} {s t : BatchRun}

/-- What has entered stays where it is. -/
theorem BatchRun.Placed.mono {e : Entered} (h : s.Placed k e)
    (haccepted : ∃ more, t.processor.accepted = s.processor.accepted ++ more)
    (hfinished : ∀ i ∈ s.window.finished.map Prod.fst, i ∈ t.window.finished.map Prod.fst) :
    t.Placed k e := by
  obtain ⟨more, hmore⟩ := haccepted
  refine ⟨?_, hfinished _ h.finished, h.others, fun i hi => (h.earlier i hi).imp id (hfinished i)⟩
  have hlt : e.place < s.processor.accepted.length :=
    (List.getElem?_eq_some_iff.mp h.place).1
  rw [hmore, List.getElem?_append_left hlt, h.place]

/-- The item that ends has finished. -/
theorem BatchRun.finish_finished (s : BatchRun) (index : Nat) (result : Submission) :
    (s.finish index result).window.finished.map Prod.fst =
      s.window.finished.map Prod.fst ++ [index] := by
  show (s.window.complete index result.response).finished.map Prod.fst = _
  rw [Window.complete_finished, List.map_append]
  rfl

theorem BatchRun.mem_finish_finished {i : Nat} (index : Nat) (result : Submission)
    (hi : i ∈ s.window.finished.map Prod.fst) :
    i ∈ (s.finish index result).window.finished.map Prod.fst := by
  rw [BatchRun.finish_finished]
  exact List.mem_append_left _ hi

/-- An item that ends without entering the queue. -/
theorem BatchRun.Invariant.finish_same (hs : s.Invariant n k) {index : Nat}
    (hrunning : index ∈ s.window.running) {result : Submission}
    (hqueue : result.queue = s.processor.queue) : (s.finish index result).Invariant n k := by
  have hentered : (s.finish index result).entered = s.entered := by
    rw [BatchRun.finish, hqueue, List.drop_length, List.map_nil, List.append_nil]
  refine ⟨hs.window.complete hrunning _, ?_, ?_⟩
  · rw [hentered]
    intro e he
    refine (hs.placed e he).mono ⟨[], ?_⟩ fun i => BatchRun.mem_finish_finished index result
    show (s.processor.receive result.queue).accepted = _
    rw [hqueue, Processor.receive_same, List.append_nil]
  · rw [hentered]
    exact hs.order

section Enters

variable {index : Nat} {result : Submission} {txRequest : TransactionRequest}

/-- An item that enters the queue is the next one accepted. -/
theorem BatchRun.finish_accepted
    (hqueue : result.queue.items = s.processor.queue.items ++ [txRequest]) :
    (s.finish index result).processor.accepted = s.processor.accepted ++ [txRequest] := by
  show s.processor.accepted ++ result.queue.items.drop s.processor.queue.items.length = _
  rw [hqueue, List.drop_left]

theorem BatchRun.finish_entered
    (hqueue : result.queue.items = s.processor.queue.items ++ [txRequest]) :
    (s.finish index result).entered = s.entered ++
      [⟨index, txRequest, s.processor.accepted.length, s.window.running.erase index⟩] := by
  rw [BatchRun.finish, hqueue, List.drop_left]
  rfl

/-- The item that enters now: the others of its window are in flight, and every earlier
item has started. -/
theorem BatchRun.Invariant.placed_new (hs : s.Invariant n k)
    (hrunning : index ∈ s.window.running)
    (hqueue : result.queue.items = s.processor.queue.items ++ [txRequest]) :
    (s.finish index result).Placed k
      ⟨index, txRequest, s.processor.accepted.length, s.window.running.erase index⟩ := by
  refine ⟨?_, ?_, ?_, ?_⟩
  · rw [BatchRun.finish_accepted hqueue, List.getElem?_append_right (Nat.le_refl _),
      Nat.sub_self]
    rfl
  · rw [BatchRun.finish_finished]
    exact List.mem_append_right _ (List.mem_singleton_self index)
  · have hlength := List.length_erase_of_mem hrunning
    have hpos : 0 < s.window.running.length := List.length_pos_of_mem hrunning
    have hbounded := hs.window.bounded
    show (s.window.running.erase index).length < k
    omega
  · intro i hi
    have hne : i ≠ index := Nat.ne_of_lt hi
    rcases hs.window.earlier hrunning hi with hi | hi
    · exact Or.inl ((List.mem_erase_of_ne hne).mpr hi)
    · exact Or.inr (BatchRun.mem_finish_finished index result hi)

/-- An item that entered earlier, and from a later place in the batch, met it in flight. -/
theorem BatchRun.Invariant.before_new (hs : s.Invariant n k)
    (hrunning : index ∈ s.window.running) {e : Entered} (he : e ∈ s.entered) :
    e.Before ⟨index, txRequest, s.processor.accepted.length, s.window.running.erase index⟩ := by
  have hplaced := hs.placed e he
  refine ⟨(List.getElem?_eq_some_iff.mp hplaced.place).1, ?_⟩
  intro hlt
  -- it was running until now, so it had not finished when `e` entered
  rcases hplaced.earlier index hlt with hflight | hdone
  · exact hflight
  · exact absurd hdone (hs.window.not_finished hrunning)

/-- An item that ends and enters the queue. -/
theorem BatchRun.Invariant.finish_enters (hs : s.Invariant n k)
    (hrunning : index ∈ s.window.running)
    (hqueue : result.queue.items = s.processor.queue.items ++ [txRequest]) :
    (s.finish index result).Invariant n k := by
  refine ⟨hs.window.complete hrunning _, ?_, ?_⟩
  · rw [BatchRun.finish_entered hqueue]
    intro e he
    rcases List.mem_append.mp he with he | he
    · exact (hs.placed e he).mono ⟨_, BatchRun.finish_accepted hqueue⟩
        fun i => BatchRun.mem_finish_finished index result
    · rw [List.mem_singleton.mp he]
      exact hs.placed_new hrunning hqueue
  · rw [BatchRun.finish_entered hqueue]
    refine List.pairwise_append.mpr ⟨hs.order, List.pairwise_singleton _ _, ?_⟩
    intro e he e' he'
    rw [List.mem_singleton.mp he']
    exact hs.before_new hrunning he

end Enters

theorem batchRunStep_invariant {l : BatchRunLabel} (hs : s.Invariant n k)
    (h : BatchRunStep K zlib appState security alloy gas transport requests s l t) :
    t.Invariant n k := by
  cases h with
  | look | tick | storeElsewhere =>
    exact ⟨hs.window, fun e he => (hs.placed e he).mono ⟨[], (List.append_nil _).symm⟩
      fun _ hi => hi, hs.order⟩
  | finish look el uuid req hlook hrunning hreq =>
    rcases process_queue security alloy transport
      ⟨⟨gas, el, look.cache, look.now⟩, uuid, s.processor.queue⟩ req with hsame | ⟨_, henters⟩
    · exact hs.finish_same hrunning hsame
    · exact hs.finish_enters hrunning henters
  | processor l p h =>
    exact ⟨hs.window, fun e he => (hs.placed e he).mono (processorStep_accepted h)
      fun _ hi => hi, hs.order⟩

theorem batchRun_invariant
    (h : (batchRun K zlib appState security alloy gas transport requests).Reachable s) :
    s.Invariant requests.length (transport.width requests.length) := by
  refine Lts.invariant (P := fun s : BatchRun =>
    s.Invariant requests.length (transport.width requests.length)) ?_ ?_ s h
  · intro s ⟨hwindow, _, hentered⟩
    refine ⟨?_, ?_, ?_⟩
    · rw [hwindow]
      exact Window.prime_valid _ _
    · rw [hentered]
      simp
    · rw [hentered]
      exact List.Pairwise.nil
  · intro s l t _ hs hstep
    exact batchRunStep_invariant hs hstep

-- ---------------------------------------------------------------------------
-- Order
-- ---------------------------------------------------------------------------

/-- Two transactions that entered: in the order of the batch, unless the later one overtook
the earlier one while it was in flight. -/
theorem BatchRun.Invariant.compare (hs : s.Invariant n k) {e e' : Entered}
    (he : e ∈ s.entered) (he' : e' ∈ s.entered) (hlt : e.index < e'.index) :
    e.place < e'.place ∨ (e'.place < e.place ∧ e.index ∈ e'.inFlight) := by
  obtain ⟨i, hi, rfl⟩ := List.getElem_of_mem he
  obtain ⟨j, hj, rfl⟩ := List.getElem_of_mem he'
  have horder := List.pairwise_iff_getElem.mp hs.order
  rcases Nat.lt_trichotomy i j with hij | rfl | hji
  · exact Or.inl (horder i j hi hj hij).1
  · exact absurd hlt (Nat.lt_irrefl _)
  · obtain ⟨hplace, hovertakes⟩ := horder j i hj hi hji
    exact Or.inr ⟨hplace, hovertakes hlt⟩

/-- Two transactions of a batch that entered the queue, `e` from an earlier item: over HTTP
`e` is in front; over a WebSocket it is in front or was in flight when `e'` entered. -/
def Transport.InOrder (e e' : Entered) : Transport → Prop
  | http => e.place < e'.place
  | ws => e.place < e'.place ∨
    (e'.place < e.place ∧ e.index ∈ e'.inFlight ∧ e'.inFlight.length < maxInflightRequests)

/-- **The order of a batch**, whatever else goes on and whenever the EL answers. -/
theorem batch_order
    (h : (batchRun K zlib appState security alloy gas transport requests).Reachable s) :
    (∀ e ∈ s.entered, s.processor.accepted[e.place]? = some e.txRequest) ∧
    ∀ e ∈ s.entered, ∀ e' ∈ s.entered, e.index < e'.index → transport.InOrder e e' := by
  have hs := batchRun_invariant h
  refine ⟨fun e he => (hs.placed e he).place, ?_⟩
  intro e he e' he' hlt
  have hothers := (hs.placed e' he').others
  rcases hs.compare he he' hlt with hfirst | ⟨hplace, hflight⟩
  · cases transport with
    | http => exact hfirst
    | ws => exact Or.inl hfirst
  · have hsome : 0 < e'.inFlight.length := List.length_pos_of_mem hflight
    cases transport with
    | http =>
      -- no other item is in flight
      have hnone : e'.inFlight.length < 1 := hothers
      omega
    | ws =>
      have hwidth : e'.inFlight.length < min requests.length maxInflightRequests := hothers
      exact Or.inr ⟨hplace, hflight, Nat.lt_of_lt_of_le hwidth (Nat.min_le_right _ _)⟩

/-! ### Two fetches at once -/

/-- Two acceptable transactions. -/
def twoTxs : List RpcRequest :=
  [sendRawTransaction (legacyTx ++ []), sendRawTransaction (legacyTx ++ [0])]

/-- The batch as it starts: nothing in the cache. -/
def coldStart (transport : Transport) : BatchRun where
  window := Window.prime 2 (transport.width 2)
  looks := []
  now := 0
  cache := none
  processor := Processor.start
  entered := []

theorem sendRawTransaction_not_refused :
    ¬Refused SecurityConfig.new "eth_sendRawTransaction" := by
  rintro (⟨-, hlisted⟩ | ⟨hmode, -⟩)
  · exact absurd hlisted (by decide +kernel)
  · exact absurd hmode (by decide)

/-- Over either transport a raw transaction goes to the transaction service. -/
theorem process_sendRawTransaction (transport : Transport) (around : Surroundings)
    (txBytes : List UInt8) :
    transport.process SecurityConfig.new legacyAlloy around (sendRawTransaction txBytes) =
      processTransaction legacyAlloy around.view around.uuid (sendRawTransaction txBytes)
        around.queue := by
  have hroute : routeAndProcess SecurityConfig.new legacyAlloy around
      (sendRawTransaction txBytes) = processTransaction legacyAlloy around.view around.uuid
        (sendRawTransaction txBytes) around.queue := by
    rw [routeAndProcess_of_allowed
      (validateRequestAuthorization_of_not_refused sendRawTransaction_not_refused)]
    exact if_pos rfl
  cases transport with
  | http => exact hroute
  | ws => exact hroute

/-- The state of the queue and the batch once an item has entered. -/
structure BatchRun.Entering (s t : BatchRun) (index : Nat) (txRequest : TransactionRequest) :
    Prop where
  window : ∃ value, t.window = s.window.complete index value
  looks : t.looks = s.looks
  now : t.now = s.now
  items : t.processor.queue.items = s.processor.queue.items ++ [txRequest]
  stays_open : t.processor.queue.closed = false
  accepted : t.processor.accepted = s.processor.accepted ++ [txRequest]
  entered : t.entered = s.entered ++
    [⟨index, txRequest, s.processor.accepted.length, s.window.running.erase index⟩]

/-- The fee of `legacyTx` is enough, whether the cache is empty or has just been filled. -/
theorem legacyTx_fees {cache : Option CachedFee} {now : Nat}
    (h : cache = none ∨ cache = some ⟨1000000000, now⟩) :
    feeChecks legacyAlloy ⟨⟨1⟩, cheapEl, cache, now⟩ (.legacy 1000000000 legacyTx)
      TxTypes.LEGACY = .ok () := by
  refine feeChecks_eq_ok.mpr ⟨1000000000, ?_, Or.inl rfl, Nat.le_refl _⟩
  rcases h with rfl | rfl
  · rfl
  · show (getEffectiveBaseFee _ _ _ (some ⟨1000000000, now⟩) now).result = _
    rw [getEffectiveBaseFee, freshFee, Nat.sub_self, if_pos (by decide)]

/-- One of the two ends, with a base fee that it meets. -/
theorem finish_twoTxs (transport : Transport) (s : BatchRun) (index : Nat) {rest : List UInt8}
    (hrest : rest.length ≤ 1) {cache : Option CachedFee} {now : Nat}
    (hcache : cache = none ∨ cache = some ⟨1000000000, now⟩)
    (hopen : s.processor.queue.closed = false)
    (hroom : s.processor.queue.items.length < transactionQueueCapacity) :
    s.Entering (s.finish index (transport.process SecurityConfig.new legacyAlloy
      ⟨⟨⟨1⟩, cheapEl, cache, now⟩, "", s.processor.queue⟩
      (sendRawTransaction (legacyTx ++ rest)))) index ⟨legacyTx ++ rest, .int 1⟩ := by
  have hqueue : queueCheck s.processor.queue = .ok () := by
    rw [queueCheck, if_neg (by simp [hopen]), if_neg (by omega)]
  have hchecks : acceptChecks legacyAlloy ⟨⟨1⟩, cheapEl, cache, now⟩
      (sendRawTransaction (legacyTx ++ rest)) (queueCheck s.processor.queue) =
        .ok (legacyTx ++ rest) :=
    acceptChecks_eq_ok.mpr ⟨_, _, legacyTx_formatChecks hrest, legacyTx_fees hcache, hqueue⟩
  obtain ⟨-, hitems, hclosed⟩ := processTransaction_of_ok hchecks ""
  rw [process_sendRawTransaction]
  have hdrop : (processTransaction legacyAlloy ⟨⟨1⟩, cheapEl, cache, now⟩ ""
      (sendRawTransaction (legacyTx ++ rest)) s.processor.queue).queue.items.drop
        s.processor.queue.items.length = [⟨legacyTx ++ rest, .int 1⟩] := by
    rw [hitems, List.drop_left]
    rfl
  refine ⟨⟨_, rfl⟩, rfl, rfl, hitems, hclosed.trans hopen, ?_, ?_⟩
  · show s.processor.accepted ++ _ = _
    rw [hdrop]
  · show s.entered ++ List.map _ _ = _
    rw [hdrop]
    rfl

/-- The system of the two. -/
def twoTxsRun (transport : Transport) : Lts BatchRun BatchRunLabel :=
  batchRun toccataConsensus sampleZlib walletState SecurityConfig.new legacyAlloy ⟨1⟩ transport
    twoTxs

/-- An item that has looked at the cache can end, and enters. -/
theorem twoTxs_enters {transport : Transport} {s : BatchRun}
    (h : (twoTxsRun transport).Reachable s) (index now : Nat) (rest : List UInt8)
    (hrest : rest.length ≤ 1)
    (hreq : twoTxs[index]? = some (sendRawTransaction (legacyTx ++ rest)))
    {cache : Option CachedFee}
    (hcache : cache = none ∨ cache = some ⟨1000000000, now⟩)
    (hlook : ⟨index, cache, now⟩ ∈ s.looks) (hrunning : index ∈ s.window.running)
    (hopen : s.processor.queue.closed = false)
    (hroom : s.processor.queue.items.length < transactionQueueCapacity) :
    ∃ t, (twoTxsRun transport).Reachable t ∧
      s.Entering t index ⟨legacyTx ++ rest, .int 1⟩ :=
  ⟨_, h.next (.finish s ⟨index, cache, now⟩ cheapEl "" _ hlook hrunning hreq),
    finish_twoTxs transport s index hrest hcache hopen hroom⟩

/-- Over a WebSocket both items look at the empty cache and ask the EL, and the second one
is answered first. -/
theorem twoTxs_ws_run :
    ∃ s, (twoTxsRun .ws).Reachable s ∧
      s.processor.accepted = [⟨legacyTx ++ [0], .int 1⟩, ⟨legacyTx ++ [], .int 1⟩] ∧
      ∃ inFlight, s.entered = [⟨1, ⟨legacyTx ++ [0], .int 1⟩, 0, [0]⟩,
        ⟨0, ⟨legacyTx ++ [], .int 1⟩, 1, inFlight⟩] := by
  have h0 : (twoTxsRun .ws).Reachable (coldStart .ws) := Lts.reachable_init ⟨rfl, rfl, rfl⟩
  have h1 := h0.next (.look _ 0 (by decide) (by simp [coldStart]))
  have h2 : (twoTxsRun .ws).Reachable
      { coldStart .ws with looks := [⟨0, none, 0⟩, ⟨1, none, 0⟩] } :=
    h1.next (.look _ 1 (by decide) (by simp [coldStart]))
  obtain ⟨s, h3, ⟨value, hwindow⟩, hlooks, -, hitems, hopen, haccepted, hentered⟩ :=
    twoTxs_enters h2 1 0 [0] (Nat.le_refl 1) rfl (Or.inl rfl) (by simp) (by decide) rfl
      (by decide)
  have hrunning : 0 ∈ (Window.complete (Window.prime 2 2) 1 value).running := by
    simp [Window.complete, Window.finish, Window.refill, Window.prime, List.range_succ]
  obtain ⟨t, h4, -, -, -, -, -, haccepted', hentered'⟩ :=
    twoTxs_enters h3 0 0 [] (Nat.zero_le 1) rfl (Or.inl rfl) (by rw [hlooks]; simp)
      (by rw [hwindow]; exact hrunning) hopen (by rw [hitems]; decide)
  rw [haccepted] at haccepted' hentered'
  rw [hentered] at hentered'
  exact ⟨t, h4, haccepted', _, hentered'⟩

/-- Over HTTP the second item looks at the cache once the first one has ended. -/
theorem twoTxs_http_run :
    ∃ s, (twoTxsRun .http).Reachable s ∧
      ∃ inFlight inFlight', s.entered = [⟨0, ⟨legacyTx ++ [], .int 1⟩, 0, inFlight⟩,
        ⟨1, ⟨legacyTx ++ [0], .int 1⟩, 1, inFlight'⟩] := by
  have h0 : (twoTxsRun .http).Reachable (coldStart .http) := Lts.reachable_init ⟨rfl, rfl, rfl⟩
  have h1 : (twoTxsRun .http).Reachable { coldStart .http with looks := [⟨0, none, 0⟩] } :=
    h0.next (.look _ 0 (by decide) (by simp [coldStart]))
  obtain ⟨s, h2, ⟨value, hwindow⟩, hlooks, hnow, hitems, hopen, haccepted, hentered⟩ :=
    twoTxs_enters h1 0 0 [] (Nat.zero_le 1) rfl (Or.inl rfl) (by simp) (by decide) rfl
      (by decide)
  have hrunning : 1 ∈ (Window.complete (Window.prime 2 1) 0 value).running := by
    simp [Window.complete, Window.finish, Window.refill, Window.prime, List.range_succ]
  have hrunning' : 1 ∈ s.window.running := by
    rw [hwindow]
    exact hrunning
  have h3 := h2.next (.storeElsewhere s 1000000000)
  have h4 := h3.next (.look _ 1 hrunning' (by simp [hlooks]))
  obtain ⟨t, h5, -, -, -, -, -, -, hentered'⟩ :=
    twoTxs_enters h4 1 s.now [0] (Nat.le_refl 1) rfl (Or.inr rfl)
      (List.mem_append_right _ (List.mem_singleton_self _)) hrunning' hopen
      (by rw [hitems]; decide)
  rw [haccepted, hentered] at hentered'
  exact ⟨t, h5, _, _, hentered'⟩

/-- **Over a WebSocket the order is not kept.** -/
theorem wsBatch_overtakes :
    ∃ s, (twoTxsRun .ws).Reachable s ∧
      s.processor.accepted = [⟨legacyTx ++ [0], .int 1⟩, ⟨legacyTx ++ [], .int 1⟩] ∧
      ∃ e ∈ s.entered, ∃ e' ∈ s.entered, e.index < e'.index ∧ ¬e.place < e'.place := by
  obtain ⟨s, hreach, haccepted, inFlight, hentered⟩ := twoTxs_ws_run
  refine ⟨s, hreach, haccepted, ?_⟩
  rw [hentered]
  exact ⟨_, List.mem_cons_of_mem _ List.mem_cons_self, _, List.mem_cons_self,
    Nat.zero_lt_one, Nat.not_lt_zero _⟩

theorem batch_order_twoTxs :
    (∃ s, (twoTxsRun .http).Reachable s ∧ s.entered.map Entered.index = [0, 1] ∧
      ∀ e ∈ s.entered, ∀ e' ∈ s.entered, e.index < e'.index →
        Transport.http.InOrder e e') ∧
    ∃ s, (twoTxsRun .ws).Reachable s ∧ s.entered.map Entered.index = [1, 0] ∧
      ∀ e ∈ s.entered, ∀ e' ∈ s.entered, e.index < e'.index →
        Transport.ws.InOrder e e' := by
  obtain ⟨s, hhttp, _, _, hentered⟩ := twoTxs_http_run
  obtain ⟨t, hws, _, _, hentered'⟩ := twoTxs_ws_run
  exact ⟨⟨s, hhttp, by rw [hentered]; rfl, (batch_order hhttp).2⟩,
    t, hws, by rw [hentered']; rfl, (batch_order hws).2⟩

end IgraRpc
