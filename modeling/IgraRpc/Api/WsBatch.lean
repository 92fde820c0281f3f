import IgraRpc.Lib.Lts
import IgraRpc.Lib.Window
import IgraRpc.Types.Json

/-!
# WebSocket batches — `process_ws_batch`

One batch of a WebSocket connection, from its reservation of permits to the one
message that answers it. The requests run concurrently; which of those running
completes next, and with what response, is up to the environment, so a run of the
batch is a run of the system `processWsBatch`:

* `complete` — a running request returns its response and the next one is admitted;
* `panic` — a running request panics and unwinds the whole task;
* `send` — nothing runs any more: the array is handed to `send_value`;
* `finishSend` — the client channel took the message, or was closed.

A request counts as running from the moment it is pushed into `running`.

## Results

* `ws_batch_served` — whatever the order of completions: the window is kept full,
  requests start in order and once each, one message answers all of them in order,
  and the permits are held until its send is over.
* `ws_batch_unwound` — a panic sends nothing and gives the permits back.
-/

namespace IgraRpc

open Lib

/-- How far the task has come. -/
inductive BatchPhase where
  | collecting
  | sending
  | sent (delivered : Bool)
  | unwound
  deriving DecidableEq, Repr

/-- The task has ended and dropped its permits. -/
def BatchPhase.ended : BatchPhase → Bool
  | .collecting | .sending => false
  | .sent _ | .unwound => true

/-- `requests`, `running` and `responses` of the task, the values it handed to
`send_value`, and the permits it holds. -/
structure WsBatch where
  window : Window Value
  phase : BatchPhase
  messages : List Value
  permits : Nat

/-- The task after priming. It asserts that something is reserved. -/
def WsBatch.start (requests permits : Nat) : WsBatch :=
  if permits = 0 then
    { window := ⟨List.range requests, [], [], []⟩
      phase := .unwound
      messages := []
      permits := 0 }
  else
    { window := Window.prime requests permits
      phase := .collecting
      messages := []
      permits := permits }

/-- The array of the responses, sorted by index. -/
def batchResponse (responses : List (Nat × Value)) : Value :=
  .array ((inOrder responses).map Prod.snd)

inductive BatchLabel where
  | complete (index : Nat) (value : Value)
  | panic (index : Nat)
  | send
  | finishSend (delivered : Bool)

/-- Nothing panics in this step. -/
def BatchLabel.Returns : BatchLabel → Prop
  | .panic _ => False
  | _ => True

inductive WsBatchStep : WsBatch → BatchLabel → WsBatch → Prop where
  | complete (s : WsBatch) (index : Nat) (value : Value) (hphase : s.phase = .collecting)
      (hrunning : index ∈ s.window.running) :
      WsBatchStep s (.complete index value) { s with window := s.window.complete index value }
  | panic (s : WsBatch) (index : Nat) (hphase : s.phase = .collecting)
      (hrunning : index ∈ s.window.running) :
      -- unwinding drops the futures still running and the permit
      WsBatchStep s (.panic index)
        { s with window := { s.window with running := [] }, phase := .unwound, permits := 0 }
  | send (s : WsBatch) (hphase : s.phase = .collecting) (hrunning : s.window.running = []) :
      WsBatchStep s .send
        { s with
          phase := .sending
          messages := s.messages ++ [batchResponse s.window.finished] }
  | finishSend (s : WsBatch) (delivered : Bool) (hphase : s.phase = .sending) :
      WsBatchStep s (.finishSend delivered) { s with phase := .sent delivered, permits := 0 }

/-- The batch of `requests` requests with `permits` permits. -/
def processWsBatch (requests permits : Nat) : Lts WsBatch BatchLabel where
  init s := s = WsBatch.start requests permits
  step := WsBatchStep

/-- Its runs in which every request returns. -/
def returningBatch (requests permits : Nat) : Lts WsBatch BatchLabel :=
  (processWsBatch requests permits).restrict fun _ l => l.Returns

/-- The steps still to come at most: one for each response that is missing, the send and
its end. -/
def WsBatch.left (requests : Nat) (s : WsBatch) : Nat :=
  requests - s.window.finished.length +
    match s.phase with
    | .collecting => 2
    | .sending => 1
    | .sent _ | .unwound => 0

/-- **A batch of `n` requests that holds `k` permits**, at any moment of a run: the window
is full, admission is in order, nothing is answered twice, and the one message carries
the response of every request at its place. -/
structure WsBatch.Served (n k : Nat) (s : WsBatch) : Prop where
  bounded : s.window.running.length ≤ k
  full : s.window.running.length = min k (n - s.window.finished.length)
  in_order : s.window.started ++ s.window.waiting = List.range n
  once : (s.window.running ++ s.window.finished.map Prod.fst).Perm s.window.started
  refills : ∀ index value t next rest, s.window.waiting = next :: rest →
    (returningBatch n k).step s (.complete index value) t →
    next ∈ t.window.running ∧ t.window.started = s.window.started ++ [next]
  silent : s.phase = .collecting → s.messages = []
  answered : s.phase ≠ .collecting → ∃ values, s.messages = [.array values] ∧
    values.length = n ∧ ∀ i value, values[i]? = some value → (i, value) ∈ s.window.finished
  permits : s.permits = if s.phase.ended then 0 else k
  can_end : ∀ delivered, s.phase.ended = false →
    ∃ t, (returningBatch n k).Steps s t ∧ t.phase = .sent delivered
  shrinks : ∀ l t, (returningBatch n k).step s l t → t.left n < s.left n

-- ---------------------------------------------------------------------------
-- The invariant
-- ---------------------------------------------------------------------------

/-- What every reachable state satisfies. A task that unwound has dropped its window. -/
structure WsBatch.Invariant (n k : Nat) (s : WsBatch) : Prop where
  window : s.phase ≠ .unwound → s.window.Valid n k
  drained : s.phase ≠ .collecting → s.window.running = []
  held : s.permits = if s.phase.ended then 0 else k
  silent : s.phase = .collecting ∨ s.phase = .unwound → s.messages = []
  answered : s.phase ≠ .collecting → s.phase ≠ .unwound →
    s.messages = [batchResponse s.window.finished]

variable {n k : Nat}

theorem start_invariant (n k : Nat) : (WsBatch.start n k).Invariant n k := by
  unfold WsBatch.start
  split
  · exact ⟨fun h => absurd rfl h, fun _ => rfl, rfl, fun _ => rfl, fun _ h => absurd rfl h⟩
  · exact ⟨fun _ => Window.prime_valid n k, fun h => absurd rfl h, rfl, fun _ => rfl,
      fun h => absurd rfl h⟩

theorem wsBatchStep_invariant {s t : WsBatch} {l : BatchLabel} (hs : s.Invariant n k)
    (h : WsBatchStep s l t) : t.Invariant n k := by
  cases h with
  | complete index value hphase hrunning =>
    have hvalid : s.window.Valid n k := hs.window (by rw [hphase]; simp)
    exact ⟨fun _ => hvalid.complete hrunning value, fun h => absurd hphase h, hs.held,
      hs.silent, fun h => absurd hphase h⟩
  | panic index hphase hrunning =>
    exact ⟨fun h => absurd rfl h, fun _ => rfl, rfl, fun _ => hs.silent (Or.inl hphase),
      fun _ h => absurd rfl h⟩
  | send hphase hrunning =>
    have hheld := hs.held
    rw [hphase] at hheld
    refine ⟨fun _ => hs.window (by rw [hphase]; simp), fun _ => hrunning, hheld, ?_, ?_⟩
    · intro h
      rcases h with h | h <;> exact absurd h (by simp)
    · intro _ _
      show s.messages ++ [batchResponse s.window.finished] = [batchResponse s.window.finished]
      rw [hs.silent (Or.inl hphase), List.nil_append]
  | finishSend delivered hphase =>
    have hcollected : s.phase ≠ .collecting := by rw [hphase]; simp
    have halive : s.phase ≠ .unwound := by rw [hphase]; simp
    refine ⟨fun _ => hs.window halive, fun _ => hs.drained hcollected, rfl, ?_, ?_⟩
    · intro h
      rcases h with h | h <;> exact absurd h (by simp)
    · intro _ _
      exact hs.answered hcollected halive

theorem ws_batch_invariant {s : WsBatch} (h : (processWsBatch n k).Reachable s) :
    s.Invariant n k := by
  refine Lts.invariant ?_ ?_ s h
  · rintro s rfl
    exact start_invariant n k
  · intro s l t _ hs hstep
    exact wsBatchStep_invariant hs hstep

/-- A batch that panicked has sent nothing, runs nothing and holds no permit. -/
theorem ws_batch_unwound {s : WsBatch} (h : (processWsBatch n k).Reachable s)
    (hphase : s.phase = .unwound) :
    s.messages = [] ∧ s.window.running = [] ∧ s.permits = 0 := by
  have hs := ws_batch_invariant h
  refine ⟨hs.silent (Or.inr hphase), hs.drained (by rw [hphase]; simp), ?_⟩
  have hheld := hs.held
  rw [hphase] at hheld
  exact hheld

-- ---------------------------------------------------------------------------
-- Runs in which every request returns
-- ---------------------------------------------------------------------------

/-- Without a panic the task is never unwound. -/
theorem returning_alive (hk : 0 < k) {s : WsBatch} (h : (returningBatch n k).Reachable s) :
    s.phase ≠ .unwound := by
  refine Lts.invariant (P := fun s => s.phase ≠ .unwound) ?_ ?_ s h
  · rintro s rfl
    show (WsBatch.start n k).phase ≠ .unwound
    rw [WsBatch.start, if_neg (by omega)]
    simp
  · intro s l t _ hs hstep
    obtain ⟨hstep, hreturns⟩ := hstep
    cases hstep with
    | complete => exact hs
    | panic => exact absurd hreturns (by simp [BatchLabel.Returns])
    | send => simp
    | finishSend => simp

/-- What every completed request's response satisfies, every collected response does. -/
theorem finished_of_completions {G : WsBatch → BatchLabel → Prop} {P : Nat → Value → Prop}
    (hG : ∀ s index value, G s (.complete index value) → P index value) {s : WsBatch}
    (h : ((processWsBatch n k).restrict G).Reachable s) :
    ∀ index value, (index, value) ∈ s.window.finished → P index value := by
  refine Lts.invariant (P := fun s => ∀ index value, (index, value) ∈ s.window.finished →
    P index value) ?_ ?_ s h
  · rintro s rfl index value hmem
    have hnone : (WsBatch.start n k).window.finished = [] := by
      unfold WsBatch.start
      split <;> rfl
    rw [hnone] at hmem
    exact absurd hmem (List.not_mem_nil)
  · intro s l t _ hs hstep index value hmem
    obtain ⟨hstep, hmeets⟩ := hstep
    cases hstep with
    | complete index' value' =>
      rw [Window.complete_finished, List.mem_append, List.mem_singleton] at hmem
      rcases hmem with hmem | hpair
      · exact hs index value hmem
      · obtain ⟨rfl, rfl⟩ := Prod.mk.inj hpair
        exact hG s index value hmeets
    | panic => exact hs index value hmem
    | send => exact hs index value hmem
    | finishSend => exact hs index value hmem

/-- Once collected, the message holds one response for each request, at its place. -/
theorem batchResponse_answers (hk : 0 < k) {s : WsBatch} (hs : s.Invariant n k)
    (halive : s.phase ≠ .unwound) (hphase : s.phase ≠ .collecting) :
    ∃ values, s.messages = [.array values] ∧ values.length = n ∧
      ∀ i value, values[i]? = some value → (i, value) ∈ s.window.finished := by
  have hkeys := (hs.window halive).drained hk (hs.drained hphase)
  obtain ⟨hlength, hplaces⟩ := exists_inOrder hkeys
  exact ⟨_, hs.answered hphase halive, hlength, hplaces⟩

/-- The pending send ends one way or the other. -/
theorem sending_can_end {s : WsBatch} (hphase : s.phase = .sending) (delivered : Bool) :
    ∃ t, (returningBatch n k).Steps s t ∧ t.phase = .sent delivered :=
  ⟨_, Lts.Steps.head ⟨WsBatchStep.finishSend s delivered hphase, trivial⟩ (Lts.Steps.refl _),
    rfl⟩

/-- When nothing runs the message is sent. -/
theorem drained_can_end {s : WsBatch} (hphase : s.phase = .collecting)
    (hrunning : s.window.running = []) (delivered : Bool) :
    ∃ t, (returningBatch n k).Steps s t ∧ t.phase = .sent delivered := by
  have hsend := WsBatchStep.send s hphase hrunning
  obtain ⟨t, hrun, ht⟩ := sending_can_end (n := n) (k := k) (s := { s with
    phase := .sending
    messages := s.messages ++ [batchResponse s.window.finished] }) rfl delivered
  exact ⟨t, Lts.Steps.head ⟨hsend, trivial⟩ hrun, ht⟩

/-- While it collects, the batch can finish: by induction on the responses missing. -/
theorem collecting_can_end {missing : Nat} : ∀ {s : WsBatch}, s.Invariant n k →
    s.phase = .collecting → n - s.window.finished.length = missing → ∀ delivered,
      ∃ t, (returningBatch n k).Steps s t ∧ t.phase = .sent delivered := by
  induction missing with
  | zero =>
    intro s hs hphase hmissing delivered
    have hlength := (hs.window (by rw [hphase]; simp)).running_length
    rw [hmissing, Nat.min_zero] at hlength
    exact drained_can_end hphase (List.eq_nil_of_length_eq_zero hlength) delivered
  | succ missing ih =>
    intro s hs hphase hmissing delivered
    cases hrunning : s.window.running with
    | nil => exact drained_can_end hphase hrunning delivered
    | cons index rest =>
      -- let the first running request return
      have hmem : index ∈ s.window.running := by
        rw [hrunning]
        exact List.mem_cons_self
      have hstep := WsBatchStep.complete s index .null hphase hmem
      have hfewer : n - (s.window.complete index .null).finished.length = missing := by
        rw [Window.complete_finished, List.length_append, List.length_singleton]
        omega
      obtain ⟨t, hrun, ht⟩ := ih (wsBatchStep_invariant hs hstep) hphase hfewer delivered
      exact ⟨t, Lts.Steps.head ⟨hstep, trivial⟩ hrun, ht⟩

/-- A batch that has not ended can finish, whatever becomes of the message. -/
theorem returning_can_end {s : WsBatch} (hs : s.Invariant n k)
    (hphase : s.phase.ended = false) (delivered : Bool) :
    ∃ t, (returningBatch n k).Steps s t ∧ t.phase = .sent delivered := by
  cases hcase : s.phase with
  | collecting => exact collecting_can_end hs hcase rfl delivered
  | sending => exact sending_can_end hcase delivered
  | sent => exact absurd hphase (by simp [hcase, BatchPhase.ended])
  | unwound => exact absurd hphase (by simp [hcase, BatchPhase.ended])

/-- Every step leaves fewer to come. -/
theorem returning_shrinks {s t : WsBatch} {l : BatchLabel} (hs : s.Invariant n k)
    (h : (returningBatch n k).step s l t) : t.left n < s.left n := by
  obtain ⟨hstep, hreturns⟩ := h
  cases hstep with
  | complete index value hphase hrunning =>
    have htotal := (hs.window (by rw [hphase]; simp)).total_length
    have hpos : 0 < s.window.running.length := List.length_pos_of_mem hrunning
    show n - (s.window.complete index value).finished.length + _ < n - _ + _
    rw [Window.complete_finished, List.length_append, List.length_singleton, hphase]
    omega
  | panic => exact absurd hreturns (by simp [BatchLabel.Returns])
  | send hphase hrunning =>
    rw [WsBatch.left, WsBatch.left, hphase]
    show n - s.window.finished.length + 1 < n - s.window.finished.length + 2
    omega
  | finishSend delivered hphase =>
    rw [WsBatch.left, WsBatch.left, hphase]
    show n - s.window.finished.length + 0 < n - s.window.finished.length + 1
    omega

/-- **A WebSocket batch is served.** -/
theorem ws_batch_served (hk : 0 < k) {s : WsBatch} (h : (returningBatch n k).Reachable s) :
    s.Served n k := by
  have hs : s.Invariant n k := ws_batch_invariant h.of_restrict
  have halive := returning_alive hk h
  have hvalid := hs.window halive
  refine ⟨hvalid.bounded, hvalid.running_length, hvalid.in_order, hvalid.accounted, ?_,
    fun hphase => hs.silent (Or.inl hphase), batchResponse_answers hk hs halive, hs.held,
    fun delivered hphase => returning_can_end hs hphase delivered,
    fun l t hstep => returning_shrinks hs hstep⟩
  intro index value t next rest hwaiting hstep
  obtain ⟨hstep, -⟩ := hstep
  cases hstep with
  | complete => exact Window.complete_of_cons hwaiting index value

/-! ### Three requests, two permits -/

/-- Request `1` returns before request `0`; the message is in request order. -/
theorem ws_batch_served_outOfOrder :
    ∃ s, (returningBatch 3 2).Reachable s ∧ s.phase = .sent true ∧
      s.messages = [.array [.string "a", .string "b", .string "c"]] ∧ s.Served 3 2 := by
  have h0 : (returningBatch 3 2).Reachable (WsBatch.start 3 2) := Lts.reachable_init rfl
  have h1 := h0.next_restrict (.complete _ 1 (.string "b") rfl (by decide)) trivial
  have h2 := h1.next_restrict (.complete _ 2 (.string "c") rfl (by decide)) trivial
  have h3 := h2.next_restrict (.complete _ 0 (.string "a") rfl (by decide)) trivial
  have h4 := h3.next_restrict (.send _ rfl (by decide)) trivial
  have h5 := h4.next_restrict (.finishSend _ true rfl) trivial
  refine ⟨_, h5, rfl, ?_, ws_batch_served (by decide) h5⟩
  simp [WsBatch.start, batchResponse, inOrder, Window.complete, Window.finish, Window.refill,
    Window.prime, List.mergeSort, List.range_succ]

end IgraRpc
