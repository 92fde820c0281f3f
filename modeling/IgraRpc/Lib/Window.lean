import Mathlib.Data.List.Sort
import Mathlib.Data.List.Range

/-!
# A window of running tasks

Tasks `0, …, n - 1` of which only `k` may run at once. The first `k` are admitted
at the start and one more on each completion; results are collected in the order
of completion and put back into the order of the tasks at the end.

* `Window.Valid` — what holds at every moment, whatever the order of completion;
* `Window.Valid.complete` — a completion keeps it;
* `Window.Valid.running_length` — the window is as full as it can be;
* `exists_inOrder` — after the last completion the results are one per task, in
  the order of the tasks.
-/

namespace Lib

/-- The tasks still waiting, those running, those admitted so far in order, and the
results in the order they came. -/
structure Window (α : Type) where
  waiting : List Nat
  running : List Nat
  started : List Nat
  finished : List (Nat × α)
  deriving DecidableEq, Repr

namespace Window

variable {α : Type}

/-- `n` tasks, the first `k` of them admitted. -/
def prime (n k : Nat) : Window α where
  waiting := (List.range n).drop k
  running := (List.range n).take k
  started := (List.range n).take k
  finished := []

/-- Admit the next waiting task, if there is one. -/
def refill (w : Window α) : Window α :=
  match w.waiting with
  | [] => w
  | next :: rest =>
    { w with waiting := rest, running := w.running ++ [next], started := w.started ++ [next] }

/-- Record the result of a task, without admitting another one. -/
def finish (w : Window α) (i : Nat) (a : α) : Window α :=
  { w with running := w.running.erase i, finished := w.finished ++ [(i, a)] }

/-- A running task completes and its place is taken. -/
def complete (w : Window α) (i : Nat) (a : α) : Window α := (w.finish i a).refill

theorem refill_of_nil {w : Window α} (h : w.waiting = []) : w.refill = w := by
  rw [refill, h]

theorem refill_of_cons {w : Window α} {next : Nat} {rest : List Nat}
    (h : w.waiting = next :: rest) :
    w.refill = { w with
      waiting := rest, running := w.running ++ [next], started := w.started ++ [next] } := by
  rw [refill, h]

@[simp] theorem refill_finished (w : Window α) : w.refill.finished = w.finished := by
  rw [refill]
  split <;> rfl

@[simp] theorem complete_finished (w : Window α) (i : Nat) (a : α) :
    (w.complete i a).finished = w.finished ++ [(i, a)] :=
  refill_finished _

/-- A completion admits the first waiting task. -/
theorem complete_of_cons {w : Window α} {next : Nat} {rest : List Nat}
    (h : w.waiting = next :: rest) (i : Nat) (a : α) :
    next ∈ (w.complete i a).running ∧ (w.complete i a).started = w.started ++ [next] := by
  have hrefill : (w.finish i a).refill = _ := refill_of_cons h
  rw [complete, hrefill]
  exact ⟨List.mem_append_right _ (List.mem_singleton_self next), rfl⟩

/-- Admitted in order, each admitted task either running or finished, never more than `k`
running, and less only when nothing waits. -/
structure Valid (n k : Nat) (w : Window α) : Prop where
  in_order : w.started ++ w.waiting = List.range n
  accounted : (w.running ++ w.finished.map Prod.fst).Perm w.started
  bounded : w.running.length ≤ k
  full : w.waiting = [] ∨ w.running.length = k

theorem prime_valid (n k : Nat) : (prime n k : Window α).Valid n k where
  in_order := List.take_append_drop k (List.range n)
  accounted := by simp [prime]
  bounded := by
    show ((List.range n).take k).length ≤ k
    exact List.length_take_le k _
  full := by
    rcases Nat.le_total n k with h | h
    · left
      show (List.range n).drop k = []
      exact List.drop_eq_nil_of_le (by simpa using h)
    · right
      show ((List.range n).take k).length = k
      rw [List.length_take, List.length_range, Nat.min_eq_left h]

namespace Valid

variable {n k : Nat} {w : Window α}

/-- Removing a finished task leaves one place, which the next waiting task takes. -/
theorem complete (h : w.Valid n k) {i : Nat} (hi : i ∈ w.running) (a : α) :
    (w.complete i a).Valid n k := by
  have hlength : (w.running.erase i).length = w.running.length - 1 :=
    List.length_erase_of_mem hi
  have hpos : 0 < w.running.length := List.length_pos_of_mem hi
  -- the task moves from the running ones to the finished ones
  have hmoved : (w.running.erase i ++ (w.finished ++ [(i, a)]).map Prod.fst).Perm w.started := by
    have hsplit : (w.running.erase i ++ i :: w.finished.map Prod.fst).Perm
        (w.running ++ w.finished.map Prod.fst) :=
      List.perm_middle.trans ((List.perm_cons_erase hi).symm.append_right _)
    rw [List.map_append]
    exact ((List.perm_append_comm.append_left _).trans hsplit).trans h.accounted
  cases hwaiting : w.waiting with
  | nil =>
    have hrefill : w.complete i a = w.finish i a := refill_of_nil hwaiting
    rw [hrefill]
    refine ⟨h.in_order, hmoved, ?_, Or.inl hwaiting⟩
    show (w.running.erase i).length ≤ k
    have hle := h.bounded
    omega
  | cons next rest =>
    have hfull : w.running.length = k := by
      rcases h.full with hnil | hfull
      · rw [hwaiting] at hnil
        exact absurd hnil (by simp)
      · exact hfull
    have hrefill : w.complete i a = _ := refill_of_cons (w := w.finish i a) hwaiting
    have hrefilled : (w.running.erase i ++ [next]).length = k := by
      rw [List.length_append, hlength, List.length_singleton]
      omega
    rw [hrefill]
    refine ⟨?_, ?_, Nat.le_of_eq hrefilled, Or.inr hrefilled⟩
    · show w.started ++ [next] ++ rest = List.range n
      rw [List.append_assoc, List.singleton_append, ← hwaiting]
      exact h.in_order
    · show (w.running.erase i ++ [next] ++ (w.finished ++ [(i, a)]).map Prod.fst).Perm
        (w.started ++ [next])
      rw [List.append_assoc]
      exact ((List.perm_append_comm.append_left _).trans
        (by rw [← List.append_assoc])).trans (hmoved.append_right [next])

theorem started_length (h : w.Valid n k) :
    w.started.length = w.running.length + w.finished.length := by
  have hlength := h.accounted.length_eq
  rw [List.length_append, List.length_map] at hlength
  exact hlength.symm

theorem total_length (h : w.Valid n k) :
    w.running.length + w.finished.length + w.waiting.length = n := by
  have hlength := congrArg List.length h.in_order
  rw [List.length_append, List.length_range, h.started_length] at hlength
  exact hlength

/-- As many tasks run as the window and the remaining tasks allow. -/
theorem running_length (h : w.Valid n k) :
    w.running.length = min k (n - w.finished.length) := by
  have htotal := h.total_length
  have hle := h.bounded
  rcases h.full with hnil | hfull
  · rw [hnil, List.length_nil] at htotal
    omega
  · omega

theorem started_nodup (h : w.Valid n k) : w.started.Nodup := by
  have hnodup : (w.started ++ w.waiting).Nodup := by
    rw [h.in_order]
    exact List.nodup_range
  exact (List.nodup_append.mp hnodup).1

/-- A task that runs has not finished. -/
theorem not_finished (h : w.Valid n k) {i : Nat} (hi : i ∈ w.running) :
    i ∉ w.finished.map Prod.fst := by
  intro hfinished
  have hnodup := h.accounted.nodup_iff.mpr h.started_nodup
  exact (List.nodup_append.mp hnodup).2.2 i hi i hfinished rfl

/-- Tasks are admitted in order: what comes before a task that runs runs too, or has
finished. -/
theorem earlier (h : w.Valid n k) {i j : Nat} (hi : i ∈ w.running) (hj : j < i) :
    j ∈ w.running ∨ j ∈ w.finished.map Prod.fst := by
  have hmem : i ∈ w.started := h.accounted.mem_iff.mp (List.mem_append_left _ hi)
  have hfirst : w.started = (List.range n).take w.started.length := by
    rw [← h.in_order, List.take_left]
  have hlt : i < w.started.length := by
    rw [hfirst, List.take_range, List.mem_range] at hmem
    exact Nat.lt_of_lt_of_le hmem (Nat.min_le_left _ _)
  have hn : i < n := by
    rw [hfirst, List.take_range, List.mem_range] at hmem
    exact Nat.lt_of_lt_of_le hmem (Nat.min_le_right _ _)
  have hearlier : j ∈ w.started := by
    rw [hfirst, List.take_range, List.mem_range]
    omega
  exact List.mem_append.mp (h.accounted.mem_iff.mpr hearlier)

/-- When nothing runs any more, every task has finished. -/
theorem drained (h : w.Valid n k) (hk : 0 < k) (hrunning : w.running = []) :
    (w.finished.map Prod.fst).Perm (List.range n) := by
  have hwaiting : w.waiting = [] := by
    rcases h.full with hnil | hfull
    · exact hnil
    · rw [hrunning, List.length_nil] at hfull
      omega
  have hstarted := h.in_order
  rw [hwaiting, List.append_nil] at hstarted
  have haccounted := h.accounted
  rw [hrunning, List.nil_append, hstarted] at haccounted
  exact haccounted

end Valid

end Window

-- ---------------------------------------------------------------------------
-- Back into the order of the tasks
-- ---------------------------------------------------------------------------

section InOrder

variable {α : Type}

/-- The results sorted by the number of their task. -/
def inOrder (results : List (Nat × α)) : List (Nat × α) :=
  results.mergeSort fun p q => decide (p.1 ≤ q.1)

theorem inOrder_perm (results : List (Nat × α)) : (inOrder results).Perm results :=
  List.mergeSort_perm results _

theorem inOrder_sorted (results : List (Nat × α)) :
    (inOrder results).Pairwise fun p q => p.1 ≤ q.1 := by
  have hsorted : (inOrder results).Pairwise fun p q => decide (p.1 ≤ q.1) = true := by
    refine List.pairwise_mergeSort ?_ ?_ results
    · intro p q r hpq hqr
      simp only [decide_eq_true_eq] at hpq hqr ⊢
      exact Nat.le_trans hpq hqr
    · intro p q
      simp only [Bool.or_eq_true, decide_eq_true_eq]
      exact Nat.le_total p.1 q.1
  exact hsorted.imp fun h => by simpa using h

/-- With one result per task, the sorted results are those of task `0`, task `1`, … -/
theorem inOrder_keys {n : Nat} {results : List (Nat × α)}
    (h : (results.map Prod.fst).Perm (List.range n)) :
    (inOrder results).map Prod.fst = List.range n := by
  have hkeys : ((inOrder results).map Prod.fst).Pairwise fun i j => i ≤ j :=
    List.pairwise_map.mpr (inOrder_sorted results)
  have hrange : (List.range n).Pairwise fun i j => i ≤ j := List.pairwise_le_range
  refine List.Perm.eq_of_pairwise ?_ hkeys hrange
    (((inOrder_perm results).map Prod.fst).trans h)
  intro i j _ _ hij hji
  exact Nat.le_antisymm hij hji

/-- The sorted values: exactly one for each task, its own. -/
theorem exists_inOrder {n : Nat} {results : List (Nat × α)}
    (h : (results.map Prod.fst).Perm (List.range n)) :
    ((inOrder results).map Prod.snd).length = n ∧
      ∀ i a, ((inOrder results).map Prod.snd)[i]? = some a → (i, a) ∈ results := by
  have hkeys := inOrder_keys h
  refine ⟨?_, ?_⟩
  · rw [List.length_map, ← List.length_map (f := Prod.fst), hkeys, List.length_range]
  · intro i a hget
    rw [List.getElem?_map, Option.map_eq_some_iff] at hget
    obtain ⟨⟨j, b⟩, hpair, rfl⟩ := hget
    -- the pair at position `i` carries the key `i`
    have hkey : ((inOrder results).map Prod.fst)[i]? = some j := by
      rw [List.getElem?_map, hpair]
      rfl
    rw [hkeys] at hkey
    obtain ⟨hlt, hj⟩ := List.getElem?_eq_some_iff.mp hkey
    rw [List.getElem_range] at hj
    rw [hj]
    exact (inOrder_perm results).mem_iff.mp (List.mem_of_getElem? hpair)

end InOrder

end Lib
