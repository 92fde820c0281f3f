import IgraRpc.Api.WsBatch

/-!
# Spawned tasks — `api/ws.rs`

The main loop of a connection spawns one task for each single request and one for each
batch. A task holds permits from before it is spawned until it ends: by handing its
message to the client channel, by failing to, by a panic, or by being aborted.

* `TaskStep` — what a task can do, single requests beside the batches of
  `processWsBatch`;
* `Task.Valid` — a batch task is in a state of a run of its batch;
* `Task.running_le_permits` — a task never processes more requests than it holds permits;
* `Task.permits_of_ended` — a task that has ended holds none.
-/

namespace IgraRpc

open Lib

/-- `MAX_INFLIGHT_REQUESTS`. -/
def maxInflightRequests : Nat := 64

/-- The task of a single request. -/
inductive SingleTask where
  | processing
  | sending (response : Value)
  | sent (response : Value) (delivered : Bool)
  | panicked

namespace SingleTask

def phase : SingleTask → BatchPhase
  | processing => .collecting
  | sending _ => .sending
  | sent _ delivered => .sent delivered
  | panicked => .unwound

/-- What it handed to `send_value`. -/
def messages : SingleTask → List Value
  | processing => []
  | sending response => [response]
  | sent response _ => [response]
  | panicked => []

end SingleTask

/-- A spawned task. -/
inductive Task where
  | single (task : SingleTask)
  | batch (requests : Nat) (task : WsBatch)
  | aborted

namespace Task

/-- The task of a single request, as it is spawned. -/
def ofSingle : Task := .single .processing

/-- The task of a batch. It reserves a permit for each request, up to all of them. -/
def ofBatch (requests : Nat) : Task :=
  .batch requests (WsBatch.start requests (min requests maxInflightRequests))

/-- How far the task has come. Aborting unwinds it. -/
def phase : Task → BatchPhase
  | single task => task.phase
  | batch _ task => task.phase
  | aborted => .unwound

/-- What it handed to `send_value`. -/
def messages : Task → List Value
  | single task => task.messages
  | batch _ task => task.messages
  | aborted => []

/-- The permits it holds. -/
def permits : Task → Nat
  | single task => if task.phase.ended then 0 else 1
  | batch _ task => task.permits
  | aborted => 0

/-- The requests it is processing. -/
def running : Task → Nat
  | single task => if task.phase = .collecting then 1 else 0
  | batch _ task => task.window.running.length
  | aborted => 0

/-- The messages of it that the client channel took. -/
def delivered (t : Task) : List Value := if t.phase = .sent true then t.messages else []

end Task

/-- What a task does, as the connection sees it: work of its own, its message taken by the
client channel, or the channel found closed. -/
inductive TaskLabel where
  | work
  | deliver (message : Value)
  | undelivered

/-- What the client channel takes in a step. -/
def TaskLabel.messages : TaskLabel → List Value
  | deliver message => [message]
  | _ => []

inductive TaskStep : Task → TaskLabel → Task → Prop where
  | respond (response : Value) :
      TaskStep (.single .processing) .work (.single (.sending response))
  | panic : TaskStep (.single .processing) .work (.single .panicked)
  | deliver (response : Value) :
      TaskStep (.single (.sending response)) (.deliver response) (.single (.sent response true))
  | undelivered (response : Value) :
      TaskStep (.single (.sending response)) .undelivered (.single (.sent response false))
  | batchWork (requests : Nat) (s t : WsBatch) (l : BatchLabel)
      (hwork : ∀ delivered, l ≠ .finishSend delivered) (h : WsBatchStep s l t) :
      TaskStep (.batch requests s) .work (.batch requests t)
  | batchDeliver (requests : Nat) (s t : WsBatch) (message : Value)
      (hmessage : s.messages = [message]) (h : WsBatchStep s (.finishSend true) t) :
      TaskStep (.batch requests s) (.deliver message) (.batch requests t)
  | batchUndelivered (requests : Nat) (s t : WsBatch)
      (h : WsBatchStep s (.finishSend false) t) :
      TaskStep (.batch requests s) .undelivered (.batch requests t)

namespace Task

/-- A batch is nonempty and in a state of a run of its own. -/
def Valid : Task → Prop
  | batch requests task => 0 < requests ∧
    (processWsBatch requests (min requests maxInflightRequests)).Reachable task
  | _ => True

theorem ofBatch_valid {requests : Nat} (h : 0 < requests) : (ofBatch requests).Valid :=
  ⟨h, Lts.reachable_init rfl⟩

/-- A nonempty batch reserves a permit, so its task does not trip the assertion. -/
theorem batchPermits_pos {requests : Nat} (h : 0 < requests) :
    ¬min requests maxInflightRequests = 0 := by
  rw [maxInflightRequests]
  omega

theorem ofBatch_permits {requests : Nat} (h : 0 < requests) :
    (ofBatch requests).permits = min requests maxInflightRequests := by
  show (WsBatch.start requests (min requests maxInflightRequests)).permits = _
  rw [WsBatch.start, if_neg (batchPermits_pos h)]

/-- A new task has sent nothing. -/
theorem ofBatch_phase {requests : Nat} (h : 0 < requests) :
    (ofBatch requests).phase = .collecting := by
  show (WsBatch.start requests (min requests maxInflightRequests)).phase = _
  rw [WsBatch.start, if_neg (batchPermits_pos h)]

/-- A task that has ended holds no permit. -/
theorem permits_of_ended {t : Task} (hvalid : t.Valid) (h : t.phase.ended = true) :
    t.permits = 0 := by
  cases t with
  | single task => exact if_pos h
  | batch requests task =>
    have hended : task.phase.ended = true := h
    have hheld := (ws_batch_invariant hvalid.2).held
    rw [if_pos hended] at hheld
    exact hheld
  | aborted => rfl

/-- A task has a permit for each request that it is processing. -/
theorem running_le_permits {t : Task} (hvalid : t.Valid) : t.running ≤ t.permits := by
  cases t with
  | single task =>
    cases task with
    | processing => exact Nat.le_refl 1
    | sending | sent | panicked => exact Nat.zero_le _
  | batch requests task =>
    have hinv := ws_batch_invariant hvalid.2
    show task.window.running.length ≤ task.permits
    by_cases hphase : task.phase = .collecting
    · have hbounded := (hinv.window (by rw [hphase]; simp)).bounded
      have hheld := hinv.held
      rw [hphase] at hheld
      rw [hheld]
      exact hbounded
    · rw [hinv.drained hphase]
      exact Nat.zero_le _
  | aborted => exact Nat.le_refl 0

/-- A task that ran to completion, its message taken, has sent exactly one. -/
theorem delivered_of_sent {t : Task} (hvalid : t.Valid) (h : t.phase = .sent true) :
    ∃ message, t.delivered = [message] := by
  rw [delivered, if_pos h]
  cases t with
  | single task =>
    cases task with
    | sent response delivered => exact ⟨response, rfl⟩
    | processing | sending | panicked => exact absurd h (by simp [phase, SingleTask.phase])
  | batch requests task =>
    have hphase : task.phase = .sent true := h
    have hanswered := (ws_batch_invariant hvalid.2).answered (by rw [hphase]; simp)
      (by rw [hphase]; simp)
    exact ⟨_, hanswered⟩
  | aborted => exact absurd h (by simp [phase])

/-- At most one message of a task is taken. -/
theorem delivered_length {t : Task} (hvalid : t.Valid) : t.delivered.length ≤ 1 := by
  by_cases h : t.phase = .sent true
  · obtain ⟨message, hmessage⟩ := delivered_of_sent hvalid h
    rw [hmessage]
    exact Nat.le_refl 1
  · rw [delivered, if_neg h]
    exact Nat.zero_le 1

end Task

-- ---------------------------------------------------------------------------
-- One step of a task
-- ---------------------------------------------------------------------------

variable {t t' : Task} {l : TaskLabel}

theorem taskStep_valid (hvalid : t.Valid) (h : TaskStep t l t') : t'.Valid := by
  cases h with
  | respond | panic | deliver | undelivered => trivial
  | batchWork requests s u l hwork h => exact ⟨hvalid.1, hvalid.2.next h⟩
  | batchDeliver requests s u message hmessage h => exact ⟨hvalid.1, hvalid.2.next h⟩
  | batchUndelivered requests s u h => exact ⟨hvalid.1, hvalid.2.next h⟩

/-- A step takes no permits. -/
theorem taskStep_permits (h : TaskStep t l t') : t'.permits ≤ t.permits := by
  cases h with
  | respond => exact Nat.le_refl 1
  | panic | deliver | undelivered => exact Nat.zero_le 1
  | batchWork requests s u l hwork h =>
    cases h with
    | complete | send => exact Nat.le_refl _
    | panic | finishSend => exact Nat.zero_le _
  | batchDeliver requests s u message hmessage h =>
    cases h
    exact Nat.zero_le _
  | batchUndelivered requests s u h =>
    cases h
    exact Nat.zero_le _

/-- What a step does to the phase: only a delivery makes it `sent true`, and only a closed
channel `sent false`. -/
theorem taskStep_phase (h : TaskStep t l t') : ∀ delivered, t.phase ≠ .sent delivered ∧
    (t'.phase = .sent delivered ↔
      match l with
      | .work => False
      | .deliver _ => delivered = true
      | .undelivered => delivered = false) := by
  intro delivered
  cases h with
  | respond | panic | deliver | undelivered =>
    simp [Task.phase, SingleTask.phase, eq_comm]
  | batchWork requests s u l hwork h =>
    cases h with
    | complete index value hphase => simp [Task.phase, hphase]
    | panic index hphase => simp [Task.phase, hphase]
    | send hphase => simp [Task.phase, hphase]
    | finishSend delivered => exact absurd rfl (hwork delivered)
  | batchDeliver requests s u message hmessage h =>
    cases h with
    | finishSend _ hphase => simp [Task.phase, hphase, eq_comm]
  | batchUndelivered requests s u h =>
    cases h with
    | finishSend _ hphase => simp [Task.phase, hphase, eq_comm]

/-- A task hands over what it delivers. -/
theorem taskStep_messages {message : Value} (h : TaskStep t (.deliver message) t') :
    t'.messages = [message] := by
  cases h with
  | deliver => rfl
  | batchDeliver requests s u message hmessage h =>
    cases h
    exact hmessage

/-- Before a step nothing was taken of the task's; after it, what the step delivers. -/
theorem taskStep_delivered (h : TaskStep t l t') :
    t.delivered = [] ∧ t'.delivered = l.messages := by
  obtain ⟨hbefore, hafter⟩ := taskStep_phase h true
  refine ⟨if_neg hbefore, ?_⟩
  cases l with
  | work | undelivered => exact if_neg fun hsent => absurd (hafter.mp hsent) (by simp)
  | deliver message =>
    rw [Task.delivered, if_pos (hafter.mpr rfl)]
    exact taskStep_messages h

end IgraRpc
