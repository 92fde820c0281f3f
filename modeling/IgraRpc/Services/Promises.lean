import IgraRpc.Services.ReadOnL1

/-!
# What clients are promised — `services/transaction.rs`

A client that is answered with a hash has to find its transaction by it: in the queue, at the
worker, on L1, or in an alert. Here the answers are kept beside the worker and its calls.

* `promiseOf` — the id and the hash of an answer that accepts a transaction;
* `answering_promisesKept` — **every promise is accounted for**, in order and under its own id
  and hash, in every state of every run.
-/

namespace IgraRpc

open Lib

-- ---------------------------------------------------------------------------
-- Answers and promises
-- ---------------------------------------------------------------------------

/-- What a client holds of an accepted transaction. -/
structure Promise where
  id : Value
  hash : String

/-- The promise in an answer, if it is one that accepts. -/
def promiseOf (answer : Value) : Option Promise := do
  let hash ← (answer.get "result").bind Value.asStr
  let id ← answer.get "id"
  return ⟨id, hash⟩

/-- The worker and its calls, with the answers given so far. -/
structure Answered where
  submissions : Submissions
  answers : List Value

section
variable (K : Consensus) (alloy : Alloy) (zlib : Zlib) (appState : AppState)

/-- The promise that goes with a transaction. -/
def TransactionRequest.promise (item : TransactionRequest) : Promise :=
  ⟨item.id, hashText (computeTransactionHash alloy item.txBytes)⟩

/-- The hash an L2 node gives to a message. -/
def messageHash : Message → Option String
  | .raw txBytes => some (hashText (computeTransactionHash alloy txBytes))
  | .entry .. => none

/-- The answers after a step: one more for each submission. -/
def Answered.answersAfter (s : Answered) : ProcessorLabel → List Value
  | .submit view uuid req => s.answers ++
      [(processTransaction alloy view uuid req s.submissions.processor.queue).response]
  | _ => s.answers

/-- The system of `submissions`, with its answers. -/
def answering : Lts Answered ProcessorLabel where
  init s := s = ⟨⟨⟨Channel.empty, .idle, 0, 0, [], [], []⟩, []⟩, []⟩
  step s l t := (submissions K alloy zlib appState).step s.submissions l t.submissions ∧
    t.answers = s.answersAfter alloy l

/-- Every promise is accounted for. -/
structure PromisesKept (s : Answered) : Prop where
  /-- Promised is what was accepted, in order. -/
  promised : s.answers.filterMap promiseOf =
    s.submissions.processor.accepted.map (TransactionRequest.promise alloy)
  /-- It is done, at the worker or in the queue, in this order. -/
  placed : s.submissions.processor.worker ≠ .gone →
    s.submissions.processor.accepted = s.submissions.processor.outcomes.map Prod.fst ++
      s.submissions.processor.worker.current ++ s.submissions.processor.queue.items
  /-- An alert names the promise that is broken. -/
  told : ∀ item alert, (item, .asyncTransactionFailed alert) ∈ s.submissions.processor.outcomes →
    alert.id = item.id.toText ∧ alert.hash = (item.promise alloy).hash
  /-- What is on L1 was promised, and the successes are there, under their hashes. -/
  on_l1 : zlib.Inverts → (∀ run ∈ s.submissions.runs, run.Carries K alloy zlib appState) →
    ((((s.submissions.broadcasts K alloy zlib appState).flatMap (readMessages zlib)).filterMap
        (messageHash alloy)).Sublist ((s.answers.filterMap promiseOf).map Promise.hash)) ∧
      ((s.submissions.settled K alloy zlib appState).flatMap (readMessages zlib)).filterMap
          (messageHash alloy) =
        s.submissions.processor.successes.map fun item => (item.promise alloy).hash

end

section
variable {K : Consensus} {alloy : Alloy} {zlib : Zlib} {appState : AppState}

-- ---------------------------------------------------------------------------
-- One submission
-- ---------------------------------------------------------------------------

theorem submissionId_isNull (uuid : String) (req : RpcRequest) :
    (submissionId uuid req).isNull = false := by
  rw [submissionId]
  by_cases hnull : req.id.isNull = true
  · rw [if_pos hnull]
    rfl
  · rw [if_neg hnull]
    exact Bool.not_eq_true _ ▸ hnull

/-- What is enqueued goes with the promise that is given. -/
theorem promiseOf_accepted {view : FeeView} {uuid : String} {req : RpcRequest}
    {queue : TransactionQueue} {item : TransactionRequest}
    (h : (processTransaction alloy view uuid req queue).queue.items = queue.items ++ [item]) :
    promiseOf (processTransaction alloy view uuid req queue).response =
        some (item.promise alloy) ∧ item.id.isNull = false := by
  cases hchecks : acceptChecks alloy view req (queueCheck queue) with
  | error fault =>
    have hsame := (processTransaction_of_error hchecks uuid).2.2
    rw [hsame] at h
    exact absurd h (by simp)
  | ok txBytes =>
    obtain ⟨hresponse, hitems, -⟩ := processTransaction_of_ok hchecks uuid
    rw [h] at hitems
    obtain rfl : item = ⟨txBytes, submissionId uuid req⟩ :=
      List.singleton_inj.mp (List.append_cancel_left hitems)
    rw [hresponse]
    exact ⟨rfl, submissionId_isNull uuid req⟩

/-- Where nothing is enqueued, nothing is promised. -/
theorem promiseOf_refused {view : FeeView} {uuid : String} {req : RpcRequest}
    {queue : TransactionQueue}
    (h : (processTransaction alloy view uuid req queue).queue = queue) :
    promiseOf (processTransaction alloy view uuid req queue).response = none := by
  cases hchecks : acceptChecks alloy view req (queueCheck queue) with
  | error fault =>
    have hnone := (processTransaction_of_error hchecks uuid).2.1
    rw [promiseOf, hnone]
    rfl
  | ok txBytes =>
    obtain ⟨-, hitems, -⟩ := processTransaction_of_ok hchecks uuid
    rw [h] at hitems
    exact absurd hitems (by simp)

-- ---------------------------------------------------------------------------
-- Every run
-- ---------------------------------------------------------------------------

/-- What a step keeps of the promises by itself. -/
structure PromisesHeld (alloy : Alloy) (s : Answered) : Prop where
  promised : s.answers.filterMap promiseOf =
    s.submissions.processor.accepted.map (TransactionRequest.promise alloy)
  ids : ∀ item ∈ s.submissions.processor.accepted, item.id.isNull = false
  recorded : s.submissions.processor.worker ≠ .gone → s.submissions.processor.taken =
    s.submissions.processor.outcomes.map Prod.fst ++ s.submissions.processor.worker.current
  told : ∀ item alert, (item, .asyncTransactionFailed alert) ∈ s.submissions.processor.outcomes →
    alert.id = item.id.toText ∧ alert.hash = (item.promise alloy).hash

theorem promisesHeld_step {s t : Answered} {l : ProcessorLabel}
    (htaken : s.submissions.processor.taken ⊆ s.submissions.processor.accepted)
    (hcurrent : s.submissions.processor.worker.current ⊆ s.submissions.processor.taken)
    (hs : PromisesHeld alloy s) (h : (answering K alloy zlib appState).step s l t) :
    PromisesHeld alloy t := by
  obtain ⟨⟨hstep, -⟩, hanswers⟩ := h
  obtain ⟨⟨p, runs⟩, answers⟩ := t
  obtain rfl : answers = s.answersAfter alloy l := hanswers
  have hstep : ProcessorStep K alloy zlib appState s.submissions.processor l p := hstep
  cases hstep with
  | accept view uuid req item hitems =>
    obtain ⟨hpromise, hid⟩ := promiseOf_accepted hitems
    refine ⟨?_, ?_, hs.recorded, hs.told⟩
    · show (s.answers ++ [_]).filterMap promiseOf =
        (s.submissions.processor.accepted ++ [item]).map _
      rw [List.filterMap_append, List.map_append, hs.promised, List.filterMap_cons, hpromise]
      rfl
    · intro item' hmem
      rcases List.mem_append.mp hmem with hbefore | hnew
      · exact hs.ids item' hbefore
      · rw [List.mem_singleton.mp hnew]
        exact hid
  | refuse view uuid req hqueue =>
    refine ⟨?_, hs.ids, hs.recorded, hs.told⟩
    show (s.answers ++ [_]).filterMap promiseOf = _
    rw [List.filterMap_append, hs.promised, List.filterMap_cons, promiseOf_refused hqueue]
    exact List.append_nil _
  | take item queue hidle hrecv =>
    refine ⟨hs.promised, hs.ids, fun _ => ?_, hs.told⟩
    have hbefore := hs.recorded (by rw [hidle]; simp)
    rw [hidle, WorkerState.current, List.append_nil] at hbefore
    show s.submissions.processor.taken ++ [item] = _ ++ [item]
    rw [hbefore]
  | finish uuid env item hbusy =>
    have hbefore := hs.recorded (by rw [hbusy]; simp)
    rw [hbusy, WorkerState.current] at hbefore
    rw [hbusy, WorkerState.current] at hcurrent
    have hid : item.id.isNull = false :=
      hs.ids item (htaken (hcurrent (List.mem_singleton_self item)))
    cases (processWalletCall K alloy zlib appState.config appState.walletCaller env item.txBytes
      (workerIdValue uuid item)).outcome with
    | ok response =>
      refine ⟨hs.promised, hs.ids, fun _ => ?_, ?_⟩
      · show s.submissions.processor.taken =
          (s.submissions.processor.outcomes ++ [_]).map Prod.fst ++ []
        rw [hbefore, List.map_append, List.append_nil]
        rfl
      · intro item' alert hmem
        rcases List.mem_append.mp hmem with hold | hnew
        · exact hs.told item' alert hold
        · exact absurd (congrArg Prod.snd (List.mem_singleton.mp hnew)) (by simp)
    | err error =>
      refine ⟨hs.promised, hs.ids, fun _ => ?_, ?_⟩
      · show s.submissions.processor.taken =
          (s.submissions.processor.outcomes ++ [_]).map Prod.fst ++ []
        rw [hbefore, List.map_append, List.append_nil]
        rfl
      · intro item' alert hmem
        rcases List.mem_append.mp hmem with hold | hnew
        · exact hs.told item' alert hold
        · obtain ⟨rfl, halert⟩ := Prod.mk.inj (List.mem_singleton.mp hnew)
          obtain rfl := WorkOutcome.asyncTransactionFailed.inj halert
          refine ⟨?_, rfl⟩
          show workerIdText uuid item' = _
          rw [workerIdText, hid]
          rfl
    | panicked => exact ⟨hs.promised, hs.ids, fun halive => absurd rfl halive, hs.told⟩

theorem answering_submissions {s : Answered}
    (h : (answering K alloy zlib appState).Reachable s) :
    (submissions K alloy zlib appState).Reachable s.submissions := by
  refine Lts.invariant (P := fun s : Answered =>
    (submissions K alloy zlib appState).Reachable s.submissions) ?_ ?_ s h
  · rintro s rfl
    exact Lts.reachable_init rfl
  · intro s l t _ hs hstep
    exact hs.next hstep.1

/-- Keeping the answers rules out no run. -/
theorem exists_answering {s : Submissions} (h : (submissions K alloy zlib appState).Reachable s) :
    ∃ answers, (answering K alloy zlib appState).Reachable ⟨s, answers⟩ := by
  refine Lts.invariant (P := fun s => ∃ answers, (answering K alloy zlib appState).Reachable
    ⟨s, answers⟩) ?_ ?_ s h
  · rintro s rfl
    exact ⟨[], Lts.reachable_init rfl⟩
  · intro s l t _ hs hstep
    obtain ⟨answers, hreach⟩ := hs
    exact ⟨_, hreach.next (t := ⟨t, Answered.answersAfter alloy ⟨s, answers⟩ l⟩) ⟨hstep, rfl⟩⟩

theorem reachable_promisesHeld {s : Answered}
    (h : (answering K alloy zlib appState).Reachable s) : PromisesHeld alloy s := by
  refine Lts.invariant ?_ ?_ s h
  · rintro s rfl
    refine ⟨rfl, ?_, fun _ => rfl, ?_⟩
    · exact fun item hitem => absurd hitem List.not_mem_nil
    · exact fun item alert hmem => absurd hmem List.not_mem_nil
  · intro s l t hreach hs hstep
    have horder := submittedInOrder_of_restrict (answering_submissions hreach).to_restrict
    refine promisesHeld_step horder.accepted.subset ?_ hs hstep
    rw [horder.in_order]
    exact List.subset_append_right _ _

/-- The hashes of transactions are those of their promises. -/
theorem filterMap_messageHash (alloy : Alloy) (items : List TransactionRequest) :
    (items.map fun item => Message.raw item.txBytes).filterMap (messageHash alloy) =
      items.map fun item => (item.promise alloy).hash := by
  rw [List.filterMap_map]
  show items.filterMap (some ∘ fun item => (item.promise alloy).hash) = _
  rw [List.filterMap_eq_map]

/-- **Every promise is accounted for.** The hashes given to clients are those of the accepted
transactions, in order; each is done, at the worker or in the queue, as long as there is a
worker; an alert names id and hash of its promise; and with a daemon that does its part, what
is read on L1 was promised and the successes are among it, each under its hash. -/
theorem answering_promisesKept {s : Answered}
    (h : (answering K alloy zlib appState).Reachable s) :
    PromisesKept K alloy zlib appState s := by
  have hsubmissions := answering_submissions h
  have horder := submittedInOrder_of_restrict hsubmissions.to_restrict
  have hheld := reachable_promisesHeld h
  refine ⟨hheld.promised, fun halive => ?_, hheld.told, fun hz hcarries => ⟨?_, ?_⟩⟩
  · rw [(reachable_queueKept hsubmissions).waiting halive, hheld.recorded halive]
  · obtain ⟨sent, hsent, hread⟩ := broadcasts_read hz horder hcarries
    rw [hread, filterMap_messageHash, hheld.promised, List.map_map]
    exact hsent.map _
  · rw [settled_read hz horder hcarries, filterMap_messageHash]

end

/-- The client of `legacyTx` holds the hash under which it is read. -/
theorem answering_promisesKept_legacyItem :
    ∃ s, PromisesKept toccataConsensus legacyAlloy sampleZlib walletState s ∧
      s.answers.filterMap promiseOf = [legacyItem.promise legacyAlloy] ∧
      ((s.submissions.settled toccataConsensus legacyAlloy sampleZlib walletState).flatMap
          (readMessages sampleZlib)).filterMap (messageHash legacyAlloy) =
        [(legacyItem.promise legacyAlloy).hash] := by
  obtain ⟨s, hreach, hruns, haccepted⟩ := exists_legacyItem carryingDaemon (G := fun _ _ => True)
    (fun _ => trivial) (fun _ => trivial) fun _ _ => trivial
  obtain ⟨answers, hanswering⟩ := exists_answering hreach.of_restrict
  have hkept := answering_promisesKept hanswering
  have hcarries : ∀ run ∈ s.runs,
      run.Carries toccataConsensus legacyAlloy sampleZlib walletState := by
    rw [hruns]
    intro run hrun
    rw [List.mem_singleton.mp hrun]
    exact carryingDaemon_carries
  refine ⟨⟨s, answers⟩, hkept, ?_, ?_⟩
  · rw [hkept.promised]
    show s.processor.accepted.map _ = _
    rw [haccepted]
    rfl
  · rw [(hkept.on_l1 sampleZlib_inverts hcarries).2]
    show s.processor.successes.map _ = _
    rw [successes_legacyItem (submittedInOrder_of_restrict hreach) hruns]
    rfl

end IgraRpc
