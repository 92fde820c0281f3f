import IgraRpc.Api.Gate
import IgraRpc.Api.WsTask
import IgraRpc.Lib.Permits

/-!
# WebSocket connections — `handle_ws_connection`

The main loop reads one message after the other and answers it itself, forwards it to
reth or spawns a task for it; the tasks, the relay from reth and the writer go on beside
it. A run of the connection is any interleaving of them.

* `decide` — what the loop does about a message, with so many permits available;
* `connection_accounted` — **in every run**: permits held and available are always 64,
  at most 64 requests are processed at once, what has ended holds nothing, and a message
  that needs permits is either given a task, and at most one answer from it, or at once
  one `-32005`.

The texts of parse errors are a parameter. Frames that carry no text are left out, and
the messages from reth are any values.
-/

namespace IgraRpc

open Lib

-- ---------------------------------------------------------------------------
-- The main loop
-- ---------------------------------------------------------------------------

/-- `CLIENT_SEND_BUFFER`. -/
def clientSendBuffer : Nat := 256

/-- `serde_json::from_str::<RpcEnvelope>`. -/
def readEnvelope (parse : JsonParser) (text : List UInt8) : Option RpcEnvelope :=
  (parse text).bind RpcEnvelope.fromContent

/-- What the loop does about a message: it sends a reply of its own, forwards the request
to reth, or spawns a task. -/
inductive Decision where
  | reply (value : Value)
  | forward (request : Value)
  | spawn (task : Task)

/-- The body of the loop for one message, `errorText` being the parser's error. -/
def decideMessage (security : SecurityConfig) (errorText : String) (available : Nat) :
    Option RpcEnvelope → Decision
  | none => .reply (jsonRpcError .null (-32700) s!"Parse error: {errorText}")
  | some (.single req) =>
    if isSubscriptionMethod req.method then
      match validateRequest security req with
      | some errorResponse => .reply errorResponse
      | none => .forward req.toValue
    else if 1 ≤ available then .spawn Task.ofSingle
    else .reply (serverBusy req.id)
  | some (.batch requests) =>
    if requests.isEmpty then .reply (jsonRpcError .null (-32600) "Invalid Request: empty batch")
    else if min requests.length maxInflightRequests ≤ available then
      .spawn (Task.ofBatch requests.length)
    else .reply (serverBusy .null)

/-- What has become of a message. -/
inductive Handling where
  | replying (reply : Value)
  | replied (reply : Value) (delivered : Bool)
  | forwarded (request : Value)
  | spawned (task : Task)

structure ClientMessage where
  envelope : Option RpcEnvelope
  handling : Handling

/-- The loop reads, waits for the client channel to take its reply, or has ended. -/
inductive LoopState where
  | reading
  | replying
  | closed

/-- A connection: the messages it has read, in order; the permits available; the channel to
the client; and which values the channel took in answer to which message. -/
structure Connection where
  loop : LoopState
  messages : List ClientMessage
  available : Nat
  channel : Channel Value clientSendBuffer
  answers : List (Nat × Value)

namespace Connection

/-- A message is read and decided on. `connectionOk` says whether reth took a forwarded
request. -/
def read (s : Connection) (envelope : Option RpcEnvelope) (connectionOk : Bool) :
    Decision → Connection
  | .reply value =>
    { s with
      loop := .replying
      messages := s.messages ++ [⟨envelope, .replying value⟩] }
  | .forward request =>
    { s with
      loop := if connectionOk then .reading else .closed
      messages := s.messages ++ [⟨envelope, .forwarded request⟩] }
  | .spawn task =>
    { s with
      messages := s.messages ++ [⟨envelope, .spawned task⟩]
      available := s.available - task.permits }

/-- Message `i` goes on: a task that gives up permits returns them to the semaphore. -/
def handle (s : Connection) (i : Nat) (envelope : Option RpcEnvelope) (task task' : Task) :
    Connection :=
  { s with
    messages := s.messages.set i ⟨envelope, .spawned task'⟩
    available := s.available + (task.permits - task'.permits) }

end Connection

inductive ConnectionLabel where
  | read (text : List UInt8) (connectionOk : Bool)
  | reply
  | replyFails
  | task (i : Nat) (l : TaskLabel)
  | abort (i : Nat)
  | relay (value : Value)
  | write
  | writerEnds
  | close

variable (security : SecurityConfig) (parse : JsonParser) (errorText : List UInt8 → String)

inductive ConnectionStep : Connection → ConnectionLabel → Connection → Prop where
  | read (s : Connection) (text : List UInt8) (connectionOk : Bool)
      (hloop : s.loop = .reading) :
      ConnectionStep s (.read text connectionOk)
        (s.read (readEnvelope parse text) connectionOk
          (decideMessage security (errorText text) s.available (readEnvelope parse text)))
  | reply (s : Connection) (i : Nat) (envelope : Option RpcEnvelope) (value : Value)
      (channel : Channel Value clientSendBuffer) (hloop : s.loop = .replying)
      (hmessage : s.messages[i]? = some ⟨envelope, .replying value⟩)
      (hsend : s.channel.trySend value = .ok channel) :
      ConnectionStep s .reply
        { s with
          loop := .reading
          messages := s.messages.set i ⟨envelope, .replied value true⟩
          channel := channel
          answers := s.answers ++ [(i, value)] }
  | replyFails (s : Connection) (i : Nat) (envelope : Option RpcEnvelope) (value : Value)
      (hloop : s.loop = .replying)
      (hmessage : s.messages[i]? = some ⟨envelope, .replying value⟩)
      (hclosed : s.channel.closed = true) :
      ConnectionStep s .replyFails
        { s with
          loop := .closed
          messages := s.messages.set i ⟨envelope, .replied value false⟩ }
  | work (s : Connection) (i : Nat) (envelope : Option RpcEnvelope) (t t' : Task)
      (hmessage : s.messages[i]? = some ⟨envelope, .spawned t⟩) (h : TaskStep t .work t') :
      ConnectionStep s (.task i .work) (s.handle i envelope t t')
  | deliver (s : Connection) (i : Nat) (envelope : Option RpcEnvelope) (t t' : Task)
      (value : Value) (channel : Channel Value clientSendBuffer)
      (hmessage : s.messages[i]? = some ⟨envelope, .spawned t⟩)
      (h : TaskStep t (.deliver value) t') (hsend : s.channel.trySend value = .ok channel) :
      ConnectionStep s (.task i (.deliver value))
        { s.handle i envelope t t' with
          channel := channel
          answers := s.answers ++ [(i, value)] }
  | undelivered (s : Connection) (i : Nat) (envelope : Option RpcEnvelope) (t t' : Task)
      (hmessage : s.messages[i]? = some ⟨envelope, .spawned t⟩)
      (h : TaskStep t .undelivered t') (hclosed : s.channel.closed = true) :
      ConnectionStep s (.task i .undelivered) (s.handle i envelope t t')
  | abort (s : Connection) (i : Nat) (envelope : Option RpcEnvelope) (t : Task)
      -- `abort_all`, once the loop has ended
      (hloop : s.loop = .closed)
      (hmessage : s.messages[i]? = some ⟨envelope, .spawned t⟩)
      (halive : t.phase.ended = false) :
      ConnectionStep s (.abort i) (s.handle i envelope t .aborted)
  | relay (s : Connection) (value : Value) (channel : Channel Value clientSendBuffer)
      (hsend : s.channel.trySend value = .ok channel) :
      ConnectionStep s (.relay value) { s with channel := channel }
  | write (s : Connection) (value : Value) (channel : Channel Value clientSendBuffer)
      (hrecv : s.channel.recv = some (value, channel)) :
      ConnectionStep s .write { s with channel := channel }
  | writerEnds (s : Connection) :
      ConnectionStep s .writerEnds { s with channel := s.channel.dropReceiver }
  | close (s : Connection) (hloop : s.loop = .reading) :
      ConnectionStep s .close { s with loop := .closed }

/-- A connection from its start. -/
def connection : Lts Connection ConnectionLabel where
  init s := s = ⟨.reading, [], maxInflightRequests, Channel.empty, []⟩
  step := ConnectionStep security parse errorText

variable {security parse errorText}

-- ---------------------------------------------------------------------------
-- Messages
-- ---------------------------------------------------------------------------

namespace Handling

def permits : Handling → Nat
  | spawned task => task.permits
  | _ => 0

def running : Handling → Nat
  | spawned task => task.running
  | _ => 0

/-- What the client channel took of it. -/
def delivered : Handling → List Value
  | replied reply true => [reply]
  | spawned task => task.delivered
  | _ => []

/-- The channel was closed when it was to be sent. -/
def Undelivered : Handling → Prop
  | replied _ delivered => delivered = false
  | spawned task => task.phase = .sent false
  | _ => False

def Replying : Handling → Prop
  | replying _ => True
  | _ => False

end Handling

/-- The id of the `-32005` with which a message is answered that needs permits: a single
request other than a subscription, or a nonempty batch. -/
def busyId : Option RpcEnvelope → Option Value
  | some (.single req) => if isSubscriptionMethod req.method then none else some req.id
  | some (.batch requests) => if requests.isEmpty then none else some .null
  | none => none

/-- The task is that of the message. -/
def Task.ForMessage (task : Task) : Option RpcEnvelope → Prop
  | some (.single _) => (∃ single, task = .single single) ∨ task = .aborted
  | some (.batch requests) => (∃ batch, task = .batch requests.length batch) ∨ task = .aborted
  | none => False

/-- A message is handled as it may be: its task is valid and its own, and if it needs
permits, it has a task or the answer that there are none. -/
structure ClientMessage.Valid (m : ClientMessage) : Prop where
  task : ∀ task, m.handling = .spawned task → task.Valid ∧ task.ForMessage m.envelope
  needs : ∀ id, busyId m.envelope = some id →
    (∃ task, m.handling = .spawned task) ∨ m.handling = .replying (serverBusy id) ∨
      ∃ delivered, m.handling = .replied (serverBusy id) delivered

namespace Connection

/-- The permits that the tasks hold. -/
def permitsHeld (s : Connection) : Nat := held (fun m => m.handling.permits) s.messages

/-- The requests being processed. -/
def processing (s : Connection) : Nat := held (fun m => m.handling.running) s.messages

/-- What the client channel took in answer to message `i`. -/
def answersTo (s : Connection) (i : Nat) : List Value :=
  (entriesUnder i s.answers).map Prod.snd

/-- What every reachable connection satisfies. -/
structure Invariant (s : Connection) : Prop where
  permits : s.permitsHeld + s.available = maxInflightRequests
  valid : ∀ m ∈ s.messages, m.Valid
  answered : ∀ i, s.answersTo i = ((s.messages[i]?).map fun m => m.handling.delivered).getD []
  undelivered : ∀ m ∈ s.messages, m.handling.Undelivered → s.channel.closed = true
  pending : ∀ i m, s.messages[i]? = some m → m.handling.Replying →
    i + 1 = s.messages.length ∧ s.loop = .replying
  aborts : ∀ m ∈ s.messages, m.handling = .spawned .aborted → s.loop = .closed

end Connection

-- ---------------------------------------------------------------------------
-- Decisions
-- ---------------------------------------------------------------------------

/-- A decision does right by the message: what needs permits gets a task that has its
permits, or is told that there are none. -/
def Decision.Sound (available : Nat) (envelope : Option RpcEnvelope) : Decision → Prop
  | .reply value => ∀ id, busyId envelope = some id → value = serverBusy id
  | .forward _ => busyId envelope = none
  | .spawn task => task.Valid ∧ task.ForMessage envelope ∧ task.permits ≤ available ∧
    task.phase = .collecting

theorem decideMessage_single_sound (errorText : String) (available : Nat) (req : RpcRequest) :
    (decideMessage security errorText available (some (.single req))).Sound available
      (some (.single req)) := by
  rw [decideMessage]
  by_cases hsubscription : isSubscriptionMethod req.method = true
  · have hnone : busyId (some (.single req)) = none := if_pos hsubscription
    rw [if_pos hsubscription]
    cases validateRequest security req with
    | some errorResponse =>
      intro id hid
      rw [hnone] at hid
      exact absurd hid (by simp)
    | none => exact hnone
  · have hbusy : busyId (some (.single req)) = some req.id := if_neg hsubscription
    rw [if_neg hsubscription]
    by_cases hpermit : 1 ≤ available
    · rw [if_pos hpermit]
      exact ⟨trivial, Or.inl ⟨_, rfl⟩, hpermit, rfl⟩
    · rw [if_neg hpermit]
      intro id hid
      rw [hbusy] at hid
      rw [Option.some.inj hid]

theorem decideMessage_batch_sound (errorText : String) (available : Nat)
    (requests : List RpcRequest) :
    (decideMessage security errorText available (some (.batch requests))).Sound available
      (some (.batch requests)) := by
  rw [decideMessage]
  by_cases hempty : requests.isEmpty = true
  · have hnone : busyId (some (.batch requests)) = none := if_pos hempty
    rw [if_pos hempty]
    intro id hid
    rw [hnone] at hid
    exact absurd hid (by simp)
  · have hbusy : busyId (some (.batch requests)) = some .null := if_neg hempty
    have hpos : 0 < requests.length := by
      cases requests with
      | nil => exact absurd rfl hempty
      | cons => exact Nat.succ_pos _
    rw [if_neg hempty]
    by_cases hpermits : min requests.length maxInflightRequests ≤ available
    · rw [if_pos hpermits]
      refine ⟨Task.ofBatch_valid hpos, Or.inl ⟨_, rfl⟩, ?_, Task.ofBatch_phase hpos⟩
      rw [Task.ofBatch_permits hpos]
      exact hpermits
    · rw [if_neg hpermits]
      intro id hid
      rw [hbusy] at hid
      rw [← Option.some.inj hid]

theorem decideMessage_sound (errorText : String) (available : Nat)
    (envelope : Option RpcEnvelope) :
    (decideMessage security errorText available envelope).Sound available envelope := by
  cases envelope with
  | none =>
    intro id hid
    exact absurd hid (by simp [busyId])
  | some envelope =>
    cases envelope with
    | single req => exact decideMessage_single_sound errorText available req
    | batch requests => exact decideMessage_batch_sound errorText available requests

-- ---------------------------------------------------------------------------
-- One message changes
-- ---------------------------------------------------------------------------

namespace Connection

variable {s t : Connection}

/-- Message `i` goes from `m` to `m'`, the channel taking `new` in answer to it: all that a
step has to show. -/
structure Replaces (s t : Connection) (i : Nat) (m m' : ClientMessage) (new : List Value) :
    Prop where
  before : s.messages[i]? = some m
  after : t.messages = s.messages.set i m'
  permits : t.available + m'.handling.permits = s.available + m.handling.permits
  answers : t.answers = s.answers ++ new.map fun value => (i, value)
  delivered : m'.handling.delivered = m.handling.delivered ++ new
  valid : m'.Valid
  undelivered : m'.handling.Undelivered → t.channel.closed = true
  closed : s.channel.closed = true → t.channel.closed = true
  settled : ¬m'.handling.Replying
  aborts : m'.handling = .spawned .aborted → s.loop = .closed
  loop : t.loop = s.loop ∨ m.handling.Replying

theorem answersTo_append (s : Connection) (i j : Nat) (new : List Value) :
    (entriesUnder j (s.answers ++ new.map fun value => (i, value))).map Prod.snd =
      s.answersTo j ++ if i = j then new else [] := by
  rw [entriesUnder_append, List.map_append, answersTo]
  congr 1
  by_cases hij : i = j
  · simp [entriesUnder, hij, List.filter_map, Function.comp_def]
  · simp [entriesUnder, hij, List.filter_map, Function.comp_def]

/-- **Changing one message keeps the invariant.** -/
theorem Invariant.replaces {i : Nat} {m m' : ClientMessage} {new : List Value}
    (hs : s.Invariant) (h : s.Replaces t i m m' new) : t.Invariant := by
  have hlt : i < s.messages.length := (List.getElem?_eq_some_iff.mp h.before).1
  have hmem : ∀ n ∈ t.messages, n = m' ∨ n ∈ s.messages := by
    intro n hn
    rw [h.after] at hn
    exact (List.mem_or_eq_of_mem_set hn).symm
  refine ⟨?_, ?_, ?_, ?_, ?_, ?_⟩
  · have hheld : held (fun m => m.handling.permits) (s.messages.set i m') +
        m.handling.permits = held (fun m => m.handling.permits) s.messages +
          m'.handling.permits := held_set m' h.before
    have hpermits := h.permits
    have hbefore := hs.permits
    rw [permitsHeld] at hbefore
    rw [permitsHeld, h.after]
    omega
  · intro n hn
    rcases hmem n hn with rfl | hn
    · exact h.valid
    · exact hs.valid n hn
  · intro j
    rw [answersTo, h.answers, answersTo_append, hs.answered, h.after, List.getElem?_set]
    by_cases hij : i = j
    · subst hij
      rw [if_pos rfl, if_pos rfl, if_pos hlt, h.before]
      exact h.delivered.symm
    · rw [if_neg hij, if_neg hij, List.append_nil]
  · intro n hn hundelivered
    rcases hmem n hn with rfl | hn
    · exact h.undelivered hundelivered
    · exact h.closed (hs.undelivered n hn hundelivered)
  · intro j n hn hreplying
    rw [h.after, List.getElem?_set] at hn
    by_cases hij : i = j
    · rw [if_pos hij, if_pos hlt] at hn
      obtain rfl := Option.some.inj hn
      exact absurd hreplying h.settled
    · rw [if_neg hij] at hn
      obtain ⟨hlast, hloop⟩ := hs.pending j n hn hreplying
      rw [h.after, List.length_set]
      refine ⟨hlast, ?_⟩
      rcases h.loop with hsame | hreplying'
      · rw [hsame, hloop]
      · have hlast' := (hs.pending i m h.before hreplying').1
        exact absurd (by omega) hij
  · intro n hn haborted
    have hclosed : s.loop = .closed := by
      rcases hmem n hn with rfl | hn
      · exact h.aborts haborted
      · exact hs.aborts n hn haborted
    rcases h.loop with hsame | hreplying
    · rw [hsame, hclosed]
    · have hloop := (hs.pending i m h.before hreplying).2
      exact absurd (hclosed.symm.trans hloop) (by simp)

/-- **Reading a message keeps the invariant.** -/
theorem Invariant.appends {m : ClientMessage} {available : Nat} {loop : LoopState}
    (hs : s.Invariant) (hreading : s.loop = .reading) (hvalid : m.Valid)
    (hpermits : available + m.handling.permits = s.available)
    (hdelivered : m.handling.delivered = []) (hundelivered : ¬m.handling.Undelivered)
    (haborts : m.handling ≠ .spawned .aborted)
    (hloop : m.handling.Replying → loop = .replying) :
    Invariant { s with
      loop := loop, messages := s.messages ++ [m], available := available } := by
  refine ⟨?_, ?_, ?_, ?_, ?_, ?_⟩
  · have hbefore := hs.permits
    rw [permitsHeld] at hbefore
    show held _ (s.messages ++ [m]) + available = _
    rw [held_append]
    omega
  · intro n hn
    rcases List.mem_append.mp hn with hn | hn
    · exact hs.valid n hn
    · rw [List.mem_singleton.mp hn]
      exact hvalid
  · intro j
    have hbefore := hs.answered j
    show s.answersTo j = _
    rw [hbefore, List.getElem?_append]
    split
    · rfl
    · next hge =>
      rw [List.getElem?_eq_none (by omega)]
      cases hj : j - s.messages.length with
      | zero => exact hdelivered.symm
      | succ k => rfl
  · intro n hn hn'
    rcases List.mem_append.mp hn with hn | hn
    · exact hs.undelivered n hn hn'
    · rw [List.mem_singleton.mp hn] at hn'
      exact absurd hn' hundelivered
  · intro j n hn hreplying
    rw [List.getElem?_append] at hn
    split at hn
    · -- a loop that reads has no reply to send
      have hpending := (hs.pending j n hn hreplying).2
      rw [hreading] at hpending
      exact absurd hpending (by simp)
    · next hge =>
      have hlt : j - s.messages.length < 1 := (List.getElem?_eq_some_iff.mp hn).1
      obtain rfl : m = n := by
        have hzero : j - s.messages.length = 0 := by omega
        rw [hzero] at hn
        exact Option.some.inj hn
      refine ⟨?_, hloop hreplying⟩
      show j + 1 = (s.messages ++ [m]).length
      rw [List.length_append, List.length_singleton]
      omega
  · intro n hn haborted
    rcases List.mem_append.mp hn with hn | hn
    · have hclosed := hs.aborts n hn haborted
      exact absurd (hreading.symm.trans hclosed) (by simp)
    · rw [List.mem_singleton.mp hn] at haborted
      exact absurd haborted haborts

/-- Reading and deciding keeps the invariant. -/
theorem Invariant.read (hs : s.Invariant) (hreading : s.loop = .reading)
    {envelope : Option RpcEnvelope} {decision : Decision}
    (hsound : decision.Sound s.available envelope) (connectionOk : Bool) :
    (s.read envelope connectionOk decision).Invariant := by
  cases decision with
  | reply value =>
    refine hs.appends hreading ⟨fun _ h => absurd h (by simp), ?_⟩ rfl rfl id (by simp)
      fun _ => rfl
    intro id hid
    rw [hsound id hid]
    exact Or.inr (Or.inl rfl)
  | forward request =>
    refine hs.appends hreading ⟨fun _ h => absurd h (by simp), ?_⟩ rfl rfl id (by simp)
      fun h => absurd h id
    intro id hid
    have hnone : busyId envelope = none := hsound
    rw [hnone] at hid
    exact absurd hid (by simp)
  | spawn task =>
    obtain ⟨hvalid, hown, hpermits, hphase⟩ := hsound
    have hpermits' : s.available - task.permits + task.permits = s.available :=
      Nat.sub_add_cancel hpermits
    have hnone : task.delivered = [] := if_neg (by rw [hphase]; simp)
    have hunsent : ¬task.phase = .sent false := by rw [hphase]; simp
    have hown' : Handling.spawned task ≠ .spawned .aborted := by
      rintro ⟨rfl⟩
      exact absurd hphase (by simp [Task.phase])
    refine hs.appends hreading ⟨?_, fun _ _ => Or.inl ⟨task, rfl⟩⟩ hpermits' hnone hunsent hown'
      fun h => absurd h id
    rintro task' ⟨rfl⟩
    exact ⟨hvalid, hown⟩

/-- Only the channel changes, and not from closed to open. -/
theorem Invariant.channel (hs : s.Invariant) {channel : Channel Value clientSendBuffer}
    (h : s.channel.closed = true → channel.closed = true) :
    Invariant { s with channel := channel } :=
  ⟨hs.permits, hs.valid, hs.answered, fun m hm hm' => h (hs.undelivered m hm hm'), hs.pending,
    hs.aborts⟩

/-- The loop sends its reply, or fails to. -/
theorem Invariant.reply (hs : s.Invariant) {i : Nat} {envelope : Option RpcEnvelope}
    {value : Value} (hmessage : s.messages[i]? = some ⟨envelope, .replying value⟩)
    (delivered : Bool) (hmessages : t.messages =
      s.messages.set i ⟨envelope, .replied value delivered⟩)
    (havailable : t.available = s.available)
    (hanswers : t.answers = s.answers ++ if delivered then [(i, value)] else [])
    (hundelivered : delivered = false → t.channel.closed = true)
    (hclosed : s.channel.closed = true → t.channel.closed = true) : t.Invariant := by
  have hvalid := hs.valid _ (List.mem_of_getElem? hmessage)
  suffices s.Replaces t i ⟨envelope, .replying value⟩ ⟨envelope, .replied value delivered⟩
      (if delivered then [value] else []) from hs.replaces this
  refine ⟨hmessage, hmessages, ?_, ?_, ?_, ⟨fun _ h => absurd h (by simp), ?_⟩, hundelivered,
    hclosed, id, by simp, Or.inr trivial⟩
  · rw [havailable]
    rfl
  · rw [hanswers]
    cases delivered <;> rfl
  · cases delivered <;> rfl
  · intro id hid
    rcases hvalid.needs id hid with ⟨task, hspawned⟩ | hreplying | ⟨_, hreplied⟩
    · exact absurd hspawned (by simp)
    · obtain rfl := Handling.replying.inj hreplying
      exact Or.inr (Or.inr ⟨delivered, rfl⟩)
    · exact absurd hreplied (by simp)

end Connection

-- ---------------------------------------------------------------------------
-- Steps
-- ---------------------------------------------------------------------------

theorem Task.single_forMessage {task : SingleTask} {envelope : Option RpcEnvelope} :
    (Task.single task).ForMessage envelope ↔ ∃ req, envelope = some (.single req) := by
  cases envelope with
  | none => simp [Task.ForMessage]
  | some envelope => cases envelope <;> simp [Task.ForMessage]

theorem Task.batch_forMessage {n : Nat} {task : WsBatch} {envelope : Option RpcEnvelope} :
    (Task.batch n task).ForMessage envelope ↔
      ∃ requests, envelope = some (.batch requests) ∧ requests.length = n := by
  cases envelope with
  | none => simp [Task.ForMessage]
  | some envelope => cases envelope <;> simp [Task.ForMessage, eq_comm]

theorem Task.aborted_forMessage {task : Task} {envelope : Option RpcEnvelope}
    (h : task.ForMessage envelope) : Task.aborted.ForMessage envelope := by
  cases envelope with
  | none => exact h
  | some envelope => cases envelope <;> exact Or.inr rfl

/-- A step keeps a task the task of its message. -/
theorem taskStep_forMessage {u u' : Task} {l : TaskLabel} {envelope : Option RpcEnvelope}
    (hown : u.ForMessage envelope) (h : TaskStep u l u') : u'.ForMessage envelope := by
  cases h with
  | respond | panic | deliver | undelivered =>
    exact Task.single_forMessage.mpr (Task.single_forMessage.mp hown)
  | batchWork | batchDeliver | batchUndelivered =>
    exact Task.batch_forMessage.mpr (Task.batch_forMessage.mp hown)

/-- A step aborts no task. -/
theorem taskStep_not_aborted {u u' : Task} {l : TaskLabel} (h : TaskStep u l u') :
    u' ≠ .aborted := by
  cases h with
  | respond | panic | deliver | undelivered | batchWork | batchDeliver | batchUndelivered => simp

variable {s t : Connection}

/-- A step of the task of message `i`. -/
theorem Connection.Invariant.task (hs : s.Invariant) {i : Nat} {envelope : Option RpcEnvelope}
    {u u' : Task} {l : TaskLabel} (hmessage : s.messages[i]? = some ⟨envelope, .spawned u⟩)
    (h : TaskStep u l u') (hmessages : t.messages = s.messages.set i ⟨envelope, .spawned u'⟩)
    (havailable : t.available = s.available + (u.permits - u'.permits))
    (hanswers : t.answers = s.answers ++ l.messages.map fun value => (i, value))
    (hundelivered : l = .undelivered → t.channel.closed = true)
    (hclosed : s.channel.closed = true → t.channel.closed = true)
    (hloop : t.loop = s.loop) : t.Invariant := by
  obtain ⟨hvalid, hown⟩ :=
    (hs.valid _ (List.mem_of_getElem? hmessage)).task u rfl
  obtain ⟨hbefore, hafter⟩ := taskStep_delivered h
  refine hs.replaces ⟨hmessage, hmessages, ?_, hanswers, ?_, ⟨?_, fun _ _ => Or.inl ⟨u', rfl⟩⟩,
    ?_, hclosed, id, ?_, Or.inl hloop⟩
  · have hpermits := taskStep_permits h
    show t.available + u'.permits = s.available + u.permits
    omega
  · show u'.delivered = u.delivered ++ l.messages
    rw [hbefore, hafter, List.nil_append]
  · rintro _ ⟨rfl⟩
    exact ⟨taskStep_valid hvalid h, taskStep_forMessage hown h⟩
  · intro hsent
    have hlabel := ((taskStep_phase h false).2).mp hsent
    cases l with
    | work => exact absurd hlabel id
    | deliver => exact absurd hlabel (by simp)
    | undelivered => exact hundelivered rfl
  · intro haborted
    exact absurd (Handling.spawned.inj haborted) (taskStep_not_aborted h)

/-- A task is aborted. -/
theorem Connection.Invariant.abort (hs : s.Invariant) {i : Nat}
    {envelope : Option RpcEnvelope} {u : Task} (hloop : s.loop = .closed)
    (hmessage : s.messages[i]? = some ⟨envelope, .spawned u⟩)
    (halive : u.phase.ended = false) : (s.handle i envelope u .aborted).Invariant := by
  obtain ⟨-, hown⟩ := (hs.valid _ (List.mem_of_getElem? hmessage)).task u rfl
  suffices s.Replaces (s.handle i envelope u .aborted) i ⟨envelope, .spawned u⟩
      ⟨envelope, .spawned .aborted⟩ [] from hs.replaces this
  refine ⟨hmessage, rfl, rfl, (List.append_nil _).symm, ?_,
    ⟨?_, fun _ _ => Or.inl ⟨_, rfl⟩⟩, ?_, id, id, fun _ => hloop, Or.inl rfl⟩
  · have hunsent : u.delivered = [] := if_neg fun hsent => by
      rw [hsent] at halive
      exact absurd halive (by simp [BatchPhase.ended])
    show Task.aborted.delivered = u.delivered ++ []
    rw [hunsent]
    rfl
  · rintro _ ⟨rfl⟩
    exact ⟨trivial, Task.aborted_forMessage hown⟩
  · intro hsent
    exact absurd hsent (by simp [Handling.Undelivered, Task.phase])

/-- A channel that takes a value was open. -/
theorem closed_of_trySend {channel channel' : Channel Value clientSendBuffer} {value : Value}
    (h : channel.trySend value = .ok channel') (hclosed : channel.closed = true) :
    channel'.closed = true := by
  rw [(Channel.trySend_eq_ok.mp h).1] at hclosed
  exact absurd hclosed (by simp)

/-- **Every step of the connection keeps the invariant.** -/
theorem connectionStep_invariant {l : ConnectionLabel} (hs : s.Invariant)
    (h : ConnectionStep security parse errorText s l t) : t.Invariant := by
  cases h with
  | read text connectionOk hloop => exact hs.read hloop (decideMessage_sound _ _ _) connectionOk
  | reply i envelope value channel hloop hmessage hsend =>
    exact hs.reply hmessage true rfl rfl rfl (by simp) (closed_of_trySend hsend)
  | replyFails i envelope value hloop hmessage hclosed =>
    exact hs.reply hmessage false rfl rfl (List.append_nil _).symm
      (fun _ => hclosed) id
  | work i envelope u u' hmessage h =>
    exact hs.task hmessage h rfl rfl (List.append_nil _).symm (by simp) id rfl
  | deliver i envelope u u' value channel hmessage h hsend =>
    exact hs.task hmessage h rfl rfl rfl (by simp) (closed_of_trySend hsend) rfl
  | undelivered i envelope u u' hmessage h hclosed =>
    exact hs.task hmessage h rfl rfl (List.append_nil _).symm (fun _ => hclosed) id rfl
  | abort i envelope u hloop hmessage halive => exact hs.abort hloop hmessage halive
  | relay value channel hsend => exact hs.channel (closed_of_trySend hsend)
  | write value channel hrecv =>
    refine hs.channel fun hclosed => ?_
    rw [(Channel.recv_eq_some.mp hrecv).2, hclosed]
  | writerEnds => exact hs.channel fun _ => rfl
  | close hloop =>
    refine ⟨hs.permits, hs.valid, hs.answered, hs.undelivered, ?_, fun _ _ _ => rfl⟩
    intro i m hm hreplying
    have hpending := (hs.pending i m hm hreplying).2
    rw [hloop] at hpending
    exact absurd hpending (by simp)

theorem connection_invariant (h : (connection security parse errorText).Reachable s) :
    s.Invariant := by
  refine Lts.invariant ?_ ?_ s h
  · rintro s rfl
    exact ⟨rfl, by simp, fun _ => rfl, by simp, by simp, by simp⟩
  · intro s l t _ hs hstep
    exact connectionStep_invariant hs hstep

-- ---------------------------------------------------------------------------
-- The account
-- ---------------------------------------------------------------------------

/-- A message was given a task: at most one value went to the client in answer to it, one
if the task ran to completion and the channel was open. It was aborted only after the loop had
ended. -/
structure Connection.Admitted (s : Connection) (i : Nat) (task : Task) : Prop where
  own : ∃ m, s.messages[i]? = some m ∧ m.handling = .spawned task ∧ task.ForMessage m.envelope
  atMostOne : (s.answersTo i).length ≤ 1
  completed : ∀ delivered, task.phase = .sent delivered →
    (delivered = true → ∃ message, s.answersTo i = [message]) ∧
    (delivered = false → s.channel.closed = true)
  aborted : task = .aborted → s.loop = .closed

/-- A message was told that there are no permits: it has no task, nothing was read until the
loop had sent the one error, and only a closed channel kept it from the client. -/
inductive Connection.Busy (s : Connection) (i : Nat) (id : Value) : Prop where
  | sending (envelope : Option RpcEnvelope)
      (hmessage : s.messages[i]? = some ⟨envelope, .replying (serverBusy id)⟩)
      (hlast : i + 1 = s.messages.length) (hloop : s.loop = .replying)
      (hanswers : s.answersTo i = [])
  | sent (envelope : Option RpcEnvelope)
      (hmessage : s.messages[i]? = some ⟨envelope, .replied (serverBusy id) true⟩)
      (hanswers : s.answersTo i = [serverBusy id])
  | unsent (envelope : Option RpcEnvelope)
      (hmessage : s.messages[i]? = some ⟨envelope, .replied (serverBusy id) false⟩)
      (hanswers : s.answersTo i = []) (hclosed : s.channel.closed = true)

/-- The account of a connection: its permits, what it processes, what has ended, and each
message that needs permits. -/
structure Connection.Accounted (s : Connection) : Prop where
  permits : s.permitsHeld + s.available = maxInflightRequests
  bounded : s.processing ≤ maxInflightRequests
  released : ∀ m ∈ s.messages, ∀ task, m.handling = .spawned task →
    task.phase.ended = true → task.permits = 0
  restored : (∀ m ∈ s.messages, ∀ task, m.handling = .spawned task →
    task.phase.ended = true) → s.available = maxInflightRequests
  answered : ∀ i m id, s.messages[i]? = some m → busyId m.envelope = some id →
    (∃ task, s.Admitted i task) ∨ s.Busy i id

/-- What has ended holds nothing. -/
theorem Connection.Invariant.released (hs : s.Invariant) {m : ClientMessage}
    (hm : m ∈ s.messages) {task : Task} (hspawned : m.handling = .spawned task)
    (hended : task.phase.ended = true) : task.permits = 0 :=
  Task.permits_of_ended ((hs.valid m hm).task task hspawned).1 hended

/-- Nothing is processed without a permit. -/
theorem Connection.Invariant.processing_le (hs : s.Invariant) :
    s.processing ≤ s.permitsHeld := by
  refine held_mono fun m hm => ?_
  cases hhandling : m.handling with
  | spawned task => exact Task.running_le_permits ((hs.valid m hm).task task hhandling).1
  | replying | replied | forwarded => exact Nat.le_refl 0

/-- The answers to a message are what the channel took of it. -/
theorem Connection.Invariant.answersTo_eq (hs : s.Invariant) {i : Nat} {m : ClientMessage}
    (hm : s.messages[i]? = some m) : s.answersTo i = m.handling.delivered := by
  rw [hs.answered, hm]
  rfl

theorem Connection.Invariant.admitted (hs : s.Invariant) {i : Nat} {m : ClientMessage}
    (hm : s.messages[i]? = some m) {task : Task} (hspawned : m.handling = .spawned task) :
    s.Admitted i task := by
  have hmem := List.mem_of_getElem? hm
  obtain ⟨hvalid, hown⟩ := (hs.valid m hmem).task task hspawned
  have hanswers : s.answersTo i = task.delivered := by
    rw [hs.answersTo_eq hm, hspawned]
    rfl
  refine ⟨⟨m, hm, hspawned, hown⟩, ?_, ?_, ?_⟩
  · rw [hanswers]
    exact Task.delivered_length hvalid
  · intro delivered hsent
    refine ⟨?_, ?_⟩
    · rintro rfl
      rw [hanswers]
      exact Task.delivered_of_sent hvalid hsent
    · rintro rfl
      refine hs.undelivered m hmem ?_
      rw [hspawned]
      exact hsent
  · rintro rfl
    exact hs.aborts m hmem hspawned

theorem Connection.Invariant.busy (hs : s.Invariant) {i : Nat} {m : ClientMessage} {id : Value}
    (hm : s.messages[i]? = some m)
    (hbusy : m.handling = .replying (serverBusy id) ∨
      ∃ delivered, m.handling = .replied (serverBusy id) delivered) : s.Busy i id := by
  obtain ⟨envelope, handling⟩ := m
  have hanswers := hs.answersTo_eq hm
  rcases hbusy with rfl | ⟨delivered, rfl⟩
  · obtain ⟨hlast, hloop⟩ := hs.pending i _ hm trivial
    exact .sending envelope hm hlast hloop hanswers
  · cases delivered with
    | true => exact .sent envelope hm hanswers
    | false =>
      exact .unsent envelope hm hanswers (hs.undelivered _ (List.mem_of_getElem? hm) rfl)

/-- **Every connection is accounted for**, whatever its client sends and however its tasks
go on beside the loop. -/
theorem connection_accounted (h : (connection security parse errorText).Reachable s) :
    s.Accounted := by
  have hs := connection_invariant h
  have hpermits := hs.permits
  refine ⟨hpermits, ?_, fun m hm task => hs.released hm, ?_, ?_⟩
  · have hprocessing := hs.processing_le
    omega
  · intro hended
    have hnone : s.permitsHeld = 0 := by
      refine held_eq_zero fun m hm => ?_
      cases hhandling : m.handling with
      | spawned task => exact hs.released hm hhandling (hended m hm task hhandling)
      | replying | replied | forwarded => rfl
    omega
  · intro i m id hm hid
    rcases (hs.valid m (List.mem_of_getElem? hm)).needs id hid with ⟨task, hspawned⟩ | hbusy
    · exact Or.inl ⟨task, hs.admitted hm hspawned⟩
    · exact Or.inr (hs.busy hm hbusy)

/-! ### A request that is answered, and one that finds a batch before it -/

theorem readEnvelope_submitBody : readEnvelope submitParser submitBody =
    some (.single ⟨"2.0", "eth_sendRawTransaction", defaultEmptyParams, .int 1⟩) := by
  have hparse : submitParser submitBody = some (.object [("jsonrpc", .string "2.0"),
      ("method", .string "eth_sendRawTransaction"), ("id", .number (.int 1))]) := if_pos rfl
  rw [readEnvelope, hparse]
  rfl

/-- A parser that reads the empty text as 64 such requests. -/
def batchParser : JsonParser := fun body =>
  if body = [] then (submitParser submitBody).map fun item => .array (List.replicate 64 item)
  else submitParser body

theorem readEnvelope_batch : readEnvelope batchParser [] = some (.batch
    (List.replicate 64 ⟨"2.0", "eth_sendRawTransaction", defaultEmptyParams, .int 1⟩)) := by
  have hparse : submitParser submitBody = some (.object [("jsonrpc", .string "2.0"),
      ("method", .string "eth_sendRawTransaction"), ("id", .number (.int 1))]) := if_pos rfl
  rw [readEnvelope, batchParser, if_pos rfl, hparse]
  rfl

/-- The first task sends its message and returns its permit; the batch takes all permits, and
the next request is refused. -/
theorem connection_accounted_busy :
    ∃ s, (connection SecurityConfig.new batchParser fun _ => "").Reachable s ∧
      s.answersTo 0 = [.string "0xab"] ∧ s.processing = 64 ∧ s.available = 0 ∧
      s.answersTo 2 = [serverBusy (.int 1)] ∧ s.Accounted := by
  have hsingle : readEnvelope batchParser submitBody =
      some (.single ⟨"2.0", "eth_sendRawTransaction", defaultEmptyParams, .int 1⟩) :=
    readEnvelope_submitBody
  have h0 : (connection SecurityConfig.new batchParser fun _ => "").Reachable
      ⟨.reading, [], maxInflightRequests, Channel.empty, []⟩ := Lts.reachable_init rfl
  have h1 := h0.next (ConnectionStep.read _ submitBody true rfl)
  rw [hsingle] at h1
  have h2 := h1.next (.work _ 0 _ Task.ofSingle (.single (.sending (.string "0xab"))) rfl
    (.respond _))
  have h3 := h2.next (.deliver _ 0 _ _ (.single (.sent (.string "0xab") true)) _
    ⟨[.string "0xab"], false, by decide⟩ rfl (.deliver _)
    (Channel.trySend_eq_ok.mpr ⟨rfl, by decide, rfl, rfl⟩))
  have h4 := h3.next (ConnectionStep.read _ [] true rfl)
  rw [readEnvelope_batch] at h4
  have h5 := h4.next (ConnectionStep.read _ submitBody true rfl)
  rw [hsingle] at h5
  have h6 := h5.next (.reply _ 2 _ (serverBusy (.int 1))
    ⟨[.string "0xab", serverBusy (.int 1)], false, by decide⟩ rfl rfl
    (Channel.trySend_eq_ok.mpr ⟨rfl, by decide, rfl, rfl⟩))
  exact ⟨_, h6, rfl, rfl, rfl, rfl, connection_accounted h6⟩

end IgraRpc
