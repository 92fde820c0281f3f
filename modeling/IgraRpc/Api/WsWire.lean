import IgraRpc.Api.WsConnection

/-!
# The wires of a connection — `handle_ws_connection`

What the client gets over its socket. The relay reads frames from reth and hands the texts
to the client channel, beside the answers of the loop and of its tasks; the writer takes
from the channel and writes. It ends when a write fails, or when the last sender is gone
and the channel is drained.

* `wire` — a connection with its relay and its writer, any interleaving of them;
* `wire_connection` — it refines the connection of `Api.WsConnection`;
* `wire_accounted` — **in every run**: the client gets what the channel took, in order, reth's
  texts are in it in reth's order, each once, and everything else is the one answer to some
  message; a writer that ends by itself leaves nothing behind.
-/

namespace IgraRpc

open Lib

-- ---------------------------------------------------------------------------
-- The relay and the writer
-- ---------------------------------------------------------------------------

/-- `tungstenite::Message`, or a read error. -/
inductive RethFrame where
  | text (content : String)
  | binary (bytes : List UInt8)
  | close
  | ping
  | pong
  | frame
  | error

/-- The text that is relayed of a frame. A binary frame that is no UTF-8 is passed over. -/
def RethFrame.text? : RethFrame → Option String
  | .text content => some content
  | .binary bytes => decodeUtf8 bytes
  | _ => none

/-- The relay ends with its stream, with an error or a closing frame; or it is aborted or
finds the channel closed. -/
inductive RelayState where
  | reading
  | sending (text : String)
  | finished
  | dropped

def RelayState.Over : RelayState → Prop
  | finished | dropped => True
  | _ => False

/-- What the relay does about what it reads, nothing at the end of the stream. -/
def RelayState.afterRead : Option RethFrame → RelayState
  | none | some .close | some .error => .finished
  | some message =>
    match message.text? with
    | some text => .sending text
    | none => .reading

/-- Whether the writer goes on, or why it ended. -/
inductive WriterState where
  | writing
  | failed
  | drained
  deriving DecidableEq

/-- What the channel takes: an answer to message `i`, or an event from reth. -/
inductive Outgoing where
  | answer (i : Nat) (value : Value)
  | event (text : String)

namespace Outgoing

/-- What stands in the channel. A text that is relayed stands in it as it is. -/
def value : Outgoing → Value
  | answer _ value => value
  | event text => .string text

def answer? : Outgoing → Option (Nat × Value)
  | answer i value => some (i, value)
  | event _ => none

def event? : Outgoing → Option String
  | answer _ _ => none
  | event text => some text

end Outgoing

/-- A connection with what went over its wires: what the relay read, what the channel took
and what the writer wrote. -/
structure Wire where
  connection : Connection
  relay : RelayState
  writer : WriterState
  read : List (Option RethFrame)
  taken : List Outgoing
  written : List Value

/-- The answers that a step of the connection adds. -/
def newAnswers (s t : Connection) : List Outgoing :=
  (t.answers.drop s.answers.length).map fun answer => .answer answer.1 answer.2

/-- The tasks of the loop have ended, and with them their senders. -/
def Connection.TasksEnded (s : Connection) : Prop :=
  ∀ m ∈ s.messages, ∀ task, m.handling = .spawned task → task.phase.ended = true

/-- Neither a step of the relay nor one of the writer. -/
def ConnectionLabel.Own : ConnectionLabel → Prop
  | .relay _ | .write | .writerEnds => False
  | _ => True

inductive WireLabel where
  | own (l : ConnectionLabel)
  | relayReads (next : Option RethFrame)
  | relaySends
  | relayFails
  | relayAborted
  | write
  | writeFails
  | writerDrained

variable (security : SecurityConfig) (parse : JsonParser) (errorText : List UInt8 → String)

inductive WireStep : Wire → WireLabel → Wire → Prop where
  | own (s : Wire) (l : ConnectionLabel) (connection : Connection) (hown : l.Own)
      (h : ConnectionStep security parse errorText s.connection l connection) :
      WireStep s (.own l)
        { s with connection, taken := s.taken ++ newAnswers s.connection connection }
  | relayReads (s : Wire) (next : Option RethFrame) (hrelay : s.relay = .reading) :
      WireStep s (.relayReads next)
        { s with relay := .afterRead next, read := s.read ++ [next] }
  | relaySends (s : Wire) (text : String) (connection : Connection)
      (hrelay : s.relay = .sending text)
      (h : ConnectionStep security parse errorText s.connection (.relay (.string text))
        connection) :
      WireStep s .relaySends
        { s with connection, relay := .reading, taken := s.taken ++ [.event text] }
  | relayFails (s : Wire) (text : String) (hrelay : s.relay = .sending text)
      (hclosed : s.connection.channel.closed = true) :
      WireStep s .relayFails { s with relay := .dropped }
  | relayAborted (s : Wire) (hloop : s.connection.loop = .closed) (hrelay : ¬s.relay.Over) :
      WireStep s .relayAborted { s with relay := .dropped }
  | write (s : Wire) (value : Value) (connection : Connection) (hwriter : s.writer = .writing)
      (hitem : s.connection.channel.recv = some (value, connection.channel))
      (h : ConnectionStep security parse errorText s.connection .write connection) :
      WireStep s .write { s with connection, written := s.written ++ [value] }
  | writeFails (s : Wire) (value : Value) (rest : Channel Value clientSendBuffer)
      (connection : Connection) (hwriter : s.writer = .writing)
      (hitem : s.connection.channel.recv = some (value, rest))
      (h : ConnectionStep security parse errorText s.connection .writerEnds connection) :
      WireStep s .writeFails { s with connection, writer := .failed }
  | writerDrained (s : Wire) (connection : Connection) (hwriter : s.writer = .writing)
      -- the loop, the relay and the tasks have a sender each
      (hloop : s.connection.loop = .closed) (hrelay : s.relay.Over)
      (htasks : s.connection.TasksEnded) (hempty : s.connection.channel.recv = none)
      (h : ConnectionStep security parse errorText s.connection .writerEnds connection) :
      WireStep s .writerDrained { s with connection, writer := .drained }

/-- A connection and its wires, from their start. -/
def wire : Lts Wire WireLabel where
  init s := s = ⟨⟨.reading, [], maxInflightRequests, Channel.empty, []⟩, .reading, .writing, [],
    [], []⟩
  step := WireStep security parse errorText

variable {security parse errorText}

-- ---------------------------------------------------------------------------
-- What was taken and what was written
-- ---------------------------------------------------------------------------

/-- The texts that reth sent, of what the relay read. -/
def eventTexts (read : List (Option RethFrame)) : List String :=
  read.filterMap fun message => message.bind RethFrame.text?

/-- What was taken is written in order, and the rest waits in the channel, unless a write
failed. -/
def WriterState.Accounts (taken written waiting : List Value) : WriterState → Prop
  | writing => taken = written ++ waiting
  | drained => taken = written
  | failed => written <+: taken

/-- The texts taken are those that were read, but for the one the relay holds. A relay that is
dropped may lose it. -/
def RelayState.Accounts (taken texts : List String) : RelayState → Prop
  | reading | finished => taken = texts
  | sending text => taken ++ [text] = texts
  | dropped => taken <+: texts

/-- **What went over the wires.** The client gets what the channel took, in order; reth's
texts are in it in reth's order, each once; everything else answers a message, and none is
answered twice. -/
structure Wire.Accounted (s : Wire) : Prop where
  written : s.writer.Accounts (s.taken.map Outgoing.value) s.written s.connection.channel.items
  events : s.relay.Accounts (s.taken.filterMap Outgoing.event?) (eventTexts s.read)
  answers : s.taken.filterMap Outgoing.answer? = s.connection.answers
  once : ∀ i, (s.connection.answersTo i).length ≤ 1

/-- The step is one of the connection, or the connection stays as it is. -/
theorem wireStep_connection {s t : Wire} {l : WireLabel}
    (h : WireStep security parse errorText s l t) :
    t.connection = s.connection ∨
      ∃ l, ConnectionStep security parse errorText s.connection l t.connection := by
  cases h with
  | own l connection hown h => exact Or.inr ⟨l, h⟩
  | relayReads | relayFails | relayAborted => exact Or.inl rfl
  | relaySends text connection hrelay h => exact Or.inr ⟨_, h⟩
  | write value connection hwriter hitem h => exact Or.inr ⟨_, h⟩
  | writeFails value rest connection hwriter hitem h => exact Or.inr ⟨_, h⟩
  | writerDrained connection hwriter hloop hrelay htasks hempty h => exact Or.inr ⟨_, h⟩

/-- A connection with its wires is a connection. -/
theorem wire_connection {s : Wire} (h : (wire security parse errorText).Reachable s) :
    (connection security parse errorText).Reachable s.connection := by
  refine Lts.invariant (P := fun s => (IgraRpc.connection security parse errorText).Reachable
    s.connection) ?_ ?_ s h
  · rintro s rfl
    exact Lts.reachable_init rfl
  · intro s l t _ hs hstep
    rcases wireStep_connection hstep with hsame | ⟨l, h⟩
    · rw [hsame]
      exact hs
    · exact hs.next h

/-- Reading a message answers none. -/
theorem read_answers (s : Connection) (envelope : Option RpcEnvelope) (connectionOk : Bool)
    (decision : Decision) :
    (s.read envelope connectionOk decision).answers = s.answers ∧
      (s.read envelope connectionOk decision).channel = s.channel := by
  cases decision with
  | reply value => exact ⟨rfl, rfl⟩
  | forward request => exact ⟨rfl, rfl⟩
  | spawn task => exact ⟨rfl, rfl⟩

/-- A step of the loop or of a task answers a message, or it leaves the channel as it is. -/
theorem own_cases {s t : Connection} {l : ConnectionLabel} (hown : l.Own)
    (h : ConnectionStep security parse errorText s l t) :
    newAnswers s t = [] ∧ t.answers = s.answers ∧ t.channel = s.channel ∨
      ∃ i value, newAnswers s t = [.answer i value] ∧ t.answers = s.answers ++ [(i, value)] ∧
        s.channel.trySend value = .ok t.channel := by
  have hsame : t.answers = s.answers → newAnswers s t = [] := by
    intro heq
    rw [newAnswers, heq, List.drop_length]
    rfl
  have hnew : ∀ {i value}, t.answers = s.answers ++ [(i, value)] →
      newAnswers s t = [.answer i value] := by
    intro i value heq
    rw [newAnswers, heq, List.drop_left]
    rfl
  cases h with
  | read text connectionOk hloop =>
    obtain ⟨hanswers, hchannel⟩ := read_answers s (readEnvelope parse text) connectionOk
      (decideMessage security (errorText text) s.available (readEnvelope parse text))
    exact Or.inl ⟨hsame hanswers, hanswers, hchannel⟩
  | reply i envelope value channel hloop hmessage hsend =>
    exact Or.inr ⟨i, value, hnew rfl, rfl, hsend⟩
  | replyFails | work | undelivered | abort => exact Or.inl ⟨hsame rfl, rfl, rfl⟩
  | deliver i envelope u u' value channel hmessage h hsend =>
    exact Or.inr ⟨i, value, hnew rfl, rfl, hsend⟩
  | relay | write | writerEnds => exact absurd hown id
  | close hloop => exact Or.inl ⟨hsame rfl, rfl, rfl⟩

/-- What the relay's texts are after it has read. -/
theorem eventTexts_concat (read : List (Option RethFrame)) (next : Option RethFrame) :
    eventTexts (read ++ [next]) = eventTexts read ++ (next.bind RethFrame.text?).toList := by
  rw [eventTexts, List.filterMap_append, ← eventTexts]
  cases h : next.bind RethFrame.text? <;> simp [h]

/-- What the relay reads is what it holds then. -/
theorem accounts_afterRead {taken : List String} {read : List (Option RethFrame)}
    (h : taken = eventTexts read) (next : Option RethFrame) :
    (RelayState.afterRead next).Accounts taken (eventTexts (read ++ [next])) := by
  have hnone : ∀ {texts : List String}, texts = [] → taken = eventTexts read ++ texts := by
    rintro texts rfl
    rw [List.append_nil, h]
  have hsome : ∀ text : String, taken ++ [text] = eventTexts read ++ [text] := fun text => by
    rw [h]
  rw [eventTexts_concat]
  cases next with
  | none => exact hnone rfl
  | some message =>
    cases message with
    | text content => exact hsome content
    | close | error | ping | pong | frame => exact hnone rfl
    | binary bytes =>
      rw [RelayState.afterRead, Option.bind_some, RethFrame.text?]
      · cases decodeUtf8 bytes with
        | none => exact hnone rfl
        | some text => exact hsome text
      · simp
      · simp

/-- Every sender of the channel is gone. -/
structure Wire.SendersGone (s : Wire) : Prop where
  loop : s.connection.loop = .closed
  relay : s.relay.Over
  tasks : s.connection.TasksEnded

/-- A task that takes a step has not ended. -/
theorem taskStep_alive {t t' : Task} {l : TaskLabel} (h : TaskStep t l t') :
    t.phase.ended = false := by
  cases h with
  | respond | panic | deliver | undelivered => rfl
  | batchWork requests s u l hwork h =>
    cases h with
    | complete index value hphase | panic index hphase | send hphase | finishSend _ hphase =>
      simp [Task.phase, hphase, BatchPhase.ended]
  | batchDeliver requests s u message hmessage h | batchUndelivered requests s u h =>
    cases h with
    | finishSend _ hphase => simp [Task.phase, hphase, BatchPhase.ended]

/-- Neither the loop nor a task does anything once they have ended. -/
theorem Wire.SendersGone.still {s : Wire} (hs : s.SendersGone) {l : ConnectionLabel}
    {t : Connection} (hown : l.Own) :
    ¬ConnectionStep security parse errorText s.connection l t := by
  have hclosed := hs.loop
  have htask : ∀ {i : Nat} {envelope : Option RpcEnvelope} {u : Task},
      s.connection.messages[i]? = some ⟨envelope, .spawned u⟩ → u.phase.ended = true :=
    fun hmessage => hs.tasks _ (List.mem_of_getElem? hmessage) _ rfl
  intro h
  cases h with
  | read text connectionOk hloop => exact absurd (hclosed.symm.trans hloop) (by simp)
  | reply i envelope value channel hloop => exact absurd (hclosed.symm.trans hloop) (by simp)
  | replyFails i envelope value hloop => exact absurd (hclosed.symm.trans hloop) (by simp)
  | work i envelope u u' hmessage h | deliver i envelope u u' value channel hmessage h
  | undelivered i envelope u u' hmessage h =>
    exact absurd ((taskStep_alive h).symm.trans (htask hmessage)) (by simp)
  | abort i envelope u hloop hmessage halive =>
    exact absurd (halive.symm.trans (htask hmessage)) (by simp)
  | relay | write | writerEnds => exact hown
  | close hloop => exact absurd (hclosed.symm.trans hloop) (by simp)

/-- What the steps keep beside: the channel is open as long as the writer goes on, and it
ends by itself only without senders. -/
structure Wire.Kept (s : Wire) : Prop where
  accounted : s.Accounted
  invariant : s.connection.Invariant
  opened : s.writer = .writing → s.connection.channel.closed = false
  emptied : s.writer ≠ .writing → s.connection.channel.closed = true
  drained : s.writer = .drained → s.SendersGone

/-- **The writer that drains the channel is the last**: after it there is no step. -/
theorem Wire.SendersGone.last {s t : Wire} {l : WireLabel} (hs : s.SendersGone)
    (hwriter : s.writer = .drained) : ¬WireStep security parse errorText s l t := by
  have hover := hs.relay
  intro h
  cases h with
  | own l connection hown h => exact hs.still hown h
  | relayReads next hrelay =>
    rw [hrelay] at hover
    exact hover
  | relaySends text connection hrelay h =>
    rw [hrelay] at hover
    exact hover
  | relayFails text hrelay hclosed =>
    rw [hrelay] at hover
    exact hover
  | relayAborted hloop hrelay => exact hrelay hover
  | write value connection hwriting => exact absurd (hwriter.symm.trans hwriting) (by simp)
  | writeFails value rest connection hwriting =>
    exact absurd (hwriter.symm.trans hwriting) (by simp)
  | writerDrained connection hwriting => exact absurd (hwriter.symm.trans hwriting) (by simp)

/-- No message is answered twice. -/
theorem Connection.Invariant.once {s : Connection} (hs : s.Invariant) (i : Nat) :
    (s.answersTo i).length ≤ 1 := by
  rw [hs.answered]
  cases hm : s.messages[i]? with
  | none => exact Nat.zero_le 1
  | some m =>
    have hvalid := hs.valid m (List.mem_of_getElem? hm)
    show m.handling.delivered.length ≤ 1
    cases hhandling : m.handling with
    | replying | forwarded => exact Nat.zero_le 1
    | replied reply delivered => cases delivered <;> simp [Handling.delivered]
    | spawned task => exact Task.delivered_length (hvalid.task task hhandling).1

namespace Wire.Kept

variable {s : Wire}

/-- What the channel takes is behind everything else. -/
theorem takes (hs : s.Kept) (item : Outgoing) {t : Connection} {relay : RelayState}
    (hinvariant : t.Invariant)
    (hsend : s.connection.channel.trySend item.value = .ok t.channel)
    (hevents : relay.Accounts (s.taken.filterMap Outgoing.event? ++ item.event?.toList)
      (eventTexts s.read))
    (hanswers : t.answers = s.connection.answers ++ item.answer?.toList) :
    Wire.Kept { s with connection := t, relay, taken := s.taken ++ [item] } := by
  obtain ⟨hopen, -, hitems, hopen'⟩ := Channel.trySend_eq_ok.mp hsend
  have hwriter : s.writer = .writing := by
    by_contra hnot
    have hclosed := hs.emptied hnot
    rw [hopen] at hclosed
    exact absurd hclosed (by simp)
  have hsingle : ∀ {β : Type} (f : Outgoing → Option β), [item].filterMap f = (f item).toList := by
    intro β f
    rw [List.filterMap_cons]
    cases f item <;> rfl
  refine ⟨⟨?_, ?_, ?_, hinvariant.once⟩, hinvariant, fun _ => hopen',
    fun hnot => absurd hwriter hnot, fun hdrained => ?_⟩
  · have hwritten := hs.accounted.written
    rw [hwriter] at hwritten
    show s.writer.Accounts ((s.taken ++ [item]).map Outgoing.value) s.written t.channel.items
    rw [hwriter, hitems, List.map_append]
    show _ = s.written ++ (s.connection.channel.items ++ [item.value])
    rw [← List.append_assoc]
    exact congrArg (· ++ [item.value]) hwritten
  · show relay.Accounts ((s.taken ++ [item]).filterMap Outgoing.event?) (eventTexts s.read)
    rw [List.filterMap_append, hsingle]
    exact hevents
  · show (s.taken ++ [item]).filterMap Outgoing.answer? = t.answers
    rw [List.filterMap_append, hsingle, hs.accounted.answers, hanswers]
  · exact absurd (hwriter.symm.trans hdrained) (by simp)

/-- **A step of the loop or of a task** keeps the account. -/
theorem own (hs : s.Kept) {l : ConnectionLabel} {t : Connection} (hown : l.Own)
    (h : ConnectionStep security parse errorText s.connection l t) :
    Wire.Kept { s with connection := t, taken := s.taken ++ newAnswers s.connection t } := by
  have hinvariant := connectionStep_invariant hs.invariant h
  rcases own_cases hown h with ⟨hnone, hanswers, hchannel⟩ | ⟨i, value, hnew, hanswers, hsend⟩
  · rw [hnone, List.append_nil]
    refine ⟨⟨?_, hs.accounted.events, hs.accounted.answers.trans hanswers.symm, hinvariant.once⟩,
      hinvariant, ?_, ?_, fun hdrained => absurd h ((hs.drained hdrained).still hown)⟩
    · show s.writer.Accounts _ _ t.channel.items
      rw [hchannel]
      exact hs.accounted.written
    · show _ → t.channel.closed = false
      rw [hchannel]
      exact hs.opened
    · show _ → t.channel.closed = true
      rw [hchannel]
      exact hs.emptied
  · rw [hnew]
    refine hs.takes (.answer i value) hinvariant hsend ?_ hanswers
    rw [show (Outgoing.answer i value).event?.toList = [] from rfl, List.append_nil]
    exact hs.accounted.events

/-- The writer takes the oldest value. -/
theorem write (hs : s.Kept) {value : Value} {t : Connection} (hwriter : s.writer = .writing)
    (hitem : s.connection.channel.recv = some (value, t.channel))
    (h : ConnectionStep security parse errorText s.connection .write t) :
    Wire.Kept { s with connection := t, written := s.written ++ [value] } := by
  have hinvariant := connectionStep_invariant hs.invariant h
  obtain ⟨hitems, hclosed⟩ := Channel.recv_eq_some.mp hitem
  have hanswers : t.answers = s.connection.answers := by
    cases h
    rfl
  refine ⟨⟨?_, hs.accounted.events, hs.accounted.answers.trans hanswers.symm, hinvariant.once⟩,
    hinvariant, fun _ => hclosed.trans (hs.opened hwriter), fun hnot => absurd hwriter hnot,
    fun hdrained => absurd (hwriter.symm.trans hdrained) (by simp)⟩
  have hwritten := hs.accounted.written
  rw [hwriter, hitems] at hwritten
  show s.writer.Accounts _ (s.written ++ [value]) t.channel.items
  rw [hwriter]
  show _ = s.written ++ [value] ++ t.channel.items
  rw [List.append_assoc]
  exact hwritten

/-- The writer ends, and nothing can be taken any more. -/
theorem ends (hs : s.Kept) {writer : WriterState} {t : Connection}
    (hended : writer ≠ .writing)
    (hwritten : writer.Accounts (s.taken.map Outgoing.value) s.written [])
    (hgone : writer = .drained → s.SendersGone)
    (h : ConnectionStep security parse errorText s.connection .writerEnds t) :
    Wire.Kept { s with connection := t, writer } := by
  have hinvariant := connectionStep_invariant hs.invariant h
  cases h with
  | writerEnds =>
    exact ⟨⟨hwritten, hs.accounted.events, hs.accounted.answers, hinvariant.once⟩, hinvariant,
      fun hwriting => absurd hwriting hended, fun _ => rfl, fun hdrained =>
        ⟨(hgone hdrained).loop, (hgone hdrained).relay, (hgone hdrained).tasks⟩⟩

end Wire.Kept

/-- The relay's own steps change nothing else. -/
theorem Wire.Kept.relay {s : Wire} (hs : s.Kept) {relay : RelayState}
    {read : List (Option RethFrame)} (hnot : ¬s.relay.Over)
    (hevents : relay.Accounts (s.taken.filterMap Outgoing.event?) (eventTexts read)) :
    Wire.Kept { s with relay, read } := by
  refine ⟨⟨hs.accounted.written, hevents, hs.accounted.answers, hs.accounted.once⟩, hs.invariant,
    hs.opened, hs.emptied, fun hdrained => absurd (hs.drained hdrained).relay hnot⟩

/-- **Every step keeps the account.** -/
theorem wireStep_kept {s t : Wire} {l : WireLabel} (hs : s.Kept)
    (h : WireStep security parse errorText s l t) : t.Kept := by
  have hevents := hs.accounted.events
  have hwritten := hs.accounted.written
  cases h with
  | own l connection hown h => exact hs.own hown h
  | relayReads next hrelay =>
    rw [hrelay] at hevents
    exact hs.relay (by rw [hrelay]; exact id) (accounts_afterRead hevents next)
  | relaySends text connection hrelay h =>
    have hinvariant := connectionStep_invariant hs.invariant h
    rw [hrelay] at hevents
    cases h with
    | relay _ channel hsend =>
      exact hs.takes (.event text) hinvariant hsend hevents (List.append_nil _).symm
  | relayFails text hrelay hclosed =>
    rw [hrelay] at hevents
    exact hs.relay (by rw [hrelay]; exact id) ⟨[text], hevents⟩
  | relayAborted hloop hrelay =>
    refine hs.relay hrelay ?_
    show _ <+: eventTexts s.read
    cases hstate : s.relay with
    | reading =>
      rw [hstate] at hevents
      exact ⟨[], (List.append_nil _).trans hevents⟩
    | sending text =>
      rw [hstate] at hevents
      exact ⟨[text], hevents⟩
    | finished | dropped => exact absurd (by rw [hstate]; exact trivial) hrelay
  | write value connection hwriter hitem h => exact hs.write hwriter hitem h
  | writeFails value rest connection hwriter hitem h =>
    rw [hwriter] at hwritten
    exact hs.ends (by simp) ⟨s.connection.channel.items, hwritten.symm⟩ (by simp) h
  | writerDrained connection hwriter hloop hrelay htasks hempty h =>
    rw [hwriter, Channel.recv_eq_none.mp hempty] at hwritten
    exact hs.ends (by simp) (hwritten.trans (List.append_nil _)) (fun _ => ⟨hloop, hrelay, htasks⟩)
      h

theorem reachable_wireKept {s : Wire} (h : (wire security parse errorText).Reachable s) :
    s.Kept := by
  refine Lts.invariant (P := Wire.Kept) ?_ (fun s l t _ hs hstep => wireStep_kept hs hstep) s h
  rintro s rfl
  have hstart : (connection security parse errorText).Reachable
      ⟨.reading, [], maxInflightRequests, Channel.empty, []⟩ := Lts.reachable_init rfl
  have hinvariant := connection_invariant hstart
  exact ⟨⟨rfl, rfl, rfl, hinvariant.once⟩, hinvariant, fun _ => rfl, fun h => absurd rfl h,
    fun h => absurd h (by simp)⟩

/-- **The wires of every connection are accounted for**, in every run, and a writer that ends
by itself is the last to do anything. -/
theorem wire_accounted {s : Wire} (h : (wire security parse errorText).Reachable s) :
    s.Accounted ∧ (s.writer = .drained → ∀ l t, ¬WireStep security parse errorText s l t) := by
  have hs := reachable_wireKept h
  exact ⟨hs.accounted, fun hdrained l t => (hs.drained hdrained).last hdrained⟩

/-! ### An event that is relayed -/

/-- Reth sends one event and closes, and so does the client. -/
theorem wire_accounted_event :
    ∃ s, (wire SecurityConfig.new submitParser fun _ => "").Reachable s ∧
      s.written = [.string "0x1"] ∧ s.writer = .drained ∧ s.Accounted ∧
      (s.writer = .drained → ∀ l t,
        ¬WireStep SecurityConfig.new submitParser (fun _ => "") s l t) := by
  have h0 : (wire SecurityConfig.new submitParser fun _ => "").Reachable
      ⟨⟨.reading, [], maxInflightRequests, Channel.empty, []⟩, .reading, .writing, [], [], []⟩ :=
    Lts.reachable_init rfl
  have h1 := h0.next (.relayReads _ (some (.text "0x1")) rfl)
  have h2 := h1.next (.relaySends _ "0x1" _ rfl (.relay _ _ ⟨[.string "0x1"], false, by decide⟩
    (Channel.trySend_eq_ok.mpr ⟨rfl, by decide, rfl, rfl⟩)))
  have hrecv : (⟨[.string "0x1"], false, by decide⟩ : Channel Value clientSendBuffer).recv =
      some (.string "0x1", Channel.empty) := Channel.recv_eq_some.mpr ⟨rfl, rfl⟩
  have h3 := h2.next (.write _ (.string "0x1")
    ⟨.reading, [], maxInflightRequests, Channel.empty, []⟩ rfl hrecv (.write _ _ _ hrecv))
  have h4 := h3.next (.relayReads _ none rfl)
  have h5 := h4.next (.own _ .close _ trivial (.close _ rfl))
  have h6 := h5.next (.writerDrained _ _ rfl rfl trivial
    (fun m hm => absurd hm List.not_mem_nil) rfl (.writerEnds _))
  exact ⟨_, h6, rfl, rfl, wire_accounted h6⟩

end IgraRpc
