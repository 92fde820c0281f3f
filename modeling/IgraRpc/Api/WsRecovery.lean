import IgraRpc.Api.WsServer

/-!
# Coming to an end — `api/ws.rs`

A connection is over when its loop has ended. The loop waits for its client's next message, for
a place in the client channel, which the writer makes, and for reth to take a request that is
forwarded. This last wait has no timeout, nor has that for the closing frame to reth; here the
request is read and taken, or fails, in one step, and the closing frame is left out.

* `wire_canClose` — the loop of a connection can end from every state;
* `server_recovers` — **the server is never stuck**: from every state of every run all sessions
  can come to their end, and then all permits are there again.
-/

namespace IgraRpc

open Lib

variable {security : SecurityConfig} {parse : JsonParser} {errorText : List UInt8 → String}

-- ---------------------------------------------------------------------------
-- The reply of the loop
-- ---------------------------------------------------------------------------

/-- A loop that sends has a reply to send. -/
def Connection.HasReply (s : Connection) : Prop :=
  s.loop = .replying → ∃ (i : Nat) (envelope : Option RpcEnvelope) (value : Value),
    s.messages[i]? = some ⟨envelope, .replying value⟩

/-- The task of one message changes, so the reply is that of another one. -/
theorem Connection.HasReply.handle {s t : Connection} (hs : s.HasReply) {i : Nat}
    {envelope : Option RpcEnvelope} {u u' : Task}
    (hmessage : s.messages[i]? = some ⟨envelope, .spawned u⟩) (hloop : t.loop = s.loop)
    (hmessages : t.messages = s.messages.set i ⟨envelope, .spawned u'⟩) : t.HasReply := by
  intro hreplying
  obtain ⟨j, envelope', value, hj⟩ := hs (hloop.symm.trans hreplying)
  have hne : i ≠ j := by
    rintro rfl
    exact absurd (hmessage.symm.trans hj) (by simp)
  refine ⟨j, envelope', value, ?_⟩
  rw [hmessages, List.getElem?_set_ne hne]
  exact hj

theorem connectionStep_hasReply {s t : Connection} {l : ConnectionLabel} (hs : s.HasReply)
    (h : ConnectionStep security parse errorText s l t) : t.HasReply := by
  cases h with
  | read text connectionOk hloop =>
    generalize decideMessage security (errorText text) s.available (readEnvelope parse text) =
      decision
    intro hreplying
    cases decision with
    | reply value =>
      refine ⟨s.messages.length, readEnvelope parse text, value, ?_⟩
      show (s.messages ++ [_])[s.messages.length]? = _
      rw [List.getElem?_concat_length]
    | forward request =>
      have hnot : (if connectionOk = true then LoopState.reading else .closed) ≠ .replying := by
        cases connectionOk <;> simp
      exact absurd hreplying hnot
    | spawn task => exact absurd (hloop.symm.trans hreplying) (by simp)
  | reply i envelope value channel hloop hmessage hsend =>
    exact fun hreplying => absurd hreplying (by simp)
  | replyFails i envelope value hloop hmessage hclosed =>
    exact fun hreplying => absurd hreplying (by simp)
  | work i envelope u u' hmessage h => exact hs.handle hmessage rfl rfl
  | deliver i envelope u u' value channel hmessage h hsend => exact hs.handle hmessage rfl rfl
  | undelivered i envelope u u' hmessage h hclosed => exact hs.handle hmessage rfl rfl
  | abort i envelope u hloop hmessage halive => exact hs.handle hmessage rfl rfl
  | relay | write | writerEnds => exact hs
  | close hloop => exact fun hreplying => absurd hreplying (by simp)

theorem connection_hasReply {s : Connection}
    (h : (connection security parse errorText).Reachable s) : s.HasReply := by
  refine Lts.invariant (P := Connection.HasReply) ?_
    (fun s l t _ hs hstep => connectionStep_hasReply hs hstep) s h
  rintro s rfl hreplying
  exact absurd hreplying (by simp)

-- ---------------------------------------------------------------------------
-- One connection
-- ---------------------------------------------------------------------------

section
variable {s : Wire}

/-- A loop that reads can be closed by its client. -/
theorem wire_close (hloop : s.connection.loop = .reading) :
    ∃ t, (wire security parse errorText).Steps s t ∧ t.connection.loop = .closed :=
  ⟨_, Lts.Steps.head (.own s .close _ trivial (.close _ hloop)) (Lts.Steps.refl _), rfl⟩

/-- With a place in the channel, the reply is sent. -/
theorem wire_reply (hs : s.connection.HasReply) (hloop : s.connection.loop = .replying)
    (hopen : s.connection.channel.closed = false)
    (hroom : s.connection.channel.items.length < clientSendBuffer) :
    ∃ t, (wire security parse errorText).Steps s t ∧ t.connection.loop = .reading := by
  obtain ⟨i, envelope, value, hmessage⟩ := hs hloop
  obtain ⟨channel, hsend⟩ : ∃ channel, s.connection.channel.trySend value = .ok channel := by
    refine ⟨⟨s.connection.channel.items ++ [value], false, ?_⟩, ?_⟩
    · rw [List.length_append]
      exact hroom
    · exact Channel.trySend_eq_ok.mpr ⟨hopen, hroom, rfl, rfl⟩
  exact ⟨_, Lts.Steps.head (.own s .reply _ trivial (.reply _ i envelope value channel hloop
    hmessage hsend)) (Lts.Steps.refl _), rfl⟩

/-- The writer makes a place in a full channel. -/
theorem wire_room (hs : s.Kept) (hopen : s.connection.channel.closed = false)
    (hfull : s.connection.channel.items.length = clientSendBuffer) :
    ∃ t, (wire security parse errorText).Steps s t ∧ t.connection.loop = s.connection.loop ∧
      t.connection.channel.closed = false ∧
      t.connection.channel.items.length < clientSendBuffer := by
  have hwriter : s.writer = .writing := by
    by_contra hnot
    exact absurd ((hs.emptied hnot).symm.trans hopen) (by simp)
  cases hitems : s.connection.channel.items with
  | nil =>
    rw [hitems] at hfull
    exact absurd hfull (by decide)
  | cons value rest =>
    rw [hitems, List.length_cons] at hfull
    let channel : Channel Value clientSendBuffer := ⟨rest, false, by omega⟩
    have hrecv : s.connection.channel.recv = some (value, channel) :=
      Channel.recv_eq_some.mpr ⟨hitems, hopen.symm⟩
    refine ⟨_, Lts.Steps.head (.write s value { s.connection with channel } hwriter hrecv
      (.write _ value channel hrecv)) (Lts.Steps.refl _), rfl, rfl, ?_⟩
    show rest.length < clientSendBuffer
    omega

/-- **The loop of a connection can end**, from every state of every run. -/
theorem wire_canClose (h : (wire security parse errorText).Reachable s) :
    ∃ t, (wire security parse errorText).Steps s t ∧ t.connection.loop = .closed := by
  have hs := reachable_wireKept h
  have hreply := connection_hasReply (wire_connection h)
  cases hloop : s.connection.loop with
  | closed => exact ⟨s, Lts.Steps.refl s, hloop⟩
  | reading => exact wire_close hloop
  | replying =>
    cases hclosed : s.connection.channel.closed with
    | true =>
      obtain ⟨i, envelope, value, hmessage⟩ := hreply hloop
      exact ⟨_, Lts.Steps.head (.own s .replyFails _ trivial (.replyFails _ i envelope value hloop
        hmessage hclosed)) (Lts.Steps.refl _), rfl⟩
    | false =>
      obtain ⟨t, hst, hloop', hopen, hroom⟩ : ∃ t, (wire security parse errorText).Steps s t ∧
          t.connection.loop = s.connection.loop ∧ t.connection.channel.closed = false ∧
          t.connection.channel.items.length < clientSendBuffer := by
        rcases Nat.lt_or_ge s.connection.channel.items.length clientSendBuffer with hroom | hfull
        · exact ⟨s, Lts.Steps.refl s, rfl, hclosed, hroom⟩
        · exact wire_room hs hclosed (Nat.le_antisymm s.connection.channel.bounded hfull)
      have hreply' := connection_hasReply (wire_connection (h.steps hst))
      obtain ⟨u, htu, hreading⟩ : ∃ u, (wire security parse errorText).Steps t u ∧
          u.connection.loop = .reading := wire_reply hreply' (hloop'.trans hloop) hopen hroom
      obtain ⟨v, huv, hended⟩ : ∃ v, (wire security parse errorText).Steps u v ∧
          v.connection.loop = .closed := wire_close hreading
      exact ⟨v, (hst.trans htu).trans huv, hended⟩

end

-- ---------------------------------------------------------------------------
-- The server
-- ---------------------------------------------------------------------------

/-- The steps of a connection are those of the session that serves it. -/
theorem steps_serving {w w' : Wire} (h : (wire security parse errorText).Steps w w') :
    (session security parse errorText).Steps (.serving w) (.serving w') := by
  induction h with
  | refl => exact Lts.Steps.refl _
  | tail hprev hmove ih =>
    obtain ⟨l, hl⟩ := hmove
    exact ih.tail ⟨.wire l, .serves _ _ l hl⟩

/-- Every session can come to its end. -/
theorem session_canEnd {a : Session} (h : (session security parse errorText).Reachable a) :
    ∃ b, (session security parse errorText).Steps a b ∧ b.live = false := by
  cases a with
  | upgrading => exact ⟨_, Lts.Steps.head SessionStep.abandoned (Lts.Steps.refl _), rfl⟩
  | connecting =>
    exact ⟨_, Lts.Steps.head SessionStep.connectFails
      (Lts.Steps.head (SessionStep.refused _) (Lts.Steps.refl _)), rfl⟩
  | refusing error =>
    exact ⟨_, Lts.Steps.head (SessionStep.refused error) (Lts.Steps.refl _), rfl⟩
  | serving w =>
    obtain ⟨w', hsteps, hclosed⟩ := wire_canClose (session_wire h w rfl)
    exact ⟨_, (steps_serving hsteps).trans
      (Lts.Steps.head (SessionStep.returns w' hclosed) (Lts.Steps.refl _)), rfl⟩
  | ended left => exact ⟨_, Lts.Steps.refl _, rfl⟩

/-- **The server is never stuck**: from every state of every run, all sessions can come to
their end, and all permits are there again. -/
theorem server_recovers {s : Slots Session}
    (h : (wsServer security parse errorText).Reachable s) :
    ∃ t, (wsServer security parse errorText).Steps s t ∧
      (∀ a ∈ t.members, a.live = false) ∧ t.available = maxWsConnections := by
  have hbegin : ∀ a, (session security parse errorText).init a → a.live = true := by
    rintro a rfl
    rfl
  exact slots_recover hbegin (fun _ _ _ => session_live) (fun _ => session_canEnd) h

/-! ### A session with a full channel -/

/-- A connection to which reth has sent so many events, none of them written yet. -/
theorem exists_unwritten {n : Nat} (hn : n ≤ clientSendBuffer) :
    ∃ w, (wire security parse errorText).Reachable w ∧ w.connection.loop = .reading ∧
      w.connection.channel.closed = false ∧ w.connection.channel.items.length = n ∧
      w.relay = .reading := by
  induction n with
  | zero => exact ⟨_, Lts.reachable_init rfl, rfl, rfl, rfl, rfl⟩
  | succ n ih =>
    obtain ⟨w, hw, hloop, hopen, hlength, hrelay⟩ := ih (by omega)
    have hroom : w.connection.channel.items.length < clientSendBuffer := by omega
    have hlonger : (w.connection.channel.items ++ [Value.string "0x1"]).length ≤
        clientSendBuffer := by
      rw [List.length_append]
      exact hroom
    have hread := hw.next (.relayReads _ (some (.text "0x1")) hrelay)
    have hsend := hread.next (.relaySends _ "0x1" _ rfl (.relay _ _ ⟨_, false, hlonger⟩
      (Channel.trySend_eq_ok.mpr ⟨hopen, hroom, rfl, rfl⟩)))
    refine ⟨_, hsend, hloop, rfl, ?_, rfl⟩
    show (w.connection.channel.items ++ [_]).length = n + 1
    rw [List.length_append, hlength]
    rfl

/-- The loop of a session waits for a place in a full channel, with an answer to a message that
is no JSON. -/
theorem server_recovers_waiting :
    ∃ s w, s.members = [.serving w] ∧ w.connection.loop = .replying ∧
      w.connection.channel.items.length = clientSendBuffer ∧
      ∃ t, (wsServer SecurityConfig.new submitParser fun _ => "").Steps s t ∧
        (∀ a ∈ t.members, a.live = false) ∧ t.available = maxWsConnections := by
  let C := wire SecurityConfig.new submitParser fun _ => ""
  let M := session SecurityConfig.new submitParser fun _ => ""
  obtain ⟨w, ⟨w₀, hbegin, hrun⟩, hloop, -, hfull, -⟩ : ∃ w, C.Reachable w ∧
      w.connection.loop = .reading ∧ w.connection.channel.closed = false ∧
      w.connection.channel.items.length = clientSendBuffer ∧ w.relay = .reading :=
    exists_unwritten (Nat.le_refl clientSendBuffer)
  have hnone : readEnvelope submitParser [] = none := by decide
  have hread : C.step w (.own (.read [] true)) _ := .own w _ _ trivial (.read _ [] true hloop)
  rw [hnone] at hread
  have hupgraded : M.step .upgrading .upgraded .connecting := SessionStep.upgraded
  have hconnected : M.step .connecting .connected (.serving w₀) := SessionStep.connected w₀ hbegin
  have hwaits : M.Steps .upgrading _ := Lts.Steps.head hupgraded (Lts.Steps.head hconnected
    ((steps_serving hrun).tail ⟨_, .serves _ _ _ hread⟩))
  have hinit : M.init .upgrading := rfl
  have h0 : (wsServer SecurityConfig.new submitParser fun _ => "").Reachable
      ⟨[], maxWsConnections, []⟩ := Lts.reachable_init rfl
  have h1 := h0.next (SlotsStep.enter _ _ hinit (by decide))
  have hmember : ([.upgrading] : List Session)[0]? = some .upgrading := rfl
  obtain ⟨s, hsteps, hmembers⟩ := steps_member (s := ⟨_, 1023, [(0, true)]⟩) hmember hwaits
  exact ⟨s, _, hmembers, rfl, hfull, server_recovers (h1.steps hsteps)⟩

end IgraRpc
