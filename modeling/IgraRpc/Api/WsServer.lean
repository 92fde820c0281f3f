import IgraRpc.Api.WsWire
import IgraRpc.Lib.Slots

/-!
# All WebSocket connections — `handle_ws_upgrade`

An upgrade takes one of 1024 permits or is answered with 503. The permit goes with the
connection: through the handshake, the connecting to reth and the serving, until the
connection is over. Every client has its own session, and they go on beside each other.

* `session` — one client, from its upgrade on;
* `wsServer` — all of them, any interleaving;
* `server_accounted` — **in every run**: no permit is lost or given twice, an upgrade is
  refused exactly if 1024 sessions are live, no session processes more than 64 requests, and
  what holds of the wires of one connection holds of each.
-/

namespace IgraRpc

open Lib

-- ---------------------------------------------------------------------------
-- One client
-- ---------------------------------------------------------------------------

/-- `MAX_WS_CONNECTIONS`. -/
def maxWsConnections : Nat := 1024

/-- The error of `send_error_and_close`. -/
def backendError (message : String) : Value := jsonRpcError .null (-32603) message

/-- A session: its handshake goes on; it connects to reth; it could not, and the client is
being told; it is served; or it is over, and what is left of it winds down. -/
inductive Session where
  | upgrading
  | connecting
  | refusing (error : Value)
  | serving (wire : Wire)
  | ended (left : Option Wire)

namespace Session

/-- The permit is held until `handle_ws_connection` returns. -/
def live : Session → Bool
  | ended _ => false
  | _ => true

def wire? : Session → Option Wire
  | serving wire => some wire
  | ended left => left
  | _ => none

/-- The requests it is processing. -/
def processing (self : Session) : Nat :=
  match self.wire? with
  | some wire => wire.connection.processing
  | none => 0

end Session

inductive SessionLabel where
  /-- The client goes away before the handshake is complete. -/
  | abandoned
  | upgraded
  | connected
  | connectFails
  | connectTimesOut
  | refused
  | wire (l : WireLabel)
  | returns

variable (security : SecurityConfig) (parse : JsonParser) (errorText : List UInt8 → String)

inductive SessionStep : Session → SessionLabel → Session → Prop where
  | abandoned : SessionStep .upgrading .abandoned (.ended none)
  | upgraded : SessionStep .upgrading .upgraded .connecting
  | connected (w : Wire) (hstart : (wire security parse errorText).init w) :
      SessionStep .connecting .connected (.serving w)
  | connectFails : SessionStep .connecting .connectFails
      (.refusing (backendError "Backend WebSocket connection failed"))
  | connectTimesOut : SessionStep .connecting .connectTimesOut
      (.refusing (backendError "Backend WebSocket connection timeout"))
  | refused (error : Value) : SessionStep (.refusing error) .refused (.ended none)
  | serves (w w' : Wire) (l : WireLabel) (h : WireStep security parse errorText w l w') :
      SessionStep (.serving w) (.wire l) (.serving w')
  | returns (w : Wire) (hloop : w.connection.loop = .closed) :
      -- the writer is waited for, but not for longer than `WRITER_SHUTDOWN_TIMEOUT`
      SessionStep (.serving w) .returns (.ended (some w))
  | windsDown (w w' : Wire) (l : WireLabel) (h : WireStep security parse errorText w l w') :
      SessionStep (.ended (some w)) (.wire l) (.ended (some w'))

/-- One session. -/
def session : Lts Session SessionLabel where
  init s := s = .upgrading
  step := SessionStep security parse errorText

/-- All sessions. A request for an upgrade takes a permit, or it is refused. -/
def wsServer : Lts (Slots Session) (SlotsLabel SessionLabel) :=
  slots (session security parse errorText) Session.live maxWsConnections

variable {security parse errorText}

-- ---------------------------------------------------------------------------
-- One session
-- ---------------------------------------------------------------------------

theorem session_live {a b : Session} {l : SessionLabel}
    (h : (session security parse errorText).step a l b) (hover : a.live = false) :
    b.live = false := by
  cases h with
  | windsDown => rfl
  | abandoned | upgraded | connected | connectFails | connectTimesOut | refused | serves
  | returns => exact absurd hover (by simp [Session.live])

/-- The wires of a session are those of a connection. -/
theorem session_wire {a : Session} (h : (session security parse errorText).Reachable a) :
    ∀ w, a.wire? = some w → (wire security parse errorText).Reachable w := by
  refine Lts.invariant (P := fun a : Session => ∀ w, a.wire? = some w →
    (wire security parse errorText).Reachable w) ?_ ?_ a h
  · rintro a rfl w hw
    exact absurd hw (by simp [Session.wire?])
  · intro a l b _ ha hstep w hw
    cases hstep with
    | abandoned | upgraded | connectFails | connectTimesOut | refused =>
      exact absurd hw (by simp [Session.wire?])
    | connected v hstart =>
      obtain rfl := Option.some.inj hw
      exact Lts.reachable_init hstart
    | serves v v' l h | windsDown v v' l h =>
      obtain rfl := Option.some.inj hw
      exact (ha v rfl).next h
    | returns v hloop => exact ha w hw

/-- A loop that has ended stays so. -/
theorem connectionStep_closed {s t : Connection} {l : ConnectionLabel}
    (h : ConnectionStep security parse errorText s l t) (hclosed : s.loop = .closed) :
    t.loop = .closed := by
  cases h with
  | read text connectionOk hloop => exact absurd (hclosed.symm.trans hloop) (by simp)
  | reply i envelope value channel hloop => exact absurd (hclosed.symm.trans hloop) (by simp)
  | replyFails | close => rfl
  | work | deliver | undelivered | abort | relay | write | writerEnds => exact hclosed

/-- A session that is over reads no more messages. -/
theorem session_over {a : Session} (h : (session security parse errorText).Reachable a) :
    ∀ w, a = .ended (some w) → w.connection.loop = .closed := by
  refine Lts.invariant (P := fun a : Session => ∀ w, a = .ended (some w) →
    w.connection.loop = .closed) ?_ ?_ a h
  · rintro a rfl w hw
    exact absurd hw (by simp)
  · intro a l b _ ha hstep w hw
    cases hstep with
    | abandoned | upgraded | connected | connectFails | connectTimesOut | refused | serves =>
      exact absurd hw (by simp)
    | returns v hloop =>
      obtain rfl := Option.some.inj (Session.ended.inj hw)
      exact hloop
    | windsDown v v' l h =>
      obtain rfl := Option.some.inj (Session.ended.inj hw)
      rcases wireStep_connection h with hsame | ⟨l, hmove⟩
      · rw [hsame]
        exact ha v rfl
      · exact connectionStep_closed hmove (ha v rfl)

/-- No session processes more than 64 requests. -/
theorem session_processing {a : Session} (h : (session security parse errorText).Reachable a) :
    a.processing ≤ maxInflightRequests := by
  rw [Session.processing]
  cases hwire : a.wire? with
  | none => exact Nat.zero_le _
  | some w =>
    have hinvariant := (reachable_wireKept (session_wire h w hwire)).invariant
    have hheld := hinvariant.processing_le
    have hpermits := hinvariant.permits
    show w.connection.processing ≤ _
    omega

-- ---------------------------------------------------------------------------
-- All sessions
-- ---------------------------------------------------------------------------

/-- The sessions that hold a permit. -/
def liveSessions (s : Slots Session) : Nat := s.taken Session.live

/-- The requests that live sessions are processing. -/
def processed (s : Slots Session) : Nat :=
  held (fun a : Session => if a.live then a.processing else 0) s.members

/-- **The account of the server.** -/
structure ServerAccounted (s : Slots Session) : Prop where
  permits : liveSessions s + s.available = maxWsConnections
  admission : ∀ request ∈ s.requests, request.2 = true ↔ request.1 < maxWsConnections
  sessions : s.members.length = s.requests.countP Prod.snd
  each : ∀ a ∈ s.members, a.processing ≤ maxInflightRequests
  bounded : processed s ≤ maxInflightRequests * liveSessions s
  restored : (∀ a ∈ s.members, a.live = false) → s.available = maxWsConnections
  wires : ∀ a ∈ s.members, ∀ w, a.wire? = some w → w.Accounted
  silent : ∀ w, .ended (some w) ∈ s.members → w.connection.loop = .closed

/-- **The server is accounted for**, in every run: whatever its clients do, and however their
connections end. -/
theorem server_accounted {s : Slots Session}
    (h : (wsServer security parse errorText).Reachable s) : ServerAccounted s := by
  have hbegin : ∀ a, (session security parse errorText).init a → a.live = true := by
    rintro a rfl
    rfl
  have hmember := reachable_member h
  have hpermits := slots_conserved hbegin (fun _ _ _ => session_live) h
  refine ⟨hpermits, slots_admission hbegin (fun _ _ _ => session_live) h, slots_granted h,
    fun a ha => session_processing (hmember a ha), ?_, ?_, ?_, ?_⟩
  · exact held_live_le fun a ha _ => session_processing (hmember a ha)
  · intro hover
    have hnone : s.taken Session.live = 0 :=
      held_eq_zero fun a ha => if_neg (by rw [hover a ha]; simp)
    omega
  · exact fun a ha w hw => (reachable_wireKept (session_wire (hmember a ha) w hw)).accounted
  · exact fun w hw => session_over (hmember _ hw) w rfl

/-! ### Three clients -/

/-- One client goes away, the next one is served and has sent a request, and the third one's
session cannot reach reth. -/
theorem server_accounted_serving :
    ∃ s, (wsServer SecurityConfig.new submitParser fun _ => "").Reachable s ∧
      s.members.map Session.live = [false, true, true] ∧ processed s = 1 ∧
      s.available = 1022 ∧ ServerAccounted s := by
  let M := session SecurityConfig.new submitParser fun _ => ""
  have hinit : M.init .upgrading := rfl
  have habandoned : M.step .upgrading .abandoned (.ended none) := SessionStep.abandoned
  have hupgraded : M.step .upgrading .upgraded .connecting := SessionStep.upgraded
  have hfails : M.step .connecting .connectFails
      (.refusing (backendError "Backend WebSocket connection failed")) := SessionStep.connectFails
  let w : Wire := ⟨⟨.reading, [], maxInflightRequests, Channel.empty, []⟩, .reading, .writing, [],
    [], []⟩
  have hconnected : M.step .connecting .connected (.serving w) := SessionStep.connected w rfl
  have hread : M.step (.serving w) (.wire (.own (.read submitBody true))) _ :=
    .serves w _ _ (.own w (.read submitBody true) _ trivial (.read _ submitBody true rfl))
  rw [readEnvelope_submitBody] at hread
  have h0 : (wsServer SecurityConfig.new submitParser fun _ => "").Reachable
      ⟨[], maxWsConnections, []⟩ := Lts.reachable_init rfl
  have h1 := h0.next (SlotsStep.enter _ _ hinit (by decide))
  have h2 := h1.next (SlotsStep.member _ 0 _ _ _ rfl habandoned)
  have h3 := h2.next (SlotsStep.enter _ _ hinit (by decide))
  have h4 := h3.next (SlotsStep.member _ 1 _ _ _ rfl hupgraded)
  have h5 := h4.next (SlotsStep.member _ 1 _ _ _ rfl hconnected)
  have h6 := h5.next (SlotsStep.member _ 1 _ _ _ rfl hread)
  have h7 := h6.next (SlotsStep.enter _ _ hinit (by decide))
  have h8 := h7.next (SlotsStep.member _ 2 _ _ _ rfl hupgraded)
  have h9 := h8.next (SlotsStep.member _ 2 _ _ _ rfl hfails)
  exact ⟨_, h9, rfl, rfl, rfl, server_accounted h9⟩

end IgraRpc
