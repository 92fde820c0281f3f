import IgraRpc.Api.Routing
import IgraRpc.Api.WsBatch

/-!
# The ids of responses, alone and in batches — `api/rpc.rs`, `api/ws.rs`

An HTTP batch routes its items one after another; a WebSocket batch runs them
through `processWsBatch`, with subscriptions refused on the spot. What an item
meets of the services and the queue is its own: between two items other clients
and the worker go on.

* `responses_answer_ids` — the id that each response carries: the request's own,
  except that a well-formed submission without an id is given one;
* `nullId_answered_with_uuid` — a submission whose response does not carry its id.
-/

namespace IgraRpc

open Lib

-- ---------------------------------------------------------------------------
-- HTTP
-- ---------------------------------------------------------------------------

/-- `handle_rpc` on a batch, each item with what it meets. -/
def handleBatch (security : SecurityConfig) (alloy : Alloy)
    (requests : List (RpcRequest × Surroundings)) : Value :=
  if requests.isEmpty then jsonRpcError .null (-32600) "Invalid Request: empty batch"
  else
    .array (requests.map fun (req, around) =>
      (routeAndProcess security alloy around req).response)

-- ---------------------------------------------------------------------------
-- WebSocket
-- ---------------------------------------------------------------------------

/-- `is_subscription_method`. -/
def isSubscriptionMethod (method : String) : Bool :=
  method == "eth_subscribe" || method == "eth_unsubscribe"

/-- `process_ws_request_value`. -/
def processWsRequestValue (security : SecurityConfig) (alloy : Alloy) (around : Surroundings)
    (req : RpcRequest) : Submission :=
  if isSubscriptionMethod req.method then
    { response := jsonRpcError req.id (-32600)
        "Subscription requests in batch are not supported; send eth_subscribe as a single request"
      queue := around.queue
      events := [] }
  else routeAndProcess security alloy around req

/-- `value` is what request `index` of a batch can be answered with. -/
def ItemResponse (security : SecurityConfig) (alloy : Alloy) (requests : List RpcRequest)
    (index : Nat) (value : Value) : Prop :=
  ∃ req around, requests[index]? = some req ∧ EchoesId around.view.el ∧
    value = (processWsRequestValue security alloy around req).response

/-- The batch task of a connection on `requests`, with `permits` permits: each request
returns its response. -/
def wsBatch (security : SecurityConfig) (alloy : Alloy) (requests : List RpcRequest)
    (permits : Nat) : Lts WsBatch BatchLabel :=
  (processWsBatch requests.length permits).restrict fun _ l =>
    l.Returns ∧ ∀ index value, l = .complete index value →
      ItemResponse security alloy requests index value

-- ---------------------------------------------------------------------------
-- Ids
-- ---------------------------------------------------------------------------

variable {security : SecurityConfig} {alloy : Alloy}

/-- A subscription is no submission. -/
theorem not_submitted_of_subscription {req : RpcRequest}
    (h : isSubscriptionMethod req.method = true) : ¬Submitted security req := by
  intro ⟨_, hmethod⟩
  rw [hmethod] at h
  exact absurd h (by decide)

theorem processWsRequestValue_answersId {around : Surroundings}
    (hecho : EchoesId around.view.el) (req : RpcRequest) :
    AnswersId security alloy req around.uuid
      (processWsRequestValue security alloy around req).response := by
  unfold processWsRequestValue
  split
  case isTrue hsubscription =>
    exact answersId_of_own (not_submitted_of_subscription hsubscription) rfl
  case isFalse => exact routeAndProcess_answersId hecho

/-- A nonempty HTTP batch is answered item by item. -/
theorem handleBatch_answersId {requests : List (RpcRequest × Surroundings)}
    (hne : requests ≠ []) (hecho : ∀ item ∈ requests, EchoesId item.2.view.el) :
    ∃ responses, handleBatch security alloy requests = .array responses ∧
      List.Forall₂ (fun item response =>
        AnswersId security alloy item.1 item.2.uuid response) requests responses := by
  refine ⟨_, if_neg (by simpa using hne), ?_⟩
  rw [List.forall₂_map_right_iff, List.forall₂_same]
  intro item hitem
  exact routeAndProcess_answersId (hecho item hitem)

/-- The message of a WebSocket batch answers it item by item. -/
theorem wsBatch_answersId {requests : List RpcRequest} {permits : Nat} (hpermits : 0 < permits)
    {s : WsBatch} (h : (wsBatch security alloy requests permits).Reachable s)
    (hphase : s.phase ≠ .collecting) :
    ∃ responses, s.messages = [.array responses] ∧
      List.Forall₂ (fun req response => ∃ uuid, AnswersId security alloy req uuid response)
        requests responses := by
  have hinv : s.Invariant requests.length permits := ws_batch_invariant h.of_restrict
  have halive : s.phase ≠ .unwound :=
    returning_alive hpermits (h.restrict_mono fun _ _ hl => hl.1)
  obtain ⟨responses, hmessage, hlength, hplaces⟩ :=
    batchResponse_answers hpermits hinv halive hphase
  have hitems : ∀ index value, (index, value) ∈ s.window.finished →
      ItemResponse security alloy requests index value :=
    finished_of_completions (fun _ _ _ hl => hl.2 _ _ rfl) h
  refine ⟨responses, hmessage, List.forall₂_iff_get.mpr ⟨hlength.symm, ?_⟩⟩
  intro i hreq hresponse
  obtain ⟨req, around, hget, hecho, hvalue⟩ :=
    hitems i _ (hplaces i _ (List.getElem?_eq_getElem hresponse))
  rw [List.getElem?_eq_getElem hreq] at hget
  obtain rfl := Option.some.inj hget
  refine ⟨around.uuid, ?_⟩
  show AnswersId security alloy requests[i] around.uuid responses[i]
  rw [hvalue]
  exact processWsRequestValue_answersId hecho _

/-- **Responses carry ids.** Alone, in an HTTP batch and in a WebSocket batch, whatever the
configuration, the services and the order of completion: with an EL that echoes ids, each
response answers for its request by the request's id, or by the one given to it. -/
theorem responses_answer_ids (security : SecurityConfig) (alloy : Alloy) :
    (∀ around req, EchoesId around.view.el →
      AnswersId security alloy req around.uuid
        (routeAndProcess security alloy around req).response) ∧
    (∀ requests : List (RpcRequest × Surroundings), requests ≠ [] →
      (∀ item ∈ requests, EchoesId item.2.view.el) →
      ∃ responses, handleBatch security alloy requests = .array responses ∧
        List.Forall₂ (fun item response =>
          AnswersId security alloy item.1 item.2.uuid response) requests responses) ∧
    (∀ requests permits s, 0 < permits → (wsBatch security alloy requests permits).Reachable s →
      s.phase ≠ .collecting →
      ∃ responses, s.messages = [.array responses] ∧
        List.Forall₂ (fun req response => ∃ uuid, AnswersId security alloy req uuid response)
          requests responses) := by
  refine ⟨?_, ?_, ?_⟩
  · intro around req hecho
    exact routeAndProcess_answersId hecho
  · intro requests hne hecho
    exact handleBatch_answersId hne hecho
  · intro requests permits s hpermits hreach hphase
    exact wsBatch_answersId hpermits hreach hphase

/-! ### A submission without an id -/

/-- An EL whose latest block has a base fee of 7 wei, answering with the id it is sent. -/
def echoEl : El := fun req =>
  (req.get "id").map fun id =>
    .object [("jsonrpc", .string "2.0"), ("id", id),
      ("result", .object [("baseFeePerGas", .string "0x7")])]

theorem echoEl_echoes : EchoesId echoEl := by
  intro req response h
  obtain ⟨id, hid, rfl⟩ := Option.map_eq_some_iff.mp h
  rw [hid]
  rfl

/-- A fresh fee cache before that EL, an empty queue and a generated id. -/
def echoSurroundings : Surroundings where
  view := { cheapView with el := echoEl }
  uuid := "5c9a1f7e-8d3b-4e02-9a6f-2b7c4d1e0f35"
  queue := Channel.empty

/-- `legacyTx`, submitted without an id. -/
def nullIdTx : RpcRequest := { sendRawTransaction legacyTx with id := .null }

theorem nullIdTx_givenId : GivenId SecurityConfig.new legacyAlloy nullIdTx := by
  have hformat : formatCheck nullIdTx = .ok legacyTx := formatCheck_hex rfl
  have hparse : parseRlpTransaction legacyAlloy legacyTx =
      .ok (.legacy 1000000000 legacyTx, TxTypes.LEGACY) :=
    parseRlpTransaction_eq_ok.mpr ⟨by decide, rfl, by decide, [], legacyAlloy_decode []⟩
  exact ⟨⟨by decide +kernel, rfl⟩, rfl, _, formatChecks_eq_ok.mpr ⟨hformat, hparse⟩⟩

/-- It is answered, but not for its own id. -/
theorem nullId_answered_with_uuid :
    EchoesId echoSurroundings.view.el ∧ nullIdTx.id = .null ∧
      (routeAndProcess SecurityConfig.new legacyAlloy echoSurroundings nullIdTx).response.get "id"
        = some (.string "5c9a1f7e-8d3b-4e02-9a6f-2b7c4d1e0f35") ∧
      (routeAndProcess SecurityConfig.new legacyAlloy echoSurroundings nullIdTx).response.get "id"
        ≠ some nullIdTx.id := by
  have hanswers : AnswersId SecurityConfig.new legacyAlloy nullIdTx echoSurroundings.uuid
      (routeAndProcess SecurityConfig.new legacyAlloy echoSurroundings nullIdTx).response :=
    routeAndProcess_answersId echoEl_echoes
  have hid := hanswers.1 nullIdTx_givenId
  refine ⟨echoEl_echoes, rfl, hid, ?_⟩
  rw [hid]
  exact fun h => absurd (Option.some.inj h) (by simp [nullIdTx, echoSurroundings])

/-- A request that is forwarded. -/
def blockNumberRequest : RpcRequest := ⟨"2.0", "eth_blockNumber", .array [], .int 7⟩

/-- Beside it a request that the EL answers, alone, in a batch, and before it in a WebSocket
batch. -/
theorem responses_answer_ids_twoItems :
    let items := [(nullIdTx, echoSurroundings), (blockNumberRequest, echoSurroundings)]
    AnswersId SecurityConfig.new legacyAlloy blockNumberRequest echoSurroundings.uuid
      (routeAndProcess SecurityConfig.new legacyAlloy echoSurroundings
        blockNumberRequest).response ∧
    (∃ responses, handleBatch SecurityConfig.new legacyAlloy items = .array responses ∧
      List.Forall₂ (fun item response =>
        AnswersId SecurityConfig.new legacyAlloy item.1 item.2.uuid response) items responses) ∧
    ∃ s, (wsBatch SecurityConfig.new legacyAlloy (items.map Prod.fst) 2).Reachable s ∧
      s.window.finished.map Prod.fst = [1, 0] ∧
      ∃ responses, s.messages = [.array responses] ∧
        List.Forall₂ (fun req response =>
          ∃ uuid, AnswersId SecurityConfig.new legacyAlloy req uuid response)
          (items.map Prod.fst) responses := by
  intro items
  have h := responses_answer_ids SecurityConfig.new legacyAlloy
  refine ⟨h.1 echoSurroundings blockNumberRequest echoEl_echoes, h.2.1 items (by simp [items]) ?_,
    ?_⟩
  · intro item hitem
    simp only [items, List.mem_cons, List.not_mem_nil, or_false] at hitem
    rcases hitem with rfl | rfl <;> exact echoEl_echoes
  · have h0 : (wsBatch SecurityConfig.new legacyAlloy (items.map Prod.fst) 2).Reachable
        (WsBatch.start 2 2) := Lts.reachable_init rfl
    have h1 := h0.next_restrict (.complete _ 1 (processWsRequestValue SecurityConfig.new
      legacyAlloy echoSurroundings blockNumberRequest).response rfl (by decide)) ⟨trivial, by
        rintro index value ⟨rfl, rfl⟩
        exact ⟨blockNumberRequest, echoSurroundings, rfl, echoEl_echoes, rfl⟩⟩
    have h2 := h1.next_restrict (.complete _ 0 (processWsRequestValue SecurityConfig.new
      legacyAlloy echoSurroundings nullIdTx).response rfl (by decide)) ⟨trivial, by
        rintro index value ⟨rfl, rfl⟩
        exact ⟨nullIdTx, echoSurroundings, rfl, echoEl_echoes, rfl⟩⟩
    have h3 := h2.next_restrict (.send _ rfl (by decide)) ⟨trivial, by simp⟩
    exact ⟨_, h3, rfl, h.2.2 (items.map Prod.fst) 2 _ (by decide) h3 (by simp)⟩

end IgraRpc
