import IgraRpc.Api.Batches
import IgraRpc.Api.Rpc
import IgraRpc.Services.Worker
import IgraRpc.Startup

/-!
# The gate — every way in, and the provider as a whole

A request arrives alone or in a batch, over HTTP or over a WebSocket; three handlers
take it from there: `route_and_process`, `process_ws_request_value` and
`process_subscription_request`.

* `handle_of_refused` — **behind the gate nothing is reached**: a method that the
  whitelist or read-only mode refuses touches neither queue, EL nor reth, and its reply is
  an error made of the configuration, the method and the id alone;
* `provider_processor` — with all its ways in, the provider runs the worker's system;
* `provider_readOnly` — started read-only, it stays as it started: no wallet, and nothing
  in the queue.
-/

namespace IgraRpc

open Lib

-- ---------------------------------------------------------------------------
-- Ways in
-- ---------------------------------------------------------------------------

/-- How a request arrives. Over a WebSocket, whether the permits it needs are free. -/
inductive Arrival where
  | httpSingle
  | httpBatchItem
  | wsSingle (admitted : Bool)
  | wsBatchItem (admitted : Bool)

/-- What is done about a request: the provider's own reply, the queue after it, the calls
it makes and the messages to reth. -/
structure Handled where
  reply : Option Value
  queue : TransactionQueue
  events : List FeeEvent
  forwarded : List Value

def Submission.handled (r : Submission) : Handled := ⟨some r.response, r.queue, r.events, []⟩

/-- The answer when no permits are free. -/
def serverBusy (id : Value) : Value :=
  jsonRpcError id (-32005) "Server busy, too many in-flight requests"

/-- `validate_request`. -/
def validateRequest (security : SecurityConfig) (req : RpcRequest) : Option Value :=
  validateRequestAuthorization security req

/-- `process_subscription_request`. The reply to a forwarded request comes from reth. -/
def processSubscriptionRequest (security : SecurityConfig) (queue : TransactionQueue)
    (req : RpcRequest) : Handled :=
  match validateRequest security req with
  | some errorResponse => ⟨some errorResponse, queue, [], []⟩
  | none => ⟨none, queue, [], [req.toValue]⟩

/-- A single request over a WebSocket. Subscriptions need no permit. -/
def handleWsSingle (security : SecurityConfig) (alloy : Alloy) (admitted : Bool)
    (around : Surroundings) (req : RpcRequest) : Handled :=
  if isSubscriptionMethod req.method then processSubscriptionRequest security around.queue req
  else if admitted then (routeAndProcess security alloy around req).handled
  else ⟨some (serverBusy req.id), around.queue, [], []⟩

/-- An item of a batch over a WebSocket. A batch that finds no permits is answered once. -/
def handleWsItem (security : SecurityConfig) (alloy : Alloy) (admitted : Bool)
    (around : Surroundings) (req : RpcRequest) : Handled :=
  if admitted then (processWsRequestValue security alloy around req).handled
  else ⟨some (serverBusy .null), around.queue, [], []⟩

def handle (security : SecurityConfig) (alloy : Alloy) (arrival : Arrival)
    (around : Surroundings) (req : RpcRequest) : Handled :=
  match arrival with
  | .httpSingle | .httpBatchItem => (routeAndProcess security alloy around req).handled
  | .wsSingle admitted => handleWsSingle security alloy admitted around req
  | .wsBatchItem admitted => handleWsItem security alloy admitted around req

-- ---------------------------------------------------------------------------
-- HTTP bodies
-- ---------------------------------------------------------------------------

/-- `handle_rpc`: what is done about each request of the body, in turn, and the response.
Each request meets its own surroundings. -/
def handleRpc (security : SecurityConfig) (alloy : Alloy) (parse : JsonParser)
    (body : List UInt8) (around : Nat → Surroundings) : List Submission × Value :=
  match parseRpcEnvelope parse body with
  | .error errorResponse => ([], errorResponse)
  | .ok (.single req) =>
    let result := routeAndProcess security alloy (around 0) req
    ([result], result.response)
  | .ok (.batch requests) =>
    if requests.isEmpty then ([], jsonRpcError .null (-32600) "Invalid Request: empty batch")
    else
      let results := requests.mapIdx fun i req => routeAndProcess security alloy (around i) req
      (results, .array (results.map Submission.response))

/-- The requests of a body. -/
def requestsOf (parse : JsonParser) (body : List UInt8) : List RpcRequest :=
  match parseRpcEnvelope parse body with
  | .error _ => []
  | .ok (.single req) => [req]
  | .ok (.batch requests) => requests

/-- Each request of a body is routed, and nothing else. -/
theorem handleRpc_getElem? (security : SecurityConfig) (alloy : Alloy) (parse : JsonParser)
    (body : List UInt8) (around : Nat → Surroundings) (i : Nat) :
    (handleRpc security alloy parse body around).1[i]? =
      (requestsOf parse body)[i]?.map (routeAndProcess security alloy (around i)) := by
  unfold handleRpc requestsOf
  cases parseRpcEnvelope parse body with
  | error errorResponse => rfl
  | ok envelope =>
    cases envelope with
    | single req => cases i <;> rfl
    | batch requests =>
      show (if requests.isEmpty then _ else _ : List Submission × Value).1[i]? = _
      cases hempty : requests.isEmpty with
      | true =>
        rw [List.isEmpty_iff.mp hempty]
        rfl
      | false => exact List.getElem?_mapIdx ..

-- ---------------------------------------------------------------------------
-- Refusals
-- ---------------------------------------------------------------------------

/-- The configuration refuses the method. -/
def Refused (security : SecurityConfig) (method : String) : Prop :=
  (security.enableWhitelist = true ∧ isMethodAllowed method = false) ∨
    (security.isReadOnly = true ∧ isWriteMethod method = true)

/-- The error it is refused with. The whitelist is asked first. -/
def refusal (security : SecurityConfig) (method : String) : AppError :=
  if security.enableWhitelist = true ∧ isMethodAllowed method = false then
    .methodNotAllowed method
  else .readOnlyMode

/-- The answer to a subscription in a batch. -/
def subscriptionInBatch (id : Value) : Value :=
  jsonRpcError id (-32600)
    "Subscription requests in batch are not supported; send eth_subscribe as a single request"

/-- What a refused request is answered with. -/
def refusedReply (security : SecurityConfig) (arrival : Arrival) (method : String)
    (id : Value) : Value :=
  match arrival with
  | .httpSingle | .httpBatchItem => (refusal security method).toJsonRpcError id
  | .wsSingle admitted =>
    if isSubscriptionMethod method ∨ admitted then (refusal security method).toJsonRpcError id
    else serverBusy id
  | .wsBatchItem admitted =>
    if ¬admitted then serverBusy .null
    else if isSubscriptionMethod method then subscriptionInBatch id
    else (refusal security method).toJsonRpcError id

/-- An error response: no result. -/
def IsErrorResponse (response : Value) : Prop :=
  response.get "error" ≠ none ∧ response.get "result" = none

theorem jsonRpcError_isErrorResponse (id : Value) (code : Int) (message : String) :
    IsErrorResponse (jsonRpcError id code message) :=
  ⟨by simp [jsonRpcError, Value.get, List.lookup_cons], rfl⟩

theorem toJsonRpcError_isErrorResponse (e : AppError) (id : Value) :
    IsErrorResponse (e.toJsonRpcError id) :=
  ⟨by simp [AppError.toJsonRpcError, Value.get, List.lookup_cons], rfl⟩

theorem refusedReply_isErrorResponse (security : SecurityConfig) (arrival : Arrival)
    (method : String) (id : Value) :
    IsErrorResponse (refusedReply security arrival method id) := by
  cases arrival with
  | httpSingle | httpBatchItem => exact toJsonRpcError_isErrorResponse _ _
  | wsSingle admitted =>
    rw [refusedReply]
    split
    · exact toJsonRpcError_isErrorResponse _ _
    · exact jsonRpcError_isErrorResponse _ _ _
  | wsBatchItem admitted =>
    rw [refusedReply]
    split
    · exact jsonRpcError_isErrorResponse _ _ _
    · split
      · exact jsonRpcError_isErrorResponse _ _ _
      · exact toJsonRpcError_isErrorResponse _ _

variable {security : SecurityConfig} {req : RpcRequest}

/-- The gate closes for the refused methods and no others. -/
theorem validateRequestAuthorization_of_refused (h : Refused security req.method) :
    validateRequestAuthorization security req =
      some ((refusal security req.method).toJsonRpcError req.id) := by
  unfold validateRequestAuthorization refusal
  by_cases hlisted : security.enableWhitelist = true ∧ isMethodAllowed req.method = false
  · rw [if_pos hlisted, if_pos hlisted]
  · rcases h with h | h
    · exact absurd h hlisted
    · rw [if_neg hlisted, if_neg hlisted, if_pos h]

theorem validateRequestAuthorization_of_not_refused (h : ¬Refused security req.method) :
    validateRequestAuthorization security req = none := by
  unfold validateRequestAuthorization
  rw [if_neg fun hlisted => h (Or.inl hlisted), if_neg fun hwrite => h (Or.inr hwrite)]

/-- **Behind the gate nothing is reached**, whichever way the request came. -/
theorem handle_of_refused (h : Refused security req.method) (alloy : Alloy)
    (arrival : Arrival) (around : Surroundings) :
    handle security alloy arrival around req =
      ⟨some (refusedReply security arrival req.method req.id), around.queue, [], []⟩ := by
  have hgate := validateRequestAuthorization_of_refused h
  have hroute := routeAndProcess_of_refused hgate alloy around
  cases arrival with
  | httpSingle | httpBatchItem =>
    rw [handle, hroute]
    rfl
  | wsSingle admitted =>
    rw [handle, handleWsSingle, processSubscriptionRequest, validateRequest, hgate, hroute,
      refusedReply]
    by_cases hsubscription : isSubscriptionMethod req.method = true
    · rw [if_pos hsubscription, if_pos (Or.inl hsubscription)]
    · cases admitted <;> simp [hsubscription, Submission.handled]
  | wsBatchItem admitted =>
    rw [handle, handleWsItem, processWsRequestValue, hroute, refusedReply]
    cases admitted with
    | false => rfl
    | true => cases isSubscriptionMethod req.method <;> rfl

-- ---------------------------------------------------------------------------
-- The queue
-- ---------------------------------------------------------------------------

/-- A submission adds at most one transaction. -/
theorem processTransaction_queue (alloy : Alloy) (view : FeeView) (uuid : String)
    (req : RpcRequest) (queue : TransactionQueue) :
    (processTransaction alloy view uuid req queue).queue = queue ∨
      ∃ item, (processTransaction alloy view uuid req queue).queue.items =
        queue.items ++ [item] := by
  cases hchecks : acceptChecks alloy view req (queueCheck queue) with
  | error fault => exact Or.inl (processTransaction_of_error hchecks uuid).2.2
  | ok txBytes => exact Or.inr ⟨_, (processTransaction_of_ok hchecks uuid).2.1⟩

/-- The queue after a request: as it was, or what an `eth_sendRawTransaction` past the gate
makes of it. -/
def QueueAfter (security : SecurityConfig) (alloy : Alloy) (around : Surroundings)
    (req : RpcRequest) (queue : TransactionQueue) : Prop :=
  queue = around.queue ∨
    ¬Refused security req.method ∧ req.method = "eth_sendRawTransaction" ∧
      queue = (processTransaction alloy around.view around.uuid req around.queue).queue

theorem routeAndProcess_queue (alloy : Alloy) (around : Surroundings) :
    QueueAfter security alloy around req (routeAndProcess security alloy around req).queue := by
  by_cases hrefused : Refused security req.method
  · rw [routeAndProcess_of_refused (validateRequestAuthorization_of_refused hrefused)]
    exact Or.inl rfl
  · rw [routeAndProcess_of_allowed (validateRequestAuthorization_of_not_refused hrefused),
      routeRequestToService]
    by_cases hmethod : req.method = "eth_sendRawTransaction"
    · rw [if_pos hmethod]
      exact Or.inr ⟨hrefused, hmethod, rfl⟩
    · rw [if_neg hmethod]
      exact Or.inl rfl

/-- A subscription leaves the queue alone. -/
theorem processSubscriptionRequest_queue (queue : TransactionQueue) :
    (processSubscriptionRequest security queue req).queue = queue := by
  rw [processSubscriptionRequest]
  cases validateRequest security req <;> rfl

theorem handleWsSingle_queue (alloy : Alloy) (admitted : Bool) (around : Surroundings) :
    QueueAfter security alloy around req
      (handleWsSingle security alloy admitted around req).queue := by
  unfold handleWsSingle
  split
  · exact Or.inl (processSubscriptionRequest_queue around.queue)
  · split
    · exact routeAndProcess_queue alloy around
    · exact Or.inl rfl

theorem handleWsItem_queue (alloy : Alloy) (admitted : Bool) (around : Surroundings) :
    QueueAfter security alloy around req
      (handleWsItem security alloy admitted around req).queue := by
  unfold handleWsItem processWsRequestValue
  split
  · split
    · exact Or.inl rfl
    · exact routeAndProcess_queue alloy around
  · exact Or.inl rfl

/-- Whichever way a request comes in. -/
theorem handle_queue (security : SecurityConfig) (alloy : Alloy) (arrival : Arrival)
    (around : Surroundings) (req : RpcRequest) :
    QueueAfter security alloy around req
      (handle security alloy arrival around req).queue := by
  cases arrival with
  | httpSingle | httpBatchItem => exact routeAndProcess_queue alloy around
  | wsSingle admitted => exact handleWsSingle_queue alloy admitted around
  | wsBatchItem admitted => exact handleWsItem_queue alloy admitted around

/-- A read-only provider never changes the queue. -/
theorem handle_queue_of_readOnly (h : security.isReadOnly = true) (alloy : Alloy)
    (arrival : Arrival) (around : Surroundings) :
    (handle security alloy arrival around req).queue = around.queue := by
  rcases handle_queue security alloy arrival around req with hsame | ⟨hallowed, hmethod, -⟩
  · exact hsame
  · refine absurd (Or.inr ⟨h, ?_⟩) hallowed
    rw [hmethod]
    decide

-- ---------------------------------------------------------------------------
-- The provider
-- ---------------------------------------------------------------------------

/-- What startup leaves behind, and what changes. -/
structure Provider where
  walletCaller : Option WalletCaller
  processor : Processor

/-- `start_transaction_processor`: an idle worker, before anything arrives. -/
def Processor.start : Processor := ⟨Channel.empty, .idle, 0, 0, [], [], []⟩

/-- A handler is done: what it added to the queue was accepted. -/
def Processor.receive (s : Processor) (queue : TransactionQueue) : Processor :=
  { s with
    queue := queue
    accepted := s.accepted ++ queue.items.drop s.queue.items.length }

/-- A label of the worker. -/
def ProcessorLabel.OfWorker : ProcessorLabel → Prop
  | .submit .. => False
  | _ => True

inductive ProviderLabel where
  | request (arrival : Arrival) (view : FeeView) (uuid : String) (req : RpcRequest)
  | worker (l : ProcessorLabel)

variable (K : Consensus) (alloy : Alloy) (zlib : Zlib) (subnets : Subnets)
  (daemon : WalletDaemon) (config : Config.AppConfig)

inductive ProviderStep : Provider → ProviderLabel → Provider → Prop where
  | request (s : Provider) (arrival : Arrival) (view : FeeView) (uuid : String)
      (req : RpcRequest) :
      ProviderStep s (.request arrival view uuid req)
        { s with
          processor := s.processor.receive
            (handle config.security alloy arrival ⟨view, uuid, s.processor.queue⟩ req).queue }
  | worker (s : Provider) (l : ProcessorLabel) (p : Processor) (hworker : l.OfWorker)
      (h : ProcessorStep K alloy zlib ⟨config.worker, s.walletCaller⟩ s.processor l p) :
      ProviderStep s (.worker l) { s with processor := p }

/-- The provider, once it has started. -/
def provider : Lts Provider ProviderLabel where
  init s := (startWallet subnets daemon config).outcome = .ok s.walletCaller ∧
    s.processor = Processor.start
  step := ProviderStep K alloy zlib config

variable {K alloy zlib subnets daemon config}

theorem Processor.receive_same (s : Processor) : s.receive s.queue = s := by
  rw [Processor.receive, List.drop_length, List.append_nil]

/-- A request is a submission to the worker's system, or nothing to it. -/
theorem request_processor {appState : AppState} (security : SecurityConfig) (s : Processor)
    (arrival : Arrival) (view : FeeView) (uuid : String) (req : RpcRequest) :
    s.receive (handle security alloy arrival ⟨view, uuid, s.queue⟩ req).queue = s ∨
      ProcessorStep K alloy zlib appState s (.submit view uuid req)
        (s.receive (handle security alloy arrival ⟨view, uuid, s.queue⟩ req).queue) := by
  rcases handle_queue security alloy arrival ⟨view, uuid, s.queue⟩ req with
    hsame | ⟨-, -, hsubmit⟩
  · rw [hsame]
    exact Or.inl s.receive_same
  · rw [hsubmit]
    rcases processTransaction_queue alloy view uuid req s.queue with hsame | ⟨item, hitems⟩
    · rw [hsame]
      exact Or.inl s.receive_same
    · have haccepted : s.receive (processTransaction alloy view uuid req s.queue).queue =
          { s with
            queue := (processTransaction alloy view uuid req s.queue).queue
            accepted := s.accepted ++ [item] } := by
        rw [Processor.receive, hitems, List.drop_left]
      rw [haccepted]
      exact Or.inr (.accept s view uuid req item hitems)

/-- **The provider runs the worker's system**, with the wallet it started with. -/
theorem provider_processor {s : Provider}
    (h : (provider K alloy zlib subnets daemon config).Reachable s) :
    (startWallet subnets daemon config).outcome = .ok s.walletCaller ∧
      (processor K alloy zlib ⟨config.worker, s.walletCaller⟩).Reachable s.processor := by
  refine Lts.invariant (P := fun s => (startWallet subnets daemon config).outcome =
    .ok s.walletCaller ∧
      (processor K alloy zlib ⟨config.worker, s.walletCaller⟩).Reachable s.processor) ?_ ?_ s h
  · intro s ⟨hwallet, hstart⟩
    exact ⟨hwallet, Lts.reachable_init hstart⟩
  · intro s l t _ ⟨hwallet, hreach⟩ hstep
    cases hstep with
    | request arrival view uuid req =>
      have hrequest : s.processor.receive (handle config.security alloy arrival
            ⟨view, uuid, s.processor.queue⟩ req).queue = s.processor ∨
          ProcessorStep K alloy zlib ⟨config.worker, s.walletCaller⟩ s.processor
            (.submit view uuid req) (s.processor.receive (handle config.security alloy arrival
              ⟨view, uuid, s.processor.queue⟩ req).queue) :=
        request_processor config.security s.processor arrival view uuid req
      refine ⟨hwallet, ?_⟩
      rcases hrequest with hsame | hsubmit
      · show (processor K alloy zlib ⟨config.worker, s.walletCaller⟩).Reachable
          (s.processor.receive _)
        rw [hsame]
        exact hreach
      · exact hreach.next hsubmit
    | worker l p hworker hp => exact ⟨hwallet, hreach.next hp⟩

/-- **Started read-only, the provider stays as it started.** -/
theorem provider_readOnly (hmode : config.security.isReadOnly = true) {s : Provider}
    (h : (provider K alloy zlib subnets daemon config).Reachable s) :
    s = ⟨none, Processor.start⟩ := by
  refine Lts.invariant (P := fun s => s = ⟨none, Processor.start⟩) ?_ ?_ s h
  · intro ⟨walletCaller, p⟩ ⟨hwallet, hstart⟩
    rw [startWallet_readOnly hmode] at hwallet
    obtain rfl : none = walletCaller := Outcome.ok.inj hwallet
    obtain rfl : p = Processor.start := hstart
    rfl
  · rintro s l t _ rfl hstep
    cases hstep with
    | request arrival view uuid req =>
      rw [handle_queue_of_readOnly hmode]
      show Provider.mk none (Processor.start.receive Processor.start.queue) = _
      rw [Processor.receive_same]
    | worker l p hworker hp =>
      cases hp with
      | accept | refuse => exact absurd hworker (by simp [ProcessorLabel.OfWorker])
      | take item queue hidle hrecv =>
        exact absurd hrecv (by simp [Processor.start, Channel.recv, Channel.empty])
      | finish uuid env item hbusy => exact absurd hbusy (by simp [Processor.start])

/-- **The gate holds**: alone, in a batch and for a whole HTTP body, a refused request
reaches nothing and its reply is an error made of the configuration, its method and its id;
and in a run started read-only the queue stays empty and there is no wallet. -/
theorem gate_holds :
    (∀ (security : SecurityConfig) (arrival : Arrival) (method : String) (id : Value),
      Refused security method →
      ∃ reply, IsErrorResponse reply ∧
        ∀ (alloy : Alloy) (around : Surroundings) (jsonrpc : String) (params : Value),
          handle security alloy arrival around ⟨jsonrpc, method, params, id⟩ =
            ⟨some reply, around.queue, [], []⟩) ∧
    (∀ (security : SecurityConfig) (alloy : Alloy) (parse : JsonParser) (body : List UInt8)
        (around : Nat → Surroundings) (i : Nat) (req : RpcRequest),
      (requestsOf parse body)[i]? = some req → Refused security req.method →
      (handleRpc security alloy parse body around).1[i]? =
        some ⟨(refusal security req.method).toJsonRpcError req.id, (around i).queue, []⟩) ∧
    (∀ (K : Consensus) (alloy : Alloy) (zlib : Zlib) (subnets : Subnets)
        (daemon : WalletDaemon) (config : Config.AppConfig) (s : Provider),
      config.security.isReadOnly = true →
      (provider K alloy zlib subnets daemon config).Reachable s →
      s.processor.queue.items = [] ∧ s.walletCaller = none) := by
  refine ⟨?_, ?_, ?_⟩
  · intro security arrival method id hrefused
    refine ⟨_, refusedReply_isErrorResponse security arrival method id, ?_⟩
    intro alloy around jsonrpc params
    have hreq : Refused security (RpcRequest.mk jsonrpc method params id).method := hrefused
    exact handle_of_refused hreq alloy arrival around
  · intro security alloy parse body around i req hreq hrefused
    rw [handleRpc_getElem?, hreq, Option.map_some,
      routeAndProcess_of_refused (validateRequestAuthorization_of_refused hrefused)]
  · intro K alloy zlib subnets daemon config s hmode hreach
    rw [provider_readOnly hmode hreach]
    exact ⟨rfl, rfl⟩

/-! ### A read-only mirror -/

/-- A deployment that only answers reads. -/
def mirrorDeployment : Config.AppConfig := { laneDeployment with security := ⟨true, true⟩ }

theorem mirror_refuses : Refused mirrorDeployment.security "eth_sendRawTransaction" :=
  Or.inr (by decide)

/-- `{"jsonrpc": "2.0", "method": "eth_sendRawTransaction", "id": 1}`. -/
def submitBody : List UInt8 :=
  strBytes "\x7b\"jsonrpc\": \"2.0\", \"method\": \"eth_sendRawTransaction\", \"id\": 1\x7d"

/-- A parser that knows that body. -/
def submitParser : JsonParser := fun body =>
  if body = submitBody then
    some (.object [("jsonrpc", .string "2.0"), ("method", .string "eth_sendRawTransaction"),
      ("id", .number (.int 1))])
  else none

theorem requestsOf_submitBody : requestsOf submitParser submitBody =
    [⟨"2.0", "eth_sendRawTransaction", defaultEmptyParams, .int 1⟩] := by
  have hparse : submitParser submitBody = some (.object [("jsonrpc", .string "2.0"),
      ("method", .string "eth_sendRawTransaction"), ("id", .number (.int 1))]) := if_pos rfl
  rw [requestsOf, parseRpcEnvelope_of_json hparse, answerTo_of_request rfl]
  rfl

/-- The mirror is sent a transaction in three ways, and stays as it was. -/
theorem gate_holds_mirror :
    (∃ reply, IsErrorResponse reply ∧
      handle mirrorDeployment.security legacyAlloy (.wsBatchItem true) echoSurroundings
        (sendRawTransaction legacyTx) = ⟨some reply, echoSurroundings.queue, [], []⟩) ∧
    (handleRpc mirrorDeployment.security legacyAlloy submitParser submitBody
        fun _ => echoSurroundings).1[0]? =
      some ⟨(refusal mirrorDeployment.security "eth_sendRawTransaction").toJsonRpcError
        (.int 1), echoSurroundings.queue, []⟩ ∧
    ∃ s t, (provider toccataConsensus legacyAlloy sampleZlib kaspaSubnets reachedDaemon
        mirrorDeployment).step s (.request (.wsSingle true) cheapView ""
          (sendRawTransaction legacyTx)) t ∧
      t.processor.queue.items = [] ∧ t.walletCaller = none := by
  have h := gate_holds
  refine ⟨?_, ?_, ?_⟩
  · obtain ⟨reply, herror, hreply⟩ := h.1 mirrorDeployment.security (.wsBatchItem true)
      "eth_sendRawTransaction" (.int 1) mirror_refuses
    exact ⟨reply, herror, hreply legacyAlloy echoSurroundings _ _⟩
  · exact h.2.1 mirrorDeployment.security legacyAlloy submitParser submitBody
      (fun _ => echoSurroundings) 0 _ (by rw [requestsOf_submitBody]; rfl) mirror_refuses
  · have hinit : (provider toccataConsensus legacyAlloy sampleZlib kaspaSubnets reachedDaemon
        mirrorDeployment).Reachable ⟨none, Processor.start⟩ := Lts.reachable_init ⟨rfl, rfl⟩
    have hstep : ∃ t, (provider toccataConsensus legacyAlloy sampleZlib kaspaSubnets
        reachedDaemon mirrorDeployment).step ⟨none, Processor.start⟩ (.request (.wsSingle true)
          cheapView "" (sendRawTransaction legacyTx)) t := ⟨_, .request ..⟩
    obtain ⟨t, hstep⟩ := hstep
    exact ⟨_, t, hstep, h.2.2 _ _ _ _ _ mirrorDeployment _ rfl (hinit.next hstep)⟩

end IgraRpc
