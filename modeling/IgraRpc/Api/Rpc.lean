import IgraRpc.Api.Routing
import IgraRpc.Types.Envelope

/-!
# Classifying bodies — `parse_rpc_envelope`

A body is a single request, a batch, another JSON text, or no JSON at all.

* `ClassifiedByShape` — the four classes as documented: by the shape of the JSON value;
* `parseRpcEnvelope_byShape_iff` — **the code follows them except on misread bodies**: an
  array of a request's fields passes for a request, alone or in a batch, and a request
  that repeats a field for none.

The JSON parser is a parameter.
-/

namespace IgraRpc

open Lib

-- ---------------------------------------------------------------------------
-- The code
-- ---------------------------------------------------------------------------

/-- The tree of a body, if it is JSON. -/
abbrev JsonParser := List UInt8 → Option Content

def invalidRequest (id : Value) : Value := jsonRpcError id (-32600) "Invalid Request"

def parseError : Value := jsonRpcError .null (-32700) "Parse error"

/-- `parse_rpc_envelope`. -/
def parseRpcEnvelope (parse : JsonParser) (body : List UInt8) : Except Value RpcEnvelope :=
  match (parse body).bind RpcEnvelope.fromContent with
  | some envelope => .ok envelope
  | none =>
    -- the body is parsed again, as a value, to classify the failure
    match (parse body).map Content.toValue with
    | some value => .error (invalidRequest ((value.get "id").getD .null))
    | none => .error parseError

-- ---------------------------------------------------------------------------
-- The classes
-- ---------------------------------------------------------------------------

/-- The value is an array of these requests, in this order. -/
def BatchOf (v : Value) (requests : List RpcRequest) : Prop :=
  ∃ items, v = .array items ∧
    List.Forall₂ (fun item req => requestOf item = some req) items requests

/-- The answer to a body that is this value, or no JSON, is what its shape asks for. -/
structure ClassifiedByShape (body : Option Value) (answer : Except Value RpcEnvelope) :
    Prop where
  single : ∀ req, answer = .ok (.single req) ↔ ∃ v, body = some v ∧ requestOf v = some req
  batch : ∀ requests, answer = .ok (.batch requests) ↔
    ∃ v, body = some v ∧ BatchOf v requests
  invalid : ∀ id, answer = .error (invalidRequest id) ↔
    ∃ v, body = some v ∧ (v.get "id").getD .null = id ∧ requestOf v = none ∧
      ∀ requests, ¬BatchOf v requests
  unparsed : answer = .error parseError ↔ body = none

/-- Some item is the fields of a request, and all are readable. -/
def MixesPositional (items : List Content) : Prop :=
  (∀ item ∈ items, (IsRequest item ∧ ¬RepeatsField item) ∨ Positional item) ∧
    ∃ item ∈ items, Positional item

/-- All items are requests, and some repeats a field. -/
def MixesRepeats (items : List Content) : Prop :=
  (∀ item ∈ items, IsRequest item) ∧ ∃ item ∈ items, RepeatsField item

/-- The code reads something else than the value says: an array for a request, alone or in
a batch that is otherwise readable, or no request where there is one. -/
def Misread : Content → Prop
  | .array items => Positional (.array items) ∨ MixesPositional items ∨ MixesRepeats items
  | c => IsRequest c ∧ RepeatsField c

-- ---------------------------------------------------------------------------
-- Each class
-- ---------------------------------------------------------------------------

theorem invalidRequest_inj {id id' : Value} (h : invalidRequest id = invalidRequest id') :
    id = id' := by
  simpa [invalidRequest, jsonRpcError] using h

theorem invalidRequest_ne_parseError (id : Value) : invalidRequest id ≠ parseError := by
  simp [invalidRequest, parseError, jsonRpcError, Value.int]

theorem not_batchOf_of_requestOf {v : Value} {req : RpcRequest} (h : requestOf v = some req)
    (requests : List RpcRequest) : ¬BatchOf v requests := by
  rintro ⟨items, rfl, -⟩
  rw [requestOf_of_not_object (by simp)] at h
  exact absurd h (by simp)

theorem BatchOf.unique {v : Value} {requests requests' : List RpcRequest}
    (h : BatchOf v requests) (h' : BatchOf v requests') : requests = requests' := by
  obtain ⟨items, rfl, hitems⟩ := h
  obtain ⟨items', hv, hitems'⟩ := h'
  obtain rfl := Value.array.inj hv
  exact Option.some.inj ((mapM_eq_some.mpr hitems).symm.trans (mapM_eq_some.mpr hitems'))

/-- The body is no JSON. -/
theorem classified_unparsed : ClassifiedByShape none (.error parseError) where
  single := by simp
  batch := by simp
  invalid := by
    intro id
    simpa using (invalidRequest_ne_parseError id).symm
  unparsed := by simp

/-- The body is a request. -/
theorem classified_single {v : Value} {req : RpcRequest} (h : requestOf v = some req) :
    ClassifiedByShape (some v) (.ok (.single req)) where
  single := by simp [h]
  batch := by
    intro requests
    simpa using not_batchOf_of_requestOf h requests
  invalid := by simp [h]
  unparsed := by simp

/-- The body is a batch. -/
theorem classified_batch {v : Value} {requests : List RpcRequest} (h : BatchOf v requests) :
    ClassifiedByShape (some v) (.ok (.batch requests)) where
  single := by
    intro req
    simpa using fun hreq => not_batchOf_of_requestOf hreq requests h
  batch := by
    intro requests'
    simp only [Except.ok.injEq, RpcEnvelope.batch.injEq, Option.some.injEq, exists_eq_left']
    exact ⟨fun heq => heq ▸ h, h.unique⟩
  invalid := by
    intro id
    simpa using fun _ _ => ⟨requests, h⟩
  unparsed := by simp

/-- The body is other JSON. -/
theorem classified_invalid {v : Value} (hsingle : requestOf v = none)
    (hbatch : ∀ requests, ¬BatchOf v requests) :
    ClassifiedByShape (some v) (.error (invalidRequest ((v.get "id").getD .null))) where
  single := by simp [hsingle]
  batch := by simpa using hbatch
  invalid := by
    intro id
    simp only [Except.error.injEq, Option.some.injEq, exists_eq_left', hsingle, true_and]
    exact ⟨fun h => ⟨invalidRequest_inj h, hbatch⟩, fun h => h.1 ▸ rfl⟩
  unparsed := by simpa using invalidRequest_ne_parseError _

-- ---------------------------------------------------------------------------
-- Batches
-- ---------------------------------------------------------------------------

theorem mapM_requestOf {items : List Content} {requests : List RpcRequest} :
    BatchOf (Content.array items).toValue requests ↔
      (items.mapM fun item => requestOf item.toValue) = some requests := by
  rw [mapM_eq_some, Content.toValue_array]
  refine ⟨?_, ?_⟩
  · intro ⟨values, hvalues, hitems⟩
    obtain rfl := Value.array.inj hvalues
    exact List.forall₂_map_left_iff.mp hitems
  · intro h
    exact ⟨_, rfl, List.forall₂_map_left_iff.mpr h⟩

/-- What a batch is read as, when it is not misread: the values it holds. -/
theorem mapM_fromContent_eq {items : List Content} (hpositional : ¬MixesPositional items)
    (hrepeats : ¬MixesRepeats items) :
    items.mapM RpcRequest.fromContent = items.mapM fun item => requestOf item.toValue := by
  by_cases hplain : ∀ item ∈ items, IsRequest item ∧ ¬RepeatsField item
  · refine mapM_congr ?_
    intro item hitem
    obtain ⟨hrequest, honce⟩ := hplain item hitem
    obtain ⟨entries, rfl⟩ := hrequest.object
    exact fromContent_of_object honce
  · -- neither reads: some item is no plain request
    have hcode : items.mapM RpcRequest.fromContent = none := by
      rw [← Option.not_isSome_iff_eq_none, Option.isSome_iff_exists, exists_mapM_eq_some]
      intro hall
      have hreads := fun item hitem => fromContent_isSome.mp (hall item hitem)
      refine hpositional ⟨hreads, ?_⟩
      by_contra hnone
      refine hplain fun item hitem => ?_
      rcases hreads item hitem with hitem' | hitem'
      · exact hitem'
      · exact absurd ⟨item, hitem, hitem'⟩ hnone
    have hvalue : (items.mapM fun item => requestOf item.toValue) = none := by
      rw [← Option.not_isSome_iff_eq_none, Option.isSome_iff_exists, exists_mapM_eq_some]
      intro hall
      refine hrepeats ⟨hall, ?_⟩
      by_contra hnone
      exact hplain fun item hitem => ⟨hall item hitem, fun hrep => hnone ⟨item, hitem, hrep⟩⟩
    rw [hcode, hvalue]

-- ---------------------------------------------------------------------------
-- The answer to JSON
-- ---------------------------------------------------------------------------

/-- What a body that is JSON is answered with. -/
def answerTo (c : Content) : Except Value RpcEnvelope :=
  match RpcEnvelope.fromContent c with
  | some envelope => .ok envelope
  | none => .error (invalidRequest ((c.toValue.get "id").getD .null))

theorem parseRpcEnvelope_of_json {parse : JsonParser} {body : List UInt8} {c : Content}
    (h : parse body = some c) : parseRpcEnvelope parse body = answerTo c := by
  rw [parseRpcEnvelope, h]
  rfl

theorem answerTo_of_request {c : Content} {req : RpcRequest}
    (h : RpcRequest.fromContent c = some req) : answerTo c = .ok (.single req) := by
  rw [answerTo, RpcEnvelope.fromContent, h]

/-- No request: a batch or an error. -/
theorem answerTo_of_no_request {c : Content} (h : RpcRequest.fromContent c = none) :
    answerTo c = match batchFromContent c with
      | some requests => .ok (.batch requests)
      | none => .error (invalidRequest ((c.toValue.get "id").getD .null)) := by
  rw [answerTo, RpcEnvelope.fromContent, h]
  cases batchFromContent c <;> rfl

theorem fromContent_of_no_request {c : Content} (hrequest : ¬IsRequest c)
    (hpositional : ¬Positional c) : RpcRequest.fromContent c = none := by
  rw [← Option.not_isSome_iff_eq_none, Option.isSome_iff_exists, fromContent_isSome]
  rintro (⟨hrequest', -⟩ | hpositional')
  · exact hrequest hrequest'
  · exact hpositional hpositional'

theorem requestOf_of_not_isRequest {c : Content} (h : ¬IsRequest c) :
    requestOf c.toValue = none := by
  cases hreq : requestOf c.toValue with
  | none => rfl
  | some req => exact absurd ⟨req, hreq⟩ h

/-- A body that is no array. -/
theorem answerTo_plain {c : Content} (harray : ∀ items, c ≠ .array items) :
    ClassifiedByShape (some c.toValue) (answerTo c) ↔ ¬(IsRequest c ∧ RepeatsField c) := by
  have hpositional : ¬Positional c := by
    intro hp
    cases c with
    | array items => exact harray items rfl
    | _ => exact hp
  have hbatch : batchFromContent c = none := by
    cases c with
    | array items => exact absurd rfl (harray items)
    | _ => rfl
  have hnobatch : ∀ requests, ¬BatchOf c.toValue requests := by
    rintro requests ⟨values, hvalues, -⟩
    cases c with
    | array items => exact harray items rfl
    | _ => exact absurd hvalues (by simp [Content.toValue])
  by_cases hrequest : IsRequest c
  · obtain ⟨req, hreq⟩ := hrequest
    by_cases hrepeats : RepeatsField c
    · -- a request, but it is answered with an error
      have hanswer := answerTo_of_no_request (fromContent_of_repeats hrepeats)
      rw [hbatch] at hanswer
      refine iff_of_false ?_ (not_not_intro ⟨⟨req, hreq⟩, hrepeats⟩)
      intro h
      rw [hanswer] at h
      exact absurd ((h.single req).mpr ⟨_, rfl, hreq⟩) (by simp)
    · obtain ⟨req', hreq'⟩ := fromContent_isSome.mpr (Or.inl ⟨⟨req, hreq⟩, hrepeats⟩)
      obtain ⟨entries, rfl⟩ := IsRequest.object ⟨req, hreq⟩
      rw [fromContent_of_object hrepeats] at hreq'
      rw [answerTo_of_request ((fromContent_of_object hrepeats).trans hreq')]
      exact iff_of_true (classified_single hreq') fun h => hrepeats h.2
  · rw [answerTo_of_no_request (fromContent_of_no_request hrequest hpositional), hbatch]
    exact iff_of_true (classified_invalid (requestOf_of_not_isRequest hrequest) hnobatch)
      fun h => hrequest h.1

section Arrays

variable {items : List Content}

theorem not_isRequest_array : ¬IsRequest (.array items) := by
  intro h
  obtain ⟨entries, hentries⟩ := h.object
  exact absurd hentries (by simp)

/-- Read as one request, by position. -/
theorem not_classified_positional (h : Positional (.array items)) :
    ¬ClassifiedByShape (some (Content.array items).toValue) (answerTo (.array items)) := by
  obtain ⟨req, hreq⟩ := fromContent_isSome.mpr (Or.inr h)
  intro hclassified
  rw [answerTo_of_request hreq] at hclassified
  obtain ⟨v, hv, hreq'⟩ := (hclassified.single req).mp rfl
  obtain rfl := Option.some.inj hv
  rw [requestOf_of_not_isRequest not_isRequest_array] at hreq'
  exact absurd hreq' (by simp)

/-- Read as a batch, or refused: its items decide. -/
theorem answerTo_items (h : ¬Positional (.array items)) :
    answerTo (.array items) = match items.mapM RpcRequest.fromContent with
      | some requests => .ok (.batch requests)
      | none => .error (invalidRequest (((Content.array items).toValue.get "id").getD .null)) :=
  answerTo_of_no_request (fromContent_of_no_request not_isRequest_array h)

/-- A batch with an item that is no request. -/
theorem not_classified_mixesPositional (hpositional : ¬Positional (.array items))
    (h : MixesPositional items) :
    ¬ClassifiedByShape (some (Content.array items).toValue) (answerTo (.array items)) := by
  obtain ⟨requests, hrequests⟩ := exists_mapM_eq_some.mpr fun item hitem =>
    fromContent_isSome.mpr (h.1 item hitem)
  have hanswer : answerTo (.array items) = .ok (.batch requests) := by
    rw [answerTo_items hpositional, hrequests]
  intro hclassified
  obtain ⟨v, hv, hbatch⟩ := (hclassified.batch requests).mp hanswer
  obtain rfl := Option.some.inj hv
  have hall := exists_mapM_eq_some.mp ⟨requests, mapM_requestOf.mp hbatch⟩
  obtain ⟨item, hitem, hpos⟩ := h.2
  exact not_isRequest_of_positional hpos (hall item hitem)

/-- A batch of requests that is answered with an error. -/
theorem not_classified_mixesRepeats (hpositional : ¬Positional (.array items))
    (h : MixesRepeats items) :
    ¬ClassifiedByShape (some (Content.array items).toValue) (answerTo (.array items)) := by
  obtain ⟨requests, hrequests⟩ := exists_mapM_eq_some.mpr h.1
  intro hclassified
  have hok := (hclassified.batch requests).mpr ⟨_, rfl, mapM_requestOf.mpr hrequests⟩
  rw [answerTo_items hpositional] at hok
  obtain ⟨item, hitem, hrep⟩ := h.2
  cases hcode : items.mapM RpcRequest.fromContent with
  | none =>
    rw [hcode] at hok
    exact absurd hok (by simp)
  | some requests' =>
    obtain ⟨req, hreq⟩ := exists_mapM_eq_some.mp ⟨requests', hcode⟩ item hitem
    rw [fromContent_of_repeats hrep] at hreq
    exact absurd hreq (by simp)

/-- Any other array is read as the value it is. -/
theorem classified_items (hpositional : ¬Positional (.array items))
    (hmixed : ¬MixesPositional items) (hrepeated : ¬MixesRepeats items) :
    ClassifiedByShape (some (Content.array items).toValue) (answerTo (.array items)) := by
  rw [answerTo_items hpositional, mapM_fromContent_eq hmixed hrepeated]
  cases hvalues : items.mapM fun item => requestOf item.toValue with
  | some requests => exact classified_batch (mapM_requestOf.mpr hvalues)
  | none =>
    refine classified_invalid (requestOf_of_not_isRequest not_isRequest_array) ?_
    intro requests hbatch
    rw [mapM_requestOf.mp hbatch] at hvalues
    exact absurd hvalues (by simp)

/-- A body that is an array. -/
theorem answerTo_array (items : List Content) :
    ClassifiedByShape (some (Content.array items).toValue) (answerTo (.array items)) ↔
      ¬Misread (.array items) := by
  by_cases hpositional : Positional (.array items)
  · exact iff_of_false (not_classified_positional hpositional)
      (not_not_intro (Or.inl hpositional))
  by_cases hmixed : MixesPositional items
  · exact iff_of_false (not_classified_mixesPositional hpositional hmixed)
      (not_not_intro (Or.inr (Or.inl hmixed)))
  by_cases hrepeated : MixesRepeats items
  · exact iff_of_false (not_classified_mixesRepeats hpositional hrepeated)
      (not_not_intro (Or.inr (Or.inr hrepeated)))
  refine iff_of_true (classified_items hpositional hmixed hrepeated) ?_
  rintro (hmis | hmis | hmis)
  · exact hpositional hmis
  · exact hmixed hmis
  · exact hrepeated hmis

end Arrays

/-- **Bodies are classified by their shape exactly when they are not misread.** -/
theorem parseRpcEnvelope_byShape_iff (parse : JsonParser) (body : List UInt8) :
    ClassifiedByShape ((parse body).map Content.toValue) (parseRpcEnvelope parse body) ↔
      ∀ c, parse body = some c → ¬Misread c := by
  cases hparse : parse body with
  | none =>
    have hanswer : parseRpcEnvelope parse body = .error parseError := by
      rw [parseRpcEnvelope, hparse]
      rfl
    rw [hanswer]
    exact iff_of_true classified_unparsed (by simp)
  | some c =>
    rw [parseRpcEnvelope_of_json hparse]
    simp only [Option.some.injEq, forall_eq', Option.map_some]
    cases c with
    | array items => exact answerTo_array items
    | _ => exact answerTo_plain (by simp)

/-! ### An array for a request -/

/-- `["2.0", "eth_chainId", [], 1]`. -/
def positionalBody : List UInt8 := strBytes "[\"2.0\", \"eth_chainId\", [], 1]"

/-- A parser that knows that body. -/
def positionalParser : JsonParser := fun body =>
  if body = positionalBody then
    some (.array [.string "2.0", .string "eth_chainId", .array [], .number (.int 1)])
  else none

/-- The array is routed as a request for `eth_chainId`. -/
theorem positionalBody_single :
    parseRpcEnvelope positionalParser positionalBody =
        .ok (.single ⟨"2.0", "eth_chainId", .array [], .int 1⟩) ∧
      ¬ClassifiedByShape ((positionalParser positionalBody).map Content.toValue)
        (parseRpcEnvelope positionalParser positionalBody) := by
  have hparse : positionalParser positionalBody =
      some (.array [.string "2.0", .string "eth_chainId", .array [], .number (.int 1)]) :=
    if_pos rfl
  have hanswer : parseRpcEnvelope positionalParser positionalBody =
      .ok (.single ⟨"2.0", "eth_chainId", .array [], .int 1⟩) := by
    rw [parseRpcEnvelope_of_json hparse]
    exact answerTo_of_request rfl
  refine ⟨hanswer, ?_⟩
  intro h
  rw [hanswer, hparse] at h
  obtain ⟨v, hv, hreq⟩ := (h.single _).mp rfl
  obtain rfl := Option.some.inj hv
  rw [requestOf_of_not_object (by simp)] at hreq
  exact absurd hreq (by simp)

end IgraRpc
