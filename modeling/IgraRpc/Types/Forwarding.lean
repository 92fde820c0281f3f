import IgraRpc.Types.Envelope

/-!
# Requests that are passed on — `types/rpc.rs`, `services/proxy.rs`, `api/ws.rs`

A request that the provider does not answer itself goes to the EL as the value it serializes
to, or over the socket to reth as the text of its fields.

* `Content.ofValue` — a value as a text has it, read back as the same value
  (`toValue_ofValue`) if the keys of its objects ascend, as they do in all that was read
  (`toValue_ordered`);
* `forwarded_sameRequest` — **what is passed on is the request that was read**: with the
  members of the body and no others, and read again it is that request, never a batch.
-/

namespace IgraRpc

open Lib

-- ---------------------------------------------------------------------------
-- The order of keys
-- ---------------------------------------------------------------------------

theorem codePointsLt_irrefl : ∀ a : List Char, codePointsLt a a = false
  | [] => rfl
  | c :: rest => by simp [codePointsLt, codePointsLt_irrefl rest]

theorem codePointsLt_trans : ∀ a b c : List Char, codePointsLt a b = true →
    codePointsLt b c = true → codePointsLt a c = true
  | _, [], _, hab, _ => absurd hab (by simp [codePointsLt])
  | _, _ :: _, [], _, hbc => absurd hbc (by simp [codePointsLt])
  | [], _ :: _, _ :: _, _, _ => rfl
  | x :: xs, y :: ys, z :: zs, hab, hbc => by
    have ih := codePointsLt_trans xs ys zs
    simp only [codePointsLt, Bool.or_eq_true, Bool.and_eq_true, beq_iff_eq,
      decide_eq_true_eq] at hab hbc ⊢
    rcases hab with hab | ⟨hxy, hab⟩
    · rcases hbc with hbc | ⟨hyz, -⟩
      · exact Or.inl (by omega)
      · exact Or.inl (by omega)
    · rcases hbc with hbc | ⟨hyz, hbc⟩
      · exact Or.inl (by omega)
      · exact Or.inr ⟨by omega, ih hab hbc⟩

theorem codePointsLt_total : ∀ a b : List Char, a ≠ b → codePointsLt a b = false →
    codePointsLt b a = true
  | [], [], hne, _ => absurd rfl hne
  | [], _ :: _, _, hlt => absurd hlt (by simp [codePointsLt])
  | _ :: _, [], _, _ => rfl
  | x :: xs, y :: ys, hne, hlt => by
    have ih := codePointsLt_total xs ys
    simp only [codePointsLt, Bool.or_eq_false_iff, Bool.and_eq_false_iff, beq_eq_false_iff_ne,
      decide_eq_false_iff_not, Bool.or_eq_true, Bool.and_eq_true, beq_iff_eq,
      decide_eq_true_eq] at hlt ⊢
    obtain ⟨hless, hrest⟩ := hlt
    by_cases heq : x.toNat = y.toNat
    · have hrest := hrest.resolve_left fun h => h heq
      have hxy : x = y := Char.toNat_inj.mp heq
      have hxs : xs ≠ ys := fun h => hne (by rw [hxy, h])
      exact Or.inr ⟨heq.symm, ih hxs hrest⟩
    · exact Or.inl (by omega)

theorem keyLt_strictOrder : StrictOrder keyLt where
  irrefl a := codePointsLt_irrefl a.toList
  trans a b c := codePointsLt_trans a.toList b.toList c.toList
  total a b hne := codePointsLt_total a.toList b.toList fun h => hne (String.toList_inj.mp h)

-- ---------------------------------------------------------------------------
-- Values as texts
-- ---------------------------------------------------------------------------

namespace Content

mutual

/-- A value as its text is read. -/
def ofValue : Value → Content
  | .null => null
  | .bool b => bool b
  | .number n => number n
  | .string s => string s
  | .array items => array (ofItems items)
  | .object entries => object (ofEntriesOf entries)

def ofItems : List Value → List Content
  | [] => []
  | item :: rest => ofValue item :: ofItems rest

def ofEntriesOf : List (String × Value) → List (String × Content)
  | [] => []
  | (key, value) :: rest => (key, ofValue value) :: ofEntriesOf rest

end

end Content

mutual

/-- The keys of every object ascend. -/
def Value.Ordered : Value → Prop
  | .array items => itemsOrdered items
  | .object entries => Ascending keyLt entries ∧ entriesOrdered entries
  | _ => True

def itemsOrdered : List Value → Prop
  | [] => True
  | item :: rest => item.Ordered ∧ itemsOrdered rest

def entriesOrdered : List (String × Value) → Prop
  | [] => True
  | (_, value) :: rest => value.Ordered ∧ entriesOrdered rest

end

theorem entriesOrdered_iff {entries : List (String × Value)} :
    entriesOrdered entries ↔ ∀ entry ∈ entries, entry.2.Ordered := by
  induction entries with
  | nil => exact iff_of_true trivial fun _ h => absurd h List.not_mem_nil
  | cons entry rest ih =>
    obtain ⟨key, value⟩ := entry
    rw [entriesOrdered, ih, List.forall_mem_cons]

mutual

/-- What is read is ordered. -/
theorem toValue_ordered : ∀ c : Content, c.toValue.Ordered
  | .null | .bool _ | .number _ | .string _ => by simp [Content.toValue, Value.Ordered]
  | .array items => by
    rw [Content.toValue, Value.Ordered]
    exact itemsToValue_ordered items
  | .object entries => by
    rw [Content.toValue, Value.Ordered, entriesOrdered_iff]
    exact ⟨ascending_ofEntries keyLt_strictOrder _, fun entry hentry =>
      entriesOrdered_iff.mp (entriesToValue_ordered entries) entry (mem_ofEntries hentry)⟩

theorem itemsToValue_ordered : ∀ items : List Content, itemsOrdered (Content.itemsToValue items)
  | [] => trivial
  | item :: rest => ⟨toValue_ordered item, itemsToValue_ordered rest⟩

theorem entriesToValue_ordered : ∀ entries : List (String × Content),
    entriesOrdered (Content.entriesToValue entries)
  | [] => trivial
  | (_, value) :: rest => ⟨toValue_ordered value, entriesToValue_ordered rest⟩

end

mutual

/-- **An ordered value is read back.** -/
theorem toValue_ofValue : ∀ v : Value, v.Ordered → (Content.ofValue v).toValue = v
  | .null, _ | .bool _, _ | .number _, _ | .string _, _ => by
    simp [Content.ofValue, Content.toValue]
  | .array items, h => by
    rw [Content.ofValue, Content.toValue, itemsToValue_ofItems items h]
  | .object entries, h => by
    rw [Content.ofValue, Content.toValue, entriesToValue_ofEntriesOf entries h.2,
      ofEntries_of_ascending keyLt_strictOrder h.1]

theorem itemsToValue_ofItems : ∀ items : List Value, itemsOrdered items →
    Content.itemsToValue (Content.ofItems items) = items
  | [], _ => rfl
  | item :: rest, h => by
    rw [Content.ofItems, Content.itemsToValue, toValue_ofValue item h.1,
      itemsToValue_ofItems rest h.2]

theorem entriesToValue_ofEntriesOf : ∀ entries : List (String × Value),
    entriesOrdered entries → Content.entriesToValue (Content.ofEntriesOf entries) = entries
  | [], _ => rfl
  | (key, value) :: rest, h => by
    rw [Content.ofEntriesOf, Content.entriesToValue, toValue_ofValue value h.1,
      entriesToValue_ofEntriesOf rest h.2]

end

-- ---------------------------------------------------------------------------
-- What is passed on
-- ---------------------------------------------------------------------------

/-- The text of `serde_json::to_string(&req)`: the fields in their order. -/
def RpcRequest.toContent (req : RpcRequest) : Content :=
  .object [("jsonrpc", .string req.jsonrpc), ("method", .string req.method),
    ("params", .ofValue req.params), ("id", .ofValue req.id)]

/-- The request that is passed on. It says what the body said, and nothing else, and the EL
and reth read it as the same request. -/
structure SameRequest (c : Content) (req : RpcRequest) : Prop where
  members : ∀ entries, c = .object entries → ∀ key ∈ requestFields, req.toValue.get key =
    (c.toValue.get key).or (if key = "params" then some defaultEmptyParams else none)
  others : ∀ key, key ∉ requestFields → req.toValue.get key = none
  el : RpcEnvelope.fromContent (.ofValue req.toValue) = some (.single req)
  reth : RpcEnvelope.fromContent req.toContent = some (.single req)

/-- A request says what its value says. -/
theorem requestOf_eq_some {v : Value} {req : RpcRequest} (h : requestOf v = some req) :
    v.get "jsonrpc" = some (.string req.jsonrpc) ∧ v.get "method" = some (.string req.method) ∧
      v.get "id" = some req.id ∧ req.params = (v.get "params").getD defaultEmptyParams := by
  have hstring : ∀ {found : Option Value} {s : String},
      (∃ w, found = some w ∧ w.asStr = some s) → found = some (.string s) := by
    rintro found s ⟨w, rfl, hw⟩
    cases w with
    | string t => rw [Option.some.inj hw]
    | _ => exact absurd hw (by simp [Value.asStr])
  simp only [requestOf, Option.bind_eq_bind, Option.bind_eq_some_iff] at h
  obtain ⟨jsonrpc, hjsonrpc, method, hmethod, id, hid, h⟩ := h
  obtain rfl := Option.some.inj h
  exact ⟨hstring hjsonrpc, hstring hmethod, hid, rfl⟩

theorem get_ordered {v w : Value} {key : String} (hv : v.Ordered) (h : v.get key = some w) :
    w.Ordered := by
  cases v with
  | object entries =>
    obtain ⟨before, after, rfl, -⟩ := List.lookup_eq_some_iff.mp h
    exact entriesOrdered_iff.mp hv.2 (key, w) (by simp)
  | _ => exact absurd h (by simp [Value.get])

/-- What a reader made of an object is what its value says. -/
theorem requestOf_of_fromContent {entries : List (String × Content)} {req : RpcRequest}
    (h : RpcRequest.fromContent (.object entries) = some req) :
    requestOf (Content.object entries).toValue = some req := by
  have honce : ¬RepeatsField (.object entries) := by
    intro hrepeats
    rw [fromContent_of_repeats hrepeats] at h
    exact absurd h (by simp)
  exact (fromContent_of_object honce).symm.trans h

/-- The values of a request that was read are ordered. -/
theorem request_ordered {c : Content} {req : RpcRequest}
    (h : RpcRequest.fromContent c = some req) : req.params.Ordered ∧ req.id.Ordered := by
  cases c with
  | object entries =>
    obtain ⟨-, -, hid, hparams⟩ := requestOf_eq_some (requestOf_of_fromContent h)
    have hbody := toValue_ordered (.object entries)
    refine ⟨?_, get_ordered hbody hid⟩
    rw [hparams]
    cases hfound : (Content.object entries).toValue.get "params" with
    | none => exact trivial
    | some params => exact get_ordered hbody hfound
  | array items =>
    have hseq : RpcRequest.fromSeq items = some req := h
    unfold RpcRequest.fromSeq at hseq
    split at hseq
    · obtain rfl := Option.some.inj hseq
      exact ⟨toValue_ordered _, toValue_ordered _⟩
    · exact absurd hseq (by simp)
  | null | bool | number | string => exact absurd h (by simp [RpcRequest.fromContent])

theorem toValue_requestOrdered {req : RpcRequest} (hparams : req.params.Ordered)
    (hid : req.id.Ordered) : req.toValue.Ordered := by
  have hascending : (["id", "jsonrpc", "method", "params"] : List String).Pairwise
      fun a b => keyLt a b = true := by decide
  have hkeys : ["id", "jsonrpc", "method", "params"] = [("id", req.id),
      ("jsonrpc", .string req.jsonrpc), ("method", .string req.method),
      ("params", req.params)].map Prod.fst := rfl
  rw [hkeys, List.pairwise_map] at hascending
  exact ⟨hascending, hid, trivial, trivial, hparams, trivial⟩

/-- A request that is passed on repeats no field. -/
theorem not_repeatsField_toValue (req : RpcRequest) :
    ¬RepeatsField (.ofValue req.toValue) := by
  intro ⟨name, hname, hrepeats⟩
  simp only [requestFields, List.mem_cons, List.not_mem_nil, or_false] at hname
  rcases hname with rfl | rfl | rfl | rfl <;>
    simp [Repeats, entriesUnder, Content.ofEntriesOf] at hrepeats

/-- **What is passed on is the request that was read.** -/
theorem forwarded_sameRequest {c : Content} {req : RpcRequest}
    (h : RpcRequest.fromContent c = some req) : SameRequest c req := by
  obtain ⟨hparamsOrdered, hidOrdered⟩ := request_ordered h
  refine ⟨?_, ?_, ?_, ?_⟩
  · rintro entries rfl key hkey
    obtain ⟨hjsonrpc, hmethod, hid, hparams⟩ := requestOf_eq_some (requestOf_of_fromContent h)
    simp only [requestFields, List.mem_cons, List.not_mem_nil, or_false] at hkey
    rcases hkey with rfl | rfl | rfl | rfl
    · rw [hjsonrpc]
      rfl
    · rw [hmethod]
      rfl
    · show some req.params = _
      rw [hparams]
      cases (Content.object entries).toValue.get "params" <;> rfl
    · rw [hid]
      rfl
  · intro key hkey
    simp only [requestFields, List.mem_cons, List.not_mem_nil, or_false, not_or] at hkey
    obtain ⟨hjsonrpc, hmethod, hparams, hid⟩ := hkey
    simp [RpcRequest.toValue, Value.get, List.lookup_cons, beq_eq_false_iff_ne.mpr hjsonrpc,
      beq_eq_false_iff_ne.mpr hmethod, beq_eq_false_iff_ne.mpr hparams,
      beq_eq_false_iff_ne.mpr hid]
  · have hread : RpcRequest.fromContent (.ofValue req.toValue) = some req :=
      calc RpcRequest.fromContent (.ofValue req.toValue)
          = requestOf (Content.ofValue req.toValue).toValue :=
            fromContent_of_object (not_repeatsField_toValue req)
        _ = requestOf req.toValue := by
            rw [toValue_ofValue req.toValue (toValue_requestOrdered hparamsOrdered hidOrdered)]
        _ = some req := rfl
    rw [RpcEnvelope.fromContent, hread]
  · have hread : RpcRequest.fromContent req.toContent =
        some ⟨req.jsonrpc, req.method, (Content.ofValue req.params).toValue,
          (Content.ofValue req.id).toValue⟩ := rfl
    rw [toValue_ofValue _ hparamsOrdered, toValue_ofValue _ hidOrdered] at hread
    rw [RpcEnvelope.fromContent, hread]

/-- A body with a repeated nested key, a member of its own and no parameters. -/
theorem forwarded_sameRequest_extra :
    SameRequest
      (.object [("method", .string "eth_chainId"), ("jsonrpc", .string "2.0"),
        ("id", .object [("b", .null), ("a", .null), ("b", .bool true)]), ("extra", .null)])
      ⟨"2.0", "eth_chainId", .array [], .object [("a", .null), ("b", .bool true)]⟩ :=
  forwarded_sameRequest rfl

end IgraRpc
