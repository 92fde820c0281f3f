import IgraRpc.Lib.Assoc
import IgraRpc.Types.Rpc

/-!
# Reading requests — `types/rpc.rs`

What `serde` makes of a body: a tree in which the entries of an object are those of the
text, repeated or not, and from it either a `serde_json::Value` or a request envelope.

* `RpcRequest.fromContent` — the derived reader: an object by field names, and also an
  array by field positions;
* `RpcEnvelope.fromContent` — the untagged envelope: a single request if the body reads
  as one, else a batch;
* `fromContent_of_object` — an object that repeats no field is read as the value it is;
* `fromContent_isSome` — all that reads as a request: such objects, and arrays of the four
  fields.
-/

namespace IgraRpc

open Lib

-- ---------------------------------------------------------------------------
-- Content
-- ---------------------------------------------------------------------------

/-- A parsed JSON text. -/
inductive Content where
  | null
  | bool (b : Bool)
  | number (n : Number)
  | string (s : String)
  | array (items : List Content)
  | object (entries : List (String × Content))

/-- The order of code points, which is that of UTF-8 bytes. -/
def codePointsLt : List Char → List Char → Bool
  | _, [] => false
  | [], _ :: _ => true
  | a :: as, b :: bs => a.toNat < b.toNat || (a.toNat == b.toNat && codePointsLt as bs)

/-- `a < b` of two keys. -/
def keyLt (a b : String) : Bool := codePointsLt a.toList b.toList

namespace Content

def asStr : Content → Option String
  | string s => some s
  | _ => none

mutual

/-- The value of a text: in an object the last entry under a key is kept. -/
def toValue : Content → Value
  | null => .null
  | bool b => .bool b
  | number n => .number n
  | string s => .string s
  | array items => .array (itemsToValue items)
  | object entries => .object (ofEntries keyLt (entriesToValue entries))

def itemsToValue : List Content → List Value
  | [] => []
  | item :: rest => item.toValue :: itemsToValue rest

def entriesToValue : List (String × Content) → List (String × Value)
  | [] => []
  | (key, value) :: rest => (key, value.toValue) :: entriesToValue rest

end

theorem itemsToValue_eq (items : List Content) : itemsToValue items = items.map toValue := by
  induction items with
  | nil => rfl
  | cons item rest ih => rw [itemsToValue, ih, List.map_cons]

theorem entriesToValue_eq (entries : List (String × Content)) :
    entriesToValue entries = entries.map fun entry => (entry.1, entry.2.toValue) := by
  induction entries with
  | nil => rfl
  | cons entry rest ih =>
    obtain ⟨key, value⟩ := entry
    rw [entriesToValue, ih, List.map_cons]

@[simp] theorem toValue_array (items : List Content) :
    (array items).toValue = .array (items.map toValue) := by
  rw [toValue, itemsToValue_eq]

theorem asStr_toValue (c : Content) : c.toValue.asStr = c.asStr := by
  cases c <;> simp [toValue, Value.asStr, asStr]

/-- What the value of an object holds under a key: the value of what the entries say. -/
theorem get_toValue_object (entries : List (String × Content)) (key : String) :
    (object entries).toValue.get key =
      ((ofEntries keyLt entries).lookup key).map toValue := by
  have hunder : entriesUnder key (entries.map fun entry => (entry.1, entry.2.toValue)) =
      (entriesUnder key entries).map fun entry => (entry.1, entry.2.toValue) := by
    rw [entriesUnder, List.filter_map]
    rfl
  rw [toValue, entriesToValue_eq]
  show (ofEntries keyLt _).lookup key = _
  rw [lookup_ofEntries, lookup_ofEntries, hunder, List.getLast?_map]
  cases (entriesUnder key entries).getLast? <;> rfl

end Content

-- ---------------------------------------------------------------------------
-- Requests
-- ---------------------------------------------------------------------------

/-- `default_empty_params`. -/
def defaultEmptyParams : Value := .array []

/-- The fields of a request. -/
def requestFields : List String := ["jsonrpc", "method", "params", "id"]

namespace RpcRequest

/-- The derived reader on an object. Entries under other keys are skipped. -/
def fromMap (entries : List (String × Content)) : Option RpcRequest := do
  let jsonrpc ← field "jsonrpc" Content.asStr entries
  let method ← field "method" Content.asStr entries
  let params ← field "params" (fun c => some c.toValue) entries
  let id ← field "id" (fun c => some c.toValue) entries
  return ⟨← jsonrpc, ← method, params.getD defaultEmptyParams, ← id⟩

/-- The derived reader on an array: the fields by position. A shorter array has no id,
and a longer one is refused. -/
def fromSeq : List Content → Option RpcRequest
  | [.string jsonrpc, .string method, params, id] =>
    some ⟨jsonrpc, method, params.toValue, id.toValue⟩
  | _ => none

/-- `RpcRequest::deserialize`. -/
def fromContent : Content → Option RpcRequest
  | .object entries => fromMap entries
  | .array items => fromSeq items
  | _ => none

end RpcRequest

/-- `RpcEnvelope`. -/
inductive RpcEnvelope where
  | single (req : RpcRequest)
  | batch (requests : List RpcRequest)

/-- `Vec::<RpcRequest>::deserialize`. -/
def batchFromContent : Content → Option (List RpcRequest)
  | .array items => items.mapM RpcRequest.fromContent
  | _ => none

/-- `RpcEnvelope::deserialize`: the first variant that reads. -/
def RpcEnvelope.fromContent (c : Content) : Option RpcEnvelope :=
  match RpcRequest.fromContent c with
  | some req => some (.single req)
  | none => (batchFromContent c).map .batch

-- ---------------------------------------------------------------------------
-- Requests as values
-- ---------------------------------------------------------------------------

/-- The request that a JSON object is, if it has a string `jsonrpc`, a string `method` and
an `id`. -/
def requestOf (v : Value) : Option RpcRequest := do
  let jsonrpc ← (v.get "jsonrpc").bind Value.asStr
  let method ← (v.get "method").bind Value.asStr
  let id ← v.get "id"
  return ⟨jsonrpc, method, (v.get "params").getD defaultEmptyParams, id⟩

/-- The object repeats a field of a request. -/
def RepeatsField : Content → Prop
  | .object entries => ∃ name ∈ requestFields, Repeats name entries
  | _ => False

/-- An array of the fields of a request, in their order. -/
def Positional : Content → Prop
  | .array items => ∃ jsonrpc method params id,
    items = [.string jsonrpc, .string method, params, id]
  | _ => False

theorem get_of_not_object {v : Value} (h : ∀ entries, v ≠ .object entries) (key : String) :
    v.get key = none := by
  cases v with
  | object entries => exact absurd rfl (h entries)
  | _ => rfl

/-- Only an object is a request. -/
theorem requestOf_of_not_object {v : Value} (h : ∀ entries, v ≠ .object entries) :
    requestOf v = none := by
  rw [requestOf, get_of_not_object h "jsonrpc"]
  rfl

/-- A request with a repeated field is refused. -/
theorem fromContent_of_repeats {c : Content} (h : RepeatsField c) :
    RpcRequest.fromContent c = none := by
  cases c with
  | object entries =>
    obtain ⟨name, hname, hrepeats⟩ := h
    show RpcRequest.fromMap entries = none
    rw [RpcRequest.fromMap]
    simp only [requestFields, List.mem_cons, List.not_mem_nil, or_false] at hname
    rcases hname with rfl | rfl | rfl | rfl <;> simp [field_of_repeats hrepeats]
  | _ => exact absurd h (by simp [RepeatsField])

/-- The item is a request as a value. -/
def IsRequest (c : Content) : Prop := ∃ req, requestOf c.toValue = some req

theorem IsRequest.object {c : Content} (h : IsRequest c) : ∃ entries, c = .object entries := by
  obtain ⟨req, hreq⟩ := h
  cases c with
  | object entries => exact ⟨entries, rfl⟩
  | _ =>
    rw [requestOf_of_not_object (by simp [Content.toValue])] at hreq
    exact absurd hreq (by simp)

theorem not_isRequest_of_positional {c : Content} (h : Positional c) : ¬IsRequest c := by
  intro hrequest
  obtain ⟨entries, rfl⟩ := hrequest.object
  exact h

/-- Reading a string that may be absent, and then asking for it. -/
theorem string_cases (found : Option Content) :
    (∃ s, found.mapM Content.asStr = some (some s) ∧
      (found.map Content.toValue).bind Value.asStr = some s) ∨
    ((found.mapM Content.asStr = some none ∨ found.mapM Content.asStr = none) ∧
      (found.map Content.toValue).bind Value.asStr = none) := by
  cases found with
  | none => exact Or.inr ⟨Or.inl rfl, rfl⟩
  | some c =>
    have hvalue : ((some c).map Content.toValue).bind Value.asStr = c.asStr := c.asStr_toValue
    rw [hvalue]
    cases hstr : c.asStr with
    | none => exact Or.inr ⟨Or.inr (by simp [Option.mapM_some, hstr]), rfl⟩
    | some s => exact Or.inl ⟨s, by simp [Option.mapM_some, hstr], rfl⟩

/-- **An object that repeats no field is read as the value it is.** -/
theorem fromContent_of_object {entries : List (String × Content)}
    (h : ¬RepeatsField (.object entries)) :
    RpcRequest.fromContent (.object entries) = requestOf (Content.object entries).toValue := by
  have honce : ∀ name ∈ requestFields, ¬Repeats name entries :=
    fun name hname hrepeats => h ⟨name, hname, hrepeats⟩
  have hstring := fun name hname =>
    field_of_not_repeats (honce name hname) keyLt Content.asStr
  have hvalue : ∀ name ∈ requestFields, field name (fun c => some c.toValue) entries =
      some (((ofEntries keyLt entries).lookup name).map Content.toValue) := by
    intro name hname
    rw [field_of_not_repeats (honce name hname) keyLt]
    cases (ofEntries keyLt entries).lookup name <;> rfl
  show RpcRequest.fromMap entries = _
  rw [RpcRequest.fromMap, requestOf, hstring "jsonrpc" (by simp [requestFields]),
    hstring "method" (by simp [requestFields]), hvalue "params" (by simp [requestFields]),
    hvalue "id" (by simp [requestFields])]
  simp only [Content.get_toValue_object]
  rcases string_cases ((ofEntries keyLt entries).lookup "jsonrpc") with
    ⟨jsonrpc, hread, hfound⟩ | ⟨hread | hread, hfound⟩
  · rcases string_cases ((ofEntries keyLt entries).lookup "method") with
      ⟨method, hread', hfound'⟩ | ⟨hread' | hread', hfound'⟩ <;>
      simp [hread, hfound, hread', hfound']
  · cases (((ofEntries keyLt entries).lookup "method").mapM Content.asStr) <;>
      simp [hread, hfound]
  · simp [hread, hfound]

/-- What the derived reader accepts: requests that repeat no field, and arrays of their
fields. -/
theorem fromContent_isSome {c : Content} :
    (∃ req, RpcRequest.fromContent c = some req) ↔
      (IsRequest c ∧ ¬RepeatsField c) ∨ Positional c := by
  refine ⟨?_, ?_⟩
  · intro ⟨req, hreq⟩
    have honce : ¬RepeatsField c := by
      intro hrepeats
      rw [fromContent_of_repeats hrepeats] at hreq
      exact absurd hreq (by simp)
    cases c with
    | object entries => exact Or.inl ⟨⟨req, (fromContent_of_object honce).symm.trans hreq⟩, honce⟩
    | array items =>
      have hseq : RpcRequest.fromSeq items = some req := hreq
      unfold RpcRequest.fromSeq at hseq
      split at hseq
      · exact Or.inr ⟨_, _, _, _, rfl⟩
      · exact absurd hseq (by simp)
    | _ => exact absurd hreq (by simp [RpcRequest.fromContent])
  · rintro (⟨hrequest, honce⟩ | hpositional)
    · obtain ⟨entries, rfl⟩ := hrequest.object
      obtain ⟨req, hreq⟩ := hrequest
      exact ⟨req, (fromContent_of_object honce).trans hreq⟩
    · cases c with
      | array items =>
        obtain ⟨jsonrpc, method, params, id, rfl⟩ := hpositional
        exact ⟨_, rfl⟩
      | _ => exact absurd hpositional (by simp [Positional])

end IgraRpc
