import IgraRpc.Types.Json

/-!
# JSON-RPC requests and the L1 payload — `types/rpc.rs`

* `RpcRequest` — one JSON-RPC request, and the value it serializes to;
* `TxTypeId`, `IgraPayload` — the payload an L2 message travels in on L1.

The deserialization of requests and of blocks is not here: requests arrive
already parsed, and a block's base fee is a parameter of the fee service.
-/

namespace IgraRpc

/-- A JSON-RPC request. -/
structure RpcRequest where
  jsonrpc : String
  method : String
  params : Value
  id : Value

/-- `serde_json::to_value(&req)`. -/
def RpcRequest.toValue (req : RpcRequest) : Value :=
  .object [("id", req.id), ("jsonrpc", .string req.jsonrpc), ("method", .string req.method),
    ("params", req.params)]

/-- A serialized request carries the request's id. -/
@[simp] theorem RpcRequest.toValue_id (req : RpcRequest) :
    req.toValue.get "id" = some req.id := rfl

-- ---------------------------------------------------------------------------
-- The L1 payload
-- ---------------------------------------------------------------------------

def nonceSize : Nat := 4

/-- The type of an IGRA L2 transaction. -/
inductive TxTypeId where
  | l2Start
  | entry
  | unzippedPayload
  | zippedPayload
  deriving DecidableEq, Repr

/-- The `repr(u8)` value. -/
def TxTypeId.toUInt8 : TxTypeId → UInt8
  | .l2Start => 0x00
  | .entry => 0x02
  | .unzippedPayload => 0x04
  | .zippedPayload => 0x05

/-- The L1 transaction payload before serialization. -/
structure IgraPayload where
  version : UInt8
  txTypeId : TxTypeId
  l2Data : List UInt8
  nonce : Lib.FixedBytes nonceSize
  deriving DecidableEq

end IgraRpc
