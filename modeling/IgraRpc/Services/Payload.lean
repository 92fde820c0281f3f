import IgraRpc.Services.Mining
import IgraRpc.Types.Rpc

/-!
# L1 payloads — `serialize_payload`, `compress_zlib`, `L2Data`

How an L2 message becomes the payload of an L1 transaction.

* `serializePayload` — one header byte, the L2 data, four nonce bytes;
* `rawPayload` / `entryPayload` — the payload of a raw transaction (compressed when
  that saves space) and of an entry request;
* `decodeMessage` — the reading of a payload that the encoding intends. The
  repository has no decoder: this one is the specification;
* `decodeMessage_writeTail` — **a payload determines its message**, whatever nonce
  is written over its last four bytes.
-/

namespace IgraRpc

open Lib

-- ---------------------------------------------------------------------------
-- The code
-- ---------------------------------------------------------------------------

/-- The version of the payload format. -/
def VERSION : UInt8 := 0x9

/-- `serialize_payload`. -/
def serializePayload (payload : IgraPayload) : Except AppError (List UInt8) :=
  if payload.l2Data.isEmpty then
    .error (.serializationError "l2_data cannot be empty")
  else if payload.version > 0x0F then
    .error (.serializationError
      s!"Version must be a 4-bit value, but got {hexLiteral payload.version.toNat}")
  else
    let versionAndTypeId := (payload.version <<< 4) ||| payload.txTypeId.toUInt8
    .ok ([versionAndTypeId] ++ payload.l2Data ++ payload.nonce.bytes)

/-- The compressor behind `compress_zlib`, and the decompressor of its format. -/
structure Zlib where
  compress : List UInt8 → Except String (List UInt8)
  decompress : List UInt8 → Option (List UInt8)

/-- Decompression inverts compression. -/
def Zlib.Inverts (zlib : Zlib) : Prop :=
  ∀ data compressed, zlib.compress data = .ok compressed →
    zlib.decompress compressed = some data

/-- Compress only if that saves space. -/
def chooseL2Data (zlib : Zlib) (txBytes : List UInt8) : List UInt8 × TxTypeId :=
  match zlib.compress txBytes with
  | .ok compressed =>
    if compressed.length < txBytes.length then (compressed, .zippedPayload)
    else (txBytes, .unzippedPayload)
  | .error _ => (txBytes, .unzippedPayload)

/-- The payload `process_wallet_call` builds for a raw transaction. -/
def rawPayload (zlib : Zlib) (txBytes : List UInt8) : IgraPayload where
  version := VERSION
  txTypeId := (chooseL2Data zlib txBytes).2
  l2Data := (chooseL2Data zlib txBytes).1
  nonce := ⟨[0, 0, 0, 1], rfl⟩

def l2DataSize : Nat := 28
def ethereumAddressSize : Nat := 20

/-- `L2Data`: an address and a little-endian amount. -/
structure L2Data where
  data : FixedBytes l2DataSize
  deriving DecidableEq

/-- `L2Data::new`. -/
def L2Data.new (ethereumAddress : FixedBytes ethereumAddressSize) (amountSompi : UInt64) :
    L2Data where
  data := ⟨ethereumAddress.bytes ++ leBytes 8 amountSompi.toNat, by
    rw [List.length_append, ethereumAddress.size, leBytes_length]
    rfl⟩

/-- `L2Data::ethereum_address`. -/
def L2Data.ethereumAddress (l2Data : L2Data) : FixedBytes ethereumAddressSize :=
  ⟨l2Data.data.bytes.take ethereumAddressSize, by
    rw [List.length_take, l2Data.data.size]
    rfl⟩

/-- `L2Data::amount_sompi`. -/
def L2Data.amountSompi (l2Data : L2Data) : UInt64 :=
  UInt64.ofNat (ofLeBytes (l2Data.data.bytes.drop ethereumAddressSize))

/-- `EntryTransactionService::create_payload`. -/
def entryPayload (l2Data : L2Data) : IgraPayload where
  version := VERSION
  txTypeId := .entry
  l2Data := l2Data.data.bytes
  nonce := ⟨[0, 0, 0, 0], rfl⟩

-- ---------------------------------------------------------------------------
-- Messages and their reading
-- ---------------------------------------------------------------------------

/-- An L2 message the provider submits. -/
inductive Message where
  | raw (txBytes : List UInt8)
  | entry (l2Address : FixedBytes ethereumAddressSize) (amountSompi : UInt64)
  deriving DecidableEq

/-- The payload built for a message. -/
def Message.payload (zlib : Zlib) : Message → IgraPayload
  | .raw txBytes => rawPayload zlib txBytes
  | .entry l2Address amountSompi => entryPayload (L2Data.new l2Address amountSompi)

/-- Read the L2 data of a payload by its type. -/
def decodeL2Data (zlib : Zlib) (txTypeId : Nat) (l2Data : List UInt8) : Option Message :=
  if txTypeId = 4 then some (.raw l2Data)
  else if txTypeId = 5 then (zlib.decompress l2Data).map .raw
  else if txTypeId = 2 then
    (FixedBytes.fromSlice? l2DataSize l2Data).map fun data =>
      .entry (L2Data.mk data).ethereumAddress (L2Data.mk data).amountSompi
  else none

/-- Read a payload: header, L2 data, four bytes of nonce. -/
def decodeMessage (zlib : Zlib) : List UInt8 → Option Message
  | [] => none
  | header :: rest =>
    if header.toNat / 16 = VERSION.toNat then
      decodeL2Data zlib (header.toNat % 16) (rest.take (rest.length - nonceLength))
    else none

/-- Equal in everything but the last four bytes. -/
def SameUpToNonce (a b : List UInt8) : Prop :=
  a.length = b.length ∧ a.take (a.length - nonceLength) = b.take (b.length - nonceLength)

-- ---------------------------------------------------------------------------
-- Encoding
-- ---------------------------------------------------------------------------

theorem L2Data.ethereumAddress_new (address : FixedBytes ethereumAddressSize)
    (amount : UInt64) : (L2Data.new address amount).ethereumAddress = address := by
  apply FixedBytes.ext
  rw [ethereumAddress, new]
  exact List.take_left' address.size

theorem L2Data.amountSompi_new (address : FixedBytes ethereumAddressSize)
    (amount : UInt64) : (L2Data.new address amount).amountSompi = amount := by
  have hdrop : (L2Data.new address amount).data.bytes.drop ethereumAddressSize =
      leBytes 8 amount.toNat := List.drop_left' address.size
  rw [amountSompi, hdrop, ofLeBytes_leBytes]
  apply UInt64.toNat_inj.mp
  have := amount.toNat_lt
  rw [UInt64.toNat_ofNat']
  omega

/-- The header byte of the payloads the provider builds. -/
def headerByte (txTypeId : TxTypeId) : UInt8 := (VERSION <<< 4) ||| txTypeId.toUInt8

/-- The header's halves are the format version and the type. -/
theorem headerByte_halves (ty : TxTypeId) :
    (headerByte ty).toNat / 16 = VERSION.toNat ∧
      (headerByte ty).toNat % 16 = ty.toUInt8.toNat := by
  cases ty <;> decide

theorem payload_version (zlib : Zlib) (m : Message) : (m.payload zlib).version = VERSION := by
  cases m <;> rfl

/-- What is serialized: header, L2 data, nonce, provided there is L2 data. -/
theorem serializePayload_message {zlib : Zlib} {m : Message} {bytes : List UInt8} :
    serializePayload (m.payload zlib) = .ok bytes ↔
      (m.payload zlib).l2Data ≠ [] ∧
        bytes = headerByte (m.payload zlib).txTypeId ::
          ((m.payload zlib).l2Data ++ (m.payload zlib).nonce.bytes) := by
  have hversion : ¬ VERSION > 0x0F := by decide
  rw [serializePayload, payload_version, if_neg hversion]
  by_cases hempty : (m.payload zlib).l2Data = []
  · simp [hempty]
  · rw [if_neg (by simpa using hempty)]
    refine ⟨?_, ?_⟩
    · intro h
      exact ⟨hempty, (Except.ok.inj h).symm⟩
    · rintro ⟨-, rfl⟩
      rfl

/-- The L2 data of a message reads back as the message. -/
theorem decodeL2Data_payload {zlib : Zlib} (hz : zlib.Inverts) (m : Message) :
    decodeL2Data zlib (m.payload zlib).txTypeId.toUInt8.toNat (m.payload zlib).l2Data =
      some m := by
  cases m with
  | raw txBytes =>
    show decodeL2Data zlib (chooseL2Data zlib txBytes).2.toUInt8.toNat
      (chooseL2Data zlib txBytes).1 = some (.raw txBytes)
    unfold chooseL2Data
    cases hc : zlib.compress txBytes with
    | error e => rfl
    | ok compressed =>
      by_cases hlen : compressed.length < txBytes.length
      · simp only [hlen, if_true]
        show (zlib.decompress compressed).map Message.raw = _
        rw [hz txBytes compressed hc]
        rfl
      · simp only [hlen, if_false]
        rfl
  | entry address amount =>
    show (FixedBytes.fromSlice? l2DataSize (L2Data.new address amount).data.bytes).map _ = _
    rw [FixedBytes.fromSlice?_bytes, Option.map_some, L2Data.ethereumAddress_new,
      L2Data.amountSompi_new]

/-- Reading looks at everything but the nonce. -/
theorem decodeMessage_congr {zlib : Zlib} {a b : List UInt8} (h : SameUpToNonce a b)
    (ha : nonceLength < a.length) : decodeMessage zlib a = decodeMessage zlib b := by
  obtain ⟨hlen, htake⟩ := h
  cases a with
  | nil => exact absurd ha (by simp)
  | cons x xs =>
    cases b with
    | nil => exact absurd hlen (by simp)
    | cons y ys =>
      have hxs : (x :: xs).length - nonceLength = (xs.length - nonceLength) + 1 := by
        simp only [List.length_cons] at ha ⊢
        omega
      have hys : (y :: ys).length - nonceLength = (ys.length - nonceLength) + 1 := by
        rw [← hlen, hxs]
        simp only [List.length_cons] at hlen
        omega
      rw [hxs, hys, List.take_succ_cons, List.take_succ_cons] at htake
      obtain ⟨rfl, hrest⟩ := List.cons.inj htake
      rw [decodeMessage, decodeMessage, hrest]

/-- What the bytes on L1 are after a nonce is written over a serialized message. -/
theorem writeTail_serialized {zlib : Zlib} {m : Message} {bytes : List UInt8}
    (h : serializePayload (m.payload zlib) = .ok bytes) (nonce : FixedBytes 4) :
    writeTail bytes nonce.bytes =
      headerByte (m.payload zlib).txTypeId :: ((m.payload zlib).l2Data ++ nonce.bytes) := by
  obtain ⟨-, rfl⟩ := serializePayload_message.mp h
  rw [← List.cons_append, writeTail_append, List.cons_append]
  rw [(m.payload zlib).nonce.size, nonce.size]
  rfl

/-- **A payload determines its message**, whatever nonce is written into it. -/
theorem decodeMessage_writeTail {zlib : Zlib} (hz : zlib.Inverts) {m : Message}
    {bytes : List UInt8} (h : serializePayload (m.payload zlib) = .ok bytes)
    (nonce : FixedBytes 4) : decodeMessage zlib (writeTail bytes nonce.bytes) = some m := by
  obtain ⟨hversion, htype⟩ := headerByte_halves (m.payload zlib).txTypeId
  have hl2 : ((m.payload zlib).l2Data ++ nonce.bytes).take
      (((m.payload zlib).l2Data ++ nonce.bytes).length - nonceLength) =
        (m.payload zlib).l2Data := by
    apply List.take_left'
    rw [List.length_append, nonce.size]
    rfl
  rw [writeTail_serialized h, decodeMessage, if_pos hversion, hl2, htype]
  exact decodeL2Data_payload hz m

/-- The L2 data of a raw transaction is never longer than the transaction. -/
theorem rawPayload_length_le (zlib : Zlib) (txBytes : List UInt8) :
    (rawPayload zlib txBytes).l2Data.length ≤ txBytes.length := by
  show (chooseL2Data zlib txBytes).1.length ≤ _
  unfold chooseL2Data
  split
  · split
    · next h => exact Nat.le_of_lt h
    · exact Nat.le_refl _
  · exact Nat.le_refl _

end IgraRpc
