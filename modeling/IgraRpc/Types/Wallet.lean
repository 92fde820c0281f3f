import IgraRpc.Lib.Bytes
import IgraRpc.Lib.Outcome

/-!
# Wallet transactions — `types/wallet.rs`

The two views of a wallet transaction and the hand-written converters between
them: the daemon's protobuf messages (`Proto.*`, optional sub-messages and wide
integers) and the consensus types the miner works on.

* `protoToSignableTransaction` — proto → consensus, for mining;
* `updateProtoWithMinedTransaction` — consensus → proto, written back;
* `Consensus` — the parameters taken from `kaspa_consensus_core`: the transaction
  id function, the Toccata version and which versions carry a compute budget.

Two calls into `kaspa_consensus_core` panic instead of failing:
`TransactionId::from_slice` on anything but 32 bytes, and
`SignableTransaction::with_entries` when entries and inputs differ in number. The
converters return an `Outcome`, so both stay visible.
-/

namespace IgraRpc

open Lib

-- ---------------------------------------------------------------------------
-- Consensus types
-- ---------------------------------------------------------------------------

abbrev TransactionId := FixedBytes 32
abbrev SubnetworkId := FixedBytes 20

structure ScriptPublicKey where
  version : UInt16
  script : List UInt8
  deriving DecidableEq

/-- `ScriptPublicKey::default()`. -/
def ScriptPublicKey.default : ScriptPublicKey := ⟨0, []⟩

structure TransactionOutpoint where
  transactionId : TransactionId
  index : UInt32
  deriving DecidableEq

/-- The mass commitment of an input: one of two fields, by transaction version. -/
inductive TxInputMass where
  | sigOpCount (n : UInt8)
  | computeBudget (n : UInt16)
  deriving DecidableEq

/-- `TxInputMass::sig_op_count`. -/
def TxInputMass.sigOpCount? : TxInputMass → Option UInt8
  | .sigOpCount n => some n
  | .computeBudget _ => none

/-- `TxInputMass::compute_budget`. -/
def TxInputMass.computeBudget? : TxInputMass → Option UInt16
  | .sigOpCount _ => none
  | .computeBudget n => some n

structure TransactionInput where
  previousOutpoint : TransactionOutpoint
  signatureScript : List UInt8
  sequence : UInt64
  mass : TxInputMass
  deriving DecidableEq

structure TransactionOutput where
  value : UInt64
  scriptPublicKey : ScriptPublicKey
  deriving DecidableEq

/-- Everything a transaction carries besides its cached id. -/
structure TransactionBody where
  version : UInt16
  inputs : List TransactionInput
  outputs : List TransactionOutput
  lockTime : UInt64
  subnetworkId : SubnetworkId
  gas : UInt64
  payload : List UInt8
  mass : UInt64
  deriving DecidableEq

/-- A transaction: its body and the id cached by the last `finalize`. -/
structure Transaction extends TransactionBody where
  id : TransactionId
  deriving DecidableEq

structure UtxoEntry where
  amount : UInt64
  scriptPublicKey : ScriptPublicKey
  blockDaaScore : UInt64
  isCoinbase : Bool
  covenantId : Option (FixedBytes 32)
  deriving DecidableEq

structure NonContextualMasses where
  computeMass : UInt64
  transientMass : UInt64
  deriving DecidableEq

/-- `MutableTransaction<Transaction>`. -/
structure SignableTransaction where
  tx : Transaction
  entries : List (Option UtxoEntry)
  calculatedFee : Option UInt64
  calculatedNonContextualMasses : Option NonContextualMasses
  deriving DecidableEq

/-- What the provider takes from `kaspa_consensus_core`. -/
structure Consensus where
  transactionId : TransactionBody → TransactionId
  txVersionToccata : UInt16
  versionExpectsComputeBudgetField : UInt16 → Bool

/-- `Transaction::finalize`: recompute the cached id. -/
def Transaction.finalize (K : Consensus) (tx : Transaction) : Transaction :=
  { tx with id := K.transactionId tx.toTransactionBody }

/-- `Transaction::new`: mass starts at 0 and the id is computed. -/
def Transaction.new (K : Consensus) (version : UInt16) (inputs : List TransactionInput)
    (outputs : List TransactionOutput) (lockTime : UInt64) (subnetworkId : SubnetworkId)
    (gas : UInt64) (payload : List UInt8) : Transaction :=
  let body : TransactionBody :=
    { version, inputs, outputs, lockTime, subnetworkId, gas, payload, mass := 0 }
  { body with id := K.transactionId body }

variable {ε : Type}

/-- `TransactionId::from_slice`: panics unless given exactly 32 bytes. -/
def TransactionId.fromSlice (bs : List UInt8) : Outcome ε TransactionId :=
  match FixedBytes.fromSlice? 32 bs with
  | some id => .ok id
  | none => .panicked

/-- `SignableTransaction::with_entries`: panics unless there is one entry per input. -/
def SignableTransaction.withEntries (tx : Transaction) (entries : List UtxoEntry) :
    Outcome ε SignableTransaction :=
  if entries.length = tx.inputs.length then
    .ok { tx, entries := entries.map some, calculatedFee := none,
          calculatedNonContextualMasses := none }
  else .panicked

-- ---------------------------------------------------------------------------
-- The daemon's messages
-- ---------------------------------------------------------------------------

namespace Proto

structure ScriptPublicKey where
  version : UInt32
  scriptPublicKey : String
  deriving DecidableEq

structure TransactionOutpoint where
  transactionId : List UInt8
  index : UInt32
  deriving DecidableEq

structure TransactionInput where
  previousOutpoint : Option TransactionOutpoint
  signatureScript : List UInt8
  sequence : UInt64
  sigOpCount : UInt32
  computeBudget : UInt32
  deriving DecidableEq

structure TransactionOutput where
  value : UInt64
  scriptPublicKey : Option ScriptPublicKey
  deriving DecidableEq

structure Transaction where
  version : UInt32
  inputs : List TransactionInput
  outputs : List TransactionOutput
  lockTime : UInt64
  subnetworkId : List UInt8
  gas : UInt64
  payload : List UInt8
  mass : UInt64
  id : List UInt8
  deriving DecidableEq

structure UtxoEntry where
  amount : UInt64
  scriptPublicKey : Option ScriptPublicKey
  blockDaaScore : UInt64
  isCoinbase : Bool
  deriving DecidableEq

structure OptionalUtxoEntry where
  entry : Option UtxoEntry
  deriving DecidableEq

structure NonContextualMasses where
  computeMass : UInt64
  transientMass : UInt64
  deriving DecidableEq

structure SignableTransaction where
  tx : Option Transaction
  entries : List OptionalUtxoEntry
  calculatedFee : Option UInt64
  calculatedNonContextualMasses : Option NonContextualMasses
  deriving DecidableEq

/-- `signed_transaction::Signed`. -/
inductive Signed where
  | partially (st : SignableTransaction)
  | fully (st : SignableTransaction)
  deriving DecidableEq

structure SignedTransaction where
  signed : Option Signed
  deriving DecidableEq

/-- `otherFields` is whatever else the daemon's message carries; the provider
passes it on untouched. -/
structure WalletSignableTransaction where
  transaction : Option SignedTransaction
  otherFields : List UInt8
  deriving DecidableEq

end Proto

-- ---------------------------------------------------------------------------
-- Errors and integer conversions
-- ---------------------------------------------------------------------------

inductive KaspaWalletError where
  | userInputError (msg : String)
  | internalServerError (msg : String)
  deriving DecidableEq, Repr

/-- The `Display` text. -/
def KaspaWalletError.display : KaspaWalletError → String
  | .userInputError msg => msg
  | .internalServerError msg => msg

/-- `u16::try_from`. -/
def tryU16 (n : UInt32) : Option UInt16 :=
  if n.toNat < 65536 then some n.toUInt16 else none

/-- `u8::try_from`. -/
def tryU8 (n : UInt32) : Option UInt8 :=
  if n.toNat < 256 then some n.toUInt8 else none

/-- `ok_or_else`. -/
def okOr {α : Type} (e : ε) : Option α → Outcome ε α
  | some a => .ok a
  | none => .err e

-- ---------------------------------------------------------------------------
-- Proto → consensus
-- ---------------------------------------------------------------------------

/-- The script of an output or an entry; an absent one is the default script. -/
def scriptToKaspa : Option Proto.ScriptPublicKey → Outcome KaspaWalletError ScriptPublicKey
  | none => .ok .default
  | some spk => do
    let version ← okOr (.internalServerError "Invalid script version") (tryU16 spk.version)
    let script ← (Outcome.ofExcept (hexDecode (strBytes spk.scriptPublicKey))).mapErr
      fun e => .internalServerError s!"Invalid script hex: {e.display}"
    return ⟨version, script⟩

/-- An absent outpoint is the default id with index 0. -/
def outpointToKaspa :
    Option Proto.TransactionOutpoint → Outcome KaspaWalletError TransactionOutpoint
  | none => .ok ⟨FixedBytes.zero 32, 0⟩
  | some op => do
    let txId ← TransactionId.fromSlice op.transactionId
    return ⟨txId, op.index⟩

/-- The mass commitment that the transaction's version carries. -/
def inputMassToKaspa (expectsComputeBudget : Bool) (input : Proto.TransactionInput) :
    Outcome KaspaWalletError TxInputMass :=
  if expectsComputeBudget then do
    let computeBudget ← okOr (.internalServerError
      s!"TransactionInput.compute_budget {input.computeBudget.toNat} exceeds u16 max")
      (tryU16 input.computeBudget)
    return .computeBudget computeBudget
  else do
    let sigOpCount ← okOr (.internalServerError
      s!"TransactionInput.sig_op_count {input.sigOpCount.toNat} exceeds u8 max")
      (tryU8 input.sigOpCount)
    return .sigOpCount sigOpCount

def inputToKaspa (expectsComputeBudget : Bool) (input : Proto.TransactionInput) :
    Outcome KaspaWalletError TransactionInput := do
  let outpoint ← outpointToKaspa input.previousOutpoint
  let mass ← inputMassToKaspa expectsComputeBudget input
  return ⟨outpoint, input.signatureScript, input.sequence, mass⟩

def outputToKaspa (output : Proto.TransactionOutput) :
    Outcome KaspaWalletError TransactionOutput := do
  let spk ← scriptToKaspa output.scriptPublicKey
  return ⟨output.value, spk⟩

/-- 20 bytes, or none for the native subnetwork. -/
def subnetworkToKaspa (bs : List UInt8) : Outcome KaspaWalletError SubnetworkId :=
  match FixedBytes.fromSlice? 20 bs with
  | some lane => .ok lane
  | none =>
    if bs.length = 0 then .ok (FixedBytes.zero 20)
    else .err (.internalServerError
      s!"Invalid subnetwork_id length: expected 20 bytes, got {bs.length}")

/-- `proto_transaction_to_kaspa`. -/
def protoTransactionToKaspa (K : Consensus) (protoTx : Proto.Transaction) :
    Outcome KaspaWalletError Transaction := do
  let version ← okOr (.internalServerError "Invalid transaction version")
    (tryU16 protoTx.version)
  let expectsComputeBudget := K.versionExpectsComputeBudgetField version
  let inputs ← Outcome.collect (inputToKaspa expectsComputeBudget) protoTx.inputs
  let outputs ← Outcome.collect outputToKaspa protoTx.outputs
  let subnetworkId ← subnetworkToKaspa protoTx.subnetworkId
  return Transaction.new K version inputs outputs protoTx.lockTime subnetworkId protoTx.gas
    protoTx.payload

/-- A present entry; the daemon's message carries no covenant id. -/
def entryToKaspa (entry : Proto.UtxoEntry) : Outcome KaspaWalletError UtxoEntry := do
  let spk ← scriptToKaspa entry.scriptPublicKey
  return ⟨entry.amount, spk, entry.blockDaaScore, entry.isCoinbase, none⟩

def massesToKaspa (masses : Proto.NonContextualMasses) : NonContextualMasses :=
  ⟨masses.computeMass, masses.transientMass⟩

/-- `filter_map(|opt_entry| opt_entry.entry.as_ref())`. -/
def presentEntries (protoSt : Proto.SignableTransaction) : List Proto.UtxoEntry :=
  protoSt.entries.filterMap fun optEntry => optEntry.entry

/-- `proto_signable_to_kaspa`. -/
def protoSignableToKaspa (K : Consensus) (protoSt : Proto.SignableTransaction) :
    Outcome KaspaWalletError SignableTransaction := do
  let protoTx ← okOr (.userInputError "Missing transaction") protoSt.tx
  let tx ← protoTransactionToKaspa K protoTx
  let entries ← Outcome.collect entryToKaspa (presentEntries protoSt)
  let signable ← SignableTransaction.withEntries tx entries
  return { signable with
    calculatedFee := protoSt.calculatedFee
    calculatedNonContextualMasses :=
      protoSt.calculatedNonContextualMasses.map massesToKaspa }

/-- The partially signed transaction inside a wallet message. -/
def partiallySigned (wst : Proto.WalletSignableTransaction) :
    Outcome KaspaWalletError Proto.SignableTransaction := do
  let signedTx ← okOr (.userInputError "Missing transaction") wst.transaction
  match signedTx.signed with
  | some (.partially st) => .ok st
  | some (.fully _) => .err (.userInputError "Cannot mine fully signed transaction")
  | none => .err (.userInputError "Missing signed transaction variant")

/-- `proto_to_signable_transaction`. -/
def protoToSignableTransaction (K : Consensus) (wst : Proto.WalletSignableTransaction) :
    Outcome KaspaWalletError SignableTransaction := do
  let signableTx ← partiallySigned wst
  protoSignableToKaspa K signableTx

-- ---------------------------------------------------------------------------
-- Consensus → proto
-- ---------------------------------------------------------------------------

def scriptToProto (spk : ScriptPublicKey) : Proto.ScriptPublicKey :=
  ⟨spk.version.toUInt32, hexEncode spk.script⟩

/-- Both mass fields are written, the inapplicable one as 0. -/
def inputToProto (input : TransactionInput) : Proto.TransactionInput where
  previousOutpoint := some
    ⟨input.previousOutpoint.transactionId.bytes, input.previousOutpoint.index⟩
  signatureScript := input.signatureScript
  sequence := input.sequence
  sigOpCount := (input.mass.sigOpCount?.getD 0).toUInt32
  computeBudget := (input.mass.computeBudget?.getD 0).toUInt32

def outputToProto (output : TransactionOutput) : Proto.TransactionOutput :=
  ⟨output.value, some (scriptToProto output.scriptPublicKey)⟩

/-- `kaspa_transaction_to_proto`. -/
def kaspaTransactionToProto (tx : Transaction) : Proto.Transaction where
  version := tx.version.toUInt32
  inputs := tx.inputs.map inputToProto
  outputs := tx.outputs.map outputToProto
  lockTime := tx.lockTime
  subnetworkId := tx.subnetworkId.bytes
  gas := tx.gas
  payload := tx.payload
  mass := tx.mass
  id := tx.id.bytes

def entryToProto : Option UtxoEntry → Outcome KaspaWalletError Proto.OptionalUtxoEntry
  | none => .ok ⟨none⟩
  | some entry =>
    if entry.covenantId.isSome then
      .err (.internalServerError
        ("UtxoEntry.covenant_id is set but the kaswallet proto cannot " ++
          "carry it; round-trip would silently drop the field"))
    else
      .ok ⟨some ⟨entry.amount, some (scriptToProto entry.scriptPublicKey),
        entry.blockDaaScore, entry.isCoinbase⟩⟩

def massesToProto (masses : NonContextualMasses) : Proto.NonContextualMasses :=
  ⟨masses.computeMass, masses.transientMass⟩

/-- `kaspa_signable_to_proto`. -/
def kaspaSignableToProto (st : SignableTransaction) :
    Outcome KaspaWalletError Proto.SignableTransaction := do
  let entries ← Outcome.collect entryToProto st.entries
  return {
    tx := some (kaspaTransactionToProto st.tx)
    entries
    calculatedFee := st.calculatedFee
    calculatedNonContextualMasses := st.calculatedNonContextualMasses.map massesToProto }

/-- `update_proto_with_mined_transaction`: the message as it is after the call. -/
def updateProtoWithMinedTransaction (wst : Proto.WalletSignableTransaction)
    (minedTx : SignableTransaction) :
    Outcome KaspaWalletError Proto.WalletSignableTransaction := do
  let _ ← okOr (.userInputError "Missing transaction") wst.transaction
  let protoSignable ← kaspaSignableToProto minedTx
  return { wst with transaction := some ⟨some (.partially protoSignable)⟩ }

/-- The transaction inside a wallet message, signed or not. -/
def innerTransaction (wst : Proto.WalletSignableTransaction) : Option Proto.Transaction := do
  let st ← wst.transaction
  match st.signed with
  | some (.partially s) => s.tx
  | some (.fully s) => s.tx
  | none => none

/-- `proto_payload_len`. -/
def protoPayloadLen (wst : Proto.WalletSignableTransaction) : Nat :=
  ((innerTransaction wst).map fun tx => tx.payload.length).getD 0

end IgraRpc
