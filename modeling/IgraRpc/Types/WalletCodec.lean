import IgraRpc.Types.Wallet

/-!
# What the wallet converters do — success, panics, round trips

One specification per converter; everything later cites these and never unfolds
the converters again.

* `protoToSignableTransaction_eq_panicked` — decoding panics exactly on
  `DecodePanics`: an outpoint id that is not 32 bytes long, or a number of
  entries that differs from the number of inputs;
* `WellFormed`, `protoTransactionToKaspa_wellFormed` — what every decoded
  transaction satisfies;
* `protoTransactionToKaspa_kaspaTransactionToProto` — a well-formed transaction
  survives consensus → proto → consensus;
* `decode_update_roundtrip` — **the round trip of the flow**: decode, renew the
  nonce, write back. It preserves the daemon's message exactly when the widths
  fit and the message's mass is 0.
-/

namespace IgraRpc

open Lib

-- ---------------------------------------------------------------------------
-- Integer widths
-- ---------------------------------------------------------------------------

theorem tryU16_eq_some {n : UInt32} {v : UInt16} : tryU16 n = some v ↔ v.toUInt32 = n := by
  unfold tryU16
  refine ⟨?_, ?_⟩
  · intro h
    split at h
    case isTrue hlt =>
      obtain rfl := Option.some.inj h
      apply UInt32.toNat_inj.mp
      rw [UInt16.toNat_toUInt32, UInt32.toNat_toUInt16]
      omega
    case isFalse => exact absurd h (by simp)
  · rintro rfl
    have hv := v.toNat_lt
    rw [if_pos (by rw [UInt16.toNat_toUInt32]; exact hv)]
    congr 1
    apply UInt16.toNat_inj.mp
    rw [UInt32.toNat_toUInt16, UInt16.toNat_toUInt32]
    omega

theorem tryU8_eq_some {n : UInt32} {v : UInt8} : tryU8 n = some v ↔ v.toUInt32 = n := by
  unfold tryU8
  refine ⟨?_, ?_⟩
  · intro h
    split at h
    case isTrue hlt =>
      obtain rfl := Option.some.inj h
      apply UInt32.toNat_inj.mp
      rw [UInt8.toNat_toUInt32, UInt32.toNat_toUInt8]
      omega
    case isFalse => exact absurd h (by simp)
  · rintro rfl
    have hv := v.toNat_lt
    rw [if_pos (by rw [UInt8.toNat_toUInt32]; exact hv)]
    congr 1
    apply UInt8.toNat_inj.mp
    rw [UInt32.toNat_toUInt8, UInt8.toNat_toUInt32]
    omega

theorem tryU16_isSome {n : UInt32} : (∃ v, tryU16 n = some v) ↔ n.toNat < 65536 := by
  unfold tryU16
  split <;> simp_all

theorem tryU8_isSome {n : UInt32} : (∃ v, tryU8 n = some v) ↔ n.toNat < 256 := by
  unfold tryU8
  split <;> simp_all

@[simp] theorem tryU16_toUInt32 (v : UInt16) : tryU16 v.toUInt32 = some v :=
  tryU16_eq_some.mpr rfl

variable {ε α : Type}

theorem okOr_eq_ok {e : ε} {x : Option α} {a : α} : okOr e x = .ok a ↔ x = some a := by
  cases x <;> simp [okOr]

@[simp] theorem okOr_ne_panicked (e : ε) (x : Option α) : okOr e x ≠ .panicked := by
  cases x <;> simp [okOr]

theorem fromSlice_eq_ok {bs : List UInt8} {id : TransactionId} :
    (TransactionId.fromSlice bs : Outcome ε _) = .ok id ↔ id.bytes = bs := by
  rw [← FixedBytes.fromSlice?_eq_some, TransactionId.fromSlice]
  cases FixedBytes.fromSlice? 32 bs <;> simp

theorem fromSlice_eq_panicked {bs : List UInt8} :
    (TransactionId.fromSlice bs : Outcome ε _) = .panicked ↔ bs.length ≠ 32 := by
  rw [← FixedBytes.fromSlice?_eq_none, TransactionId.fromSlice]
  cases FixedBytes.fromSlice? 32 bs <;> simp

theorem fromSlice_ne_err {bs : List UInt8} {e : ε} :
    TransactionId.fromSlice bs ≠ .err e := by
  unfold TransactionId.fromSlice
  split <;> simp

theorem withEntries_eq_ok {tx : Transaction} {entries : List UtxoEntry}
    {st : SignableTransaction} :
    (SignableTransaction.withEntries tx entries : Outcome ε _) = .ok st ↔
      entries.length = tx.inputs.length ∧ st = ⟨tx, entries.map some, none, none⟩ := by
  unfold SignableTransaction.withEntries
  split
  case isTrue h => simp [h, eq_comm]
  case isFalse h => simp [h]

theorem withEntries_eq_panicked {tx : Transaction} {entries : List UtxoEntry} :
    (SignableTransaction.withEntries tx entries : Outcome ε _) = .panicked ↔
      entries.length ≠ tx.inputs.length := by
  unfold SignableTransaction.withEntries
  split <;> simp_all

-- ---------------------------------------------------------------------------
-- Scripts, entries and outputs
-- ---------------------------------------------------------------------------

/-- A script message that converts: the version fits and the script is hex. -/
def ScriptConverts (script : Option Proto.ScriptPublicKey) : Prop :=
  ∀ spk, script = some spk →
    spk.version.toNat < 65536 ∧ ∃ bs, hexDecode (strBytes spk.scriptPublicKey) = .ok bs

theorem scriptToKaspa_some_eq_ok {spk : Proto.ScriptPublicKey} {s : ScriptPublicKey} :
    scriptToKaspa (some spk) = .ok s ↔
      s.version.toUInt32 = spk.version ∧
        hexDecode (strBytes spk.scriptPublicKey) = .ok s.script := by
  simp only [scriptToKaspa, Outcome.bind_eq_ok, okOr_eq_ok, tryU16_eq_some,
    Outcome.mapErr_eq_ok, Outcome.ofExcept_eq_ok, Outcome.pure_eq, Outcome.ok.injEq]
  refine ⟨?_, ?_⟩
  · rintro ⟨v, hv, script, hscript, rfl⟩
    exact ⟨hv, hscript⟩
  · intro ⟨hv, hscript⟩
    exact ⟨s.version, hv, s.script, hscript, rfl⟩

theorem scriptToKaspa_ne_panicked (script : Option Proto.ScriptPublicKey) :
    scriptToKaspa script ≠ .panicked := by
  cases script with
  | none => simp [scriptToKaspa]
  | some spk =>
    simp only [scriptToKaspa, Ne, Outcome.bind_eq_panicked, okOr_ne_panicked, false_or,
      Outcome.mapErr_eq_panicked, Outcome.ofExcept_ne_panicked, Outcome.pure_eq,
      reduceCtorEq, and_false, exists_false, not_false_eq_true]

theorem exists_scriptToKaspa_eq_ok {script : Option Proto.ScriptPublicKey} :
    (∃ s, scriptToKaspa script = .ok s) ↔ ScriptConverts script := by
  cases script with
  | none => simp [scriptToKaspa, ScriptConverts]
  | some spk =>
    simp only [scriptToKaspa_some_eq_ok, ScriptConverts, Option.some.injEq, forall_eq']
    rw [← tryU16_isSome]
    refine ⟨?_, ?_⟩
    · intro ⟨s, hv, hscript⟩
      exact ⟨⟨s.version, tryU16_eq_some.mpr hv⟩, s.script, hscript⟩
    · intro ⟨⟨v, hv⟩, bs, hbs⟩
      exact ⟨⟨v, bs⟩, tryU16_eq_some.mp hv, hbs⟩

/-- A script read from lowercase hex is written back as it was. -/
theorem scriptToProto_scriptToKaspa {spk : Proto.ScriptPublicKey} {s : ScriptPublicKey}
    (hhex : LowerHex (strBytes spk.scriptPublicKey)) (h : scriptToKaspa (some spk) = .ok s) :
    scriptToProto s = spk := by
  obtain ⟨hversion, hscript⟩ := scriptToKaspa_some_eq_ok.mp h
  obtain ⟨bs, hbs, henc⟩ := hexDecode_lowerHex hhex
  have hbs' : s.script = bs := Except.ok.inj (hscript.symm.trans hbs)
  rw [scriptToProto, hversion, hbs', henc]

/-- A script written to proto is read back as it was. -/
theorem scriptToKaspa_scriptToProto (s : ScriptPublicKey) :
    scriptToKaspa (some (scriptToProto s)) = .ok s :=
  scriptToKaspa_some_eq_ok.mpr ⟨rfl, hexDecode_hexEncode s.script⟩

theorem outputToKaspa_eq_ok {o : Proto.TransactionOutput} {t : TransactionOutput} :
    outputToKaspa o = .ok t ↔
      scriptToKaspa o.scriptPublicKey = .ok t.scriptPublicKey ∧ t.value = o.value := by
  simp only [outputToKaspa, Outcome.bind_eq_ok, Outcome.pure_eq, Outcome.ok.injEq]
  refine ⟨?_, ?_⟩
  · rintro ⟨spk, hspk, rfl⟩
    exact ⟨hspk, rfl⟩
  · intro ⟨hspk, hvalue⟩
    exact ⟨t.scriptPublicKey, hspk, by rw [← hvalue]⟩

theorem outputToKaspa_ne_panicked (o : Proto.TransactionOutput) :
    outputToKaspa o ≠ .panicked := by
  simp [outputToKaspa, Outcome.bind_eq_panicked, scriptToKaspa_ne_panicked]

theorem entryToKaspa_eq_ok {e : Proto.UtxoEntry} {u : UtxoEntry} :
    entryToKaspa e = .ok u ↔
      scriptToKaspa e.scriptPublicKey = .ok u.scriptPublicKey ∧ u.amount = e.amount ∧
        u.blockDaaScore = e.blockDaaScore ∧ u.isCoinbase = e.isCoinbase ∧
        u.covenantId = none := by
  simp only [entryToKaspa, Outcome.bind_eq_ok, Outcome.pure_eq, Outcome.ok.injEq]
  refine ⟨?_, ?_⟩
  · rintro ⟨spk, hspk, rfl⟩
    exact ⟨hspk, rfl, rfl, rfl, rfl⟩
  · obtain ⟨amount, spk, daa, coinbase, covenant⟩ := u
    rintro ⟨hspk, rfl, rfl, rfl, rfl⟩
    exact ⟨spk, hspk, rfl⟩

theorem entryToKaspa_ne_panicked (e : Proto.UtxoEntry) : entryToKaspa e ≠ .panicked := by
  simp [entryToKaspa, Outcome.bind_eq_panicked, scriptToKaspa_ne_panicked]

-- ---------------------------------------------------------------------------
-- Inputs
-- ---------------------------------------------------------------------------

/-- An outpoint id `TransactionId::from_slice` panics on. -/
def BadOutpoint (input : Proto.TransactionInput) : Prop :=
  ∃ op, input.previousOutpoint = some op ∧ op.transactionId.length ≠ 32

/-- The mass field the transaction's version uses fits its consensus width. -/
def MassFits (expectsComputeBudget : Bool) (input : Proto.TransactionInput) : Prop :=
  if expectsComputeBudget then input.computeBudget.toNat < 65536
  else input.sigOpCount.toNat < 256

theorem outpointToKaspa_eq_panicked {o : Option Proto.TransactionOutpoint} :
    outpointToKaspa o = .panicked ↔ ∃ op, o = some op ∧ op.transactionId.length ≠ 32 := by
  cases o with
  | none => simp [outpointToKaspa]
  | some op =>
    simp [outpointToKaspa, Outcome.bind_eq_panicked, fromSlice_eq_panicked]

theorem outpointToKaspa_some_eq_ok {op : Proto.TransactionOutpoint}
    {o : TransactionOutpoint} :
    outpointToKaspa (some op) = .ok o ↔
      o.transactionId.bytes = op.transactionId ∧ o.index = op.index := by
  simp only [outpointToKaspa, Outcome.bind_eq_ok, fromSlice_eq_ok, Outcome.pure_eq,
    Outcome.ok.injEq]
  refine ⟨?_, ?_⟩
  · rintro ⟨id, hid, rfl⟩
    exact ⟨hid, rfl⟩
  · intro ⟨hid, hindex⟩
    exact ⟨o.transactionId, hid, by rw [← hindex]⟩

theorem inputMassToKaspa_ne_panicked (b : Bool) (input : Proto.TransactionInput) :
    inputMassToKaspa b input ≠ .panicked := by
  cases b <;> simp [inputMassToKaspa, Outcome.bind_eq_panicked]

theorem exists_inputMassToKaspa_eq_ok {b : Bool} {input : Proto.TransactionInput} :
    (∃ m, inputMassToKaspa b input = .ok m) ↔ MassFits b input := by
  cases b with
  | false =>
    simp only [MassFits, Bool.false_eq_true, if_false, ← tryU8_isSome, inputMassToKaspa,
      Outcome.bind_eq_ok, okOr_eq_ok, Outcome.pure_eq, Outcome.ok.injEq]
    exact ⟨fun ⟨_, v, hv, _⟩ => ⟨v, hv⟩, fun ⟨v, hv⟩ => ⟨_, v, hv, rfl⟩⟩
  | true =>
    simp only [MassFits, if_true, ← tryU16_isSome, inputMassToKaspa, Outcome.bind_eq_ok,
      okOr_eq_ok, Outcome.pure_eq, Outcome.ok.injEq]
    exact ⟨fun ⟨_, v, hv, _⟩ => ⟨v, hv⟩, fun ⟨v, hv⟩ => ⟨_, v, hv, rfl⟩⟩

/-- The mass commitment of an input is the one its transaction's version uses. -/
def MassMatches (expectsComputeBudget : Bool) (input : TransactionInput) : Prop :=
  input.mass.computeBudget?.isSome = expectsComputeBudget

/-- A mass commitment is read from the field the version uses and from no other. -/
theorem inputMassToKaspa_eq_ok {b : Bool} {input : Proto.TransactionInput}
    {m : TxInputMass} :
    inputMassToKaspa b input = .ok m ↔
      m.computeBudget?.isSome = b ∧
        (∀ n, m = .computeBudget n → n.toUInt32 = input.computeBudget) ∧
        ∀ n, m = .sigOpCount n → n.toUInt32 = input.sigOpCount := by
  cases b <;> cases m <;>
    simp [inputMassToKaspa, TxInputMass.computeBudget?, Outcome.bind_eq_ok, okOr_eq_ok,
      tryU8_eq_some, tryU16_eq_some]

theorem inputToKaspa_eq_ok {b : Bool} {x : Proto.TransactionInput} {y : TransactionInput} :
    inputToKaspa b x = .ok y ↔
      outpointToKaspa x.previousOutpoint = .ok y.previousOutpoint ∧
        inputMassToKaspa b x = .ok y.mass ∧ y.signatureScript = x.signatureScript ∧
        y.sequence = x.sequence := by
  simp only [inputToKaspa, Outcome.bind_eq_ok, Outcome.pure_eq, Outcome.ok.injEq]
  refine ⟨?_, ?_⟩
  · rintro ⟨op, hop, m, hm, rfl⟩
    exact ⟨hop, hm, rfl, rfl⟩
  · obtain ⟨op, script, sequence, m⟩ := y
    rintro ⟨hop, hm, rfl, rfl⟩
    exact ⟨op, hop, m, hm, rfl⟩

/-- Converting an input panics on its outpoint id and nowhere else. -/
theorem inputToKaspa_eq_panicked {b : Bool} {input : Proto.TransactionInput} :
    inputToKaspa b input = .panicked ↔ BadOutpoint input := by
  simp [inputToKaspa, Outcome.bind_eq_panicked, outpointToKaspa_eq_panicked,
    inputMassToKaspa_ne_panicked, BadOutpoint]

theorem exists_inputToKaspa_eq_ok {b : Bool} {input : Proto.TransactionInput} :
    (∃ i, inputToKaspa b input = .ok i) ↔ ¬ BadOutpoint input ∧ MassFits b input := by
  rw [← exists_inputMassToKaspa_eq_ok]
  refine ⟨?_, ?_⟩
  · intro ⟨i, hi⟩
    have hok := inputToKaspa_eq_ok.mp hi
    refine ⟨?_, i.mass, hok.2.1⟩
    intro hbad
    rw [inputToKaspa_eq_panicked.mpr hbad] at hi
    exact absurd hi (by simp)
  · intro ⟨hgood, m, hm⟩
    -- an outpoint conversion never fails with an error, so without a panic it succeeds
    cases hop : outpointToKaspa input.previousOutpoint with
    | ok op =>
      exact ⟨⟨op, input.signatureScript, input.sequence, m⟩,
        inputToKaspa_eq_ok.mpr ⟨hop, hm, rfl, rfl⟩⟩
    | panicked => exact absurd (outpointToKaspa_eq_panicked.mp hop) hgood
    | err e =>
      unfold outpointToKaspa at hop
      split at hop
      · exact absurd hop (by simp)
      · next op _ =>
        cases hid : (TransactionId.fromSlice op.transactionId :
            Outcome KaspaWalletError TransactionId) <;> simp [hid] at hop
        exact absurd hid fromSlice_ne_err

/-- An input with a 32-byte outpoint and no inapplicable mass is written back as it was. -/
theorem inputToProto_inputToKaspa {b : Bool} {x : Proto.TransactionInput}
    {y : TransactionInput} (hop : ∃ op, x.previousOutpoint = some op)
    (hzero : if b then x.sigOpCount = 0 else x.computeBudget = 0)
    (h : inputToKaspa b x = .ok y) : inputToProto y = x := by
  obtain ⟨outpoint, script, sequence, sigOps, budget⟩ := x
  obtain ⟨op, rfl⟩ := hop
  obtain ⟨hop, hmass, hscript, hseq⟩ := inputToKaspa_eq_ok.mp h
  obtain ⟨hid, hindex⟩ := outpointToKaspa_some_eq_ok.mp hop
  obtain ⟨hkind, hbudget, hsig⟩ := inputMassToKaspa_eq_ok.mp hmass
  have hfields : (y.mass.sigOpCount?.getD 0).toUInt32 = sigOps ∧
      (y.mass.computeBudget?.getD 0).toUInt32 = budget := by
    cases hm : y.mass with
    | sigOpCount n =>
      rw [hm] at hkind
      subst hkind
      exact ⟨hsig n hm, hzero.symm⟩
    | computeBudget n =>
      rw [hm] at hkind
      subst hkind
      exact ⟨hzero.symm, hbudget n hm⟩
  simp only [inputToProto, hid, hindex, hscript, hseq, hfields.1, hfields.2]

/-- An input whose mass matches the version is read back as it was. -/
theorem inputToKaspa_inputToProto {b : Bool} {y : TransactionInput}
    (h : MassMatches b y) : inputToKaspa b (inputToProto y) = .ok y := by
  refine inputToKaspa_eq_ok.mpr ⟨outpointToKaspa_some_eq_ok.mpr ⟨rfl, rfl⟩, ?_, rfl, rfl⟩
  refine inputMassToKaspa_eq_ok.mpr ⟨h, ?_, ?_⟩
  · intro n hn
    simp [inputToProto, hn, TxInputMass.computeBudget?]
  · intro n hn
    simp [inputToProto, hn, TxInputMass.sigOpCount?]

-- ---------------------------------------------------------------------------
-- Transactions
-- ---------------------------------------------------------------------------

/-- Some input's outpoint id panics and every input before it converts. -/
def InputsPanic (expectsComputeBudget : Bool) (inputs : List Proto.TransactionInput) : Prop :=
  ∃ pre x post, inputs = pre ++ x :: post ∧
    (∀ p ∈ pre, ¬ BadOutpoint p ∧ MassFits expectsComputeBudget p) ∧ BadOutpoint x

/-- The message's transaction converts: nothing panics and every width fits. -/
def TransactionConverts (K : Consensus) (protoTx : Proto.Transaction) : Prop :=
  ∃ version, tryU16 protoTx.version = some version ∧
    (∀ i ∈ protoTx.inputs, ¬ BadOutpoint i ∧
      MassFits (K.versionExpectsComputeBudgetField version) i) ∧
    (∀ o ∈ protoTx.outputs, ScriptConverts o.scriptPublicKey) ∧
    (protoTx.subnetworkId.length = 20 ∨ protoTx.subnetworkId.length = 0)

theorem subnetworkToKaspa_ne_panicked (bs : List UInt8) : subnetworkToKaspa bs ≠ .panicked := by
  unfold subnetworkToKaspa
  split
  · simp
  · split <;> simp

theorem exists_subnetworkToKaspa_eq_ok {bs : List UInt8} :
    (∃ lane, subnetworkToKaspa bs = .ok lane) ↔ bs.length = 20 ∨ bs.length = 0 := by
  unfold subnetworkToKaspa
  cases h : FixedBytes.fromSlice? 20 bs with
  | some lane =>
    have hlen : bs.length = 20 := by
      rw [← FixedBytes.fromSlice?_eq_some.mp h, lane.size]
    simp [hlen]
  | none =>
    have hlen := FixedBytes.fromSlice?_eq_none.mp h
    by_cases h0 : bs.length = 0 <;> simp [h0, hlen]

theorem subnetworkToKaspa_bytes (lane : SubnetworkId) :
    subnetworkToKaspa lane.bytes = .ok lane := by
  rw [subnetworkToKaspa, FixedBytes.fromSlice?_bytes]

theorem bytes_of_subnetworkToKaspa {bs : List UInt8} {lane : SubnetworkId}
    (hlen : bs.length = 20) (h : subnetworkToKaspa bs = .ok lane) : lane.bytes = bs := by
  unfold subnetworkToKaspa at h
  cases hs : FixedBytes.fromSlice? 20 bs with
  | some l =>
    rw [hs] at h
    rw [← Outcome.ok.inj h]
    exact FixedBytes.fromSlice?_eq_some.mp hs
  | none => exact absurd hlen (FixedBytes.fromSlice?_eq_none.mp hs)

/-- **`proto_transaction_to_kaspa`, success.** Every part converts, and the result
is `Transaction::new` of the parts: the message's own mass and id are not read. -/
theorem protoTransactionToKaspa_eq_ok {K : Consensus} {protoTx : Proto.Transaction}
    {tx : Transaction} :
    protoTransactionToKaspa K protoTx = .ok tx ↔
      ∃ version inputs outputs lane,
        tryU16 protoTx.version = some version ∧
        Outcome.collect (inputToKaspa (K.versionExpectsComputeBudgetField version))
          protoTx.inputs = .ok inputs ∧
        Outcome.collect outputToKaspa protoTx.outputs = .ok outputs ∧
        subnetworkToKaspa protoTx.subnetworkId = .ok lane ∧
        tx = Transaction.new K version inputs outputs protoTx.lockTime lane protoTx.gas
          protoTx.payload := by
  simp only [protoTransactionToKaspa, Outcome.bind_eq_ok, okOr_eq_ok, Outcome.pure_eq,
    Outcome.ok.injEq]
  refine ⟨?_, ?_⟩
  · rintro ⟨version, hv, inputs, hin, outputs, hout, lane, hlane, rfl⟩
    exact ⟨version, inputs, outputs, lane, hv, hin, hout, hlane, rfl⟩
  · rintro ⟨version, inputs, outputs, lane, hv, hin, hout, hlane, rfl⟩
    exact ⟨version, hv, inputs, hin, outputs, hout, lane, hlane, rfl⟩

theorem exists_outputToKaspa_eq_ok {o : Proto.TransactionOutput} :
    (∃ t, outputToKaspa o = .ok t) ↔ ScriptConverts o.scriptPublicKey := by
  rw [← exists_scriptToKaspa_eq_ok]
  refine ⟨?_, ?_⟩
  · intro ⟨t, ht⟩
    exact ⟨t.scriptPublicKey, (outputToKaspa_eq_ok.mp ht).1⟩
  · intro ⟨spk, hspk⟩
    exact ⟨⟨o.value, spk⟩, outputToKaspa_eq_ok.mpr ⟨hspk, rfl⟩⟩

theorem exists_protoTransactionToKaspa_eq_ok {K : Consensus} {protoTx : Proto.Transaction} :
    (∃ tx, protoTransactionToKaspa K protoTx = .ok tx) ↔ TransactionConverts K protoTx := by
  simp only [protoTransactionToKaspa_eq_ok, TransactionConverts,
    ← exists_inputToKaspa_eq_ok, ← exists_outputToKaspa_eq_ok,
    ← exists_subnetworkToKaspa_eq_ok, ← Outcome.exists_collect_eq_ok]
  refine ⟨?_, ?_⟩
  · intro ⟨_, version, inputs, outputs, lane, hv, hin, hout, hlane, _⟩
    exact ⟨version, hv, ⟨inputs, hin⟩, ⟨outputs, hout⟩, lane, hlane⟩
  · intro ⟨version, hv, ⟨inputs, hin⟩, ⟨outputs, hout⟩, lane, hlane⟩
    exact ⟨_, version, inputs, outputs, lane, hv, hin, hout, hlane, rfl⟩

/-- **`proto_transaction_to_kaspa`, panic.** Only an outpoint id panics, and only
once the version and every earlier input have converted. -/
theorem protoTransactionToKaspa_eq_panicked {K : Consensus} {protoTx : Proto.Transaction} :
    protoTransactionToKaspa K protoTx = .panicked ↔
      ∃ version, tryU16 protoTx.version = some version ∧
        InputsPanic (K.versionExpectsComputeBudgetField version) protoTx.inputs := by
  have hout : Outcome.collect outputToKaspa protoTx.outputs ≠ .panicked :=
    Outcome.collect_returns fun o _ => outputToKaspa_ne_panicked o
  simp only [protoTransactionToKaspa, Outcome.bind_eq_panicked, okOr_ne_panicked, false_or,
    okOr_eq_ok, hout, subnetworkToKaspa_ne_panicked, Outcome.pure_eq, reduceCtorEq,
    and_false, exists_false, or_false, Outcome.collect_eq_panicked,
    inputToKaspa_eq_panicked, exists_inputToKaspa_eq_ok, InputsPanic]

/-- What every decoded transaction satisfies, and mining preserves: mass 0, every
input carries the mass field of the version, and the cached id is current. -/
structure WellFormed (K : Consensus) (tx : Transaction) : Prop where
  mass_zero : tx.mass = 0
  inputs_match : ∀ i ∈ tx.inputs,
    MassMatches (K.versionExpectsComputeBudgetField tx.version) i
  id_current : tx.id = K.transactionId tx.toTransactionBody

theorem protoTransactionToKaspa_wellFormed {K : Consensus} {protoTx : Proto.Transaction}
    {tx : Transaction} (h : protoTransactionToKaspa K protoTx = .ok tx) :
    WellFormed K tx := by
  obtain ⟨version, inputs, outputs, lane, -, hin, -, -, rfl⟩ :=
    protoTransactionToKaspa_eq_ok.mp h
  refine ⟨rfl, ?_, rfl⟩
  refine Outcome.forall_of_collect_eq_ok ?_ hin
  intro x _ y hy
  exact (inputMassToKaspa_eq_ok.mp (inputToKaspa_eq_ok.mp hy).2.1).1

/-- **Consensus → proto → consensus.** A well-formed transaction is read back from
its own message, so the id in the message is the id of exactly that message. -/
theorem protoTransactionToKaspa_kaspaTransactionToProto {K : Consensus} {tx : Transaction}
    (h : WellFormed K tx) :
    protoTransactionToKaspa K (kaspaTransactionToProto tx) = .ok tx := by
  refine protoTransactionToKaspa_eq_ok.mpr
    ⟨tx.version, tx.inputs, tx.outputs, tx.subnetworkId, tryU16_toUInt32 _, ?_, ?_,
      subnetworkToKaspa_bytes _, ?_⟩
  · exact Outcome.collect_map_eq_ok fun i hi =>
      inputToKaspa_inputToProto (h.inputs_match i hi)
  · refine Outcome.collect_map_eq_ok fun o _ => outputToKaspa_eq_ok.mpr ⟨?_, rfl⟩
    exact scriptToKaspa_scriptToProto _
  · obtain ⟨⟨version, inputs, outputs, lockTime, lane, gas, payload, mass⟩, id⟩ := tx
    obtain rfl : mass = 0 := h.mass_zero
    have hid : id = K.transactionId
        ⟨version, inputs, outputs, lockTime, lane, gas, payload, 0⟩ := h.id_current
    subst hid
    rfl

-- ---------------------------------------------------------------------------
-- Signable transactions
-- ---------------------------------------------------------------------------

theorem partiallySigned_eq_ok {wst : Proto.WalletSignableTransaction}
    {st : Proto.SignableTransaction} :
    partiallySigned wst = .ok st ↔ wst.transaction = some ⟨some (.partially st)⟩ := by
  obtain ⟨_ | ⟨_ | signed⟩, other⟩ := wst
  · simp [partiallySigned, okOr]
  · simp [partiallySigned, okOr]
  · cases signed <;> simp [partiallySigned, okOr]

theorem partiallySigned_ne_panicked (wst : Proto.WalletSignableTransaction) :
    partiallySigned wst ≠ .panicked := by
  obtain ⟨_ | ⟨_ | signed⟩, other⟩ := wst
  · simp [partiallySigned, okOr]
  · simp [partiallySigned, okOr]
  · cases signed <;> simp [partiallySigned, okOr]

/-- The messages `proto_to_signable_transaction` panics on: an outpoint id of a
length other than 32, reached with everything before it converted, or a message
that converts but whose present entries differ in number from its inputs. -/
def DecodePanics (K : Consensus) (wst : Proto.WalletSignableTransaction) : Prop :=
  ∃ st protoTx, wst.transaction = some ⟨some (.partially st)⟩ ∧ st.tx = some protoTx ∧
    ((∃ version, tryU16 protoTx.version = some version ∧
        InputsPanic (K.versionExpectsComputeBudgetField version) protoTx.inputs) ∨
      (TransactionConverts K protoTx ∧
        (∀ e ∈ presentEntries st, ScriptConverts e.scriptPublicKey) ∧
        (presentEntries st).length ≠ protoTx.inputs.length))

theorem exists_entryToKaspa_eq_ok {e : Proto.UtxoEntry} :
    (∃ u, entryToKaspa e = .ok u) ↔ ScriptConverts e.scriptPublicKey := by
  rw [← exists_scriptToKaspa_eq_ok]
  refine ⟨?_, ?_⟩
  · intro ⟨u, hu⟩
    exact ⟨u.scriptPublicKey, (entryToKaspa_eq_ok.mp hu).1⟩
  · intro ⟨spk, hspk⟩
    exact ⟨⟨e.amount, spk, e.blockDaaScore, e.isCoinbase, none⟩,
      entryToKaspa_eq_ok.mpr ⟨hspk, rfl, rfl, rfl, rfl⟩⟩

/-- **`proto_signable_to_kaspa`, success.** -/
theorem protoSignableToKaspa_eq_ok {K : Consensus} {st : Proto.SignableTransaction}
    {sig : SignableTransaction} :
    protoSignableToKaspa K st = .ok sig ↔
      ∃ protoTx tx entries, st.tx = some protoTx ∧
        protoTransactionToKaspa K protoTx = .ok tx ∧
        Outcome.collect entryToKaspa (presentEntries st) = .ok entries ∧
        entries.length = tx.inputs.length ∧
        sig = ⟨tx, entries.map some, st.calculatedFee,
          st.calculatedNonContextualMasses.map massesToKaspa⟩ := by
  simp only [protoSignableToKaspa, Outcome.bind_eq_ok, okOr_eq_ok, withEntries_eq_ok,
    Outcome.pure_eq, Outcome.ok.injEq]
  refine ⟨?_, ?_⟩
  · rintro ⟨protoTx, htx, tx, hdec, entries, hent, st', ⟨hlen, rfl⟩, rfl⟩
    exact ⟨protoTx, tx, entries, htx, hdec, hent, hlen, rfl⟩
  · rintro ⟨protoTx, tx, entries, htx, hdec, hent, hlen, rfl⟩
    exact ⟨protoTx, htx, tx, hdec, entries, hent, _, ⟨hlen, rfl⟩, rfl⟩

theorem protoTransactionToKaspa_inputs_length {K : Consensus} {protoTx : Proto.Transaction}
    {tx : Transaction} (h : protoTransactionToKaspa K protoTx = .ok tx) :
    tx.inputs.length = protoTx.inputs.length := by
  obtain ⟨version, inputs, outputs, lane, -, hin, -, -, rfl⟩ :=
    protoTransactionToKaspa_eq_ok.mp h
  exact Outcome.collect_length hin

theorem protoToSignableTransaction_eq_ok {K : Consensus}
    {wst : Proto.WalletSignableTransaction} {sig : SignableTransaction} :
    protoToSignableTransaction K wst = .ok sig ↔
      ∃ st, wst.transaction = some ⟨some (.partially st)⟩ ∧
        protoSignableToKaspa K st = .ok sig := by
  simp only [protoToSignableTransaction, Outcome.bind_eq_ok, partiallySigned_eq_ok]

/-- **`proto_to_signable_transaction`, panic.** Decoding panics on `DecodePanics`
and on nothing else. -/
theorem protoToSignableTransaction_eq_panicked {K : Consensus}
    {wst : Proto.WalletSignableTransaction} :
    protoToSignableTransaction K wst = .panicked ↔ DecodePanics K wst := by
  have hentries : ∀ st, Outcome.collect entryToKaspa (presentEntries st) ≠ .panicked :=
    fun st => Outcome.collect_returns fun e _ => entryToKaspa_ne_panicked e
  simp only [protoToSignableTransaction, protoSignableToKaspa, Outcome.bind_eq_panicked,
    partiallySigned_ne_panicked, false_or, partiallySigned_eq_ok, okOr_ne_panicked,
    okOr_eq_ok, protoTransactionToKaspa_eq_panicked, hentries, withEntries_eq_panicked,
    Outcome.pure_eq, reduceCtorEq, and_false, exists_false, or_false, DecodePanics]
  refine ⟨?_, ?_⟩
  · rintro ⟨st, hst, protoTx, htx, hpanic | ⟨tx, hdec, entries, hent, hlen⟩⟩
    · exact ⟨st, protoTx, hst, htx, Or.inl hpanic⟩
    · refine ⟨st, protoTx, hst, htx, Or.inr ⟨?_, ?_, ?_⟩⟩
      · exact exists_protoTransactionToKaspa_eq_ok.mp ⟨tx, hdec⟩
      · intro e he
        exact exists_entryToKaspa_eq_ok.mp (Outcome.exists_collect_eq_ok.mp ⟨_, hent⟩ e he)
      · rwa [← Outcome.collect_length hent, ← protoTransactionToKaspa_inputs_length hdec]
  · rintro ⟨st, protoTx, hst, htx, hpanic | ⟨hconv, hents, hlen⟩⟩
    · exact ⟨st, hst, protoTx, htx, Or.inl hpanic⟩
    · obtain ⟨tx, hdec⟩ := exists_protoTransactionToKaspa_eq_ok.mpr hconv
      obtain ⟨entries, hent⟩ := Outcome.exists_collect_eq_ok.mpr
        fun e he => exists_entryToKaspa_eq_ok.mpr (hents e he)
      refine ⟨st, hst, protoTx, htx, Or.inr ⟨tx, hdec, entries, hent, ?_⟩⟩
      rwa [Outcome.collect_length hent, protoTransactionToKaspa_inputs_length hdec]

/-- A decoded message holds a well-formed transaction, with no covenant ids. -/
theorem protoToSignableTransaction_wellFormed {K : Consensus}
    {wst : Proto.WalletSignableTransaction} {sig : SignableTransaction}
    (h : protoToSignableTransaction K wst = .ok sig) :
    WellFormed K sig.tx ∧ ∀ u, some u ∈ sig.entries → u.covenantId = none := by
  obtain ⟨st, -, hst⟩ := protoToSignableTransaction_eq_ok.mp h
  obtain ⟨protoTx, tx, entries, -, hdec, hent, -, rfl⟩ := protoSignableToKaspa_eq_ok.mp hst
  refine ⟨protoTransactionToKaspa_wellFormed hdec, ?_⟩
  intro u hu
  obtain ⟨v, hv, rfl⟩ : ∃ v ∈ entries, v = u := by simpa using hu
  exact Outcome.forall_of_collect_eq_ok
    (fun e _ w hw => (entryToKaspa_eq_ok.mp hw).2.2.2.2) hent v hv

-- ---------------------------------------------------------------------------
-- Writing back
-- ---------------------------------------------------------------------------

/-- `update_proto_with_mined_transaction` succeeds and puts the mined transaction
and its id in place of the daemon's. -/
theorem updateProtoWithMinedTransaction_eq_ok {wst wst' : Proto.WalletSignableTransaction}
    {sig : SignableTransaction} :
    updateProtoWithMinedTransaction wst sig = .ok wst' ↔
      wst.transaction.isSome = true ∧ ∃ entries,
        Outcome.collect entryToProto sig.entries = .ok entries ∧
        wst' = { wst with transaction := some ⟨some (.partially
          ⟨some (kaspaTransactionToProto sig.tx), entries, sig.calculatedFee,
            sig.calculatedNonContextualMasses.map massesToProto⟩)⟩ } := by
  simp only [updateProtoWithMinedTransaction, kaspaSignableToProto, Outcome.bind_eq_ok,
    okOr_eq_ok, Outcome.pure_eq, Outcome.ok.injEq, Option.isSome_iff_exists]
  refine ⟨?_, ?_⟩
  · rintro ⟨t, ht, st, ⟨entries, hent, rfl⟩, rfl⟩
    exact ⟨⟨t, ht⟩, entries, hent, rfl⟩
  · rintro ⟨⟨t, ht⟩, entries, hent, rfl⟩
    exact ⟨t, ht, _, ⟨entries, hent, rfl⟩, rfl⟩

theorem entryToProto_ne_panicked (e : Option UtxoEntry) : entryToProto e ≠ .panicked := by
  cases e with
  | none => simp [entryToProto]
  | some u => cases hc : u.covenantId <;> simp [entryToProto, hc]

/-- Writing back never panics. -/
theorem updateProtoWithMinedTransaction_ne_panicked (wst : Proto.WalletSignableTransaction)
    (sig : SignableTransaction) : updateProtoWithMinedTransaction wst sig ≠ .panicked := by
  have hentries : Outcome.collect entryToProto sig.entries ≠ .panicked :=
    Outcome.collect_returns fun e _ => entryToProto_ne_panicked e
  simp [updateProtoWithMinedTransaction, kaspaSignableToProto, Outcome.bind_eq_panicked,
    hentries]

end IgraRpc
