import IgraRpc.Services.AcceptedTransactions

/-!
# The two readings of a transaction's type — `services/transaction.rs`

`parse_rlp_transaction` decides the type twice on the same bytes:
`detect_transaction_type` looks at the first byte, with one threshold at `0x80`, and
Alloy's decoder reads the framing.

* `parse_txType_iff` — the two agree, a blob is never parsed and no fee check meets an
  envelope it does not expect, **exactly when the bytes are not an RLP string**;
* `wrappedBlob_parsed` — a blob transaction behind a string header passes the blob
  filter, as legacy.
-/

namespace IgraRpc

open Lib

/-- How Alloy frames a transaction: an RLP list is a legacy transaction, a bare type byte
stands before a transaction of that type, and an RLP string holds a typed transaction. -/
structure Alloy.Frames (alloy : Alloy) : Prop where
  list : ∀ {firstByte body tx rest}, alloy.decode (firstByte :: body) = .ok (tx, rest) →
    0xc0 ≤ firstByte → tx.txType = TxTypes.LEGACY
  typed : ∀ {firstByte body tx rest}, alloy.decode (firstByte :: body) = .ok (tx, rest) →
    firstByte < 0x80 → tx.txType = firstByte
  wrapped : ∀ {firstByte body tx rest}, alloy.decode (firstByte :: body) = .ok (tx, rest) →
    0x80 ≤ firstByte → firstByte < 0xc0 → tx.txType ≠ TxTypes.LEGACY

/-- The fee checks refuse an envelope of a type they do not expect: the last branch of
`validate_legacy_or_eip2930`, and that of `validate_eip1559`. -/
def UnexpectedEnvelope (tx : TxEnvelope) (minProtocolFee : Nat) (txType : UInt8) : Prop :=
  validateGasFeeWithType tx minProtocolFee txType =
      .error (.invalidTransactionFormat
        s!"{getTransactionTypeName txType} transaction has unexpected envelope type") ∨
    validateGasFeeWithType tx minProtocolFee txType =
      .error (.invalidTransactionFormat
        "transaction has unexpected envelope type (expected EIP-1559 or EIP-7702)")

/-- What `parse_rlp_transaction` promises of its result: a supported type, the
envelope's own, no blob, and an envelope that every fee check expects. -/
structure TypesAgree (tx : TxEnvelope) (txType : UInt8) : Prop where
  envelope : txType = tx.txType
  supported : txType = TxTypes.LEGACY ∨ txType = TxTypes.EIP2930 ∨
    txType = TxTypes.EIP1559 ∨ txType = TxTypes.EIP7702
  notBlob : ∀ signed, tx ≠ .eip4844 signed
  expected : ∀ minProtocolFee, ¬UnexpectedEnvelope tx minProtocolFee txType

theorem detectTransactionType_of_typed {firstByte : UInt8} (h : firstByte < 0x80)
    (body : List UInt8) : detectTransactionType (firstByte :: body) = .ok firstByte := by
  rw [detectTransactionType, if_pos h]

theorem detectTransactionType_of_not_typed {firstByte : UInt8} (h : 0x80 ≤ firstByte)
    (body : List UInt8) :
    detectTransactionType (firstByte :: body) = .ok TxTypes.LEGACY := by
  rw [detectTransactionType, if_neg (UInt8.not_lt.mpr h)]

/-- On bare bytes the first byte tells the type that Alloy decodes. -/
theorem Alloy.Frames.detect_of_bare {alloy : Alloy} (hframes : alloy.Frames)
    {data rest : List UInt8} {tx : TxEnvelope} (hdecode : alloy.decode data = .ok (tx, rest))
    (hbare : IsBare data) : detectTransactionType data = .ok tx.txType := by
  cases data with
  | nil => exact hbare.elim
  | cons firstByte body =>
    rcases hbare with htyped | hlist
    · rw [detectTransactionType_of_typed htyped, hframes.typed hdecode htyped]
    · have hhigh : 0x80 ≤ firstByte := UInt8.le_trans (by decide) hlist
      rw [detectTransactionType_of_not_typed hhigh, hframes.list hdecode hlist]

/-- On an RLP string it tells legacy, which Alloy never decodes there. -/
theorem Alloy.Frames.detect_of_wrapped {alloy : Alloy} (hframes : alloy.Frames)
    {data rest : List UInt8} {tx : TxEnvelope} {txType : UInt8}
    (hdecode : alloy.decode data = .ok (tx, rest))
    (hdetect : detectTransactionType data = .ok txType) (hwrapped : ¬IsBare data) :
    txType ≠ tx.txType := by
  cases data with
  | nil => exact absurd hdetect (by simp [detectTransactionType])
  | cons firstByte body =>
    have hrange : ¬(firstByte < 0x80 ∨ 0xc0 ≤ firstByte) := hwrapped
    rw [not_or] at hrange
    have hhigh : 0x80 ≤ firstByte := UInt8.not_lt.mp hrange.1
    have hlow : firstByte < 0xc0 := UInt8.not_le.mp hrange.2
    rw [detectTransactionType_of_not_typed hhigh] at hdetect
    rw [← Except.ok.inj hdetect]
    exact (hframes.wrapped hdecode hhigh hlow).symm

theorem validateGasPrice_ne_format (gasPrice minProtocolFee : Nat) (text : String) :
    validateGasPrice gasPrice minProtocolFee ≠ .error (.invalidTransactionFormat text) := by
  unfold validateGasPrice
  split <;> simp [insufficientGasFee]

theorem validateDynamicFees_ne_format (maxFee priorityFee minProtocolFee : Nat)
    (text : String) :
    validateDynamicFees maxFee priorityFee minProtocolFee ≠
      .error (.invalidTransactionFormat text) := by
  unfold validateDynamicFees
  split
  · simp
  · split
    · simp [insufficientGasFee]
    · split <;> simp [insufficientGasFee]

theorem validateGasFeeWithType_of_static {txType : UInt8}
    (h : txType = TxTypes.LEGACY ∨ txType = TxTypes.EIP2930) (tx : TxEnvelope)
    (minProtocolFee : Nat) :
    validateGasFeeWithType tx minProtocolFee txType =
      validateLegacyOrEip2930 tx minProtocolFee txType := if_pos h

theorem validateGasFeeWithType_of_dynamic {txType : UInt8}
    (h : txType = TxTypes.EIP1559 ∨ txType = TxTypes.EIP7702) (tx : TxEnvelope)
    (minProtocolFee : Nat) :
    validateGasFeeWithType tx minProtocolFee txType = validateEip1559 tx minProtocolFee := by
  have hstatic : ¬(txType = TxTypes.LEGACY ∨ txType = TxTypes.EIP2930) := by
    rcases h with rfl | rfl <;> decide
  rw [validateGasFeeWithType, if_neg hstatic, if_pos h]

/-- An envelope that the label fits is only ever refused for its fees. -/
theorem validateGasFeeWithType_ne_format {tx : TxEnvelope} {txType : UInt8}
    (hfits : LabelFits txType tx) (minProtocolFee : Nat) (text : String) :
    validateGasFeeWithType tx minProtocolFee txType ≠
      .error (.invalidTransactionFormat text) := by
  cases tx with
  | legacy gasPrice signed =>
    rw [validateGasFeeWithType_of_static hfits]
    exact validateGasPrice_ne_format gasPrice minProtocolFee text
  | eip2930 gasPrice signed =>
    rw [validateGasFeeWithType_of_static hfits]
    exact validateGasPrice_ne_format gasPrice minProtocolFee text
  | eip1559 maxFee priorityFee signed =>
    rw [validateGasFeeWithType_of_dynamic hfits]
    exact validateDynamicFees_ne_format maxFee priorityFee minProtocolFee text
  | eip4844 signed => exact hfits.elim
  | eip7702 maxFee priorityFee signed =>
    rw [validateGasFeeWithType_of_dynamic hfits]
    exact validateDynamicFees_ne_format maxFee priorityFee minProtocolFee text

/-- Under its own type, supported, an envelope is the one its fee check expects. -/
theorem typesAgree_of_eq {tx : TxEnvelope} {txType : UInt8} (htype : txType = tx.txType)
    (hsupported : ¬UnsupportedType txType) : TypesAgree tx txType := by
  have hexpected : LabelFits txType tx →
      ∀ minProtocolFee, ¬UnexpectedEnvelope tx minProtocolFee txType := by
    intro hfits minProtocolFee hunexpected
    rcases hunexpected with hstatic | hdynamic
    · exact validateGasFeeWithType_ne_format hfits minProtocolFee _ hstatic
    · exact validateGasFeeWithType_ne_format hfits minProtocolFee _ hdynamic
  subst htype
  cases tx with
  | legacy => exact ⟨rfl, Or.inl rfl, by simp, hexpected (Or.inl rfl)⟩
  | eip2930 => exact ⟨rfl, Or.inr (Or.inl rfl), by simp, hexpected (Or.inr rfl)⟩
  | eip1559 => exact ⟨rfl, Or.inr (Or.inr (Or.inl rfl)), by simp, hexpected (Or.inl rfl)⟩
  | eip4844 => exact absurd (Or.inl rfl) hsupported
  | eip7702 => exact ⟨rfl, Or.inr (Or.inr (Or.inr rfl)), by simp, hexpected (Or.inr rfl)⟩

/-- **When the two readings agree.** For every byte string that parses, the type returned
is that of the decoded envelope, which is no blob and which every fee check expects,
exactly when the bytes do not start with an RLP string header. -/
theorem parse_txType_iff {alloy : Alloy} (hframes : alloy.Frames) {data : List UInt8}
    {tx : TxEnvelope} {txType : UInt8} (h : parseRlpTransaction alloy data = .ok (tx, txType)) :
    TypesAgree tx txType ↔ IsBare data := by
  obtain ⟨-, hdetect, hsupported, rest, hdecode⟩ := parseRlpTransaction_eq_ok.mp h
  refine ⟨?_, ?_⟩
  · intro hagree
    by_contra hwrapped
    exact hframes.detect_of_wrapped hdecode hdetect hwrapped hagree.envelope
  · intro hbare
    have hlabel := hframes.detect_of_bare hdecode hbare
    rw [hdetect] at hlabel
    exact typesAgree_of_eq (Except.ok.inj hlabel) hsupported

theorem legacyAlloy_frames : legacyAlloy.Frames where
  list := by
    intro firstByte body tx rest h _
    rw [(legacyAlloy_decode_eq_ok h).1]
    rfl
  typed := by
    intro firstByte body tx rest h htyped
    have hfirst : firstByte = 0xcf :=
      (List.cons.inj (legacyAlloy_decode_eq_ok h).2).1
    exact absurd htyped (by rw [hfirst]; decide)
  wrapped := by
    intro firstByte body tx rest h _ hlow
    have hfirst : firstByte = 0xcf :=
      (List.cons.inj (legacyAlloy_decode_eq_ok h).2).1
    exact absurd hlow (by rw [hfirst]; decide)

theorem parse_txType_iff_legacyTx :
    TypesAgree (.legacy 1000000000 legacyTx) TxTypes.LEGACY ↔ IsBare legacyTx := by
  have hdecode : legacyAlloy.decode legacyTx = .ok (.legacy 1000000000 legacyTx, []) :=
    legacyAlloy_decode []
  exact parse_txType_iff legacyAlloy_frames
    (parseRlpTransaction_eq_ok.mpr ⟨by decide, rfl, by decide, [], hdecode⟩)

-- ---------------------------------------------------------------------------
-- A blob behind a string header
-- ---------------------------------------------------------------------------

/-- A blob transaction: chain 1, no fees, no blobs, the zero address, `r = s = 1`. -/
def blobTx : List UInt8 :=
  [0x03, 0xe2, 0x01, 0x80, 0x80, 0x80, 0x80, 0x94, 0x00, 0x00, 0x00, 0x00, 0x00, 0x00, 0x00,
    0x00, 0x00, 0x00, 0x00, 0x00, 0x00, 0x00, 0x00, 0x00, 0x00, 0x00, 0x00, 0x00, 0x80, 0x80,
    0xc0, 0x80, 0xc0, 0x80, 0x01, 0x01]

/-- The same behind its RLP string header. -/
def wrappedBlob : List UInt8 := 0xa4 :: blobTx

/-- Alloy on `blobTx`, bare or wrapped. -/
def blobAlloy : Alloy :=
  { legacyAlloy with
    decode := fun data =>
      if data = blobTx ∨ data = wrappedBlob then .ok (.eip4844 blobTx, [])
      else .error "unexpected list" }

theorem blobAlloy_decode_eq_ok {data rest : List UInt8} {tx : TxEnvelope}
    (h : blobAlloy.decode data = .ok (tx, rest)) :
    tx = .eip4844 blobTx ∧ (data = blobTx ∨ data = wrappedBlob) := by
  by_cases hdata : data = blobTx ∨ data = wrappedBlob
  · have hok : blobAlloy.decode data = .ok (.eip4844 blobTx, []) := if_pos hdata
    rw [hok] at h
    exact ⟨(Prod.mk.inj (Except.ok.inj h)).1.symm, hdata⟩
  · have herror : blobAlloy.decode data = .error "unexpected list" := if_neg hdata
    rw [herror] at h
    exact absurd h (by simp)

theorem blobAlloy_frames : blobAlloy.Frames where
  list := by
    intro firstByte body tx rest h hlist
    rcases (blobAlloy_decode_eq_ok h).2 with hdata | hdata
    · exact absurd hlist (by rw [(List.cons.inj hdata).1]; decide)
    · exact absurd hlist (by rw [(List.cons.inj hdata).1]; decide)
  typed := by
    intro firstByte body tx rest h htyped
    obtain ⟨rfl, hdata | hdata⟩ := blobAlloy_decode_eq_ok h
    · exact (List.cons.inj hdata).1.symm
    · exact absurd htyped (by rw [(List.cons.inj hdata).1]; decide)
  wrapped := by
    intro firstByte body tx rest h _ _
    rw [(blobAlloy_decode_eq_ok h).1]
    decide

/-- The blob filter lets a wrapped blob transaction through as legacy, and the fee check
then meets an envelope it does not expect. -/
theorem wrappedBlob_parsed :
    blobAlloy.Frames ∧
    parseRlpTransaction blobAlloy wrappedBlob = .ok (.eip4844 blobTx, TxTypes.LEGACY) ∧
    TxTypes.LEGACY ≠ (TxEnvelope.eip4844 blobTx).txType ∧
    UnexpectedEnvelope (.eip4844 blobTx) 1000000000 TxTypes.LEGACY := by
  have hparse : parseRlpTransaction blobAlloy wrappedBlob =
      .ok (.eip4844 blobTx, TxTypes.LEGACY) :=
    parseRlpTransaction_eq_ok.mpr ⟨by decide, rfl, by decide, [], rfl⟩
  exact ⟨blobAlloy_frames, hparse, by decide, Or.inl rfl⟩

end IgraRpc
