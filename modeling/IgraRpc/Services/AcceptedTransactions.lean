import IgraRpc.Services.AcceptPath

/-!
# What an accepted transaction is

* `acceptPath_feeRule` — in every reachable state of the fee cache, what is enqueued
  obeys the fee rule for a base fee of at least the floor, and bare bytes that obey the
  rule are accepted;
* `accepted_hash_iff` — the hash of an accepted submission is the hash of the decoded
  transaction **exactly when the bytes are the transaction's encoding and nothing
  else**. The accept path hashes the bytes it was given, and does not check that the
  decoder read all of them: `trailing_byte_accepted`.
-/

namespace IgraRpc

open Lib

-- ---------------------------------------------------------------------------
-- The fee rule
-- ---------------------------------------------------------------------------

/-- The bytes do not start with an RLP string header. -/
def IsBare : List UInt8 → Prop
  | [] => False
  | firstByte :: _ => firstByte < 0x80 ∨ 0xc0 ≤ firstByte

instance : DecidablePred IsBare
  | [] => inferInstanceAs (Decidable False)
  | _ :: _ => inferInstanceAs (Decidable (_ ∨ _))

/-- The EIP-2718 type of an envelope. -/
def TxEnvelope.txType : TxEnvelope → UInt8
  | .legacy _ _ => TxTypes.LEGACY
  | .eip2930 _ _ => TxTypes.EIP2930
  | .eip1559 _ _ _ => TxTypes.EIP1559
  | .eip4844 _ => TxTypes.BLOB
  | .eip7702 _ _ _ => TxTypes.EIP7702

/-- Bare bytes are decoded as the type they start with: a list as a legacy transaction,
a type byte as that type. -/
def Alloy.DecodesLabel (alloy : Alloy) : Prop :=
  ∀ data tx rest, alloy.decode data = .ok (tx, rest) → IsBare data →
    detectTransactionType data = .ok tx.txType

/-- An envelope that obeys a fee rule has a supported type, which fits it. -/
theorem FeeRule.supported {baseFee : Nat} {tx : TxEnvelope} (h : FeeRule baseFee tx) :
    ¬UnsupportedType tx.txType ∧ LabelFits tx.txType tx := by
  cases tx with
  | legacy => exact ⟨(by decide : ¬UnsupportedType TxTypes.LEGACY), Or.inl rfl⟩
  | eip2930 => exact ⟨(by decide : ¬UnsupportedType TxTypes.EIP2930), Or.inr rfl⟩
  | eip1559 => exact ⟨(by decide : ¬UnsupportedType TxTypes.EIP1559), Or.inl rfl⟩
  | eip4844 => exact absurd h id
  | eip7702 => exact ⟨(by decide : ¬UnsupportedType TxTypes.EIP7702), Or.inr rfl⟩

/-- An accepted submission passed every check. -/
theorem enqueued_checks {alloy : Alloy} {view : FeeView} {uuid : String} {req : RpcRequest}
    {queue : TransactionQueue}
    (h : (processTransaction alloy view uuid req queue).queue.items ≠ queue.items) :
    ∃ txBytes, acceptChecks alloy view req (queueCheck queue) = .ok txBytes ∧
      (processTransaction alloy view uuid req queue).queue.items =
        queue.items ++ [⟨txBytes, submissionId uuid req⟩] := by
  cases hchecks : acceptChecks alloy view req (queueCheck queue) with
  | error fault =>
    have hsame := (processTransaction_of_error hchecks uuid).2.2
    exact absurd (congrArg Channel.items hsame) h
  | ok txBytes => exact ⟨txBytes, rfl, (processTransaction_of_ok hchecks uuid).2.1⟩

/-- What the checks let through decodes, and obeys the fee rule for the base fee the
request got. -/
theorem acceptChecks_feeRule {alloy : Alloy} {view : FeeView} {req : RpcRequest}
    {queueOk : Except AcceptFault Unit} {txBytes : List UInt8}
    (h : acceptChecks alloy view req queueOk = .ok txBytes) :
    ∃ tx rest baseFee, formatCheck req = .ok txBytes ∧
      alloy.decode txBytes = .ok (tx, rest) ∧
      (view.baseFee alloy).result = .ok baseFee ∧ FeeRule baseFee tx := by
  obtain ⟨tx, txType, hformat, hfees, -⟩ := acceptChecks_eq_ok.mp h
  obtain ⟨hbytes, hparse⟩ := formatChecks_eq_ok.mp hformat
  obtain ⟨-, -, -, rest, hdecode⟩ := parseRlpTransaction_eq_ok.mp hparse
  obtain ⟨baseFee, hfee, -, hrule⟩ := feeChecks_eq_ok.mp hfees
  exact ⟨tx, rest, baseFee, hbytes, hdecode, hfee, hrule⟩

/-- Bare bytes of bounded size that decode to an envelope obeying the fee rule are
returned as they are. -/
theorem validateAcceptRequest_complete {alloy : Alloy} (hlabel : alloy.DecodesLabel)
    {view : FeeView} {req : RpcRequest} {txBytes rest : List UInt8} {tx : TxEnvelope}
    {baseFee : Nat} (hbytes : formatCheck req = .ok txBytes) (hbare : IsBare txBytes)
    (hsize : txBytes.length ≤ maxTransactionSize)
    (hdecode : alloy.decode txBytes = .ok (tx, rest))
    (hfee : (view.baseFee alloy).result = .ok baseFee) (hrule : FeeRule baseFee tx)
    (idValue : Value) :
    (validateAcceptRequest alloy view req idValue).result = .ok txBytes := by
  obtain ⟨hsupported, hfits⟩ := hrule.supported
  have htype : detectTransactionType txBytes = .ok tx.txType :=
    hlabel txBytes tx rest hdecode hbare
  have hparse : parseRlpTransaction alloy txBytes = .ok (tx, tx.txType) :=
    parseRlpTransaction_eq_ok.mpr ⟨hsize, htype, hsupported, rest, hdecode⟩
  have hformat : formatChecks alloy req = .ok (txBytes, tx, tx.txType) :=
    formatChecks_eq_ok.mpr ⟨hbytes, hparse⟩
  have hfees : feeChecks alloy view tx tx.txType = .ok () :=
    feeChecks_eq_ok.mpr ⟨baseFee, hfee, hfits, hrule⟩
  rw [validateAcceptRequest_of_wellFormed hformat, hfees]

/-- **Soundness and completeness of the fee check.** In every reachable state of the
fee cache and for every EL: what is enqueued decodes to an envelope that obeys its fee
rule for a base fee of at least the floor; without a base fee nothing is enqueued; and
bare bytes that obey the rule for the base fee in force are accepted. -/
theorem acceptPath_feeRule {alloy : Alloy} (hlabel : alloy.DecodesLabel)
    {config : GasConfig} {w : FeeWorld}
    (hw : (feeCache config alloy.parseBlock).Reachable w) (el : El) (uuid : String)
    (req : RpcRequest) (queue : TransactionQueue) :
    let view : FeeView := ⟨config, el, w.cache, w.now⟩
    let submission := processTransaction alloy view uuid req queue
    (submission.queue.items ≠ queue.items →
      ∃ item tx rest baseFee, submission.queue.items = queue.items ++ [item] ∧
        alloy.decode item.txBytes = .ok (tx, rest) ∧
        (view.baseFee alloy).result = .ok baseFee ∧ config.floor ≤ baseFee ∧
        FeeRule baseFee tx) ∧
    (∀ e, (view.baseFee alloy).result = .error e → submission.queue = queue) ∧
    (∀ txBytes tx rest baseFee idValue, formatCheck req = .ok txBytes → IsBare txBytes →
      1 ≤ txBytes.length → txBytes.length ≤ 131072 →
      alloy.decode txBytes = .ok (tx, rest) → (view.baseFee alloy).result = .ok baseFee →
      FeeRule baseFee tx →
      (validateAcceptRequest alloy view req idValue).result = .ok txBytes) := by
  intro view submission
  refine ⟨?_, ?_, ?_⟩
  · intro hgrown
    obtain ⟨txBytes, hchecks, hitems⟩ := enqueued_checks hgrown
    obtain ⟨tx, rest, baseFee, -, hdecode, hfee, hrule⟩ := acceptChecks_feeRule hchecks
    have hfloor : config.floor ≤ baseFee :=
      getEffectiveBaseFee_ge_floor (feeCache_floor hw) hfee
    exact ⟨_, tx, rest, baseFee, hitems, hdecode, hfee, hfloor, hrule⟩
  · intro e hnone
    cases hchecks : acceptChecks alloy view req (queueCheck queue) with
    | error fault => exact (processTransaction_of_error hchecks uuid).2.2
    | ok txBytes =>
      obtain ⟨-, -, baseFee, -, -, hfee, -⟩ := acceptChecks_feeRule hchecks
      rw [hnone] at hfee
      exact absurd hfee (by simp)
  · intro txBytes tx rest baseFee idValue hbytes hbare _ hsize hdecode hfee hrule
    exact validateAcceptRequest_complete hlabel hbytes hbare hsize hdecode hfee hrule idValue

theorem legacyAlloy_decode_eq_ok {data rest : List UInt8} {tx : TxEnvelope}
    (h : legacyAlloy.decode data = .ok (tx, rest)) :
    tx = .legacy 1000000000 legacyTx ∧ data = legacyTx ++ rest := by
  have hprefix : legacyTx.isPrefixOf data = true := by
    by_contra hno
    have herror : legacyAlloy.decode data = .error "unexpected string" := if_neg hno
    rw [herror] at h
    exact absurd h (by simp)
  obtain ⟨suffix, rfl⟩ := List.isPrefixOf_iff_prefix.mp hprefix
  rw [legacyAlloy_decode] at h
  obtain ⟨rfl, rfl⟩ := Prod.mk.inj (Except.ok.inj h)
  exact ⟨rfl, rfl⟩

theorem legacyAlloy_decodesLabel : legacyAlloy.DecodesLabel := by
  intro data tx rest hdecode _
  obtain ⟨rfl, rfl⟩ := legacyAlloy_decode_eq_ok hdecode
  rfl

/-- A legacy transaction paying exactly the floor is accepted from the first state on. -/
theorem acceptPath_feeRule_legacyTx :
    (validateAcceptRequest legacyAlloy cheapView (sendRawTransaction legacyTx)
      (.int 1)).result = .ok legacyTx := by
  have hw : (feeCache ⟨1⟩ legacyAlloy.parseBlock).Reachable ⟨0, none, [], []⟩ :=
    Lts.reachable_init ⟨rfl, rfl, rfl⟩
  exact (acceptPath_feeRule legacyAlloy_decodesLabel hw cheapEl ""
    (sendRawTransaction legacyTx) Channel.empty).2.2 legacyTx (.legacy 1000000000 legacyTx) []
    1000000000 (.int 1) (sendRawTransaction_formatCheck legacyTx) (by decide) (by decide)
    (by decide) (legacyAlloy_decode []) cheapView_baseFee (Nat.le_refl _)

-- ---------------------------------------------------------------------------
-- The hash
-- ---------------------------------------------------------------------------

/-- The bytes an RLP item takes, by the header at its front. -/
def rlpItemLength : List UInt8 → Nat
  | [] => 0
  | firstByte :: rest =>
    let b := firstByte.toNat
    if b < 0x80 then 1
    else if b < 0xb8 then 1 + (b - 0x80)
    else if b < 0xc0 then 1 + (b - 0xb7) + ofLeBytes (rest.take (b - 0xb7)).reverse
    else if b < 0xf8 then 1 + (b - 0xc0)
    else 1 + (b - 0xf7) + ofLeBytes (rest.take (b - 0xf7)).reverse

/-- The bytes a transaction takes: a list, or a type byte and a list. -/
def transactionLength : List UInt8 → Nat
  | [] => 0
  | firstByte :: rest =>
    if firstByte < 0x80 then 1 + rlpItemLength rest else rlpItemLength (firstByte :: rest)

/-- One transaction is read from the front of a slice. Bare, it is the transaction's
encoding, as long as its header says; otherwise a string header stands before the
encoding. What follows is left unread. -/
structure Alloy.ReadsFront (alloy : Alloy) : Prop where
  bare : ∀ {data rest tx}, alloy.decode data = .ok (tx, rest) → IsBare data →
    data = alloy.encode2718 tx ++ rest ∧
      (alloy.encode2718 tx).length = transactionLength data
  wrapped : ∀ {data rest tx}, alloy.decode data = .ok (tx, rest) → ¬IsBare data →
    ∃ header, header ≠ [] ∧ data = header ++ alloy.encode2718 tx ++ rest

/-- The submitted bytes are the decoded transaction, and the hash is its own. -/
def HashesDecoded (alloy : Alloy) (hash : String) (txBytes : List UInt8) (tx : TxEnvelope) :
    Prop :=
  txBytes = alloy.encode2718 tx ∧ hash = hashText (alloy.keccak256 (alloy.encode2718 tx))

/-- The bytes are the encoding of what they decode to exactly when they are bare and
end with their first transaction. -/
theorem eq_encode2718_iff {alloy : Alloy} (hreads : alloy.ReadsFront)
    {data rest : List UInt8} {tx : TxEnvelope} (h : alloy.decode data = .ok (tx, rest)) :
    data = alloy.encode2718 tx ↔ IsBare data ∧ transactionLength data = data.length := by
  by_cases hbare : IsBare data
  · obtain ⟨hdata, hlength⟩ := hreads.bare h hbare
    have hsplit : data.length = (alloy.encode2718 tx).length + rest.length := by
      rw [← List.length_append, ← hdata]
    refine ⟨?_, ?_⟩
    · intro hexact
      refine ⟨hbare, ?_⟩
      rw [← hlength, ← hexact]
    · intro ⟨_, hends⟩
      have hnil : rest = [] := List.length_eq_zero_iff.mp (by omega)
      rw [hnil, List.append_nil] at hdata
      exact hdata
  · obtain ⟨header, hheader, hdata⟩ := hreads.wrapped h hbare
    refine ⟨?_, ?_⟩
    · intro hexact
      -- a header in front makes the bytes longer than the encoding
      have hpos : 0 < header.length := List.length_pos_iff.mpr hheader
      have hlength := congrArg List.length hdata
      rw [List.length_append, List.length_append] at hlength
      have hsame := congrArg List.length hexact
      omega
    · intro ⟨hbare', _⟩
      exact absurd hbare' hbare

/-- A submission answered with a hash passed every check. -/
theorem accepted_checks {alloy : Alloy} {view : FeeView} {uuid : String} {req : RpcRequest}
    {queue : TransactionQueue} {hash : String}
    (h : (processTransaction alloy view uuid req queue).response.get "result" =
      some (.string hash)) :
    ∃ txBytes, acceptChecks alloy view req (queueCheck queue) = .ok txBytes ∧
      hash = hashText (alloy.keccak256 txBytes) ∧
      (processTransaction alloy view uuid req queue).queue.items =
        queue.items ++ [⟨txBytes, submissionId uuid req⟩] := by
  cases hchecks : acceptChecks alloy view req (queueCheck queue) with
  | error fault =>
    rw [(processTransaction_of_error hchecks uuid).2.1] at h
    exact absurd h (by simp)
  | ok txBytes =>
    obtain ⟨hresponse, hitems, -⟩ := processTransaction_of_ok hchecks uuid
    rw [hresponse] at h
    have hresult : some (Value.string (hashText (computeTransactionHash alloy txBytes))) =
        some (Value.string hash) := h
    exact ⟨txBytes, rfl, (Value.string.inj (Option.some.inj hresult)).symm, hitems⟩

/-- **When the accepted hash is the transaction's.** For every accepted submission the
bytes enqueued are the encoding of the decoded transaction, and the hash returned its
own, exactly when the bytes do not start with a string header and are as long as the
header at their front says. -/
theorem accepted_hash_iff {alloy : Alloy} (hreads : alloy.ReadsFront) {view : FeeView}
    {uuid : String} {req : RpcRequest} {queue : TransactionQueue} {hash : String}
    (haccepted : (processTransaction alloy view uuid req queue).response.get "result" =
      some (.string hash)) :
    ∃ txBytes tx rest, formatCheck req = .ok txBytes ∧
      alloy.decode txBytes = .ok (tx, rest) ∧
      (processTransaction alloy view uuid req queue).queue.items =
        queue.items ++ [⟨txBytes, submissionId uuid req⟩] ∧
      (HashesDecoded alloy hash txBytes tx ↔
        IsBare txBytes ∧ transactionLength txBytes = txBytes.length) := by
  obtain ⟨txBytes, hchecks, hhash, hitems⟩ := accepted_checks haccepted
  obtain ⟨tx, rest, -, hbytes, hdecode, -, -⟩ := acceptChecks_feeRule hchecks
  refine ⟨txBytes, tx, rest, hbytes, hdecode, hitems, ?_⟩
  have hencoding := eq_encode2718_iff hreads hdecode
  refine ⟨?_, ?_⟩
  · intro hashes
    exact hencoding.mp hashes.1
  · intro hframe
    have hexact := hencoding.mpr hframe
    exact ⟨hexact, by rw [hhash, ← hexact]⟩

theorem legacyAlloy_readsFront : legacyAlloy.ReadsFront where
  bare := by
    intro data rest tx h _
    obtain ⟨rfl, rfl⟩ := legacyAlloy_decode_eq_ok h
    exact ⟨rfl, rfl⟩
  wrapped := by
    intro data rest tx h hwrapped
    obtain ⟨rfl, rfl⟩ := legacyAlloy_decode_eq_ok h
    exact absurd (Or.inr (by decide)) hwrapped

/-- Different hashes have different texts. -/
theorem hashText_inj {a b : FixedBytes 32} (h : hashText a = hashText b) : a = b := by
  have hbytes : strBytes (hexEncode a.bytes) = strBytes (hexEncode b.bytes) := by
    have htext := congrArg strBytes h
    rw [hashText, hashText, strBytes_append, strBytes_append] at htext
    exact List.append_cancel_left htext
  have hdecode : hexDecode (strBytes (hexEncode a.bytes)) = .ok b.bytes := by
    rw [hbytes, hexDecode_hexEncode]
  rw [hexDecode_hexEncode] at hdecode
  exact FixedBytes.ext (Except.ok.inj hdecode)

/-- The transaction is accepted with any byte behind it. -/
theorem legacyTx_accepted {rest : List UInt8} (h : rest.length ≤ 1) :
    (processTransaction legacyAlloy cheapView "" (sendRawTransaction (legacyTx ++ rest))
      Channel.empty).response.get "result" =
        some (.string (hashText (legacyAlloy.keccak256 (legacyTx ++ rest)))) := by
  have hchecks : acceptChecks legacyAlloy cheapView (sendRawTransaction (legacyTx ++ rest))
      (queueCheck Channel.empty) = .ok (legacyTx ++ rest) :=
    acceptChecks_eq_ok.mpr ⟨_, _, legacyTx_formatChecks h, legacyTx_feeChecks, rfl⟩
  rw [(processTransaction_of_ok hchecks "").1]
  rfl

theorem accepted_hash_iff_legacyTx :
    ∃ txBytes tx rest, formatCheck (sendRawTransaction legacyTx) = .ok txBytes ∧
      legacyAlloy.decode txBytes = .ok (tx, rest) ∧
      (processTransaction legacyAlloy cheapView "" (sendRawTransaction legacyTx)
        Channel.empty).queue.items = [⟨txBytes, .int 1⟩] ∧
      (HashesDecoded legacyAlloy (hashText (legacyAlloy.keccak256 legacyTx)) txBytes tx ↔
        IsBare txBytes ∧ transactionLength txBytes = txBytes.length) := by
  have haccepted : (processTransaction legacyAlloy cheapView ""
      (sendRawTransaction legacyTx) Channel.empty).response.get "result" =
        some (.string (hashText (legacyAlloy.keccak256 legacyTx))) :=
    legacyTx_accepted (Nat.zero_le 1)
  exact accepted_hash_iff legacyAlloy_readsFront haccepted

/-- A zero byte behind the transaction is accepted and hashed with it: the hash returned
is not the hash of the transaction that was validated. -/
theorem trailing_byte_accepted :
    (processTransaction legacyAlloy cheapView "" (sendRawTransaction (legacyTx ++ [0]))
        Channel.empty).response.get "result" =
      some (.string (hashText (legacyAlloy.keccak256 (legacyTx ++ [0])))) ∧
    legacyAlloy.decode (legacyTx ++ [0]) = .ok (.legacy 1000000000 legacyTx, [0]) ∧
    ¬HashesDecoded legacyAlloy (hashText (legacyAlloy.keccak256 (legacyTx ++ [0])))
      (legacyTx ++ [0]) (.legacy 1000000000 legacyTx) ∧
    hashText (legacyAlloy.keccak256 (legacyTx ++ [0])) ≠
      hashText (legacyAlloy.keccak256 legacyTx) := by
  have hlength : [(0 : UInt8)].length ≤ 1 := Nat.le_refl 1
  refine ⟨legacyTx_accepted hlength, legacyAlloy_decode [0], ?_, ?_⟩
  · intro hashes
    exact absurd hashes.1 (by decide)
  · intro hsame
    exact absurd (hashText_inj hsame) (by decide)

end IgraRpc
