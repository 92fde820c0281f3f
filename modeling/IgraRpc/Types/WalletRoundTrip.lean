import IgraRpc.Types.WalletCodec

/-!
# Decode, renew the nonce, write back

The path of the last unsigned transaction through the provider: the daemon's
message is decoded, mining changes nothing but the nonce bytes of the payload and
the id, and the result replaces the daemon's transaction.

* `update_after_decode` — what comes back, for every canonical message: the
  daemon's own message with the new nonce and id, and with **mass 0**;
* `roundTrips_iff` — so the message is preserved exactly when its integers fit
  the consensus widths and its mass is 0.

A decoded transaction starts from `Transaction::new`, whose mass is 0, and
nothing copies the message's mass into it. The writer does write the mass.
-/

namespace IgraRpc

open Lib

variable {K : Consensus}

/-- Change the payload's nonce bytes, recompute the id, and nothing else. -/
def renonce (K : Consensus) (sig : SignableTransaction) (nonce : FixedBytes 4) :
    SignableTransaction :=
  { sig with
    tx := Transaction.finalize K
      { sig.tx with payload := writeTail sig.tx.payload nonce.bytes } }

/-- The daemon's message with new nonce bytes and a new id, equal to it otherwise. -/
def withNonceAndId (wst : Proto.WalletSignableTransaction) (st : Proto.SignableTransaction)
    (protoTx : Proto.Transaction) (nonce : FixedBytes 4) (id : TransactionId) :
    Proto.WalletSignableTransaction :=
  let renewed : Proto.Transaction :=
    { protoTx with payload := writeTail protoTx.payload nonce.bytes, id := id.bytes }
  { wst with transaction := some ⟨some (.partially { st with tx := some renewed })⟩ }

/-- A present script in lowercase hex. -/
def CanonicalScript (script : Option Proto.ScriptPublicKey) : Prop :=
  ∃ spk, script = some spk ∧ LowerHex (strBytes spk.scriptPublicKey)

/-- A partially signed message with every optional part present and canonical:
32-byte outpoint ids, one entry per input, lowercase script hex, a 20-byte
subnetwork id, and zero in the mass field the version does not use. -/
structure Canonical (K : Consensus) (wst : Proto.WalletSignableTransaction)
    (st : Proto.SignableTransaction) (protoTx : Proto.Transaction) : Prop where
  partially_signed : wst.transaction = some ⟨some (.partially st)⟩
  tx_present : st.tx = some protoTx
  outpoints : ∀ i ∈ protoTx.inputs,
    ∃ op, i.previousOutpoint = some op ∧ op.transactionId.length = 32
  inapplicable_zero : ∀ version, tryU16 protoTx.version = some version →
    ∀ i ∈ protoTx.inputs,
      if K.versionExpectsComputeBudgetField version then i.sigOpCount = 0
      else i.computeBudget = 0
  output_scripts : ∀ o ∈ protoTx.outputs, CanonicalScript o.scriptPublicKey
  entries_present : ∀ e ∈ st.entries, ∃ u, e.entry = some u ∧ CanonicalScript u.scriptPublicKey
  entries_length : st.entries.length = protoTx.inputs.length
  subnetwork_size : protoTx.subnetworkId.length = 20

/-- The message's 32-bit fields fit the 16- and 8-bit consensus fields. -/
structure WidthsFit (K : Consensus) (st : Proto.SignableTransaction)
    (protoTx : Proto.Transaction) : Prop where
  version : protoTx.version.toNat < 65536
  masses : ∀ version, tryU16 protoTx.version = some version → ∀ i ∈ protoTx.inputs,
    MassFits (K.versionExpectsComputeBudgetField version) i
  output_scripts : ∀ o ∈ protoTx.outputs, ∀ spk, o.scriptPublicKey = some spk →
    spk.version.toNat < 65536
  entry_scripts : ∀ e ∈ st.entries, ∀ u, e.entry = some u →
    ∀ spk, u.scriptPublicKey = some spk → spk.version.toNat < 65536

/-- Decoding succeeds, and writing back after any change of the nonce gives the
daemon's message with that nonce and the new id. -/
def RoundTrips (K : Consensus) (wst : Proto.WalletSignableTransaction)
    (st : Proto.SignableTransaction) (protoTx : Proto.Transaction) : Prop :=
  ∃ sig, protoToSignableTransaction K wst = .ok sig ∧
    ∀ nonce, updateProtoWithMinedTransaction wst (renonce K sig nonce) =
      .ok (withNonceAndId wst st protoTx nonce (renonce K sig nonce).tx.id)

-- ---------------------------------------------------------------------------
-- Entries
-- ---------------------------------------------------------------------------

/-- With every entry present, the filter drops nothing. -/
theorem entries_eq_map_presentEntries {st : Proto.SignableTransaction}
    (h : ∀ e ∈ st.entries, ∃ u, e.entry = some u) :
    st.entries = (presentEntries st).map fun u => ⟨some u⟩ := by
  unfold presentEntries
  generalize st.entries = es at h
  induction es with
  | nil => rfl
  | cons e es ih =>
    obtain ⟨u, hu⟩ := h e (List.mem_cons_self ..)
    have he : e = ⟨some u⟩ := by
      cases e
      exact congrArg _ hu
    rw [List.filterMap_cons, hu, List.map_cons,
      ← ih fun x hx => h x (List.mem_cons_of_mem _ hx), he]

theorem mem_presentEntries {st : Proto.SignableTransaction} {u : Proto.UtxoEntry} :
    u ∈ presentEntries st ↔ ∃ e ∈ st.entries, e.entry = some u := by
  simp [presentEntries, List.mem_filterMap]

/-- Decoded entries with lowercase scripts are written back as they were. -/
theorem collect_entryToProto {es : List Proto.UtxoEntry} {us : List UtxoEntry}
    (hscripts : ∀ e ∈ es, CanonicalScript e.scriptPublicKey)
    (h : Outcome.collect entryToKaspa es = .ok us) :
    Outcome.collect entryToProto (us.map some) = .ok (es.map fun e => ⟨some e⟩) := by
  have hall := Outcome.collect_eq_ok.mp h
  clear h
  induction hall with
  | nil => rfl
  | @cons e u es us he _ ih =>
    obtain ⟨spk, hspk, hhex⟩ := hscripts e (List.mem_cons_self ..)
    obtain ⟨hscript, hamount, hdaa, hcoinbase, hcov⟩ := entryToKaspa_eq_ok.mp he
    rw [hspk] at hscript
    have hwritten : entryToProto (some u) = .ok ⟨some e⟩ := by
      obtain ⟨amount, script, daa, coinbase⟩ := e
      simp only [entryToProto, hcov, Option.isSome_none, Bool.false_eq_true, if_false,
        scriptToProto_scriptToKaspa hhex hscript, hamount, hdaa, hcoinbase, ← hspk]
    rw [List.map_cons, List.map_cons, Outcome.collect_cons, hwritten, Outcome.ok_bind,
      ih fun x hx => hscripts x (List.mem_cons_of_mem _ hx), Outcome.ok_bind,
      Outcome.pure_eq]

-- ---------------------------------------------------------------------------
-- The round trip
-- ---------------------------------------------------------------------------

variable {wst : Proto.WalletSignableTransaction} {st : Proto.SignableTransaction}
  {protoTx : Proto.Transaction}

/-- A canonical script converts when its version fits. -/
theorem CanonicalScript.converts_iff {script : Option Proto.ScriptPublicKey}
    (h : CanonicalScript script) :
    ScriptConverts script ↔ ∀ spk, script = some spk → spk.version.toNat < 65536 := by
  refine ⟨fun hconv spk hspk => (hconv spk hspk).1, ?_⟩
  intro hfit spk hspk
  obtain ⟨spk', hspk', hhex⟩ := h
  obtain rfl : spk = spk' := Option.some.inj (hspk.symm.trans hspk')
  obtain ⟨bs, hbs, -⟩ := hexDecode_lowerHex hhex
  exact ⟨hfit spk hspk, bs, hbs⟩

/-- A canonical message decodes part by part: it has an entry for each input. -/
theorem Canonical.decodes_iff (h : Canonical K wst st protoTx) {sig : SignableTransaction} :
    protoToSignableTransaction K wst = .ok sig ↔
      ∃ tx entries, protoTransactionToKaspa K protoTx = .ok tx ∧
        Outcome.collect entryToKaspa (presentEntries st) = .ok entries ∧
        sig = ⟨tx, entries.map some, st.calculatedFee,
          st.calculatedNonContextualMasses.map massesToKaspa⟩ := by
  rw [protoToSignableTransaction_eq_ok]
  refine ⟨?_, ?_⟩
  · intro ⟨st', hst', hdec⟩
    obtain rfl : st' = st := by simpa [h.partially_signed] using hst'.symm
    obtain ⟨protoTx', tx, entries, htx', htx, hent, -, hsig⟩ :=
      protoSignableToKaspa_eq_ok.mp hdec
    obtain rfl : protoTx' = protoTx := by simpa [h.tx_present] using htx'.symm
    exact ⟨tx, entries, htx, hent, hsig⟩
  · intro ⟨tx, entries, htx, hent, hsig⟩
    have hpresent := entries_eq_map_presentEntries fun e he =>
      (h.entries_present e he).imp fun _ hu => hu.1
    have hlen : entries.length = tx.inputs.length := by
      rw [Outcome.collect_length hent, protoTransactionToKaspa_inputs_length htx,
        ← h.entries_length, hpresent, List.length_map]
    exact ⟨st, h.partially_signed, protoSignableToKaspa_eq_ok.mpr
      ⟨protoTx, tx, entries, h.tx_present, htx, hent, hlen, hsig⟩⟩

/-- The transaction of a canonical message converts when its widths fit. -/
theorem Canonical.transactionConverts_iff (h : Canonical K wst st protoTx) :
    TransactionConverts K protoTx ↔ protoTx.version.toNat < 65536 ∧
      (∀ version, tryU16 protoTx.version = some version → ∀ i ∈ protoTx.inputs,
        MassFits (K.versionExpectsComputeBudgetField version) i) ∧
      ∀ o ∈ protoTx.outputs, ∀ spk, o.scriptPublicKey = some spk →
        spk.version.toNat < 65536 := by
  refine ⟨?_, ?_⟩
  · intro ⟨version, hv, hin, hout, _⟩
    refine ⟨tryU16_isSome.mp ⟨version, hv⟩, ?_, ?_⟩
    · intro version' hv' i hi
      obtain rfl : version = version' := Option.some.inj (hv.symm.trans hv')
      exact (hin i hi).2
    · intro o ho
      exact (h.output_scripts o ho).converts_iff.mp (hout o ho)
  · intro ⟨hversion, hmasses, hscripts⟩
    obtain ⟨version, hv⟩ := tryU16_isSome.mpr hversion
    refine ⟨version, hv, ?_, ?_, Or.inl h.subnetwork_size⟩
    · intro i hi
      refine ⟨?_, hmasses version hv i hi⟩
      intro ⟨op, hop, hlen⟩
      obtain ⟨op', hop', hlen'⟩ := h.outpoints i hi
      rw [hop] at hop'
      exact hlen (Option.some.inj hop' ▸ hlen')
    · intro o ho
      exact (h.output_scripts o ho).converts_iff.mpr (hscripts o ho)

/-- So do its entries. -/
theorem Canonical.entriesConvert_iff (h : Canonical K wst st protoTx) :
    (∃ entries, Outcome.collect entryToKaspa (presentEntries st) = .ok entries) ↔
      ∀ e ∈ st.entries, ∀ u, e.entry = some u → ∀ spk, u.scriptPublicKey = some spk →
        spk.version.toNat < 65536 := by
  have hscript : ∀ e ∈ st.entries, ∀ u, e.entry = some u → CanonicalScript u.scriptPublicKey := by
    intro e he u hu
    obtain ⟨u', hu', hcanonical⟩ := h.entries_present e he
    rwa [Option.some.inj (hu.symm.trans hu')]
  rw [Outcome.exists_collect_eq_ok]
  refine ⟨?_, ?_⟩
  · intro hall e he u hu
    have hconv := exists_entryToKaspa_eq_ok.mp (hall u (mem_presentEntries.mpr ⟨e, he, hu⟩))
    exact (hscript e he u hu).converts_iff.mp hconv
  · intro hfit u hu
    obtain ⟨e, he, heu⟩ := mem_presentEntries.mp hu
    exact exists_entryToKaspa_eq_ok.mpr
      ((hscript e he u heu).converts_iff.mpr (hfit e he u heu))

/-- A canonical message decodes exactly when its widths fit. -/
theorem decodes_iff_widthsFit (h : Canonical K wst st protoTx) :
    (∃ sig, protoToSignableTransaction K wst = .ok sig) ↔ WidthsFit K st protoTx := by
  refine ⟨?_, ?_⟩
  · intro ⟨sig, hsig⟩
    obtain ⟨tx, entries, htx, hent, -⟩ := h.decodes_iff.mp hsig
    obtain ⟨hversion, hmasses, hscripts⟩ :=
      h.transactionConverts_iff.mp (exists_protoTransactionToKaspa_eq_ok.mp ⟨tx, htx⟩)
    exact ⟨hversion, hmasses, hscripts, h.entriesConvert_iff.mp ⟨entries, hent⟩⟩
  · intro hfit
    have hconv := h.transactionConverts_iff.mpr
      ⟨hfit.version, hfit.masses, hfit.output_scripts⟩
    obtain ⟨tx, htx⟩ := exists_protoTransactionToKaspa_eq_ok.mpr hconv
    obtain ⟨entries, hent⟩ := h.entriesConvert_iff.mpr hfit.entry_scripts
    exact ⟨_, h.decodes_iff.mpr ⟨tx, entries, htx, hent, rfl⟩⟩

/-- **What comes back.** Whatever decoded, writing it back after a change of the
nonce gives the daemon's message with that nonce, the new id, and mass 0. -/
theorem update_after_decode (h : Canonical K wst st protoTx) {sig : SignableTransaction}
    (hsig : protoToSignableTransaction K wst = .ok sig) (nonce : FixedBytes 4) :
    updateProtoWithMinedTransaction wst (renonce K sig nonce) =
      .ok (withNonceAndId wst st { protoTx with mass := 0 } nonce
        (renonce K sig nonce).tx.id) := by
  obtain ⟨tx, entries, htx, hent, rfl⟩ := h.decodes_iff.mp hsig
  obtain ⟨version, inputs, outputs, lane, hv, hin, hout, hlane, rfl⟩ :=
    protoTransactionToKaspa_eq_ok.mp htx
  -- field by field, the writer undoes the reader
  have hinputs : inputs.map inputToProto = protoTx.inputs := by
    refine Outcome.map_of_collect_eq_ok (fun x hx y hy => ?_) hin
    exact inputToProto_inputToKaspa ((h.outpoints x hx).imp fun _ ho => ho.1)
      (h.inapplicable_zero version hv x hx) hy
  have houtputs : outputs.map outputToProto = protoTx.outputs := by
    refine Outcome.map_of_collect_eq_ok (fun o ho t ht => ?_) hout
    obtain ⟨spk, hspk, hhex⟩ := h.output_scripts o ho
    obtain ⟨hscript, hvalue⟩ := outputToKaspa_eq_ok.mp ht
    rw [hspk] at hscript
    obtain ⟨value, script⟩ := o
    rw [outputToProto, scriptToProto_scriptToKaspa hhex hscript, hvalue, ← hspk]
  have hversion : version.toUInt32 = protoTx.version := tryU16_eq_some.mp hv
  have hbytes : lane.bytes = protoTx.subnetworkId :=
    bytes_of_subnetworkToKaspa h.subnetwork_size hlane
  have hpresent := entries_eq_map_presentEntries fun e he =>
    (h.entries_present e he).imp fun _ hu => hu.1
  have hentries : Outcome.collect entryToProto (entries.map some) = .ok st.entries := by
    rw [hpresent]
    refine collect_entryToProto (fun u hu => ?_) hent
    obtain ⟨e, he, heu⟩ := mem_presentEntries.mp hu
    obtain ⟨u', hu', hscript⟩ := h.entries_present e he
    rwa [Option.some.inj (heu.symm.trans hu')]
  have hmasses : (st.calculatedNonContextualMasses.map massesToKaspa).map massesToProto =
      st.calculatedNonContextualMasses := by
    cases st.calculatedNonContextualMasses <;> rfl
  refine updateProtoWithMinedTransaction_eq_ok.mpr
    ⟨by rw [h.partially_signed]; rfl, st.entries, hentries, ?_⟩
  simp only [withNonceAndId, renonce, kaspaTransactionToProto, Transaction.finalize,
    Transaction.new, hinputs, houtputs, hversion, hbytes, hmasses]

/-- A message that survives the round trip carries no mass. -/
theorem mass_zero_of_roundTrips (h : Canonical K wst st protoTx)
    (hback : RoundTrips K wst st protoTx) : protoTx.mass = 0 := by
  obtain ⟨sig, hsig, hback⟩ := hback
  -- compare the message the round trip promises with the one that comes back
  have hsame := (hback (FixedBytes.zero 4)).symm.trans
    (update_after_decode h hsig (FixedBytes.zero 4))
  simp only [withNonceAndId, Outcome.ok.injEq, Proto.WalletSignableTransaction.mk.injEq,
    Option.some.injEq, Proto.SignedTransaction.mk.injEq, Proto.Signed.partially.injEq,
    Proto.SignableTransaction.mk.injEq, Proto.Transaction.mk.injEq] at hsame
  tauto

/-- **The round trip.** A canonical message survives decode, renewed nonce and
write-back exactly when its integers fit the consensus widths and its mass is 0. -/
theorem roundTrips_iff (h : Canonical K wst st protoTx) :
    RoundTrips K wst st protoTx ↔ WidthsFit K st protoTx ∧ protoTx.mass = 0 := by
  refine ⟨?_, ?_⟩
  · intro hback
    refine ⟨?_, mass_zero_of_roundTrips h hback⟩
    obtain ⟨sig, hsig, -⟩ := hback
    exact (decodes_iff_widthsFit h).mp ⟨sig, hsig⟩
  · intro ⟨hfit, hmass⟩
    obtain ⟨sig, hsig⟩ := (decodes_iff_widthsFit h).mpr hfit
    refine ⟨sig, hsig, fun nonce => ?_⟩
    have hsame : { protoTx with mass := 0 } = protoTx := by rw [← hmass]
    rw [update_after_decode h hsig nonce, hsame]

/-! ### A lane transaction with and without a mass -/

/-- Toccata is version 1 and carries compute budgets; the id is not looked at. -/
def toccataConsensus : Consensus where
  transactionId _ := FixedBytes.zero 32
  txVersionToccata := 1
  versionExpectsComputeBudgetField version := version == 1

def laneProtoTx (mass : UInt64) : Proto.Transaction where
  version := 1
  inputs := [⟨some ⟨List.replicate 32 7, 0⟩, [], 0, 0, 10⟩]
  outputs := [⟨500000000, some ⟨0, "20ab51ac"⟩⟩]
  lockTime := 0
  subnetworkId := 97 :: 98 :: 99 :: 100 :: List.replicate 16 0
  gas := 0
  payload := [0x94, 1, 2, 3, 0, 0, 0, 1]
  mass := mass
  id := List.replicate 32 0

def laneSignable (mass : UInt64) : Proto.SignableTransaction where
  tx := some (laneProtoTx mass)
  entries := [⟨some ⟨500010000, some ⟨0, "20ab51ac"⟩, 1234, false⟩⟩]
  calculatedFee := some 10000
  calculatedNonContextualMasses := some ⟨1000, 2000⟩

def laneMessage (mass : UInt64) : Proto.WalletSignableTransaction where
  transaction := some ⟨some (.partially (laneSignable mass))⟩
  otherFields := []

theorem laneMessage_canonical (mass : UInt64) :
    Canonical toccataConsensus (laneMessage mass) (laneSignable mass) (laneProtoTx mass) where
  partially_signed := rfl
  tx_present := rfl
  outpoints := by simp [laneProtoTx]
  inapplicable_zero := by
    intro version hv i hi
    obtain rfl : version = 1 := by
      have h1 : tryU16 (laneProtoTx mass).version = some 1 := rfl
      exact Option.some.inj (hv.symm.trans h1)
    obtain rfl := List.mem_singleton.mp hi
    rfl
  output_scripts := by
    intro o ho
    obtain rfl := List.mem_singleton.mp ho
    exact ⟨_, rfl, by decide⟩
  entries_present := by
    intro e he
    obtain rfl := List.mem_singleton.mp he
    exact ⟨_, rfl, _, rfl, by decide⟩
  entries_length := rfl
  subnetwork_size := rfl

theorem laneMessage_widthsFit (mass : UInt64) :
    WidthsFit toccataConsensus (laneSignable mass) (laneProtoTx mass) where
  version := by
    show (1 : UInt32).toNat < 65536
    decide
  masses := by
    intro version hv i hi
    obtain rfl : version = 1 := by
      have h1 : tryU16 (laneProtoTx mass).version = some 1 := rfl
      exact Option.some.inj (hv.symm.trans h1)
    obtain rfl := List.mem_singleton.mp hi
    show (10 : UInt32).toNat < 65536
    decide
  output_scripts := by
    intro o ho spk hspk
    obtain rfl := List.mem_singleton.mp ho
    obtain rfl := Option.some.inj hspk
    decide
  entry_scripts := by
    intro e he u hu spk hspk
    obtain rfl := List.mem_singleton.mp he
    obtain rfl := Option.some.inj hu
    obtain rfl := Option.some.inj hspk
    decide

theorem roundTrips_laneMessage :
    RoundTrips toccataConsensus (laneMessage 0) (laneSignable 0) (laneProtoTx 0) :=
  (roundTrips_iff (laneMessage_canonical 0)).mpr ⟨laneMessage_widthsFit 0, rfl⟩

/-- A canonical lane transaction whose mass the daemon has set is changed. -/
theorem not_roundTrips_mass :
    Canonical toccataConsensus (laneMessage 1000) (laneSignable 1000) (laneProtoTx 1000) ∧
      WidthsFit toccataConsensus (laneSignable 1000) (laneProtoTx 1000) ∧
      ¬ RoundTrips toccataConsensus (laneMessage 1000) (laneSignable 1000)
        (laneProtoTx 1000) := by
  refine ⟨laneMessage_canonical 1000, laneMessage_widthsFit 1000, fun hback => ?_⟩
  have hmass := mass_zero_of_roundTrips (laneMessage_canonical 1000) hback
  exact absurd hmass (by decide)

end IgraRpc
