import IgraRpc.Types.WalletRoundTrip

/-!
# The entries of a decoded transaction — `types/wallet.rs`

The daemon sends one optional UTXO entry for each input. Decoding drops the absent ones
and hands the others to `SignableTransaction::with_entries`, which pairs them with the
inputs by position.

* `decodesInPlace_iff` — decoding ends without a panic and gives every input the entry
  sent at its position, **exactly when** it panics on nothing and no entry of an input is
  absent;
* `shiftedEntries_misplaced` — one absent entry moves every later entry forward, and one
  entry too many in the message hides it from the count.
-/

namespace IgraRpc

open Lib

-- ---------------------------------------------------------------------------
-- Positions under a filter
-- ---------------------------------------------------------------------------

/-- A filter keeps the positions in front of the first element it drops. -/
theorem getElem?_filterMap {α β : Type} {f : α → Option β} :
    ∀ {xs : List α} {n : Nat}, (∀ i < n, ∃ x y, xs[i]? = some x ∧ f x = some y) →
      ∀ i < n, (xs.filterMap f)[i]? = xs[i]?.bind f
  | [], n, h, i, hi => by
    obtain ⟨x, y, hx, -⟩ := h i hi
    exact absurd hx (by simp)
  | x :: xs, 0, _, i, hi => absurd hi (Nat.not_lt_zero i)
  | x :: xs, n + 1, h, i, hi => by
    obtain ⟨x', y, hx, hy⟩ := h 0 (Nat.succ_pos n)
    have hhead : f x = some y := by
      rw [List.getElem?_cons_zero] at hx
      rw [Option.some.inj hx, hy]
    have htail : ∀ j < n, ∃ a b, xs[j]? = some a ∧ f a = some b := by
      intro j hj
      obtain ⟨a, b, ha, hb⟩ := h (j + 1) (Nat.succ_lt_succ hj)
      rw [List.getElem?_cons_succ] at ha
      exact ⟨a, b, ha, hb⟩
    rw [List.filterMap_cons_some hhead]
    cases i with
    | zero => rw [List.getElem?_cons_zero, List.getElem?_cons_zero, Option.bind_some, hhead]
    | succ j =>
      rw [List.getElem?_cons_succ, List.getElem?_cons_succ]
      exact getElem?_filterMap htail j (Nat.lt_of_succ_lt_succ hi)

-- ---------------------------------------------------------------------------
-- Entries and inputs
-- ---------------------------------------------------------------------------

/-- What decoding promises: it returns, and entry `i` of its result is the UTXO entry the
daemon sent at position `i`, for every input. -/
structure DecodesInPlace (K : Consensus) (wst : Proto.WalletSignableTransaction) : Prop where
  returns : protoToSignableTransaction K wst ≠ .panicked
  inPlace : ∀ sig, protoToSignableTransaction K wst = .ok sig →
    ∃ st, wst.transaction = some ⟨some (.partially st)⟩ ∧
      ∀ i < sig.tx.inputs.length, ∃ sent entry,
        st.entries[i]? = some ⟨some sent⟩ ∧ entryToKaspa sent = .ok entry ∧
          sig.entries[i]? = some (some entry)

/-- A message that converts, with as many present entries as inputs, where some input's
entry is absent: as many entries stand behind those of the inputs. -/
def EntriesShift (K : Consensus) (wst : Proto.WalletSignableTransaction) : Prop :=
  ∃ st protoTx, wst.transaction = some ⟨some (.partially st)⟩ ∧ st.tx = some protoTx ∧
    TransactionConverts K protoTx ∧
    (∀ e ∈ presentEntries st, ScriptConverts e.scriptPublicKey) ∧
    (presentEntries st).length = protoTx.inputs.length ∧
    ∃ i < protoTx.inputs.length, st.entries[i]? = some ⟨none⟩

theorem presentEntries_length_le (st : Proto.SignableTransaction) :
    (presentEntries st).length ≤ st.entries.length :=
  List.length_filterMap_le _ _

/-- In a message whose entries do not shift, every input's entry is present. -/
theorem entries_present {K : Consensus} {wst : Proto.WalletSignableTransaction}
    {st : Proto.SignableTransaction} {protoTx : Proto.Transaction} {tx : Transaction}
    {entries : List UtxoEntry} (hst : wst.transaction = some ⟨some (.partially st)⟩)
    (htx : st.tx = some protoTx) (hdec : protoTransactionToKaspa K protoTx = .ok tx)
    (hent : Outcome.collect entryToKaspa (presentEntries st) = .ok entries)
    (hlen : entries.length = tx.inputs.length) (hshift : ¬EntriesShift K wst) :
    ∀ i < tx.inputs.length, ∃ sent, st.entries[i]? = some ⟨some sent⟩ := by
  have hcount : (presentEntries st).length = protoTx.inputs.length := by
    rw [← Outcome.collect_length hent, hlen, protoTransactionToKaspa_inputs_length hdec]
  have hconverts : TransactionConverts K protoTx :=
    exists_protoTransactionToKaspa_eq_ok.mp ⟨tx, hdec⟩
  have hscripts : ∀ e ∈ presentEntries st, ScriptConverts e.scriptPublicKey := fun e he =>
    exists_entryToKaspa_eq_ok.mp (Outcome.exists_collect_eq_ok.mp ⟨entries, hent⟩ e he)
  intro i hi
  rw [protoTransactionToKaspa_inputs_length hdec] at hi
  have hbound : i < st.entries.length :=
    Nat.lt_of_lt_of_le (hcount ▸ hi) (presentEntries_length_le st)
  have hget : st.entries[i]? = some st.entries[i] := List.getElem?_eq_getElem hbound
  cases hentry : st.entries[i] with
  | mk entry =>
    rw [hentry] at hget
    cases entry with
    | some sent => exact ⟨sent, hget⟩
    | none =>
      exact absurd ⟨st, protoTx, hst, htx, hconverts, hscripts, hcount, i, hi, hget⟩ hshift

/-- A shift is a message that decodes and has no entry for some input. -/
theorem EntriesShift.not_inPlace {K : Consensus} {wst : Proto.WalletSignableTransaction}
    (h : EntriesShift K wst) : ¬DecodesInPlace K wst := by
  intro hplace
  obtain ⟨st, protoTx, hst, htx, hconverts, hscripts, hcount, i, hi, habsent⟩ := h
  obtain ⟨tx, hdec⟩ := exists_protoTransactionToKaspa_eq_ok.mpr hconverts
  obtain ⟨entries, hent⟩ := Outcome.exists_collect_eq_ok.mpr
    fun e he => exists_entryToKaspa_eq_ok.mpr (hscripts e he)
  have hinputs := protoTransactionToKaspa_inputs_length hdec
  have hlen : entries.length = tx.inputs.length := by
    rw [Outcome.collect_length hent, hinputs, hcount]
  have hok := protoToSignableTransaction_eq_ok.mpr ⟨st, hst,
    protoSignableToKaspa_eq_ok.mpr ⟨protoTx, tx, entries, htx, hdec, hent, hlen, rfl⟩⟩
  obtain ⟨st', hst', hall⟩ := hplace.inPlace _ hok
  have hsame : st' = st := by
    rw [hst] at hst'
    simpa using hst'.symm
  obtain ⟨sent, entry, hsent, -, -⟩ := hall i (hinputs ▸ hi)
  rw [hsame, habsent] at hsent
  exact absurd hsent (by simp)

/-- Entries that are all present are converted where they stand. -/
theorem entries_inPlace {st : Proto.SignableTransaction} {entries : List UtxoEntry} {n : Nat}
    (hent : Outcome.collect entryToKaspa (presentEntries st) = .ok entries)
    (hpresent : ∀ i < n, ∃ sent, st.entries[i]? = some ⟨some sent⟩) :
    ∀ i < n, ∃ sent entry, st.entries[i]? = some ⟨some sent⟩ ∧
      entryToKaspa sent = .ok entry ∧ (entries.map some)[i]? = some (some entry) := by
  intro i hi
  obtain ⟨sent, hsent⟩ := hpresent i hi
  have hfront : ∀ j < n, ∃ x y, st.entries[j]? = some x ∧ x.entry = some y := by
    intro j hj
    obtain ⟨other, hother⟩ := hpresent j hj
    exact ⟨_, other, hother, rfl⟩
  have hkept : (presentEntries st)[i]? = some sent := by
    rw [presentEntries, getElem?_filterMap hfront i hi, hsent]
    rfl
  obtain ⟨entry, hentry, hconverted⟩ := Outcome.getElem?_of_collect_eq_ok hent hkept
  exact ⟨sent, entry, hsent, hconverted, by rw [List.getElem?_map, hentry]; rfl⟩

/-- **When decoding keeps the entries in place.** It panics on nothing and no message
that it decodes lacks the entry of an input. -/
theorem decodesInPlace_iff (K : Consensus) (wst : Proto.WalletSignableTransaction) :
    DecodesInPlace K wst ↔ ¬DecodePanics K wst ∧ ¬EntriesShift K wst := by
  refine ⟨?_, ?_⟩
  · intro hplace
    refine ⟨?_, fun hshift => hshift.not_inPlace hplace⟩
    intro hpanics
    exact hplace.returns (protoToSignableTransaction_eq_panicked.mpr hpanics)
  · intro ⟨hreturns, hshift⟩
    refine ⟨fun hpanic => hreturns (protoToSignableTransaction_eq_panicked.mp hpanic), ?_⟩
    intro sig hsig
    obtain ⟨st, hst, hdecode⟩ := protoToSignableTransaction_eq_ok.mp hsig
    obtain ⟨protoTx, tx, entries, htx, hdec, hent, hlen, rfl⟩ :=
      protoSignableToKaspa_eq_ok.mp hdecode
    have hpresent := entries_present hst htx hdec hent hlen hshift
    exact ⟨st, hst, entries_inPlace hent hpresent⟩

/-! ### A short outpoint id, and an absent entry -/

/-- The lane message with an outpoint id of 31 bytes. -/
def shortIdMessage : Proto.WalletSignableTransaction where
  transaction := some ⟨some (.partially { laneSignable 0 with
    tx := some { laneProtoTx 0 with
      inputs := [⟨some ⟨List.replicate 31 7, 0⟩, [], 0, 0, 10⟩] } })⟩
  otherFields := []

/-- The lane message with no entry for its input, and its entry behind. -/
def shiftedEntriesMessage : Proto.WalletSignableTransaction where
  transaction := some ⟨some (.partially { laneSignable 0 with
    entries := ⟨none⟩ :: (laneSignable 0).entries })⟩
  otherFields := []

/-- Decoding panics on the short id, and gives the input the entry from position 1 when
none is sent at position 0. -/
theorem shiftedEntries_misplaced :
    protoToSignableTransaction toccataConsensus shortIdMessage = .panicked ∧
    ¬DecodesInPlace toccataConsensus shortIdMessage ∧
    (∃ sig, protoToSignableTransaction toccataConsensus shiftedEntriesMessage = .ok sig ∧
      sig.tx.inputs.length = 1 ∧ (sig.entries[0]?.bind id).map (·.amount) = some 500010000) ∧
    ¬DecodesInPlace toccataConsensus shiftedEntriesMessage := by
  have hpanic : protoToSignableTransaction toccataConsensus shortIdMessage = .panicked := by
    decide
  have hok : ∃ sig, protoToSignableTransaction toccataConsensus shiftedEntriesMessage =
      .ok sig ∧ sig.tx.inputs.length = 1 ∧
        (sig.entries[0]?.bind id).map (·.amount) = some 500010000 :=
    ⟨_, rfl, rfl, rfl⟩
  refine ⟨hpanic, fun hplace => hplace.returns hpanic, hok, ?_⟩
  intro hplace
  obtain ⟨sig, hsig, hinputs, -⟩ := hok
  obtain ⟨st, hst, hall⟩ := hplace.inPlace sig hsig
  obtain ⟨sent, entry, hsent, -, -⟩ := hall 0 (by rw [hinputs]; exact Nat.one_pos)
  -- nothing was sent at position 0
  obtain rfl : _ = st := by simpa [shiftedEntriesMessage] using hst
  exact absurd hsent (by simp)

end IgraRpc
