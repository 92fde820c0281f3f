import IgraRpc.Tools.TxReading

/-!
# Ordinary transaction lines

The ids and error texts that a provider sees have none of the words the reader looks for. With
them the condition of `TxRecord.Unmasked` comes down to the kind of the record and its data.

* `unmasked_iff_legible` — **of ordinary records, the reader misses the worker's failures and
  takes a full queue for an empty one**; of the others it wants a bare id and a told time, or an
  error that it can cut out;
* `readRight_iff` — **when a line is read right**, for ordinary texts and for all others.
-/

namespace IgraRpc

open Lib Lib.Text

-- ---------------------------------------------------------------------------
-- Texts without the words of the reader
-- ---------------------------------------------------------------------------

/-- What the reader would find in an id, beside the line's own. -/
def idWords : List (List Char) :=
  ["mining_".toList, "Mining completed:".toList, "RPC RESPONSE [id=".toList,
    "capacity=".toList, "time=".toList]

/-- What the reader would find in an error text, beside the line's own. -/
def errorWords : List (List Char) :=
  ["mining_".toList, "Mining completed:".toList, "RPC RESPONSE [id=".toList,
    "capacity=".toList, "TX_PROCESSOR".toList, "accepted by wallet".toList]

/-- None of the words is in the text. -/
def Without (words : List (List Char)) (text : List Char) : Prop :=
  ∀ word ∈ words, ¬ word <:+: text

instance (words : List (List Char)) (text : List Char) : Decidable (Without words text) :=
  List.decidableBAll (fun word => ¬ word <:+: text) words

/-- The id or the error text has none of the reader's words. -/
def TxRecord.Ordinary : TxRecord → Prop
  | accepted id _ _ _ => Without idWords id
  | validated id _ _ _ => Without idWords id
  | queued id _ _ => Without idWords id
  | queueFull id _ => Without idWords id
  | processed id _ _ _ _ _ => Without idWords id
  | failed .. => True
  | sendFailed _ errorMsg _ => Without errorWords errorMsg
  | sent .. => True

/-- The condition under which the line of an ordinary record is read right. -/
def TxRecord.Legible : TxRecord → Prop
  | accepted id _ duration _ => Bare id ∧ duration.Told
  | validated .. => True
  | queued .. => True
  | queueFull .. => False
  | processed id _ duration _ _ _ => Bare id ∧ duration.Told
  | failed .. => False
  | sendFailed _ errorMsg _ => ¬ ", time=".toList <:+: errorMsg ∧ trim errorMsg = errorMsg
  | sent _ _ duration => duration.Told

/-- A literal with one of the words in it is not in the text. -/
theorem Without.cut_eq_none {words : List (List Char)} {text literal : List Char}
    (h : Without words text) (hword : ∃ word ∈ words, word <:+: literal) :
    cut literal text = none := by
  obtain ⟨word, hmem, hin⟩ := hword
  exact Text.cut_eq_none.mpr fun hliteral => h word hmem (hin.trans hliteral)

/-- Behind a blank as well. -/
theorem Without.cons_blank {words : List (List Char)} {text : List Char} (h : Without words text)
    (hhead : ∀ word ∈ words, ¬ [' '] <+: word ∧ word ≠ []) : Without words (' ' :: text) := by
  intro word hmem hin
  rcases List.infix_cons_iff.mp hin with hprefix | hin
  · obtain ⟨hblank, hne⟩ := hhead word hmem
    obtain ⟨c, rest, rfl⟩ := List.exists_cons_of_ne_nil hne
    obtain rfl : c = ' ' := (List.cons_prefix_cons.mp hprefix).1
    exact hblank ⟨rest, rfl⟩
  · exact h word hmem hin

/-- The words of the scanners for mining, in a text and the comma behind it. -/
theorem Without.no_mining {words : List (List Char)} {text : List Char} (h : Without words text)
    (hwords : "mining_".toList ∈ words ∧ "Mining completed:".toList ∈ words) (lib : ReaderLib) :
    parseMiningSuccess lib (text ++ [',']) = none := by
  have hcontains : ∀ word ∈ words, word ≠ [] → ',' ∉ word →
      contains word (text ++ [',']) = false := by
    intro word hmem hne hcomma
    rw [contains, cut_append_cons hcomma hne, h.cut_eq_none ⟨word, hmem, List.infix_rfl⟩,
      cut_nil hne]
    rfl
  exact parseMiningSuccess_eq_none lib (hcontains _ hwords.1 (by decide) (by decide))
    (hcontains _ hwords.2 (by decide) (by decide))

/-- The text has no value under a key with one of the words in it. -/
theorem Without.no_value {words : List (List Char)} {text key : List Char}
    (h : Without words text) (hword : ∃ word ∈ words, word <:+: key ++ ['=']) :
    extractTimeValue text key = none := by
  rw [extractTimeValue, h.cut_eq_none hword]
  rfl

theorem capacity_infix : "capacity=".toList <:+: "capacity".toList ++ ['='] :=
  ⟨[], [], by decide⟩

theorem available_infix : "capacity=".toList <:+: "available_capacity".toList ++ ['='] :=
  ⟨"available_".toList, [], by decide⟩

theorem Without.no_capacity {words : List (List Char)} {text : List Char} (h : Without words text)
    (hword : "capacity=".toList ∈ words) : extractCapacityValue text = none := by
  rw [extractCapacityValue, h.no_value ⟨_, hword, available_infix⟩,
    h.no_value ⟨_, hword, capacity_infix⟩]
  rfl

-- ---------------------------------------------------------------------------
-- Ids
-- ---------------------------------------------------------------------------

section
variable {id : List Char} (h : Without idWords id)
include h

theorem keepsTime_iff_told (lib : ReaderLib) (d : Duration) : KeepsTime lib id d ↔ d.Told := by
  have hin : "time=".toList <:+: "time".toList ++ ['='] := ⟨[], [], by decide⟩
  rw [KeepsTime, h.no_value ⟨_, by decide, hin⟩]

theorem keepsCapacity_of_without (availableCapacity : UInt64) :
    KeepsCapacity id availableCapacity :=
  Or.inl (h.no_value ⟨_, by decide, available_infix⟩)

theorem captures_subject_of_without (hash : FixedBytes 32) :
    captures (bracketedIds "RPC RESPONSE".toList) (subject id hash) = none := by
  have hin : "RPC RESPONSE [id=".toList <:+: rpcLiteral := ⟨[], [], by decide⟩
  refine captures_eq_none (?_ : cut rpcLiteral (subject id hash) = none)
  rw [subject_eq, cut_append_cons (by decide) (by decide), h.cut_eq_none ⟨_, by decide, hin⟩,
    List.append_nil, (hashPart_noStart rpc_mem hash).cut_eq_none (by decide)]
  rfl

theorem quiet_of_without (lib : ReaderLib) (hash : FixedBytes 32) : Quiet lib id hash := by
  refine ⟨h.no_mining (by decide) lib, ?_⟩
  rw [parseRpcSuccess, captures_subject_of_without h, Option.bind_none]

end

-- ---------------------------------------------------------------------------
-- Error texts
-- ---------------------------------------------------------------------------

/-- A literal that neither the error nor the time behind it can hold. -/
theorem cut_sendFailedText {errorMsg literal : List Char}
    (h : Without errorWords (' ' :: errorMsg)) (c : Char)
    (hliteral : (∃ word ∈ errorWords, word <:+: literal) ∧ c ∈ literal ∧ ',' ∉ literal)
    (htime : c ∉ " time=".toList ∧ c.isDigit = false ∧ c ∉ ".smµn".toList) (d : Duration) :
    cut literal (sendFailedText errorMsg d) = none := by
  obtain ⟨hword, hc, hcomma⟩ := hliteral
  have hrest : c ∉ " time=".toList ++ d.debug := by
    rw [List.mem_append, not_or]
    exact ⟨htime.1, notMem_debug htime.2 d⟩
  rw [sendFailedText, cut_append_cons hcomma (List.ne_nil_of_mem hc), h.cut_eq_none hword,
    cut_eq_none_of_notMem c hc hrest]
  rfl

/-- A failed call with such an error. -/
theorem sendFailed_unmasked (lib : ReaderLib) (hash : FixedBytes 32) {errorMsg : List Char}
    (h : Without errorWords errorMsg) (d : Duration) :
    (TxRecord.sendFailed hash errorMsg d).Unmasked lib ↔
      ¬ ", time=".toList <:+: errorMsg ∧ trim errorMsg = errorMsg := by
  have hblank : Without errorWords (' ' :: errorMsg) := h.cons_blank (by decide)
  have hrpc : cut rpcLiteral (sendFailedText errorMsg d) = none :=
    cut_sendFailedText hblank 'R' (by decide) (by decide) d
  have hprocessor : contains "TX_PROCESSOR".toList (sendFailedText errorMsg d) = false := by
    rw [contains, cut_sendFailedText hblank 'T' (by decide) (by decide) d]
    rfl
  have haccepted : contains "accepted by wallet".toList (sendFailedText errorMsg d) = false := by
    rw [contains, cut_sendFailedText hblank 'p' (by decide) (by decide) d]
    rfl
  rw [sendFailed_unmasked_iff, haccepted]
  refine ⟨fun hall => hall.2.2.2.2.2.2, fun hcut => ⟨hblank.no_mining (by decide) lib,
    parseRpcSuccess_eq_none lib hrpc, hblank.no_capacity (by decide),
    parseProcessorOk_eq_none lib hprocessor, parseProcessorErr_eq_none hprocessor,
    fun hin => absurd hin (by decide), hcut⟩⟩

-- ---------------------------------------------------------------------------
-- Records
-- ---------------------------------------------------------------------------

/-- **Ordinary records.** The kind of the record, its id and its time decide, or its error. -/
theorem unmasked_iff_legible (lib : ReaderLib) {r : TxRecord} (h : r.Ordinary) :
    r.Unmasked lib ↔ r.Legible := by
  cases r with
  | accepted id hash d estimatedSize =>
    have hid : Without idWords id := h
    show Bare id ∧ parseMiningSuccess lib (id ++ [',']) = none ∧ KeepsTime lib id d ↔ _
    rw [keepsTime_iff_told hid, eq_true (hid.no_mining (by decide) lib), true_and]
    rfl
  | validated id hash payloadSize availableCapacity =>
    have hid : Without idWords id := h
    exact iff_of_true ⟨quiet_of_without hid lib hash, keepsCapacity_of_without hid _⟩ trivial
  | queued id hash availableCapacity =>
    have hid : Without idWords id := h
    exact iff_of_true ⟨quiet_of_without hid lib hash, keepsCapacity_of_without hid _⟩ trivial
  | queueFull id hash =>
    have hid : Without idWords id := h
    refine iff_of_false (fun hunmasked => ?_) not_false
    exact (hunmasked (quiet_of_without hid lib hash)).1
      (hid.no_value ⟨_, by decide, capacity_infix⟩)
  | processed id hash d txBytes processedCount errorCount =>
    have hid : Without idWords id := h
    show Bare id ∧ parseMiningSuccess lib (id ++ [',']) = none ∧
      captures (bracketedIds "RPC RESPONSE".toList) (subject id hash) = none ∧
      extractCapacityValue id = none ∧ KeepsTime lib id d ↔ _
    rw [keepsTime_iff_told hid, eq_true (hid.no_mining (by decide) lib),
      eq_true (captures_subject_of_without hid hash), eq_true (hid.no_capacity (by decide)),
      true_and, true_and, true_and]
    rfl
  | failed id hash payloadSize d errorCount err timestamp => exact Iff.rfl
  | sendFailed hash errorMsg d => exact sendFailed_unmasked lib hash h d
  | sent hash payloadSize d => exact Iff.rfl

/-- **When a line is read right.** -/
theorem readRight_iff (lib : ReaderLib) (r : TxRecord) :
    r.ReadRight lib ↔ (r.Ordinary ∧ r.Legible) ∨ (¬ r.Ordinary ∧ r.Unmasked lib) := by
  rw [readRight_unmasked]
  by_cases h : r.Ordinary
  · rw [unmasked_iff_legible lib h]
    exact ⟨fun hlegible => Or.inl ⟨h, hlegible⟩, fun hor =>
      hor.elim And.right fun hnot => absurd h hnot.1⟩
  · exact ⟨fun hunmasked => Or.inr ⟨h, hunmasked⟩, fun hor =>
      hor.elim (fun hin => absurd hin.1 h) And.right⟩

/-- The worker's alert of a transaction that the wallet refused. -/
theorem readRight_fails :
    ¬ (TxRecord.failed "1".toList ⟨List.replicate 32 0, rfl⟩ 250 ⟨0, 850000000, by decide⟩ 1
        "Wallet is locked".toList ⟨"2025-01-01T00:00:00+00:00".toList, by decide⟩).ReadRight
      ⟨fun _ => none, Char.isDigit, by decide⟩ :=
  failed_not_readRight _ _ _ _ _ _ _ _

example : (TxRecord.accepted "1".toList ⟨List.replicate 32 0, rfl⟩ ⟨0, 850000000, by decide⟩
    250).Ordinary ∧ (TxRecord.accepted "1".toList ⟨List.replicate 32 0, rfl⟩
    ⟨0, 850000000, by decide⟩ 250).Legible :=
  ⟨(by decide : Without idWords "1".toList), by decide, by decide⟩

end IgraRpc
