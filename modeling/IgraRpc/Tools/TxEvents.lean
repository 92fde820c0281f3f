import IgraRpc.Tools.PrintedDuration
import IgraRpc.Tools.TxLiterals

/-!
# Transaction lines as the reader reads them

* `TxRecord.ReadRight` — the line of a record is read as the event it stands for;
* `TxRecord.Unmasked` — a condition on the id, the duration and the error text, for texts in
  which there may be anything: no scanner finds something of its own there;
* `accepted_readRight_iff`, `processed_readRight_iff`, `available_readRight_iff`,
  `queueFull_readRight_iff` — **the lines with an id are read right exactly under it**.
-/

namespace IgraRpc

open Lib Lib.Text

-- ---------------------------------------------------------------------------
-- What is to be read
-- ---------------------------------------------------------------------------

/-- The line is read as the event it stands for. -/
def TxRecord.ReadRight (lib : ReaderLib) (r : TxRecord) : Prop :=
  match r with
  | accepted id hash duration _ => ∃ micros,
      parseLine lib r.line = some (.rpcSuccess id (hashChars hash) micros) ∧
        SameMicros micros duration
  | validated _ _ _ availableCapacity =>
    parseLine lib r.line = some (.capacity availableCapacity.toNat)
  | queued _ _ availableCapacity =>
    parseLine lib r.line = some (.capacity availableCapacity.toNat)
  | queueFull _ _ => ∀ capacity, parseLine lib r.line ≠ some (.capacity capacity)
  | processed id hash duration _ _ _ => ∃ micros,
      parseLine lib r.line = some (.processorOkTime id (hashChars hash) micros) ∧
        SameMicros micros duration
  | failed id hash _ _ _ err _ =>
    parseLine lib r.line = some (.processorError id (hashChars hash) err)
  | sendFailed hash errorMsg _ =>
    parseLine lib r.line = some (.walletError (hashChars hash) errorMsg)
  | sent hash _ duration => ∃ micros,
      parseLine lib r.line = some (.walletOkTime (hashChars hash) micros) ∧
        SameMicros micros duration

/-- A time of the text's own is that of the line; without one, the line's can be told. -/
def KeepsTime (lib : ReaderLib) (text : List Char) (d : Duration) : Prop :=
  match extractTimeValue text "time".toList with
  | some own => ∃ micros, parseDurationMicros lib.humantime own = some micros ∧ SameMicros micros d
  | none => d.Told

/-- The id is not itself taken for a mining success or a response. -/
def Quiet (lib : ReaderLib) (id : List Char) (hash : FixedBytes 32) : Prop :=
  parseMiningSuccess lib (id ++ [',']) = none ∧ parseRpcSuccess lib (subject id hash) = none

/-- An own capacity in the id is the capacity of the line. -/
def KeepsCapacity (id : List Char) (availableCapacity : UInt64) : Prop :=
  extractTimeValue id "available_capacity".toList = none ∨
    extractCapacityValue id = some availableCapacity.toNat

/-- The condition under which the line is read right, whatever the texts. -/
def TxRecord.Unmasked (lib : ReaderLib) : TxRecord → Prop
  | accepted id _ duration _ =>
    Bare id ∧ parseMiningSuccess lib (id ++ [',']) = none ∧ KeepsTime lib id duration
  | validated id hash _ availableCapacity => Quiet lib id hash ∧ KeepsCapacity id availableCapacity
  | queued id hash availableCapacity => Quiet lib id hash ∧ KeepsCapacity id availableCapacity
  | queueFull id hash =>
    Quiet lib id hash →
      extractTimeValue id "capacity".toList ≠ none ∧ extractCapacityValue id = none
  | processed id hash duration _ _ _ =>
    Bare id ∧ parseMiningSuccess lib (id ++ [',']) = none ∧
      captures (bracketedIds "RPC RESPONSE".toList) (subject id hash) = none ∧
      extractCapacityValue id = none ∧ KeepsTime lib id duration
  | failed .. => False
  | sendFailed _ errorMsg duration =>
    let text := ' ' :: errorMsg ++ ", time=".toList ++ duration.debug
    parseMiningSuccess lib (' ' :: errorMsg ++ [',']) = none ∧ parseRpcSuccess lib text = none ∧
      extractCapacityValue (' ' :: errorMsg) = none ∧ parseProcessorOk lib text = none ∧
      parseProcessorErr text = none ∧
      (contains "accepted by wallet".toList text = true →
        lineTime lib text "send_time".toList = none) ∧
      ¬ ", time=".toList <:+: errorMsg ∧ trim errorMsg = errorMsg
  | sent _ _ duration => duration.Told

-- ---------------------------------------------------------------------------
-- Lines with a time
-- ---------------------------------------------------------------------------

section
variable (lib : ReaderLib) (id : List Char) (hash : FixedBytes 32) (d : Duration)

theorem mining_not_key : ∀ literal ∈ miningLiterals, ∀ key ∈ lineKeys, ¬ literal <:+ key := by
  decide +kernel

theorem time_mem : "time".toList ++ ['='] ∈ lineLiterals := by decide

theorem endsValue_shape {c : Char} (h : endsValue c = true) :
    c.isDigit = false ∧ c ∉ ".smµn".toList := by
  simp only [endsValue, isAsciiWhitespace, Bool.or_eq_true, beq_iff_eq] at h
  rcases h with rfl | (((rfl | rfl) | rfl) | rfl) | rfl <;> decide

theorem endsValue_natText (n : Nat) : ∀ c ∈ natText n, endsValue c = false := by
  intro c hc
  by_contra hends
  exact notMem_natText (endsValue_shape (Bool.not_eq_false _ ▸ hends)).1 n hc

theorem endsValue_debug : ∀ c ∈ d.debug, endsValue c = false := by
  intro c hc
  by_contra hends
  obtain ⟨hdigit, hletter⟩ := endsValue_shape (Bool.not_eq_false _ ▸ hends)
  exact notMem_debug ⟨hdigit, hletter⟩ d hc

/-- The time of a line is the id's own, or the duration. -/
theorem lineTime_timedTail {marker piece more : List Char}
    (hbefore : NoStart ("time".toList ++ ['=']) (marker ++ " [id=".toList))
    (hpiece : NoStart ("time".toList ++ ['=']) piece) :
    lineTime lib (tagged marker id (hashChars hash) (timedTail piece d more)) "time".toList =
      parseDurationMicros lib.humantime ((extractTimeValue id "time".toList).getD d.debug) := by
  have hblank : NoStart ("time".toList ++ ['=']) [' '] := noStart_of_mayStart (by decide)
  have hmore : ∀ c ∈ (',' :: more).head?, endsValue c = true := by
    intro c hc
    obtain rfl := Option.some.inj hc
    decide
  rw [lineTime, timedTail, extractTimeValue_tagged_located time_mem hbefore
    (hpiece.append hblank) (endsValue_debug d) hmore]
  cases extractTimeValue id "time".toList <;> rfl

/-- The first time of a line is read as the duration. -/
theorem keepsTime_iff : KeepsTime lib id d ↔ ∃ micros, parseDurationMicros lib.humantime
    ((extractTimeValue id "time".toList).getD d.debug) = some micros ∧ SameMicros micros d := by
  unfold KeepsTime
  cases extractTimeValue id "time".toList with
  | none => exact (debug_reads_iff lib.humantime d).symm
  | some own => rfl

/-- The brackets are read if and only if the id can be. -/
theorem captures_tagged_iff {marker tail : List Char} :
    captures (bracketedIds marker) (tagged marker id (hashChars hash) tail) =
      some (id, hashChars hash) ↔ Bare id :=
  ⟨fun h => (captures_bracketedIds h).1, fun h =>
    captures_tagged h (hashChars_ne_nil hash) (notMem_hashChars (by decide) hash) tail⟩

/-- **The response line.** -/
theorem accepted_readRight_iff (size : Nat) :
    (TxRecord.accepted id hash d size).ReadRight lib ↔
      (TxRecord.accepted id hash d size).Unmasked lib := by
  have hmarker : ∀ literal ∈ miningLiterals,
      mayStart literal ("RPC RESPONSE".toList ++ " [id=".toList) = false := by decide +kernel
  have hmore : ∀ literal ∈ lineLiterals,
      NoStart literal (" payload_size=".toList ++ (natText size ++ " bytes".toList)) :=
    fun literal hmem => (passesPieces literal hmem).size.append
      ((natText_noStart hmem size).append (passesPieces literal hmem).bytes)
  have hmining := @parseMiningSuccess_tagged lib "RPC RESPONSE".toList _
    (fun literal hmem => noStart_of_mayStart (hmarker literal hmem))
    (fun literal hmem => timedTail_noStart (mining_mem_lineLiterals hmem)
      (mining_not_key literal hmem _ List.mem_cons_self)
      (passesPieces literal (mining_mem_lineLiterals hmem)).accepted
      (hmore literal (mining_mem_lineLiterals hmem)) d) id hash
  have htime := @lineTime_timedTail lib id hash d "RPC RESPONSE".toList _
    (" payload_size=".toList ++ (natText size ++ " bytes".toList))
    (noStart_of_mayStart (by decide)) (passesPieces _ time_mem).accepted
  have hids := @captures_tagged_iff id hash "RPC RESPONSE".toList
    (timedTail ": Transaction accepted (queued),".toList d
      (" payload_size=".toList ++ (natText size ++ " bytes".toList)))
  show (∃ micros, parseLine lib (tagged "RPC RESPONSE".toList id (hashChars hash)
      (TxRecord.accepted id hash d size).tail) = some (.rpcSuccess id (hashChars hash) micros) ∧
      SameMicros micros d) ↔
    Bare id ∧ parseMiningSuccess lib (id ++ [',']) = none ∧ KeepsTime lib id d
  simp only [accepted_tail, parseLine_eq_some, Scans, parseRpcSuccess_eq_some, hmining, htime,
    keepsTime_iff]
  refine ⟨?_, ?_⟩
  · rintro ⟨micros, ⟨hquiet, ids, micros', hcaptures, hmicros, heq⟩, hsame⟩
    obtain ⟨hid, hhash, rfl⟩ := ParsedEvent.rpcSuccess.inj heq
    have hown : ids = (id, hashChars hash) := Prod.ext hid.symm hhash.symm
    exact ⟨hids.mp (hown ▸ hcaptures), hquiet, micros, hmicros, hsame⟩
  · rintro ⟨hbare, hquiet, micros, hmicros, hsame⟩
    exact ⟨micros, ⟨hquiet, _, micros, hids.mpr hbare, hmicros, rfl⟩, hsame⟩

theorem tx_noStart {literal : List Char} (hliteral : literal ∈ lineLiterals) :
    NoStart literal ("TX".toList ++ " [id=".toList) := by
  have heq : "TX".toList ++ " [id=".toList = "TX [id=".toList := by decide
  rw [heq]
  exact (passesPieces literal hliteral).tx

theorem txProcessor_noStart {literal : List Char} (hliteral : literal ∈ lineLiterals) :
    NoStart literal ("TX_PROCESSOR".toList ++ " [id=".toList) := by
  have heq : "TX_PROCESSOR".toList ++ " [id=".toList = "TX_PROCESSOR [id=".toList := by decide
  rw [heq]
  exact (passesPieces literal hliteral).txProcessor

theorem rpc_mem : rpcLiteral ∈ lineLiterals := by decide

theorem available_mem : "available_capacity".toList ++ ['='] ∈ lineLiterals := by decide

theorem capacity_mem : "capacity".toList ++ ['='] ∈ lineLiterals := by decide

section
variable (txBytes : List UInt8) (processedCount errorCount : Nat)

/-- The worker's success, behind the brackets. -/
def processedTail : List Char :=
  timedTail ": Transaction processed successfully,".toList d
    (processedMore txBytes processedCount errorCount)

theorem processed_line : (TxRecord.processed id hash d txBytes processedCount errorCount).line =
    tagged "TX_PROCESSOR".toList id (hashChars hash)
      (processedTail d txBytes processedCount errorCount) :=
  congrArg (tagged "TX_PROCESSOR".toList id (hashChars hash))
    (processed_tail id hash d txBytes processedCount errorCount)

theorem processedTail_noStart {literal : List Char} (hliteral : literal ∈ lineLiterals)
    (hkey : ¬ literal <:+ " time=".toList) :
    NoStart literal (processedTail d txBytes processedCount errorCount) :=
  timedTail_noStart hliteral hkey (passesPieces literal hliteral).processed
    (processedMore_noStart hliteral txBytes processedCount errorCount) d

/-- The two tests before the brackets are read. -/
theorem processed_contains :
    contains "TX_PROCESSOR".toList (tagged "TX_PROCESSOR".toList id (hashChars hash)
        (processedTail d txBytes processedCount errorCount)) = true ∧
      contains "processed successfully".toList (tagged "TX_PROCESSOR".toList id (hashChars hash)
        (processedTail d txBytes processedCount errorCount)) = true := by
  have hpiece : "processed successfully".toList <:+:
      ": Transaction processed successfully,".toList :=
    ⟨": Transaction ".toList, [','], by decide⟩
  rw [contains_eq_true, contains_eq_true, tagged_eq, processedTail, timedTail]
  refine ⟨?_, hpiece.trans ?_⟩
  · rw [List.append_assoc]
    exact List.infix_append_left
  · exact List.infix_append_of_infix_right (List.infix_append_of_infix_right
      (List.infix_cons (List.infix_append_of_infix_right List.infix_append_left)))

/-- The line has no capacity of its own. -/
theorem extractCapacityValue_processed :
    extractCapacityValue (tagged "TX_PROCESSOR".toList id (hashChars hash)
      (processedTail d txBytes processedCount errorCount)) = extractCapacityValue id := by
  have htail : ∀ literal ∈ lineLiterals, ¬ literal <:+ " time=".toList →
      NoStart literal (processedTail d txBytes processedCount errorCount) := fun _ hmem =>
    processedTail_noStart d txBytes processedCount errorCount hmem
  rw [extractCapacityValue, extractCapacityValue,
    extractTimeValue_tagged available_mem (txProcessor_noStart available_mem)
      (htail _ available_mem (by decide)),
    extractTimeValue_tagged capacity_mem (txProcessor_noStart capacity_mem)
      (htail _ capacity_mem (by decide))]

/-- **The worker's success.** -/
theorem processed_readRight_iff :
    (TxRecord.processed id hash d txBytes processedCount errorCount).ReadRight lib ↔
      (TxRecord.processed id hash d txBytes processedCount errorCount).Unmasked lib := by
  have htail : ∀ literal ∈ lineLiterals, ¬ literal <:+ " time=".toList →
      NoStart literal (processedTail d txBytes processedCount errorCount) := fun _ hmem =>
    processedTail_noStart d txBytes processedCount errorCount hmem
  have hmining := @parseMiningSuccess_tagged lib "TX_PROCESSOR".toList _
    (fun literal hmem => txProcessor_noStart (mining_mem_lineLiterals hmem))
    (fun literal hmem => htail literal (mining_mem_lineLiterals hmem)
      (mining_not_key literal hmem _ List.mem_cons_self)) id hash
  have htime : lineTime lib (tagged "TX_PROCESSOR".toList id (hashChars hash)
      (processedTail d txBytes processedCount errorCount)) "time".toList =
        parseDurationMicros lib.humantime ((extractTimeValue id "time".toList).getD d.debug) :=
    lineTime_timedTail lib id hash d (txProcessor_noStart time_mem)
      (passesPieces _ time_mem).processed
  have hrpc := captures_rpc_tagged (txProcessor_noStart rpc_mem) (htail _ rpc_mem (by decide)) id
    hash
  have hcapacity := extractCapacityValue_processed id hash d txBytes processedCount errorCount
  have hids := @captures_tagged_iff id hash "TX_PROCESSOR".toList
    (processedTail d txBytes processedCount errorCount)
  obtain ⟨hmarker, hsuccess⟩ := processed_contains id hash d txBytes processedCount errorCount
  show (∃ micros, parseLine lib (TxRecord.processed id hash d txBytes processedCount
      errorCount).line = some (.processorOkTime id (hashChars hash) micros) ∧
        SameMicros micros d) ↔
    Bare id ∧ parseMiningSuccess lib (id ++ [',']) = none ∧
      captures (bracketedIds "RPC RESPONSE".toList) (subject id hash) = none ∧
      extractCapacityValue id = none ∧ KeepsTime lib id d
  simp only [processed_line, parseLine_eq_some, Scans, parseProcessorOk_eq_some, hmining, htime,
    hmarker, hsuccess, true_and, parseQueueCapacity, hcapacity, Option.map_eq_none_iff,
    keepsTime_iff]
  refine ⟨?_, ?_⟩
  · rintro ⟨micros, ⟨hquiet, hnone, hnocapacity, ids, micros', hcaptures, hmicros, heq⟩, hsame⟩
    obtain ⟨hid, hhash, rfl⟩ := ParsedEvent.processorOkTime.inj heq
    have hown : ids = (id, hashChars hash) := Prod.ext hid.symm hhash.symm
    have hnoids : captures (bracketedIds "RPC RESPONSE".toList) (subject id hash) = none := by
      rw [parseRpcSuccess, hrpc, htime, hmicros] at hnone
      cases hcase : captures (bracketedIds "RPC RESPONSE".toList) (subject id hash) with
      | none => rfl
      | some ids =>
        rw [hcase] at hnone
        exact absurd hnone (by simp)
    exact ⟨hids.mp (hown ▸ hcaptures), hquiet, hnoids, hnocapacity, micros, hmicros, hsame⟩
  · rintro ⟨hbare, hquiet, hnoids, hnocapacity, micros, hmicros, hsame⟩
    refine ⟨micros, ⟨hquiet, ?_, hnocapacity, _, micros, hids.mpr hbare, hmicros, rfl⟩, hsame⟩
    rw [parseRpcSuccess, hrpc, hnoids, Option.bind_none]

end

end

-- ---------------------------------------------------------------------------
-- Lines with a capacity
-- ---------------------------------------------------------------------------

theorem parseU64_natText {n : Nat} (h : n < 2 ^ 64) : parseU64 (natText n) = some n := by
  have hplus : (natText n).head? ≠ some '+' := by
    intro hhead
    exact notMem_natText (by decide) n (List.mem_of_mem_head? hhead)
  have hdigits : (natText n).all Char.isDigit = true :=
    List.all_eq_true.mpr (isDigit_toDigits n)
  have hvalue : Nat.ofDigitChars 10 (natText n) 0 = n := Nat.ofDigitChars_ten_toDigits
  simp only [parseU64, if_neg hplus, hvalue]
  rw [if_pos ⟨natText_ne_nil n, hdigits, h⟩]

/-- A text with an own available capacity has an own capacity. -/
theorem capacity_of_available {text : List Char}
    (h : extractTimeValue text "capacity".toList = none) :
    extractTimeValue text "available_capacity".toList = none := by
  rw [extractTimeValue, Option.map_eq_none_iff, cut_eq_none] at h ⊢
  have hin : "capacity".toList ++ ['='] <:+: "available_capacity".toList ++ ['='] :=
    ⟨"available_".toList, [], by decide⟩
  exact fun hout => h (hin.trans hout)

section
variable (lib : ReaderLib) (id : List Char) (hash : FixedBytes 32)

/-- A capacity at the end of a line comes after the id's own. -/
theorem extractTimeValue_capacityTail {key piece : List Char} {capacity : Nat}
    (hkey : key ++ ['='] ∈ lineLiterals) (hhead : (key ++ ['=']).head? ≠ some ' ')
    (hpiece : NoStart (key ++ ['=']) piece) :
    extractTimeValue (tagged "TX".toList id (hashChars hash) (capacityTail piece key capacity))
        key = (extractTimeValue id key).or (some (natText capacity)) := by
  have hblank : NoStart (key ++ ['=']) [' '] := by
    obtain ⟨c, hc⟩ : ∃ c, (key ++ ['=']).head? = some c :=
      ⟨_, List.head?_eq_some_head (by simp)⟩
    exact noStart_of_head hc fun hmem => hhead (List.mem_singleton.mp hmem ▸ hc)
  exact extractTimeValue_tagged_located hkey (tx_noStart hkey) (hpiece.append hblank)
    (endsValue_natText capacity) (by simp) id hash

/-- The scanners before the one for capacities see the id and its brackets only. -/
theorem quiet_iff {tail : List Char}
    (htail : ∀ literal ∈ lineLiterals, (∀ key ∈ lineKeys, ¬ literal <:+ key) ∨
      literal = "time".toList ++ ['='] → NoStart literal tail) :
    (parseMiningSuccess lib (tagged "TX".toList id (hashChars hash) tail) = none ∧
      parseRpcSuccess lib (tagged "TX".toList id (hashChars hash) tail) = none) ↔
      Quiet lib id hash := by
  have hrpc : ∀ key ∈ lineKeys, ¬ rpcLiteral <:+ key := by decide
  rw [parseMiningSuccess_tagged (fun literal hmem => tx_noStart (mining_mem_lineLiterals hmem))
      (fun literal hmem => htail literal (mining_mem_lineLiterals hmem)
        (Or.inl (mining_not_key literal hmem))),
    parseRpcSuccess_tagged (tx_noStart rpc_mem) (htail _ rpc_mem (Or.inl hrpc))
      (tx_noStart time_mem) (htail _ time_mem (Or.inr rfl))]
  rfl

/-- The capacity in a line with the available capacity. -/
theorem extractCapacityValue_available {piece : List Char} {availableCapacity : UInt64}
    (hpiece : ∀ literal ∈ lineLiterals, NoStart literal piece) :
    extractCapacityValue (tagged "TX".toList id (hashChars hash)
        (capacityTail piece "available_capacity".toList availableCapacity.toNat)) =
      some availableCapacity.toNat ↔ KeepsCapacity id availableCapacity := by
  have havailable := @extractTimeValue_capacityTail id hash "available_capacity".toList piece
    availableCapacity.toNat available_mem (by decide) (hpiece _ available_mem)
  cases hown : extractTimeValue id "available_capacity".toList with
  | none =>
    rw [hown, Option.none_or] at havailable
    refine iff_of_true ?_ (Or.inl hown)
    rw [extractCapacityValue, havailable, Option.bind_some,
      parseU64_natText availableCapacity.toNat_lt, Option.some_or]
  | some value =>
    -- the id has the shorter key as well, so both values are its own
    obtain ⟨value', hown'⟩ := Option.ne_none_iff_exists'.mp fun hnone =>
      Option.some_ne_none _ (hown.symm.trans (capacity_of_available hnone))
    have hkeys : "available_capacity".toList = "available_".toList ++ "capacity".toList := by
      decide
    have hblank : NoStart ("capacity".toList ++ ['=']) (' ' :: "available_".toList) :=
      noStart_of_mayStart (by decide)
    have hsplit : hashPart hash ++ capacityTail piece "available_capacity".toList
        availableCapacity.toNat = hashPart hash ++ (piece ++ ' ' :: "available_".toList) ++
          ("capacity".toList ++ '=' :: (natText availableCapacity.toNat ++ [])) := by
      rw [capacityTail, hkeys]
      simp only [List.append_assoc, List.cons_append]
    have hvalue : ∀ c ∈ natText availableCapacity.toNat, endsValue c = false :=
      endsValue_natText _
    have hcapacity := @extractTimeValue_located ("TX".toList ++ " [id=".toList)
      (hashPart hash ++ (piece ++ ' ' :: "available_".toList)) [] "capacity".toList
      (natText availableCapacity.toNat) (by decide) (tx_noStart capacity_mem)
      ((hashPart_noStart capacity_mem hash).append ((hpiece _ capacity_mem).append hblank)) hvalue
      (by simp) id
    rw [← hsplit, ← tagged_eq, hown', Option.some_or] at hcapacity
    rw [hown, Option.some_or] at havailable
    have hsame : extractCapacityValue (tagged "TX".toList id (hashChars hash)
        (capacityTail piece "available_capacity".toList availableCapacity.toNat)) =
        extractCapacityValue id := by
      rw [extractCapacityValue, extractCapacityValue, havailable, hcapacity, hown, hown']
    rw [hsame, KeepsCapacity, hown]
    simp

/-- **A line with the available capacity.** -/
theorem available_readRight_iff {piece : List Char} {availableCapacity : UInt64}
    (hpiece : ∀ literal ∈ lineLiterals, NoStart literal piece) :
    parseLine lib (tagged "TX".toList id (hashChars hash)
        (capacityTail piece "available_capacity".toList availableCapacity.toNat)) =
      some (.capacity availableCapacity.toNat) ↔
    Quiet lib id hash ∧ KeepsCapacity id availableCapacity := by
  have hquiet := @quiet_iff lib id hash
    (capacityTail piece "available_capacity".toList availableCapacity.toNat)
    fun literal hmem hor => by
      refine capacityTail_noStart hmem (by decide) ?_ (hpiece literal hmem) _
      rcases hor with hkeys | rfl
      · exact hkeys _ (by decide)
      · decide
  simp only [parseLine_eq_some, Scans, parseQueueCapacity, Option.map_eq_some_iff,
    ParsedEvent.capacity.injEq, exists_eq_right]
  rw [extractCapacityValue_available id hash hpiece, ← and_assoc, hquiet]

/-- **The rejection of a full queue.** It is read as a capacity, unless an earlier scanner or
an own capacity of the id comes before. -/
theorem queueFull_readRight_iff :
    (TxRecord.queueFull id hash).ReadRight lib ↔ (TxRecord.queueFull id hash).Unmasked lib := by
  have hpiece : ∀ literal ∈ lineLiterals,
      NoStart literal ": Queue full, rejecting (backpressure),".toList :=
    fun literal hmem => (passesPieces literal hmem).queueFull
  have htail : ∀ literal ∈ lineLiterals, ¬ literal <:+ ' ' :: ("capacity".toList ++ ['=']) →
      NoStart literal (capacityTail ": Queue full, rejecting (backpressure),".toList
        "capacity".toList transactionQueueCapacity) := fun literal hmem hkey =>
    capacityTail_noStart hmem (by decide) hkey (hpiece literal hmem) _
  have hquiet := @quiet_iff lib id hash (capacityTail
    ": Queue full, rejecting (backpressure),".toList "capacity".toList transactionQueueCapacity)
    fun literal hmem hor => by
      refine htail literal hmem ?_
      rcases hor with hkeys | rfl
      · exact hkeys _ (by decide)
      · decide
  have havailable := extractTimeValue_tagged available_mem (tx_noStart available_mem)
    (htail _ available_mem (by decide)) id hash
  have hcapacity := @extractTimeValue_capacityTail id hash "capacity".toList
    ": Queue full, rejecting (backpressure),".toList transactionQueueCapacity capacity_mem
    (by decide) (hpiece _ capacity_mem)
  have hvalue : extractCapacityValue (tagged "TX".toList id (hashChars hash) (capacityTail
      ": Queue full, rejecting (backpressure),".toList "capacity".toList
      transactionQueueCapacity)) = none ↔
      extractTimeValue id "capacity".toList ≠ none ∧ extractCapacityValue id = none := by
    cases hown : extractTimeValue id "capacity".toList with
    | none =>
      refine iff_of_false ?_ (fun h => h.1 rfl)
      rw [extractCapacityValue, havailable, hcapacity, hown, capacity_of_available hown,
        Option.bind_none, Option.none_or, Option.none_or, Option.bind_some,
        parseU64_natText (by decide)]
      exact Option.some_ne_none _
    | some value =>
      have hsame : extractCapacityValue (tagged "TX".toList id (hashChars hash) (capacityTail
          ": Queue full, rejecting (backpressure),".toList "capacity".toList
          transactionQueueCapacity)) = extractCapacityValue id := by
        rw [extractCapacityValue, extractCapacityValue, havailable, hcapacity, hown,
          Option.some_or]
      rw [hsame]
      exact ⟨fun h => ⟨Option.some_ne_none value, h⟩, fun h => h.2⟩
  show (∀ capacity, parseLine lib (tagged "TX".toList id (hashChars hash)
      (TxRecord.queueFull id hash).tail) ≠ some (.capacity capacity)) ↔
    (Quiet lib id hash →
      extractTimeValue id "capacity".toList ≠ none ∧ extractCapacityValue id = none)
  rw [queueFull_tail, ← hvalue, ← hquiet]
  simp only [ne_eq, parseLine_eq_some, Scans, parseQueueCapacity, Option.map_eq_some_iff,
    ParsedEvent.capacity.injEq, exists_eq_right, not_and, Option.eq_none_iff_forall_ne_some,
    and_imp]
  exact ⟨fun h h1 h2 capacity => h capacity h1 h2, fun h capacity h1 h2 => h h1 h2 capacity⟩

end

end IgraRpc
