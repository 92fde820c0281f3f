import IgraRpc.Tools.Parser

/-!
# The scanners of the reader

* `parseLine_eq_some` — **the order of the scanners**: an event is read when its own scanner
  gives it and the scanners before that one give nothing;
* `parseMiningSuccess_eq_none`, … — a scanner gives nothing without its literals;
* `parseRpcSuccess_append`, … — a scanner passes over a part of the line in which none of its
  literals begins.
-/

namespace IgraRpc

open Lib Lib.Text

-- ---------------------------------------------------------------------------
-- What a scanner can give
-- ---------------------------------------------------------------------------

section
variable {lib : ReaderLib} {line : List Char} {ev : ParsedEvent}

theorem parseMiningSuccess_some (h : parseMiningSuccess lib line = some ev) :
    ∃ micros, ev = .miningSuccess micros := by
  obtain ⟨micros, -, rfl⟩ := Option.map_eq_some_iff.mp h
  exact ⟨micros, rfl⟩

/-- An event of two scans, in the order of the parts. -/
theorem bind_map_eq_some {α β : Type} {first : Option α} {second : Option β}
    {event : α → β → ParsedEvent} :
    (first.bind fun a => second.map fun b => event a b) = some ev ↔
      ∃ a b, first = some a ∧ second = some b ∧ ev = event a b := by
  simp only [Option.bind_eq_some_iff, Option.map_eq_some_iff]
  refine ⟨?_, ?_⟩
  · rintro ⟨a, ha, b, hb, rfl⟩
    exact ⟨a, b, ha, hb, rfl⟩
  · rintro ⟨a, b, ha, hb, rfl⟩
    exact ⟨a, ha, b, hb, rfl⟩

theorem parseRpcSuccess_eq_some :
    parseRpcSuccess lib line = some ev ↔
      ∃ ids micros, captures (bracketedIds "RPC RESPONSE".toList) line = some ids ∧
        lineTime lib line "time".toList = some micros ∧ ev = .rpcSuccess ids.1 ids.2 micros :=
  bind_map_eq_some

theorem parseQueueCapacity_some (h : parseQueueCapacity line = some ev) :
    ∃ capacity, ev = .capacity capacity := by
  obtain ⟨capacity, -, rfl⟩ := Option.map_eq_some_iff.mp h
  exact ⟨capacity, rfl⟩

theorem parseProcessorOk_eq_some :
    parseProcessorOk lib line = some ev ↔
      contains "TX_PROCESSOR".toList line = true ∧
        contains "processed successfully".toList line = true ∧
        ∃ ids micros, captures (bracketedIds "TX_PROCESSOR".toList) line = some ids ∧
          lineTime lib line "time".toList = some micros ∧
          ev = .processorOkTime ids.1 ids.2 micros := by
  unfold parseProcessorOk
  cases contains "TX_PROCESSOR".toList line with
  | false => simp
  | true =>
    cases contains "processed successfully".toList line with
    | false => simp
    | true =>
      simp only [Bool.not_true, Bool.or_false, Bool.false_eq_true, if_false, true_and]
      exact bind_map_eq_some

theorem parseProcessorErr_some (h : parseProcessorErr line = some ev) :
    ∃ ids error, captures (bracketedIds "TX_PROCESSOR".toList) line = some ids ∧
      extractErrorMessageAfterPrefix line "Transaction failed: ".toList = some error ∧
      ev = .processorError ids.1 ids.2 error := by
  unfold parseProcessorErr at h
  split at h
  · exact absurd h (by simp)
  · exact bind_map_eq_some.mp h

theorem parseWalletOk_some (h : parseWalletOk lib line = some ev) :
    ∃ hash micros, ev = .walletOkTime hash micros := by
  unfold parseWalletOk at h
  split at h
  · exact absurd h (by simp)
  · obtain ⟨hash, micros, -, -, rfl⟩ := bind_map_eq_some.mp h
    exact ⟨hash, micros, rfl⟩

theorem parseWalletErr_some (h : parseWalletErr line = some ev) :
    ∃ hash error, ev = .walletError hash error := by
  unfold parseWalletErr at h
  split at h
  · exact absurd h (by simp)
  · obtain ⟨hash, error, -, -, rfl⟩ := bind_map_eq_some.mp h
    exact ⟨hash, error, rfl⟩

end

-- ---------------------------------------------------------------------------
-- The order of the scanners
-- ---------------------------------------------------------------------------

/-- What the scanners give, up to the one that reads the event. -/
def Scans (lib : ReaderLib) (line : List Char) (ev : ParsedEvent) : Prop :=
  match ev with
  | .miningSuccess _ => parseMiningSuccess lib line = some ev
  | .rpcSuccess _ _ _ => parseMiningSuccess lib line = none ∧ parseRpcSuccess lib line = some ev
  | .capacity _ =>
    parseMiningSuccess lib line = none ∧ parseRpcSuccess lib line = none ∧
      parseQueueCapacity line = some ev
  | .processorOkTime _ _ _ =>
    parseMiningSuccess lib line = none ∧ parseRpcSuccess lib line = none ∧
      parseQueueCapacity line = none ∧ parseProcessorOk lib line = some ev
  | .processorError _ _ _ =>
    parseMiningSuccess lib line = none ∧ parseRpcSuccess lib line = none ∧
      parseQueueCapacity line = none ∧ parseProcessorOk lib line = none ∧
      parseProcessorErr line = some ev
  | .walletOkTime _ _ =>
    parseMiningSuccess lib line = none ∧ parseRpcSuccess lib line = none ∧
      parseQueueCapacity line = none ∧ parseProcessorOk lib line = none ∧
      parseProcessorErr line = none ∧ parseWalletOk lib line = some ev
  | .walletError _ _ =>
    parseMiningSuccess lib line = none ∧ parseRpcSuccess lib line = none ∧
      parseQueueCapacity line = none ∧ parseProcessorOk lib line = none ∧
      parseProcessorErr line = none ∧ parseWalletOk lib line = none ∧
      parseWalletErr line = some ev

/-- **The order of the scanners.** -/
theorem parseLine_eq_some {lib : ReaderLib} {line : List Char} {ev : ParsedEvent} :
    parseLine lib line = some ev ↔ Scans lib line ev := by
  unfold parseLine
  cases hmining : parseMiningSuccess lib line with
  | some found =>
    obtain ⟨micros, rfl⟩ := parseMiningSuccess_some hmining
    cases ev with
    | _ => simp [Scans, hmining]
  | none =>
    cases hrpc : parseRpcSuccess lib line with
    | some found =>
      obtain ⟨ids, micros, -, -, rfl⟩ := parseRpcSuccess_eq_some.mp hrpc
      cases ev with
      | _ => simp [Scans, hmining, hrpc]
    | none =>
      cases hcapacity : parseQueueCapacity line with
      | some found =>
        obtain ⟨capacity, rfl⟩ := parseQueueCapacity_some hcapacity
        cases ev with
        | _ => simp [Scans, hmining, hrpc, hcapacity]
      | none =>
        cases hok : parseProcessorOk lib line with
        | some found =>
          obtain ⟨-, -, ids, micros, -, -, rfl⟩ := parseProcessorOk_eq_some.mp hok
          cases ev with
          | _ => simp [Scans, hmining, hrpc, hcapacity, hok]
        | none =>
          cases herr : parseProcessorErr line with
          | some found =>
            obtain ⟨ids, error, -, -, rfl⟩ := parseProcessorErr_some herr
            cases ev with
            | _ => simp [Scans, hmining, hrpc, hcapacity, hok, herr]
          | none =>
            cases hwallet : parseWalletOk lib line with
            | some found =>
              obtain ⟨hash, micros, rfl⟩ := parseWalletOk_some hwallet
              cases ev with
              | _ => simp [Scans, hmining, hrpc, hcapacity, hok, herr, hwallet]
            | none =>
              have hkind : parseWalletErr line = some ev → ∃ hash error,
                ev = .walletError hash error := parseWalletErr_some
              cases ev with
              | walletError hash error =>
                simp [Scans, hmining, hrpc, hcapacity, hok, herr, hwallet]
              | _ =>
                refine iff_of_false (fun h => ?_) (by simp [Scans, *])
                obtain ⟨hash, error, heq⟩ := hkind (by simpa using h)
                exact absurd heq (by simp)

-- ---------------------------------------------------------------------------
-- Lines without a scanner's literal
-- ---------------------------------------------------------------------------

section
variable {line : List Char}

theorem parseMiningSuccess_eq_none (lib : ReaderLib)
    (hrecord : contains "mining_".toList line = false)
    (hwallet : contains "Mining completed:".toList line = false) :
    parseMiningSuccess lib line = none := by
  rw [parseMiningSuccess, recordedMicros, extractWalletMiningDuration, hrecord, hwallet]
  rfl

theorem parseRpcSuccess_eq_none (lib : ReaderLib)
    (h : cut ("RPC RESPONSE".toList ++ " [id=".toList) line = none) :
    parseRpcSuccess lib line = none := by
  rw [parseRpcSuccess, captures_eq_none h, Option.bind_none]

theorem parseProcessorOk_eq_none (lib : ReaderLib)
    (h : contains "TX_PROCESSOR".toList line = false) : parseProcessorOk lib line = none := by
  rw [parseProcessorOk, h]
  rfl

theorem parseProcessorErr_eq_none (h : contains "TX_PROCESSOR".toList line = false) :
    parseProcessorErr line = none := by
  rw [parseProcessorErr, h]
  rfl

end

-- ---------------------------------------------------------------------------
-- Parts that a scanner passes over
-- ---------------------------------------------------------------------------

section
variable {before : List Char}

theorem captures_append {marker : List Char} (h : NoStart (marker ++ " [id=".toList) before)
    (rest : List Char) :
    captures (bracketedIds marker) (before ++ rest) = captures (bracketedIds marker) rest := by
  rw [captures, h.firstMatch_append fun _ _ => bracketedIds_prefix, Option.map_map]
  rfl

theorem lineTime_append {lib : ReaderLib} {key : List Char} (h : NoStart (key ++ ['=']) before)
    (rest : List Char) : lineTime lib (before ++ rest) key = lineTime lib rest key := by
  rw [lineTime, lineTime, extractTimeValue, extractTimeValue, h.cut_append, Option.map_map]
  rfl

theorem extractErrorMessage_append {literal : List Char} (h : NoStart literal before)
    (rest : List Char) :
    extractErrorMessageAfterPrefix (before ++ rest) literal =
      extractErrorMessageAfterPrefix rest literal := by
  rw [extractErrorMessageAfterPrefix, extractErrorMessageAfterPrefix, h.cut_append]
  cases cut literal rest <;> rfl

theorem parseRpcSuccess_append (lib : ReaderLib)
    (hids : NoStart ("RPC RESPONSE".toList ++ " [id=".toList) before)
    (htime : NoStart ("time".toList ++ ['=']) before) (rest : List Char) :
    parseRpcSuccess lib (before ++ rest) = parseRpcSuccess lib rest := by
  rw [parseRpcSuccess, parseRpcSuccess, captures_append hids, lineTime_append htime]

theorem parseProcessorOk_append (lib : ReaderLib)
    (hmarker : NoStart "TX_PROCESSOR".toList before)
    (hok : NoStart "processed successfully".toList before)
    (hids : NoStart ("TX_PROCESSOR".toList ++ " [id=".toList) before)
    (htime : NoStart ("time".toList ++ ['=']) before) (rest : List Char) :
    parseProcessorOk lib (before ++ rest) = parseProcessorOk lib rest := by
  rw [parseProcessorOk, parseProcessorOk, hmarker.contains_append, hok.contains_append,
    captures_append hids, lineTime_append htime]

theorem parseProcessorErr_append
    (hmarker : NoStart "TX_PROCESSOR".toList before)
    (hfailed : NoStart "Transaction failed:".toList before)
    (hids : NoStart ("TX_PROCESSOR".toList ++ " [id=".toList) before)
    (herror : NoStart "Transaction failed: ".toList before) (rest : List Char) :
    parseProcessorErr (before ++ rest) = parseProcessorErr rest := by
  rw [parseProcessorErr, parseProcessorErr, hmarker.contains_append, hfailed.contains_append,
    captures_append hids, extractErrorMessage_append herror]

end

end IgraRpc
