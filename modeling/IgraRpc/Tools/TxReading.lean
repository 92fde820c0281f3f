import IgraRpc.Tools.TxEvents

/-!
# All transaction lines, as the reader reads them

* `failed_not_readRight` — **the worker's failure is never read as one**: it is a record with
  fields, and what the reader looks for is the sentence of an older version;
* `sendFailed_readRight_iff`, `sent_readRight_iff` — the calls of the wallet, with any error
  text;
* `readRight_unmasked` — **every line is read right exactly under its condition**.
-/

namespace IgraRpc

open Lib Lib.Text

-- ---------------------------------------------------------------------------
-- The worker's failure
-- ---------------------------------------------------------------------------

section
variable (lib : ReaderLib) (id : List Char) (hash : FixedBytes 32) (payloadSize : Nat)
  (d : Duration) (errorCount : Nat) (err : List Char) (timestamp : Timestamp)

/-- The fields of the alert before the error. -/
def failedFields : List (String × List Char) := [
  ("alert_type", strText "operational"),
  ("alert_severity", strText "critical"),
  ("alert_name", strText "AsyncTransactionFailed"),
  ("id", id),
  ("hash", hashChars hash),
  ("payload_size", natText payloadSize),
  ("duration_ms", natText d.asMillis),
  ("total_errors", natText errorCount)]

/-- The alert up to the error. -/
def failedBefore : List Char :=
  ("transaction failed after enqueue " ++
    "(client already received hash; reconcile by tx hash)").toList ++
    fieldsText (failedFields id hash payloadSize d errorCount) ++ " error=".toList

theorem failed_line :
    (TxRecord.failed id hash payloadSize d errorCount err timestamp).line =
      failedBefore id hash payloadSize d errorCount ++
        (err ++ (" timestamp=".toList ++ timestamp.text)) := by
  have herror : " error=".toList = ' ' :: ("error".toList ++ ['=']) := by decide
  have htimestamp : " timestamp=".toList = ' ' :: ("timestamp".toList ++ ['=']) := by decide
  show _ ++ fieldsText (failedFields id hash payloadSize d errorCount ++
      [("error", err), ("timestamp", timestamp.text)]) =
    (_ ++ fieldsText (failedFields id hash payloadSize d errorCount) ++ " error=".toList) ++
      (err ++ (" timestamp=".toList ++ timestamp.text))
  rw [fieldsText_append, fieldsText_cons, fieldsText_cons, fieldText_mk, fieldText_mk, herror,
    htimestamp]
  simp only [fieldsText_nil, List.append_assoc, List.cons_append, List.nil_append,
    List.append_nil]
  rfl

theorem comma_notMem_failedBefore (hid : ',' ∉ id) :
    ',' ∉ failedBefore id hash payloadSize d errorCount := by
  have hfields : ',' ∉ fieldsText (failedFields id hash payloadSize d errorCount) := by
    refine notMem_fieldsText (by decide) (by decide) fun field hfield => ?_
    simp only [failedFields, List.mem_cons, List.not_mem_nil, or_false] at hfield
    rcases hfield with rfl | rfl | rfl | rfl | rfl | rfl | rfl | rfl
    · decide
    · decide
    · decide
    · exact ⟨by dsimp only; decide, hid⟩
    · exact ⟨by dsimp only; decide, notMem_hashChars (by decide) hash⟩
    · exact ⟨by dsimp only; decide, notMem_natText (by decide) _⟩
    · exact ⟨by dsimp only; decide, notMem_natText (by decide) _⟩
    · exact ⟨by dsimp only; decide, notMem_natText (by decide) _⟩
  show ',' ∉ (_ ++ fieldsText (failedFields id hash payloadSize d errorCount)) ++ " error=".toList
  rw [List.mem_append, List.mem_append, not_or, not_or]
  exact ⟨⟨by decide, hfields⟩, by decide⟩

/-- An error text that was cut out of a line has no comma, or the line has a `, time=` behind
the error's beginning that the text does not have. -/
theorem extractErrorMessage_some {line literal error : List Char}
    (h : extractErrorMessageAfterPrefix line literal = some error) :
    ',' ∉ error ∨ (", time=".toList <:+: line ∧ ¬ ", time=".toList <:+: error) := by
  obtain ⟨⟨before, rest⟩, hcut, hmessage⟩ := Option.bind_eq_some_iff.mp h
  have hline := cut_some hcut
  simp only at hmessage
  split at hmessage
  · exact absurd hmessage (by simp)
  · split at hmessage
    · next message more htime =>
      obtain rfl := Option.some.inj hmessage
      refine Or.inr ⟨?_, fun hin => ?_⟩
      · rw [hline, cut_some htime]
        exact List.infix_append_of_infix_right (List.infix_append_of_infix_right
          (List.infix_append_of_infix_right List.infix_append_left))
      · exact not_infix_of_cut (by decide) htime (hin.trans (trim_infix_self message))
    · obtain rfl := Option.some.inj hmessage
      refine Or.inl fun hmem => ?_
      exact absurd (List.mem_takeWhile_imp ((trim_infix_self _).subset hmem)) (by simp)

/-- **The worker's failure is never read as one.** -/
theorem failed_not_readRight :
    ¬ (TxRecord.failed id hash payloadSize d errorCount err timestamp).ReadRight lib := by
  intro h
  obtain ⟨-, -, -, -, hscan⟩ := parseLine_eq_some.mp h
  obtain ⟨⟨id', hash'⟩, error, hids, herror, heq⟩ := parseProcessorErr_some hscan
  obtain ⟨rfl, rfl, rfl⟩ := ParsedEvent.processorError.inj heq
  obtain ⟨hbare, hcomma⟩ := captures_bracketedIds hids
  have hbefore := comma_notMem_failedBefore id hash payloadSize d errorCount hbare.2.1
  have hafter : ',' ∉ " timestamp=".toList ++ timestamp.text := by
    rw [List.mem_append, not_or]
    exact ⟨by decide, timestamp.noComma⟩
  rw [failed_line] at hcomma herror
  -- the only comma of the line is in the error
  have hin : ',' ∈ err := by
    rcases List.mem_append.mp hcomma with hmem | hmem
    · exact absurd hmem hbefore
    · exact (List.mem_append.mp hmem).resolve_right hafter
  rcases extractErrorMessage_some herror with hnone | ⟨htime, hnot⟩
  · exact hnone hin
  · rw [← contains_eq_true, (noStart_of_head (by decide) hbefore).contains_append,
      contains_eq_true, List.infix_append_iff_ne_nil] at htime
    rcases htime with htime | htime | ⟨s, r, hs, hr, hsplit, -, hprefix⟩
    · exact hnot htime
    · exact hafter (htime.subset (by decide))
    · have hshort : ∀ r ∈ ", time=".toList.tails, r ≠ [] → r ≠ ", time=".toList →
          agree r " timestamp=".toList = false := by decide
      have hsuffix : r ∈ ", time=".toList.tails := by
        rw [List.mem_tails, hsplit]
        exact List.suffix_append s r
      have hne : r ≠ ", time=".toList := by
        intro heq
        rw [heq] at hsplit
        exact hs (List.append_left_eq_self.mp hsplit.symm)
      have hagree := agree_of_prefix_append hprefix
      rw [hshort r hsuffix hr hne] at hagree
      exact absurd hagree (by simp)

end

-- ---------------------------------------------------------------------------
-- The call of the wallet
-- ---------------------------------------------------------------------------

/-- The line of a wallet call up to the closing bracket. -/
def walletBefore (hash : FixedBytes 32) : List Char :=
  "WALLET_CALL [hash=".toList ++ (hashChars hash ++ [']'])

theorem callMarker_eq : "WALLET_CALL [hash=".toList = "WALLET_CALL".toList ++ " [hash=".toList := by
  decide

theorem timeKey_eq : ", time=".toList = ',' :: " time=".toList := by decide

/-- A literal with a character that no hash has does not begin before the closing bracket. -/
theorem walletBefore_noStart {literal : List Char} (c : Char)
    (h : c ∈ literal ∧ c ∉ "0x123456789abcdef".toList ∧ ']' ∉ literal ∧
      mayStart literal "WALLET_CALL [hash=".toList = false) (hash : FixedBytes 32) :
    NoStart literal (walletBefore hash) :=
  have ⟨hc, hchar, hbracket, hmay⟩ := h
  (noStart_of_mayStart hmay).append (noStart_concat hc (notMem_hashChars hchar hash) hbracket)

/-- The literals of the scanners that come before those for the wallet. -/
def walletLiterals : List (List Char) :=
  lineLiterals ++ ["TX_PROCESSOR".toList, "TX_PROCESSOR".toList ++ " [id=".toList,
    "processed successfully".toList, "Transaction failed:".toList, "Transaction failed: ".toList]

theorem wallet_noStart : ∀ literal ∈ walletLiterals, ∀ hash, NoStart literal (walletBefore hash) ∧
    NoStart literal ": Send failed:".toList ∧
    NoStart literal ": Transaction accepted by wallet,".toList := by
  have hshape : ∀ literal ∈ walletLiterals,
      literal.any (fun c => c ∉ "0x123456789abcdef".toList) = true ∧ ']' ∉ literal ∧
      mayStart literal "WALLET_CALL [hash=".toList = false ∧
      mayStart literal ": Send failed:".toList = false ∧
      mayStart literal ": Transaction accepted by wallet,".toList = false := by decide +kernel
  intro literal hmem hash
  obtain ⟨hforeign, hbracket, hwallet, hfailed, haccepted⟩ := hshape literal hmem
  obtain ⟨c, hc, hchar⟩ := List.any_iff_exists_prop.mp hforeign
  exact ⟨walletBefore_noStart c ⟨hc, hchar, hbracket, hwallet⟩ hash, noStart_of_mayStart hfailed,
    noStart_of_mayStart haccepted⟩

theorem captures_wallet (hash : FixedBytes 32) (rest : List Char) :
    captures (bracketedHash "WALLET_CALL".toList) (walletBefore hash ++ rest) =
      some (hashChars hash) := by
  have hmatch : bracketedHash "WALLET_CALL".toList (walletBefore hash ++ rest) =
      some (hashChars hash) := by
    have hgroup := upTo_eq (hashChars_ne_nil hash)
      (notMem_hashChars (by decide) hash : ']' ∉ hashChars hash) rest
    show (stripPrefix _ (("WALLET_CALL [hash=".toList ++ (hashChars hash ++ [']'])) ++ rest)).bind
      _ = _
    rw [callMarker_eq, List.append_assoc, stripPrefix_append, Option.bind_some, List.append_assoc]
    exact hgroup
  rw [captures, firstMatch_of_some hmatch, Option.map_some]

/-- The text of a failed call, from the blank before the error on. -/
def sendFailedText (errorMsg : List Char) (d : Duration) : List Char :=
  (' ' :: errorMsg) ++ ',' :: (" time=".toList ++ d.debug)

section
variable (lib : ReaderLib) (hash : FixedBytes 32) (errorMsg : List Char) (d : Duration)

theorem sendFailed_line : (TxRecord.sendFailed hash errorMsg d).line =
    (walletBefore hash ++ ": Send failed:".toList) ++ sendFailedText errorMsg d := by
  have hfailed : ": Send failed: ".toList = ": Send failed:".toList ++ [' '] := by decide
  show "WALLET_CALL [hash=".toList ++ hashChars hash ++
      ']' :: (": Send failed: ".toList ++ errorMsg ++ ", time=".toList ++ d.debug) =
    (("WALLET_CALL [hash=".toList ++ (hashChars hash ++ [']'])) ++ ": Send failed:".toList) ++
      ((' ' :: errorMsg) ++ ',' :: (" time=".toList ++ d.debug))
  rw [hfailed, timeKey_eq]
  simp only [List.append_assoc, List.cons_append, List.nil_append]

/-- A literal of the scanners for mining and capacities lies in the error, if anywhere. -/
theorem foreign_sendFailed {literal : List Char} (hliteral : literal ∈ lineLiterals)
    (hkey : ¬ literal <:+ " time=".toList) :
    Foreign (walletBefore hash ++ ": Send failed:".toList) (" time=".toList ++ d.debug)
      literal where
  ne_nil := literal_ne_nil hliteral
  noComma := (literal_shape literal hliteral).2.1
  noStart :=
    have hwallet := wallet_noStart literal (List.mem_append_left _ hliteral) hash
    hwallet.1.append hwallet.2.1
  absent := by
    rw [(key_noStart _ List.mem_cons_self literal hliteral hkey).cut_append,
      cut_eq_none_of_notMem 'i' (literal_shape literal hliteral).1
        (notMem_debug (by decide) d), Option.map_none]

/-- **The error of a failed call.** It is read up to its own `, time=`, and without white space
at its ends. -/
theorem extractErrorMessage_sendFailed :
    extractErrorMessageAfterPrefix ((walletBefore hash ++ ": Send failed:".toList) ++
        sendFailedText errorMsg d) "Send failed: ".toList = some errorMsg ↔
      ¬ ", time=".toList <:+: errorMsg ∧ trim errorMsg = errorMsg := by
  have hsplit : (walletBefore hash ++ ": Send failed:".toList) ++ sendFailedText errorMsg d =
      (walletBefore hash ++ ": ".toList) ++
        ("Send failed: ".toList ++ (errorMsg ++ (", time=".toList ++ d.debug))) := by
    have hfailed : ": Send failed:".toList ++ [' '] = ": ".toList ++ "Send failed: ".toList := by
      decide
    calc (walletBefore hash ++ ": Send failed:".toList) ++ sendFailedText errorMsg d
        = walletBefore hash ++ ((": Send failed:".toList ++ [' ']) ++
            (errorMsg ++ ',' :: (" time=".toList ++ d.debug))) := by
          show _ ++ ((' ' :: errorMsg) ++ ',' :: (" time=".toList ++ d.debug)) = _
          simp only [List.append_assoc, List.cons_append, List.nil_append]
      _ = _ := by
          rw [hfailed, timeKey_eq]
          simp only [List.append_assoc, List.cons_append]
  have hbefore : NoStart "Send failed: ".toList (walletBefore hash ++ ": ".toList) :=
    (walletBefore_noStart 'S' (by decide) hash).append
      (noStart_of_mayStart (by decide))
  have hrest : (errorMsg ++ (", time=".toList ++ d.debug)).isEmpty = false := by
    rw [List.isEmpty_eq_false_iff]
    intro hnil
    exact absurd (List.append_eq_nil_iff.mp (List.append_eq_nil_iff.mp hnil).2).1 (by decide)
  rw [hsplit, extractErrorMessageAfterPrefix, hbefore.cut_append, cut_literal, Option.map_some,
    Option.bind_some]
  simp only [Prod.map_snd, id_eq, hrest, Bool.false_eq_true, if_false]
  by_cases hin : ", time=".toList <:+: errorMsg
  · obtain ⟨⟨message, more⟩, hcut⟩ := Option.isSome_iff_exists.mp (contains_eq_true.mpr hin)
    rw [cut_append_of_some hcut]
    refine iff_of_false (fun heq => ?_) fun h => h.1 hin
    have hmessage : trim message = errorMsg := Option.some.inj heq
    rw [← hmessage] at hin
    exact not_infix_of_cut (by decide) hcut (hin.trans (trim_infix_self message))
  · have hself := cut_append_self (by decide : ',' ∉ " time=".toList)
      (timeKey_eq ▸ hin : ¬ ',' :: " time=".toList <:+: errorMsg) d.debug
    rw [timeKey_eq, hself]
    refine ⟨fun heq => ⟨timeKey_eq ▸ hin, Option.some.inj heq⟩, fun h => congrArg some h.2⟩

theorem wallet_contains {literal : List Char} (h : literal <:+: ": Send failed:".toList)
    (text : List Char) :
    contains literal ((walletBefore hash ++ ": Send failed:".toList) ++ text) = true := by
  rw [contains_eq_true]
  exact List.infix_append_of_infix_left (List.infix_append_of_infix_right h)

theorem wallet_marker (rest : List Char) :
    contains "WALLET_CALL".toList (walletBefore hash ++ rest) = true := by
  rw [contains_eq_true]
  show _ <:+: ("WALLET_CALL [hash=".toList ++ (hashChars hash ++ [']'])) ++ rest
  rw [callMarker_eq, List.append_assoc, List.append_assoc]
  exact (List.prefix_append _ _).isInfix

/-- The scanner for accepted calls, at a failed one. -/
theorem parseWalletOk_sendFailed (text : List Char) :
    parseWalletOk lib ((walletBefore hash ++ ": Send failed:".toList) ++ text) = none ↔
      (contains "accepted by wallet".toList text = true →
        lineTime lib text "send_time".toList = none) := by
  have haccepted : NoStart "accepted by wallet".toList
      (walletBefore hash ++ ": Send failed:".toList) :=
    (walletBefore_noStart 'p' (by decide) hash).append
      (noStart_of_mayStart (by decide))
  have htime : NoStart ("send_time".toList ++ ['='])
      (walletBefore hash ++ ": Send failed:".toList) :=
    (walletBefore_noStart 's' (by decide) hash).append
      (noStart_of_mayStart (by decide))
  have hhash := captures_wallet hash (": Send failed:".toList ++ text)
  have hmarker := wallet_marker hash (": Send failed:".toList ++ text)
  rw [← List.append_assoc] at hhash hmarker
  rw [parseWalletOk, hmarker, haccepted.contains_append, hhash, lineTime_append htime,
    Option.bind_some]
  cases contains "accepted by wallet".toList text with
  | false => simp
  | true => simp

/-- The scanner for failed calls, at one. -/
theorem parseWalletErr_sendFailed :
    parseWalletErr ((walletBefore hash ++ ": Send failed:".toList) ++
        sendFailedText errorMsg d) = some (.walletError (hashChars hash) errorMsg) ↔
      ¬ ", time=".toList <:+: errorMsg ∧ trim errorMsg = errorMsg := by
  have hfailed := @wallet_contains hash "Send failed:".toList ⟨": ".toList, [], by decide⟩
    (sendFailedText errorMsg d)
  have hhash := captures_wallet hash (": Send failed:".toList ++ sendFailedText errorMsg d)
  have hmarker := wallet_marker hash (": Send failed:".toList ++ sendFailedText errorMsg d)
  rw [← List.append_assoc] at hhash hmarker
  rw [parseWalletErr, hmarker, hfailed, hhash, ← extractErrorMessage_sendFailed hash errorMsg d]
  simp only [Bool.not_true, Bool.or_self, Bool.false_eq_true, if_false, Option.bind_some,
    Option.map_eq_some_iff, ParsedEvent.walletError.injEq, true_and, exists_eq_right]

/-- The condition, in terms of the text behind the bracket. -/
theorem sendFailed_unmasked_iff : (TxRecord.sendFailed hash errorMsg d).Unmasked lib ↔
    parseMiningSuccess lib ((' ' :: errorMsg) ++ [',']) = none ∧
      parseRpcSuccess lib (sendFailedText errorMsg d) = none ∧
      extractCapacityValue (' ' :: errorMsg) = none ∧
      parseProcessorOk lib (sendFailedText errorMsg d) = none ∧
      parseProcessorErr (sendFailedText errorMsg d) = none ∧
      (contains "accepted by wallet".toList (sendFailedText errorMsg d) = true →
        lineTime lib (sendFailedText errorMsg d) "send_time".toList = none) ∧
      ¬ ", time=".toList <:+: errorMsg ∧ trim errorMsg = errorMsg := by
  have htext : sendFailedText errorMsg d =
      (' ' :: errorMsg) ++ ", time=".toList ++ d.debug := by
    show (' ' :: errorMsg) ++ ',' :: (" time=".toList ++ d.debug) = _
    rw [timeKey_eq, List.append_assoc]
    rfl
  rw [htext]
  exact Iff.rfl

/-- **A failed call of the wallet.** -/
theorem sendFailed_readRight_iff :
    (TxRecord.sendFailed hash errorMsg d).ReadRight lib ↔
      (TxRecord.sendFailed hash errorMsg d).Unmasked lib := by
  have hpass : ∀ literal ∈ walletLiterals,
      NoStart literal (walletBefore hash ++ ": Send failed:".toList) := fun literal hmem =>
    (wallet_noStart literal hmem hash).1.append (wallet_noStart literal hmem hash).2.1
  have hmining := parseMiningSuccess_foreign lib (fun literal hmem =>
    foreign_sendFailed hash d (mining_mem_lineLiterals hmem)
      (mining_not_key literal hmem _ List.mem_cons_self)) (' ' :: errorMsg)
  have hcapacity : extractCapacityValue ((walletBefore hash ++ ": Send failed:".toList) ++
      sendFailedText errorMsg d) = extractCapacityValue (' ' :: errorMsg) := by
    rw [extractCapacityValue, extractCapacityValue, sendFailedText,
      extractTimeValue_foreign (foreign_sendFailed hash d available_mem (by decide)),
      extractTimeValue_foreign (foreign_sendFailed hash d capacity_mem (by decide))]
  have hrpc := parseRpcSuccess_append lib (hpass rpcLiteral (by decide))
    (hpass ("time".toList ++ ['=']) (by decide)) (sendFailedText errorMsg d)
  have hok := parseProcessorOk_append lib (hpass "TX_PROCESSOR".toList (by decide))
    (hpass "processed successfully".toList (by decide))
    (hpass ("TX_PROCESSOR".toList ++ " [id=".toList) (by decide))
    (hpass ("time".toList ++ ['=']) (by decide)) (sendFailedText errorMsg d)
  have herr := parseProcessorErr_append (hpass "TX_PROCESSOR".toList (by decide))
    (hpass "Transaction failed:".toList (by decide))
    (hpass ("TX_PROCESSOR".toList ++ " [id=".toList) (by decide))
    (hpass "Transaction failed: ".toList (by decide)) (sendFailedText errorMsg d)
  have hline : (TxRecord.sendFailed hash errorMsg d).ReadRight lib ↔
      parseLine lib (TxRecord.sendFailed hash errorMsg d).line =
        some (.walletError (hashChars hash) errorMsg) := Iff.rfl
  rw [hline, sendFailed_unmasked_iff, sendFailed_line, parseLine_eq_some, Scans, hrpc,
    parseQueueCapacity, hcapacity, Option.map_eq_none_iff, hok, herr, parseWalletOk_sendFailed,
    parseWalletErr_sendFailed]
  exact and_congr_left' (Eq.congr_left hmining)

end

section
variable (lib : ReaderLib) (hash : FixedBytes 32) (payloadSize : Nat) (d : Duration)

/-- The line of an accepted call up to the comma before the time. -/
def sentBefore : List Char :=
  (walletBefore hash ++ ": Transaction accepted by wallet,".toList) ++
    (" payload_size=".toList ++ natText payloadSize)

theorem sent_line : (TxRecord.sent hash payloadSize d).line =
    sentBefore hash payloadSize ++ (", send_time=".toList ++ d.debug) := by
  have hsize : ": Transaction accepted by wallet, payload_size=".toList =
      ": Transaction accepted by wallet,".toList ++ " payload_size=".toList := by decide
  show "WALLET_CALL [hash=".toList ++ hashChars hash ++
      ']' :: (": Transaction accepted by wallet, payload_size=".toList ++ natText payloadSize ++
        ", send_time=".toList ++ d.debug) =
    ((("WALLET_CALL [hash=".toList ++ (hashChars hash ++ [']'])) ++
      ": Transaction accepted by wallet,".toList) ++
        (" payload_size=".toList ++ natText payloadSize)) ++
      (", send_time=".toList ++ d.debug)
  rw [hsize]
  simp only [List.append_assoc, List.cons_append, List.nil_append]

/-- What is not found in the pieces of the line is not found before the time. -/
theorem sentBefore_noStart {literal : List Char}
    (hwallet : NoStart literal (walletBefore hash))
    (haccepted : mayStart literal ": Transaction accepted by wallet,".toList = false)
    (hsize : mayStart literal " payload_size=".toList = false) {c : Char}
    (hhead : literal.head? = some c) (hdigit : c.isDigit = false) :
    NoStart literal (sentBefore hash payloadSize) :=
  (hwallet.append (noStart_of_mayStart haccepted)).append ((noStart_of_mayStart hsize).append
    (noStart_of_head hhead (notMem_natText hdigit payloadSize)))

/-- The earlier scanners find nothing in the line. -/
theorem sent_absent : ∀ literal ∈ walletLiterals, literal ≠ "time".toList ++ ['='] →
    cut literal (TxRecord.sent hash payloadSize d).line = none := by
  have hshape : ∀ literal ∈ walletLiterals,
      literal.any (fun c => c.isDigit = false ∧ c ∉ ".smµn".toList) = true ∧
      literal.head?.any (fun c => !c.isDigit) = true ∧
      mayStart literal ": Transaction accepted by wallet,".toList = false ∧
      mayStart literal " payload_size=".toList = false ∧
      (literal = "time".toList ++ ['='] ∨
        mayStart literal ", send_time=".toList = false) := by decide +kernel
  intro literal hmem hne
  obtain ⟨hforeign, hfirst, haccepted, hsize, hkey⟩ := hshape literal hmem
  obtain ⟨c, hc, hshape'⟩ := List.any_iff_exists_prop.mp hforeign
  obtain ⟨c', hhead, hdigit'⟩ := (Option.any_eq_true _ _).mp hfirst
  have hbefore := sentBefore_noStart hash payloadSize (wallet_noStart literal hmem hash).1
    haccepted hsize hhead (Bool.not_eq_true' _ ▸ hdigit')
  rw [sent_line, hbefore.cut_append, (noStart_of_mayStart (hkey.resolve_left hne)).cut_append,
    cut_eq_none_of_notMem c hc (notMem_debug hshape' d)]
  rfl

/-- The time of the line. -/
theorem lineTime_sent :
    lineTime lib (TxRecord.sent hash payloadSize d).line "send_time".toList =
      parseDurationMicros lib.humantime d.debug := by
  have hwallet := @walletBefore_noStart ("send_time".toList ++ ['=']) 't' (by decide) hash
  have hpass := sentBefore_noStart hash payloadSize hwallet (by decide) (by decide)
    (rfl : ("send_time".toList ++ ['=']).head? = some 's') (by decide)
  have hcomma : NoStart ("send_time".toList ++ ['=']) ", ".toList :=
    noStart_of_mayStart (by decide)
  have hkey : ", send_time=".toList = ", ".toList ++ ("send_time".toList ++ ['=']) := by decide
  have htake : d.debug.takeWhile (fun c => !(c == ',' || isAsciiWhitespace c)) = d.debug :=
    List.takeWhile_eq_self_iff.mpr fun c hc => by
      rw [← endsValue, endsValue_debug d c hc]
      rfl
  rw [sent_line, lineTime_append hpass, hkey, List.append_assoc, lineTime_append hcomma, lineTime,
    extractTimeValue, cut_literal, Option.map_some, htake, Option.bind_some]

/-- The scanner for accepted calls, at one. -/
theorem parseWalletOk_sent :
    parseWalletOk lib (TxRecord.sent hash payloadSize d).line =
      (parseDurationMicros lib.humantime d.debug).map (.walletOkTime (hashChars hash)) := by
  have hline : (TxRecord.sent hash payloadSize d).line =
      walletBefore hash ++ (": Transaction accepted by wallet,".toList ++
        (" payload_size=".toList ++ natText payloadSize ++
          (", send_time=".toList ++ d.debug))) := by
    rw [sent_line]
    show ((walletBefore hash ++ ": Transaction accepted by wallet,".toList) ++
      (" payload_size=".toList ++ natText payloadSize)) ++ (", send_time=".toList ++ d.debug) = _
    simp only [List.append_assoc]
  have hhash : captures (bracketedHash "WALLET_CALL".toList)
      (TxRecord.sent hash payloadSize d).line = some (hashChars hash) := by
    rw [hline, captures_wallet]
  have hmarker : contains "WALLET_CALL".toList (TxRecord.sent hash payloadSize d).line = true := by
    rw [hline, wallet_marker]
  have haccepted : contains "accepted by wallet".toList
      (TxRecord.sent hash payloadSize d).line = true := by
    have hin : "accepted by wallet".toList <:+: ": Transaction accepted by wallet,".toList :=
      ⟨": Transaction ".toList, ",".toList, by decide⟩
    rw [hline, contains_eq_true]
    exact List.infix_append_of_infix_right (List.infix_append_of_infix_left hin)
  rw [parseWalletOk, hmarker, haccepted, hhash, lineTime_sent]
  rfl

/-- **A call of the wallet that succeeded.** -/
theorem sent_readRight_iff : (TxRecord.sent hash payloadSize d).ReadRight lib ↔
    (TxRecord.sent hash payloadSize d).Unmasked lib := by
  have habsent := sent_absent hash payloadSize d
  have hcontains : ∀ literal ∈ walletLiterals, literal ≠ "time".toList ++ ['='] →
      contains literal (TxRecord.sent hash payloadSize d).line = false := by
    intro literal hmem hne
    rw [contains, habsent literal hmem hne]
    rfl
  have hmining := parseMiningSuccess_eq_none lib
    (hcontains "mining_".toList (by decide) (by decide))
    (hcontains "Mining completed:".toList (by decide) (by decide))
  have hrpc := parseRpcSuccess_eq_none lib (habsent rpcLiteral (by decide) (by decide))
  have hcapacity : parseQueueCapacity (TxRecord.sent hash payloadSize d).line = none := by
    rw [parseQueueCapacity, extractCapacityValue, extractTimeValue, extractTimeValue,
      habsent _ (List.mem_append_left _ available_mem) (by decide),
      habsent _ (List.mem_append_left _ capacity_mem) (by decide)]
    rfl
  have hprocessor := hcontains "TX_PROCESSOR".toList (by decide) (by decide)
  have hok := parseProcessorOk_eq_none lib hprocessor
  have herr := parseProcessorErr_eq_none hprocessor
  show (∃ micros, parseLine lib (TxRecord.sent hash payloadSize d).line =
      some (.walletOkTime (hashChars hash) micros) ∧ SameMicros micros d) ↔ d.Told
  rw [← debug_reads_iff lib.humantime d]
  simp only [parseLine_eq_some, Scans, hmining, hrpc, hcapacity, hok, herr, parseWalletOk_sent,
    true_and, Option.map_eq_some_iff, ParsedEvent.walletOkTime.injEq, exists_eq_right]

end

-- ---------------------------------------------------------------------------
-- Every line
-- ---------------------------------------------------------------------------

theorem validatedPiece_noStart {literal : List Char} (hliteral : literal ∈ lineLiterals)
    (payloadSize : Nat) :
    NoStart literal (": Validated, queueing for background processing, payload_size=".toList ++
      (natText payloadSize ++ ",".toList)) := by
  have hpieces := passesPieces literal hliteral
  exact hpieces.validated.append ((natText_noStart hliteral payloadSize).append hpieces.comma)

/-- **A line is read right exactly under its condition.** -/
theorem readRight_unmasked (lib : ReaderLib) (r : TxRecord) : r.ReadRight lib ↔ r.Unmasked lib := by
  cases r with
  | accepted id hash d estimatedSize => exact accepted_readRight_iff lib id hash d estimatedSize
  | validated id hash payloadSize availableCapacity =>
    show parseLine lib (tagged "TX".toList id (hashChars hash)
        (TxRecord.validated id hash payloadSize availableCapacity).tail) =
      some (.capacity availableCapacity.toNat) ↔
        Quiet lib id hash ∧ KeepsCapacity id availableCapacity
    rw [validated_tail]
    exact available_readRight_iff lib id hash fun _ hmem => validatedPiece_noStart hmem payloadSize
  | queued id hash availableCapacity =>
    show parseLine lib (tagged "TX".toList id (hashChars hash)
        (TxRecord.queued id hash availableCapacity).tail) =
      some (.capacity availableCapacity.toNat) ↔
        Quiet lib id hash ∧ KeepsCapacity id availableCapacity
    rw [queued_tail]
    exact available_readRight_iff lib id hash fun literal hmem => (passesPieces literal hmem).queued
  | queueFull id hash => exact queueFull_readRight_iff lib id hash
  | processed id hash d txBytes processedCount errorCount =>
    exact processed_readRight_iff lib id hash d txBytes processedCount errorCount
  | failed id hash payloadSize d errorCount err timestamp =>
    exact iff_of_false (failed_not_readRight lib id hash payloadSize d errorCount err
      timestamp) not_false
  | sendFailed hash errorMsg d => exact sendFailed_readRight_iff lib hash errorMsg d
  | sent hash payloadSize d => exact sent_readRight_iff lib hash payloadSize d

/-- The whole queue is free, by the rejection of a full one. -/
example : parseLine ⟨fun _ => none, Char.isDigit, by decide⟩
    (TxRecord.queueFull "1".toList ⟨List.replicate 32 0, rfl⟩).line =
      some (.capacity transactionQueueCapacity) := by decide +kernel

end IgraRpc
