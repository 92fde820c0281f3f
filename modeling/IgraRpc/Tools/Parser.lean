import IgraRpc.Lib.Scan
import IgraRpc.Tools.Duration

/-!
# Reading log lines — `tools/tx_perf/parser.rs`

`parseLine` tries seven scanners in a fixed order. Each looks for literals anywhere in the
line, so that an id or an error text inside the line takes part in the search.

* `Foreign` — a literal that neither side of a text can contribute to;
* `parseMiningSuccess_foreign`, `extractTimeValue_foreign`, … — **what a scanner makes of a
  line is then what it makes of the text in the middle**.

The regular expressions are read from left to right: in each of them a greedy run ends at a
symbol that the run excludes, so there is no backtracking.
-/

namespace IgraRpc

open Lib Lib.Text

-- ---------------------------------------------------------------------------
-- The code
-- ---------------------------------------------------------------------------

/-- What the reader takes from libraries: `humantime`, and the class `\d`. -/
structure ReaderLib where
  humantime : Humantime
  isDecimal : Char → Bool
  comma_notDecimal : isDecimal ',' = false

inductive ParsedEvent where
  | miningSuccess (durationMicros : Nat)
  | rpcSuccess (id hash : List Char) (latencyMicros : Nat)
  | processorError (id hash error : List Char)
  | walletError (hash error : List Char)
  | capacity (capacity : Nat)
  | walletOkTime (hash : List Char) (sendMicros : Nat)
  | processorOkTime (id hash : List Char) (timeMicros : Nat)
  deriving DecidableEq

/-- What stands between a key and its number. -/
def isSeparator (c : Char) : Bool := c == ' ' || c == '\t' || c == '=' || c == ':' || c == '"'

/-- `[0-9.]`. -/
def isNumeric (c : Char) : Bool := c.isDigit || c == '.'

/-- `extract_numeric_after_key`. -/
def extractNumericAfterKey (line key : List Char) : Option F64 :=
  (cut key line).bind fun found =>
    let number := (found.2.dropWhile isSeparator).takeWhile isNumeric
    if number.isEmpty then none else F64.parse number

/-- A product in microseconds, if it is neither negative nor out of range. -/
def positiveMicros (micros : F64) : Option Nat :=
  if !micros.round.isSignNegative && micros.round.isFinite then some (micros.round.toNat maxMicros)
  else none

/-- The duration in a record's fields: milliseconds, or else seconds. -/
def recordedMicros (line : List Char) : Option Nat :=
  if contains "mining_".toList line then
    match extractNumericAfterKey line "mining_duration_ms".toList with
    | some ms => positiveMicros (ms.mul (.ofRat false 1000))
    | none =>
      match extractNumericAfterKey line "mining_duration_seconds".toList with
      | some sec => positiveMicros (sec.mul (.ofRat false 1000000))
      | none => none
  else none

/-- `p+`: what follows the run. -/
def oneOrMore (p : Char → Bool) (text : List Char) : Option (List Char) :=
  if text.takeWhile p = [] then none else some (text.dropWhile p)

/-- `([^c]+)c`: the group. -/
def upTo (c : Char) (text : List Char) : Option (List Char) :=
  if text.takeWhile (· ≠ c) = [] ∨ text.dropWhile (· ≠ c) = [] then none
  else some (text.takeWhile (· ≠ c))

/-- `Mining completed:\s+\d+\s+nonces in ([^,]+),`. -/
def miningCompleted (lib : ReaderLib) (text : List Char) : Option (List Char) :=
  (stripPrefix "Mining completed:".toList text).bind fun text =>
    (oneOrMore isWhitespace text).bind fun text =>
      (oneOrMore lib.isDecimal text).bind fun text =>
        (oneOrMore isWhitespace text).bind fun text =>
          (stripPrefix "nonces in ".toList text).bind (upTo ',')

/-- The groups of the first match. -/
def captures {β : Type} (pattern : List Char → Option β) (line : List Char) : Option β :=
  (firstMatch pattern line).map Prod.snd

/-- `extract_wallet_mining_duration`. -/
def extractWalletMiningDuration (lib : ReaderLib) (line : List Char) : Option (List Char) :=
  if !contains "Mining completed:".toList line || !contains " nonces in ".toList line then none
  else (captures (miningCompleted lib) line).bind fun group =>
    if (trim group).isEmpty then none else some (trim group)

/-- `parse_mining_success`. -/
def parseMiningSuccess (lib : ReaderLib) (line : List Char) : Option ParsedEvent :=
  ((recordedMicros line).or
    ((extractWalletMiningDuration lib line).bind (parseDurationMicros lib.humantime))).map
      .miningSuccess

/-- `[^,\]]`. -/
def isIdChar (c : Char) : Bool := c != ',' && c != ']'

/-- `marker \[id=([^,\]]+), hash=([^\]]+)\]`. -/
def bracketedIds (marker text : List Char) : Option (List Char × List Char) :=
  (stripPrefix (marker ++ " [id=".toList) text).bind fun text =>
    if text.takeWhile isIdChar = [] then none
    else (stripPrefix ", hash=".toList (text.dropWhile isIdChar)).bind fun rest =>
      (upTo ']' rest).map fun hash => (text.takeWhile isIdChar, hash)

/-- `marker \[hash=([^\]]+)\]`. -/
def bracketedHash (marker text : List Char) : Option (List Char) :=
  (stripPrefix (marker ++ " [hash=".toList) text).bind (upTo ']')

/-- `u8::is_ascii_whitespace`. -/
def isAsciiWhitespace (c : Char) : Bool :=
  c == ' ' || c == '\t' || c == '\n' || c == '\x0c' || c == '\r'

/-- `extract_time_value`. -/
def extractTimeValue (line key : List Char) : Option (List Char) :=
  (cut (key ++ ['=']) line).map fun found =>
    found.2.takeWhile fun c => !(c == ',' || isAsciiWhitespace c)

/-- `extract_error_message_after_prefix`. -/
def extractErrorMessageAfterPrefix (line literal : List Char) : Option (List Char) :=
  (cut literal line).bind fun found =>
    if found.2.isEmpty then none
    else
      match cut ", time=".toList found.2 with
      | some (message, _) => some (trim message)
      | none => some (trim (found.2.takeWhile (· ≠ ',')))

/-- `str::parse::<u64>`. -/
def parseU64 (text : List Char) : Option Nat :=
  let digits := if text.head? = some '+' then text.tail else text
  if digits ≠ [] ∧ digits.all Char.isDigit ∧ Nat.ofDigitChars 10 digits 0 < 2 ^ 64 then
    some (Nat.ofDigitChars 10 digits 0)
  else none

/-- `extract_capacity_value`. -/
def extractCapacityValue (line : List Char) : Option Nat :=
  ((extractTimeValue line "available_capacity".toList).bind parseU64).or
    ((extractTimeValue line "capacity".toList).bind parseU64)

/-- The time of a line, in microseconds. -/
def lineTime (lib : ReaderLib) (line key : List Char) : Option Nat :=
  (extractTimeValue line key).bind (parseDurationMicros lib.humantime)

/-- `parse_rpc_success`. -/
def parseRpcSuccess (lib : ReaderLib) (line : List Char) : Option ParsedEvent :=
  (captures (bracketedIds "RPC RESPONSE".toList) line).bind fun ids =>
    (lineTime lib line "time".toList).map fun micros => .rpcSuccess ids.1 ids.2 micros

/-- `parse_queue_capacity`. -/
def parseQueueCapacity (line : List Char) : Option ParsedEvent :=
  (extractCapacityValue line).map .capacity

/-- `parse_processor_ok`. -/
def parseProcessorOk (lib : ReaderLib) (line : List Char) : Option ParsedEvent :=
  if !contains "TX_PROCESSOR".toList line || !contains "processed successfully".toList line then
    none
  else (captures (bracketedIds "TX_PROCESSOR".toList) line).bind fun ids =>
    (lineTime lib line "time".toList).map fun micros => .processorOkTime ids.1 ids.2 micros

/-- `parse_processor_err`. -/
def parseProcessorErr (line : List Char) : Option ParsedEvent :=
  if !contains "TX_PROCESSOR".toList line || !contains "Transaction failed:".toList line then none
  else (captures (bracketedIds "TX_PROCESSOR".toList) line).bind fun ids =>
    (extractErrorMessageAfterPrefix line "Transaction failed: ".toList).map fun error =>
      .processorError ids.1 ids.2 error

/-- `parse_wallet_ok`. -/
def parseWalletOk (lib : ReaderLib) (line : List Char) : Option ParsedEvent :=
  if !contains "WALLET_CALL".toList line || !contains "accepted by wallet".toList line then none
  else (captures (bracketedHash "WALLET_CALL".toList) line).bind fun hash =>
    (lineTime lib line "send_time".toList).map fun micros => .walletOkTime hash micros

/-- `parse_wallet_err`. -/
def parseWalletErr (line : List Char) : Option ParsedEvent :=
  if !contains "WALLET_CALL".toList line || !contains "Send failed:".toList line then none
  else (captures (bracketedHash "WALLET_CALL".toList) line).bind fun hash =>
    (extractErrorMessageAfterPrefix line "Send failed: ".toList).map fun error =>
      .walletError hash error

/-- `parse_line`. -/
def parseLine (lib : ReaderLib) (line : List Char) : Option ParsedEvent :=
  (parseMiningSuccess lib line).or <|
  (parseRpcSuccess lib line).or <|
  (parseQueueCapacity line).or <|
  (parseProcessorOk lib line).or <|
  (parseProcessorErr line).or <|
  (parseWalletOk lib line).or <|
  parseWalletErr line

-- ---------------------------------------------------------------------------
-- Runs and groups up to a symbol
-- ---------------------------------------------------------------------------

theorem oneOrMore_append_cons {p : Char → Bool} {c : Char} (hc : p c = false)
    (text rest : List Char) :
    oneOrMore p (text ++ c :: rest) = (oneOrMore p text).map (· ++ c :: rest) := by
  rw [oneOrMore, oneOrMore, takeWhile_append_stop hc, dropWhile_append_stop hc]
  split <;> rfl

/-- What follows the closing symbol does not matter. -/
theorem upTo_append_cons (c : Char) (text rest rest' : List Char) :
    upTo c (text ++ c :: rest) = upTo c (text ++ c :: rest') := by
  have hstop : decide (c ≠ c) = false := by simp
  have htake := fun rest => takeWhile_append_stop (p := (· ≠ c)) hstop text rest
  have hdrop := fun rest => dropWhile_append_stop (p := (· ≠ c)) hstop text rest
  simp only [upTo, htake, hdrop, List.append_eq_nil_iff, List.cons_ne_nil, and_false]

theorem upTo_eq {c : Char} {group : List Char} (hne : group ≠ []) (hc : c ∉ group)
    (rest : List Char) : upTo c (group ++ c :: rest) = some group := by
  rw [upTo, takeWhile_append_cons hc, dropWhile_append_cons hc, if_neg (by simp [hne])]

-- ---------------------------------------------------------------------------
-- Literals that the sides of a text do not contribute to
-- ---------------------------------------------------------------------------

/-- No occurrence of the literal begins before the text or lies behind it, and none runs over
the comma that ends it. -/
structure Foreign (before rest literal : List Char) : Prop where
  ne_nil : literal ≠ []
  noComma : ',' ∉ literal
  noStart : NoStart literal before
  absent : cut literal rest = none

/-- Without sides. -/
theorem foreign_nil {literal : List Char} (hne : literal ≠ []) (hcomma : ',' ∉ literal) :
    Foreign [] [] literal :=
  ⟨hne, hcomma, noStart_nil literal, (noStart_nil literal).cut_eq_none hne⟩

section
variable {before text rest literal : List Char}

theorem Foreign.cut_eq (h : Foreign before rest literal) (text : List Char) :
    cut literal (before ++ (text ++ ',' :: rest)) =
      (cut literal text).map (Prod.map (before ++ ·) (· ++ ',' :: rest)) := by
  rw [h.noStart.cut_append, cut_append_cons h.noComma h.ne_nil, h.absent, Option.map_none,
    Option.or_none, Option.map_map]
  rfl

theorem Foreign.contains_eq (h : Foreign before rest literal) (text : List Char) :
    contains literal (before ++ (text ++ ',' :: rest)) = contains literal text := by
  rw [contains, h.cut_eq, Option.isSome_map]
  rfl

theorem extractNumericAfterKey_foreign {key : List Char} (h : Foreign before rest key)
    (text : List Char) :
    extractNumericAfterKey (before ++ (text ++ ',' :: rest)) key =
      extractNumericAfterKey text key := by
  rw [extractNumericAfterKey, extractNumericAfterKey, h.cut_eq]
  cases cut key text with
  | none => rfl
  | some found =>
    simp only [Option.map_some, Option.bind_some, Prod.map_snd]
    rw [dropWhile_append_stop (by decide), takeWhile_append_stop (by decide)]

theorem extractTimeValue_foreign {key : List Char} (h : Foreign before rest (key ++ ['=']))
    (text : List Char) :
    extractTimeValue (before ++ (text ++ ',' :: rest)) key = extractTimeValue text key := by
  rw [extractTimeValue, extractTimeValue, h.cut_eq]
  cases cut (key ++ ['=']) text with
  | none => rfl
  | some found =>
    simp only [Option.map_some, Prod.map_snd]
    rw [takeWhile_append_stop (by decide)]

/-- The literals that the scanner for mining looks for. -/
def miningLiterals : List (List Char) :=
  ["mining_".toList, "mining_duration_ms".toList, "mining_duration_seconds".toList,
    "Mining completed:".toList, " nonces in ".toList]

theorem recordedMicros_foreign (h : ∀ literal ∈ miningLiterals, Foreign before rest literal)
    (text : List Char) :
    recordedMicros (before ++ (text ++ ',' :: rest)) = recordedMicros text := by
  rw [recordedMicros, recordedMicros, (h "mining_".toList (by decide)).contains_eq,
    extractNumericAfterKey_foreign (h "mining_duration_ms".toList (by decide)),
    extractNumericAfterKey_foreign (h "mining_duration_seconds".toList (by decide))]

end

theorem miningCompleted_prefix {lib : ReaderLib} {text group : List Char}
    (h : miningCompleted lib text = some group) : "Mining completed:".toList <+: text := by
  obtain ⟨rest, hstrip, -⟩ := Option.bind_eq_some_iff.mp h
  exact ⟨rest, (stripPrefix_eq_some.mp hstrip).symm⟩

/-- What follows the comma does not matter. -/
theorem miningCompleted_append_cons (lib : ReaderLib) (text rest rest' : List Char) :
    miningCompleted lib (text ++ ',' :: rest) = miningCompleted lib (text ++ ',' :: rest') := by
  have hspace : isWhitespace ',' = false := by decide
  simp only [miningCompleted, @stripPrefix_append_cons _ _ "Mining completed:".toList ','
    (by decide)]
  cases stripPrefix "Mining completed:".toList text with
  | none => rfl
  | some text =>
    simp only [Option.map_some, Option.bind_some, oneOrMore_append_cons hspace]
    cases oneOrMore isWhitespace text with
    | none => rfl
    | some text =>
      simp only [Option.map_some, Option.bind_some, oneOrMore_append_cons lib.comma_notDecimal]
      cases oneOrMore lib.isDecimal text with
      | none => rfl
      | some text =>
        simp only [Option.map_some, Option.bind_some, oneOrMore_append_cons hspace]
        cases oneOrMore isWhitespace text with
        | none => rfl
        | some text =>
          simp only [Option.map_some, Option.bind_some,
            @stripPrefix_append_cons _ _ "nonces in ".toList ',' (by decide)]
          cases stripPrefix "nonces in ".toList text with
          | none => rfl
          | some text => exact upTo_append_cons ',' text rest rest'

theorem extractWalletMiningDuration_foreign {before rest : List Char} (lib : ReaderLib)
    (h : ∀ literal ∈ miningLiterals, Foreign before rest literal) (text : List Char) :
    extractWalletMiningDuration lib (before ++ (text ++ ',' :: rest)) =
      extractWalletMiningDuration lib (text ++ [',']) := by
  have hcompleted := h "Mining completed:".toList (by decide)
  have hnonces := h " nonces in ".toList (by decide)
  have hcontains : ∀ literal ∈ miningLiterals, contains literal (text ++ [',']) =
      contains literal text := fun literal hmem =>
    (foreign_nil (h literal hmem).ne_nil (h literal hmem).noComma).contains_eq text
  have hcaptures : captures (miningCompleted lib) (before ++ (text ++ ',' :: rest)) =
      captures (miningCompleted lib) (text ++ [',']) := by
    have hprefix : ∀ text group, miningCompleted lib text = some group →
        "Mining completed:".toList <+: text := fun _ _ => miningCompleted_prefix
    have hnone : ∀ rest, cut "Mining completed:".toList rest = none →
        firstMatch (miningCompleted lib) (',' :: rest) = none := fun rest habsent => by
      refine firstMatch_eq_none_of_cut hprefix ?_
      have hcut := cut_append_cons hcompleted.noComma hcompleted.ne_nil [] rest
      rwa [habsent, (foreign_nil hcompleted.ne_nil hcompleted.noComma).absent] at hcut
    rw [captures, hcompleted.noStart.firstMatch_append hprefix, Option.map_map]
    refine map_snd_firstMatch_append
      (fun s _ => miningCompleted_append_cons lib s rest []) ?_
    rw [hnone rest hcompleted.absent,
      hnone [] (foreign_nil hcompleted.ne_nil hcompleted.noComma).absent]
  rw [extractWalletMiningDuration, extractWalletMiningDuration, hcompleted.contains_eq,
    hnonces.contains_eq, hcaptures, hcontains _ (by decide), hcontains _ (by decide)]

/-- **Mining.** What the scanner makes of a line is what it makes of the text in it. -/
theorem parseMiningSuccess_foreign {before rest : List Char} (lib : ReaderLib)
    (h : ∀ literal ∈ miningLiterals, Foreign before rest literal) (text : List Char) :
    parseMiningSuccess lib (before ++ (text ++ ',' :: rest)) =
      parseMiningSuccess lib (text ++ [',']) := by
  have hnil : ∀ literal ∈ miningLiterals, Foreign [] [] literal := fun literal hmem =>
    foreign_nil (h literal hmem).ne_nil (h literal hmem).noComma
  rw [parseMiningSuccess, parseMiningSuccess, recordedMicros_foreign h,
    extractWalletMiningDuration_foreign lib h]
  exact congrArg (fun micros : Option Nat => (micros.or _).map _)
    (recordedMicros_foreign hnil text).symm

-- ---------------------------------------------------------------------------
-- Keys that a line has after the text
-- ---------------------------------------------------------------------------

/-- A comma or white space ends a value. -/
def endsValue (c : Char) : Bool := c == ',' || isAsciiWhitespace c

/-- **A key of the line.** The text comes first: if it has the key, its value is read. -/
theorem extractTimeValue_located {before middle tail key value : List Char}
    (hcomma : ',' ∉ key) (hbefore : NoStart (key ++ ['=']) before)
    (hmiddle : NoStart (key ++ ['=']) middle) (hvalue : ∀ c ∈ value, endsValue c = false)
    (htail : ∀ c ∈ tail.head?, endsValue c = true) (text : List Char) :
    extractTimeValue (before ++ (text ++ ',' :: (middle ++ (key ++ '=' :: (value ++ tail))))) key =
      (extractTimeValue text key).or (some value) := by
  have hne : key ++ ['='] ≠ [] := by simp
  have hcomma' : ',' ∉ key ++ ['='] := by simp [hcomma]
  have hown : cut (key ++ ['=']) (key ++ '=' :: (value ++ tail)) = some ([], value ++ tail) := by
    have hsplit : key ++ '=' :: (value ++ tail) = key ++ ['='] ++ (value ++ tail) := by simp
    rw [hsplit, cut_literal]
  have htake : (value ++ tail).takeWhile (fun c => !endsValue c) = value := by
    rw [List.takeWhile_append_of_pos fun c hc => by simp [hvalue c hc]]
    cases tail with
    | nil => exact List.append_nil value
    | cons c tail => simp [htail c rfl]
  show (cut _ _).map (fun found => found.2.takeWhile fun c => !endsValue c) =
    ((cut _ text).map fun found => found.2.takeWhile fun c => !endsValue c).or (some value)
  rw [hbefore.cut_append, cut_append_cons hcomma' hne, hmiddle.cut_append, hown]
  cases cut (key ++ ['=']) text with
  | none =>
    simp only [Option.map_none, Option.none_or, Option.map_some, Prod.map_snd, id_eq, htake]
  | some found =>
    simp only [Option.map_some, Option.some_or, Prod.map_snd, id_eq, Option.some.injEq]
    exact takeWhile_append_stop (by decide) found.2 _

-- ---------------------------------------------------------------------------
-- The brackets
-- ---------------------------------------------------------------------------

theorem bracketedIds_prefix {marker text : List Char} {ids : List Char × List Char}
    (h : bracketedIds marker text = some ids) : marker ++ " [id=".toList <+: text := by
  obtain ⟨rest, hstrip, -⟩ := Option.bind_eq_some_iff.mp h
  exact ⟨rest, (stripPrefix_eq_some.mp hstrip).symm⟩

theorem captures_eq_none {marker line : List Char}
    (h : cut (marker ++ " [id=".toList) line = none) :
    captures (bracketedIds marker) line = none := by
  rw [captures, firstMatch_eq_none_of_cut (fun _ _ => bracketedIds_prefix) h, Option.map_none]

/-- An id that the expression can read: not empty, without a comma and a closing bracket. -/
def Bare (id : List Char) : Prop := id ≠ [] ∧ ',' ∉ id ∧ ']' ∉ id

instance (id : List Char) : Decidable (Bare id) := inferInstanceAs (Decidable (_ ∧ _))

/-- The marker and the brackets of a line, and what follows them. -/
def tagged (marker id hash rest : List Char) : List Char :=
  marker ++ " [id=".toList ++ id ++ ", hash=".toList ++ hash ++ ']' :: rest

theorem takeWhile_idChar {id rest : List Char} {c : Char} (hid : ',' ∉ id ∧ ']' ∉ id)
    (hc : c = ',' ∨ c = ']') :
    (id ++ c :: rest).takeWhile isIdChar = id := by
  rw [List.takeWhile_append_of_pos, List.takeWhile_cons_of_neg, List.append_nil]
  · rcases hc with rfl | rfl <;> decide
  · intro d hd
    rw [isIdChar, Bool.and_eq_true, bne_iff_ne, bne_iff_ne]
    exact ⟨fun heq => hid.1 (heq ▸ hd), fun heq => hid.2 (heq ▸ hd)⟩

/-- **The brackets of a line are read**, if the id can be. -/
theorem captures_tagged {marker id hash : List Char} (hid : Bare id) (hne : hash ≠ [])
    (hhash : ']' ∉ hash) (rest : List Char) :
    captures (bracketedIds marker) (tagged marker id hash rest) = some (id, hash) := by
  have hsplit : id ++ (", hash=".toList ++ (hash ++ ']' :: rest)) =
      id ++ ',' :: (" hash=".toList ++ (hash ++ ']' :: rest)) := rfl
  have htake := @takeWhile_idChar id (" hash=".toList ++ (hash ++ ']' :: rest)) ',' hid.2
    (Or.inl rfl)
  have hdrop : (id ++ (", hash=".toList ++ (hash ++ ']' :: rest))).dropWhile isIdChar =
      ", hash=".toList ++ (hash ++ ']' :: rest) := by
    rw [← hsplit] at htake
    have happend := List.takeWhile_append_dropWhile (p := isIdChar)
      (l := id ++ (", hash=".toList ++ (hash ++ ']' :: rest)))
    rw [htake] at happend
    exact List.append_cancel_left happend
  have hmatch : bracketedIds marker (tagged marker id hash rest) = some (id, hash) := by
    rw [bracketedIds, tagged, List.append_assoc, List.append_assoc, List.append_assoc,
      stripPrefix_append, Option.bind_some, hdrop, hsplit, htake]
    simp only [if_neg hid.1, stripPrefix_append, Option.bind_some, upTo_eq hne hhash,
      Option.map_some]
  rw [captures, firstMatch_of_some hmatch, Option.map_some]

/-- What is read as ids: a bare id, and a comma behind it. -/
theorem captures_bracketedIds {marker line id hash : List Char}
    (h : captures (bracketedIds marker) line = some (id, hash)) : Bare id ∧ ',' ∈ line := by
  obtain ⟨⟨before, ids⟩, hfirst, heq⟩ := Option.map_eq_some_iff.mp h
  obtain rfl : ids = (id, hash) := heq
  obtain ⟨text, rfl, hmatch⟩ := firstMatch_some hfirst
  obtain ⟨rest, hstrip, hids⟩ := Option.bind_eq_some_iff.mp hmatch
  obtain rfl := stripPrefix_eq_some.mp hstrip
  split at hids
  · exact absurd hids (by simp)
  · next hne =>
    obtain ⟨rest', hstrip', hupTo⟩ := Option.bind_eq_some_iff.mp hids
    obtain ⟨hash', -, heq⟩ := Option.map_eq_some_iff.mp hupTo
    obtain ⟨rfl, rfl⟩ := Prod.mk.inj heq
    refine ⟨⟨hne, fun hmem => ?_, fun hmem => ?_⟩, ?_⟩
    · exact absurd (List.mem_takeWhile_imp hmem) (by decide)
    · exact absurd (List.mem_takeWhile_imp hmem) (by decide)
    · have hcomma : ',' ∈ rest := by
        refine (List.dropWhile_sublist isIdChar).subset ?_
        rw [stripPrefix_eq_some.mp hstrip']
        exact List.mem_append_left _ (by decide)
      exact List.mem_append_right _ (List.mem_append_right _ hcomma)

/-- What follows the closing bracket does not matter. -/
theorem bracketedIds_append_cons {marker : List Char}
    (hmarker : ']' ∉ marker ++ " [id=".toList) (text rest rest' : List Char) :
    bracketedIds marker (text ++ ']' :: rest) = bracketedIds marker (text ++ ']' :: rest') := by
  simp only [bracketedIds, stripPrefix_append_cons hmarker]
  cases stripPrefix (marker ++ " [id=".toList) text with
  | none => rfl
  | some text =>
    have hstop : isIdChar ']' = false := by decide
    simp only [Option.map_some, Option.bind_some, takeWhile_append_stop hstop,
      dropWhile_append_stop hstop, @stripPrefix_append_cons _ _ ", hash=".toList ']' (by decide)]
    split
    · rfl
    · cases stripPrefix ", hash=".toList (text.dropWhile isIdChar) with
      | none => rfl
      | some text =>
        simp only [Option.map_some, Option.bind_some, upTo_append_cons ']' text rest rest']

/-- The brackets of a line hold all that an expression with another marker can find. -/
theorem captures_brackets {marker before rest : List Char}
    (hmarker : ']' ∉ marker ++ " [id=".toList)
    (hbefore : NoStart (marker ++ " [id=".toList) before)
    (hrest : cut (marker ++ " [id=".toList) rest = none) (text : List Char) :
    captures (bracketedIds marker) (before ++ (text ++ ']' :: rest)) =
      captures (bracketedIds marker) (text ++ [']']) := by
  have hne : marker ++ " [id=".toList ≠ [] := by simp
  have hnone : ∀ rest, cut (marker ++ " [id=".toList) rest = none →
      firstMatch (bracketedIds marker) (']' :: rest) = none := fun rest habsent => by
    refine firstMatch_eq_none_of_cut (fun _ _ => bracketedIds_prefix) ?_
    have hcut := cut_append_cons hmarker hne [] rest
    rwa [habsent, (noStart_nil _).cut_eq_none hne] at hcut
  rw [captures, hbefore.firstMatch_append fun _ _ => bracketedIds_prefix, Option.map_map]
  refine map_snd_firstMatch_append (fun s _ => bracketedIds_append_cons hmarker s rest []) ?_
  rw [hnone rest hrest, hnone [] ((noStart_nil _).cut_eq_none hne)]

end IgraRpc
