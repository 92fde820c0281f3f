import IgraRpc.Tools.TxLog

/-!
# The literals of the reader in the provider's lines

* `lineLiterals` — the literals of the scanners that come before a line's own scanner;
* `piece_noStart`, `hashPart_noStart`, … — **none of them begins in what the provider writes**
  around an id, the keys of the line apart;
* `parseMiningSuccess_tagged`, `parseRpcSuccess_tagged`, … — so the earlier scanners see the id
  and its brackets only.
-/

namespace IgraRpc

open Lib Lib.Text

-- ---------------------------------------------------------------------------
-- The literals of the scanners, and the pieces of the lines
-- ---------------------------------------------------------------------------

def rpcLiteral : List Char := "RPC RESPONSE".toList ++ " [id=".toList

/-- The literals that an earlier scanner may find in a line. -/
def lineLiterals : List (List Char) :=
  miningLiterals ++ [rpcLiteral, "time".toList ++ ['='], "available_capacity".toList ++ ['='],
    "capacity".toList ++ ['=']]

/-- The literal begins in no piece of a line, the keys and the blanks before these apart. -/
structure PassesPieces (literal : List Char) : Prop where
  tx : NoStart literal "TX [id=".toList
  txProcessor : NoStart literal "TX_PROCESSOR [id=".toList
  accepted : NoStart literal ": Transaction accepted (queued),".toList
  size : NoStart literal " payload_size=".toList
  bytes : NoStart literal " bytes".toList
  validated : NoStart literal
    ": Validated, queueing for background processing, payload_size=".toList
  comma : NoStart literal ",".toList
  queued : NoStart literal ": Transaction accepted into queue,".toList
  queueFull : NoStart literal ": Queue full, rejecting (backpressure),".toList
  processed : NoStart literal ": Transaction processed successfully,".toList
  payload : NoStart literal ", payload=0x".toList
  success : NoStart literal " total_success=".toList
  errors : NoStart literal ", total_errors=".toList

theorem passesPieces : ∀ literal ∈ lineLiterals, PassesPieces literal := by
  have hmay : ∀ literal ∈ lineLiterals,
      mayStart literal "TX [id=".toList = false ∧
      mayStart literal "TX_PROCESSOR [id=".toList = false ∧
      mayStart literal ": Transaction accepted (queued),".toList = false ∧
      mayStart literal " payload_size=".toList = false ∧
      mayStart literal " bytes".toList = false ∧
      mayStart literal
        ": Validated, queueing for background processing, payload_size=".toList = false ∧
      mayStart literal ",".toList = false ∧
      mayStart literal ": Transaction accepted into queue,".toList = false ∧
      mayStart literal ": Queue full, rejecting (backpressure),".toList = false ∧
      mayStart literal ": Transaction processed successfully,".toList = false ∧
      mayStart literal ", payload=0x".toList = false ∧
      mayStart literal " total_success=".toList = false ∧
      mayStart literal ", total_errors=".toList = false := by decide +kernel
  intro literal hliteral
  obtain ⟨h1, h2, h3, h4, h5, h6, h7, h8, h9, h10, h11, h12, h13⟩ := hmay literal hliteral
  exact ⟨noStart_of_mayStart h1, noStart_of_mayStart h2, noStart_of_mayStart h3,
    noStart_of_mayStart h4, noStart_of_mayStart h5, noStart_of_mayStart h6,
    noStart_of_mayStart h7, noStart_of_mayStart h8, noStart_of_mayStart h9,
    noStart_of_mayStart h10, noStart_of_mayStart h11, noStart_of_mayStart h12,
    noStart_of_mayStart h13⟩

/-- The keys of the lines, with the blank before them. -/
def lineKeys : List (List Char) :=
  [" time=".toList, " available_capacity=".toList, " capacity=".toList]

/-- A key holds no literal but those that it ends in. -/
theorem key_noStart : ∀ key ∈ lineKeys, ∀ literal ∈ lineLiterals, ¬ literal <:+ key →
    NoStart literal key := by
  have hmay : ∀ key ∈ lineKeys, ∀ literal ∈ lineLiterals,
      literal <:+ key ∨ mayStart literal key = false := by decide +kernel
  exact fun key hkey literal hliteral hsuffix =>
    noStart_of_mayStart ((hmay key hkey literal hliteral).resolve_left hsuffix)

/-- All of them have an `i`, which no hash and no duration has. -/
theorem literal_shape : ∀ literal ∈ lineLiterals,
    'i' ∈ literal ∧ ',' ∉ literal ∧ ']' ∉ literal ∧
      ∃ c ∈ literal.head?, c.isDigit = false := by
  have hshape : ∀ literal ∈ lineLiterals, 'i' ∈ literal ∧ ',' ∉ literal ∧ ']' ∉ literal ∧
      literal.head?.any (fun c => !c.isDigit) = true := by decide +kernel
  intro literal hmem
  obtain ⟨hi, hcomma, hbracket, hhead⟩ := hshape literal hmem
  obtain ⟨c, hc, hdigit⟩ := (Option.any_eq_true _ _).mp hhead
  exact ⟨hi, hcomma, hbracket, c, hc, Bool.not_eq_true' _ ▸ hdigit⟩

section
variable {literal : List Char} (hliteral : literal ∈ lineLiterals)
include hliteral

theorem literal_ne_nil : literal ≠ [] :=
  List.ne_nil_of_mem (literal_shape literal hliteral).1

theorem natText_noStart (n : Nat) : NoStart literal (natText n) := by
  obtain ⟨c, hhead, hdigit⟩ := (literal_shape literal hliteral).2.2.2
  exact noStart_of_head hhead (notMem_natText hdigit n)

theorem closed_noStart {text : List Char} (htext : 'i' ∉ text) {c : Char}
    (hc : c = ',' ∨ c = ']') : NoStart literal (text ++ [c]) := by
  obtain ⟨hi, hcomma, hbracket, -⟩ := literal_shape literal hliteral
  refine noStart_concat hi htext ?_
  rcases hc with rfl | rfl
  · exact hcomma
  · exact hbracket

theorem debug_noStart (d : Duration) : NoStart literal (d.debug ++ [',']) :=
  closed_noStart hliteral (notMem_debug (by decide) d) (Or.inl rfl)

theorem hex_noStart (bs : List UInt8) : NoStart literal ((hexEncode bs).toList ++ [',']) :=
  closed_noStart hliteral (notMem_hexEncode (by decide) bs) (Or.inl rfl)

end

/-- From the comma behind the id to the closing bracket, without the comma. -/
def hashPart (hash : FixedBytes 32) : List Char := " hash=".toList ++ hashChars hash ++ [']']

theorem hashPart_noStart {literal : List Char} (hliteral : literal ∈ lineLiterals)
    (hash : FixedBytes 32) : NoStart literal (hashPart hash) := by
  refine closed_noStart hliteral ?_ (Or.inr rfl)
  rw [List.mem_append, not_or]
  exact ⟨by decide, notMem_hashChars (by decide) hash⟩

-- ---------------------------------------------------------------------------
-- Lines with an id
-- ---------------------------------------------------------------------------

/-- The id with the rest of its brackets. -/
def subject (id : List Char) (hash : FixedBytes 32) : List Char :=
  id ++ ", hash=".toList ++ hashChars hash ++ [']']

theorem hashKey_eq : ", hash=".toList = ',' :: " hash=".toList := by decide

theorem tagged_eq (marker id : List Char) (hash : FixedBytes 32) (rest : List Char) :
    tagged marker id (hashChars hash) rest =
      (marker ++ " [id=".toList) ++ (id ++ ',' :: (hashPart hash ++ rest)) := by
  show marker ++ " [id=".toList ++ id ++ ", hash=".toList ++ hashChars hash ++ ']' :: rest =
    (marker ++ " [id=".toList) ++
      (id ++ ',' :: ((" hash=".toList ++ hashChars hash ++ [']']) ++ rest))
  rw [hashKey_eq]
  simp only [List.append_assoc, List.cons_append, List.nil_append]

theorem subject_eq (id : List Char) (hash : FixedBytes 32) :
    subject id hash = id ++ ',' :: (hashPart hash ++ []) := by
  show id ++ ", hash=".toList ++ hashChars hash ++ [']'] =
    id ++ ',' :: ((" hash=".toList ++ hashChars hash ++ [']']) ++ [])
  rw [hashKey_eq]
  simp only [List.append_assoc, List.cons_append, List.append_nil]

theorem mining_mem_lineLiterals {literal : List Char} (h : literal ∈ miningLiterals) :
    literal ∈ lineLiterals := List.mem_append_left _ h

section
variable {lib : ReaderLib} {marker tail : List Char}

theorem foreign_tagged {literal : List Char} (hliteral : literal ∈ lineLiterals)
    {before tail : List Char} (hbefore : NoStart literal before) (htail : NoStart literal tail)
    (hash : FixedBytes 32) : Foreign before (hashPart hash ++ tail) literal where
  ne_nil := literal_ne_nil hliteral
  noComma := (literal_shape literal hliteral).2.1
  noStart := hbefore
  absent := ((hashPart_noStart hliteral hash).append htail).cut_eq_none (literal_ne_nil hliteral)

/-- **The scanner for mining sees the id only.** -/
theorem parseMiningSuccess_tagged
    (hbefore : ∀ literal ∈ miningLiterals, NoStart literal (marker ++ " [id=".toList))
    (htail : ∀ literal ∈ miningLiterals, NoStart literal tail) (id : List Char)
    (hash : FixedBytes 32) :
    parseMiningSuccess lib (tagged marker id (hashChars hash) tail) =
      parseMiningSuccess lib (id ++ [',']) := by
  rw [tagged_eq]
  exact parseMiningSuccess_foreign lib (fun literal hmem =>
    foreign_tagged (mining_mem_lineLiterals hmem) (hbefore literal hmem) (htail literal hmem) hash)
    id

/-- A key that the line does not have is read in the id. -/
theorem extractTimeValue_tagged {key : List Char} (hkey : key ++ ['='] ∈ lineLiterals)
    (hbefore : NoStart (key ++ ['=']) (marker ++ " [id=".toList))
    (htail : NoStart (key ++ ['=']) tail) (id : List Char) (hash : FixedBytes 32) :
    extractTimeValue (tagged marker id (hashChars hash) tail) key = extractTimeValue id key := by
  rw [tagged_eq]
  exact extractTimeValue_foreign (foreign_tagged hkey hbefore htail hash) id

/-- A key that the line has is read in the id first. -/
theorem extractTimeValue_tagged_located {key piece value more : List Char}
    (hkey : key ++ ['='] ∈ lineLiterals)
    (hbefore : NoStart (key ++ ['=']) (marker ++ " [id=".toList))
    (hpiece : NoStart (key ++ ['=']) (piece ++ [' ']))
    (hvalue : ∀ c ∈ value, endsValue c = false) (hmore : ∀ c ∈ more.head?, endsValue c = true)
    (id : List Char) (hash : FixedBytes 32) :
    extractTimeValue (tagged marker id (hashChars hash)
        (piece ++ ' ' :: (key ++ '=' :: (value ++ more)))) key =
      (extractTimeValue id key).or (some value) := by
  have hcomma : ',' ∉ key := fun hmem =>
    (literal_shape _ hkey).2.1 (List.mem_append_left _ hmem)
  have hsplit : hashPart hash ++ (piece ++ ' ' :: (key ++ '=' :: (value ++ more))) =
      hashPart hash ++ (piece ++ [' ']) ++ (key ++ '=' :: (value ++ more)) := by simp
  rw [tagged_eq, hsplit]
  exact extractTimeValue_located hcomma hbefore ((hashPart_noStart hkey hash).append hpiece)
    hvalue hmore id

/-- **The scanner for responses sees the brackets only**, in a line without a time. -/
theorem captures_rpc_tagged (hbefore : NoStart rpcLiteral (marker ++ " [id=".toList))
    (htail : NoStart rpcLiteral tail) (id : List Char) (hash : FixedBytes 32) :
    captures (bracketedIds "RPC RESPONSE".toList) (tagged marker id (hashChars hash) tail) =
      captures (bracketedIds "RPC RESPONSE".toList) (subject id hash) := by
  have hsplit : tagged marker id (hashChars hash) tail = (marker ++ " [id=".toList) ++
      ((id ++ ", hash=".toList ++ hashChars hash) ++ ']' :: tail) := by
    simp only [tagged, List.append_assoc]
  rw [hsplit]
  exact captures_brackets (by decide) hbefore (htail.cut_eq_none (by decide)) _

theorem parseRpcSuccess_tagged (hbefore : NoStart rpcLiteral (marker ++ " [id=".toList))
    (htail : NoStart rpcLiteral tail)
    (hbeforeTime : NoStart ("time".toList ++ ['=']) (marker ++ " [id=".toList))
    (htailTime : NoStart ("time".toList ++ ['=']) tail) (id : List Char) (hash : FixedBytes 32) :
    parseRpcSuccess lib (tagged marker id (hashChars hash) tail) =
      parseRpcSuccess lib (subject id hash) := by
  have htime : "time".toList ++ ['='] ∈ lineLiterals := by decide
  have hsubject : extractTimeValue (subject id hash) "time".toList =
      extractTimeValue id "time".toList := by
    rw [subject_eq]
    exact extractTimeValue_foreign (foreign_tagged htime (noStart_nil _) (noStart_nil _) hash) id
  rw [parseRpcSuccess, parseRpcSuccess, captures_rpc_tagged hbefore htail, lineTime, lineTime,
    hsubject, extractTimeValue_tagged htime hbeforeTime htailTime]

end

-- ---------------------------------------------------------------------------
-- Tails with a key
-- ---------------------------------------------------------------------------

/-- A tail with a time. -/
def timedTail (piece : List Char) (d : Duration) (more : List Char) : List Char :=
  piece ++ ' ' :: ("time".toList ++ '=' :: (d.debug ++ ',' :: more))

/-- A tail that ends with a capacity. -/
def capacityTail (piece key : List Char) (capacity : Nat) : List Char :=
  piece ++ ' ' :: (key ++ '=' :: (natText capacity ++ []))

theorem timedTail_noStart {literal piece more : List Char} (hliteral : literal ∈ lineLiterals)
    (hkey : ¬ literal <:+ " time=".toList) (hpiece : NoStart literal piece)
    (hmore : NoStart literal more) (d : Duration) :
    NoStart literal (timedTail piece d more) := by
  have hsplit : timedTail piece d more =
      piece ++ (" time=".toList ++ ((d.debug ++ [',']) ++ more)) := by
    have htime : " time=".toList = ' ' :: ("time".toList ++ ['=']) := by decide
    simp only [timedTail, htime, List.append_assoc, List.cons_append, List.nil_append]
  rw [hsplit]
  exact hpiece.append ((key_noStart _ List.mem_cons_self literal hliteral hkey).append
    ((debug_noStart hliteral d).append hmore))

theorem capacityTail_noStart {literal piece key : List Char} (hliteral : literal ∈ lineLiterals)
    (hmem : ' ' :: (key ++ ['=']) ∈ lineKeys) (hkey : ¬ literal <:+ ' ' :: (key ++ ['=']))
    (hpiece : NoStart literal piece) (capacity : Nat) :
    NoStart literal (capacityTail piece key capacity) := by
  have hsplit : capacityTail piece key capacity =
      piece ++ (' ' :: (key ++ ['=']) ++ natText capacity) := by
    simp only [capacityTail, List.append_assoc, List.cons_append, List.nil_append,
      List.append_nil]
  rw [hsplit]
  exact hpiece.append ((key_noStart _ hmem literal hliteral hkey).append
    (natText_noStart hliteral capacity))

theorem sizeKey_eq : ", payload_size=".toList = ',' :: " payload_size=".toList := by decide

theorem accepted_tail (id : List Char) (hash : FixedBytes 32) (d : Duration) (size : Nat) :
    (TxRecord.accepted id hash d size).tail = timedTail ": Transaction accepted (queued),".toList d
      (" payload_size=".toList ++ (natText size ++ " bytes".toList)) := by
  show ": Transaction accepted (queued), time=".toList ++ d.debug ++ ", payload_size=".toList ++
    natText size ++ " bytes".toList = _
  have hfirst : ": Transaction accepted (queued), time=".toList =
      ": Transaction accepted (queued),".toList ++ ' ' :: ("time".toList ++ ['=']) := by decide
  rw [hfirst, sizeKey_eq, timedTail]
  simp only [List.append_assoc, List.cons_append, List.nil_append]

/-- What the worker writes after the time. -/
def processedMore (txBytes : List UInt8) (processedCount errorCount : Nat) : List Char :=
  " payload_size=".toList ++ (natText txBytes.length ++ (", payload=0x".toList ++
    (((hexEncode txBytes).toList ++ [',']) ++ (" total_success=".toList ++
      (natText processedCount ++ (", total_errors=".toList ++ natText errorCount))))))

theorem processed_tail (id : List Char) (hash : FixedBytes 32) (d : Duration)
    (txBytes : List UInt8) (processedCount errorCount : Nat) :
    (TxRecord.processed id hash d txBytes processedCount errorCount).tail =
      timedTail ": Transaction processed successfully,".toList d
        (processedMore txBytes processedCount errorCount) := by
  show ": Transaction processed successfully, time=".toList ++ d.debug ++
    ", payload_size=".toList ++ natText txBytes.length ++ ", payload=0x".toList ++
    (hexEncode txBytes).toList ++ ", total_success=".toList ++ natText processedCount ++
    ", total_errors=".toList ++ natText errorCount =
    ": Transaction processed successfully,".toList ++ ' ' :: ("time".toList ++ '=' ::
      (d.debug ++ ',' :: (" payload_size=".toList ++ (natText txBytes.length ++
        (", payload=0x".toList ++ (((hexEncode txBytes).toList ++ [',']) ++
          (" total_success=".toList ++ (natText processedCount ++
            (", total_errors=".toList ++ natText errorCount)))))))))
  have hfirst : ": Transaction processed successfully, time=".toList =
      ": Transaction processed successfully,".toList ++ ' ' :: ("time".toList ++ ['=']) := by
    decide
  have hsuccess : ", total_success=".toList = ',' :: " total_success=".toList := by decide
  rw [hfirst, sizeKey_eq, hsuccess]
  simp only [List.append_assoc, List.cons_append, List.nil_append]

theorem processedMore_noStart {literal : List Char} (hliteral : literal ∈ lineLiterals)
    (txBytes : List UInt8) (processedCount errorCount : Nat) :
    NoStart literal (processedMore txBytes processedCount errorCount) := by
  have hpieces := passesPieces literal hliteral
  exact hpieces.size.append ((natText_noStart hliteral _).append
    (hpieces.payload.append ((hex_noStart hliteral _).append
      (hpieces.success.append ((natText_noStart hliteral _).append
        (hpieces.errors.append (natText_noStart hliteral _)))))))

theorem validated_tail (id : List Char) (hash : FixedBytes 32) (payloadSize : Nat)
    (availableCapacity : UInt64) :
    (TxRecord.validated id hash payloadSize availableCapacity).tail =
      capacityTail (": Validated, queueing for background processing, payload_size=".toList ++
        (natText payloadSize ++ ",".toList)) "available_capacity".toList
        availableCapacity.toNat := by
  show ": Validated, queueing for background processing, payload_size=".toList ++
    natText payloadSize ++ ", available_capacity=".toList ++ natText availableCapacity.toNat = _
  have hkey : ", available_capacity=".toList =
      ",".toList ++ ' ' :: ("available_capacity".toList ++ ['=']) := by decide
  rw [hkey, capacityTail]
  simp only [List.append_assoc, List.cons_append, List.nil_append, List.append_nil]

theorem queued_tail (id : List Char) (hash : FixedBytes 32) (availableCapacity : UInt64) :
    (TxRecord.queued id hash availableCapacity).tail =
      capacityTail ": Transaction accepted into queue,".toList "available_capacity".toList
        availableCapacity.toNat := by
  show ": Transaction accepted into queue, available_capacity=".toList ++
    natText availableCapacity.toNat = _
  have hfirst : ": Transaction accepted into queue, available_capacity=".toList =
      ": Transaction accepted into queue,".toList ++
        ' ' :: ("available_capacity".toList ++ ['=']) := by decide
  rw [hfirst, capacityTail]
  simp only [List.append_assoc, List.cons_append, List.nil_append, List.append_nil]

theorem queueFull_tail (id : List Char) (hash : FixedBytes 32) :
    (TxRecord.queueFull id hash).tail =
      capacityTail ": Queue full, rejecting (backpressure),".toList "capacity".toList
        transactionQueueCapacity := by
  show ": Queue full, rejecting (backpressure), capacity=".toList ++
    natText transactionQueueCapacity = _
  have hfirst : ": Queue full, rejecting (backpressure), capacity=".toList =
      ": Queue full, rejecting (backpressure),".toList ++
        ' ' :: ("capacity".toList ++ ['=']) := by decide
  rw [hfirst, capacityTail]
  simp only [List.append_assoc, List.cons_append, List.nil_append, List.append_nil]

end IgraRpc
