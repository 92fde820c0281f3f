import IgraRpc.Services.Transaction
import IgraRpc.Tools.LogText
import IgraRpc.Tools.Scanners

/-!
# What is logged of a transaction — `services/transaction.rs`, `api/routing.rs`

One constructor for each kind of line that stands for an event: the lines of the accept path,
of the worker and of the wallet call, and the response line. Ids and error texts are any texts.
A line is the message without its header; the worker's failure is a record with fields.

* `TxRecord.line` — the line, along the format string of the source;
* `notMem_hashChars`, `notMem_debug` — the characters of hashes and durations, by which
  literals of the reader are known not to occur in them.
-/

namespace IgraRpc

open Lib Lib.Text

-- ---------------------------------------------------------------------------
-- The code
-- ---------------------------------------------------------------------------

/-- The time of a record, `to_rfc3339`: a text without commas. -/
structure Timestamp where
  text : List Char
  noComma : ',' ∉ text

inductive TxRecord where
  /-- The response line of an accepted transaction. -/
  | accepted (id : List Char) (hash : FixedBytes 32) (duration : Duration) (estimatedSize : Nat)
  | validated (id : List Char) (hash : FixedBytes 32) (payloadSize : Nat)
      (availableCapacity : UInt64)
  | queued (id : List Char) (hash : FixedBytes 32) (availableCapacity : UInt64)
  | queueFull (id : List Char) (hash : FixedBytes 32)
  /-- The worker's success. -/
  | processed (id : List Char) (hash : FixedBytes 32) (duration : Duration)
      (txBytes : List UInt8) (processedCount errorCount : Nat)
  /-- The worker's failure. -/
  | failed (id : List Char) (hash : FixedBytes 32) (payloadSize : Nat) (duration : Duration)
      (errorCount : Nat) (err : List Char) (timestamp : Timestamp)
  /-- A failed call of the wallet. -/
  | sendFailed (hash : FixedBytes 32) (errorMsg : List Char) (duration : Duration)
  /-- A call of the wallet that succeeded. -/
  | sent (hash : FixedBytes 32) (payloadSize : Nat) (duration : Duration)

def hashChars (hash : FixedBytes 32) : List Char := (hashText hash).toList

/-- The worker's alert for a transaction that failed. -/
def failedRecord (id : List Char) (hash : FixedBytes 32) (payloadSize : Nat)
    (duration : Duration) (errorCount : Nat) (err : List Char) (timestamp : Timestamp) :
    LogRecord where
  message := "transaction failed after enqueue " ++
    "(client already received hash; reconcile by tx hash)"
  fields := [
    ("alert_type", strText "operational"),
    ("alert_severity", strText "critical"),
    ("alert_name", strText "AsyncTransactionFailed"),
    ("id", id),
    ("hash", hashChars hash),
    ("payload_size", natText payloadSize),
    ("duration_ms", natText duration.asMillis),
    ("total_errors", natText errorCount),
    ("error", err),
    ("timestamp", timestamp.text)]

/-- What follows the brackets. -/
def TxRecord.tail : TxRecord → List Char
  | accepted _ _ duration estimatedSize =>
    ": Transaction accepted (queued), time=".toList ++ duration.debug ++
      ", payload_size=".toList ++ natText estimatedSize ++ " bytes".toList
  | validated _ _ payloadSize availableCapacity =>
    ": Validated, queueing for background processing, payload_size=".toList ++
      natText payloadSize ++ ", available_capacity=".toList ++ natText availableCapacity.toNat
  | queued _ _ availableCapacity =>
    ": Transaction accepted into queue, available_capacity=".toList ++
      natText availableCapacity.toNat
  | queueFull _ _ =>
    ": Queue full, rejecting (backpressure), capacity=".toList ++
      natText transactionQueueCapacity
  | processed _ _ duration txBytes processedCount errorCount =>
    ": Transaction processed successfully, time=".toList ++ duration.debug ++
      ", payload_size=".toList ++ natText txBytes.length ++ ", payload=0x".toList ++
      (hexEncode txBytes).toList ++ ", total_success=".toList ++ natText processedCount ++
      ", total_errors=".toList ++ natText errorCount
  | failed .. => []
  | sendFailed _ errorMsg duration =>
    ": Send failed: ".toList ++ errorMsg ++ ", time=".toList ++ duration.debug
  | sent _ payloadSize duration =>
    ": Transaction accepted by wallet, payload_size=".toList ++ natText payloadSize ++
      ", send_time=".toList ++ duration.debug

/-- The line of a record. -/
def TxRecord.line (r : TxRecord) : List Char :=
  match r with
  | accepted id hash _ _ => tagged "RPC RESPONSE".toList id (hashChars hash) r.tail
  | validated id hash _ _ => tagged "TX".toList id (hashChars hash) r.tail
  | queued id hash _ => tagged "TX".toList id (hashChars hash) r.tail
  | queueFull id hash => tagged "TX".toList id (hashChars hash) r.tail
  | processed id hash _ _ _ _ => tagged "TX_PROCESSOR".toList id (hashChars hash) r.tail
  | failed id hash payloadSize duration errorCount err timestamp =>
    (failedRecord id hash payloadSize duration errorCount err timestamp).line
  | sendFailed hash _ _ => "WALLET_CALL [hash=".toList ++ hashChars hash ++ ']' :: r.tail
  | sent hash _ _ => "WALLET_CALL [hash=".toList ++ hashChars hash ++ ']' :: r.tail

-- ---------------------------------------------------------------------------
-- The characters of values
-- ---------------------------------------------------------------------------

theorem notMem_hexEncode {c : Char} (h : c ∉ "0123456789abcdef".toList) (bs : List UInt8) :
    c ∉ (hexEncode bs).toList := by
  have hdigit : ∀ n < 16, Char.ofNat (hexDigit n).toNat ∈ "0123456789abcdef".toList := by decide
  intro hmem
  rw [hexEncode, String.toList_ofList] at hmem
  obtain ⟨d, hd, rfl⟩ := List.mem_map.mp hmem
  obtain ⟨b, -, hb⟩ := List.mem_flatMap.mp hd
  have hlt := b.toNat_lt
  rcases List.mem_cons.mp hb with rfl | hb
  · exact h (hdigit _ (by omega))
  · rw [List.mem_singleton.mp hb] at h
    exact h (hdigit _ (by omega))

theorem hashChars_eq (hash : FixedBytes 32) :
    hashChars hash = '0' :: 'x' :: (hexEncode hash.bytes).toList := by
  rw [hashChars, hashText, String.toList_append]
  rfl

theorem notMem_hashChars {c : Char} (h : c ∉ "0x123456789abcdef".toList) (hash : FixedBytes 32) :
    c ∉ hashChars hash := by
  have hsubset : "0123456789abcdef".toList ⊆ "0x123456789abcdef".toList := by decide
  have hzero : '0' ∈ "0x123456789abcdef".toList := by decide
  have hx : 'x' ∈ "0x123456789abcdef".toList := by decide
  rw [hashChars_eq, List.mem_cons, List.mem_cons, not_or, not_or]
  refine ⟨fun heq => h (heq ▸ hzero), fun heq => h (heq ▸ hx), ?_⟩
  exact notMem_hexEncode (fun hmem => h (hsubset hmem)) hash.bytes

theorem hashChars_ne_nil (hash : FixedBytes 32) : hashChars hash ≠ [] := by
  rw [hashChars_eq]
  exact List.cons_ne_nil _ _

theorem mem_fmtDecimal {c : Char} {integerPart fraction width : Nat} {unit : List Char}
    (hlt : fraction < 10 ^ width) (h : c ∈ fmtDecimal integerPart fraction width unit) :
    c.isDigit = true ∨ c = '.' ∨ c ∈ unit := by
  rw [fmtDecimal, List.mem_append, List.mem_append] at h
  rcases h with (h | h) | h
  · exact Or.inl (isDigit_toDigits integerPart c h)
  · split at h
    · exact absurd h List.not_mem_nil
    · rcases List.mem_cons.mp h with rfl | h
      · exact Or.inr (Or.inl rfl)
      · exact Or.inl (mem_fractionDigits hlt h)
  · exact Or.inr (Or.inr h)

/-- A duration is printed in digits, points and the letters of its unit. -/
theorem mem_debug {c : Char} {d : Duration} (h : c ∈ d.debug) :
    c.isDigit = true ∨ c ∈ ".smµn".toList := by
  have hlt := d.subsecNanos_lt
  have hunit : ∀ unit ∈ ["s".toList, "ms".toList, "µs".toList, "ns".toList], c ∈ unit →
      c ∈ ".smµn".toList := by
    intro unit hmem hc
    have hsub : ∀ unit ∈ ["s".toList, "ms".toList, "µs".toList, "ns".toList],
        unit ⊆ ".smµn".toList := by decide
    exact hsub unit hmem hc
  have hpoint : '.' ∈ ".smµn".toList := by decide
  have hdecimal : ∀ {integerPart fraction width : Nat} {unit : List Char},
      fraction < 10 ^ width → unit ∈ ["s".toList, "ms".toList, "µs".toList, "ns".toList] →
      c ∈ fmtDecimal integerPart fraction width unit →
      c.isDigit = true ∨ c ∈ ".smµn".toList := by
    intro integerPart fraction width unit hfraction hmem hc
    rcases mem_fmtDecimal hfraction hc with hdigit | rfl | hc
    · exact Or.inl hdigit
    · exact Or.inr hpoint
    · exact Or.inr (hunit unit hmem hc)
  unfold Duration.debug at h
  split at h
  · exact hdecimal (by omega) (by simp) h
  · split at h
    · exact hdecimal (by omega) (by simp) h
    · split at h
      · exact hdecimal (by omega) (by simp) h
      · exact hdecimal (by omega) (by simp) h

theorem notMem_debug {c : Char} (h : c.isDigit = false ∧ c ∉ ".smµn".toList)
    (d : Duration) : c ∉ d.debug := by
  intro hmem
  rcases mem_debug hmem with hc | hc
  · rw [h.1] at hc
    exact absurd hc (by decide)
  · exact h.2 hc

end IgraRpc
