import IgraRpc.Config.App
import IgraRpc.Lib.Text

/-!
# The id prefix as it is configured — `config/mining.rs`

The prefix of a mined transaction's id is written as a hex text, with or without `0x`, or as
an array of bytes, and read by a visitor of its own. Beside it `with_hex_prefix` builds a
configuration from a hex text in code, whose prefix only `validate` checks.

* `deserialize_eq_ok` — what the visitor accepts, text or array;
* `deserialize_everyWriting` — **every accepted prefix is read from every way to write it**,
  with digits of either case, and from nothing else;
* `withHexPrefix_validate` — the two readers of a hex text accept the same configurations.
-/

namespace IgraRpc

open Lib Lib.Text

-- ---------------------------------------------------------------------------
-- The code
-- ---------------------------------------------------------------------------

/-- What the visitor is given: a text, or an array whose elements are bytes or fail to be. -/
inductive PrefixInput where
  | str (value : String)
  | seq (elements : List (Except String UInt8))

/-- `strip_prefix("0x").unwrap_or(value)`, as bytes. -/
def cleanHex (value : String) : List UInt8 :=
  (stripPrefix (strBytes "0x") (strBytes value)).getD (strBytes value)

/-- `visit_str`. -/
def visitStr (value : String) : Except String (List UInt8) :=
  if (cleanHex value).isEmpty then .error "tx_id_prefix cannot be empty"
  else if (cleanHex value).length % 2 ≠ 0 then
    .error "hex string must have even number of characters (each byte is 2 hex digits)"
  else
    match hexDecode (cleanHex value) with
    | .error e => .error s!"invalid hex string: {e.display}"
    | .ok bytes =>
      if bytes.length > hashSize then
        .error s!"tx_id_prefix cannot exceed {hashSize} bytes, got {bytes.length} bytes"
      else .ok bytes

/-- The loop of `visit_seq`, with the bytes read so far. -/
def visitSeqFrom (bytes : List UInt8) : List (Except String UInt8) → Except String (List UInt8)
  | [] => if bytes.isEmpty then .error "tx_id_prefix cannot be empty" else .ok bytes
  | .error e :: _ => .error e
  | .ok byte :: rest =>
    -- the array is given up at the first byte too many, whatever follows
    if (bytes ++ [byte]).length > hashSize then
      .error s!"tx_id_prefix cannot exceed {hashSize} bytes"
    else visitSeqFrom (bytes ++ [byte]) rest

/-- `deserialize_tx_id_prefix`. -/
def deserializeTxIdPrefix : PrefixInput → Except String (List UInt8)
  | .str value => visitStr value
  | .seq elements => visitSeqFrom [] elements

namespace MiningConfig

/-- `parse_hex_prefix`. -/
def parseHexPrefix (hexPrefix : String) : Except String (List UInt8) :=
  if (cleanHex hexPrefix).length % 2 ≠ 0 then
    .error "Hex prefix must have even number of characters"
  else (hexDecode (cleanHex hexPrefix)).mapError fun e => s!"Invalid hex prefix: {e.display}"

/-- `with_settings`. -/
def withSettings (txIdPrefix : List UInt8) (timeoutSeconds : Nat) : MiningConfig :=
  ⟨txIdPrefix, timeoutSeconds⟩

/-- `with_hex_prefix`. -/
def withHexPrefix (hexPrefix : String) (timeoutSeconds : Nat) : Except String MiningConfig :=
  (parseHexPrefix hexPrefix).map fun txIdPrefix => withSettings txIdPrefix timeoutSeconds

/-- `prefix_hex`. -/
def prefixHex (config : MiningConfig) : String := hexEncode config.txIdPrefix

/-- `hash_matches_prefix`. -/
def hashMatchesPrefix (config : MiningConfig) (hash : List UInt8) : Bool :=
  if hash.length < config.txIdPrefix.length then false else config.txIdPrefix.isPrefixOf hash

end MiningConfig

-- ---------------------------------------------------------------------------
-- What is accepted
-- ---------------------------------------------------------------------------

/-- A length a prefix may have. -/
def PrefixLength (bytes : List UInt8) : Prop := 1 ≤ bytes.length ∧ bytes.length ≤ hashSize

theorem visitStr_eq_ok {value : String} {bytes : List UInt8} :
    visitStr value = .ok bytes ↔ hexDecode (cleanHex value) = .ok bytes ∧ PrefixLength bytes := by
  rw [visitStr]
  cases hdecode : hexDecode (cleanHex value) with
  | error e =>
    simp only [reduceCtorEq, false_and, iff_false]
    split_ifs <;> simp
  | ok decoded =>
    obtain ⟨hlength, -⟩ := hexDecode_digits hdecode
    have heven : ¬ (cleanHex value).length % 2 ≠ 0 := by omega
    rw [if_neg heven]
    by_cases hempty : (cleanHex value).isEmpty = true
    · have hzero : (cleanHex value).length = 0 := by
        rw [List.isEmpty_iff.mp hempty, List.length_nil]
      rw [if_pos hempty]
      simp only [reduceCtorEq, Except.ok.injEq, false_iff, not_and]
      rintro rfl ⟨hpos, -⟩
      omega
    · have hpos : (cleanHex value).length ≠ 0 := fun hzero =>
        hempty (List.isEmpty_iff.mpr (List.length_eq_zero_iff.mp hzero))
      rw [if_neg hempty]
      by_cases hlong : decoded.length > hashSize
      · simp only [if_pos hlong, reduceCtorEq, Except.ok.injEq, false_iff, not_and]
        rintro rfl ⟨-, hshort⟩
        omega
      · simp only [if_neg hlong, Except.ok.injEq]
        refine ⟨?_, fun h => h.1⟩
        rintro rfl
        exact ⟨rfl, by omega, by omega⟩

/-- The loop accepts the rest of the bytes, up to the bound. -/
theorem visitSeqFrom_eq_ok {elements : List (Except String UInt8)} {bytes : List UInt8} :
    ∀ {sofar : List UInt8}, sofar.length ≤ hashSize →
      (visitSeqFrom sofar elements = .ok bytes ↔
        ∃ rest, elements = rest.map .ok ∧ bytes = sofar ++ rest ∧ PrefixLength bytes) := by
  induction elements with
  | nil =>
    intro sofar hsofar
    rw [visitSeqFrom]
    by_cases hempty : sofar.isEmpty = true
    · obtain rfl := List.isEmpty_iff.mp hempty
      simp only [if_pos hempty, reduceCtorEq, false_iff, not_exists, not_and]
      rintro rest hrest hbytes ⟨hpos, -⟩
      obtain rfl : rest = [] := List.map_eq_nil_iff.mp hrest.symm
      exact absurd hpos (by simp [hbytes])
    · have hpos : sofar.length ≠ 0 := fun hzero =>
        hempty (List.isEmpty_iff.mpr (List.length_eq_zero_iff.mp hzero))
      simp only [if_neg hempty, Except.ok.injEq]
      refine ⟨?_, ?_⟩
      · rintro rfl
        exact ⟨[], rfl, (List.append_nil _).symm, by omega, hsofar⟩
      · rintro ⟨rest, hrest, rfl, -⟩
        obtain rfl : rest = [] := List.map_eq_nil_iff.mp hrest.symm
        exact (List.append_nil _).symm
  | cons element elements ih =>
    intro sofar hsofar
    cases element with
    | error e =>
      rw [visitSeqFrom]
      simp only [reduceCtorEq, false_iff, not_exists, not_and]
      intro rest hrest
      cases rest with
      | nil => exact absurd hrest (by simp)
      | cons byte rest => exact absurd (List.cons.inj hrest).1 (by simp)
    | ok byte =>
      rw [visitSeqFrom]
      by_cases hlong : (sofar ++ [byte]).length > hashSize
      · rw [if_pos hlong]
        simp only [reduceCtorEq, false_iff, not_exists, not_and]
        rintro rest hrest rfl ⟨-, hshort⟩
        cases rest with
        | nil => exact absurd hrest (by simp)
        | cons first rest =>
          rw [List.length_append, List.length_cons] at hshort
          rw [List.length_append, List.length_singleton] at hlong
          omega
      · rw [if_neg hlong, ih (Nat.le_of_not_lt hlong)]
        refine ⟨?_, ?_⟩
        · rintro ⟨rest, rfl, rfl, hlength⟩
          exact ⟨byte :: rest, rfl, by rw [List.append_assoc, List.singleton_append], hlength⟩
        · rintro ⟨rest, hrest, rfl, hlength⟩
          cases rest with
          | nil => exact absurd hrest (by simp)
          | cons first rest =>
            obtain ⟨hfirst, htail⟩ := List.cons.inj hrest
            obtain rfl := Except.ok.inj hfirst
            exact ⟨rest, htail, by rw [List.append_assoc, List.singleton_append], hlength⟩

-- ---------------------------------------------------------------------------
-- The ways to write a prefix
-- ---------------------------------------------------------------------------

/-- The ways to write a prefix: hex digits of either case, the same behind `0x`, and an
array. -/
inductive Writes (bytes : List UInt8) : PrefixInput → Prop where
  | digits (value : String) (h : hexDecode (strBytes value) = .ok bytes) :
      Writes bytes (.str value)
  | marked (value : String) (digits : List UInt8)
      (hvalue : strBytes value = strBytes "0x" ++ digits) (h : hexDecode digits = .ok bytes) :
      Writes bytes (.str value)
  | array : Writes bytes (.seq (bytes.map .ok))

/-- Digits alone do not begin with `0x`. -/
theorem cleanHex_digits {value : String} {bytes : List UInt8}
    (h : hexDecode (strBytes value) = .ok bytes) : cleanHex value = strBytes value := by
  rw [cleanHex]
  cases hstrip : stripPrefix (strBytes "0x") (strBytes value) with
  | none => rfl
  | some rest =>
    -- an `x` is no hex digit
    have hx : (120 : UInt8) ∈ strBytes value := by
      rw [stripPrefix_eq_some.mp hstrip]
      exact List.mem_append_left _ (by decide)
    obtain ⟨n, hn⟩ := (hexDecode_digits h).2 120 hx
    have hnone : hexVal 120 = none := by decide
    exact absurd (hnone.symm.trans hn) (by simp)

theorem cleanHex_hexEncode (bytes : List UInt8) :
    cleanHex (hexEncode bytes) = strBytes (hexEncode bytes) :=
  cleanHex_digits (hexDecode_hexEncode bytes)

/-- What is left of a text decodes exactly if the text is one of the two writings. -/
theorem hexDecode_cleanHex {value : String} {bytes : List UInt8} :
    hexDecode (cleanHex value) = .ok bytes ↔ Writes bytes (.str value) := by
  refine ⟨fun h => ?_, fun h => ?_⟩
  · cases hstrip : stripPrefix (strBytes "0x") (strBytes value) with
    | none =>
      rw [cleanHex, hstrip] at h
      exact .digits value h
    | some digits =>
      rw [cleanHex, hstrip] at h
      exact .marked value digits (stripPrefix_eq_some.mp hstrip) h
  · cases h with
    | digits _ h => rwa [cleanHex_digits h]
    | marked _ digits hvalue h =>
      rw [cleanHex, hvalue, stripPrefix_append]
      exact h

theorem deserialize_eq_ok {input : PrefixInput} {bytes : List UInt8} :
    deserializeTxIdPrefix input = .ok bytes ↔
      PrefixLength bytes ∧
        ((∃ value, input = .str value ∧ hexDecode (cleanHex value) = .ok bytes) ∨
          input = .seq (bytes.map .ok)) := by
  cases input with
  | str value =>
    rw [deserializeTxIdPrefix, visitStr_eq_ok]
    simp [and_comm]
  | seq elements =>
    rw [deserializeTxIdPrefix, visitSeqFrom_eq_ok (Nat.zero_le _)]
    refine ⟨?_, ?_⟩
    · rintro ⟨rest, rfl, rfl, hlength⟩
      exact ⟨hlength, Or.inr rfl⟩
    · rintro ⟨hlength, ⟨value, hvalue, -⟩ | hseq⟩
      · exact absurd hvalue (by simp)
      · exact ⟨bytes, PrefixInput.seq.inj hseq, rfl, hlength⟩

/-- **Every prefix is read from every way to write it, and from nothing else.** The prefixes
that some input is read as are those of 1 to 32 bytes. -/
theorem deserialize_everyWriting (bytes : List UInt8) :
    ((∃ input, deserializeTxIdPrefix input = .ok bytes) ↔ PrefixLength bytes) ∧
      (PrefixLength bytes → ∀ input,
        deserializeTxIdPrefix input = .ok bytes ↔ Writes bytes input) := by
  refine ⟨⟨?_, fun hlength => ?_⟩, fun hlength input => ?_⟩
  · rintro ⟨input, hinput⟩
    exact (deserialize_eq_ok.mp hinput).1
  · exact ⟨_, deserialize_eq_ok.mpr ⟨hlength, Or.inr rfl⟩⟩
  · rw [deserialize_eq_ok]
    refine ⟨?_, fun h => ⟨hlength, ?_⟩⟩
    · rintro ⟨-, ⟨value, rfl, hdecode⟩ | rfl⟩
      · exact hexDecode_cleanHex.mp hdecode
      · exact .array
    · cases h with
      | digits value h => exact Or.inl ⟨value, rfl, hexDecode_cleanHex.mpr (.digits value h)⟩
      | marked value digits hvalue h =>
        exact Or.inl ⟨value, rfl, hexDecode_cleanHex.mpr (.marked value digits hvalue h)⟩
      | array => exact Or.inr rfl

example : Writes [0x97, 0xb1] (.str "0x97B1") :=
  .marked "0x97B1" (strBytes "97B1") (by decide) (by decide)

-- ---------------------------------------------------------------------------
-- The two readers
-- ---------------------------------------------------------------------------

theorem parseHexPrefix_eq_ok {hexPrefix : String} {bytes : List UInt8} :
    MiningConfig.parseHexPrefix hexPrefix = .ok bytes ↔
      hexDecode (cleanHex hexPrefix) = .ok bytes := by
  rw [MiningConfig.parseHexPrefix]
  cases hdecode : hexDecode (cleanHex hexPrefix) with
  | error e =>
    split_ifs <;> simp [Except.mapError]
  | ok decoded =>
    obtain ⟨hlength, -⟩ := hexDecode_digits hdecode
    rw [if_neg (by omega)]
    simp [Except.mapError]

/-- What `prefix_hex` prints is read as the prefix again. -/
theorem MiningConfig.withHexPrefix_prefixHex (config : MiningConfig) :
    withHexPrefix config.prefixHex config.timeoutSeconds = .ok config := by
  have hread : parseHexPrefix config.prefixHex = .ok config.txIdPrefix := by
    rw [parseHexPrefix_eq_ok, prefixHex, cleanHex_hexEncode, hexDecode_hexEncode]
  rw [withHexPrefix, hread]
  rfl

/-- What `validate` asks of a mining configuration. -/
theorem MiningConfig.validate_eq_ok {config : MiningConfig} :
    config.validate = .ok () ↔
      PrefixLength config.txIdPrefix ∧ 1 ≤ config.timeoutSeconds ∧ config.timeoutSeconds ≤ 300 := by
  have hlast : ∀ (violated : Bool) (message : String),
      Config.reject violated message = .ok () ↔ violated = false := by
    intro violated message
    cases violated <;> simp [Config.reject]
  rw [MiningConfig.validate, Result.mapError_eq_ok, Config.reject_bind_eq_ok,
    Config.reject_bind_eq_ok, hlast, PrefixLength]
  simp only [beq_eq_false_iff_ne, decide_eq_false_iff_not, Bool.or_eq_false_iff]
  omega

/-- **The two readers of a hex text agree.** A text gives, with a timeout, a configuration
that `validate` accepts exactly if the visitor reads the text as its prefix and the timeout is
in range: what `with_hex_prefix` lets through beyond that, `validate` rejects. -/
theorem withHexPrefix_validate (hexPrefix : String) (timeoutSeconds : Nat)
    (config : MiningConfig) :
    (MiningConfig.withHexPrefix hexPrefix timeoutSeconds = .ok config ∧
        config.validate = .ok ()) ↔
      deserializeTxIdPrefix (.str hexPrefix) = .ok config.txIdPrefix ∧
        config.timeoutSeconds = timeoutSeconds ∧ 1 ≤ timeoutSeconds ∧ timeoutSeconds ≤ 300 := by
  have hparsed : MiningConfig.withHexPrefix hexPrefix timeoutSeconds = .ok config ↔
      hexDecode (cleanHex hexPrefix) = .ok config.txIdPrefix ∧
        config.timeoutSeconds = timeoutSeconds := by
    rw [MiningConfig.withHexPrefix, ← parseHexPrefix_eq_ok]
    cases MiningConfig.parseHexPrefix hexPrefix with
    | error e => simp [Except.map]
    | ok bytes =>
      obtain ⟨txIdPrefix, seconds⟩ := config
      simp [Except.map, MiningConfig.withSettings, eq_comm]
  rw [hparsed, MiningConfig.validate_eq_ok, deserializeTxIdPrefix, visitStr_eq_ok]
  refine ⟨?_, ?_⟩
  · rintro ⟨⟨hdecode, rfl⟩, hlength, hlow, hhigh⟩
    exact ⟨⟨hdecode, hlength⟩, rfl, hlow, hhigh⟩
  · rintro ⟨⟨hdecode, hlength⟩, rfl, hlow, hhigh⟩
    exact ⟨⟨hdecode, rfl⟩, hlength, hlow, hhigh⟩

/-- The empty text is where the readers differ before `validate`. -/
example : MiningConfig.parseHexPrefix "" = .ok [] ∧
    visitStr "" = .error "tx_id_prefix cannot be empty" := by decide

/-- The length check changes nothing: a longer prefix is no prefix. -/
theorem MiningConfig.hashMatchesPrefix_eq (config : MiningConfig) (hash : List UInt8) :
    config.hashMatchesPrefix hash = config.txIdPrefix.isPrefixOf hash := by
  rw [MiningConfig.hashMatchesPrefix]
  split
  · next hshort =>
    symm
    rw [← Bool.not_eq_true, List.isPrefixOf_iff_prefix]
    intro hstarts
    have hle := hstarts.length_le
    omega
  · rfl

end IgraRpc
