import IgraRpc.Services.Amount

/-!
# Entry requests — `services/entry_transaction.rs`

The three texts of an entry request are checked in a fixed order: the amount, the recipient,
the L2 address. The address is a hex text, possibly behind `0x` or `0X`.

* `parseEthereumAddress_accepts` — **what is accepted as an address**: white space around one
  optional marker and the forty digits of the address, in either case; so also the address as
  it is printed, behind any marker.

Parsing a recipient is a parameter: the library panics on what is no address, and the panic
is caught.
-/

namespace IgraRpc

open Lib Lib.Text

-- ---------------------------------------------------------------------------
-- The code
-- ---------------------------------------------------------------------------

/-- `Address::constructor` under `catch_unwind`: the address as it prints. -/
abbrev KaspaAddress := String → Option String

/-- `validate_kaspa_address`. -/
def validateKaspaAddress (constructor : KaspaAddress) (addressStr : String) :
    Except EntryTransactionError String :=
  let trimmed := String.ofList (trim addressStr.toList)
  if trimmed.isEmpty then .error (.validation "Kaspa address cannot be empty")
  else
    match constructor trimmed with
    | none => .error (.validation
        s!"Invalid Kaspa address '{trimmed}'. Expected format: kaspa:qpam...")
    | some address => .ok address

/-- `strip_prefix("0x")`, else `strip_prefix("0X")`, else the text itself. -/
def withoutMarker (text : List Char) : List Char :=
  ((stripPrefix "0x".toList text).or (stripPrefix "0X".toList text)).getD text

/-- `hex::decode_to_slice`; which error it is does not matter. -/
def decodeToSlice (n : Nat) (digits : List UInt8) : Option (FixedBytes n) :=
  match hexDecode digits with
  | .error _ => none
  | .ok bytes => FixedBytes.fromSlice? n bytes

/-- `validate_and_parse_ethereum_address`. -/
def validateAndParseEthereumAddress (addressStr : String) :
    Except EntryTransactionError (FixedBytes ethereumAddressSize) :=
  let trimmed := trim addressStr.toList
  if trimmed.isEmpty then .error (.validation "Ethereum address cannot be empty")
  else
    let hexStr := String.ofList (withoutMarker trimmed)
    if (strBytes hexStr).length ≠ 40 then
      .error (.validation (s!"Ethereum address must be exactly 40 hex characters, got " ++
        s!"{(strBytes hexStr).length}"))
    else
      match decodeToSlice ethereumAddressSize (strBytes hexStr) with
      | none => .error (.validation s!"Invalid hex characters in Ethereum address '{hexStr}'")
      | some addressBytes => .ok addressBytes

/-- The arguments of the command line. -/
structure EntryArgs where
  recipient : String
  amount : String
  l2Address : String

/-- `validate_and_parse_request`. -/
def validateAndParseRequest (tryKaspaStrToSompi : KaspaStrToSompi) (constructor : KaspaAddress)
    (args : EntryArgs) : Except EntryTransactionError EntryTransactionRequest := do
  let amountSompi ← validateAndConvertAmount tryKaspaStrToSompi args.amount
  let recipient ← validateKaspaAddress constructor args.recipient
  let l2Address ← validateAndParseEthereumAddress args.l2Address
  return { recipient, amountSompi, l2Address }

-- ---------------------------------------------------------------------------
-- Addresses
-- ---------------------------------------------------------------------------

/-- The markers an address may have. -/
def addressMarkers : List (List Char) := ["".toList, "0x".toList, "0X".toList]

theorem decodeToSlice_eq_some {n : Nat} {digits : List UInt8} {a : FixedBytes n} :
    decodeToSlice n digits = some a ↔ hexDecode digits = .ok a.bytes := by
  rw [decodeToSlice]
  cases hexDecode digits with
  | error e => simp
  | ok bytes =>
    simp only [FixedBytes.fromSlice?_eq_some, Except.ok.injEq]
    exact eq_comm

/-- A text of hex digits holds no other character. -/
theorem notMem_of_hexDecode {digits : List Char} {bytes : List UInt8} {c : Char}
    (h : hexDecode (strBytes (String.ofList digits)) = .ok bytes) (hascii : c.toNat < 128)
    (hc : hexVal (UInt8.ofNat c.toNat) = none) : c ∉ digits := by
  intro hmem
  have hbyte : UInt8.ofNat c.toNat ∈ strBytes (String.ofList digits) := by
    rw [strBytes_ofList, List.mem_flatMap]
    refine ⟨c, hmem, ?_⟩
    rw [utf8EncodeChar_ascii hascii]
    exact List.mem_singleton_self _
  obtain ⟨n, hn⟩ := (hexDecode_digits h).2 _ hbyte
  exact absurd (hc.symm.trans hn) (by simp)

/-- A marker in front of hex digits is taken off, and nothing else is. -/
theorem withoutMarker_append {marker digits : List Char} {bytes : List UInt8}
    (hmarker : marker ∈ addressMarkers)
    (h : hexDecode (strBytes (String.ofList digits)) = .ok bytes) :
    withoutMarker (marker ++ digits) = digits := by
  have hplain : ∀ literal : List Char, (∃ c ∈ literal, c ∉ digits) →
      stripPrefix literal digits = none := by
    rintro literal ⟨c, hc, hnot⟩
    rw [stripPrefix_eq_none]
    exact fun hstarts => hnot (hstarts.subset hc)
  rw [addressMarkers, List.mem_cons, List.mem_cons, List.mem_singleton] at hmarker
  rcases hmarker with rfl | rfl | rfl
  · have hx : 'x' ∉ digits := notMem_of_hexDecode h (by decide) (by decide)
    have hX : 'X' ∉ digits := notMem_of_hexDecode h (by decide) (by decide)
    show ((stripPrefix "0x".toList digits).or (stripPrefix "0X".toList digits)).getD digits = _
    rw [hplain _ ⟨'x', by decide, hx⟩, hplain _ ⟨'X', by decide, hX⟩]
    rfl
  · rw [withoutMarker, stripPrefix_append]
    rfl
  · have hother : stripPrefix "0x".toList ("0X".toList ++ digits) = none := by
      rw [stripPrefix_eq_none]
      intro hstarts
      obtain ⟨rest, hrest⟩ := hstarts
      exact absurd (List.cons.inj (List.cons.inj hrest).2).1 (by decide)
    rw [withoutMarker, hother, stripPrefix_append]
    rfl

/-- What is left is a suffix behind a marker. -/
theorem exists_marker (text : List Char) :
    ∃ marker ∈ addressMarkers, text = marker ++ withoutMarker text := by
  rw [withoutMarker]
  cases hlower : stripPrefix "0x".toList text with
  | some rest => exact ⟨"0x".toList, by decide, stripPrefix_eq_some.mp hlower⟩
  | none =>
    cases hupper : stripPrefix "0X".toList text with
    | some rest => exact ⟨"0X".toList, by decide, stripPrefix_eq_some.mp hupper⟩
    | none => exact ⟨"".toList, by decide, rfl⟩

theorem validateAndParseEthereumAddress_eq_ok {addressStr : String}
    {address : FixedBytes ethereumAddressSize} :
    validateAndParseEthereumAddress addressStr = .ok address ↔
      ∃ marker ∈ addressMarkers, ∃ digits, trim addressStr.toList = marker ++ digits ∧
        hexDecode (strBytes (String.ofList digits)) = .ok address.bytes := by
  rw [validateAndParseEthereumAddress]
  refine ⟨?_, ?_⟩
  · intro h
    obtain ⟨marker, hmarker, htext⟩ := exists_marker (trim addressStr.toList)
    refine ⟨marker, hmarker, _, htext, ?_⟩
    split at h
    · exact absurd h (by simp)
    · simp only at h
      split at h
      · exact absurd h (by simp)
      · rw [← decodeToSlice_eq_some]
        cases hslice : decodeToSlice ethereumAddressSize
            (strBytes (String.ofList (withoutMarker (trim addressStr.toList)))) with
        | none => exact absurd h (by simp [hslice])
        | some bytes =>
          simp only [hslice, Except.ok.injEq] at h
          rw [h]
  · rintro ⟨marker, hmarker, digits, htext, hdecode⟩
    have hlength : (strBytes (String.ofList digits)).length = 40 := by
      rw [(hexDecode_digits hdecode).1, address.size]
      rfl
    have hne : ¬ (trim addressStr.toList).isEmpty = true := by
      intro hempty
      rw [htext, List.isEmpty_iff, List.append_eq_nil_iff] at hempty
      rw [hempty.2] at hlength
      exact absurd hlength (by decide)
    have hdigits : withoutMarker (trim addressStr.toList) = digits := by
      rw [htext, withoutMarker_append hmarker hdecode]
    rw [if_neg hne, hdigits, if_neg (not_not.mpr hlength), decodeToSlice_eq_some.mpr hdecode]

/-- Neither a digit nor a marker is trimmed. -/
theorem isWhitespace_hexEncode {bytes : List UInt8} :
    ∀ c ∈ (hexEncode bytes).toList, isWhitespace c = false := by
  intro c hc
  rw [hexEncode, String.toList_ofList] at hc
  obtain ⟨d, hd, rfl⟩ := List.mem_map.mp hc
  obtain ⟨b, -, hb⟩ := List.mem_flatMap.mp hd
  have hall : ∀ n < 16, isWhitespace (Char.ofNat (hexDigit n).toNat) = false := by decide
  have hlt := b.toNat_lt
  rcases List.mem_cons.mp hb with rfl | hb
  · exact hall _ (by omega)
  · rw [List.mem_singleton.mp hb]
    exact hall _ (by omega)

theorem isWhitespace_marker {marker : List Char} (hmarker : marker ∈ addressMarkers) :
    ∀ c ∈ marker, isWhitespace c = false := by
  rw [addressMarkers, List.mem_cons, List.mem_cons, List.mem_singleton] at hmarker
  rcases hmarker with rfl | rfl | rfl
  · exact fun c hc => absurd hc List.not_mem_nil
  · intro c hc
    rcases List.mem_cons.mp hc with rfl | hc
    · rfl
    · rw [List.mem_singleton.mp hc]
      rfl
  · intro c hc
    rcases List.mem_cons.mp hc with rfl | hc
    · rfl
    · rw [List.mem_singleton.mp hc]
      rfl

/-- **An address is accepted exactly when its digits are written**, in either case, with or
without a marker, and with white space around it; and as it is printed it is read back. -/
theorem parseEthereumAddress_accepts (address : FixedBytes ethereumAddressSize) :
    (∀ addressStr, validateAndParseEthereumAddress addressStr = .ok address ↔
      ∃ marker ∈ addressMarkers, ∃ digits, trim addressStr.toList = marker ++ digits ∧
        hexDecode (strBytes (String.ofList digits)) = .ok address.bytes) ∧
    ∀ marker ∈ addressMarkers, validateAndParseEthereumAddress
      (String.ofList (marker ++ (hexEncode address.bytes).toList)) = .ok address := by
  refine ⟨fun addressStr => validateAndParseEthereumAddress_eq_ok, fun marker hmarker => ?_⟩
  refine validateAndParseEthereumAddress_eq_ok.mpr
    ⟨marker, hmarker, (hexEncode address.bytes).toList, ?_, ?_⟩
  · rw [String.toList_ofList, trim_of_forall]
    intro c hc
    rcases List.mem_append.mp hc with hc | hc
    · exact isWhitespace_marker hmarker c hc
    · exact isWhitespace_hexEncode c hc
  · rw [String.ofList_toList, hexDecode_hexEncode]

-- ---------------------------------------------------------------------------
-- Requests
-- ---------------------------------------------------------------------------

/-- The error of an argument that is turned down. -/
def IsValidation {α : Type} (result : Except EntryTransactionError α) : Prop :=
  ∀ e, result = .error e → ∃ reason, e = .validation reason

theorem isValidation_error {α : Type} (reason : String) :
    IsValidation (.error (.validation reason) : Except EntryTransactionError α) :=
  fun _ h => ⟨reason, (Except.error.inj h).symm⟩

theorem isValidation_ok {α : Type} (a : α) : IsValidation (.ok a) :=
  fun _ h => absurd h (by simp)

theorem isValidation_amount (tryKaspaStrToSompi : KaspaStrToSompi) (amountStr : String) :
    IsValidation (validateAndConvertAmount tryKaspaStrToSompi amountStr) := by
  unfold validateAndConvertAmount
  simp only
  split
  · exact isValidation_error _
  · split
    · exact isValidation_error _
    · exact isValidation_error _
    · split
      · exact isValidation_error _
      · split
        · exact isValidation_error _
        · exact isValidation_ok _

theorem isValidation_recipient (constructor : KaspaAddress) (addressStr : String) :
    IsValidation (validateKaspaAddress constructor addressStr) := by
  unfold validateKaspaAddress
  simp only
  split
  · exact isValidation_error _
  · split
    · exact isValidation_error _
    · exact isValidation_ok _

theorem isValidation_l2Address (addressStr : String) :
    IsValidation (validateAndParseEthereumAddress addressStr) := by
  unfold validateAndParseEthereumAddress
  simp only
  split
  · exact isValidation_error _
  · split
    · exact isValidation_error _
    · split
      · exact isValidation_error _
      · exact isValidation_ok _

/-- Every error of a request is a validation error. -/
theorem isValidation_request (tryKaspaStrToSompi : KaspaStrToSompi) (constructor : KaspaAddress)
    (args : EntryArgs) :
    IsValidation (validateAndParseRequest tryKaspaStrToSompi constructor args) := by
  have hamount := isValidation_amount tryKaspaStrToSompi args.amount
  have hrecipient := isValidation_recipient constructor args.recipient
  have haddress := isValidation_l2Address args.l2Address
  rw [validateAndParseRequest]
  cases ha : validateAndConvertAmount tryKaspaStrToSompi args.amount with
  | error e =>
    obtain ⟨reason, rfl⟩ := hamount e ha
    exact isValidation_error reason
  | ok amountSompi =>
    cases hr : validateKaspaAddress constructor args.recipient with
    | error e =>
      obtain ⟨reason, rfl⟩ := hrecipient e hr
      exact isValidation_error reason
    | ok recipient =>
      cases hl : validateAndParseEthereumAddress args.l2Address with
      | error e =>
        obtain ⟨reason, rfl⟩ := haddress e hl
        exact isValidation_error reason
      | ok l2Address => exact isValidation_ok _

end IgraRpc
