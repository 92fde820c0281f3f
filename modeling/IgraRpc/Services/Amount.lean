import IgraRpc.Lib.Text
import IgraRpc.Services.WalletCall

/-!
# Entry amounts — `services/entry_transaction.rs`

An amount of KAS is converted to sompi by the wallet library and then checked against the
emission.

* `DecimalText` — a decimal number, with its value in sompi;
* `SompiLibrary` — what is assumed of the library: a decimal it can hold comes back as its
  value reduced to 64 bits;
* `amountExact_iff` — **what is accepted is exact and in range, and what is in range is
  accepted, exactly when the value does not wrap around into the range**.

The library's answers to other texts are left open: there it is enough that it refuses.
-/

namespace IgraRpc

open Lib Lib.Text

-- ---------------------------------------------------------------------------
-- The code
-- ---------------------------------------------------------------------------

def sompiPerKaspa : Nat := 100000000

/-- `MAX_KAS_EMISSION`. -/
def maxKasEmission : Nat := 28600000000

/-- `MAX_REASONABLE_SOMPI`. -/
def maxReasonableSompi : Nat := maxKasEmission * sompiPerKaspa

/-- `MIN_ENTRY_AMOUNT_SOMPI`. -/
def minEntryAmountSompi : Nat := sompiPerKaspa

/-- `try_kaspa_str_to_sompi`, a function of the wallet library. -/
abbrev KaspaStrToSompi := String → Except String (Option UInt64)

/-- `validate_and_convert_amount`. -/
def validateAndConvertAmount (tryKaspaStrToSompi : KaspaStrToSompi) (amountStr : String) :
    Except EntryTransactionError UInt64 :=
  let trimmed := String.ofList (trim amountStr.toList)
  if trimmed.isEmpty then .error (.validation "Amount cannot be empty")
  else
    match tryKaspaStrToSompi trimmed with
    | .error e => .error (.validation
        s!"Invalid amount '{trimmed}': {e}. Expected a valid KAS amount (e.g., 1.5)")
    | .ok none => .error (.validation
        s!"Invalid amount '{trimmed}'. Expected a valid KAS amount (e.g., 1.5)")
    | .ok (some amountSompi) =>
      if amountSompi.toNat < minEntryAmountSompi then
        .error (.validation "Amount must be at least 1 KAS")
      else if amountSompi.toNat > maxReasonableSompi then
        .error (.validation (s!"Amount {amountSompi} SOMPI exceeds maximum possible KAS " ++
          s!"emission ({maxKasEmission} KAS)"))
      else .ok amountSompi

-- ---------------------------------------------------------------------------
-- Decimals
-- ---------------------------------------------------------------------------

/-- A decimal number: possibly a plus sign, digits, and possibly a point with further digits. -/
structure DecimalText where
  plus : Bool
  whole : List Char
  fraction : Option (List Char)
  whole_ne : whole ≠ []
  digits : ∀ c ∈ whole ++ fraction.getD [], c.isDigit = true

namespace DecimalText

/-- The sign as it is written. -/
def sign (d : DecimalText) : List Char := if d.plus then ['+'] else []

/-- The number as it is written. -/
def text (d : DecimalText) : List Char :=
  d.sign ++ d.whole ++ match d.fraction with
    | none => []
    | some fraction => '.' :: fraction

/-- The number of digits behind the point. -/
def places (d : DecimalText) : Nat := (d.fraction.getD []).length

/-- All digits, read as one number: the value times `10 ^ places`. -/
def scaled (d : DecimalText) : Nat := Nat.ofDigitChars 10 (d.whole ++ d.fraction.getD []) 0

/-- The value in KAS, times `10 ^ 8`, is `v`. -/
def IsSompi (d : DecimalText) (v : Nat) : Prop := d.scaled * sompiPerKaspa = v * 10 ^ d.places

/-- The value in sompi, for at most eight places. -/
def sompi (d : DecimalText) : Nat := d.scaled * 10 ^ (8 - d.places)

/-- The decimals the assumption on the library covers. -/
def Covered (d : DecimalText) : Prop := Nat.ofDigitChars 10 d.whole 0 < 2 ^ 64 ∧ d.places ≤ 8

instance (d : DecimalText) : Decidable d.Covered := inferInstanceAs (Decidable (_ ∧ _))

end DecimalText

/-- On a decimal with a 64-bit integer part and at most eight places, the library returns the
value in sompi, reduced to 64 bits. -/
def SompiLibrary (tryKaspaStrToSompi : KaspaStrToSompi) : Prop :=
  ∀ d : DecimalText, d.Covered →
    tryKaspaStrToSompi (String.ofList d.text) = .ok (some (UInt64.ofNat d.sompi))

/-- From 1 KAS to the emission. -/
def AmountInRange (v : Nat) : Prop := minEntryAmountSompi ≤ v ∧ v ≤ maxReasonableSompi

instance (v : Nat) : Decidable (AmountInRange v) := inferInstanceAs (Decidable (_ ∧ _))

/-- An accepted amount is the text's value and in range, and a value in range with at most
eight places is accepted. -/
structure AmountExact (tryKaspaStrToSompi : KaspaStrToSompi) (amountStr : String) : Prop where
  exact : ∀ v, validateAndConvertAmount tryKaspaStrToSompi amountStr = .ok v →
    (∃ d : DecimalText, trim amountStr.toList = d.text ∧ d.IsSompi v.toNat) ∧
      AmountInRange v.toNat
  accepted : ∀ d : DecimalText, trim amountStr.toList = d.text → d.places ≤ 8 → ∀ v,
    d.IsSompi v → AmountInRange v →
      validateAndConvertAmount tryKaspaStrToSompi amountStr = .ok (UInt64.ofNat v)

/-- The value does not wrap around into the range. -/
def DecimalText.Fits (d : DecimalText) : Prop :=
  d.sompi < 2 ^ 64 ∨ ¬ AmountInRange (d.sompi % 2 ^ 64)

instance (d : DecimalText) : Decidable d.Fits := inferInstanceAs (Decidable (_ ∨ _))

/-- The library has no amount for the text. -/
def NoAmount (tryKaspaStrToSompi : KaspaStrToSompi) (amountStr : String) : Prop :=
  ∀ v, tryKaspaStrToSompi (String.ofList (trim amountStr.toList)) ≠ .ok (some v)

namespace DecimalText

theorem point_notMem (d : DecimalText) : '.' ∉ d.sign ++ d.whole := by
  rw [List.mem_append, not_or]
  refine ⟨?_, fun hmem => ?_⟩
  · unfold sign
    split <;> decide
  · exact absurd (d.digits '.' (List.mem_append_left _ hmem)) (by decide)

theorem takeWhile_text (d : DecimalText) : d.text.takeWhile (· ≠ '.') = d.sign ++ d.whole := by
  rw [text, takeWhile_append_of_notMem d.point_notMem]
  cases d.fraction with
  | none => exact List.append_nil _
  | some fraction => exact List.append_nil _

theorem dropWhile_text (d : DecimalText) :
    d.text.dropWhile (· ≠ '.') = match d.fraction with
      | none => []
      | some fraction => '.' :: fraction := by
  rw [text, dropWhile_append_of_notMem d.point_notMem]
  cases d.fraction with
  | none => rfl
  | some fraction => rfl

theorem drop_dropWhile_text (d : DecimalText) :
    (d.text.dropWhile (· ≠ '.')).drop 1 = d.fraction.getD [] := by
  rw [dropWhile_text]
  cases d.fraction with
  | none => rfl
  | some fraction => rfl

theorem text_ne_nil (d : DecimalText) : d.text ≠ [] := by
  simp [text, d.whole_ne]

/-- The digits begin behind the sign. -/
theorem stripPrefix_sign (d : DecimalText) :
    (stripPrefix ['+'] (d.sign ++ d.whole)).getD (d.sign ++ d.whole) = d.whole := by
  unfold sign
  cases d.plus with
  | true => rfl
  | false =>
    have hnone : stripPrefix ['+'] d.whole = none := by
      rw [stripPrefix_eq_none]
      rintro ⟨rest, hrest⟩
      have hmem : '+' ∈ d.whole := hrest ▸ List.mem_cons_self
      exact absurd (d.digits '+' (List.mem_append_left _ hmem)) (by decide)
    show (stripPrefix ['+'] d.whole).getD d.whole = d.whole
    rw [hnone]
    rfl

/-- A text is one decimal. -/
theorem digits_eq_of_text {d e : DecimalText} (h : d.text = e.text) :
    d.whole = e.whole ∧ d.fraction.getD [] = e.fraction.getD [] := by
  have hsigned : d.sign ++ d.whole = e.sign ++ e.whole := by
    rw [← takeWhile_text, ← takeWhile_text, h]
  refine ⟨?_, ?_⟩
  · rw [← d.stripPrefix_sign, ← e.stripPrefix_sign, hsigned]
  · rw [← d.drop_dropWhile_text, ← e.drop_dropWhile_text, h]

theorem scaled_eq_of_text {d e : DecimalText} (h : d.text = e.text) :
    d.scaled = e.scaled ∧ d.places = e.places := by
  obtain ⟨hwhole, hfraction⟩ := digits_eq_of_text h
  rw [scaled, scaled, places, places, hwhole, hfraction]
  exact ⟨rfl, rfl⟩

/-- With at most eight places, the value in sompi is a whole number. -/
theorem isSompi_iff {d : DecimalText} (h : d.places ≤ 8) {v : Nat} :
    d.IsSompi v ↔ v = d.sompi := by
  have hpow : sompiPerKaspa = 10 ^ (8 - d.places) * 10 ^ d.places := by
    rw [← Nat.pow_add, Nat.sub_add_cancel h]
    rfl
  rw [IsSompi, sompi, hpow, ← Nat.mul_assoc,
    Nat.mul_left_inj (Nat.pos_iff_ne_zero.mp (Nat.pow_pos (by decide)))]
  exact eq_comm

/-- The integer part is at most the value. -/
theorem whole_le_sompi (d : DecimalText) : Nat.ofDigitChars 10 d.whole 0 ≤ d.sompi := by
  have hscaled : d.scaled = 10 ^ d.places * Nat.ofDigitChars 10 d.whole 0 +
      Nat.ofDigitChars 10 (d.fraction.getD []) 0 := by
    rw [scaled, Nat.ofDigitChars_append]
    exact Nat.ofDigitChars_eq_ofDigitChars_zero
  calc Nat.ofDigitChars 10 d.whole 0
      ≤ 10 ^ d.places * Nat.ofDigitChars 10 d.whole 0 :=
        Nat.le_mul_of_pos_left _ (Nat.pow_pos (by decide))
    _ ≤ d.scaled := hscaled ▸ Nat.le_add_right _ _
    _ ≤ d.sompi := Nat.le_mul_of_pos_right _ (Nat.pow_pos (by decide))

end DecimalText

-- ---------------------------------------------------------------------------
-- The check
-- ---------------------------------------------------------------------------

section
variable {tryKaspaStrToSompi : KaspaStrToSompi} {amountStr : String}

/-- What is accepted is what the library returns, if it is in range. -/
theorem validateAndConvertAmount_eq_ok {v : UInt64} :
    validateAndConvertAmount tryKaspaStrToSompi amountStr = .ok v ↔
      trim amountStr.toList ≠ [] ∧
        tryKaspaStrToSompi (String.ofList (trim amountStr.toList)) = .ok (some v) ∧
        AmountInRange v.toNat := by
  have hempty : (String.ofList (trim amountStr.toList)).isEmpty = true ↔
      trim amountStr.toList = [] := by
    rw [String.isEmpty_iff, ← String.toList_eq_nil_iff, String.toList_ofList]
  simp only [validateAndConvertAmount, hempty]
  by_cases htrim : trim amountStr.toList = []
  · simp [htrim]
  · rw [if_neg htrim]
    cases hlib : tryKaspaStrToSompi (String.ofList (trim amountStr.toList)) with
    | error e => simp
    | ok amount =>
      cases amount with
      | none => simp
      | some amountSompi =>
        simp only [AmountInRange, ne_eq, htrim, not_false_eq_true, true_and, Except.ok.injEq,
          Option.some.injEq]
        split
        · next hlow =>
          refine iff_of_false (by simp) ?_
          rintro ⟨rfl, hmin, -⟩
          omega
        · split
          · next hhigh =>
            refine iff_of_false (by simp) ?_
            rintro ⟨rfl, -, hmax⟩
            omega
          · simp only [Except.ok.injEq]
            refine ⟨?_, fun h => h.1⟩
            rintro rfl
            exact ⟨rfl, by omega, by omega⟩

/-- A covered decimal is accepted for its value reduced to 64 bits. -/
theorem validateAndConvertAmount_of_covered (hlib : SompiLibrary tryKaspaStrToSompi)
    {d : DecimalText} (hd : trim amountStr.toList = d.text) (hcovered : d.Covered) {v : UInt64} :
    validateAndConvertAmount tryKaspaStrToSompi amountStr = .ok v ↔
      UInt64.ofNat d.sompi = v ∧ AmountInRange v.toNat := by
  rw [validateAndConvertAmount_eq_ok, hd, hlib d hcovered, Except.ok.injEq, Option.some.injEq]
  exact and_iff_right d.text_ne_nil

end

theorem maxReasonableSompi_lt : maxReasonableSompi < 2 ^ 64 := by decide

section
variable {tryKaspaStrToSompi : KaspaStrToSompi} (hlib : SompiLibrary tryKaspaStrToSompi)
  {amountStr : String}
include hlib

/-- **A decimal in range is accepted**: its integer part is no larger than its value. -/
theorem validateAndConvertAmount_of_inRange {d : DecimalText} (hd : trim amountStr.toList = d.text)
    (hplaces : d.places ≤ 8) (hrange : AmountInRange d.sompi) :
    validateAndConvertAmount tryKaspaStrToSompi amountStr = .ok (UInt64.ofNat d.sompi) := by
  have hsmall : d.sompi < 2 ^ 64 := hrange.2.trans_lt maxReasonableSompi_lt
  have hcovered : d.Covered := ⟨d.whole_le_sompi.trans_lt hsmall, hplaces⟩
  refine (validateAndConvertAmount_of_covered hlib hd hcovered).mpr ⟨rfl, ?_⟩
  rw [UInt64.toNat_ofNat', Nat.mod_eq_of_lt hsmall]
  exact hrange

/-- Only what is accepted can be wrong. -/
theorem amountExact_of_exact (hexact : ∀ v,
    validateAndConvertAmount tryKaspaStrToSompi amountStr = .ok v →
      ∃ d : DecimalText, trim amountStr.toList = d.text ∧ d.IsSompi v.toNat) :
    AmountExact tryKaspaStrToSompi amountStr where
  exact v hv := ⟨hexact v hv, (validateAndConvertAmount_eq_ok.mp hv).2.2⟩
  accepted d hd hplaces v hv hrange := by
    obtain rfl := (DecimalText.isSompi_iff hplaces).mp hv
    exact validateAndConvertAmount_of_inRange hlib hd hplaces hrange

/-- A covered decimal is wrong exactly if it wraps around into the range. -/
theorem amountExact_covered_iff {d : DecimalText} (hd : trim amountStr.toList = d.text)
    (hcovered : d.Covered) : AmountExact tryKaspaStrToSompi amountStr ↔ d.Fits := by
  have hmod : (UInt64.ofNat d.sompi).toNat = d.sompi % 2 ^ 64 := UInt64.toNat_ofNat'
  refine ⟨fun h => ?_, fun h => amountExact_of_exact hlib fun v hv => ?_⟩
  · by_contra hwrap
    obtain ⟨hlarge, hrange⟩ : ¬ d.sompi < 2 ^ 64 ∧ AmountInRange (d.sompi % 2 ^ 64) := by
      simpa [DecimalText.Fits, not_or] using hwrap
    have hok := (validateAndConvertAmount_of_covered hlib hd hcovered).mpr
      ⟨rfl, by rw [hmod]; exact hrange⟩
    obtain ⟨⟨e, he, hvalue⟩, -⟩ := h.exact _ hok
    -- the text's value is the unreduced one
    obtain ⟨hscaled, hplaces⟩ := DecimalText.scaled_eq_of_text (hd.symm.trans he)
    rw [DecimalText.IsSompi, ← hscaled, ← hplaces] at hvalue
    have hsompi := (DecimalText.isSompi_iff hcovered.2).mp hvalue
    have hlt := Nat.mod_lt d.sompi (show 0 < 2 ^ 64 by decide)
    omega
  · obtain ⟨rfl, hrange⟩ := (validateAndConvertAmount_of_covered hlib hd hcovered).mp hv
    rw [hmod] at hrange ⊢
    have hsmall := h.resolve_right (not_not.mpr hrange)
    exact ⟨d, hd, (DecimalText.isSompi_iff hcovered.2).mpr (Nat.mod_eq_of_lt hsmall)⟩

end

/-- **Entry amounts.** A decimal that the library can hold is handled right exactly when its
value does not wrap around into the range; any other text, when the library refuses it. -/
theorem amountExact_iff {tryKaspaStrToSompi : KaspaStrToSompi}
    (hlib : SompiLibrary tryKaspaStrToSompi) (amountStr : String) :
    (∀ d : DecimalText, trim amountStr.toList = d.text → d.Covered →
      (AmountExact tryKaspaStrToSompi amountStr ↔ d.Fits)) ∧
    ((∀ d : DecimalText, trim amountStr.toList = d.text → ¬ d.Covered) →
      NoAmount tryKaspaStrToSompi amountStr → AmountExact tryKaspaStrToSompi amountStr) := by
  refine ⟨fun d hd hcovered => amountExact_covered_iff hlib hd hcovered, fun _ hrefused => ?_⟩
  refine amountExact_of_exact hlib fun v hv => ?_
  exact absurd (validateAndConvertAmount_eq_ok.mp hv).2.1 (hrefused v)

-- ---------------------------------------------------------------------------
-- A library
-- ---------------------------------------------------------------------------

/-- A library that refuses what the assumption does not cover. -/
def strictKaspaStrToSompi (amount : String) : Except String (Option UInt64) :=
  let signed := amount.toList.takeWhile (· ≠ '.')
  let whole := (stripPrefix ['+'] signed).getD signed
  let fraction := (amount.toList.dropWhile (· ≠ '.')).drop 1
  if whole ≠ [] ∧ (whole ++ fraction).all Char.isDigit ∧ Nat.ofDigitChars 10 whole 0 < 2 ^ 64 ∧
      fraction.length ≤ 8 then
    .ok (some (UInt64.ofNat
      (Nat.ofDigitChars 10 (whole ++ fraction) 0 * 10 ^ (8 - fraction.length))))
  else .error "invalid amount"

theorem strictKaspaStrToSompi_sompiLibrary : SompiLibrary strictKaspaStrToSompi := by
  intro d hcovered
  simp only [strictKaspaStrToSompi, String.toList_ofList, d.takeWhile_text, d.stripPrefix_sign,
    d.drop_dropWhile_text]
  rw [if_pos ⟨d.whole_ne, List.all_eq_true.mpr d.digits, hcovered.1, hcovered.2⟩]
  rfl

/-- `+1.5`. -/
def smallDecimal : DecimalText :=
  ⟨true, "1".toList, some "5".toList, by decide, List.all_iff_forall_prop.mp (by decide)⟩

/-- `184467440738.09551616`, which is 2^64 sompi and 1 KAS. -/
def wrappingDecimal : DecimalText :=
  ⟨false, "184467440738".toList, some "09551616".toList, by decide,
    List.all_iff_forall_prop.mp (by decide)⟩

/-- A decimal with a sign, and a text that is no number. -/
theorem amountExact_small :
    (AmountExact strictKaspaStrToSompi "+1.5" ↔ smallDecimal.Fits) ∧ smallDecimal.Fits ∧
      AmountExact strictKaspaStrToSompi "1 KAS" := by
  have hsmall : trim "+1.5".toList = smallDecimal.text := by decide
  refine ⟨(amountExact_iff strictKaspaStrToSompi_sompiLibrary "+1.5").1 smallDecimal hsmall
    (by decide), by decide, ?_⟩
  have htrim : trim "1 KAS".toList = "1 KAS".toList := by decide
  refine (amountExact_iff strictKaspaStrToSompi_sompiLibrary "1 KAS").2 (fun d hd _ => ?_)
    fun v hv => ?_
  · have hwhole := d.takeWhile_text
    rw [← hd, htrim] at hwhole
    have hblank : ' ' ∈ d.whole := by
      rw [← d.stripPrefix_sign, ← hwhole]
      decide
    exact absurd (d.digits ' ' (List.mem_append_left _ hblank)) (by decide)
  · have herror : strictKaspaStrToSompi (String.ofList (trim "1 KAS".toList)) =
        .error "invalid amount" := by
      rw [htrim]
      rfl
    rw [herror] at hv
    exact absurd hv (by simp)

/-- 2^64 sompi more than 1 KAS are accepted as 1 KAS. -/
theorem amountExact_fails : ¬ AmountExact strictKaspaStrToSompi "184467440738.09551616" := by
  have htrim : trim "184467440738.09551616".toList = wrappingDecimal.text := by decide
  rw [amountExact_covered_iff strictKaspaStrToSompi_sompiLibrary htrim (by decide)]
  decide

end IgraRpc
