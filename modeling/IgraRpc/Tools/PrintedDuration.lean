import IgraRpc.Tools.LogText

/-!
# Printed durations, read back

* `Duration.Told` — the durations whose text says them, to the microsecond;
* `debug_reads_iff` — **a printed duration is read back exactly if it is told**: below a
  microsecond it is printed in nanoseconds, which the reader does not know
  (`parseDurationMicros_ns`), and from 2^50 microseconds on the doubles in between decide.
-/

namespace IgraRpc

open Lib Lib.Text

-- ---------------------------------------------------------------------------
-- What is to be read
-- ---------------------------------------------------------------------------

/-- The reading is within a microsecond of the duration. -/
def SameMicros (micros : Nat) (d : Duration) : Prop :=
  micros * 1000 ≤ d.nanos + 1000 ∧ d.nanos ≤ micros * 1000 + 1000

instance (micros : Nat) (d : Duration) : Decidable (SameMicros micros d) :=
  inferInstanceAs (Decidable (_ ∧ _))

/-- The seconds as a double, times a million as a double, to the nearest whole number. -/
def Duration.doubleMicros (d : Duration) : Nat :=
  ⌊F64.nearest (F64.nearest (d.nanos / 10 ^ 9) * 10 ^ 6) + 1 / 2⌋₊

/-- At least a microsecond; and from 2^50 of them on the doubles keep the microsecond. -/
def Duration.Told (d : Duration) : Prop :=
  1000 ≤ d.nanos ∧
    (2 ^ 50 * 1000 ≤ d.nanos → d.doubleMicros ≤ maxMicros ∧ SameMicros d.doubleMicros d)

instance (d : Duration) : Decidable d.Told := inferInstanceAs (Decidable (_ ∧ _))

-- ---------------------------------------------------------------------------
-- Scaled doubles
-- ---------------------------------------------------------------------------

theorem roundedMicros_fin (q : ℚ) : roundedMicros (.fin false q) =
    if ⌊q + 1 / 2⌋₊ ≤ maxMicros then some ⌊q + 1 / 2⌋₊ else none := by
  have hnat : F64.toNat (2 ^ 128 - 1) (F64.round (.fin false q)) =
      min ⌊q + 1 / 2⌋₊ (2 ^ 128 - 1) := by
    rw [F64.round, F64.toNat, if_neg (by decide), ← Int.floor_toNat, Int.floor_intCast,
      Int.floor_toNat]
  have hmax : maxMicros < 2 ^ 128 - 1 := by decide
  have hbelow : (F64.round (.fin false q)).isBelowZero = false := rfl
  have hsign : (F64.isSignNegative (.fin false q) || !F64.isFinite (.fin false q)) = false := rfl
  simp only [roundedMicros, hnat, hbelow, hsign, Bool.false_eq_true, if_false]
  split
  · next hlarge => rw [if_neg (by omega)]
  · next hsmall => rw [if_pos (by omega), Nat.min_eq_left (by omega)]

/-- **A scaled double.** With less than 2^50 microseconds the reading is off by at most one. -/
theorem roundedMicros_scaled {v : ℚ} {m : Nat} (hv : 1 ≤ v) (hm : 1 ≤ m)
    (hbound : v * m < 2 ^ 50) :
    ∃ micros, roundedMicros ((F64.ofRat false v).mul (.ofRat false m)) = some micros ∧
      |(micros : ℚ) - v * m| ≤ 1 := by
  obtain ⟨q, hmul, herror⟩ := F64.exists_mul_natCast hv hm hbound
  obtain ⟨hlow, hhigh⟩ := abs_lt.mp herror
  have hone : 1 ≤ v * m := by
    have hm' : (1 : ℚ) ≤ m := by exact_mod_cast hm
    exact hv.trans (le_mul_of_one_le_right (by linarith) hm')
  have hfloor : (⌊q + 1 / 2⌋₊ : ℚ) ≤ q + 1 / 2 := Nat.floor_le (by linarith)
  have hfloor' := Nat.lt_floor_add_one (q + 1 / 2)
  have hlt : ⌊q + 1 / 2⌋₊ ≤ maxMicros := by
    have hlt : (⌊q + 1 / 2⌋₊ : ℚ) < 2 ^ 51 := by linarith
    have hlt' : ⌊q + 1 / 2⌋₊ < 2 ^ 51 := by exact_mod_cast hlt
    exact (Nat.le_of_lt hlt').trans (by decide)
  refine ⟨⌊q + 1 / 2⌋₊, ?_, ?_⟩
  · rw [hmul, roundedMicros_fin, if_pos hlt]
  · rw [abs_le]
    refine ⟨?_, ?_⟩ <;> linarith

-- ---------------------------------------------------------------------------
-- Printed durations
-- ---------------------------------------------------------------------------

/-- The number before the unit. -/
def decimalText (integerPart fraction width : Nat) : List Char :=
  Nat.toDigits 10 integerPart ++
    (if fraction = 0 then [] else '.' :: fractionDigits width fraction)

theorem fmtDecimal_eq (integerPart fraction width : Nat) (unit : List Char) :
    fmtDecimal integerPart fraction width unit =
      decimalText integerPart fraction width ++ unit := rfl

/-- The decimals say the fraction: the digits that are left out are zeros. -/
theorem ofDigitChars_fractionDigits {width fraction : Nat} (hlt : fraction < 10 ^ width)
    (start : Nat) :
    (Nat.ofDigitChars 10 (fractionDigits width fraction) start : ℚ) =
      (start + fraction / 10 ^ width) * 10 ^ (fractionDigits width fraction).length := by
  induction width generalizing fraction start with
  | zero =>
    obtain rfl : fraction = 0 := by omega
    simp [fractionDigits]
  | succ width ih =>
    unfold fractionDigits
    split
    · next hzero => simp [hzero]
    · have hpow : 0 < 10 ^ width := Nat.pow_pos (by decide)
      have hdigit : fraction / 10 ^ width < 10 := by
        rw [Nat.div_lt_iff_lt_mul hpow, Nat.mul_comm, ← Nat.pow_succ]
        exact hlt
      have hsplit : (fraction : ℚ) =
          10 ^ width * (fraction / 10 ^ width : ℕ) + (fraction % 10 ^ width : ℕ) := by
        exact_mod_cast (Nat.div_add_mod fraction (10 ^ width)).symm
      rw [Nat.ofDigitChars_cons_digitChar_of_lt_ten hdigit, ih (Nat.mod_lt _ hpow),
        List.length_cons, hsplit]
      push_cast
      field_simp
      ring

theorem number_decimalText {integerPart fraction width : Nat} (hlt : fraction < 10 ^ width) :
    ∀ c ∈ decimalText integerPart fraction width, c.isDigit = true ∨ c = '.' := by
  intro c hc
  rcases List.mem_append.mp hc with hc | hc
  · exact number_toDigits integerPart c hc
  · split at hc
    · exact absurd hc List.not_mem_nil
    · rcases List.mem_cons.mp hc with rfl | hc
      · exact Or.inr rfl
      · exact Or.inl (mem_fractionDigits hlt hc)

/-- The number is read as the double nearest to it. -/
theorem parse_decimalText {integerPart fraction width : Nat} (hlt : fraction < 10 ^ width) :
    F64.parse (decimalText integerPart fraction width) =
      some (.ofRat false (integerPart + fraction / 10 ^ width)) := by
  have hdigits := isDigit_toDigits integerPart
  unfold decimalText
  split
  · next hzero =>
    rw [List.append_nil, F64.parse_digits Nat.toDigits_ne_nil hdigits,
      Nat.ofDigitChars_ten_toDigits, hzero]
    simp
  · have hfraction := ofDigitChars_fractionDigits hlt integerPart
    rw [F64.parse_decimal Nat.toDigits_ne_nil hdigits fun c hc => mem_fractionDigits hlt hc,
      Nat.ofDigitChars_append, Nat.ofDigitChars_ten_toDigits, hfraction, mul_div_cancel_right₀]
    exact pow_ne_zero _ (by norm_num)

theorem sameMicros_of_abs {micros : Nat} {d : Duration} {x : ℚ} (hx : x * 1000 = d.nanos)
    (h : |(micros : ℚ) - x| ≤ 1) : SameMicros micros d := by
  obtain ⟨hlow, hhigh⟩ := abs_le.mp h
  refine ⟨?_, ?_⟩
  · have hle : (micros * 1000 : ℚ) ≤ d.nanos + 1000 := by linarith
    exact_mod_cast hle
  · have hle : (d.nanos : ℚ) ≤ micros * 1000 + 1000 := by linarith
    exact_mod_cast hle

/-- A decimal of a unit that is found. -/
theorem reads_decimal (humantime : Humantime) {d : Duration} (hd : d.nanos < 2 ^ 50 * 1000)
    {integerPart fraction width multiplier : Nat} {unit : DurationUnit}
    (hlt : fraction < 10 ^ width) (hone : 1 ≤ integerPart) (hmultiplier : 1 ≤ multiplier)
    (hvalue : (integerPart + fraction / 10 ^ width : ℚ) * multiplier * 1000 = d.nanos)
    (hsplit : ∀ {number : List Char}, (∀ c ∈ number, c.isDigit = true ∨ c = '.') →
      splitUnit (number ++ unit.text) = some (number, .ofRat false (multiplier : ℚ))) :
    ∃ micros, parseDurationMicros humantime (fmtDecimal integerPart fraction width unit.text) =
      some micros ∧ SameMicros micros d := by
  have hnumber := @number_decimalText integerPart fraction width hlt
  have hd' : (d.nanos : ℚ) < 2 ^ 50 * 1000 := by exact_mod_cast hd
  have hpart : (1 : ℚ) ≤ integerPart + fraction / 10 ^ width := by
    have hone' : (1 : ℚ) ≤ integerPart := by exact_mod_cast hone
    have hfraction : (0 : ℚ) ≤ fraction / 10 ^ width := by positivity
    linarith
  obtain ⟨micros, hmicros, herror⟩ := roundedMicros_scaled hpart hmultiplier
    (by linarith : (integerPart + fraction / 10 ^ width : ℚ) * multiplier < 2 ^ 50)
  refine ⟨micros, ?_, sameMicros_of_abs hvalue herror⟩
  rw [fmtDecimal_eq, parseDurationMicros_of_split hnumber humantime (hsplit hnumber),
    parse_decimalText hlt, Option.bind_some, hmicros]

/-- A duration of less than 2^50 microseconds is read back exactly when it is no less than
one. -/
theorem debug_reads_iff_le (humantime : Humantime) {d : Duration} (hd : d.nanos < 2 ^ 50 * 1000) :
    (∃ micros, parseDurationMicros humantime d.debug = some micros ∧ SameMicros micros d) ↔
      1000 ≤ d.nanos := by
  have hsub := d.subsecNanos_lt
  have hnanos : d.nanos = d.secs.toNat * 1000000000 + d.subsecNanos := rfl
  have hsecs : d.secs > 0 ↔ 0 < d.secs.toNat := UInt64.lt_iff_toNat_lt
  unfold Duration.debug
  split
  · next hs =>
    have hpos := hsecs.mp hs
    refine iff_of_true ?_ (by omega)
    refine @reads_decimal humantime d hd _ _ 9 1000000 .s (by omega) hpos (by decide) ?_
      fun h => by exact_mod_cast splitUnit_s h
    rw [hnanos]
    push_cast
    ring
  · next hs =>
    have hzero : d.secs.toNat = 0 := by
      by_contra hne
      exact hs (hsecs.mpr (Nat.pos_of_ne_zero hne))
    have hnanos' : d.nanos = d.subsecNanos := by omega
    split
    · refine iff_of_true ?_ (by omega)
      refine @reads_decimal humantime d hd _ _ 6 1000 .ms (by omega) (by omega) (by decide) ?_
        fun h => by exact_mod_cast splitUnit_ms h
      have hdiv : (d.subsecNanos : ℚ) = 1000000 * (d.subsecNanos / 1000000 : ℕ) +
          (d.subsecNanos % 1000000 : ℕ) := by
        exact_mod_cast (Nat.div_add_mod d.subsecNanos 1000000).symm
      rw [hnanos', hdiv]
      push_cast
      ring
    · split
      · refine iff_of_true ?_ (by omega)
        refine @reads_decimal humantime d hd _ _ 3 1 .micro (by omega) (by omega) (by decide) ?_
          fun h => by exact_mod_cast splitUnit_micro h
        have hdiv : (d.subsecNanos : ℚ) = 1000 * (d.subsecNanos / 1000 : ℕ) +
            (d.subsecNanos % 1000 : ℕ) := by
          exact_mod_cast (Nat.div_add_mod d.subsecNanos 1000).symm
        rw [hnanos', hdiv]
        push_cast
        ring
      · refine iff_of_false ?_ (by omega)
        rintro ⟨micros, hmicros, -⟩
        have hnone := parseDurationMicros_ns humantime d.subsecNanos
        have hdebug : fmtDecimal d.subsecNanos 0 0 "ns".toList =
            wholeDuration d.subsecNanos .ns :=
          congrArg (· ++ "ns".toList) (List.append_nil _)
        rw [hdebug, hnone] at hmicros
        exact absurd hmicros (by simp)

/-- From 2^50 microseconds on, the reading is that of the doubles. -/
theorem parseDurationMicros_debug (humantime : Humantime) {d : Duration}
    (hd : 2 ^ 50 * 1000 ≤ d.nanos) : parseDurationMicros humantime d.debug =
      if d.doubleMicros ≤ maxMicros then some d.doubleMicros else none := by
  have hsub := d.subsecNanos_lt
  have hnanos : d.nanos = d.secs.toNat * 1000000000 + d.subsecNanos := rfl
  have hsecs : d.secs > 0 := UInt64.lt_iff_toNat_lt.mpr (by show 0 < d.secs.toNat; omega)
  have hvalue : (d.secs.toNat + d.subsecNanos / 10 ^ 9 : ℚ) = d.nanos / 10 ^ 9 := by
    rw [hnanos]
    push_cast
    ring
  have hlarge : (d.nanos / 10 ^ 9 : ℚ) ≤ 2 ^ 64 := by
    have hlt : d.nanos < 2 ^ 64 * 10 ^ 9 := by
      have hsecs' := d.secs.toNat_lt
      omega
    have hlt' : (d.nanos : ℚ) < 2 ^ 64 * 10 ^ 9 := by exact_mod_cast hlt
    exact (div_le_iff₀ (by norm_num)).mpr hlt'.le
  have hnumber := @number_decimalText d.secs.toNat d.subsecNanos 9 hsub
  have hmul : (F64.ofRat false (d.nanos / 10 ^ 9 : ℚ)).mul (.ofRat false 1000000) =
      .fin false (F64.nearest (F64.nearest (d.nanos / 10 ^ 9) * 10 ^ 6)) := by
    have hpow : (2 : ℚ) ^ 64 ≤ 2 ^ 1000 := pow_le_pow_right₀ (by norm_num) (by norm_num)
    have hmillion : F64.ofRat false 1000000 = .fin false 1000000 := by
      exact_mod_cast F64.ofRat_natCast false (by decide : 1000000 < 2 ^ 53)
    have hnearest : F64.nearest (d.nanos / 10 ^ 9) ≤ 2 * 2 ^ 64 :=
      (F64.nearest_le _).trans (mul_le_mul_of_nonneg_left (max_le (by norm_num) hlarge)
        (by norm_num))
    have hproduct : F64.nearest (d.nanos / 10 ^ 9) * 10 ^ 6 ≤ 2 ^ 1000 := by
      have hpow' : (2 : ℚ) ^ 100 ≤ 2 ^ 1000 := pow_le_pow_right₀ (by norm_num) (by norm_num)
      refine le_trans ?_ hpow'
      linarith
    have hten : (1000000 : ℚ) = 10 ^ 6 := by norm_num
    rw [F64.ofRat_of_le false (hlarge.trans hpow), hmillion, hten]
    exact F64.ofRat_of_le _ hproduct
  rw [Duration.debug, if_pos hsecs, fmtDecimal_eq]
  have hsplit : splitUnit (decimalText d.secs.toNat d.subsecNanos 9 ++ DurationUnit.s.text) = _ :=
    splitUnit_s hnumber
  have hread := parseDurationMicros_of_split hnumber humantime hsplit
  rw [parse_decimalText hsub, Option.bind_some, hvalue, hmul, roundedMicros_fin] at hread
  exact hread

/-- **A printed duration is read back exactly if it is told.** -/
theorem debug_reads_iff (humantime : Humantime) (d : Duration) :
    (∃ micros, parseDurationMicros humantime d.debug = some micros ∧ SameMicros micros d) ↔
      d.Told := by
  rcases Nat.lt_or_ge d.nanos (2 ^ 50 * 1000) with hd | hd
  · rw [debug_reads_iff_le humantime hd]
    exact ⟨fun h => ⟨h, fun hlarge => absurd hd (Nat.not_lt.mpr hlarge)⟩, fun h => h.1⟩
  · rw [parseDurationMicros_debug humantime hd]
    refine ⟨fun ⟨micros, hmicros, hsame⟩ => ⟨by omega, fun _ => ?_⟩, fun h => ?_⟩
    · split at hmicros
      · next hmax =>
        obtain rfl := Option.some.inj hmicros
        exact ⟨hmax, hsame⟩
      · exact absurd hmicros (by simp)
    · obtain ⟨hmax, hsame⟩ := h.2 hd
      exact ⟨_, if_pos hmax, hsame⟩

end IgraRpc
