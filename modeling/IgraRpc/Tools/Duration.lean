import IgraRpc.Lib.Binary64
import IgraRpc.Lib.Text

/-!
# Reading durations — `tools/tx_perf/duration.rs`

* `parseDurationMicros` — the microseconds a text such as `1.5ms` says; the unit is found by
  a chain of suffix tests, and what has none of the units is left to the `humantime` library;
* `parsesWhole_iff` — **a whole number of a documented unit is read as documented exactly when
  the unit is not nanoseconds**: the test for `s` comes before the test for `ns`.
-/

namespace IgraRpc

open Lib Lib.Text

-- ---------------------------------------------------------------------------
-- The code
-- ---------------------------------------------------------------------------

/-- `std::time::Duration`. -/
structure Duration where
  secs : UInt64
  subsecNanos : Nat
  subsecNanos_lt : subsecNanos < 1000000000

/-- The whole duration in nanoseconds. -/
def Duration.nanos (d : Duration) : Nat := d.secs.toNat * 1000000000 + d.subsecNanos

/-- The largest 64-bit number. -/
def maxMicros : Nat := 2 ^ 64 - 1

/-- `duration_to_micros`, with its saturating arithmetic. -/
def durationToMicros (d : Duration) : Option Nat :=
  some (min (min (d.secs.toNat * 1000000) maxMicros + d.subsecNanos / 1000) maxMicros)

/-- `humantime::parse_duration`, without its errors. -/
abbrev Humantime := List Char → Option Duration

/-- The number before the unit, and the unit's multiplier to microseconds. -/
def splitUnit (s : List Char) : Option (List Char × F64) :=
  match stripSuffix "ms".toList s with
  | some stripped => some (trim stripped, .ofRat false 1000)
  | none =>
    match stripSuffix "µs".toList s with
    | some stripped => some (trim stripped, .ofRat false 1)
    | none =>
      match stripSuffix "us".toList s with
      | some stripped => some (trim stripped, .ofRat false 1)
      | none =>
        match stripSuffix "s".toList s with
        | some stripped => some (trim stripped, .ofRat false 1000000)
        | none =>
          match stripSuffix "ns".toList s with
          | some stripped => some (trim stripped, .ofRat false (1 / 1000))
          | none => none

/-- The microseconds of a product, if it is neither negative nor out of range. -/
def roundedMicros (micros : F64) : Option Nat :=
  if micros.isSignNegative || !micros.isFinite then none
  else if micros.round.isBelowZero then none
  else
    let asU128 := micros.round.toNat (2 ^ 128 - 1)
    if asU128 > maxMicros then none else some asU128

/-- The Greek mu becomes the micro sign. -/
def normalizeMu (text : List Char) : List Char := text.map fun c => if c = 'μ' then 'µ' else c

/-- `parse_duration_micros`. -/
def parseDurationMicros (humantime : Humantime) (input : List Char) : Option Nat :=
  let s := normalizeMu (trim input)
  if s.isEmpty then none
  else
    match splitUnit s with
    | some (number, multiplier) =>
      (F64.parse number).bind fun value => roundedMicros (value.mul multiplier)
    | none => (humantime s).bind durationToMicros

-- ---------------------------------------------------------------------------
-- Whole numbers
-- ---------------------------------------------------------------------------

/-- The documented units. -/
inductive DurationUnit where
  | ns
  | us
  | micro
  | ms
  | s
  deriving DecidableEq

namespace DurationUnit

/-- The unit as it is written. -/
def text : DurationUnit → List Char
  | ns => "ns".toList
  | us => "us".toList
  | micro => "µs".toList
  | ms => "ms".toList
  | s => "s".toList

/-- The unit in nanoseconds. -/
def nanos : DurationUnit → Nat
  | ns => 1
  | us => 1000
  | micro => 1000
  | ms => 1000000
  | s => 1000000000

end DurationUnit

/-- `n` of the unit, as it is written. -/
def wholeDuration (n : Nat) (unit : DurationUnit) : List Char := Nat.toDigits 10 n ++ unit.text

/-- `n` of the unit, in microseconds rounded to the nearest. -/
def wholeMicros (n : Nat) (unit : DurationUnit) : Nat := (n * unit.nanos + 500) / 1000

/-- The text is read as the duration it says. -/
def ParsesWhole (humantime : Humantime) (n : Nat) (unit : DurationUnit) : Prop :=
  parseDurationMicros humantime (wholeDuration n unit) = some (wholeMicros n unit)

theorem isDigit_toDigits (n : Nat) : ∀ c ∈ Nat.toDigits 10 n, c.isDigit = true :=
  fun _ hc => Nat.isDigit_of_mem_toDigits (by decide) (by decide) hc

theorem isWhitespace_of_isDigit {c : Char} (h : c.isDigit = true) : isWhitespace c = false := by
  simp only [Char.isDigit, Bool.and_eq_true, decide_eq_true_eq] at h
  have hlow : 48 ≤ c.toNat := h.1
  have hhigh : c.toNat ≤ 57 := h.2
  simp [isWhitespace]
  omega

theorem notMem_toDigits {c : Char} (h : c.isDigit = false) (n : Nat) :
    c ∉ Nat.toDigits 10 n := by
  intro hmem
  rw [isDigit_toDigits n c hmem] at h
  exact absurd h (by decide)

theorem DurationUnit.text_ne_nil (unit : DurationUnit) : unit.text ≠ [] := by
  cases unit with
  | _ => decide

/-- No white space and no Greek letter stands in a unit. -/
theorem DurationUnit.text_clean (unit : DurationUnit) :
    ∀ c ∈ unit.text, isWhitespace c = false ∧ c ≠ 'μ' := by
  cases unit with
  | _ => exact List.all_iff_forall_prop.mp (by decide)

/-- A literal with a character that the text lacks is no suffix of it. -/
theorem stripSuffix_eq_none_of_notMem {literal text : List Char} (c : Char) (hc : c ∈ literal)
    (htext : c ∉ text) : stripSuffix literal text = none :=
  stripSuffix_eq_none.mpr fun hsuffix => htext (hsuffix.subset hc)

section
variable {number : List Char} (hnumber : ∀ c ∈ number, c.isDigit = true ∨ c = '.')
include hnumber

theorem notMem_number {c : Char} (h : c.isDigit = false ∧ c ≠ '.') : c ∉ number := by
  intro hmem
  rcases hnumber c hmem with hc | hc
  · rw [h.1] at hc
    exact absurd hc (by decide)
  · exact h.2 hc

theorem isWhitespace_number : ∀ c ∈ number, isWhitespace c = false := by
  intro c hmem
  rcases hnumber c hmem with hc | rfl
  · exact isWhitespace_of_isDigit hc
  · decide

theorem trim_number : trim number = number := trim_of_forall (isWhitespace_number hnumber)

theorem normalize_number (unit : DurationUnit) :
    normalizeMu (trim (number ++ unit.text)) = number ++ unit.text := by
  have htrim : ∀ c ∈ number ++ unit.text, isWhitespace c = false := by
    intro c hc
    rcases List.mem_append.mp hc with hc | hc
    · exact isWhitespace_number hnumber c hc
    · exact (unit.text_clean c hc).1
  have hmu : 'μ' ∉ number ++ unit.text := by
    rw [List.mem_append, not_or]
    exact ⟨notMem_number hnumber (by decide), fun hmem =>
      (unit.text_clean _ hmem).2 rfl⟩
  rw [trim_of_forall htrim, normalizeMu]
  refine (List.map_congr_left fun c hc => if_neg ?_).trans (List.map_id _)
  rintro rfl
  exact hmu hc

theorem splitUnit_ms :
    splitUnit (number ++ "ms".toList) = some (number, .ofRat false 1000) := by
  rw [splitUnit, stripSuffix_append]
  exact congrArg (fun number => some (number, _)) (trim_number hnumber)

/-- A suffix test fails by a character of the literal. -/
theorem stripSuffix_number {literal unit : List Char} (c : Char)
    (h : c ∈ literal ∧ c ∉ unit ∧ c.isDigit = false ∧ c ≠ '.') :
    stripSuffix literal (number ++ unit) = none := by
  obtain ⟨hc, hunit, hother⟩ := h
  refine stripSuffix_eq_none_of_notMem c hc ?_
  rw [List.mem_append, not_or]
  exact ⟨notMem_number hnumber hother, hunit⟩

theorem splitUnit_micro :
    splitUnit (number ++ "µs".toList) = some (number, .ofRat false 1) := by
  rw [splitUnit,
    stripSuffix_number hnumber 'm' (by decide),
    stripSuffix_append]
  exact congrArg (fun number => some (number, _)) (trim_number hnumber)

theorem splitUnit_us :
    splitUnit (number ++ "us".toList) = some (number, .ofRat false 1) := by
  rw [splitUnit,
    stripSuffix_number hnumber 'm' (by decide),
    stripSuffix_number hnumber 'µ' (by decide),
    stripSuffix_append]
  exact congrArg (fun number => some (number, _)) (trim_number hnumber)

theorem splitUnit_s :
    splitUnit (number ++ "s".toList) = some (number, .ofRat false 1000000) := by
  rw [splitUnit,
    stripSuffix_number hnumber 'm' (by decide),
    stripSuffix_number hnumber 'µ' (by decide),
    stripSuffix_number hnumber 'u' (by decide),
    stripSuffix_append]
  exact congrArg (fun number => some (number, _)) (trim_number hnumber)

/-- Nanoseconds are taken for seconds, with the `n` in the number: the test for `s` comes
fourth. -/
theorem splitUnit_ns :
    splitUnit (number ++ "ns".toList) = some (number ++ ['n'], .ofRat false 1000000) := by
  have hs : stripSuffix "s".toList (number ++ "ns".toList) = some (number ++ ['n']) :=
    stripSuffix_eq_some.mpr (List.append_assoc number ['n'] ['s']).symm
  have htrim : trim (number ++ ['n']) = number ++ ['n'] := by
    refine trim_of_forall fun c hc => ?_
    rcases List.mem_append.mp hc with hc | hn
    · exact isWhitespace_number hnumber c hc
    · rw [List.mem_singleton.mp hn]
      decide
  rw [splitUnit,
    stripSuffix_number hnumber 'm' (by decide),
    stripSuffix_number hnumber 'µ' (by decide),
    stripSuffix_number hnumber 'u' (by decide), hs]
  exact congrArg (fun number => some (number, _)) htrim

/-- The whole chain, for a unit that is found. -/
theorem parseDurationMicros_of_split (humantime : Humantime) {unit : DurationUnit}
    {found : List Char} {multiplier : F64}
    (hsplit : splitUnit (number ++ unit.text) = some (found, multiplier)) :
    parseDurationMicros humantime (number ++ unit.text) =
      (F64.parse found).bind fun value => roundedMicros (value.mul multiplier) := by
  have hempty : (number ++ unit.text).isEmpty = false :=
    List.isEmpty_eq_false_iff.mpr (List.append_ne_nil_of_right_ne_nil number unit.text_ne_nil)
  simp only [parseDurationMicros, normalize_number hnumber unit, hempty, hsplit,
    Bool.false_eq_true, if_false]

end

/-- A natural number of microseconds with 53 bits comes out as it is. -/
theorem roundedMicros_natCast {k : Nat} (h : k < 2 ^ 53) :
    roundedMicros (.fin false k) = some k := by
  have hmax : k ≤ 2 ^ 128 - 1 := (Nat.le_of_lt h).trans (by decide)
  have hmicros : ¬ k > maxMicros := Nat.not_lt.mpr ((Nat.le_of_lt h).trans (by decide))
  have hnat : F64.toNat (2 ^ 128 - 1) (.fin false (k : ℚ)) = k := by
    rw [F64.toNat, if_neg (by decide), Nat.floor_natCast]
    exact Nat.min_eq_left hmax
  simp only [roundedMicros, F64.round_natCast, hnat, if_neg hmicros, F64.isSignNegative,
    F64.isFinite, F64.isBelowZero]
  rfl

theorem number_toDigits (n : Nat) : ∀ c ∈ Nat.toDigits 10 n, c.isDigit = true ∨ c = '.' :=
  fun c hc => Or.inl (isDigit_toDigits n c hc)

/-- A whole number of a unit that is found. -/
theorem parseDurationMicros_whole (humantime : Humantime) {n multiplier : Nat}
    {unit : DurationUnit} (hn : n < 2 ^ 53) (hproduct : n * multiplier < 2 ^ 53)
    (hmultiplier : multiplier < 2 ^ 53)
    (hsplit : splitUnit (wholeDuration n unit) =
      some (Nat.toDigits 10 n, .ofRat false (multiplier : ℚ))) :
    parseDurationMicros humantime (wholeDuration n unit) = some (n * multiplier) := by
  have hparse : F64.parse (Nat.toDigits 10 n) = some (.fin false n) := by
    rw [F64.parse_digits Nat.toDigits_ne_nil (isDigit_toDigits n), Nat.ofDigitChars_ten_toDigits,
      F64.ofRat_natCast false hn]
  rw [wholeDuration, parseDurationMicros_of_split (number_toDigits n) humantime hsplit, hparse,
    Option.bind_some, F64.ofRat_natCast false hmultiplier, F64.mul_natCast hproduct,
    roundedMicros_natCast hproduct]

/-- A number with an `n` behind it is no number. -/
theorem parseDurationMicros_ns (humantime : Humantime) (n : Nat) :
    parseDurationMicros humantime (wholeDuration n .ns) = none := by
  have hparse : F64.parse (Nat.toDigits 10 n ++ ['n']) = none :=
    F64.parse_digits_cons Nat.toDigits_ne_nil (isDigit_toDigits n) [] (by decide)
  have hsplit : splitUnit (Nat.toDigits 10 n ++ DurationUnit.ns.text) = _ :=
    splitUnit_ns (number_toDigits n)
  rw [wholeDuration, parseDurationMicros_of_split (number_toDigits n) humantime hsplit, hparse,
    Option.bind_none]

/-- **Whole durations.** For a number below 2^53, and below 2^53 microseconds, they are read
as documented exactly when the unit is not nanoseconds. -/
theorem parsesWhole_iff (humantime : Humantime) {n : Nat} (hn : n < 2 ^ 53)
    {unit : DurationUnit} (hmicros : n * unit.nanos < 2 ^ 53 * 1000) :
    ParsesWhole humantime n unit ↔ unit ≠ .ns := by
  unfold ParsesWhole
  cases unit with
  | ns =>
    rw [parseDurationMicros_ns]
    exact iff_of_false (by simp) (by simp)
  | us =>
    refine iff_of_true ?_ (by simp)
    have hone : n * 1 < 2 ^ 53 := by omega
    rw [parseDurationMicros_whole humantime hn hone (by decide)
      (by exact_mod_cast splitUnit_us (number_toDigits n))]
    exact congrArg some (by simp only [wholeMicros, DurationUnit.nanos]; omega)
  | micro =>
    refine iff_of_true ?_ (by simp)
    have hone : n * 1 < 2 ^ 53 := by omega
    rw [parseDurationMicros_whole humantime hn hone (by decide)
      (by exact_mod_cast splitUnit_micro (number_toDigits n))]
    exact congrArg some (by simp only [wholeMicros, DurationUnit.nanos]; omega)
  | ms =>
    refine iff_of_true ?_ (by simp)
    have hnanos : DurationUnit.ms.nanos = 1000 * 1000 := by decide
    rw [hnanos, ← Nat.mul_assoc] at hmicros
    have hproduct : n * 1000 < 2 ^ 53 := Nat.lt_of_mul_lt_mul_right hmicros
    rw [parseDurationMicros_whole humantime hn hproduct (by decide)
      (by exact_mod_cast splitUnit_ms (number_toDigits n))]
    exact congrArg some (by simp only [wholeMicros, DurationUnit.nanos]; omega)
  | s =>
    refine iff_of_true ?_ (by simp)
    have hnanos : DurationUnit.s.nanos = 1000000 * 1000 := by decide
    rw [hnanos, ← Nat.mul_assoc] at hmicros
    have hproduct : n * 1000000 < 2 ^ 53 := Nat.lt_of_mul_lt_mul_right hmicros
    rw [parseDurationMicros_whole humantime hn hproduct (by decide)
      (by exact_mod_cast splitUnit_s (number_toDigits n))]
    exact congrArg some (by simp only [wholeMicros, DurationUnit.nanos]; omega)

theorem parsesWhole_ms : ParsesWhole (fun _ => none) 850 .ms :=
  (parsesWhole_iff _ (by decide) (by decide)).mpr (by decide)

/-- 100 ns are not read. -/
theorem parsesWhole_fails : ¬ ParsesWhole (fun _ => none) 100 .ns := by
  intro h
  exact (parsesWhole_iff _ (by decide) (by decide)).mp h rfl

end IgraRpc
