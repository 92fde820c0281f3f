import Mathlib.Data.Bool.AllAny
import Mathlib.Data.Int.Log
import Mathlib.Data.Rat.Floor
import Mathlib.Tactic.Linarith
import Mathlib.Tactic.Positivity
import Mathlib.Tactic.Ring

/-!
# Binary64 numbers as rationals

The doubles of IEEE 754 as far as a program reads, multiplies and rounds them. A finite
number is a sign and a rational magnitude; every operation rounds its exact result to the
nearest magnitude with 53 significant bits, ties to even, and to infinity from `2 ^ 1024` on.

* `F64.ofRat`, `F64.mul`, `F64.round` — reading a number, a product, the nearest integer
  (ties away from zero, an operation for which Lean's `Float` has no definition);
* `F64.parse` — the decimal texts a double is read from;
* `F64.ofRat_natCast`, `F64.mul_natCast` — **naturals below `2 ^ 53` are exact**, and so are
  their products;
* `F64.abs_nearest_sub_le` — the error of a rounding is at most half a unit in the last place.
-/

namespace Lib

/-- A double. -/
inductive F64 where
  | nan
  | inf (negative : Bool)
  | fin (negative : Bool) (magnitude : ℚ)
  deriving DecidableEq

namespace F64

-- ---------------------------------------------------------------------------
-- Rounding
-- ---------------------------------------------------------------------------

/-- The nearest integer, ties to even. -/
def roundEven (q : ℚ) : ℤ :=
  if q - ⌊q⌋ < 1 / 2 then ⌊q⌋
  else if 1 / 2 < q - ⌊q⌋ then ⌊q⌋ + 1
  else if ⌊q⌋ % 2 = 0 then ⌊q⌋ else ⌊q⌋ + 1

/-- The unit in the last place of a magnitude. -/
def ulp (q : ℚ) : ℚ := 2 ^ max (Int.log 2 q - 52) (-1074)

/-- The nearest magnitude with 53 significant bits, or fewer near zero. -/
def nearest (q : ℚ) : ℚ := roundEven (q / ulp q) * ulp q

/-- The double nearest to a rational, given by sign and magnitude. -/
def ofRat (negative : Bool) (q : ℚ) : F64 :=
  if nearest q < 2 ^ 1024 then .fin negative (nearest q) else .inf negative

theorem roundEven_intCast (k : ℤ) : roundEven k = k := by
  simp [roundEven]

theorem abs_roundEven_sub_le (q : ℚ) : |(roundEven q : ℚ) - q| ≤ 1 / 2 := by
  have hlow := Int.floor_le q
  have hhigh := Int.lt_floor_add_one q
  rw [abs_le]
  unfold roundEven
  split
  · refine ⟨?_, ?_⟩ <;> linarith
  · split
    · push_cast
      refine ⟨?_, ?_⟩ <;> linarith
    · split
      · refine ⟨?_, ?_⟩ <;> linarith
      · push_cast
        refine ⟨?_, ?_⟩ <;> linarith

theorem ulp_pos (q : ℚ) : 0 < ulp q := zpow_pos (by norm_num) _

/-- **One rounding.** It is off by at most half a unit in the last place. -/
theorem abs_nearest_sub_le (q : ℚ) : |nearest q - q| ≤ ulp q / 2 := by
  have hpos := ulp_pos q
  have hscaled : nearest q - q = (roundEven (q / ulp q) - q / ulp q) * ulp q := by
    rw [nearest, sub_mul, div_mul_cancel₀ q hpos.ne']
  calc |nearest q - q| = |(roundEven (q / ulp q) : ℚ) - q / ulp q| * ulp q := by
        rw [hscaled, abs_mul, abs_of_pos hpos]
    _ ≤ 1 / 2 * ulp q := mul_le_mul_of_nonneg_right (abs_roundEven_sub_le _) hpos.le
    _ = ulp q / 2 := by ring

/-- A multiple of its unit is exact. -/
theorem nearest_of_multiple {q : ℚ} {k : ℤ} (h : q = k * ulp q) : nearest q = q := by
  have hpos := ulp_pos q
  have hquotient : q / ulp q = k := by rw [h, ← h, div_eq_iff hpos.ne', ← h]
  rw [nearest, hquotient, roundEven_intCast, ← h]

/-- **Naturals with 53 bits are exact.** -/
theorem nearest_natCast {n : ℕ} (h : n < 2 ^ 53) : nearest n = n := by
  have hlog : Int.log 2 (n : ℚ) ≤ 52 := by
    rw [Int.log_natCast]
    have hnat : Nat.log 2 n < 53 := Nat.log_lt_of_lt_pow' (by decide) h
    omega
  have hnonneg : 0 ≤ Int.log 2 (n : ℚ) := by
    rw [Int.log_natCast]
    exact Int.natCast_nonneg _
  have hulp : ulp n = 2 ^ (Int.log 2 (n : ℚ) - 52) := by
    rw [ulp, max_eq_left (by omega)]
  -- the unit is a power of two below one, so it divides one
  obtain ⟨j, hj⟩ : ∃ j : ℕ, 52 - Int.log 2 (n : ℚ) = j := ⟨_, (Int.toNat_of_nonneg (by omega)).symm⟩
  have hunit : (2 : ℚ) ^ j * ulp n = 1 := by
    rw [hulp, ← zpow_natCast, ← hj, ← zpow_add₀ (by norm_num)]
    norm_num
  refine nearest_of_multiple (k := n * 2 ^ j) ?_
  push_cast
  rw [mul_assoc, hunit, mul_one]

theorem ofRat_natCast (negative : Bool) {n : ℕ} (h : n < 2 ^ 53) :
    ofRat negative n = .fin negative n := by
  have hlarge : (n : ℚ) < 2 ^ 1024 :=
    calc (n : ℚ) < 2 ^ 53 := by exact_mod_cast h
      _ ≤ 2 ^ 1024 := pow_le_pow_right₀ (by norm_num) (by norm_num)
  rw [ofRat, nearest_natCast h, if_pos hlarge]

/-- The unit is at most the magnitude, or one. -/
theorem ulp_le_max (q : ℚ) : ulp q ≤ max 1 q := by
  rcases lt_or_ge q 1 with hsmall | hlarge
  · have hlog : Int.log 2 q ≤ 0 := by
      rcases lt_or_ge 0 q with hpos | hneg
      · refine Int.lt_add_one_iff.mp ((Int.lt_zpow_iff_log_lt (by norm_num) hpos).mp ?_)
        simpa using hsmall.trans one_lt_two
      · rw [Int.log_of_right_le_zero 2 hneg]
    refine le_trans ?_ (le_max_left 1 q)
    exact zpow_le_one_of_nonpos₀ one_le_two (by omega)
  · have hpos : 0 < q := lt_of_lt_of_le one_pos hlarge
    have hlog : 0 ≤ Int.log 2 q := by
      refine (Int.zpow_le_iff_le_log (by norm_num) hpos).mp ?_
      simpa using hlarge
    calc ulp q ≤ 2 ^ Int.log 2 q := zpow_le_zpow_right₀ one_le_two (by omega)
      _ ≤ q := Int.zpow_log_le_self (by norm_num) hpos
      _ ≤ max 1 q := le_max_right 1 q

/-- In the normal range the unit is a relative one. -/
theorem ulp_le {q : ℚ} (h : (2 : ℚ) ^ (-1022 : ℤ) ≤ q) : ulp q ≤ q / 2 ^ 52 := by
  have hpos : 0 < q := lt_of_lt_of_le (zpow_pos (by norm_num) _) h
  have hlog : -1022 ≤ Int.log 2 q :=
    (Int.zpow_le_iff_le_log (by norm_num) hpos).mp (by simpa using h)
  have hself : (2 : ℚ) ^ Int.log 2 q ≤ q := by
    simpa using Int.zpow_log_le_self (b := 2) (by norm_num) hpos
  calc ulp q = 2 ^ (Int.log 2 q - 52) := by rw [ulp, max_eq_left (by omega)]
    _ = 2 ^ Int.log 2 q / 2 ^ 52 := by
        rw [zpow_sub₀ (by norm_num)]
        norm_num
    _ ≤ q / 2 ^ 52 := div_le_div_of_nonneg_right hself (by norm_num)

theorem abs_nearest_sub_le_div {q : ℚ} (h : (2 : ℚ) ^ (-1022 : ℤ) ≤ q) :
    |nearest q - q| ≤ q / 2 ^ 53 :=
  calc |nearest q - q| ≤ ulp q / 2 := abs_nearest_sub_le q
    _ ≤ q / 2 ^ 52 / 2 := div_le_div_of_nonneg_right (ulp_le h) (by norm_num)
    _ = q / 2 ^ 53 := by ring

theorem nearest_le (q : ℚ) : nearest q ≤ 2 * max 1 q := by
  have herror := (abs_le.mp (abs_nearest_sub_le q)).2
  have hulp := ulp_le_max q
  have hq : q ≤ max 1 q := le_max_right 1 q
  have hone : 1 ≤ max 1 q := le_max_left 1 q
  linarith

/-- Up to `2 ^ 1000` nothing is out of range. -/
theorem ofRat_of_le (negative : Bool) {q : ℚ} (h : q ≤ 2 ^ 1000) :
    ofRat negative q = .fin negative (nearest q) := by
  refine if_pos ?_
  calc nearest q ≤ 2 * max 1 q := nearest_le q
    _ ≤ 2 * 2 ^ 1000 := by
        refine mul_le_mul_of_nonneg_left (max_le ?_ h) (by norm_num)
        exact one_le_pow₀ (by norm_num)
    _ = 2 ^ 1001 := (pow_succ' 2 1000).symm
    _ < 2 ^ 1024 := pow_lt_pow_right₀ (by norm_num) (by norm_num)

-- ---------------------------------------------------------------------------
-- Operations
-- ---------------------------------------------------------------------------

def isFinite : F64 → Bool
  | fin _ _ => true
  | _ => false

/-- The sign, also of a zero; that of a NaN is taken to be positive. -/
def isSignNegative : F64 → Bool
  | nan => false
  | inf negative => negative
  | fin negative _ => negative

/-- Below zero, which a negative zero is not. -/
def isBelowZero : F64 → Bool
  | nan => false
  | inf negative => negative
  | fin negative q => negative && decide (q ≠ 0)

/-- The product. -/
def mul : F64 → F64 → F64
  | nan, _ => nan
  | _, nan => nan
  | inf s, inf t => inf (xor s t)
  | inf s, fin t q => if q = 0 then nan else inf (xor s t)
  | fin s p, inf t => if p = 0 then nan else inf (xor s t)
  | fin s p, fin t q => ofRat (xor s t) (p * q)

/-- The nearest integer, ties away from zero. -/
def round : F64 → F64
  | fin s q => fin s ⌊q + 1 / 2⌋
  | x => x

/-- The conversion to a natural at most `bound`: the fraction is cut off, and what is out of
range becomes the nearest end of it. -/
def toNat (bound : ℕ) : F64 → ℕ
  | nan => 0
  | inf negative => if negative then 0 else bound
  | fin negative q => if negative then 0 else min ⌊q⌋₊ bound

/-- **Products of naturals with 53 bits are exact.** -/
theorem mul_natCast {m n : ℕ} (h : m * n < 2 ^ 53) :
    mul (.fin false m) (.fin false n) = .fin false ((m * n : ℕ) : ℚ) := by
  show ofRat false ((m : ℚ) * n) = _
  rw [← Nat.cast_mul, ofRat_natCast false h]

/-- **The error of a product.** Below 2^50 the rounding of a factor and that of the product
come to less than a half. -/
theorem exists_mul_natCast {v : ℚ} {m : ℕ} (hv : 1 ≤ v) (hm : 1 ≤ m) (hbound : v * m < 2 ^ 50) :
    ∃ q, mul (ofRat false v) (ofRat false m) = .fin false q ∧ |q - v * m| < 1 / 2 := by
  have hm' : (1 : ℚ) ≤ m := by exact_mod_cast hm
  have hvle : v ≤ v * m := le_mul_of_one_le_right (by linarith) hm'
  have hmlt : m < 2 ^ 53 := by
    have hmle : (m : ℚ) ≤ v * m := le_mul_of_one_le_left (by linarith) hv
    have hlt : (m : ℚ) < 2 ^ 53 := by linarith
    exact_mod_cast hlt
  have hnormal : (2 : ℚ) ^ (-1022 : ℤ) ≤ 1 / 2 :=
    calc (2 : ℚ) ^ (-1022 : ℤ) ≤ 2 ^ (-1 : ℤ) := zpow_le_zpow_right₀ (by norm_num) (by norm_num)
      _ = 1 / 2 := by norm_num
  have hpow : (2 : ℚ) ^ 51 ≤ 2 ^ 1000 := pow_le_pow_right₀ (by norm_num) (by norm_num)
  have hfactor : |nearest v * m - v * m| ≤ v * m / 2 ^ 53 := by
    rw [← sub_mul, abs_mul, abs_of_pos (by linarith : (0 : ℚ) < m)]
    calc |nearest v - v| * m ≤ v / 2 ^ 53 * m := by
          refine mul_le_mul_of_nonneg_right ?_ (by linarith)
          exact abs_nearest_sub_le_div (hnormal.trans (by linarith))
      _ = v * m / 2 ^ 53 := by ring
  obtain ⟨hlow, hhigh⟩ := abs_le.mp hfactor
  have hproduct : (2 : ℚ) ^ (-1022 : ℤ) ≤ nearest v * m := hnormal.trans (by linarith)
  obtain ⟨hlow', hhigh'⟩ := abs_le.mp (abs_nearest_sub_le_div hproduct)
  refine ⟨nearest (nearest v * m), ?_, ?_⟩
  · rw [ofRat_of_le false (le_trans (by linarith) hpow), ofRat_natCast false hmlt]
    exact ofRat_of_le _ (le_trans (by linarith) hpow)
  · rw [abs_lt]
    refine ⟨?_, ?_⟩ <;> linarith

theorem round_natCast (n : ℕ) : round (.fin false n) = .fin false n := by
  have hfloor : ⌊(n : ℚ) + 1 / 2⌋ = n := by
    rw [Int.floor_eq_iff]
    push_cast
    refine ⟨?_, ?_⟩ <;> linarith
  rw [round, hfloor, Int.cast_natCast]

-- ---------------------------------------------------------------------------
-- Reading
-- ---------------------------------------------------------------------------

/-- A leading sign, and the rest. -/
def splitSign : List Char → Bool × List Char
  | '-' :: rest => (true, rest)
  | '+' :: rest => (false, rest)
  | text => (false, text)

/-- The exponent, with its mark. -/
def parseExponent : List Char → Option ℤ
  | [] => some 0
  | c :: rest =>
    if c = 'e' ∨ c = 'E' then
      let (negative, digits) := splitSign rest
      if digits ≠ [] ∧ digits.all Char.isDigit then
        let value : ℤ := Nat.ofDigitChars 10 digits 0
        some (if negative then -value else value)
      else none
    else none

/-- The digits behind a point, if there is one, and the rest. -/
def splitFraction : List Char → List Char × List Char
  | '.' :: more => (more.takeWhile Char.isDigit, more.dropWhile Char.isDigit)
  | rest => ([], rest)

/-- Digits with an optional point and an optional exponent. -/
def parseNumber (text : List Char) : Option ℚ :=
  let whole := text.takeWhile Char.isDigit
  let rest := text.dropWhile Char.isDigit
  let fraction := (splitFraction rest).1
  if whole = [] ∧ fraction = [] then none
  else (parseExponent (splitFraction rest).2).map fun exponent : ℤ =>
    (Nat.ofDigitChars 10 (whole ++ fraction) 0 : ℚ) * (10 : ℚ) ^ (exponent - fraction.length)

/-- The double a text says. -/
def parse (text : List Char) : Option F64 :=
  let negative := (splitSign text).1
  let body := (splitSign text).2
  let lower := body.map Char.toLower
  if lower = "nan".toList then some .nan
  else if lower = "inf".toList ∨ lower = "infinity".toList then some (.inf negative)
  else (parseNumber body).map (ofRat negative)

theorem toLower_of_isDigit {c : Char} (h : c.isDigit = true) : c.toLower = c := by
  have hupper : ¬ (c.val ≥ 'A'.val ∧ c.val ≤ 'Z'.val) := by
    simp only [Char.isDigit, Bool.and_eq_true, decide_eq_true_eq] at h
    rintro ⟨hlow, -⟩
    exact absurd (UInt32.le_trans hlow h.2) (by decide)
  unfold Char.toLower
  split
  · next hup => exact absurd hup hupper
  · rfl

section
variable {digits : List Char} (hne : digits ≠ []) (h : ∀ c ∈ digits, c.isDigit = true)

include hne h

theorem splitSign_digits (rest : List Char) :
    splitSign (digits ++ rest) = (false, digits ++ rest) := by
  obtain ⟨c, more, rfl⟩ := List.exists_cons_of_ne_nil hne
  have hc := h c List.mem_cons_self
  rw [List.cons_append]
  unfold splitSign
  split
  · next heq =>
    rw [(List.cons.inj heq).1] at hc
    exact absurd hc (by decide)
  · next heq =>
    rw [(List.cons.inj heq).1] at hc
    exact absurd hc (by decide)
  · rfl

/-- What begins with a digit is no special value. -/
theorem map_toLower_ne (rest : List Char) {name : List Char}
    (hname : ∀ c ∈ name, c.isDigit = false) : (digits ++ rest).map Char.toLower ≠ name := by
  obtain ⟨c, more, rfl⟩ := List.exists_cons_of_ne_nil hne
  have hc := h c List.mem_cons_self
  rintro rfl
  have hfalse := hname c (List.mem_map.mpr ⟨c, List.mem_cons_self, toLower_of_isDigit hc⟩)
  rw [hfalse] at hc
  exact absurd hc (by decide)

/-- A text that begins with digits is a number or nothing. -/
theorem parse_append_digits (rest : List Char) :
    parse (digits ++ rest) = (parseNumber (digits ++ rest)).map (ofRat false) := by
  rw [parse, splitSign_digits hne h]
  show (if (digits ++ rest).map Char.toLower = _ then _ else _) = _
  rw [if_neg (map_toLower_ne hne h rest (List.all_iff_forall_prop.mp (by decide))), if_neg]
  rintro (hinf | hinf)
  · exact map_toLower_ne hne h rest (List.all_iff_forall_prop.mp (by decide)) hinf
  · exact map_toLower_ne hne h rest (List.all_iff_forall_prop.mp (by decide)) hinf

/-- Digits say their value. -/
theorem parse_digits :
    parse digits = some (ofRat false (Nat.ofDigitChars 10 digits 0 : ℕ)) := by
  have htake : digits.takeWhile Char.isDigit = digits := by
    simpa using @List.takeWhile_append_of_pos _ Char.isDigit digits [] h
  have hdrop : digits.dropWhile Char.isDigit = [] := by
    simpa using @List.dropWhile_append_of_pos _ Char.isDigit digits [] h
  have hnumber : parseNumber digits = some ((Nat.ofDigitChars 10 digits 0 : ℕ) : ℚ) := by
    simp only [parseNumber, htake, hdrop, splitFraction, hne, false_and, if_false, parseExponent,
      Option.map_some, List.append_nil, List.length_nil]
    simp
  have hparse := parse_append_digits hne h []
  rw [List.append_nil] at hparse
  rw [hparse, hnumber, Option.map_some]

/-- Digits with a point and decimals behind it say a decimal fraction. -/
theorem parse_decimal {fraction : List Char} (hfraction : ∀ c ∈ fraction, c.isDigit = true) :
    parse (digits ++ '.' :: fraction) = some (ofRat false
      ((Nat.ofDigitChars 10 (digits ++ fraction) 0 : ℚ) / 10 ^ fraction.length)) := by
  have htake : (digits ++ '.' :: fraction).takeWhile Char.isDigit = digits := by
    rw [List.takeWhile_append_of_pos h, List.takeWhile_cons_of_neg (by decide), List.append_nil]
  have hdrop : (digits ++ '.' :: fraction).dropWhile Char.isDigit = '.' :: fraction := by
    rw [List.dropWhile_append_of_pos h, List.dropWhile_cons_of_neg (by decide)]
  have htake' : fraction.takeWhile Char.isDigit = fraction := by
    simpa using @List.takeWhile_append_of_pos _ Char.isDigit fraction [] hfraction
  have hdrop' : fraction.dropWhile Char.isDigit = [] := by
    simpa using @List.dropWhile_append_of_pos _ Char.isDigit fraction [] hfraction
  have hnumber : parseNumber (digits ++ '.' :: fraction) =
      some ((Nat.ofDigitChars 10 (digits ++ fraction) 0 : ℚ) / 10 ^ fraction.length) := by
    simp only [parseNumber, htake, hdrop, splitFraction, htake', hdrop', hne, false_and, if_false,
      parseExponent, Option.map_some, zero_sub, zpow_neg, zpow_natCast, div_eq_mul_inv]
  rw [parse_append_digits hne h, hnumber, Option.map_some]

/-- Digits followed by what is neither point, exponent nor digit are no number. -/
theorem parse_digits_cons {c : Char} (rest : List Char)
    (hc : c.isDigit = false ∧ c ≠ '.' ∧ c ≠ 'e' ∧ c ≠ 'E') :
    parse (digits ++ c :: rest) = none := by
  have htake : (digits ++ c :: rest).takeWhile Char.isDigit = digits := by
    rw [List.takeWhile_append_of_pos h, List.takeWhile_cons_of_neg (by simp [hc.1]),
      List.append_nil]
  have hdrop : (digits ++ c :: rest).dropWhile Char.isDigit = c :: rest := by
    rw [List.dropWhile_append_of_pos h, List.dropWhile_cons_of_neg (by simp [hc.1])]
  have hfraction : splitFraction (c :: rest) = ([], c :: rest) := by
    unfold splitFraction
    split
    · next heq => exact absurd (List.cons.inj heq).1 hc.2.1
    · rfl
  have hexponent : parseExponent (c :: rest) = none := by
    rw [parseExponent, if_neg (by simp [hc.2.2])]
  have hnumber : parseNumber (digits ++ c :: rest) = none := by
    simp only [parseNumber, htake, hdrop, hfraction, hexponent, hne, false_and, if_false,
      Option.map_none]
  rw [parse_append_digits hne h, hnumber, Option.map_none]

end

end F64

end Lib
