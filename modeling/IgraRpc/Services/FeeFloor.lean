import IgraRpc.Services.FeeOracle
import IgraRpc.Types.JsonFrame

/-!
# What flooring changes — `services/gas_price.rs`, `services/proxy.rs`

`floor_hex_quantity_in_place` is documented to leave alone what is not a parseable
`0x`-prefixed hex string. It trims every prefix there is, of both cases, and parses with a
library that skips underscores, so it reads more:

* `StrictQuantity` / `LooseQuantity` — one prefix and hex digits, and the other texts that
  are read: without a prefix, with several, with underscores;
* `readQuantity_eq_some` — what the provider reads is one or the other;
* `floorsStrictly_iff` — **a value is floored as documented exactly when it is no loose
  text below the floor**;
* `confined_iff` — **post-processing an EL response is confined to the documented quantities
  exactly when no floored position holds a loose text below the floor**; lengths, keys, the
  other entries and the second application are as they should be for every response.
-/

namespace IgraRpc

open Lib Value

-- ---------------------------------------------------------------------------
-- What is read
-- ---------------------------------------------------------------------------

/-- One `0x` or `0X`, then hex digits that say `q`, a 256-bit number. -/
def StrictQuantity (value : Value) (q : Nat) : Prop :=
  ∃ mark digits, (mark = 'x' ∨ mark = 'X') ∧ digits ≠ [] ∧
    value = .string (String.ofList ('0' :: mark :: digits)) ∧
    digitsValue digits 0 = some q ∧ q < 2 ^ 256

/-- `0x` written `lower` times, then `0X` written `upper` times. -/
def hexPrefixes (lower upper : Nat) : List Char :=
  (List.replicate lower ['0', 'x']).flatten ++ (List.replicate upper ['0', 'X']).flatten

/-- A text that says `q` without a prefix, with several prefixes, or with underscores. -/
def LooseQuantity (value : Value) (q : Nat) : Prop :=
  ∃ lower upper digits, (lower + upper ≠ 1 ∨ '_' ∈ digits) ∧ digits ≠ [] ∧
    value = .string (String.ofList (hexPrefixes lower upper ++ digits)) ∧
    hexValue digits 0 = some q ∧ q < 2 ^ 256

/-- What `floor_hex_quantity_in_place` compares with the floor. -/
def readQuantity (value : Value) : Option Nat :=
  value.asStr.bind fun text =>
    let trimmed := trimStartMatches '0' 'X' (trimStartMatches '0' 'x' text.toList)
    if trimmed.isEmpty then none else u256FromHex trimmed

theorem floorHexQuantity_eq (minFloor : Nat) (value : Value) :
    floorHexQuantity minFloor value =
      match readQuantity value with
      | some q => if q < minFloor then (.string (hexLiteral minFloor), true) else (value, false)
      | none => (value, false) := by
  unfold floorHexQuantity readQuantity
  cases value.asStr with
  | none => rfl
  | some text =>
    simp only [Option.bind_some]
    split
    · rfl
    · split
      · next hnone => rw [hnone]
      · next hsome => rw [hsome]

theorem floorHexQuantity_of_read {minFloor q : Nat} {value : Value}
    (hread : readQuantity value = some q) (hlow : q < minFloor) :
    floorHexQuantity minFloor value = (.string (hexLiteral minFloor), true) := by
  rw [floorHexQuantity_eq, hread]
  exact if_pos hlow

/-- Without a reading below the floor nothing changes. -/
theorem floorHexQuantity_of_not_read {minFloor : Nat} {value : Value}
    (h : ∀ q, readQuantity value = some q → minFloor ≤ q) :
    floorHexQuantity minFloor value = (value, false) := by
  rw [floorHexQuantity_eq]
  cases hread : readQuantity value with
  | none => rfl
  | some q => exact if_neg (Nat.not_lt.mpr (h q hread))

-- ---------------------------------------------------------------------------
-- Prefixes
-- ---------------------------------------------------------------------------

/-- Trimming takes off a number of copies of the pattern. -/
theorem exists_trimmed (a b : Char) (text : List Char) :
    ∃ n, text = (List.replicate n [a, b]).flatten ++ trimStartMatches a b text := by
  fun_induction trimStartMatches a b text with
  | case1 x y rest hxy ih =>
    obtain ⟨n, hn⟩ := ih
    obtain ⟨rfl, rfl⟩ := hxy
    refine ⟨n + 1, ?_⟩
    rw [List.replicate_succ, List.flatten_cons]
    show x :: y :: rest =
      x :: y :: ((List.replicate n [x, y]).flatten ++ trimStartMatches x y rest)
    rw [← hn]
  | case2 => exact ⟨0, rfl⟩
  | case3 => exact ⟨0, rfl⟩

/-- Trimming stops where the pattern's second character does not occur. -/
theorem trimStartMatches_of_notMem {b : Char} {rest : List Char} (h : b ∉ rest) (a : Char) :
    trimStartMatches a b rest = rest := by
  match rest, h with
  | [], _ => rfl
  | [_], _ => rfl
  | x :: y :: rest, h =>
    have hy : y ≠ b := fun hyb => h (hyb ▸ by simp)
    rw [trimStartMatches, if_neg (fun hxy => hy hxy.2)]

/-- Trimming takes off all copies of the pattern. -/
theorem trimStartMatches_copies {b : Char} {rest : List Char} (h : b ∉ rest) (a : Char)
    (n : Nat) : trimStartMatches a b ((List.replicate n [a, b]).flatten ++ rest) = rest := by
  induction n with
  | zero => exact trimStartMatches_of_notMem h a
  | succ n ih =>
    rw [List.replicate_succ, List.flatten_cons]
    show trimStartMatches a b (a :: b :: ((List.replicate n [a, b]).flatten ++ rest)) = rest
    rw [trimStartMatches, if_pos ⟨rfl, rfl⟩, ih]

/-- What parses as hex has digits and underscores only. -/
theorem hexCharVal_of_hexValue {ds : List Char} {acc q : Nat}
    (h : hexValue ds acc = some q) : ∀ c ∈ ds, c = '_' ∨ hexCharVal c ≠ none := by
  induction ds generalizing acc with
  | nil => simp
  | cons c rest ih =>
    intro c' hc'
    rw [hexValue] at h
    rcases List.mem_cons.mp hc' with rfl | hrest
    · by_cases hscore : c' = '_'
      · exact Or.inl hscore
      · rw [if_neg hscore] at h
        refine Or.inr fun hnone => ?_
        rw [hnone] at h
        exact absurd h (by simp)
    · split at h
      · exact ih h c' hrest
      · split at h
        · exact ih h c' hrest
        · exact absurd h (by simp)

theorem notMem_of_hexValue {ds : List Char} {q : Nat} (h : hexValue ds 0 = some q) {c : Char}
    (hc : c ≠ '_' ∧ hexCharVal c = none) : c ∉ ds := by
  intro hmem
  rcases hexCharVal_of_hexValue h c hmem with hscore | hdigit
  · exact hc.1 hscore
  · exact hdigit hc.2

theorem notMem_upperPrefixes (n : Nat) : 'x' ∉ (List.replicate n ['0', 'X']).flatten := by
  intro hmem
  obtain ⟨l, hl, hx⟩ := List.mem_flatten.mp hmem
  rw [List.eq_of_mem_replicate hl] at hx
  exact absurd hx (by decide)

/-- The digits behind any prefixes are what the two trims leave. -/
theorem trim_hexPrefixes {digits : List Char} {q : Nat} (h : hexValue digits 0 = some q)
    (lower upper : Nat) :
    trimStartMatches '0' 'X' (trimStartMatches '0' 'x' (hexPrefixes lower upper ++ digits)) =
      digits := by
  have hlower : 'x' ∉ (List.replicate upper ['0', 'X']).flatten ++ digits := by
    rw [List.mem_append, not_or]
    exact ⟨notMem_upperPrefixes upper, notMem_of_hexValue h (by decide)⟩
  rw [hexPrefixes, List.append_assoc, trimStartMatches_copies hlower,
    trimStartMatches_copies (notMem_of_hexValue h (by decide))]

/-- Without underscores the digits are read as a wallet reads them. -/
theorem digitsValue_of_hexValue {ds : List Char} {acc q : Nat} (hscore : '_' ∉ ds)
    (h : hexValue ds acc = some q) : digitsValue ds acc = some q := by
  induction ds generalizing acc with
  | nil => exact h
  | cons c rest ih =>
    simp only [List.mem_cons, not_or] at hscore
    rw [hexValue, if_neg (fun hc => hscore.1 hc.symm)] at h
    rw [digitsValue_cons_eq_some]
    cases hc : hexCharVal c with
    | none =>
      rw [hc] at h
      exact absurd h (by simp)
    | some d =>
      rw [hc] at h
      exact ⟨d, rfl, ih hscore.2 h⟩

-- ---------------------------------------------------------------------------
-- Strict and loose readings
-- ---------------------------------------------------------------------------

theorem u256FromHex_eq_some {digits : List Char} {q : Nat} :
    u256FromHex digits = some q ↔ hexValue digits 0 = some q ∧ q < 2 ^ 256 := by
  unfold u256FromHex
  cases hexValue digits 0 with
  | none => simp
  | some n =>
    simp only [Option.some.injEq, Option.ite_none_right_eq_some]
    refine ⟨?_, ?_⟩
    · rintro ⟨hn, rfl⟩
      exact ⟨rfl, hn⟩
    · rintro ⟨rfl, hn⟩
      exact ⟨hn, rfl⟩

theorem readQuantity_of_prefixes {lower upper q : Nat} {digits : List Char}
    (hne : digits ≠ []) (hvalue : hexValue digits 0 = some q) (hq : q < 2 ^ 256) :
    readQuantity (.string (String.ofList (hexPrefixes lower upper ++ digits))) = some q := by
  have hempty : digits.isEmpty = false := by simpa using hne
  have hparse : u256FromHex digits = some q := u256FromHex_eq_some.mpr ⟨hvalue, hq⟩
  simp only [readQuantity, asStr, Option.bind_some, String.toList_ofList,
    trim_hexPrefixes hvalue, hempty, hparse, Bool.false_eq_true, if_false]

theorem StrictQuantity.prefixes {value : Value} {q : Nat} (h : StrictQuantity value q) :
    ∃ lower upper digits, lower + upper = 1 ∧ '_' ∉ digits ∧ digits ≠ [] ∧
      value = .string (String.ofList (hexPrefixes lower upper ++ digits)) ∧
      hexValue digits 0 = some q ∧ q < 2 ^ 256 := by
  obtain ⟨mark, digits, hmark, hne, hvalue, hdigits, hq⟩ := h
  have hscore : '_' ∉ digits := fun hmem =>
    hexCharVal_of_digitsValue hdigits '_' hmem (by decide)
  have hhex := hexValue_of_digitsValue hdigits
  rcases hmark with rfl | rfl
  · exact ⟨1, 0, digits, rfl, hscore, hne, hvalue, hhex, hq⟩
  · exact ⟨0, 1, digits, rfl, hscore, hne, hvalue, hhex, hq⟩

theorem StrictQuantity.read {value : Value} {q : Nat} (h : StrictQuantity value q) :
    readQuantity value = some q := by
  obtain ⟨lower, upper, digits, -, -, hne, rfl, hvalue, hq⟩ := h.prefixes
  exact readQuantity_of_prefixes hne hvalue hq

theorem LooseQuantity.read {value : Value} {q : Nat} (h : LooseQuantity value q) :
    readQuantity value = some q := by
  obtain ⟨lower, upper, digits, -, hne, rfl, hvalue, hq⟩ := h
  exact readQuantity_of_prefixes hne hvalue hq

theorem length_hexPrefixes (lower upper : Nat) :
    (hexPrefixes lower upper).length = 2 * (lower + upper) := by
  simp [hexPrefixes, List.length_flatten]
  omega

/-- No text is read both ways. -/
theorem StrictQuantity.not_loose {value : Value} {q q' : Nat} (h : StrictQuantity value q) :
    ¬ LooseQuantity value q' := by
  rintro ⟨lower', upper', digits', hloose, -, hvalue', hhex', -⟩
  obtain ⟨lower, upper, digits, hone, hscore, -, hvalue, hhex, -⟩ := h.prefixes
  have htext : hexPrefixes lower upper ++ digits = hexPrefixes lower' upper' ++ digits' := by
    have hofList := congrArg String.toList (Value.string.inj (hvalue.symm.trans hvalue'))
    simpa only [String.toList_ofList] using hofList
  -- both leave the same digits, so both have as many prefixes
  have hdigits : digits = digits' := by
    have htrim := congrArg (fun l => trimStartMatches '0' 'X' (trimStartMatches '0' 'x' l)) htext
    simpa only [trim_hexPrefixes hhex, trim_hexPrefixes hhex'] using htrim
  have hlength := congrArg List.length htext
  rw [List.length_append, List.length_append, length_hexPrefixes, length_hexPrefixes,
    hdigits] at hlength
  rcases hloose with hcount | hmem
  · omega
  · exact hscore (hdigits ▸ hmem)

/-- A text that is read is prefixes and what the two trims leave. -/
theorem exists_prefixes_of_read {value : Value} {q : Nat} (h : readQuantity value = some q) :
    ∃ lower upper digits, digits ≠ [] ∧
      value = .string (String.ofList (hexPrefixes lower upper ++ digits)) ∧
      hexValue digits 0 = some q ∧ q < 2 ^ 256 := by
  obtain ⟨text, htext, hread⟩ := Option.bind_eq_some_iff.mp h
  obtain rfl : value = .string text := by
    cases value with
    | string s => exact congrArg Value.string (Option.some.inj htext)
    | _ => exact absurd htext (by simp [asStr])
  obtain ⟨lower, hlower⟩ := exists_trimmed '0' 'x' text.toList
  obtain ⟨upper, hupper⟩ := exists_trimmed '0' 'X' (trimStartMatches '0' 'x' text.toList)
  have hsplit : text = String.ofList (hexPrefixes lower upper ++
      trimStartMatches '0' 'X' (trimStartMatches '0' 'x' text.toList)) := by
    rw [hexPrefixes, List.append_assoc, ← hupper, ← hlower, String.ofList_toList]
  simp only [Option.ite_none_left_eq_some] at hread
  obtain ⟨hvalue, hq⟩ := u256FromHex_eq_some.mp hread.2
  exact ⟨lower, upper, _, by simpa using hread.1, congrArg Value.string hsplit, hvalue, hq⟩

/-- **What is read.** One prefix and digits, or a loose text. -/
theorem readQuantity_eq_some {value : Value} {q : Nat} :
    readQuantity value = some q ↔ StrictQuantity value q ∨ LooseQuantity value q := by
  refine ⟨fun hread => ?_, fun h => h.elim StrictQuantity.read LooseQuantity.read⟩
  obtain ⟨lower, upper, digits, hne, hvalue, hhex, hq⟩ := exists_prefixes_of_read hread
  by_cases hstrict : lower + upper = 1 ∧ '_' ∉ digits
  · obtain ⟨hone, hscore⟩ := hstrict
    have hdigits := digitsValue_of_hexValue hscore hhex
    obtain ⟨rfl, rfl⟩ | ⟨rfl, rfl⟩ : lower = 1 ∧ upper = 0 ∨ lower = 0 ∧ upper = 1 := by omega
    · exact Or.inl ⟨'x', digits, Or.inl rfl, hne, hvalue, hdigits, hq⟩
    · exact Or.inl ⟨'X', digits, Or.inr rfl, hne, hvalue, hdigits, hq⟩
  · rw [not_and_or, not_not] at hstrict
    exact Or.inr ⟨lower, upper, digits, hstrict, hne, hvalue, hhex, hq⟩

/-- The floor's own text is read as the floor. -/
theorem eq_of_read_hexLiteral {n q : Nat}
    (h : readQuantity (.string (hexLiteral n)) = some q) : q = n := by
  have hvalue : hexValue (Nat.toDigits 16 n) 0 = some n :=
    hexValue_of_digitsValue (digitsValue_toDigits n)
  have htext : hexLiteral n = String.ofList (hexPrefixes 1 0 ++ Nat.toDigits 16 n) := by
    rw [String.ofList_append]
    rfl
  simp only [readQuantity, asStr, Option.bind_some, htext, String.toList_ofList,
    trim_hexPrefixes hvalue, Option.ite_none_left_eq_some] at h
  obtain ⟨hq, -⟩ := u256FromHex_eq_some.mp h.2
  exact Option.some.inj (hq.symm.trans hvalue)

theorem ne_hexLiteral_of_read {value : Value} {minFloor q : Nat}
    (hread : readQuantity value = some q) (hlow : q < minFloor) :
    .string (hexLiteral minFloor) ≠ value := by
  rintro rfl
  exact absurd (eq_of_read_hexLiteral hread) (Nat.ne_of_lt hlow)

-- ---------------------------------------------------------------------------
-- One value
-- ---------------------------------------------------------------------------

/-- The documented effect of `floor_hex_quantity_in_place` on a value. -/
structure FloorsStrictly (minFloor : Nat) (value : Value) : Prop where
  changes : (floorHexQuantity minFloor value).1 ≠ value ↔ ∃ q < minFloor, StrictQuantity value q
  raised : ∀ q < minFloor, StrictQuantity value q →
    floorHexQuantity minFloor value = (.string (hexLiteral minFloor), true)
  kept : (¬ ∃ q < minFloor, StrictQuantity value q) →
    floorHexQuantity minFloor value = (value, false)

/-- **One value.** It is floored as documented exactly when it is no loose text below the
floor. -/
theorem floorsStrictly_iff (minFloor : Nat) (value : Value) :
    FloorsStrictly minFloor value ↔ ¬ ∃ q < minFloor, LooseQuantity value q := by
  refine ⟨?_, ?_⟩
  · rintro h ⟨q, hlow, hloose⟩
    have hchanged : (floorHexQuantity minFloor value).1 ≠ value := by
      rw [floorHexQuantity_of_read hloose.read hlow]
      exact ne_hexLiteral_of_read hloose.read hlow
    obtain ⟨q', -, hstrict⟩ := h.changes.mp hchanged
    exact hstrict.not_loose hloose
  · intro hloose
    have hkept : (¬ ∃ q < minFloor, StrictQuantity value q) →
        floorHexQuantity minFloor value = (value, false) := by
      intro hstrict
      refine floorHexQuantity_of_not_read fun q hread => Nat.not_lt.mp fun hlow => ?_
      rcases readQuantity_eq_some.mp hread with hq | hq
      · exact hstrict ⟨q, hlow, hq⟩
      · exact hloose ⟨q, hlow, hq⟩
    have hraised : ∀ q < minFloor, StrictQuantity value q →
        floorHexQuantity minFloor value = (.string (hexLiteral minFloor), true) :=
      fun q hlow hq => floorHexQuantity_of_read hq.read hlow
    refine ⟨⟨fun hchanged => ?_, ?_⟩, hraised, hkept⟩
    · by_contra hstrict
      exact hchanged (by rw [hkept hstrict])
    · rintro ⟨q, hlow, hq⟩
      rw [hraised q hlow hq]
      exact ne_hexLiteral_of_read hq.read hlow

/-- A text without a prefix is floored. -/
theorem floorsStrictly_fails : ¬ FloorsStrictly 1000000000 (.string "12") := by
  intro h
  have hdigits : hexValue ['1', '2'] 0 = some 18 := by decide
  exact (floorsStrictly_iff _ _).mp h
    ⟨18, by decide, 0, 0, ['1', '2'], by decide, by decide, rfl, hdigits, by decide⟩

-- ---------------------------------------------------------------------------
-- A whole response
-- ---------------------------------------------------------------------------

/-- The methods whose result is one quantity. -/
def IsPriceMethod (method : String) : Prop :=
  method = "eth_gasPrice" ∨ method = "eth_maxPriorityFeePerGas"

/-- The value stands where the method's responses are floored. -/
def FlooredAt (method : String) (response value : Value) : Prop :=
  (IsPriceMethod method ∧ response.get "result" = some value) ∨
    (method = "eth_feeHistory" ∧ ∃ i j, rewardAt response i j = some value)

/-- Only values at the method's positions changed, as `R` says: the one under `result`, or
the entries of `result.reward[i][j]`. -/
structure ChangedAt (method : String) (R : Value → Value → Prop) (before after : Value) :
    Prop where
  price : IsPriceMethod method → EntryChanged "result" R before after
  history : method = "eth_feeHistory" →
    EntryChanged "result" (EntryChanged "reward" (ItemsChanged (ItemsChanged R))) before after
  other : ¬ IsPriceMethod method → method ≠ "eth_feeHistory" → after = before

/-- A quantity below the floor became the floor's text, or nothing happened. -/
def Floored (minFloor : Nat) (old new : Value) : Prop :=
  new = old ∨ ((∃ q < minFloor, StrictQuantity old q) ∧ new = .string (hexLiteral minFloor))

/-- The post-processing of a response is confined to documented quantities at the method's
positions, leaves nothing below the floor there, and is done after one application. -/
structure Confined (config : GasConfig) (method : String) (response : Value) : Prop where
  frame : ChangedAt method (Floored config.floor) response
    (interceptResponse config method response)
  untouched : ∀ key ≠ "result",
    (interceptResponse config method response).get key = response.get key
  untouchedResult : method = "eth_feeHistory" → ∀ key ≠ "reward",
    ((interceptResponse config method response).get "result").bind (·.get key) =
      (response.get "result").bind (·.get key)
  atLeast : ∀ value q, FlooredAt method (interceptResponse config method response) value →
    readQuantity value = some q → config.floor ≤ q
  idempotent : interceptResponse config method (interceptResponse config method response) =
    interceptResponse config method response

theorem interceptResponse_price {method : String} (h : IsPriceMethod method)
    (config : GasConfig) (response : Value) :
    interceptResponse config method response =
      response.modify "result" fun result => (floorHexQuantity config.floor result).1 := by
  unfold IsPriceMethod at h
  rw [interceptResponse, if_pos h, floorGasPriceValue, minFloorWei_eq]

theorem interceptResponse_feeHistory (config : GasConfig) (response : Value) :
    interceptResponse config "eth_feeHistory" response =
      floorFeeHistoryValue config response := by
  rw [interceptResponse, if_neg (by decide), if_pos rfl]

theorem interceptResponse_history (config : GasConfig) (response : Value) :
    interceptResponse config "eth_feeHistory" response =
      response.modify "result" fun result =>
        result.modify "reward" (floorRewards config.floor) := by
  rw [interceptResponse_feeHistory, floorFeeHistoryValue, minFloorWei_eq]

theorem interceptResponse_other {method : String} (hprice : ¬ IsPriceMethod method)
    (hhistory : method ≠ "eth_feeHistory") (config : GasConfig) (response : Value) :
    interceptResponse config method response = response := by
  unfold IsPriceMethod at hprice
  rw [interceptResponse, if_neg hprice, if_neg hhistory]

/-- A floored position holds the floored value of what it held. -/
theorem FlooredAt.of_intercept {config : GasConfig} {method : String} {response value : Value}
    (h : FlooredAt method (interceptResponse config method response) value) :
    ∃ old, FlooredAt method response old ∧ value = (floorHexQuantity config.floor old).1 := by
  rcases h with ⟨hmethod, hget⟩ | ⟨rfl, i, j, hget⟩
  · rw [interceptResponse_price hmethod, get_modify, if_pos rfl] at hget
    obtain ⟨old, hold, rfl⟩ := Option.map_eq_some_iff.mp hget
    exact ⟨old, Or.inl ⟨hmethod, hold⟩, rfl⟩
  · rw [interceptResponse_feeHistory, rewardAt_floorFeeHistoryValue] at hget
    obtain ⟨old, hold, rfl⟩ := Option.map_eq_some_iff.mp hget
    exact ⟨old, Or.inr ⟨rfl, i, j, hold⟩, rfl⟩

/-- What is read after flooring is at least the floor. -/
theorem floor_le_of_read {minFloor q : Nat} {value : Value}
    (h : readQuantity (floorHexQuantity minFloor value).1 = some q) : minFloor ≤ q := by
  by_cases hlow : ∃ p < minFloor, readQuantity value = some p
  · obtain ⟨p, hp, hread⟩ := hlow
    rw [floorHexQuantity_of_read hread hp] at h
    exact Nat.le_of_eq (eq_of_read_hexLiteral h).symm
  · have hhigh : ∀ p, readQuantity value = some p → minFloor ≤ p :=
      fun p hp => Nat.not_lt.mp fun hlt => hlow ⟨p, hlt, hp⟩
    rw [floorHexQuantity_of_not_read hhigh] at h
    exact hhigh q h

theorem floorHexQuantity_idempotent (minFloor : Nat) (value : Value) :
    (floorHexQuantity minFloor (floorHexQuantity minFloor value).1).1 =
      (floorHexQuantity minFloor value).1 := by
  rw [floorHexQuantity_of_not_read fun q hq => floor_le_of_read hq]

theorem floorRewards_idempotent (minFloor : Nat) (table : Value) :
    floorRewards minFloor (floorRewards minFloor table) = floorRewards minFloor table := by
  have hblock : ∀ block, floorPercentiles minFloor (floorPercentiles minFloor block) =
      floorPercentiles minFloor block := by
    intro block
    cases block with
    | array percentiles =>
      simp only [floorPercentiles, List.map_map, Function.comp_def, floorHexQuantity_idempotent]
    | _ => rfl
  cases table with
  | array perBlock => simp only [floorRewards, List.map_map, Function.comp_def, hblock]
  | _ => rfl

theorem interceptResponse_idempotent (config : GasConfig) (method : String)
    (response : Value) :
    interceptResponse config method (interceptResponse config method response) =
      interceptResponse config method response := by
  by_cases hprice : IsPriceMethod method
  · simp only [interceptResponse_price hprice, modify_modify, floorHexQuantity_idempotent]
  · by_cases hhistory : method = "eth_feeHistory"
    · subst hhistory
      simp only [interceptResponse_history, modify_modify, floorRewards_idempotent]
    · simp only [interceptResponse_other hprice hhistory]

/-- Rewards are floored one by one, in arrays of the same length. -/
theorem floorRewards_itemsChanged {minFloor : Nat} {R : Value → Value → Prop} {table : Value}
    (h : ∀ i j entry, (table.getIdx i).bind (·.getIdx j) = some entry →
      R entry (floorHexQuantity minFloor entry).1) :
    ItemsChanged (ItemsChanged R) table (floorRewards minFloor table) := by
  cases table with
  | array perBlock =>
    refine itemsChanged_map fun block hblock => ?_
    obtain ⟨i, hi⟩ := List.mem_iff_getElem?.mp hblock
    cases block with
    | array percentiles =>
      refine itemsChanged_map fun entry hentry => ?_
      obtain ⟨j, hj⟩ := List.mem_iff_getElem?.mp hentry
      refine h i j entry ?_
      show (perBlock[i]?).bind (·.getIdx j) = some entry
      rw [hi]
      exact hj
    | _ => exact .same _
  | _ => exact .same _

/-- Whatever the EL answers, flooring changes values at the method's positions only. -/
theorem interceptResponse_changedAt {config : GasConfig} {method : String} {response : Value}
    {R : Value → Value → Prop}
    (h : ∀ old, FlooredAt method response old → R old (floorHexQuantity config.floor old).1) :
    ChangedAt method R response (interceptResponse config method response) := by
  refine ⟨fun hprice => ?_, ?_, fun hprice hhistory => ?_⟩
  · rw [interceptResponse_price hprice]
    exact entryChanged_modify fun old hold => h old (Or.inl ⟨hprice, hold⟩)
  · rintro rfl
    rw [interceptResponse_history]
    refine entryChanged_modify fun result hresult => ?_
    refine entryChanged_modify fun table htable => ?_
    refine floorRewards_itemsChanged fun i j entry hentry => ?_
    refine h entry (Or.inr ⟨rfl, i, j, ?_⟩)
    rw [rewardAt, hresult, Option.bind_some, htable, Option.bind_some]
    exact hentry
  · exact interceptResponse_other hprice hhistory config response

/-- A frame around the rewards frames each of them. -/
theorem rewardAt_of_changed {R : Value → Value → Prop} {v w old : Value} {i j : Nat}
    (h : EntryChanged "result" (EntryChanged "reward" (ItemsChanged (ItemsChanged R))) v w)
    (hold : rewardAt v i j = some old) :
    ∃ new, rewardAt w i j = some new ∧ (new = old ∨ R old new) := by
  simp only [rewardAt, Option.bind_eq_some_iff] at hold
  obtain ⟨block, ⟨table, ⟨result, hresult, htable⟩, hblock⟩, hentry⟩ := hold
  obtain ⟨result', hresult', hr⟩ := h.get_self hresult
  have hr : EntryChanged "reward" (ItemsChanged (ItemsChanged R)) result result' :=
    hr.elim (fun heq => heq ▸ .same _) id
  obtain ⟨table', htable', ht⟩ := hr.get_self htable
  have ht : ItemsChanged (ItemsChanged R) table table' := ht.elim (fun heq => heq ▸ .same _) id
  obtain ⟨block', hblock', hb⟩ := ht.getIdx hblock
  have hb : ItemsChanged R block block' := hb.elim (fun heq => heq ▸ .same _) id
  obtain ⟨new, hnew, hR⟩ := hb.getIdx hentry
  refine ⟨new, ?_, hR⟩
  rw [rewardAt, hresult', Option.bind_some, htable', Option.bind_some, hblock',
    Option.bind_some, hnew]

/-- A value that is no loose text below the floor is floored as documented. -/
theorem floored_of_not_loose {minFloor : Nat} {value : Value}
    (h : ¬ ∃ q < minFloor, LooseQuantity value q) :
    Floored minFloor value (floorHexQuantity minFloor value).1 := by
  have hstrictly := (floorsStrictly_iff minFloor value).mpr h
  by_cases hlow : ∃ q < minFloor, StrictQuantity value q
  · obtain ⟨q, hq, hstrict⟩ := hlow
    refine Or.inr ⟨⟨q, hq, hstrict⟩, ?_⟩
    rw [hstrictly.raised q hq hstrict]
  · refine Or.inl ?_
    rw [hstrictly.kept hlow]

/-- The frame of the post-processing shows at every floored position. -/
theorem Confined.floored {config : GasConfig} {method : String} {response old : Value}
    (h : Confined config method response) (hold : FlooredAt method response old) :
    Floored config.floor old (floorHexQuantity config.floor old).1 := by
  rcases hold with ⟨hmethod, hget⟩ | ⟨rfl, i, j, hget⟩
  · obtain ⟨new, hnew, hR⟩ := (h.frame.price hmethod).get_self hget
    rw [interceptResponse_price hmethod, get_modify, if_pos rfl, hget] at hnew
    obtain rfl : (floorHexQuantity config.floor old).1 = new := Option.some.inj hnew
    exact hR.elim Or.inl id
  · obtain ⟨new, hnew, hR⟩ := rewardAt_of_changed (h.frame.history rfl) hget
    rw [interceptResponse_feeHistory, rewardAt_floorFeeHistoryValue, hget] at hnew
    obtain rfl : (floorHexQuantity config.floor old).1 = new := Option.some.inj hnew
    exact hR.elim Or.inl id

/-- **A whole response.** Post-processing is confined to documented quantities exactly when
no floored position holds a loose text below the floor. -/
theorem confined_iff (config : GasConfig) (method : String) (response : Value) :
    Confined config method response ↔
      ∀ value, FlooredAt method response value →
        ¬ ∃ q < config.floor, LooseQuantity value q := by
  refine ⟨?_, fun hloose => ?_⟩
  · rintro h value hat ⟨q, hlow, hloose⟩
    rcases h.floored hat with hsame | ⟨⟨q', -, hstrict⟩, -⟩
    · rw [floorHexQuantity_of_read hloose.read hlow] at hsame
      exact ne_hexLiteral_of_read hloose.read hlow hsame
    · exact hstrict.not_loose hloose
  · refine ⟨?_, fun key hkey => ?_, ?_, ?_,
      interceptResponse_idempotent config method response⟩
    · exact interceptResponse_changedAt fun old hold => floored_of_not_loose (hloose old hold)
    · exact interceptResponse_get hkey config method response
    · rintro rfl key hkey
      rw [interceptResponse_history, get_modify, if_pos rfl, Option.bind_map]
      exact Option.bind_congr fun result _ => get_modify_of_ne hkey result _
    · intro value q hat hread
      obtain ⟨old, -, rfl⟩ := hat.of_intercept
      exact floor_le_of_read hread

/-- A price without a prefix is replaced. -/
theorem confined_fails :
    ¬ Confined ⟨1⟩ "eth_gasPrice" (.object [("result", .string "12"), ("id", .int 1)]) := by
  intro h
  have hdigits : hexValue ['1', '2'] 0 = some 18 := by decide
  exact (confined_iff _ _ _).mp h (.string "12") (Or.inl ⟨Or.inl rfl, rfl⟩)
    ⟨18, by decide, 0, 0, ['1', '2'], by decide, by decide, rfl, hdigits, by decide⟩

end IgraRpc
