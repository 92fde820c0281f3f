import IgraRpc.Services.Proxy
import IgraRpc.Services.Transaction

/-!
# The fee oracle and the validator

A wallet prices a transaction from what `eth_gasPrice`, `eth_maxPriorityFeePerGas` and
`eth_feeHistory` answer, and the accept path checks the price.

* `IsQuantity` — a `0x` hex quantity and its value, as a wallet reads it;
* `floorHexQuantity_isQuantity` — a quantity comes back as the quantity raised to the
  floor: what is printed is read as what was meant;
* `oracle_agrees` — **a transaction priced from the served answers passes the fee
  check**, as long as the network's base fee does not exceed the floor.
-/

namespace IgraRpc

open Lib

-- ---------------------------------------------------------------------------
-- Quantities
-- ---------------------------------------------------------------------------

/-- The value of hex digits read after `acc`. -/
def digitsValue : List Char → Nat → Option Nat
  | [], acc => some acc
  | c :: rest, acc => (hexCharVal c).bind fun d => digitsValue rest (acc * 16 + d)

/-- The value is a `0x` hex quantity, and `n` is what it says. -/
def IsQuantity (value : Value) (n : Nat) : Prop :=
  ∃ digits, digits ≠ [] ∧ value = .string ("0x" ++ String.ofList digits) ∧
    digitsValue digits 0 = some n

/-- A quantity says one thing. -/
theorem IsQuantity.unique {value : Value} {m n : Nat} (hm : IsQuantity value m)
    (hn : IsQuantity value n) : m = n := by
  obtain ⟨ds, -, rfl, hds⟩ := hm
  obtain ⟨es, -, htext, hes⟩ := hn
  have hsame : ds = es := by
    have hlists := congrArg String.toList (Value.string.inj htext)
    simp only [String.toList_append, String.toList_ofList] at hlists
    exact List.append_cancel_left hlists
  rw [hsame, hes] at hds
  exact (Option.some.inj hds).symm

theorem digitsValue_append (ds es : List Char) (acc : Nat) :
    digitsValue (ds ++ es) acc = (digitsValue ds acc).bind (digitsValue es) := by
  induction ds generalizing acc with
  | nil => rfl
  | cons c rest ih =>
    rw [List.cons_append, digitsValue, digitsValue]
    cases hexCharVal c with
    | none => rfl
    | some d => exact ih (acc * 16 + d)

theorem hexCharVal_digitChar {d : Nat} (h : d < 16) : hexCharVal d.digitChar = some d := by
  have hall : ∀ d < 16, hexCharVal d.digitChar = some d := by decide
  exact hall d h

/-- Digits are printed as they are read. -/
theorem digitsValue_toDigits (n : Nat) : digitsValue (Nat.toDigits 16 n) 0 = some n := by
  induction n using Nat.strongRecOn with
  | ind n ih =>
    by_cases hsmall : n < 16
    · rw [Nat.toDigits_of_lt_base hsmall, digitsValue, hexCharVal_digitChar hsmall,
        Option.bind_some, digitsValue, Nat.zero_mul, Nat.zero_add]
    · have hbase : 16 ≤ n := Nat.not_lt.mp hsmall
      have hdigit : n % 16 < 16 := Nat.mod_lt n (by decide)
      rw [Nat.toDigits_of_base_le (by decide) hbase, digitsValue_append,
        ih (n / 16) (Nat.div_lt_self (by omega) (by decide)), Option.bind_some,
        digitsValue, hexCharVal_digitChar hdigit, Option.bind_some, digitsValue]
      exact congrArg some (by omega)

/-- `{:#x}` of an integer is a quantity that says it. -/
theorem hexLiteral_isQuantity (n : Nat) : IsQuantity (.string (hexLiteral n)) n :=
  ⟨Nat.toDigits 16 n, Nat.toDigits_ne_nil, rfl, digitsValue_toDigits n⟩

/-- Digits are read one after the other. -/
theorem digitsValue_cons_eq_some {c : Char} {rest : List Char} {acc n : Nat} :
    digitsValue (c :: rest) acc = some n ↔
      ∃ d, hexCharVal c = some d ∧ digitsValue rest (acc * 16 + d) = some n := by
  rw [digitsValue, Option.bind_eq_some_iff]

/-- Where a wallet reads digits, the provider does: no digit is an underscore. -/
theorem hexValue_of_digitsValue {ds : List Char} {acc n : Nat}
    (h : digitsValue ds acc = some n) : hexValue ds acc = some n := by
  induction ds generalizing acc with
  | nil => exact h
  | cons c rest ih =>
    obtain ⟨d, hc, hrest⟩ := digitsValue_cons_eq_some.mp h
    have hne : c ≠ '_' := by
      rintro rfl
      have hnone : hexCharVal '_' = none := by decide
      rw [hnone] at hc
      exact absurd hc (by simp)
    rw [hexValue, if_neg hne, hc]
    exact ih hrest

theorem hexCharVal_of_digitsValue {ds : List Char} {acc n : Nat}
    (h : digitsValue ds acc = some n) : ∀ c ∈ ds, hexCharVal c ≠ none := by
  induction ds generalizing acc with
  | nil => simp
  | cons c rest ih =>
    obtain ⟨d, hc, hrest⟩ := digitsValue_cons_eq_some.mp h
    intro c' hc'
    rcases List.mem_cons.mp hc' with rfl | hlater
    · rw [hc]
      simp
    · exact ih hrest c' hlater

/-- There is no second prefix to trim from digits. -/
theorem trimStartMatches_digits {ds : List Char} (h : ∀ c ∈ ds, hexCharVal c ≠ none) {b : Char}
    (hb : hexCharVal b = none) (a : Char) : trimStartMatches a b ds = ds := by
  match ds, h with
  | [], _ => rfl
  | [_], _ => rfl
  | x :: y :: rest, h =>
    rw [trimStartMatches]
    split
    · next hmarker =>
      have hy := h y (by simp)
      rw [hmarker.2] at hy
      exact absurd hb hy
    · rfl

/-- **Flooring a quantity.** It stays as it is, or becomes the floor's. -/
theorem floorHexQuantity_of_isQuantity {value : Value} {n : Nat} (h : IsQuantity value n)
    (hn : n < 2 ^ 256) (minFloor : Nat) :
    (floorHexQuantity minFloor value).1 =
      if n < minFloor then .string (hexLiteral minFloor) else value := by
  obtain ⟨digits, hne, rfl, hvalue⟩ := h
  have hdigits := hexCharVal_of_digitsValue hvalue
  have htrim : trimStartMatches '0' 'X' (trimStartMatches '0' 'x'
      ("0x" ++ String.ofList digits).toList) = digits := by
    simp only [String.toList_append, String.toList_ofList]
    show trimStartMatches '0' 'X' (trimStartMatches '0' 'x' ('0' :: 'x' :: digits)) = digits
    rw [trimStartMatches, if_pos ⟨rfl, rfl⟩, trimStartMatches_digits hdigits (by decide),
      trimStartMatches_digits hdigits (by decide)]
  have hparsed : u256FromHex digits = some n := by
    rw [u256FromHex, hexValue_of_digitsValue hvalue]
    exact if_pos hn
  have hnonempty : digits.isEmpty = false := by simpa using hne
  simp only [floorHexQuantity, Value.asStr, htrim, hnonempty, hparsed, Bool.false_eq_true,
    if_false]
  split <;> rfl

/-- A quantity comes back as the quantity raised to the floor. -/
theorem floorHexQuantity_isQuantity {value : Value} {n : Nat} (h : IsQuantity value n)
    (hn : n < 2 ^ 256) (minFloor : Nat) :
    IsQuantity (floorHexQuantity minFloor value).1 (max n minFloor) := by
  rw [floorHexQuantity_of_isQuantity h hn]
  split
  · next hlow =>
    rw [Nat.max_eq_right (Nat.le_of_lt hlow)]
    exact hexLiteral_isQuantity minFloor
  · next hhigh =>
    rw [Nat.max_eq_left (Nat.not_lt.mp hhigh)]
    exact h

-- ---------------------------------------------------------------------------
-- Served answers
-- ---------------------------------------------------------------------------

/-- A served price or tip: there is a quantity, and it says `n`. -/
def Says (answer : Option Value) (n : Nat) : Prop :=
  ∃ value, answer = some value ∧ IsQuantity value n

theorem Says.unique {answer : Option Value} {m n : Nat} (hm : Says answer m)
    (hn : Says answer n) : m = n := by
  obtain ⟨v, hv, hm⟩ := hm
  obtain ⟨w, hw, hn⟩ := hn
  rw [Option.some.inj (hv.symm.trans hw)] at hm
  exact hm.unique hn

/-- `result.reward[i][j]` of a fee history. -/
def rewardAt (response : Value) (i j : Nat) : Option Value :=
  (((response.get "result").bind (·.get "reward")).bind (·.getIdx i)).bind (·.getIdx j)

/-- Flooring a history floors its rewards, one by one. -/
theorem rewardAt_floorFeeHistoryValue (config : GasConfig) (response : Value) (i j : Nat) :
    rewardAt (floorFeeHistoryValue config response) i j =
      (rewardAt response i j).map fun entry => (floorHexQuantity config.floor entry).1 := by
  have hentry : ∀ perBlock : Value, (floorPercentiles config.floor perBlock).getIdx j =
      (perBlock.getIdx j).map fun entry => (floorHexQuantity config.floor entry).1 := by
    intro perBlock
    cases perBlock with
    | array percentiles => exact List.getElem?_map
    | _ => rfl
  have hblock : ∀ table : Value, (floorRewards config.floor table).getIdx i =
      (table.getIdx i).map (floorPercentiles config.floor) := by
    intro table
    cases table with
    | array perBlock => exact List.getElem?_map
    | _ => rfl
  rw [floorFeeHistoryValue, minFloorWei_eq]
  show rewardAt (response.modify "result" _) i j = _
  rw [rewardAt, rewardAt, Value.get_modify, if_pos rfl]
  cases response.get "result" with
  | none => rfl
  | some result =>
    rw [Option.map_some, Option.bind_some, Option.bind_some, Value.get_modify, if_pos rfl]
    cases result.get "reward" with
    | none => rfl
    | some table =>
      rw [Option.map_some, Option.bind_some, Option.bind_some, hblock]
      cases table.getIdx i with
      | none => rfl
      | some perBlock => exact hentry perBlock

/-- A served price is the EL's, raised to the floor. -/
theorem served_price {config : GasConfig} {el : El} {req : RpcRequest} {response : Value}
    (hreply : el req.toValue = some response)
    (hmethod : req.method = "eth_gasPrice" ∨ req.method = "eth_maxPriorityFeePerGas") {n : Nat}
    (hgiven : Says (response.get "result") n) (hn : n < 2 ^ 256) :
    Says ((forwardToEl config el req).get "result") (max n config.floor) := by
  obtain ⟨value, hvalue, hquantity⟩ := hgiven
  have hserved : forwardToEl config el req = floorGasPriceValue config response := by
    rw [forwardToEl, sendRpcRequest, hreply]
    exact if_pos hmethod
  rw [hserved, floorGasPriceValue, minFloorWei_eq]
  refine ⟨_, ?_, floorHexQuantity_isQuantity hquantity hn config.floor⟩
  show (response.modify "result" _).get "result" = _
  rw [Value.get_modify, if_pos rfl, hvalue, Option.map_some]

/-- A served reward is the EL's, raised to the floor. -/
theorem served_reward {config : GasConfig} {el : El} {req : RpcRequest} {response : Value}
    (hreply : el req.toValue = some response) (hmethod : req.method = "eth_feeHistory")
    {i j n : Nat} (hgiven : Says (rewardAt response i j) n) (hn : n < 2 ^ 256) :
    Says (rewardAt (forwardToEl config el req) i j) (max n config.floor) := by
  obtain ⟨value, hvalue, hquantity⟩ := hgiven
  have hserved : forwardToEl config el req = floorFeeHistoryValue config response := by
    rw [forwardToEl, sendRpcRequest, hreply]
    show interceptResponse config req.method response = _
    rw [interceptResponse, hmethod, if_neg (by decide), if_pos rfl]
  rw [hserved, rewardAt_floorFeeHistoryValue, hvalue, Option.map_some]
  exact ⟨_, rfl, floorHexQuantity_isQuantity hquantity hn config.floor⟩

-- ---------------------------------------------------------------------------
-- Prices and the fee check
-- ---------------------------------------------------------------------------

/-- A gas price that passes the check of both static types. -/
def PriceAccepted (minProtocolFee gasPrice : Nat) : Prop :=
  ∀ signed,
    validateGasFeeWithType (.legacy gasPrice signed) minProtocolFee TxTypes.LEGACY = .ok () ∧
    validateGasFeeWithType (.eip2930 gasPrice signed) minProtocolFee TxTypes.EIP2930 = .ok ()

/-- A tip that passes the check of both dynamic types, with any maximum above it. -/
def TipAccepted (minProtocolFee tip : Nat) : Prop :=
  ∀ maxFee signed, tip ≤ maxFee →
    validateGasFeeWithType (.eip1559 maxFee tip signed) minProtocolFee TxTypes.EIP1559 =
      .ok () ∧
    validateGasFeeWithType (.eip7702 maxFee tip signed) minProtocolFee TxTypes.EIP7702 =
      .ok ()

theorem priceAccepted_of_le {minProtocolFee gasPrice : Nat} (h : minProtocolFee ≤ gasPrice) :
    PriceAccepted minProtocolFee gasPrice := by
  intro signed
  refine ⟨?_, ?_⟩
  · exact validateGasFeeWithType_eq_ok.mpr ⟨Or.inl rfl, h⟩
  · exact validateGasFeeWithType_eq_ok.mpr ⟨Or.inr rfl, h⟩

theorem tipAccepted_of_le {minProtocolFee tip : Nat} (h : minProtocolFee ≤ tip) :
    TipAccepted minProtocolFee tip := by
  intro maxFee signed hmax
  refine ⟨?_, ?_⟩
  · exact validateGasFeeWithType_eq_ok.mpr ⟨Or.inl rfl, hmax, h⟩
  · exact validateGasFeeWithType_eq_ok.mpr ⟨Or.inr rfl, hmax, h⟩

/-- An answer is served, and what it says is accepted. -/
structure ServedAccepted (answer : Option Value) (Accepted : Nat → Prop) : Prop where
  served : ∃ n, Says answer n
  accepted : ∀ n, Says answer n → Accepted n

theorem servedAccepted_of_says {answer : Option Value} {Accepted : Nat → Prop} {n : Nat}
    (hgiven : Says answer n) (h : Accepted n) : ServedAccepted answer Accepted := by
  refine ⟨⟨n, hgiven⟩, ?_⟩
  intro m hm
  rw [hm.unique hgiven]
  exact h

/-- **The fee oracle and the validator agree.** While the network's base fee `b` is at most
the floor, every quantity the EL answers is served as a quantity, and a transaction priced
with it passes the check against the effective base fee. -/
theorem oracle_agrees (config : GasConfig) {b : Nat} (hb : b ≤ config.floor) (el : El)
    (req : RpcRequest) {response : Value} (hreply : el req.toValue = some response) :
    (∀ parseBlock el', fetchNetworkBaseFee parseBlock el' = .ok b →
      refreshedFee config parseBlock el' = .ok (max b config.floor)) ∧
    (req.method = "eth_gasPrice" → ∀ n < 2 ^ 256, Says (response.get "result") n →
      ServedAccepted ((forwardToEl config el req).get "result")
        (PriceAccepted (max b config.floor))) ∧
    (req.method = "eth_maxPriorityFeePerGas" → ∀ n < 2 ^ 256, Says (response.get "result") n →
      ServedAccepted ((forwardToEl config el req).get "result")
        (TipAccepted (max b config.floor))) ∧
    (req.method = "eth_feeHistory" → ∀ i j, ∀ n < 2 ^ 256, Says (rewardAt response i j) n →
      ServedAccepted (rewardAt (forwardToEl config el req) i j)
        (TipAccepted (max b config.floor))) := by
  have hfloor : ∀ n, max b config.floor ≤ max n config.floor := by
    intro n
    rw [Nat.max_eq_right hb]
    exact Nat.le_max_right n config.floor
  refine ⟨?_, ?_, ?_, ?_⟩
  · intro parseBlock el' hfetch
    exact refreshedFee_eq_ok.mpr ⟨b, hfetch, rfl⟩
  · intro hmethod n hn hgiven
    have hserved : Says ((forwardToEl config el req).get "result") (max n config.floor) :=
      served_price hreply (Or.inl hmethod) hgiven hn
    exact servedAccepted_of_says hserved (priceAccepted_of_le (hfloor n))
  · intro hmethod n hn hgiven
    have hserved : Says ((forwardToEl config el req).get "result") (max n config.floor) :=
      served_price hreply (Or.inr hmethod) hgiven hn
    exact servedAccepted_of_says hserved (tipAccepted_of_le (hfloor n))
  · intro hmethod i j n hn hgiven
    have hserved : Says (rewardAt (forwardToEl config el req) i j) (max n config.floor) :=
      served_reward hreply hmethod hgiven hn
    exact servedAccepted_of_says hserved (tipAccepted_of_le (hfloor n))

/-- An EL whose base fee is 7 wei, asked for a gas price. -/
theorem oracle_agrees_seven :
    let el : El := fun _ => some (.object [("result", .string "0x7"), ("id", .int 1)])
    let req : RpcRequest := ⟨"2.0", "eth_gasPrice", .array [], .int 1⟩
    ServedAccepted ((forwardToEl ⟨1⟩ el req).get "result") (PriceAccepted 1000000000) := by
  intro el req
  have hfloor : max 7 (GasConfig.floor ⟨1⟩) = 1000000000 := by decide
  have hseven : Says ((Value.object [("result", .string "0x7"), ("id", .int 1)]).get "result") 7 :=
    ⟨_, rfl, ['7'], by decide, rfl, rfl⟩
  rw [← hfloor]
  exact (oracle_agrees ⟨1⟩ (b := 7) (by decide) el req rfl).2.1 rfl 7 (by decide) hseven

end IgraRpc
