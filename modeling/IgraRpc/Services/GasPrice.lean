import IgraRpc.Error
import IgraRpc.Lib.Lts
import IgraRpc.Lib.Result

/-!
# The fee service — `services/gas_price.rs`, `clients/el_caller.rs`

* `getEffectiveBaseFee` — the network's base fee raised to the configured floor,
  from a one-second cache or from the execution layer (EL);
* `floorGasPriceValue` / `floorFeeHistoryValue` — the post-processing of fee
  oracle responses;
* `feeCache` — the cache shared by concurrent callers: a caller that finds the
  cache stale asks the EL, and stores what it computed some time later, in any
  order with the other callers;
* `feeCache_floor` — **in every reachable state a cached fee is at least the
  floor**, so every fee the service answers with is (`getEffectiveBaseFee_ge_floor`).

The EL is a function from requests to replies; `none` stands for a transport
error or a body that is not JSON. Times are in nanoseconds.
-/

namespace IgraRpc

open Lib

-- ---------------------------------------------------------------------------
-- The execution layer
-- ---------------------------------------------------------------------------

/-- The EL's reply to a request. -/
abbrev El := Value → Option Value

/-- `send_rpc_request`. -/
def sendRpcRequest (el : El) (req : Value) : Except AppError Value :=
  match el req with
  | some response => .ok response
  | none => .error .elCallError

/-- The request for the latest block. -/
def latestBlockRequest : Value :=
  .object [
    ("jsonrpc", .string "2.0"),
    ("method", .string "eth_getBlockByNumber"),
    ("params", .array [.string "latest", .bool false]),
    ("id", .int 1)]

/-- `serde_json::from_value::<JsonRpcResponse<Block>>`, as far as it is used: the
parse error's text, or the block's `base_fee_per_gas`. -/
abbrev BlockParser := Value → Except String (Option Nat)

-- ---------------------------------------------------------------------------
-- The effective base fee
-- ---------------------------------------------------------------------------

structure GasConfig where
  minProtocolFeePerGasGwei : UInt64

def gweiToWei : Nat := 1000000000

/-- `IGRA_BLOCK_TIME` seconds. -/
def igraBlockTime : Nat := 1000000000

structure CachedFee where
  fee : Nat
  fetchedAt : Nat
  deriving DecidableEq

/-- `min_floor_wei`, with its checked multiplication. -/
def minFloorWei (config : GasConfig) : Except AppError Nat :=
  -- the constant first: the kernel then stops at the variable when it reduces the product
  let product := gweiToWei * config.minProtocolFeePerGasGwei.toNat
  if product < 2 ^ 256 then .ok product
  else .error (.internal "min_protocol_fee_per_gas_gwei multiplication overflow")

/-- The configured floor in wei. -/
def GasConfig.floor (config : GasConfig) : Nat :=
  gweiToWei * config.minProtocolFeePerGasGwei.toNat

theorem GasConfig.floor_lt (config : GasConfig) : config.floor < 2 ^ 256 := by
  have hgwei : config.minProtocolFeePerGasGwei.toNat < 2 ^ 64 :=
    config.minProtocolFeePerGasGwei.toNat_lt
  calc config.floor < gweiToWei * 2 ^ 64 := Nat.mul_lt_mul_of_pos_left hgwei (by decide)
    _ ≤ 2 ^ 256 := by decide

/-- A 64-bit amount of gwei never overflows 256 bits of wei. -/
theorem minFloorWei_eq (config : GasConfig) : minFloorWei config = .ok config.floor :=
  if_pos config.floor_lt

/-- `fetch_network_base_fee`. -/
def fetchNetworkBaseFee (parseBlock : BlockParser) (el : El) : Except AppError Nat := do
  let response ← sendRpcRequest el latestBlockRequest
  match parseBlock response with
  | .error e => .error (.internal s!"Failed to parse block response: {e}")
  | .ok none =>
    .error (.internal "Block missing baseFeePerGas field - EIP-1559 not active")
  | .ok (some fee) => .ok fee

/-- The fast path: a cached fee less than a block time old. -/
def freshFee (cache : Option CachedFee) (now : Nat) : Option Nat :=
  match cache with
  | some cached => if now - cached.fetchedAt < igraBlockTime then some cached.fee else none
  | none => none

/-- The slow path: the network's fee, raised to the floor. -/
def refreshedFee (config : GasConfig) (parseBlock : BlockParser) (el : El) :
    Except AppError Nat := do
  let networkBaseFee ← fetchNetworkBaseFee parseBlock el
  let floor ← minFloorWei config
  return max networkBaseFee floor

/-- What the fee service does to the outside. -/
inductive FeeEvent where
  | elCall (req : Value)
  | storeFee (fee : Nat)

/-- What a call of the fee service did, and what it returned. -/
structure FeeCall (ε α : Type) where
  events : List FeeEvent
  result : Except ε α

/-- `get_effective_base_fee`, for a cache as it is read and a clock. -/
def getEffectiveBaseFee (config : GasConfig) (parseBlock : BlockParser) (el : El)
    (cache : Option CachedFee) (now : Nat) : FeeCall AppError Nat :=
  match freshFee cache now with
  | some fee => ⟨[], .ok fee⟩
  | none =>
    match refreshedFee config parseBlock el with
    | .ok fee => ⟨[.elCall latestBlockRequest, .storeFee fee], .ok fee⟩
    | .error e => ⟨[.elCall latestBlockRequest], .error e⟩

-- ---------------------------------------------------------------------------
-- Flooring fee oracle responses
-- ---------------------------------------------------------------------------

/-- `trim_start_matches` for a pattern of two characters. -/
def trimStartMatches (a b : Char) : List Char → List Char
  | x :: y :: rest => if x = a ∧ y = b then trimStartMatches a b rest else x :: y :: rest
  | rest => rest

/-- A hex digit of either case. -/
def hexCharVal (c : Char) : Option Nat :=
  if 'a' ≤ c ∧ c ≤ 'f' then some (c.toNat - 87)
  else if 'A' ≤ c ∧ c ≤ 'F' then some (c.toNat - 55)
  else if '0' ≤ c ∧ c ≤ '9' then some (c.toNat - 48)
  else none

/-- The value of hex digits read after `acc`; underscores are skipped. -/
def hexValue : List Char → Nat → Option Nat
  | [], acc => some acc
  | c :: rest, acc =>
    if c = '_' then hexValue rest acc
    else
      match hexCharVal c with
      | some d => hexValue rest (acc * 16 + d)
      | none => none

/-- `U256::from_str_radix(s, 16)`. -/
def u256FromHex (digits : List Char) : Option Nat :=
  match hexValue digits 0 with
  | some n => if n < 2 ^ 256 then some n else none
  | none => none

/-- `floor_hex_quantity_in_place`: the value after the call, and whether it was raised. -/
def floorHexQuantity (minFloor : Nat) (value : Value) : Value × Bool :=
  match value.asStr with
  | none => (value, false)
  | some currentHex =>
    let trimmed := trimStartMatches '0' 'X' (trimStartMatches '0' 'x' currentHex.toList)
    if trimmed.isEmpty then (value, false)
    else
      match u256FromHex trimmed with
      | none => (value, false)
      | some priceWei =>
        if priceWei < minFloor then (.string (hexLiteral minFloor), true)
        else (value, false)

/-- `floor_gas_price_value`. -/
def floorGasPriceValue (config : GasConfig) (response : Value) : Value :=
  match minFloorWei config with
  | .error _ => response
  | .ok minFloor => response.modify "result" fun result => (floorHexQuantity minFloor result).1

/-- The rewards of one block, floored. -/
def floorPercentiles (minFloor : Nat) : Value → Value
  | .array percentiles => .array (percentiles.map fun entry => (floorHexQuantity minFloor entry).1)
  | other => other

/-- The `reward` table, floored. -/
def floorRewards (minFloor : Nat) : Value → Value
  | .array perBlock => .array (perBlock.map (floorPercentiles minFloor))
  | other => other

/-- `floor_fee_history_value`. -/
def floorFeeHistoryValue (config : GasConfig) (response : Value) : Value :=
  match minFloorWei config with
  | .error _ => response
  | .ok minFloor =>
    response.modify "result" fun result => result.modify "reward" (floorRewards minFloor)

/-- Flooring a price changes nothing but `result`. -/
theorem floorGasPriceValue_get {key : String} (hkey : key ≠ "result") (config : GasConfig)
    (response : Value) : (floorGasPriceValue config response).get key = response.get key := by
  rw [floorGasPriceValue, minFloorWei_eq]
  exact Value.get_modify_of_ne hkey _ _

/-- Flooring a fee history changes nothing but `result`. -/
theorem floorFeeHistoryValue_get {key : String} (hkey : key ≠ "result") (config : GasConfig)
    (response : Value) :
    (floorFeeHistoryValue config response).get key = response.get key := by
  rw [floorFeeHistoryValue, minFloorWei_eq]
  exact Value.get_modify_of_ne hkey _ _

-- ---------------------------------------------------------------------------
-- The floor
-- ---------------------------------------------------------------------------

theorem refreshedFee_eq_ok {config : GasConfig} {parseBlock : BlockParser} {el : El}
    {fee : Nat} :
    refreshedFee config parseBlock el = .ok fee ↔
      ∃ network, fetchNetworkBaseFee parseBlock el = .ok network ∧
        fee = max network config.floor := by
  rw [refreshedFee, minFloorWei_eq]
  cases h : fetchNetworkBaseFee parseBlock el with
  | error e => simp [Result.error_bind]
  | ok network =>
    simp only [Result.ok_bind, Result.pure_eq_ok, Except.ok.injEq, exists_eq_left']
    exact eq_comm

theorem refreshedFee_ge_floor {config : GasConfig} {parseBlock : BlockParser} {el : El}
    {fee : Nat} (h : refreshedFee config parseBlock el = .ok fee) : config.floor ≤ fee := by
  obtain ⟨network, -, rfl⟩ := refreshedFee_eq_ok.mp h
  exact Nat.le_max_right _ _

/-- Every fee in a cache is at least the floor. -/
def CacheAboveFloor (config : GasConfig) (cache : Option CachedFee) : Prop :=
  ∀ cached, cache = some cached → config.floor ≤ cached.fee

theorem freshFee_eq_some {cache : Option CachedFee} {now fee : Nat}
    (h : freshFee cache now = some fee) :
    ∃ cached, cache = some cached ∧ now - cached.fetchedAt < igraBlockTime ∧
      cached.fee = fee := by
  cases cache with
  | none => exact absurd h (by simp [freshFee])
  | some cached =>
    simp only [freshFee] at h
    split at h
    case isTrue hage => exact ⟨cached, rfl, hage, Option.some.inj h⟩
    case isFalse => exact absurd h (by simp)

/-- **The floor.** Whatever the EL answers, an effective base fee obtained from a
cache above the floor is at least the floor. -/
theorem getEffectiveBaseFee_ge_floor {config : GasConfig} {parseBlock : BlockParser}
    {el : El} {cache : Option CachedFee} {now fee : Nat}
    (hcache : CacheAboveFloor config cache)
    (h : (getEffectiveBaseFee config parseBlock el cache now).result = .ok fee) :
    config.floor ≤ fee := by
  unfold getEffectiveBaseFee at h
  cases hfresh : freshFee cache now with
  | some cachedFee =>
    rw [hfresh] at h
    obtain rfl : cachedFee = fee := Except.ok.inj h
    obtain ⟨cached, hc, -, rfl⟩ := freshFee_eq_some hfresh
    exact hcache cached hc
  | none =>
    rw [hfresh] at h
    cases hrefresh : refreshedFee config parseBlock el with
    | error e =>
      rw [hrefresh] at h
      exact absurd h (by simp)
    | ok refreshed =>
      rw [hrefresh] at h
      obtain rfl : refreshed = fee := Except.ok.inj h
      exact refreshedFee_ge_floor hrefresh

-- ---------------------------------------------------------------------------
-- The shared cache
-- ---------------------------------------------------------------------------

/-- The cache, the clock and the calls under way: `asked` holds when each call that
is waiting for the EL asked it, `computed` the fees that are about to be stored. -/
structure FeeWorld where
  now : Nat
  cache : Option CachedFee
  asked : List Nat
  computed : List (Nat × Nat)

/-- The steps of concurrent `get_effective_base_fee` calls. -/
inductive FeeLabel where
  | tick (elapsed : Nat)
  | hit (fee : Nat)
  | ask
  | reply (askedAt : Nat) (el : El)
  | store (askedAt fee : Nat)

/-- One step: time passes, a call reads a fresh fee, a call finds the cache stale and
asks the EL, the EL's reply is turned into a fee or an error, or a call stores its
fee. -/
inductive FeeStep (config : GasConfig) (parseBlock : BlockParser) :
    FeeWorld → FeeLabel → FeeWorld → Prop where
  | tick (w : FeeWorld) (elapsed : Nat) :
      FeeStep config parseBlock w (.tick elapsed) { w with now := w.now + elapsed }
  | hit (w : FeeWorld) (fee : Nat) (h : freshFee w.cache w.now = some fee) :
      FeeStep config parseBlock w (.hit fee) w
  | ask (w : FeeWorld) (h : freshFee w.cache w.now = none) :
      FeeStep config parseBlock w .ask { w with asked := w.now :: w.asked }
  | replyOk (w : FeeWorld) (askedAt : Nat) (el : El) (fee : Nat) (h : askedAt ∈ w.asked)
      (hfee : refreshedFee config parseBlock el = .ok fee) :
      FeeStep config parseBlock w (.reply askedAt el)
        { w with
          asked := w.asked.erase askedAt
          computed := (askedAt, fee) :: w.computed }
  | replyErr (w : FeeWorld) (askedAt : Nat) (el : El) (e : AppError) (h : askedAt ∈ w.asked)
      (he : refreshedFee config parseBlock el = .error e) :
      FeeStep config parseBlock w (.reply askedAt el)
        { w with asked := w.asked.erase askedAt }
  | store (w : FeeWorld) (askedAt fee : Nat) (h : (askedAt, fee) ∈ w.computed) :
      FeeStep config parseBlock w (.store askedAt fee)
        { w with
          cache := some ⟨fee, w.now⟩
          computed := w.computed.erase (askedAt, fee) }

/-- The fee cache from the start of the process: empty, with no call under way. -/
def feeCache (config : GasConfig) (parseBlock : BlockParser) : Lts FeeWorld FeeLabel where
  init w := w.cache = none ∧ w.asked = [] ∧ w.computed = []
  step := FeeStep config parseBlock

/-- Every fee in the cache or about to be stored is at least the floor. -/
def FeesAboveFloor (config : GasConfig) (w : FeeWorld) : Prop :=
  CacheAboveFloor config w.cache ∧ ∀ p ∈ w.computed, config.floor ≤ p.2

theorem feeStep_floor {config : GasConfig} {parseBlock : BlockParser} {w w' : FeeWorld}
    {l : FeeLabel} (hw : FeesAboveFloor config w) (h : FeeStep config parseBlock w l w') :
    FeesAboveFloor config w' := by
  obtain ⟨hcache, hcomputed⟩ := hw
  cases h with
  | tick => exact ⟨hcache, hcomputed⟩
  | hit => exact ⟨hcache, hcomputed⟩
  | ask => exact ⟨hcache, hcomputed⟩
  | replyOk askedAt el fee hmem hfee =>
    -- the new fee was just raised to the floor
    refine ⟨hcache, fun p hp => ?_⟩
    rcases List.mem_cons.mp hp with rfl | hp
    · exact refreshedFee_ge_floor hfee
    · exact hcomputed p hp
  | replyErr => exact ⟨hcache, hcomputed⟩
  | store askedAt fee hmem =>
    refine ⟨?_, fun p hp => hcomputed p (List.mem_of_mem_erase hp)⟩
    intro cached hc
    obtain rfl := Option.some.inj hc
    exact hcomputed _ hmem

/-- **Every reachable cache is above the floor.** -/
theorem feeCache_floor {config : GasConfig} {parseBlock : BlockParser} {w : FeeWorld}
    (h : (feeCache config parseBlock).Reachable w) : CacheAboveFloor config w.cache := by
  have hinv : FeesAboveFloor config w := by
    refine Lts.invariant ?_ ?_ w h
    · intro s ⟨hcache, _, hcomputed⟩
      refine ⟨fun cached hc => ?_, fun p hp => ?_⟩
      · rw [hcache] at hc
        exact absurd hc (by simp)
      · rw [hcomputed] at hp
        exact absurd hp (by simp)
    · intro s l t _ hs hstep
      exact feeStep_floor hs hstep
  exact hinv.1

end IgraRpc
