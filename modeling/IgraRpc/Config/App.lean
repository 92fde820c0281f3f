import IgraRpc.Config.Lane
import IgraRpc.Services.WalletCall

/-!
# The configuration and its validation — `config/app.rs` and the domains it composes

* `AppConfig.validateConfig` — the domains in order; a read-only deployment skips the
  wallet and the lane;
* `AppConfig.validateConfig_eq_ok` — what an accepted configuration satisfies, domain by
  domain.

Loading from the file and the environment is left out, and so are the settings no
validation reads.
-/

namespace IgraRpc

open Lib

namespace Config

/-- One check of a configuration: an error if it is violated. -/
def reject (violated : Bool) (message : String) : Except String Unit :=
  if violated then .error message else .ok ()

theorem reject_bind_eq_ok {violated : Bool} {message : String} {next : Except String Unit} :
    (do reject violated message; next) = .ok () ↔ violated = false ∧ next = .ok () := by
  cases violated <;> simp [reject]

-- ---------------------------------------------------------------------------
-- The domains
-- ---------------------------------------------------------------------------

structure ServerConfig where
  host : String
  port : UInt16

def ServerConfig.validate (config : ServerConfig) : Except String Unit := do
  reject (config.host == "") "Server host cannot be empty"
  reject (config.port == 0) "Server port cannot be zero"

structure ProxyConfig where
  elUrl : String
  elWsUrl : String
  timeoutSeconds : UInt64
  maxRetries : UInt32
  retryDelayMs : UInt64

/-- A URL of one of the two schemes. -/
def isHttpUrl (url : String) : Bool := startsWith url "http://" || startsWith url "https://"

def ProxyConfig.validate (config : ProxyConfig) : Except String Unit := do
  reject (config.elUrl == "") "EL URL cannot be empty"
  reject (!isHttpUrl config.elUrl) "EL URL must start with http:// or https://"
  reject (config.elWsUrl != "" && !startsWith config.elWsUrl "ws://")
    "EL WS URL must start with ws:// (wss:// is not supported)"
  reject (config.timeoutSeconds == 0 || config.timeoutSeconds > 300)
    s!"Timeout must be between 1-300 seconds, got {config.timeoutSeconds}"
  reject (config.maxRetries > 10) s!"Max retries must be <= 10, got {config.maxRetries}"
  reject (config.retryDelayMs < 10 || config.retryDelayMs > 10000)
    s!"Retry delay must be between 10-10000ms, got {config.retryDelayMs}ms"

structure WalletConfig where
  walletDaemonUri : String
  toAddress : String

def WalletConfig.validate (config : WalletConfig) : Except String Unit := do
  reject (config.walletDaemonUri == "") "Wallet daemon URI cannot be empty"
  reject (config.toAddress == "") "Wallet to_address cannot be empty"
  reject (!isHttpUrl config.walletDaemonUri)
    "Wallet daemon URI must start with http:// or https://"
  reject (!startsWith config.toAddress "kaspa:" && !startsWith config.toAddress "kaspatest:" &&
      !startsWith config.toAddress "kaspadev:")
    ("Wallet to_address must be a valid Kaspa address " ++
      "(starts with 'kaspa:', 'kaspatest:', or 'kaspadev:')")
  reject ((strBytes config.toAddress).length < 40)
    "Wallet to_address appears to be too short for a valid Kaspa address"

end Config

open Config

/-- There is nothing to check. -/
def SecurityConfig.validate (_ : SecurityConfig) : Except String Unit := .ok ()

/-- `HASH_SIZE`. -/
def hashSize : Nat := 32

/-- Each error is a `ConfigError`. -/
def MiningConfig.validate (config : MiningConfig) : Except AppError Unit :=
  Except.mapError .configError do
    reject (config.txIdPrefix.length == 0) "Mining tx_id_prefix cannot be empty"
    reject (config.txIdPrefix.length > hashSize)
      (s!"Mining tx_id_prefix cannot exceed {hashSize} bytes (Kaspa hash size), got " ++
        s!"{config.txIdPrefix.length} bytes")
    reject (config.timeoutSeconds == 0 || config.timeoutSeconds > 300)
      ("Mining timeout_seconds must be between 1-300 seconds, got " ++
        s!"{config.timeoutSeconds} seconds")

/-- `MAX_REASONABLE_PROTOCOL_FEE_PER_GAS_GWEI`. -/
def maxReasonableProtocolFeePerGasGwei : UInt64 := 10000

def GasConfig.validate (config : GasConfig) : Except String Unit := do
  reject (config.minProtocolFeePerGasGwei == 0) "Minimum protocol fee per gas cannot be zero"
  reject (config.minProtocolFeePerGasGwei > maxReasonableProtocolFeePerGasGwei)
    ("Minimum protocol fee per gas is unreasonably high: " ++
      s!"{config.minProtocolFeePerGasGwei} gwei (max reasonable: " ++
      s!"{maxReasonableProtocolFeePerGasGwei} gwei)")

def RetryConfig.validate (config : RetryConfig) : Except String Unit := do
  reject (config.maxAttempts == 0) "max_attempts must be greater than 0"
  reject (config.initialDelayMs == 0) "initial_delay_ms must be greater than 0"
  reject (config.maxDelayMs < config.initialDelayMs)
    (s!"max_delay_ms ({config.maxDelayMs}) must be >= initial_delay_ms " ++
      s!"({config.initialDelayMs})")

-- ---------------------------------------------------------------------------
-- Defaults
-- ---------------------------------------------------------------------------

/-- The domains a configuration may leave out, with their defaults. -/
def MiningConfig.default : MiningConfig := ⟨[0x97, 0xb1], 10⟩

def GasConfig.default : GasConfig := ⟨100⟩

def RetryConfig.default : RetryConfig := ⟨3, 100, 3000⟩

/-- A proxy with the default limits. -/
def Config.ProxyConfig.withElUrl (elUrl : String) : Config.ProxyConfig :=
  ⟨elUrl, "", 30, 3, 1000⟩

/-- Every default passes its own check; a proxy needs no more than a URL. -/
theorem defaults_validate :
    MiningConfig.default.validate = .ok () ∧ GasConfig.default.validate = .ok () ∧
      RetryConfig.default.validate = .ok () ∧
      ∀ url, isHttpUrl url = true → (Config.ProxyConfig.withElUrl url).validate = .ok () := by
  refine ⟨rfl, rfl, rfl, ?_⟩
  intro url hurl
  have hne : (url == "") = false := by
    rw [beq_eq_false_iff_ne]
    rintro rfl
    exact absurd hurl (by decide)
  show (do reject (url == "") _; reject (!isHttpUrl url) _; _) = _
  rw [hne, hurl]
  rfl

-- ---------------------------------------------------------------------------
-- The whole configuration
-- ---------------------------------------------------------------------------

/-- The application's configuration. -/
structure Config.AppConfig where
  server : ServerConfig
  proxy : ProxyConfig
  wallet : WalletConfig
  security : SecurityConfig
  mining : MiningConfig
  lane : LaneConfig
  gas : GasConfig
  retry : RetryConfig

/-- The settings the background worker uses. -/
def Config.AppConfig.worker (config : Config.AppConfig) : IgraRpc.AppConfig where
  mining := config.mining
  retry := config.retry

/-- A domain's check, its error under the domain's name. -/
def domainCheck (domain : String) (check : Except String Unit) : Except AppError Unit :=
  check.mapError fun e => .configError s!"{domain} config: {e}"

/-- `validate_config`. -/
def Config.AppConfig.validateConfig (subnets : Subnets) (config : Config.AppConfig) :
    Except AppError Unit := do
  let readOnly := config.security.isReadOnly
  domainCheck "Server" config.server.validate
  domainCheck "Proxy" config.proxy.validate
  if !readOnly then domainCheck "Wallet" config.wallet.validate
  domainCheck "Security" config.security.validate
  domainCheck "Mining" (config.mining.validate.mapError AppError.display)
  if !readOnly then domainCheck "Lane" (config.lane.validate subnets)
  domainCheck "Gas" config.gas.validate
  domainCheck "Retry" config.retry.validate

/-- An accepted configuration: every domain passes its check, but for the wallet and the
lane of a read-only deployment. -/
structure Config.AppConfig.Accepted (subnets : Subnets) (config : Config.AppConfig) : Prop where
  server : config.server.validate = .ok ()
  proxy : config.proxy.validate = .ok ()
  wallet : config.security.isReadOnly = false → config.wallet.validate = .ok ()
  mining : config.mining.validate = .ok ()
  lane : config.security.isReadOnly = false → config.lane.validate subnets = .ok ()
  gas : config.gas.validate = .ok ()
  retry : config.retry.validate = .ok ()

theorem domainCheck_eq_ok {domain : String} {check : Except String Unit} :
    domainCheck domain check = .ok () ↔ check = .ok () :=
  Result.mapError_eq_ok

/-- **`validate_config`, success.** -/
theorem Config.AppConfig.validateConfig_eq_ok {subnets : Subnets} {config : Config.AppConfig} :
    config.validateConfig subnets = .ok () ↔ config.Accepted subnets := by
  have hsecurity : config.security.validate = .ok () := rfl
  unfold validateConfig
  cases hmode : config.security.isReadOnly with
  | true =>
    simp only [Bool.not_true, Bool.false_eq_true, if_false, Result.bind_unit_eq_ok,
      domainCheck_eq_ok, Result.mapError_eq_ok, hsecurity, true_and]
    refine ⟨?_, ?_⟩
    · intro ⟨hserver, hproxy, hmining, hgas, hretry⟩
      exact ⟨hserver, hproxy, by simp [hmode], hmining, by simp [hmode], hgas, hretry⟩
    · intro h
      exact ⟨h.server, h.proxy, h.mining, h.gas, h.retry⟩
  | false =>
    simp only [Bool.not_false, if_true, Result.bind_unit_eq_ok, domainCheck_eq_ok,
      Result.mapError_eq_ok, hsecurity, true_and]
    refine ⟨?_, ?_⟩
    · intro ⟨hserver, hproxy, hwallet, hmining, hlane, hgas, hretry⟩
      exact ⟨hserver, hproxy, fun _ => hwallet, hmining, fun _ => hlane, hgas, hretry⟩
    · intro h
      exact ⟨h.server, h.proxy, h.wallet hmode, h.mining, h.lane hmode, h.gas, h.retry⟩

/-- A mining prefix has between 1 and 32 bytes. -/
theorem MiningConfig.length_of_validate {config : MiningConfig}
    (h : config.validate = .ok ()) :
    1 ≤ config.txIdPrefix.length ∧ config.txIdPrefix.length ≤ 32 := by
  have hchecks := Result.mapError_eq_ok.mp h
  obtain ⟨hempty, hchecks⟩ := reject_bind_eq_ok.mp hchecks
  obtain ⟨hlong, -⟩ := reject_bind_eq_ok.mp hchecks
  have hpos : config.txIdPrefix.length ≠ 0 := by simpa using hempty
  have hmax : ¬config.txIdPrefix.length > hashSize := by simpa using hlong
  have hsize : hashSize = 32 := rfl
  omega

end IgraRpc
