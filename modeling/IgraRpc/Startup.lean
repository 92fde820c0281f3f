import IgraRpc.Config.App

/-!
# Startup — `main.rs`

The decision about lane and wallet is taken twice: by `validate_config`, when the
configuration is loaded, and by `main`, when the wallet is created.

* `startWallet` — read-only, neither a lane nor a wallet; otherwise the lane that the
  configuration resolves to, and a wallet that enforces it;
* `startup_agrees` — **an accepted configuration is read the same way by both**: this part of
  startup fails only if the wallet daemon cannot be reached, and enforcement is off only where
  the operator switched it off.

Connecting to the wallet daemon is a parameter. The rest of `main` is left out: the host that
is parsed before, the services, and the listener that is bound after. A host that is no address
and a port that is taken end the process too.
-/

namespace IgraRpc

open Lib

-- ---------------------------------------------------------------------------
-- The code
-- ---------------------------------------------------------------------------

/-- What startup does about lane and wallet. -/
inductive StartupEvent where
  | resolvesLane
  | createsWallet (wallet : Config.WalletConfig) (laneEnforcement : Option LaneEnforcement)

/-- How startup fails: `main` returns an error, or the process exits. -/
inductive StartupError where
  | failed (e : AppError)
  | exits

/-- Connecting to the wallet daemon, with the password from the environment: the address
to send to, or the error's text. -/
abbrev WalletDaemon := Config.WalletConfig → Except String String

/-- `WalletCaller::new`. -/
def WalletCaller.new (daemon : WalletDaemon) (wallet : Config.WalletConfig)
    (laneEnforcement : Option LaneEnforcement) : Except String WalletCaller :=
  (daemon wallet).map fun toAddress => ⟨toAddress, laneEnforcement⟩

/-- `config.lane.resolve()` and `LaneEnforcement::new`. -/
def laneEnforcement (subnets : Subnets) (config : Config.AppConfig) :
    Except AppError (Option LaneEnforcement) := do
  let mode ← (config.lane.resolve subnets).mapError
    fun e => .configError s!"lane (post-validate): {e}"
  match mode with
  | .enforced id =>
    let enforcement ← (LaneEnforcement.new id config.mining.txIdPrefix).mapError .configError
    return some enforcement
  | .disabled => return none

/-- The wallet of a deployment that submits; without one the process exits. -/
def createWallet (daemon : WalletDaemon) (wallet : Config.WalletConfig)
    (enforcement : Option LaneEnforcement) :
    Traced StartupEvent StartupError (Option WalletCaller) := do
  Traced.emit (.createsWallet wallet enforcement)
  match WalletCaller.new daemon wallet enforcement with
  | .ok caller => pure (some caller)
  | .error _ => Traced.lift (.err .exits)

/-- The lane and wallet part of `main`. -/
def startWallet (subnets : Subnets) (daemon : WalletDaemon) (config : Config.AppConfig) :
    Traced StartupEvent StartupError (Option WalletCaller) :=
  if config.security.isReadOnly then pure none
  else do
    Traced.emit .resolvesLane
    let enforcement ← Traced.lift
      ((Outcome.ofExcept (laneEnforcement subnets config)).mapErr .failed)
    createWallet daemon config.wallet enforcement

-- ---------------------------------------------------------------------------
-- Lanes
-- ---------------------------------------------------------------------------

/-- A user lane does not have the reserved shape `[x, 0×19]`. -/
theorem IsUserLane.not_reserved {subnets : Subnets} {s : String} {lane : SubnetworkId}
    (h : IsUserLane subnets s lane) : ¬∃ x, lane.bytes = x :: List.replicate 19 0 := by
  intro ⟨x, hx⟩
  obtain ⟨decoded, hfour, -, hbytes, b, hb, hne⟩ := h.namespaceBytes
  have htail : b ∈ lane.bytes.drop 1 := by
    rw [hbytes, List.drop_append_of_le_length (by omega)]
    exact List.mem_append_left _ hb
  rw [hx, List.drop_succ_cons, List.drop_zero] at htail
  exact hne (List.eq_of_mem_replicate htail)

/-- What is enforced: the lane the configured id names, with the miner's prefix. -/
structure EnforcesLane (subnets : Subnets) (config : Config.AppConfig) (s : String)
    (enforcement : LaneEnforcement) : Prop where
  laneId : config.lane.laneId = some s
  nonEmpty : s ≠ ""
  userLane : IsUserLane subnets s enforcement.lane
  notReserved : ¬∃ x, enforcement.lane.bytes = x :: List.replicate 19 0
  txIdPrefix : enforcement.txIdPrefix = config.worker.mining.txIdPrefix
  prefixLength : 1 ≤ enforcement.txIdPrefix.length ∧ enforcement.txIdPrefix.length ≤ 32

/-- The two ways an accepted configuration resolves its lane. -/
inductive LaneDecision (subnets : Subnets) (config : Config.AppConfig) :
    Option LaneEnforcement → Prop where
  | enforced (s : String) (enforcement : LaneEnforcement)
      (hresolve : config.lane.resolve subnets = .ok (.enforced enforcement.lane))
      (hnew : LaneEnforcement.new enforcement.lane config.mining.txIdPrefix = .ok enforcement)
      (h : EnforcesLane subnets config s enforcement) :
      LaneDecision subnets config (some enforcement)
  | disabled (hresolve : config.lane.resolve subnets = .ok .disabled)
      (hunnamed : config.lane.Unnamed) (h : config.lane.enforcementDisabled = true) :
      LaneDecision subnets config none

theorem LaneEnforcement.new_eq_ok {lane : SubnetworkId} {txIdPrefix : List UInt8}
    (h : txIdPrefix ≠ []) :
    LaneEnforcement.new lane txIdPrefix = .ok ⟨lane, txIdPrefix, h⟩ := by
  rw [LaneEnforcement.new, dif_neg h]

/-- Without a lane id, what resolves is that enforcement is off. -/
theorem laneEnforcement_of_unnamed {subnets : Subnets} {config : Config.AppConfig}
    {mode : LaneMode} (hunnamed : config.lane.Unnamed)
    (hresolve : config.lane.resolve subnets = .ok mode) :
    ∃ enforcement, laneEnforcement subnets config = .ok enforcement ∧
      LaneDecision subnets config enforcement := by
  have hcases := hresolve
  rw [LaneConfig.resolve_of_unnamed hunnamed] at hcases
  cases hdisabled : config.lane.enforcementDisabled with
  | false =>
    rw [hdisabled] at hcases
    exact absurd hcases (by simp)
  | true =>
    rw [hdisabled] at hcases
    obtain rfl : LaneMode.disabled = mode := Except.ok.inj hcases
    refine ⟨none, ?_, .disabled hresolve hunnamed hdisabled⟩
    rw [laneEnforcement, hresolve]
    rfl

/-- With a lane id, what resolves is the lane it names. -/
theorem laneEnforcement_of_named {subnets : Subnets} {config : Config.AppConfig}
    {mode : LaneMode} {s : String} (hs : config.lane.laneId = some s) (hne : s ≠ "")
    (hresolve : config.lane.resolve subnets = .ok mode)
    (hmining : config.mining.validate = .ok ()) :
    ∃ enforcement, laneEnforcement subnets config = .ok enforcement ∧
      LaneDecision subnets config enforcement := by
  have hcases := hresolve
  rw [LaneConfig.resolve_of_named hs hne] at hcases
  cases hparse : parseNamespace subnets s with
  | error e =>
    rw [hparse] at hcases
    exact absurd hcases (by simp [Except.map])
  | ok lane =>
    rw [hparse] at hcases
    obtain rfl : LaneMode.enforced lane = mode := Except.ok.inj hcases
    have hprefix := MiningConfig.length_of_validate hmining
    have hnonempty : config.mining.txIdPrefix ≠ [] := List.ne_nil_of_length_pos hprefix.1
    have huser := parseNamespace_eq_ok hparse
    have hnew : LaneEnforcement.new lane config.mining.txIdPrefix =
        .ok ⟨lane, config.mining.txIdPrefix, hnonempty⟩ :=
      LaneEnforcement.new_eq_ok hnonempty
    refine ⟨some ⟨lane, config.mining.txIdPrefix, hnonempty⟩, ?_,
      .enforced s _ hresolve hnew ⟨hs, hne, huser, huser.not_reserved, rfl, hprefix⟩⟩
    rw [laneEnforcement, hresolve]
    show (LaneEnforcement.new lane config.mining.txIdPrefix).mapError _ >>= _ = _
    rw [hnew]
    rfl

/-- **The lane of an accepted configuration**: resolving it does not fail again, nor does
pairing it with the miner's prefix. -/
theorem laneEnforcement_of_accepted {subnets : Subnets} {config : Config.AppConfig}
    (haccepted : config.Accepted subnets) (hmode : config.security.isReadOnly = false) :
    ∃ enforcement, laneEnforcement subnets config = .ok enforcement ∧
      LaneDecision subnets config enforcement := by
  obtain ⟨mode, hresolve⟩ := LaneConfig.validate_eq_ok.mp (haccepted.lane hmode)
  rcases config.lane.unnamed_or_named with hunnamed | ⟨s, hs, hne⟩
  · exact laneEnforcement_of_unnamed hunnamed hresolve
  · exact laneEnforcement_of_named hs hne hresolve haccepted.mining

-- ---------------------------------------------------------------------------
-- The wallet
-- ---------------------------------------------------------------------------

/-- Read-only, startup neither resolves a lane nor creates a wallet. -/
theorem startWallet_readOnly {config : Config.AppConfig}
    (h : config.security.isReadOnly = true) (subnets : Subnets) (daemon : WalletDaemon) :
    startWallet subnets daemon config = ⟨[], .ok none⟩ := by
  rw [startWallet, if_pos h]
  rfl

theorem createWallet_eq (daemon : WalletDaemon) (wallet : Config.WalletConfig)
    (enforcement : Option LaneEnforcement) :
    createWallet daemon wallet enforcement = ⟨[.createsWallet wallet enforcement],
      match daemon wallet with
      | .ok toAddress => .ok (some ⟨toAddress, enforcement⟩)
      | .error _ => .err .exits⟩ := by
  unfold createWallet WalletCaller.new
  cases daemon wallet <;> rfl

/-- Otherwise it creates one wallet, with the lane it resolved. -/
theorem startWallet_of_lane {subnets : Subnets} {config : Config.AppConfig}
    {enforcement : Option LaneEnforcement} (hmode : config.security.isReadOnly = false)
    (hlane : laneEnforcement subnets config = .ok enforcement) (daemon : WalletDaemon) :
    startWallet subnets daemon config =
      ⟨[.resolvesLane, .createsWallet config.wallet enforcement],
        match daemon config.wallet with
        | .ok toAddress => .ok (some ⟨toAddress, enforcement⟩)
        | .error _ => .err .exits⟩ := by
  have hwrite : ¬config.security.isReadOnly = true := by simp [hmode]
  rw [startWallet, if_neg hwrite, hlane]
  show Traced.mk (.resolvesLane :: (createWallet daemon config.wallet enforcement).events)
    (createWallet daemon config.wallet enforcement).outcome = _
  rw [createWallet_eq]

/-- What the startup of an accepted configuration does about lane and wallet. -/
structure StartupAgrees (subnets : Subnets) (daemon : WalletDaemon)
    (config : Config.AppConfig) : Prop where
  /-- Read-only, no lane is resolved and no wallet created. -/
  readOnly : config.security.isReadOnly = true →
    startWallet subnets daemon config = ⟨[], .ok none⟩
  /-- Otherwise the lane resolves, and one wallet is created; the process exits exactly if that
  fails. -/
  readWrite : config.security.isReadOnly = false →
    ∃ enforcement, LaneDecision subnets config enforcement ∧
      (startWallet subnets daemon config).events =
        [.resolvesLane, .createsWallet config.wallet enforcement] ∧
      ((∃ caller, WalletCaller.new daemon config.wallet enforcement = .ok caller ∧
          (startWallet subnets daemon config).outcome = .ok (some caller) ∧
          caller.laneEnforcement = enforcement) ∨
        ∃ error, WalletCaller.new daemon config.wallet enforcement = .error error ∧
          (startWallet subnets daemon config).outcome = .err .exits)
  /-- The wallet enforces a lane exactly when a lane id is given. -/
  enforces : ∀ wallet enforcement,
    .createsWallet wallet enforcement ∈ (startWallet subnets daemon config).events →
      (enforcement.isSome = true ↔ ∃ s, config.lane.laneId = some s ∧ s ≠ "") ∧
      (enforcement = none →
        config.lane.enforcementDisabled = true ∧ config.lane.Unnamed) ∧
      ∀ e, enforcement = some e → ∃ s, EnforcesLane subnets config s e

theorem LaneDecision.isSome_iff {subnets : Subnets} {config : Config.AppConfig}
    {enforcement : Option LaneEnforcement} (h : LaneDecision subnets config enforcement) :
    enforcement.isSome = true ↔ ∃ s, config.lane.laneId = some s ∧ s ≠ "" := by
  cases h with
  | enforced s enforcement hresolve hnew h =>
    exact ⟨fun _ => ⟨s, h.laneId, h.nonEmpty⟩, fun _ => rfl⟩
  | disabled hresolve hunnamed h =>
    refine ⟨fun hsome => absurd hsome (by simp), ?_⟩
    intro ⟨s, hs, hne⟩
    rcases hunnamed with hnone | hempty
    · exact absurd (hs.symm.trans hnone) (by simp)
    · exact absurd (Option.some.inj (hs.symm.trans hempty)) hne

/-- **Startup agrees with validation.** For every configuration that validation accepts,
the lane resolves and pairs with the miner's prefix, and the wallet is created with it;
and two configurations that enforce the same lane have the same lane id. -/
theorem startup_agrees {subnets : Subnets} (daemon : WalletDaemon)
    {config : Config.AppConfig} (h : config.validateConfig subnets = .ok ()) :
    StartupAgrees subnets daemon config ∧
    ∀ other s t e e', EnforcesLane subnets config s e → EnforcesLane subnets other t e' →
      e.lane = e'.lane → s = t := by
  have haccepted := Config.AppConfig.validateConfig_eq_ok.mp h
  refine ⟨⟨fun hmode => startWallet_readOnly hmode subnets daemon, ?_, ?_⟩, ?_⟩
  · intro hmode
    obtain ⟨enforcement, hlane, hdecision⟩ := laneEnforcement_of_accepted haccepted hmode
    rw [startWallet_of_lane hmode hlane]
    refine ⟨enforcement, hdecision, rfl, ?_⟩
    rw [WalletCaller.new]
    cases daemon config.wallet with
    | ok toAddress => exact Or.inl ⟨⟨toAddress, enforcement⟩, rfl, rfl, rfl⟩
    | error e => exact Or.inr ⟨e, rfl, rfl⟩
  · intro wallet enforcement hevent
    cases hmode : config.security.isReadOnly with
    | true =>
      rw [startWallet_readOnly hmode] at hevent
      exact absurd hevent (by simp)
    | false =>
      obtain ⟨made, hlane, hdecision⟩ := laneEnforcement_of_accepted haccepted hmode
      rw [startWallet_of_lane hmode hlane daemon] at hevent
      obtain rfl : enforcement = made := by
        simp only [List.mem_cons, reduceCtorEq, StartupEvent.createsWallet.injEq,
          List.not_mem_nil, or_false, false_or] at hevent
        exact hevent.2
      refine ⟨hdecision.isSome_iff, ?_, ?_⟩
      · rintro rfl
        cases hdecision with
        | disabled hresolve hunnamed h => exact ⟨h, hunnamed⟩
      · rintro e rfl
        cases hdecision with
        | enforced s enforcement hresolve hnew h => exact ⟨s, h⟩
  · intro other s t e e' hs ht hlane
    have hlane' := hs.userLane
    rw [hlane] at hlane'
    exact hlane'.injective ht.userLane

/-! ### A deployment on the lane `97b10000` -/

/-- Kaspa's reserved ids: native `[0×20]`, coinbase `[1, 0×19]` and registry `[2, 0×19]`. -/
def kaspaSubnets : Subnets where
  isNative id := id.bytes == List.replicate 20 0
  isBuiltin id := id.bytes == 1 :: List.replicate 19 0 || id.bytes == 2 :: List.replicate 19 0
  display id := hexEncode id.bytes
  debugText := Value.quote

def laneDeployment : Config.AppConfig where
  server := ⟨"0.0.0.0", 8535⟩
  proxy := Config.ProxyConfig.withElUrl "http://localhost:8545"
  wallet := ⟨"http://localhost:8082",
    "kaspatest:qpv8hxvmtvu0tjruup8y5ggqnx9qt5cre32vxrk8073v28w94g99xt57cy60h"⟩
  security := SecurityConfig.new
  mining := MiningConfig.default
  lane := ⟨some "97b10000", false⟩
  gas := GasConfig.default
  retry := RetryConfig.default

theorem laneDeployment_validates : laneDeployment.validateConfig kaspaSubnets = .ok () := by
  rfl

/-- A daemon that is reached under the configured address. -/
def reachedDaemon : WalletDaemon := fun wallet => .ok wallet.toAddress

theorem startup_agrees_laneDeployment :
    StartupAgrees kaspaSubnets reachedDaemon laneDeployment :=
  (startup_agrees reachedDaemon laneDeployment_validates).1

end IgraRpc
