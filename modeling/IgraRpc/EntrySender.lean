import IgraRpc.Clients.LastGate
import IgraRpc.Services.EntryRequest
import IgraRpc.Services.Submissions

/-!
# The entry sender — `bin/entry_transaction_sender.rs`, `services/entry_transaction.rs`

The command line tool checks its arguments, loads the configuration, connects the wallet and
submits one entry transaction. What it did is told by its exit code.

* `entryLane_eq_ok` — the tool enforces what `main` enforces, read-only or not;
* `entrySender_sound` — **once the command line is parsed, the exit code says what happened**:
  1 before anything is touched, 2 before a wallet is reached, 0 exactly if a broadcast was
  acknowledged; and in every run at most one list is signed and broadcast, for the configured
  lane and with the address and the amount of the arguments.

Parsing the command line is a parameter, like reading the configuration's sources and
connecting to the daemon: clap ends the process by itself, with codes of its own.
-/

namespace IgraRpc

open Lib

-- ---------------------------------------------------------------------------
-- The code
-- ---------------------------------------------------------------------------

/-- What the tool does to the outside. -/
inductive EntryEvent where
  | loadsConfig
  | connects (wallet : Config.WalletConfig) (laneEnforcement : Option LaneEnforcement)
  | wallet (event : WalletEvent)

/-- How clap ends the process: on a command line that it cannot parse, or when help or the
version was asked for. -/
inductive ClapExit where
  | usage
  | informed
  deriving DecidableEq, Repr

def ClapExit.toNat : ClapExit → Nat
  | usage => 2
  | informed => 0

/-- `Args::parse`. -/
abbrev ArgsParse := List String → Except ClapExit EntryArgs

/-- `EntryTransactionError` of a whole run, and the end that clap makes of one. A wallet that
is not reached is an error of the wallet, like those of `EntryTransactionError.wallet`. -/
inductive EntryRunError where
  | clap (exit : ClapExit)
  | config (reason : String)
  | connecting (reason : String)
  | request (error : EntryTransactionError)

/-- `ExitCode`. -/
inductive ExitCode where
  | success
  | validationError
  | configError
  | walletError
  deriving DecidableEq, Repr

/-- The code as the shell sees it. -/
def ExitCode.toNat : ExitCode → Nat
  | success => 0
  | validationError => 1
  | configError => 2
  | walletError => 3

/-- `App::handle_error`, which a run that clap ended does not reach. -/
def EntryRunError.exitCode : EntryRunError → Nat
  | clap exit => exit.toNat
  | request (.validation _) => ExitCode.validationError.toNat
  | config _ => ExitCode.configError.toNat
  | connecting _ => ExitCode.walletError.toNat
  | request (.wallet _) => ExitCode.walletError.toNat
  | request (.serialization _) => ExitCode.walletError.toNat

/-- `AppConfig::load`: what the sources give, checked. -/
def loadConfig (subnets : Subnets) (sources : Except String Config.AppConfig) :
    Except AppError Config.AppConfig := do
  let config ← sources.mapError .configError
  config.validateConfig subnets
  return config

/-- The lane of the service: `resolve` and `LaneEnforcement::new`. -/
def entryLane (subnets : Subnets) (config : Config.AppConfig) :
    Except String (Option LaneEnforcement) := do
  let mode ← config.lane.resolve subnets
  match mode with
  | .enforced id =>
    let enforcement ← LaneEnforcement.new id config.mining.txIdPrefix
    return some enforcement
  | .disabled => return none

/-- `EntryTransactionService::new`. -/
def EntryTransactionService.new (subnets : Subnets) (daemon : WalletDaemon)
    (sources : Except String Config.AppConfig) :
    Traced EntryEvent EntryRunError EntryTransactionService := do
  Traced.emit .loadsConfig
  let config ← Traced.lift
    ((Outcome.ofExcept (loadConfig subnets sources)).mapErr fun e => .config e.display)
  let enforcement ← Traced.lift ((Outcome.ofExcept (entryLane subnets config)).mapErr .config)
  Traced.emit (.connects config.wallet enforcement)
  let walletCaller ← Traced.lift
    ((Outcome.ofExcept (WalletCaller.new daemon config.wallet enforcement)).mapErr .connecting)
  return { walletCaller, miningConfig := config.mining, retryConfig := config.retry }

/-- `EntryTransactionService::process_transaction`, in a run. -/
def EntryTransactionService.send (K : Consensus) (service : EntryTransactionService)
    (env : WalletEnv) (request : EntryTransactionRequest) :
    Traced EntryEvent EntryRunError String :=
  let sent := service.processTransaction K env request
  ⟨sent.events.map .wallet, sent.outcome.mapErr .request⟩

/-- What a run meets outside: the libraries, the configuration's sources, the daemon. -/
structure EntryWorld where
  parseArgs : ArgsParse
  tryKaspaStrToSompi : KaspaStrToSompi
  constructor : KaspaAddress
  subnets : Subnets
  sources : Except String Config.AppConfig
  daemon : WalletDaemon
  env : WalletEnv

/-- `App::run`, on a command line. -/
def EntryWorld.run (K : Consensus) (world : EntryWorld) (argv : List String) :
    Traced EntryEvent EntryRunError String := do
  let args ← Traced.lift ((Outcome.ofExcept (world.parseArgs argv)).mapErr .clap)
  let request ← Traced.lift ((Outcome.ofExcept
    (validateAndParseRequest world.tryKaspaStrToSompi world.constructor args)).mapErr .request)
  let service ← EntryTransactionService.new world.subnets world.daemon world.sources
  service.send K world.env request

/-- `main`: the exit code for how a run ended; a panic has none of these. -/
def exitCode : Outcome EntryRunError String → Option Nat
  | .ok _ => some ExitCode.success.toNat
  | .err e => some e.exitCode
  | .panicked => none

/-- The calls of a run to the wallet daemon. -/
def walletCalls (events : List EntryEvent) : List WalletEvent :=
  events.filterMap fun
    | .wallet event => some event
    | _ => none

-- ---------------------------------------------------------------------------
-- The lane
-- ---------------------------------------------------------------------------

/-- **The tool enforces what `main` enforces**, though it words its errors otherwise. -/
theorem entryLane_eq_ok {subnets : Subnets} {config : Config.AppConfig}
    {enforcement : Option LaneEnforcement} :
    entryLane subnets config = .ok enforcement ↔
      laneEnforcement subnets config = .ok enforcement := by
  rw [entryLane, laneEnforcement]
  cases config.lane.resolve subnets with
  | error e => simp [Except.mapError, bind, Except.bind]
  | ok mode =>
    simp only [Except.mapError, bind, Except.bind]
    cases mode with
    | disabled => simp [pure, Except.pure]
    | enforced id =>
      cases hmade : LaneEnforcement.new id config.mining.txIdPrefix with
      | error e => simp [hmade]
      | ok made => simp [hmade, pure, Except.pure]

-- ---------------------------------------------------------------------------
-- How a run ends
-- ---------------------------------------------------------------------------

/-- The service a configuration gives. -/
def entryService (config : Config.AppConfig) (walletCaller : WalletCaller) :
    EntryTransactionService :=
  { walletCaller, miningConfig := config.mining, retryConfig := config.retry }

/-- The sources give a configuration, and it a lane to enforce or none. -/
def Configured (world : EntryWorld) : Prop :=
  ∃ config enforcement, loadConfig world.subnets world.sources = .ok config ∧
    entryLane world.subnets config = .ok enforcement

/-- The four ways of a run: the arguments are turned down, there is no usable configuration,
the wallet is not reached, or the request is sent. -/
inductive EntryEnd (K : Consensus) (world : EntryWorld) (args : EntryArgs) :
    Traced EntryEvent EntryRunError String → Prop where
  | rejected (reason : String)
      (hargs : validateAndParseRequest world.tryKaspaStrToSompi world.constructor args =
        .error (.validation reason)) :
      EntryEnd K world args ⟨[], .err (.request (.validation reason))⟩
  | unconfigured (request : EntryTransactionRequest) (reason : String)
      (hargs : validateAndParseRequest world.tryKaspaStrToSompi world.constructor args =
        .ok request)
      (hnone : ¬Configured world) :
      EntryEnd K world args ⟨[.loadsConfig], .err (.config reason)⟩
  | unconnected (request : EntryTransactionRequest) (config : Config.AppConfig)
      (enforcement : Option LaneEnforcement) (reason : String)
      (hargs : validateAndParseRequest world.tryKaspaStrToSompi world.constructor args =
        .ok request)
      (hconfig : loadConfig world.subnets world.sources = .ok config)
      (hlane : entryLane world.subnets config = .ok enforcement) :
      EntryEnd K world args
        ⟨[.loadsConfig, .connects config.wallet enforcement], .err (.connecting reason)⟩
  | sent (request : EntryTransactionRequest) (config : Config.AppConfig)
      (enforcement : Option LaneEnforcement) (toAddress : String)
      (hargs : validateAndParseRequest world.tryKaspaStrToSompi world.constructor args =
        .ok request)
      (hconfig : loadConfig world.subnets world.sources = .ok config)
      (hlane : entryLane world.subnets config = .ok enforcement) :
      EntryEnd K world args
        ⟨.loadsConfig :: .connects config.wallet enforcement ::
          ((entryService config ⟨toAddress, enforcement⟩).processTransaction K world.env
            request).events.map .wallet,
        ((entryService config ⟨toAddress, enforcement⟩).processTransaction K world.env
          request).outcome.mapErr .request⟩

/-- Creating the service, when the configuration or its lane fails. -/
theorem new_of_unconfigured {world : EntryWorld} (h : ¬Configured world) :
    ∃ reason, EntryTransactionService.new world.subnets world.daemon world.sources =
      ⟨[.loadsConfig], .err (.config reason)⟩ := by
  rw [EntryTransactionService.new, Traced.bind_of_ok (a := ()) rfl]
  cases hconfig : loadConfig world.subnets world.sources with
  | error e => exact ⟨e.display, rfl⟩
  | ok config =>
    rw [Traced.bind_of_ok (a := config) rfl]
    cases hlane : entryLane world.subnets config with
    | error reason => exact ⟨reason, rfl⟩
    | ok enforcement => exact absurd ⟨config, enforcement, hconfig, hlane⟩ h

/-- Creating the service, with a configuration and its lane. -/
theorem new_of_configured {subnets : Subnets} {sources : Except String Config.AppConfig}
    {config : Config.AppConfig} {enforcement : Option LaneEnforcement} (daemon : WalletDaemon)
    (hconfig : loadConfig subnets sources = .ok config)
    (hlane : entryLane subnets config = .ok enforcement) :
    EntryTransactionService.new subnets daemon sources =
      ⟨[.loadsConfig, .connects config.wallet enforcement],
        match daemon config.wallet with
        | .error reason => .err (.connecting reason)
        | .ok toAddress => .ok (entryService config ⟨toAddress, enforcement⟩)⟩ := by
  rw [EntryTransactionService.new, Traced.bind_of_ok (a := ()) rfl, hconfig,
    Traced.bind_of_ok (a := config) rfl, hlane, Traced.bind_of_ok (a := enforcement) rfl,
    Traced.bind_of_ok (a := ()) rfl, WalletCaller.new]
  cases daemon config.wallet with
  | error reason => rfl
  | ok toAddress => rfl

theorem run_entryEnd (K : Consensus) {world : EntryWorld} {argv : List String} {args : EntryArgs}
    (hparse : world.parseArgs argv = .ok args) : EntryEnd K world args (world.run K argv) := by
  rw [EntryWorld.run, hparse, Traced.bind_of_ok (a := args) rfl]
  cases hargs : validateAndParseRequest world.tryKaspaStrToSompi world.constructor args with
  | error e =>
    obtain ⟨reason, rfl⟩ := isValidation_request _ _ _ e hargs
    exact .rejected reason hargs
  | ok request =>
    rw [Traced.bind_of_ok (a := request) rfl]
    by_cases hconfigured : Configured world
    · obtain ⟨config, enforcement, hconfig, hlane⟩ := hconfigured
      rw [new_of_configured world.daemon hconfig hlane]
      cases world.daemon config.wallet with
      | error reason =>
        exact .unconnected request config enforcement reason hargs hconfig hlane
      | ok toAddress => exact .sent request config enforcement toAddress hargs hconfig hlane
    · obtain ⟨reason, hnew⟩ := new_of_unconfigured hconfigured
      rw [hnew]
      exact .unconfigured request reason hargs hconfigured

-- ---------------------------------------------------------------------------
-- Sending
-- ---------------------------------------------------------------------------

/-- Sending submits once, whatever the daemon answers. -/
theorem processTransaction_submitsOnce (K : Consensus) (service : EntryTransactionService)
    (env : WalletEnv) (request : EntryTransactionRequest) :
    SubmitsOnce env (service.processTransaction K env request).events
      (isOk (service.processTransaction K env request).outcome) := by
  simp only [EntryTransactionService.processTransaction]
  cases serializePayload (entryPayload (L2Data.new request.l2Address request.amountSompi)) with
  | error e => exact SigningEnd.submitsOnce (.unsigned ⟨rfl, rfl⟩)
  | ok serialized =>
    simp only [isOk_mapErr]
    exact (mineAndSend_signingEnd ..).submitsOnce

/-- With lane enforcement on, sending signs for the lane only. -/
theorem processTransaction_signs {K : Consensus} {service : EntryTransactionService}
    {e : LaneEnforcement} {env : WalletEnv} {request : EntryTransactionRequest}
    {transactions : List Proto.WalletSignableTransaction}
    (hlane : service.walletCaller.laneEnforcement = some e)
    (h : .sign transactions ∈ (service.processTransaction K env request).events) :
    ListConforms K e transactions := by
  obtain ⟨⟨toAddress, enforcement⟩, miningConfig, retryConfig⟩ := service
  obtain rfl : enforcement = some e := hlane
  simp only [EntryTransactionService.processTransaction] at h
  cases hserialize : serializePayload
      (entryPayload (L2Data.new request.l2Address request.amountSompi)) with
  | error error =>
    simp only [hserialize] at h
    exact absurd h List.not_mem_nil
  | ok serialized =>
    simp only [hserialize] at h
    exact mineAndSend_signs h

/-- An error of sending is not one of the arguments. -/
theorem processTransaction_ne_validation (K : Consensus) (service : EntryTransactionService)
    (env : WalletEnv) (request : EntryTransactionRequest) (reason : String) :
    (service.processTransaction K env request).outcome ≠ .err (.validation reason) := by
  simp only [EntryTransactionService.processTransaction]
  cases serializePayload (entryPayload (L2Data.new request.l2Address request.amountSompi)) with
  | error e => simp
  | ok serialized =>
    simp only
    generalize (mineAndSendTransactionWithRetry ..).outcome = outcome
    cases outcome <;> simp

-- ---------------------------------------------------------------------------
-- Every run
-- ---------------------------------------------------------------------------

/-- The calls of a service to its wallet are the calls of the run. -/
theorem walletCalls_map (events : List WalletEvent) :
    walletCalls (events.map .wallet) = events := by
  rw [walletCalls, List.filterMap_map]
  exact List.filterMap_some

/-- What the exit code of a run with these arguments tells, and what the run may have done. -/
structure SenderAccount (K : Consensus) (world : EntryWorld) (args : EntryArgs)
    (result : Traced EntryEvent EntryRunError String) : Prop where
  invalid : exitCode result.outcome = some 1 ↔
    ∀ request, validateAndParseRequest world.tryKaspaStrToSompi world.constructor args ≠
      .ok request
  untouched : exitCode result.outcome = some 1 → result.events = []
  unconfigured : exitCode result.outcome = some 2 ↔
    (∃ request, validateAndParseRequest world.tryKaspaStrToSompi world.constructor args =
      .ok request) ∧ ¬Configured world
  unconnected : exitCode result.outcome = some 2 → result.events = [.loadsConfig]
  success : exitCode result.outcome = some 0 ↔
    (broadcastLists (walletCalls result.events)).any (fun transactions =>
      (world.env.broadcastReply transactions).acknowledges) = true
  once : SubmitsOnce world.env (walletCalls result.events) (isOk result.outcome)
  requested : ∀ params, .create params ∈ walletCalls result.events → ∃ request,
    validateAndParseRequest world.tryKaspaStrToSompi world.constructor args = .ok request ∧
      ∃ bytes, serializePayload
          (entryPayload (L2Data.new request.l2Address request.amountSompi)) = .ok bytes ∧
        params = .entryTransaction request.recipient request.amountSompi bytes
  connected : ∀ wallet enforcement, .connects wallet enforcement ∈ result.events →
    ∃ config, loadConfig world.subnets world.sources = .ok config ∧ wallet = config.wallet ∧
      laneEnforcement world.subnets config = .ok enforcement
  gated : ∀ wallet e, .connects wallet (some e) ∈ result.events →
    ∀ transactions ∈ signedLists (walletCalls result.events), ListConforms K e transactions

/-- The exit code of a run that clap lets pass is 0 exactly if the run is a success. -/
theorem exitCode_eq_zero {outcome : Outcome EntryRunError String}
    (hclap : ∀ exit, outcome ≠ .err (.clap exit)) :
    exitCode outcome = some 0 ↔ isOk outcome = true := by
  cases outcome with
  | ok txId => simp [exitCode, isOk, ExitCode.toNat]
  | panicked => simp [exitCode, isOk]
  | err e =>
    cases e with
    | clap exit => exact absurd rfl (hclap exit)
    | config => simp [exitCode, isOk, ExitCode.toNat, EntryRunError.exitCode]
    | connecting => simp [exitCode, isOk, ExitCode.toNat, EntryRunError.exitCode]
    | request error =>
      cases error <;> simp [exitCode, isOk, ExitCode.toNat, EntryRunError.exitCode]

/-- An error of sending is not one of clap. -/
theorem mapErr_request_ne_clap (outcome : Outcome EntryTransactionError String)
    (exit : ClapExit) : outcome.mapErr EntryRunError.request ≠ .err (.clap exit) := by
  cases outcome <;> simp

/-- Sending exits neither like a run of invalid arguments nor like an unconfigured one. -/
theorem exitCode_sent {K : Consensus} {service : EntryTransactionService} {env : WalletEnv}
    {request : EntryTransactionRequest} {code : Nat}
    (h : exitCode ((service.processTransaction K env request).outcome.mapErr .request) =
      some code) : code ≠ 1 ∧ code ≠ 2 := by
  have hvalidation := processTransaction_ne_validation K service env request
  revert h hvalidation
  generalize (service.processTransaction K env request).outcome = outcome
  intro h hvalidation
  cases outcome with
  | panicked => exact absurd h (by simp [exitCode])
  | ok txId =>
    simp only [Outcome.mapErr_ok, exitCode, ExitCode.toNat, Option.some.injEq] at h
    omega
  | err e =>
    cases e with
    | validation reason => exact absurd rfl (hvalidation reason)
    | wallet error =>
      simp only [Outcome.mapErr_err, exitCode, EntryRunError.exitCode, ExitCode.toNat,
        Option.some.injEq] at h
      omega
    | serialization reason =>
      simp only [Outcome.mapErr_err, exitCode, EntryRunError.exitCode, ExitCode.toNat,
        Option.some.injEq] at h
      omega

/-- A run that makes no call to the wallet submits nothing. -/
theorem submitsOnce_nil (env : WalletEnv) : SubmitsOnce env [] false :=
  SigningEnd.submitsOnce (.unsigned ⟨rfl, rfl⟩)

/-- A run with arguments that clap has parsed. -/
theorem senderAccount_of_parsed (K : Consensus) {world : EntryWorld} {argv : List String}
    {args : EntryArgs} (hparse : world.parseArgs argv = .ok args) :
    SenderAccount K world args (world.run K argv) := by
  have hend := run_entryEnd K hparse
  have hsuccess : ∀ {result : Traced EntryEvent EntryRunError String},
      (∀ exit, result.outcome ≠ .err (.clap exit)) →
      SubmitsOnce world.env (walletCalls result.events) (isOk result.outcome) →
        (exitCode result.outcome = some 0 ↔
          (broadcastLists (walletCalls result.events)).any (fun transactions =>
            (world.env.broadcastReply transactions).acknowledges) = true) := by
    intro result hclap honce
    rw [exitCode_eq_zero hclap, honce.acknowledged]
  generalize world.run K argv = result at hend ⊢
  cases hend with
  | rejected reason hargs =>
    have honce := submitsOnce_nil world.env
    refine ⟨?_, fun _ => rfl, ?_, ?_, hsuccess (by simp) honce, honce, ?_, ?_, ?_⟩
    · simp [exitCode, EntryRunError.exitCode, ExitCode.toNat, hargs]
    · simp [exitCode, EntryRunError.exitCode, ExitCode.toNat, hargs]
    · simp [exitCode, EntryRunError.exitCode, ExitCode.toNat]
    · exact fun params h => absurd h List.not_mem_nil
    · exact fun wallet enforcement h => absurd h List.not_mem_nil
    · exact fun wallet e h => absurd h List.not_mem_nil
  | unconfigured request reason hargs hnone =>
    have honce := submitsOnce_nil world.env
    refine ⟨?_, ?_, ?_, fun _ => rfl, hsuccess (by simp) honce, honce, ?_, ?_, ?_⟩
    · simp [exitCode, EntryRunError.exitCode, ExitCode.toNat, hargs]
    · simp [exitCode, EntryRunError.exitCode, ExitCode.toNat]
    · simp [exitCode, EntryRunError.exitCode, ExitCode.toNat, hargs, hnone]
    · exact fun params h => absurd h List.not_mem_nil
    · exact fun wallet enforcement h => absurd h (by simp)
    · exact fun wallet e h => absurd h (by simp)
  | unconnected request config enforcement reason hargs hconfig hlane =>
    have honce := submitsOnce_nil world.env
    have hconfigured : Configured world := ⟨config, enforcement, hconfig, hlane⟩
    refine ⟨?_, ?_, ?_, ?_, hsuccess (by simp) honce, honce, ?_, ?_, ?_⟩
    · simp [exitCode, EntryRunError.exitCode, ExitCode.toNat, hargs]
    · simp [exitCode, EntryRunError.exitCode, ExitCode.toNat]
    · simp [exitCode, EntryRunError.exitCode, ExitCode.toNat, hconfigured]
    · simp [exitCode, EntryRunError.exitCode, ExitCode.toNat]
    · exact fun params h => absurd h List.not_mem_nil
    · intro wallet made h
      obtain ⟨rfl, rfl⟩ : wallet = config.wallet ∧ made = enforcement := by simpa using h
      exact ⟨config, hconfig, rfl, entryLane_eq_ok.mp hlane⟩
    · exact fun wallet e _ transactions h => absurd h List.not_mem_nil
  | sent request config enforcement toAddress hargs hconfig hlane =>
    have hconfigured : Configured world := ⟨config, enforcement, hconfig, hlane⟩
    have hcalls : ∀ events : List WalletEvent, walletCalls (.loadsConfig ::
        .connects config.wallet enforcement :: events.map .wallet) = events :=
      walletCalls_map
    have hconnects : ∀ {wallet made} {events : List WalletEvent},
        .connects wallet made ∈ (.loadsConfig :: .connects config.wallet enforcement ::
          events.map .wallet : List EntryEvent) → wallet = config.wallet ∧ made = enforcement := by
      intro wallet made events h
      simpa using h
    have honce := processTransaction_submitsOnce K (entryService config ⟨toAddress, enforcement⟩)
      world.env request
    rw [← isOk_mapErr EntryRunError.request] at honce
    refine ⟨?_, ?_, ?_, ?_, hsuccess (fun exit => mapErr_request_ne_clap _ exit) ?_, ?_, ?_, ?_, ?_⟩
    · refine ⟨fun h => absurd rfl (exitCode_sent h).1, fun h => absurd hargs (h request)⟩
    · exact fun h => absurd rfl (exitCode_sent h).1
    · exact ⟨fun h => absurd rfl (exitCode_sent h).2, fun h => absurd hconfigured h.2⟩
    · exact fun h => absurd rfl (exitCode_sent h).2
    · rw [hcalls]
      exact honce
    · rw [hcalls]
      exact honce
    · intro params h
      rw [hcalls] at h
      obtain ⟨bytes, hserialize, -, rfl⟩ := create_mem_processTransaction.mp h
      exact ⟨request, hargs, bytes, hserialize, rfl⟩
    · intro wallet made h
      obtain ⟨rfl, rfl⟩ := hconnects h
      exact ⟨config, hconfig, rfl, entryLane_eq_ok.mp hlane⟩
    · intro wallet e h transactions hsigned
      obtain ⟨-, henforced⟩ := hconnects h
      rw [hcalls, mem_signedLists] at hsigned
      exact processTransaction_signs henforced.symm hsigned

/-- **Once clap has parsed the arguments the exit code says what happened**, and in every run at
most one list is signed and broadcast: for the configured lane, with the address and the amount
of the arguments. Otherwise clap's exit is all there is. -/
theorem entrySender_sound (K : Consensus) (world : EntryWorld) (argv : List String) :
    (∀ args, world.parseArgs argv = .ok args → SenderAccount K world args (world.run K argv)) ∧
    ∀ exit, world.parseArgs argv = .error exit →
      (world.run K argv).events = [] ∧ exitCode (world.run K argv).outcome = some exit.toNat := by
  refine ⟨fun args hparse => senderAccount_of_parsed K hparse, fun exit hparse => ?_⟩
  have hrun : world.run K argv = ⟨[], .err (.clap exit)⟩ := by
    rw [EntryWorld.run, hparse]
    rfl
  rw [hrun]
  exact ⟨rfl, rfl⟩

-- ---------------------------------------------------------------------------
-- Three command lines
-- ---------------------------------------------------------------------------

/-- The tool in a deployment with a lane, before a daemon that never answers. -/
def laneSender : EntryWorld where
  parseArgs
    | ["--help"] => .error .informed
    | [recipient, amount, l2Address] => .ok { recipient, amount, l2Address }
    | _ => .error .usage
  tryKaspaStrToSompi := strictKaspaStrToSompi
  constructor := some
  subnets := kaspaSubnets
  sources := .ok laneDeployment
  daemon := reachedDaemon
  env := silentDaemon

def laneArgv (amount : String) : List String :=
  ["kaspa:q", amount, "0x0000000000000000000000000000000000000001"]

/-- Too little to send, an amount that is never broadcast, and a call for help. -/
theorem entrySender_sound_laneSender :
    (exitCode (laneSender.run toccataConsensus (laneArgv "0.5")).outcome = some 1 ∧
      (laneSender.run toccataConsensus (laneArgv "0.5")).events = []) ∧
    exitCode (laneSender.run toccataConsensus (laneArgv "1.5")).outcome ≠ some 0 ∧
    exitCode (laneSender.run toccataConsensus (laneArgv "1.5")).outcome ≠ some 1 ∧
    exitCode (laneSender.run toccataConsensus ["--help"]).outcome = some 0 := by
  have hsmall := (entrySender_sound toccataConsensus laneSender (laneArgv "0.5")).1 _ rfl
  have hsent := (entrySender_sound toccataConsensus laneSender (laneArgv "1.5")).1 _ rfl
  have hinvalid := hsmall.invalid.mpr fun request hrequest => by
    have herror : validateAndParseRequest laneSender.tryKaspaStrToSompi laneSender.constructor
        ⟨"kaspa:q", "0.5", "0x0000000000000000000000000000000000000001"⟩ =
          .error (.validation "Amount must be at least 1 KAS") := rfl
    exact absurd (herror.symm.trans hrequest) (by simp)
  refine ⟨⟨hinvalid, hsmall.untouched hinvalid⟩, ?_, ?_,
    ((entrySender_sound toccataConsensus laneSender ["--help"]).2 _ rfl).2⟩
  · intro hzero
    obtain ⟨transactions, -, hacknowledged⟩ := List.any_eq_true.mp (hsent.success.mp hzero)
    exact absurd hacknowledged Bool.false_ne_true
  · intro hone
    exact hsent.invalid.mp hone _ rfl

end IgraRpc
