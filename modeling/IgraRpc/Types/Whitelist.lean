import IgraRpc.Types.Json

/-!
# Methods and who may call them — `types/whitelist.rs`, `config/security.rs`

* `allowedMethods` — the methods the whitelist lets through;
* `isWriteMethod` — the methods a read-only deployment refuses;
* `isWriteMethod_of_allowed` — behind the whitelist the only write method is
  `eth_sendRawTransaction`.
-/

namespace IgraRpc

/-- Access rules of a deployment. -/
structure SecurityConfig where
  enableWhitelist : Bool
  readOnly : Bool
  deriving DecidableEq, Repr

/-- `SecurityConfig::new`. -/
def SecurityConfig.new : SecurityConfig where
  enableWhitelist := true
  readOnly := false

/-- `is_read_only`. -/
def SecurityConfig.isReadOnly (config : SecurityConfig) : Bool := config.readOnly

/-- `ALLOWED_METHODS`. -/
def allowedMethods : List String :=
  ["eth_accounts", "eth_blockNumber", "eth_call", "eth_chainId", "eth_coinbase",
    "eth_estimateGas", "eth_feeHistory", "eth_gasPrice", "eth_getBalance",
    "eth_getBlockByHash", "eth_getBlockByNumber", "eth_getBlockTransactionCountByHash",
    "eth_getBlockTransactionCountByNumber", "eth_getCode", "eth_getFilterChanges",
    "eth_getFilterLogs", "eth_getLogs", "eth_getProof", "eth_getStorageAt",
    "eth_getTransactionByBlockHashAndIndex", "eth_getTransactionByBlockNumberAndIndex",
    "eth_getTransactionByHash", "eth_getRawTransactionByHash", "eth_getTransactionCount",
    "eth_getTransactionReceipt", "eth_getBlockReceipts", "eth_getUncleByBlockHashAndIndex",
    "eth_getUncleByBlockNumberAndIndex", "eth_getUncleCountByBlockHash",
    "eth_getUncleCountByBlockNumber", "eth_hashrate", "eth_maxPriorityFeePerGas",
    "eth_mining", "eth_newBlockFilter", "eth_newFilter", "eth_newPendingTransactionFilter",
    "eth_protocolVersion", "eth_sendRawTransaction", "eth_subscribe", "eth_syncing",
    "eth_uninstallFilter", "eth_unsubscribe",
    "net_listening", "net_peerCount", "net_version",
    "web3_clientVersion", "web3_sha3",
    "debug_traceTransaction", "debug_traceCall"]

/-- `is_method_allowed`. -/
def isMethodAllowed (method : String) : Bool := allowedMethods.contains method

/-- `starts_with`. -/
def startsWith (method pattern : String) : Bool := pattern.toList.isPrefixOf method.toList

/-- `is_write_method`. -/
def isWriteMethod (method : String) : Bool :=
  method == "eth_sendRawTransaction" || method == "eth_sendTransaction" ||
    startsWith method "personal_" || startsWith method "admin_"

/-- Behind the whitelist, submitting a raw transaction is the only write. -/
theorem isWriteMethod_of_allowed {method : String} (hallowed : isMethodAllowed method = true)
    (hwrite : isWriteMethod method = true) : method = "eth_sendRawTransaction" := by
  have hall : ∀ m ∈ allowedMethods, isWriteMethod m = true → m = "eth_sendRawTransaction" := by
    decide +kernel
  exact hall method (List.contains_iff_mem.mp hallowed) hwrite

end IgraRpc
