import IgraRpc.Lib.Outcome
import IgraRpc.Lib.Lts
import IgraRpc.Lib.Channel
import IgraRpc.Lib.Result
import IgraRpc.Lib.Window
import IgraRpc.Types.Rpc
import IgraRpc.Types.WalletRoundTrip
import IgraRpc.Error
import IgraRpc.Errors
import IgraRpc.Services.Worker
import IgraRpc.Services.AcceptedTransactions
import IgraRpc.Services.MiningFrame
import IgraRpc.Api.Batches
import IgraRpc.Types.WalletEntries
import IgraRpc.Services.TransactionType
import IgraRpc.Services.MiningRounds
import IgraRpc.Services.FeeOracle
import IgraRpc.Startup
import IgraRpc.Api.WsConnection
import IgraRpc.Api.BatchOrder
import IgraRpc.Services.FeeFetches
import IgraRpc.Services.FeeFloor
import IgraRpc.Clients.Retries
import IgraRpc.Config.WsUrl
import IgraRpc.Services.Amount
import IgraRpc.Tools.Duration
import IgraRpc.Tools.Metrics
import IgraRpc.Tools.Parser
import IgraRpc.Tools.MiningEvents
import IgraRpc.Tools.PlainLines
import IgraRpc.Tools.FixedMinHeap
import IgraRpc.Services.MiningCount
import IgraRpc.Config.MiningEstimate
import IgraRpc.Services.Submissions
import IgraRpc.Services.ReadOnL1
import IgraRpc.Services.Promises
import IgraRpc.Config.MiningPrefix
import IgraRpc.Clients.LastGate
import IgraRpc.Services.EntryRequest
import IgraRpc.EntrySender
import IgraRpc.Tools.SlidingWindow
import IgraRpc.Tools.CumulativeTotals
import IgraRpc.Tools.Analyzer
import IgraRpc.Tools.LineReader
import IgraRpc.Types.Forwarding
import IgraRpc.Clients.PlainCaller
import IgraRpc.Api.WsWire
import IgraRpc.Api.WsServer
import IgraRpc.Api.WsRecovery
