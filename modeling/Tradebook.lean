import Tradebook.Account
import Tradebook.Account.Codec
import Tradebook.Broadcast
import Tradebook.Cli.Arguments
import Tradebook.Cli.Help
import Tradebook.Cli.Program
import Tradebook.Cli.Usage
import Tradebook.Config
import Tradebook.Config.Sessions
import Tradebook.Crypto.Hmac
import Tradebook.Crypto.Sha256
import Tradebook.Database
import Tradebook.Decimal
import Tradebook.Decimal.Arith
import Tradebook.Decimal.Shortest
import Tradebook.Decimal.Text
import Tradebook.Discovery
import Tradebook.Exchange
import Tradebook.Exchange.Simulated
import Tradebook.Ftx.BookStream
import Tradebook.Ftx.Client
import Tradebook.Ftx.Config
import Tradebook.Ftx.Frame
import Tradebook.Ftx.Row
import Tradebook.Ftx.Signature
import Tradebook.Ftx.Walk
import Tradebook.Http
import Tradebook.Http.Status
import Tradebook.Http.Target
import Tradebook.Json
import Tradebook.Json.Decode
import Tradebook.Json.Number
import Tradebook.Json.Parser
import Tradebook.Json.Printer
import Tradebook.Main
import Tradebook.Offline
import Tradebook.OrderRequest
import Tradebook.OrderRequest.Codec
import Tradebook.Outcome
import Tradebook.Proofs.StoreRows
import Tradebook.Proofs.TimestampOrder
import Tradebook.Record
import Tradebook.Record.Codec
import Tradebook.Record.Description
import Tradebook.Run
import Tradebook.Session
import Tradebook.Shutdown
import Tradebook.StartTime
import Tradebook.Store
import Tradebook.Subscription
import Tradebook.Subscription.Codec
import Tradebook.Symbol
import Tradebook.Sync
import Tradebook.Text.Blank
import Tradebook.Text.CapitalTable
import Tradebook.Text.Digits
import Tradebook.Text.ExtendTable
import Tradebook.Text.Hex
import Tradebook.Text.Quoted
import Tradebook.Text.Upper
import Tradebook.Text.Utf8
import Tradebook.Text.VisibleTable
import Tradebook.Time.Calendar
import Tradebook.Time.Reader
import Tradebook.Time.Text
import Tradebook.Time.Timestamp
import Tradebook.Time.Zone
import Tradebook.Time.Zone.Taipei
import Tradebook.Toml
import Tradebook.Toml.Parser
import Tradebook.Toml.Scalar
import Tradebook.Toml.Text
import Tradebook.Toml.Tree
import Tradebook.Uuid
import Tradebook.Proofs.SyncPages
import Tradebook.Proofs.SimulatedAccount
import Tradebook.Proofs.Desk
import Tradebook.Proofs.Ledger
import Tradebook.Proofs.TradeSync
import Tradebook.Proofs.OvertakenOrder
import Tradebook.Proofs.SharedCursor
import Tradebook.Proofs.DigitText
import Tradebook.Proofs.TimeParameter
import Tradebook.Proofs.WalkWindow
import Tradebook.Proofs.WalkExact
import Tradebook.Proofs.HonestServer
import Tradebook.Proofs.InterruptedCopies
import Tradebook.Proofs.CopyLog
import Tradebook.Proofs.RunPlan
import Tradebook.Proofs.StreamRun
import Tradebook.Proofs.StreamQueue
import Tradebook.Proofs.StreamStanding
import Tradebook.Proofs.StreamReports
import Tradebook.Proofs.StreamWords
import Tradebook.Proofs.StoreHistory
import Tradebook.Proofs.EarlierStart
import Tradebook.Proofs.AnyServer
import Tradebook.Proofs.HistoryLog
import Tradebook.Proofs.JsonText
import Tradebook.Proofs.DecimalText
import Tradebook.Proofs.CalendarDays
import Tradebook.Proofs.TimestampText
import Tradebook.Proofs.RecordText
import Tradebook.Proofs.WalkCrowd
import Tradebook.Proofs.WalkEnds
import Tradebook.Proofs.WalkReach
import Tradebook.Proofs.Utf8Text
import Tradebook.Proofs.ShelfServer
import Tradebook.Proofs.ShortHistory
import Tradebook.Proofs.CrowdedInstant
import Tradebook.Proofs.PageCap
import Tradebook.Proofs.OrderSync
import Tradebook.Proofs.HeldSession
import Tradebook.Proofs.DecimalSum
import Tradebook.Proofs.DiscoveredSymbols
import Tradebook.Proofs.OpenOrders
import Tradebook.Proofs.CalendarMonths
import Tradebook.Proofs.ZoneReadings
import Tradebook.Proofs.LookbackStart
import Tradebook.Proofs.DateForms
import Tradebook.Proofs.TaipeiMidnight
import Tradebook.Proofs.StreamMessages
import Tradebook.Proofs.SentRequests
import Tradebook.Proofs.SignedPayload
import Tradebook.Proofs.OrderBody
import Tradebook.Proofs.RoundedSum
import Tradebook.Proofs.BalanceTotal
import Tradebook.Proofs.NormalTarget
import Tradebook.Proofs.SentTarget
import Tradebook.Proofs.SignedTarget
import Tradebook.Proofs.AcceptedConfig
import Tradebook.Proofs.SecondsText
import Tradebook.Proofs.CancelAnswer
import Tradebook.Proofs.SecretInRequests
import Tradebook.Proofs.SecretInStream
import Tradebook.Proofs.SecretRuns
import Tradebook.Proofs.BlankText
import Tradebook.Proofs.CapitalText
import Tradebook.Proofs.SymbolForm
