import PoolTreasury.Prelude
import PoolTreasury.Decimal.Basic
import PoolTreasury.Decimal.Rounding
import PoolTreasury.Decimal.Arith
import PoolTreasury.Decimal.Text
import PoolTreasury.Number.Shortest
import PoolTreasury.Json.Value
import PoolTreasury.Json.Reader
import PoolTreasury.Json.Shape
import PoolTreasury.Time.Instant
import PoolTreasury.Ledger.Records
import PoolTreasury.Ledger.Accounting
import PoolTreasury.Http.Url
import PoolTreasury.Http.Request
import PoolTreasury.Wallet.Units
import PoolTreasury.Log
import PoolTreasury.Market.Quote
import PoolTreasury.Market.Fallback
import PoolTreasury.Market.Services
import PoolTreasury.Encoding.Hex
import PoolTreasury.Encoding.Escape
import PoolTreasury.Encoding.Base64
import PoolTreasury.Cell.Basic
import PoolTreasury.Encoding.Text
import PoolTreasury.Cell.Address
import PoolTreasury.Cell.Slice
import PoolTreasury.Cell.Builder
import PoolTreasury.Cell.Boc
import PoolTreasury.Wire.Message
import PoolTreasury.Wire.Decode
import PoolTreasury.Feed.Transactions
import PoolTreasury.Feed.Indexer
import PoolTreasury.Store.Error
import PoolTreasury.Ingest.Cursor
import PoolTreasury.Ingest.Pipeline
import PoolTreasury.Ingest.Session
import PoolTreasury.Store.Interface
import PoolTreasury.Store.Memory
import PoolTreasury.Treasury.Error
import PoolTreasury.Treasury.Effects
import PoolTreasury.Treasury.Ledger
import PoolTreasury.Treasury.Settlement
import PoolTreasury.Treasury.Accrual
import PoolTreasury.Treasury.Commands
import PoolTreasury.Store.Backend
import PoolTreasury.Simulation.World
import PoolTreasury.Simulation.Views
import PoolTreasury.Json.Fields
import PoolTreasury.Cell.Spec
import PoolTreasury.Wire.Described
import PoolTreasury.Simulation.Session
import PoolTreasury.Time.Rfc3339
import PoolTreasury.Store.Trees
import PoolTreasury.Store.Image
import PoolTreasury.Toml.Value
import PoolTreasury.Toml.Report
import PoolTreasury.Toml.Parse
import PoolTreasury.Node.Config
import PoolTreasury.Node.Files
import PoolTreasury.Wallet.Service
import PoolTreasury.Store.Seed
import PoolTreasury.Node.Disk
import PoolTreasury.Node.Runtime
import PoolTreasury.CommandLine.Similarity
import PoolTreasury.CommandLine.Grammar
import PoolTreasury.CommandLine.Parse
import PoolTreasury.CommandLine.Report
import PoolTreasury.Node.Program
import PoolTreasury.Main
import PoolTreasury.Proofs.Run.Holds
import PoolTreasury.Proofs.Store.Lookup
import PoolTreasury.Proofs.Decimal.Value
import PoolTreasury.Proofs.Accrual.DailyStep
import PoolTreasury.Proofs.Effects.Ledger
import PoolTreasury.Proofs.Effects.Settlement
import PoolTreasury.Proofs.Effects.Accrual
import PoolTreasury.Proofs.Run.Invariant
import PoolTreasury.Proofs.Ledger.Identity
import PoolTreasury.Proofs.Accrual.Bounds
import PoolTreasury.Proofs.Settlement.SettledOnce
import PoolTreasury.Proofs.Decimal.Monotone
import PoolTreasury.Proofs.Settlement.Reserve
import PoolTreasury.Proofs.Ledger.Refusal
import PoolTreasury.Proofs.Accrual.Pass
import PoolTreasury.Proofs.Stake.Lifecycle
import PoolTreasury.Proofs.Pool.Integrity
import PoolTreasury.Proofs.Pool.FreeReserve
import PoolTreasury.Proofs.Cell.Bits
import PoolTreasury.Proofs.Cell.Layout
import PoolTreasury.Proofs.Encoding.Base64
import PoolTreasury.Proofs.Cell.Boc
import PoolTreasury.Proofs.Cell.Build
import PoolTreasury.Proofs.Cell.Read
import PoolTreasury.Proofs.Wire.Decode
import PoolTreasury.Proofs.Commands.Deposit
import PoolTreasury.Proofs.Commands.FailingStore
import PoolTreasury.Proofs.Commands.SingleWrite
import PoolTreasury.Proofs.Commands.Retry
import PoolTreasury.Proofs.Ingest.Cursor
import PoolTreasury.Proofs.Ledger.Capacity
import PoolTreasury.Proofs.Decimal.Range
import PoolTreasury.Proofs.Ledger.Principal
import PoolTreasury.Proofs.Store.Ids
import PoolTreasury.Proofs.Settlement.Withdraw
import PoolTreasury.Proofs.Settlement.Debit
import PoolTreasury.Proofs.Store.ActiveIndex
import PoolTreasury.Proofs.Cell.Untrusted
import PoolTreasury.Proofs.Decimal.Exact
import PoolTreasury.Proofs.Decimal.Quotient
import PoolTreasury.Proofs.Ledger.Insurance
import PoolTreasury.Proofs.Accrual.Schedule
import PoolTreasury.Proofs.Effects.Quiet
import PoolTreasury.Proofs.Feed.Order
import PoolTreasury.Proofs.Ingest.Forwarding
import PoolTreasury.Proofs.Cell.Fields
import PoolTreasury.Proofs.Cell.Reserialize
import PoolTreasury.Proofs.Wallet.BaseUnits
import PoolTreasury.Proofs.Market.Fallback
import PoolTreasury.Proofs.Market.Quote
import PoolTreasury.Proofs.Cell.Address
import PoolTreasury.Proofs.Cell.Snake
import PoolTreasury.Proofs.Cell.InPlace
