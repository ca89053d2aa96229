import FlowEmulator.Fallible
import FlowEmulator.Run
import FlowEmulator.Rounds
import FlowEmulator.Assign
import FlowEmulator.Choice
import FlowEmulator.Float64
import FlowEmulator.SortedSet
import FlowEmulator.Text
import FlowEmulator.VersionedTable
import FlowEmulator.Types
import FlowEmulator.Keys
import FlowEmulator.Store
import FlowEmulator.DefaultStore
import FlowEmulator.Sqlite
import FlowEmulator.Samples
import FlowEmulator.Commits
import FlowEmulator.LastWrite
import FlowEmulator.Held
import FlowEmulator.Shape
import FlowEmulator.Rollback
import FlowEmulator.Snapshots
import FlowEmulator.Redis
import FlowEmulator.Memstore
import FlowEmulator.Agreement
import FlowEmulator.Remote
import FlowEmulator.Filed
import FlowEmulator.Fork
import FlowEmulator.ForkCache
import FlowEmulator.Atomicity
import FlowEmulator.PendingBlock
import FlowEmulator.Blockchain
import FlowEmulator.Overlay
import FlowEmulator.Execution
import FlowEmulator.Sealing
import FlowEmulator.Progress
import FlowEmulator.Requests
import FlowEmulator.Recorded
import FlowEmulator.Emulator
import FlowEmulator.LinkedChain
import FlowEmulator.Layered
import FlowEmulator.RollbackGuard
import FlowEmulator.Consistency
import FlowEmulator.Retry
import FlowEmulator.Archive
import FlowEmulator.Calls
import FlowEmulator.Queries
import FlowEmulator.Chronicle
import FlowEmulator.Sessions
import FlowEmulator.Lookups
import FlowEmulator.Submissions
import FlowEmulator.TickerProgress
import FlowEmulator.Integrity
import FlowEmulator.Scheduled
import FlowEmulator.Production
import FlowEmulator.StateTransition
import FlowEmulator.BlockOrder
import FlowEmulator.RollbackRace
import FlowEmulator.StatusStream
import FlowEmulator.ForkIdentity
import FlowEmulator.Running
import FlowEmulator.Failures
import FlowEmulator.Stepping
import FlowEmulator.BlockIdentity
import FlowEmulator.Entropy
import FlowEmulator.SnapshotCreation
import FlowEmulator.EventQueries
import FlowEmulator.Growth
import FlowEmulator.LocalStores
import FlowEmulator.EventRanges
import FlowEmulator.Journals
import FlowEmulator.ExecutionData
import FlowEmulator.DebugSession
import FlowEmulator.DebugRuns
import FlowEmulator.DebugStops
import FlowEmulator.DebugHandles
import FlowEmulator.DebugPaths
import FlowEmulator.DebugPanics
import FlowEmulator.Accounts
import FlowEmulator.Logged
import FlowEmulator.HistoricalReads
import FlowEmulator.AccessAdapter
import FlowEmulator.StatusCodes
import FlowEmulator.SignatureDebug
import FlowEmulator.AccountCreation
import FlowEmulator.FinalStatus
import FlowEmulator.SendAndSubscribe
import FlowEmulator.ForkStart
import FlowEmulator.BlockQueries
import FlowEmulator.CachePruning
import FlowEmulator.CacheStarts
import FlowEmulator.Pieces
import FlowEmulator.BlockTimes
import FlowEmulator.Streaming
import FlowEmulator.BlockStreams
import FlowEmulator.Finality
import FlowEmulator.Ancestors
import FlowEmulator.Restarts
import FlowEmulator.Deployments
import FlowEmulator.ServerStart
import FlowEmulator.AdminApi
import FlowEmulator.Lockstep
import FlowEmulator.StoreIndependence
import FlowEmulator.Undo
import FlowEmulator.RedisAgreement
import FlowEmulator.ForkModel
