import MarkSweep.Arena.History
import MarkSweep.Arena.Writing
import MarkSweep.Bitmap.Race
import MarkSweep.Config.Environment
import MarkSweep.Directory.History
import MarkSweep.Dump.Reader
import MarkSweep.Heap.History
import MarkSweep.Heap.RootHistory
import MarkSweep.Mark.Dispatch
import MarkSweep.Mark.Pool
import MarkSweep.Safepoint.Handshake
import MarkSweep.Safepoint.History
import MarkSweep.Slab.History
import MarkSweep.Slab.Search
import MarkSweep.Slab.Sweep
import MarkSweep.TypeLayout.Enumeration
import MarkSweep.Proofs.DirectorySlots
import MarkSweep.Proofs.ArenaInvariant
import MarkSweep.Proofs.MarkBits
import MarkSweep.Proofs.MarkTrace
import MarkSweep.Proofs.MarkDrain
import MarkSweep.Proofs.PoolOrder
import MarkSweep.Proofs.PoolTracing
import MarkSweep.Proofs.PoolRuns
import MarkSweep.Proofs.ArenaAllocation
import MarkSweep.Proofs.ArenaSweep
import MarkSweep.Proofs.MarkPhases
import MarkSweep.Proofs.HeapInvariant
import MarkSweep.Proofs.RetainedBlocks
import MarkSweep.Proofs.CollectionExactness
import MarkSweep.Proofs.AllocationFreshness
import MarkSweep.Proofs.PoolAgreement
import MarkSweep.Proofs.HandshakeTurns
import MarkSweep.Proofs.HandshakeInvariant
import MarkSweep.Proofs.StopSafety
import MarkSweep.Proofs.DirectoryTables
import MarkSweep.Proofs.DirectoryRefinement
import MarkSweep.Proofs.SlabCursor
import MarkSweep.Proofs.PagePlacement
import MarkSweep.Proofs.ArenaLedger
import MarkSweep.Proofs.ArenaFiling
import MarkSweep.Proofs.ArenaAccuracy
import MarkSweep.Proofs.PoolFaults
import MarkSweep.Proofs.MarkBlindness
import MarkSweep.Proofs.HeapLikeness
import MarkSweep.Proofs.IdleSafepoint
import MarkSweep.Proofs.FailedCollections
import MarkSweep.Proofs.DumpRefusals
import MarkSweep.Proofs.DumpPicture
import MarkSweep.Proofs.AddressClassification
import MarkSweep.Proofs.ArenaHistories
import MarkSweep.Proofs.SlabSweep
import MarkSweep.Proofs.SweepExactness
import MarkSweep.Proofs.HeapBooks
import MarkSweep.Proofs.ArenaLimit
import MarkSweep.Proofs.AllocationRetry
import MarkSweep.Proofs.HandleRegistration
import MarkSweep.Proofs.HandshakeVisits
import MarkSweep.Proofs.LockWaits
import MarkSweep.Proofs.SelfStops
import MarkSweep.Proofs.ScopeBalance
import MarkSweep.Proofs.RootOwners
import MarkSweep.Proofs.RootAccounts
import MarkSweep.Proofs.RepeatedCollections
import MarkSweep.Proofs.RefusedRequests
import MarkSweep.Proofs.SetBits
import MarkSweep.Proofs.PointerMaps
import MarkSweep.Proofs.ThreadScans
import MarkSweep.Proofs.DrainSlices
import MarkSweep.Proofs.PoolHealth
import MarkSweep.Proofs.AllocationErrors
import MarkSweep.Proofs.MarkFailures
import MarkSweep.Proofs.BitRaces
import MarkSweep.Proofs.DirectoryFolding
import MarkSweep.Proofs.EnvironmentGrammar
import MarkSweep.Proofs.DumpFailures
import MarkSweep.Proofs.SlabSearch
import MarkSweep.Proofs.PoolSharing
