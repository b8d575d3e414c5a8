import PagedTables.Files.Tree
import PagedTables.Main
import PagedTables.Memory
import PagedTables.Proofs.CellValues
import PagedTables.Proofs.ChannelLifetimes
import PagedTables.Proofs.ClosingNotice
import PagedTables.Proofs.DispatchOutcomes
import PagedTables.Proofs.ExactSlices
import PagedTables.Proofs.FrameStreams
import PagedTables.Proofs.HubLookup
import PagedTables.Proofs.InProcess
import PagedTables.Proofs.Interference
import PagedTables.Proofs.LoadOutcomes
import PagedTables.Proofs.LoadedRows
import PagedTables.Proofs.NewestConnection
import PagedTables.Proofs.Paging
import PagedTables.Proofs.PartialOperations
import PagedTables.Proofs.Pipelining
import PagedTables.Proofs.Registration
import PagedTables.Proofs.RegistryHistory
import PagedTables.Proofs.Replacement
import PagedTables.Proofs.Replies
import PagedTables.Proofs.ReplyRoutes
import PagedTables.Proofs.RequestGrammar
import PagedTables.Proofs.ServedTables
import PagedTables.Proofs.Shutdown
import PagedTables.Proofs.Snapshots
import PagedTables.Proofs.SortedJson
import PagedTables.Proofs.Startup
import PagedTables.Proofs.Transcript
import PagedTables.Proofs.TransposedRecords
import PagedTables.Proofs.WireForm
