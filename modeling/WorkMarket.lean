import WorkMarket.Main
import WorkMarket.Market.Distribution
import WorkMarket.Proofs.Market.AddressedBounties
import WorkMarket.Proofs.Market.BoardBounds
import WorkMarket.Proofs.Market.BoardRows
import WorkMarket.Proofs.Market.BoardWorkers
import WorkMarket.Proofs.Market.BooksConsistency
import WorkMarket.Proofs.Market.BooksEvents
import WorkMarket.Proofs.Market.BooksListings
import WorkMarket.Proofs.Market.BooksService
import WorkMarket.Proofs.Market.BooksTracing
import WorkMarket.Proofs.Market.BountyAddresses
import WorkMarket.Proofs.Market.BountyJobs
import WorkMarket.Proofs.Market.ContentQueries
import WorkMarket.Proofs.Market.ContractJobs
import WorkMarket.Proofs.Market.ContractLine
import WorkMarket.Proofs.Market.ContractSales
import WorkMarket.Proofs.Market.HashpowerSplit
import WorkMarket.Proofs.Market.KeyedEntries
import WorkMarket.Proofs.Market.KnownEvents
import WorkMarket.Proofs.Market.LedgerHistory
import WorkMarket.Proofs.Market.LedgerRecords
import WorkMarket.Proofs.Market.LedgerRuns
import WorkMarket.Proofs.Market.Listing
import WorkMarket.Proofs.Market.OutputStatus
import WorkMarket.Proofs.Market.Promises
import WorkMarket.Proofs.Market.RankHistory
import WorkMarket.Proofs.Market.RankLookup
import WorkMarket.Proofs.Market.RankOrder
import WorkMarket.Proofs.Market.RankStability
import WorkMarket.Proofs.Market.RankedJobs
import WorkMarket.Proofs.Market.ReportedTime
import WorkMarket.Proofs.Market.Selection
import WorkMarket.Proofs.Market.TotalDifficulty
import WorkMarket.Proofs.Market.UncoveredWork
import WorkMarket.Proofs.Market.WeightedDraw
import WorkMarket.Proofs.Market.WorkTally
import WorkMarket.Proofs.Number.RunningTotal
import WorkMarket.Proofs.Pool.BoardSteps
import WorkMarket.Proofs.Pool.Consistency
import WorkMarket.Proofs.Pool.History
import WorkMarket.Proofs.Pool.Operations
import WorkMarket.Proofs.Pool.QueuedContracts
import WorkMarket.Proofs.Pool.Reassignment
import WorkMarket.Proofs.Pool.Redelivery
import WorkMarket.Proofs.Pool.RefusedSubmissions
import WorkMarket.Proofs.Pool.ReportedBounties
import WorkMarket.Proofs.Pool.Service
import WorkMarket.Proofs.Pool.Settlement
import WorkMarket.Proofs.Pool.SpentOutputs
import WorkMarket.Proofs.Pool.StoredJobs
import WorkMarket.Proofs.Pool.Tracing
import WorkMarket.Proofs.Pool.Workers
import WorkMarket.Proofs.Pow.CandidateFields
import WorkMarket.Proofs.Pow.DifficultyArithmetic
import WorkMarket.Proofs.Pow.ExactDifficulty
import WorkMarket.Proofs.Pow.HashCheck
import WorkMarket.Proofs.Pow.HashThreshold
import WorkMarket.Proofs.Pow.NaiveScan
import WorkMarket.Proofs.Pow.NonceSearch
import WorkMarket.Proofs.Pow.PuzzleClasses
import WorkMarket.Proofs.Pow.TargetOrder
import WorkMarket.Proofs.Pow.TargetText
import WorkMarket.Proofs.Script.Acceptance
import WorkMarket.Proofs.Script.ByteCode
import WorkMarket.Proofs.Script.CursorCalls
import WorkMarket.Proofs.Script.Encodings
import WorkMarket.Proofs.Script.Extension
import WorkMarket.Proofs.Script.Matching
import WorkMarket.Proofs.Script.Naming
import WorkMarket.Proofs.Script.RoundTrip
import WorkMarket.Proofs.Script.UnlockingAcceptance
import WorkMarket.Proofs.Script.UnlockingRoundTrip
import WorkMarket.Proofs.Work.JobScripts
import WorkMarket.Proofs.Work.Recovery
import WorkMarket.Proofs.Work.Redemption
import WorkMarket.Proofs.Work.TargetEncodings
import WorkMarket.Script.Assembly
import WorkMarket.Text.Record.Catalogue
