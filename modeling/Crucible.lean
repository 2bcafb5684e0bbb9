import Crucible.LabelledRuns
import Crucible.KeyedTable
import Crucible.RedisLists
import Crucible.Uuid
import Crucible.JobTable
import Crucible.HttpAnswers
import Crucible.RowLocks
import Crucible.JobFinality
import Crucible.DatasetFormat
import Crucible.ModelCatalogue
import Crucible.Cluster
import Crucible.ReliableQueue
import Crucible.QueueRefinement
import Crucible.QueueUniqueness
import Crucible.MutualExclusion
import Crucible.ExecutionGate
import Crucible.StatusOverlay
import Crucible.FailedCreation
import Crucible.LiveReclaim
import Crucible.StrandedJobs
import Crucible.CrashWindows
import Crucible.RowCoherence
import Crucible.RegisteredIds
import Crucible.RedisQueue
import Crucible.ReconcilePass
import Crucible.FieldStreams
import Crucible.FinishedDatasets
import Crucible.FileTree
import Crucible.ContentIdentity
import Crucible.StorageShape
import Crucible.DownloadTargets
import Crucible.DatasetRoundTrip
import Crucible.ProcessContract
import Crucible.AckedFinished
import Crucible.ProcessRefinement
import Crucible.ModelRegistration
import Crucible.RevisionChoice
import Crucible.TiedPages
import Crucible.JobPages
import Crucible.LikePatterns
import Crucible.RegistrySearch
import Crucible.UniqueIndexes
import Crucible.DatasetLoading
import Crucible.FormatGate
import Crucible.Supervision
import Crucible.WorkerLaunch
import Crucible.RunTotals
import Crucible.ExecutionCount
import Crucible.JobAnswers
import Crucible.StoreReferences
import Crucible.VettedExecutions
import Crucible.RunSimulations
import Crucible.JobTransactions
import Crucible.SessionProgress
import Crucible.GracefulStop
import Crucible.RedisLoss
import Crucible.CalendarDates
import Crucible.Rfc3339
import Crucible.StatusTimestamps
import Crucible.DatasetObjects
import Crucible.SignedRows
import Crucible.StoredDatasets
import Crucible.RegistryPages
import Crucible.DrainedQueue
import Crucible.FrontDoor
import Crucible.AllowList
import Crucible.TrainingFiles
