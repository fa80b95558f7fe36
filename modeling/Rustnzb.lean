import Rustnzb.Core.NormalNames
import Rustnzb.Core.NzbDocument
import Rustnzb.Core.NzbPaths
import Rustnzb.Core.HoleRenewal
import Rustnzb.Core.MaskedExport
import Rustnzb.Core.RestoredBackup
import Rustnzb.Core.SavedConfig
import Rustnzb.Core.ScheduleWindows
import Rustnzb.Nntp.BudgetWakeup
import Rustnzb.Nntp.Conversation
import Rustnzb.Nntp.Overview
import Rustnzb.Nntp.Pipelining
import Rustnzb.Nntp.PoolSafety
import Rustnzb.News.Outcomes
import Rustnzb.Decode.SliceCoverage
import Rustnzb.Decode.RepairSolve
import Rustnzb.Decode.RecoveryPackets
import Rustnzb.Decode.CacheMap
import Rustnzb.Decode.AssemblyRun
import Rustnzb.Dispatch.NoStranded
import Rustnzb.Dispatch.Evidence
import Rustnzb.Dispatch.Attempts
import Rustnzb.Dispatch.DeferredVolumes
import Rustnzb.Dispatch.WriteBounds
import Rustnzb.Dispatch.PausedJobs
import Rustnzb.Dispatch.PriorityGate
import Rustnzb.Dispatch.QueueTurns
import Rustnzb.Dav.ItemOutcomes
import Rustnzb.Groups.Watermark
import Rustnzb.Postproc.CleanupRules
import Rustnzb.Postproc.InflightVerdict
import Rustnzb.Postproc.RarFirst
import Rustnzb.Web.Fetch.Reach
import Rustnzb.Web.VerifySkip
import Rustnzb.Web.ArchiveSafety
import Rustnzb.Web.RevealOrder
import Rustnzb.Web.Delivery
import Rustnzb.Web.Resume.RoundTrip
import Rustnzb.Web.Queue.PauseOwners
import Rustnzb.Web.Queue.Slots
import Rustnzb.Web.TerminalMessage
import Rustnzb.Web.TimedPause
import Rustnzb.Web.Auth.Revocation
import Rustnzb.Web.Auth.CredentialChanges
import Rustnzb.Web.Rss.Once
import Rustnzb.Web.Watch.Imports
import Rustnzb.Web.Edits.Restart
import Rustnzb.Web.History.Recovery
import Rustnzb.Web.WorkDirs.Deletions
import Rustnzb.Web.Admission.Once
import Rustnzb.Web.OutputDirs.OneDir
import Rustnzb.Web.Auth.FailureBuckets
import Rustnzb.Postproc.Par2Confined
