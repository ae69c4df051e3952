import PlexManager.Theory.Updater.Acceptance
import PlexManager.Theory.MissingGrace
import PlexManager.Theory.StallDetector
import PlexManager.Theory.Queue.Completion
import PlexManager.Theory.Queue.Removal
import PlexManager.Theory.Queue.Exoneration
import PlexManager.Theory.EpisodeFallback
import PlexManager.Theory.Participants.Consistency
import PlexManager.Theory.PurgeGuard
import PlexManager.Theory.Grab.Cleanup
import PlexManager.Theory.Availability
import PlexManager.Theory.Eviction.Pressure
import PlexManager.Theory.Eviction.Gutted
import PlexManager.Theory.Eviction.Assembly
import PlexManager.Theory.InFlightGuards
import PlexManager.Theory.TorrentSource
import PlexManager.Theory.SafeFetch
import PlexManager.Theory.Blocklist
import PlexManager.Theory.SeasonRollup
import PlexManager.Theory.BreadcrumbSessions
import PlexManager.Theory.Publication
import PlexManager.Theory.ShareEvidence
import PlexManager.Theory.ShareRotation
import PlexManager.Theory.CaptureSnapshot
import PlexManager.Theory.PlexPresence
import PlexManager.Theory.PlexWatch.Staleness
import PlexManager.Theory.MigrationBackup.Survival
import PlexManager.Theory.Coordinator.Receipt
import PlexManager.Theory.Updater.StateFile
import PlexManager.Theory.SecretKey
import PlexManager.Theory.TypedSettings
import PlexManager.Theory.SecretRotation
import PlexManager.Theory.EventStreams.Runs
import PlexManager.Theory.ServiceSettings
import PlexManager.Theory.ReconcileTwice
import PlexManager.Theory.UpdateHorizon
import PlexManager.Theory.MultiPart
import PlexManager.Theory.SeasonPack
import PlexManager.Theory.EpisodeToken
import PlexManager.Theory.Naming
import PlexManager.Theory.SeasonImport
import PlexManager.Theory.RequestIntent
import PlexManager.Theory.PublishLockRecovery
import PlexManager.Theory.ReclaimableBytes
import PlexManager.Theory.Eviction.Victims
import PlexManager.Theory.DownloadContent
import PlexManager.Theory.ProbeRetries
import PlexManager.Theory.CompletionStamp
import PlexManager.Theory.FailureDetail
import PlexManager.Theory.LogCapture
import PlexManager.Theory.DecisionService
import PlexManager.Theory.EventHub
