import AvaListener.Kernel.WakeLog
import AvaListener.Matcher.AsciiText
import AvaListener.Matcher.BestMatch
import AvaListener.Kernel.MutedPhrases
import AvaListener.Kernel.ConfiguredThreshold
import AvaListener.Audio.FeedOrder
import AvaListener.Kernel.FreshUtterance
import AvaListener.Library.JsonText
import AvaListener.Sdk.BootstrapLock
import AvaListener.Library.JsonRoundTrip
import AvaListener.Library.JsonWire
import AvaListener.Ipc.Protocol
import AvaListener.Transport.Reliability
import AvaListener.Transport.WSServer
import AvaListener.Transport.HeldUntilAck
import AvaListener.Sdk.StateMachine
import AvaListener.Transport.Envelope
import AvaListener.Sdk.Lifecycle
import AvaListener.Sdk.PauseGate
import AvaListener.Supervision.Monitor
import AvaListener.Supervision.AttachedWorker
import AvaListener.Supervision.Escalation
import AvaListener.Sdk.ProfileSwitch
import AvaListener.Sdk.Reconnect
import AvaListener.Models.ModelManager
import AvaListener.Models.VerifiedModels
import AvaListener.Matcher.TokenSets
import AvaListener.Matcher.StableHypotheses
import AvaListener.Matcher.CanonicalPhrase
import AvaListener.Transport.ClientSet
import AvaListener.Matcher.PhraseTable
import AvaListener.Sdk.PhraseCommands
import AvaListener.Transport.SendSteps
import AvaListener.Transport.FireAndForget
import AvaListener.Sdk.ReadySignal
import AvaListener.Library.Fallible
import AvaListener.Library.PyValue
import AvaListener.Config.ProfileLoader
import AvaListener.Matcher.PhraseObjects
import AvaListener.Kernel.LoadProfile
import AvaListener.Matcher.IndexCoherence
import AvaListener.Config.ProfileValidator
import AvaListener.Kernel.ValidatedLoad
import AvaListener.Config.DuplicateIds
import AvaListener.Library.SlidingWindow
import AvaListener.Sdk.Requests
import AvaListener.Supervision.RestartRate
import AvaListener.Audio.DeliveryGate
import AvaListener.Kernel.PhraseCooldown
import AvaListener.Transport.EventPaths
import AvaListener.Kernel.TypedProfiles
import AvaListener.Transport.Redelivery
import AvaListener.Config.Mutability
import AvaListener.Transport.FlushOnce
import AvaListener.Audio.DecodeHistory
import AvaListener.Audio.SpeechRuns
import AvaListener.Supervision.Watchdog
import AvaListener.Audio.Interleaving
import AvaListener.Audio.Uninterrupted
import AvaListener.Matcher.TornReads
import AvaListener.Sdk.Calls
import AvaListener.Sdk.Destroy
import AvaListener.Sdk.CallSteps
import AvaListener.Sdk.FailedStart
import AvaListener.Telemetry.SessionLog
import AvaListener.Kernel.CandidateSessions
import AvaListener.Kernel.ConfirmedWakes
import AvaListener.Audio.PrefixFragments
import AvaListener.Config.MergeRule
import AvaListener.Config.InheritanceWalk
import AvaListener.Matcher.RebuiltIndex
import AvaListener.Supervision.RestartManager
import AvaListener.Supervision.RecoveryCoordinator
import AvaListener.Supervision.RestartSpacing
import AvaListener.Supervision.FailingResets
import AvaListener.Library.BoundedQueue
import AvaListener.Telemetry.Dispatcher
import AvaListener.Vad.HybridVAD
import AvaListener.Vad.BufferedSamples
import AvaListener.Vad.ChunkCounters
import AvaListener.Config.DistinctKeys
import AvaListener.Kernel.EffectiveConfig
import AvaListener.Models.ConcurrentVerification
import AvaListener.Sdk.LockContention
import AvaListener.Transport.BestEffortBatches
import AvaListener.Sdk.ReconnectSeries
import AvaListener.Library.WeightedBudget
import AvaListener.Health.Score
import AvaListener.Library.OrderStatistics
import AvaListener.Timing.RollingLatency
import AvaListener.Audio.WindowOrder
import AvaListener.Supervision.RestartWindow
import AvaListener.Matcher.StoredPhrases
import AvaListener.Matcher.WellFormedRegistry
import AvaListener.Kernel.TypedRegistry
import AvaListener.Kernel.ListeningLoop
import AvaListener.Kernel.RuntimeStates
import AvaListener.Supervision.StoppedMonitor
import AvaListener.Kernel.SubsystemLifecycle
import AvaListener.Audio.StreamerStarts
import AvaListener.Library.Backoff
import AvaListener.Library.Simulation
import AvaListener.Transport.Retransmissions
import AvaListener.Transport.Provenance
import AvaListener.Library.TextSearch
import AvaListener.Sdk.PortLine
import AvaListener.Sdk.ProcessManager
import AvaListener.Models.WarmStart
import AvaListener.Models.DownloadTurns
import AvaListener.Library.Outbox
import AvaListener.Sdk.OfflineQueue
import AvaListener.Sdk.Client
import AvaListener.Library.Reblocking
import AvaListener.Vad.SpeechSegments
import AvaListener.Config.MigratedFiles
import AvaListener.Ipc.Channel
import AvaListener.Kernel.SustainedEvidence
