import Cowork.Json
import Cowork.Effects
import Cowork.Transitions
import Cowork.Threads
import Cowork.Tables
import Cowork.ControlModels
import Cowork.RunState
import Cowork.ControlStore
import Cowork.StoreFrames
import Cowork.Contracts
import Cowork.ControlService
import Cowork.Placement
import Cowork.RunChanges
import Cowork.ServiceSteps
import Cowork.Fencing
import Cowork.Leases
import Cowork.Lifecycle
import Cowork.EventDelivery
import Cowork.TransactionJournal
import Cowork.CrashAtomicity
import Cowork.ConnectorDelegation
import Cowork.GrantSteps
import Cowork.GrantSafety
import Cowork.LocalStore
import Cowork.SqlStore
import Cowork.StoreAgreement
import Cowork.CommandQueue
import Cowork.CommandOrder
import Cowork.RuntimeWorker
import Cowork.CommandDelivery
import Cowork.JsonText
import Cowork.TextFiles
import Cowork.CodingEvents
import Cowork.CodingStore
import Cowork.CodingHistory
import Cowork.StreamRecords
import Cowork.FileStream
import Cowork.RedisStream
import Cowork.RedisEnding
import Cowork.BufferAgreement
import Cowork.TurnWriters
import Cowork.RunRegistry
import Cowork.RunAdmission
import Cowork.SavedQuestions
import Cowork.TurnCancels
import Cowork.LatestCancel
import Cowork.Coroutines
import Cowork.TurnProducers
import Cowork.TurnAssertions
import Cowork.TurnEndings
import Cowork.DeletedTurns
import Cowork.RemoteReplies
import Cowork.Schedules
import Cowork.Scheduler
import Cowork.SlotClaims
import Cowork.Ingress
import Cowork.ArtifactLock
import Cowork.ArtifactRevisions
import Cowork.ArtifactMoves
import Cowork.ArtifactOperations
import Cowork.ArtifactRepairs
import Cowork.ArtifactHistory
import Cowork.ArtifactFailures
import Cowork.ArtifactCrashes
import Cowork.KeyedRows
import Cowork.ScopedSession
import Cowork.TenantIsolation
import Cowork.TenantSecrecy
import Cowork.AnswerText
import Cowork.StreamFormatter
import Cowork.Conversations
import Cowork.MessagePages
import Cowork.WholeTurns
import Cowork.TurnRecovery
import Cowork.Snapshots
import Cowork.HistoryCompaction
import Cowork.DatabaseUnits
import Cowork.Approvals
import Cowork.CodingTurns
import Cowork.ShutdownInterrupts
import Cowork.QuestionRetirement
import Cowork.Queues
import Cowork.InstructionQueue
import Cowork.FollowUps
import Cowork.BuiltinSeeding
import Cowork.ArtifactResolution
import Cowork.TaskRelocation
import Cowork.DraftReview
import Cowork.OwnerChoices
import Cowork.LiveAdapters
import Cowork.ChannelLocks
import Cowork.RouterGate
import Cowork.ProjectCatalogue
import Cowork.SkillUploads
import Cowork.CssEscapes
