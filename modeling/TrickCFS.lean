import TrickCFS.Library.Machine
import TrickCFS.Library.Behaviour
import TrickCFS.Library.Lasso
import TrickCFS.Library.Ring
import TrickCFS.Library.Divider
import TrickCFS.Library.FirstFit
import TrickCFS.Library.ByteMemory
import TrickCFS.Library.Rounding
import TrickCFS.Library.Words
import TrickCFS.Library.StableOrder
import TrickCFS.Library.Families
import TrickCFS.TaskIPC
import TrickCFS.TaskRuns
import TrickCFS.TrickCFSQueue
import TrickCFS.BoundedFifo
import TrickCFS.QueueThreads
import TrickCFS.QueueGet
import TrickCFS.OsQueues
import TrickCFS.TrickCFSInterface
import TrickCFS.Threads
import TrickCFS.TimedWaits
import TrickCFS.ConditionWaits
import TrickCFS.AppLifetimes
import TrickCFS.PipeThreads
import TrickCFS.TaskLogs
import TrickCFS.Ledger
import TrickCFS.BaseTrickCFSScheduler
import TrickCFS.SchLabTrickCFSScheduler
import TrickCFS.MessageBytes
import TrickCFS.TrickCFSScheduler
import TrickCFS.SchedulerLoop
import TrickCFS.MessageTable
import TrickCFS.PipeOwnership
import TrickCFS.LocalClock
import TrickCFS.OsTasks
import TrickCFS.StartupScript
import TrickCFS.StartupFile
import TrickCFS.Proofs.TaskRecords
import TrickCFS.Proofs.Bookkeeping
import TrickCFS.Proofs.StaleAcknowledgements
import TrickCFS.Proofs.QueueRefinement
import TrickCFS.Proofs.QueueLifetimes
import TrickCFS.Proofs.QueueDeliveries
import TrickCFS.Proofs.QueueLinearization
import TrickCFS.Proofs.QueueLayer
import TrickCFS.Proofs.FiniteTimeouts
import TrickCFS.Proofs.PollingTermination
import TrickCFS.Proofs.RoleSteps
import TrickCFS.Proofs.ThreadSteps
import TrickCFS.Proofs.ThreadRoles
import TrickCFS.Proofs.LogPairing
import TrickCFS.Proofs.FreeRunning
import TrickCFS.Proofs.FrameBarrier
import TrickCFS.Proofs.LostWakeups
import TrickCFS.Proofs.QuietFrames
import TrickCFS.Proofs.SimulatedDelays
import TrickCFS.Proofs.WaitBounds
import TrickCFS.Proofs.StateWrites
import TrickCFS.Proofs.Permissions
import TrickCFS.Proofs.PerfectAccounts
import TrickCFS.Proofs.PerfectSerialisation
import TrickCFS.Proofs.PerfectResets
import TrickCFS.Proofs.PerfectOrder
import TrickCFS.Proofs.HostSteps
import TrickCFS.Proofs.BoundedReturns
import TrickCFS.Proofs.LockSteps
import TrickCFS.Proofs.CoveredTasks
import TrickCFS.Proofs.DeadApps
import TrickCFS.Proofs.SimulationProgress
import TrickCFS.Proofs.PerfectProgress
import TrickCFS.Proofs.FrameProgress
import TrickCFS.Proofs.ScheduledMessages
import TrickCFS.Proofs.TriggerOwnership
import TrickCFS.Proofs.PipeAccounts
import TrickCFS.Proofs.FiringLaw
import TrickCFS.Proofs.UserCommands
import TrickCFS.Proofs.CommandSlots
import TrickCFS.Proofs.MissionOrder
import TrickCFS.Proofs.MessageLeaks
import TrickCFS.Proofs.SlotTimes
import TrickCFS.Proofs.SlotSchedule
import TrickCFS.Proofs.SlotMission
import TrickCFS.Proofs.TableHealing
import TrickCFS.Proofs.ScheduleValidation
import TrickCFS.Proofs.MessageTables
import TrickCFS.Proofs.MessageBounds
import TrickCFS.Proofs.MessageCompilation
import TrickCFS.Proofs.Revalidation
import TrickCFS.Proofs.LocalClocks
import TrickCFS.Proofs.ClockRuns
import TrickCFS.Proofs.TaskPriorities
import TrickCFS.Proofs.StartupTokens
import TrickCFS.Proofs.StartupDefinitions
import TrickCFS.Proofs.StartupRewriting
import TrickCFS.Proofs.StartupRereading
