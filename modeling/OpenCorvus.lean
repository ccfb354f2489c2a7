import OpenCorvus.ArtifactCatalog.ExactReadLaw
import OpenCorvus.Bus.DurableBusLaw
import OpenCorvus.Capability.RevealLaw
import OpenCorvus.ChannelRuntime.RelayLaw
import OpenCorvus.Dispatch.DispatchAdmissionLaw
import OpenCorvus.Engine.ControlLeaseFencing
import OpenCorvus.Engine.GoalGraphTip
import OpenCorvus.Engine.Mailbox
import OpenCorvus.Engine.ProcessLivenessLaw
import OpenCorvus.Engine.TaskControlWake
import OpenCorvus.Engine.TaskLifecycleLaw
import OpenCorvus.Engine.TaskRootActivationOrder
import OpenCorvus.Engine.TaskRootConsumption
import OpenCorvus.Engine.TaskRootIngressRescan
import OpenCorvus.Engine.TaskRootIngressSequence
import OpenCorvus.Engine.TaskRootLatestLease
import OpenCorvus.Engine.TaskRootLifecycleEvidence
import OpenCorvus.Engine.TaskWaitLaw
import OpenCorvus.Id.Generator
import OpenCorvus.LLM.ActivityLaw
import OpenCorvus.Memory.MemoryLaw
import OpenCorvus.Memory.SearchRanking
import OpenCorvus.Mission.AcceptanceContinuity
import OpenCorvus.Mission.AffectedNodes
import OpenCorvus.Patch.ReplacementsLaw
import OpenCorvus.Patch.RoundTrip
import OpenCorvus.Permission.AtMostOnce
import OpenCorvus.Permission.Fingerprint
import OpenCorvus.Permission.InterruptedAttempts
import OpenCorvus.Permission.StartedRequests
import OpenCorvus.Project.DirectoryAdmissionLaw
import OpenCorvus.Project.GlobalCreationLaw
import OpenCorvus.Protocol.LiveReplayLaw
import OpenCorvus.Protocol.SchedulerDeliveryLaw
import OpenCorvus.Protocol.SchedulerMessageLaw
import OpenCorvus.Scheduler.AutomationWakeLaw
import OpenCorvus.Scheduler.EventCooldownLaw
import OpenCorvus.Session.ForkLaw
import OpenCorvus.Session.PromptOwnership
import OpenCorvus.Snapshot.RestoreLaw
import OpenCorvus.Storage.PostCommitEffects
import OpenCorvus.Tool.ApplyPatchLaw
import OpenCorvus.Tool.EditLaw
import OpenCorvus.Tool.Truncation
import OpenCorvus.Util.CanonicalText
import OpenCorvus.Util.FifoPermitPool
import OpenCorvus.Util.Lock
import OpenCorvus.Worktree.OwnershipCriticalSection
