import OpenWorkloadScheduler.Config.Written
import OpenWorkloadScheduler.Domain.Completion
import OpenWorkloadScheduler.Domain.ConstraintTimes
import OpenWorkloadScheduler.Domain.JobChanges
import OpenWorkloadScheduler.Domain.JobReading
import OpenWorkloadScheduler.Domain.JobRemoval
import OpenWorkloadScheduler.Domain.JobRoundTrip
import OpenWorkloadScheduler.Domain.LinkCycles
import OpenWorkloadScheduler.Domain.NextPlanning
import OpenWorkloadScheduler.Domain.NodeAddition
import OpenWorkloadScheduler.Domain.NodeReloads
import OpenWorkloadScheduler.Domain.PlanningRetry
import OpenWorkloadScheduler.Domain.PositionalReads
import OpenWorkloadScheduler.Domain.Preparation
import OpenWorkloadScheduler.Domain.ReadyOverloads
import OpenWorkloadScheduler.Domain.Removal
import OpenWorkloadScheduler.Domain.RequiredSettings
import OpenWorkloadScheduler.Domain.StoredResources
import OpenWorkloadScheduler.LineLoops
import OpenWorkloadScheduler.Routing.Discovery
import OpenWorkloadScheduler.Routing.Distances
import OpenWorkloadScheduler.Routing.Peers
import OpenWorkloadScheduler.Routing.RouteTable
import OpenWorkloadScheduler.Scheduler.Blocking
import OpenWorkloadScheduler.Scheduler.Boundaries
import OpenWorkloadScheduler.Scheduler.Causes
import OpenWorkloadScheduler.Scheduler.Client
import OpenWorkloadScheduler.Scheduler.ClientsBeside
import OpenWorkloadScheduler.Scheduler.JobRun
import OpenWorkloadScheduler.Scheduler.Lifecycle
import OpenWorkloadScheduler.Scheduler.LostMutex
import OpenWorkloadScheduler.Scheduler.OwnPlanning
import OpenWorkloadScheduler.Scheduler.PlainRounds
import OpenWorkloadScheduler.Scheduler.ReadBack
import OpenWorkloadScheduler.Scheduler.Restart
import OpenWorkloadScheduler.Service.ClientStartup
import OpenWorkloadScheduler.Service.FilledJobs
import OpenWorkloadScheduler.Service.Forwarding
import OpenWorkloadScheduler.Service.JobTexts
import OpenWorkloadScheduler.Service.JobUpdates
import OpenWorkloadScheduler.Service.MasterIdentity
import OpenWorkloadScheduler.Service.NullGateways
import OpenWorkloadScheduler.Service.ServerWaits
import OpenWorkloadScheduler.Service.TimeToLive
import OpenWorkloadScheduler.Store.Constraints
import OpenWorkloadScheduler.Store.SkeletonFile
