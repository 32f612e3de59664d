import ArgentTeam.Core.OwnerGate
import ArgentTeam.Core.ReworkCycle
import ArgentTeam.Broker.Reopen
import ArgentTeam.Broker.Idempotency
import ArgentTeam.Supervisor.Writer
import ArgentTeam.Scheduler.Fleet
import ArgentTeam.Jobs.Projection
import ArgentTeam.Jobs.Doors
import ArgentTeam.Jobs.StalePass
import ArgentTeam.External.Scope
import ArgentTeam.Jobs.ActionFence
import ArgentTeam.Jobs.Stranded
import ArgentTeam.External.CiMemory
import ArgentTeam.Core.RecoverTwice
import ArgentTeam.Core.KeyLaw
import ArgentTeam.Execution.Stages
import ArgentTeam.Context.Prompt
import ArgentTeam.Context.Order
import ArgentTeam.Routing.Escalation
import ArgentTeam.Routing.Independence
import ArgentTeam.Scheduler.ActiveSet
import ArgentTeam.Broker.Sanitised
import ArgentTeam.Broker.GhFailures
import ArgentTeam.Broker.Authorized
import ArgentTeam.Broker.LiveHolder
import ArgentTeam.MergeQueue.Exclusive
import ArgentTeam.MergeQueue.ReviewGate
import ArgentTeam.MergeQueue.Bounded
import ArgentTeam.MergeQueue.Split
import ArgentTeam.Broker.Truthful
import ArgentTeam.Broker.OwnerAtomic
import ArgentTeam.Broker.Bound
import ArgentTeam.Approvals.Strangers
import ArgentTeam.Notifications.Fenced
import ArgentTeam.Runtime.Single
import ArgentTeam.Restart.Conservative
import ArgentTeam.Retrieval.Authorised
import ArgentTeam.Resource.Enforced
import ArgentTeam.Resource.Pressure
import ArgentTeam.Execution.Reload
import ArgentTeam.Core.Malformed
import ArgentTeam.Checkpoints.Chain
import ArgentTeam.Planning.Breadth
import ArgentTeam.Supervisor.RuntimeData
import ArgentTeam.External.WaitTimes
import ArgentTeam.Workspace.ScopeHash
import ArgentTeam.Workspace.Sequential
import ArgentTeam.Routing.Availability
import ArgentTeam.Scheduler.PathRoots
