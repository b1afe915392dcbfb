import ShiftLock.Coord.Backed
import ShiftLock.Coord.Terminal
import ShiftLock.Coord.Late
import ShiftLock.Coord.Outdated
import ShiftLock.Handoff.Restore
import ShiftLock.Handoff.Released
import ShiftLock.Handoff.Commit
import ShiftLock.Redis.Object
import ShiftLock.Redis.Retry
import ShiftLock.Redis.Mirror
import ShiftLock.Kubernetes.Fencing
import ShiftLock.Model.Safety
import ShiftLock.Workflow.Admission
import ShiftLock.Workflow.Once
import ShiftLock.Workflow.Transition
import ShiftLock.Workflow.Journal
import ShiftLock.Election.Events
import ShiftLock.Syncprim.Once
import ShiftLock.Syncprim.Permits
import ShiftLock.Audit.Checkpoint
import ShiftLock.Audit.File
import ShiftLock.Audit.Alias
import ShiftLock.Barrier.Wait
import ShiftLock.Supervise.Stopped
import ShiftLock.Runtime.Quarantine
import ShiftLock.Migration.Verified
import ShiftLock.Migration.Control
import ShiftLock.Capability.History
import ShiftLock.Control.Idempotent
import ShiftLock.Control.Durable
import ShiftLock.Failover.Group
import ShiftLock.Resource.Parse
import ShiftLock.Configlock.Verify
import ShiftLock.Readiness
import ShiftLock.Coord.InFlight
