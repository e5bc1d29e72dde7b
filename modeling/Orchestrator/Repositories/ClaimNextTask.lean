import Orchestrator.Repositories.TaskRepository

/-! # Claiming a task

`claimNextTask` (`repositories/task.repository.ts`). The transaction runs under a
database-wide advisory lock, so a claim reads and writes one store.
-/

namespace Orchestrator

open Kit TaskState

/-- The tasks the caller is currently able to execute. -/
structure ClaimableWork where
  queued : Bool
  parkedStates : List TaskState
  scheduleResumeStates : List TaskState
  limitResumeStates : List TaskState

structure TaskRolloutLimits where
  repositories : Option (List String) := none
  maxNewTasksPerDay : Option Nat := none

structure TaskClaimWithLimitInput where
  leaseOwner : WorkerId
  leaseDurationMs : Instant
  now : Instant
  work : ClaimableWork
  maxConcurrentTasks : Nat
  lane : ClaimLane := .execution
  repositoryLimits : List (String × Nat) := []
  rollout : TaskRolloutLimits := {}

def inLane (lane : ClaimLane) (state : TaskState) : Bool :=
  (lane == .delivery) == deliveryStates.contains state

/-- `input.work` restricted to the lane. -/
def laneWork (input : TaskClaimWithLimitInput) : ClaimableWork where
  queued := input.lane = .execution && input.work.queued
  parkedStates := input.work.parkedStates.filter (inLane input.lane)
  scheduleResumeStates :=
    if input.lane = .execution then input.work.scheduleResumeStates else []
  limitResumeStates := if input.lane = .execution then input.work.limitResumeStates else []

/-- Leased tasks of the lane, expired leases included. -/
def leasedInLane (lane : ClaimLane) (task : Task) : Bool :=
  task.leaseOwner.isSome && inLane lane task.state

/-- `count(distinct tasks.id)` over leased tasks of the lane with a unit in `repository`. -/
def busyTasks (store : Store) (lane : ClaimLane) (repository : String) : Nat :=
  store.tasks.count fun task => leasedInLane lane task && store.touches task.id [repository]

/-- Repositories at their limit; the delivery lane has no repository limits. -/
def saturatedRepositories (store : Store) (input : TaskClaimWithLimitInput) : List String :=
  let repositoryLimits := if input.lane = .execution then input.repositoryLimits else []
  repositoryLimits.filterMap fun entry =>
    if entry.2 ≤ busyTasks store input.lane entry.1 then some entry.1 else none

def dayMs : Instant := 24 * 60 * 60 * 1000

/-- Task starts of the 24 hours before `now`. -/
def startedTasks (store : Store) (now : Instant) : Nat :=
  store.stateTransitions.countP fun row =>
    row.fromState = queued && row.toState = analyzing && now - dayMs < row.createdAt

/-- `queued` work, unless the daily rollout budget is used up. -/
def startNewTasks (store : Store) (input : TaskClaimWithLimitInput) : Bool :=
  (laneWork input).queued &&
    match input.rollout.maxNewTasksPerDay with
    | none => true
    | some limit => startedTasks store input.now < limit

def outsideRollout (store : Store) (rollout : TaskRolloutLimits) (taskId : TaskId) : Bool :=
  match rollout.repositories with
  | none => false
  | some repositories => store.taskWorkUnits.any fun unit =>
      unit.taskId = taskId && !repositories.contains unit.repository

def resumeAfterPassed (task : Task) (now : Instant) : Bool :=
  match task.resumeAfter with
  | none => true
  | some resumeAfter => resumeAfter ≤ now

def resumesTo (task : Task) (states : List TaskState) : Bool :=
  match task.resumeState with
  | none => false
  | some resumeState => states.contains resumeState

/-- `or(...eligibility)`; an alternative whose list is empty matches nothing. -/
def eligible (store : Store) (input : TaskClaimWithLimitInput) (task : Task) : Bool :=
  let work := laneWork input
  (startNewTasks store input && task.state = queued &&
    (store.listUnfinishedBlockers task.id).isEmpty &&
    !outsideRollout store input.rollout task.id) ||
  (work.parkedStates.contains task.state && resumeAfterPassed task input.now) ||
  (task.state = pausedSchedule && resumesTo task work.scheduleResumeStates) ||
  (task.state = pausedLimit && resumesTo task work.limitResumeStates &&
    resumeAfterPassed task input.now)

/-- The `WHERE` clause of the candidate query, and `SKIP LOCKED`. -/
def claimCandidate (store : Store) (input : TaskClaimWithLimitInput) (locked : List TaskId)
    (task : Task) : Bool :=
  task.leaseOwner.isNone && !store.touches task.id (saturatedRepositories store input) &&
    !task.requiresManualIntervention && task.cancelRequestedAt.isNone &&
    eligible store input task && !locked.contains task.id

/-- Finish in-progress work first, then resume paused work, then start new work. -/
def claimPriority (state : TaskState) : Nat :=
  if state = queued then 2 else if state ∈ pauseStates then 1 else 0

/-- `ORDER BY priority, created_at`. -/
def claimsBefore (left right : Task) : Bool :=
  claimPriority left.state < claimPriority right.state ||
    (claimPriority left.state = claimPriority right.state && left.createdAt < right.createdAt)

/-- `LIMIT 1`: the first row in claim order. -/
def firstClaimed : List Task → Option Task
  | [] => none
  | task :: tasks =>
      match firstClaimed tasks with
      | none => some task
      -- Rows that tie keep their order in the table.
      | some other => if claimsBefore other task then some other else some task

def claimLease (input : TaskClaimWithLimitInput) : LeaseUpdate :=
  ⟨some input.leaseOwner, some (input.now + input.leaseDurationMs), some input.now⟩

/-- Take the lease of a task that continues where it was parked. -/
def Task.leased (lease : LeaseUpdate) (now : Instant) (task : Task) : Task :=
  { task with
    leaseOwner := lease.owner
    leaseExpiresAt := lease.expiresAt
    lastHeartbeatAt := lease.heartbeatAt
    updatedAt := now }

/-- The transition that a claim makes on this row, if it makes one. -/
def claimTransition (input : TaskClaimWithLimitInput) (task : Task) :
    Option LockedTransitionInput :=
  if task.state = queued then
    some { toState := analyzing, reason := some "Task claimed for analysis",
           lease := some (claimLease input) }
  else if task.state ∈ pauseStates then
    task.resumeState.map fun resumeState =>
      { toState := resumeState, reason := some s!"Resumed from {task.state.text}",
        lease := some (claimLease input) }
  else none

/-- What the claim does to the selected row. -/
def claimRow (store : Store) (input : TaskClaimWithLimitInput) (task : Task) (clock : Instant) :
    Except WorkflowError (Store × Task) :=
  match claimTransition input task with
  | some transition => transitionLockedTask store task transition clock
  | none => do
      let row := task.leased (claimLease input) input.now
      let store ← store.updateTask row
      return (store, row)

def claimNextTask (store : Store) (input : TaskClaimWithLimitInput) (locked : List TaskId)
    (clock : Instant) : Except WorkflowError (Store × Option Task) :=
  if input.leaseDurationMs ≤ 0 then .error (.error "leaseDurationMs must be positive")
  -- A lease counts until it is cleared, also when it has expired.
  else if input.maxConcurrentTasks ≤ store.tasks.count (leasedInLane input.lane) then
    .ok (store, none)
  else match firstClaimed (store.tasks.rows.filter (claimCandidate store input locked)) with
    | none => .ok (store, none)
    | some task => (claimRow store input task clock).map fun claimed => (claimed.1, some claimed.2)

end Orchestrator
