import Orchestrator.Kit.Utf16
import Orchestrator.Repositories.ClaimNextTask
import Orchestrator.Scheduling.StageGate

/-! # One claimed task under a scheduler

The state of a `runTask` call between two of its suspensions, and the repository
call each state is about to make (`orchestrator/scheduler.ts`,
`orchestrator/stage-handler.ts`).
-/

namespace Orchestrator

open TaskState

/-! ## Stage outcomes -/

structure AdvanceOutcome where
  toState : TaskState
  reason : Option String := none
  incrementCounter : Option AttemptCounter := none
  lastError : Option (Option String) := none
  requiresManualIntervention : Option Bool := none
  deriving DecidableEq

structure PauseLimitOutcome where
  pauseReason : PauseReason
  resumeAfter : Option Instant := none
  reason : Option String := none
  deriving DecidableEq

structure WaitOutcome where
  untilTime : Instant
  reason : String
  lastError : Option (Option String) := none
  deriving DecidableEq

inductive StageOutcome
  | advance (outcome : AdvanceOutcome)
  | pauseLimit (outcome : PauseLimitOutcome)
  | wait (outcome : WaitOutcome)
  | interrupted
  deriving DecidableEq

inductive StageAbortReason
  | shutdown | schedule | operator | killSwitch | leaseLost
  deriving DecidableEq

/-! ## Configuration -/

/-- The part of the configuration every worker shares, with the states that have
a registered stage handler. -/
structure SchedulerConfig where
  maxConcurrentTasks : Nat := 1
  maxConcurrentDeliveryTasks : Nat := 2
  leaseDurationMs : Instant := 300 * 1000
  usageLimitPauseMs : Instant := 30 * 60000
  /-- `repositories`, with the `maxConcurrentTasks` of each. -/
  repositories : List (String × Option Nat) := []
  rollout : TaskRolloutLimits := {}
  schedule : ScheduleConfig := {}
  /-- The wall clock of `timezone`. -/
  localTime : Instant → LocalTime
  handlers : List TaskState

def repositoryLimits (config : SchedulerConfig) : List (String × Nat) :=
  config.repositories.filterMap fun entry => entry.2.map fun limit => (entry.1, limit)

def laneLimit (config : SchedulerConfig) : ClaimLane → Nat
  | .execution => config.maxConcurrentTasks
  | .delivery => config.maxConcurrentDeliveryTasks

/-- Translate handlers, schedule gates and the operator override into the claim
query's eligibility. -/
def claimableWork (config : SchedulerConfig) (override : ScheduleOverride) (now : Instant) :
    ClaimableWork :=
  let localNow := config.localTime now
  let permitted := config.handlers.filter fun state =>
    stagePermitted config.schedule state override localNow
  { queued := permitted.contains analyzing &&
      (operationGate config.schedule .taskDiscovery override localNow).permitted
    parkedStates := permitted
    scheduleResumeStates := permitted.filter (transitionMap pausedSchedule).contains
    limitResumeStates := permitted.filter (transitionMap pausedLimit).contains }

/-- The argument of `claimNextTask` in `claimLane`, with the work that the gates
permitted at `gated`. -/
def claimInput (config : SchedulerConfig) (workerId : WorkerId) (lane : ClaimLane)
    (override : ScheduleOverride) (gated now : Instant) : TaskClaimWithLimitInput where
  leaseOwner := workerId
  leaseDurationMs := config.leaseDurationMs
  now := now
  work := claimableWork config override gated
  maxConcurrentTasks := laneLimit config lane
  lane := lane
  repositoryLimits := repositoryLimits config
  rollout := config.rollout

/-! ## The phases of `runTask` -/

/-- Where a `runTask` call is suspended. -/
inductive Phase
  /-- At the loop head, about to read the row. -/
  | boundary
  /-- A cancellation request was seen. -/
  | cancelling (task : Task)
  /-- The manual-intervention flag was seen. -/
  | handingOver (task : Task)
  /-- About to release the lease and stop. -/
  | parking (task : Task)
  /-- About to read the operator controls. -/
  | readingControls (task : Task)
  /-- The stage gate is closed. -/
  | pausingSchedule (task : Task) (gate : Option GateReason)
  /-- The stage handler runs on this snapshot of the row. -/
  | running (task : Task)
  /-- The handler's outcome is about to be applied. -/
  | applying (task : Task) (outcome : StageOutcome) (now : Instant)
  /-- `failTask`, about to read the row. -/
  | failing (message : String)
  /-- `failTask`, about to hand the row to an operator. -/
  | handingBack (task : Task) (message : String)
  deriving DecidableEq

/-- A `runTask` call. `id` is the number of the claim that started it. -/
structure RunEntry where
  id : Nat
  workerId : WorkerId
  taskId : TaskId
  leaseLost : Bool := false
  /-- A heartbeat in progress, with the state its renewal returned. -/
  heartbeatState : Option TaskState := none
  /-- The reason the stage's `AbortController` was aborted with. -/
  abortReason : Option StageAbortReason := none
  phase : Phase := .boundary
  deriving DecidableEq

/-- A call of the task repository on the run's own task. -/
inductive RepositoryCall
  | transition (input : TaskTransitionInput)
  | release (patch : ReleasePatch)
  | defer (untilTime : Instant) (lastError : Option (Option String))
  deriving DecidableEq

def RepositoryCall.perform (call : RepositoryCall) (store : Store) (taskId : TaskId)
    (workerId : WorkerId) (clock : Instant) : Except WorkflowError (Store × Task) :=
  match call with
  | .transition input => transitionTask store input clock
  | .release patch => releaseLease store taskId workerId patch clock
  | .defer untilTime lastError => deferTask store taskId workerId untilTime lastError clock

def maxErrorLength : Nat := 1000

/-- `text.slice(0, maxErrorLength)`. -/
def sliceError (text : String) : String := Kit.utf16Slice maxErrorLength text

/-- `errorMessage` of an error with this name and message. -/
def errorMessage (name message : String) : String :=
  let text := s!"{name}: {message}"
  if maxErrorLength < Kit.utf16Length text.toList then sliceError text ++ "…" else text

def WorkflowError.name : WorkflowError → String
  | .invalidTransition _ _ => "InvalidTransitionError"
  | .leaseOwnership _ => "LeaseOwnershipError"
  | .contractChanged _ => "ContractChangedError"
  | .operatorAction _ _ => "OperatorActionError"
  | .error _ => "Error"

def isLeaseOwnershipError : WorkflowError → Bool
  | .leaseOwnership _ => true
  | _ => false

/-- The transition that applies an `advance` outcome: it keeps the lease. -/
def advanceInput (run : RunEntry) (task : Task) (outcome : AdvanceOutcome) :
    TaskTransitionInput where
  taskId := run.taskId
  toState := outcome.toState
  reason := some (outcome.reason.getD s!"{task.state.text} stage completed")
  leaseOwner := some run.workerId
  incrementCounter := outcome.incrementCounter
  lastError := outcome.lastError.map (·.map sliceError)
  requiresManualIntervention := outcome.requiresManualIntervention

/-- The transition that applies a `pause-limit` outcome. -/
def pauseLimitInput (config : SchedulerConfig) (run : RunEntry) (task : Task)
    (outcome : PauseLimitOutcome) (now : Instant) : TaskTransitionInput where
  taskId := run.taskId
  toState := pausedLimit
  resumeState := some task.state
  pauseReason := some outcome.pauseReason
  resumeAfter := some (outcome.resumeAfter.getD (now + config.usageLimitPauseMs))
  reason := some (outcome.reason.getD s!"Paused for {outcome.pauseReason.text}")
  leaseOwner := some run.workerId
  releaseLease := true

def cancelAtBoundaryInput (run : RunEntry) : TaskTransitionInput where
  taskId := run.taskId
  toState := cancelled
  reason := some "Operator cancellation applied at stage boundary"
  leaseOwner := some run.workerId
  releaseLease := true

def handOverInput (run : RunEntry) : TaskTransitionInput where
  taskId := run.taskId
  toState := blocked
  reason := some "Manual intervention requested"
  leaseOwner := some run.workerId
  releaseLease := true

def pauseScheduleInput (run : RunEntry) (task : Task) (gate : Option GateReason) :
    TaskTransitionInput where
  taskId := run.taskId
  toState := pausedSchedule
  resumeState := some task.state
  pauseReason := some .operatingHoursEnded
  reason := some ("Schedule gate closed: " ++ (gate.map (·.text)).getD "no operation")
  leaseOwner := some run.workerId
  releaseLease := true

def handBackInput (run : RunEntry) (message : String) : TaskTransitionInput where
  taskId := run.taskId
  toState := blocked
  reason := some "Stage failed; manual intervention required"
  leaseOwner := some run.workerId
  releaseLease := true
  lastError := some (some message)
  requiresManualIntervention := some true

/-- The repository call that a suspended run makes next, if it makes one. -/
def phaseCall (config : SchedulerConfig) (run : RunEntry) : Option RepositoryCall :=
  match run.phase with
  | .boundary => none
  | .cancelling _ => some (.transition (cancelAtBoundaryInput run))
  | .handingOver task =>
      -- A task that is `BLOCKED` already only loses its lease.
      if canTransition task.state blocked then some (.transition (handOverInput run))
      else some (.release {})
  | .parking _ => some (.release {})
  | .readingControls _ => none
  | .pausingSchedule task gate => some (.transition (pauseScheduleInput run task gate))
  | .running _ => none
  | .applying task (.advance outcome) _ => some (.transition (advanceInput run task outcome))
  | .applying task (.pauseLimit outcome) now =>
      some (.transition (pauseLimitInput config run task outcome now))
  | .applying _ (.wait outcome) _ =>
      some (.defer outcome.untilTime (outcome.lastError.map (·.map sliceError)))
  | .applying _ .interrupted _ => none
  | .failing _ => none
  | .handingBack task message =>
      if canTransition task.state blocked then some (.transition (handBackInput run message))
      else some (.release { lastError := some message, requiresManualIntervention := some true })

/-- The run is inside `failTask`, which swallows errors and keeps the lease. -/
def Phase.inFailTask : Phase → Bool
  | .failing _ => true
  | .handingBack _ _ => true
  | _ => false

/-- The call applies an `advance`, after which the loop continues. -/
def Phase.isAdvance : Phase → Bool
  | .applying _ (.advance _) _ => true
  | _ => false

end Orchestrator
