import Orchestrator.Intake.PlanningContract
import Orchestrator.Kit.Table
import Orchestrator.StateMachine

/-! # The persisted workflow

The rows of `db/schema.ts` that the workflow functions read or write. Column
defaults are field defaults.
-/

namespace Orchestrator

open Kit

/-- A row of `tasks`. -/
structure Task where
  id : TaskId
  linearIssueId : String
  linearIdentifier : String
  contractSnapshot : PlanningIssue
  state : TaskState := .queued
  resumeState : Option TaskState := none
  complexity : Option Complexity := none
  risk : Option String := none
  selectedModelTier : Option String := none
  selectedModel : Option String := none
  reasoningEffort : Option String := none
  implementationAttempts : Nat := 0
  qualityFixAttempts : Nat := 0
  reviewAttempts : Nat := 0
  pauseReason : Option PauseReason := none
  pausedAt : Option Instant := none
  lastError : Option String := none
  leaseOwner : Option WorkerId := none
  leaseExpiresAt : Option Instant := none
  lastHeartbeatAt : Option Instant := none
  requiresManualIntervention : Bool := false
  resumeAfter : Option Instant := none
  cancelRequestedAt : Option Instant := none
  createdAt : Instant
  updatedAt : Instant
  deriving DecidableEq

/-- A row of `state_transitions`; rows are appended, never changed. -/
structure StateTransitionRow where
  taskId : TaskId
  fromState : TaskState
  toState : TaskState
  reason : Option String
  createdAt : Instant
  deriving DecidableEq

/-- A row of `task_dependencies`. -/
structure TaskDependency where
  taskId : TaskId
  blockerTaskId : TaskId
  deriving DecidableEq

/-- A row of `task_work_units`. -/
structure TaskWorkUnit where
  taskId : TaskId
  repository : String
  outcome : Option String := none
  deriving DecidableEq

/-- What a quarantined candidate carries: the Linear text, or the whole contract. -/
inductive QuarantinePayload
  | description (description : String) (branchName : Option String)
  | contract (issue : PlanningIssue)
  deriving DecidableEq

/-- A row of `intake_quarantines`. -/
structure IntakeQuarantine where
  linearIssueId : String
  linearIdentifier : String
  reason : String
  payload : QuarantinePayload
  lastSeenAt : Instant
  deriving DecidableEq

/-- The single row of `orchestrator_controls`. -/
structure OrchestratorControls where
  pauseNewWork : Bool := false
  scheduleOverride : ScheduleOverride := .normal
  killSwitch : Bool := false
  updatedBy : Option String := none
  updatedAt : Instant := 0
  deriving DecidableEq

inductive OperatorActionType
  | pauseNewWork | resumeNewWork | setScheduleOverride | engageKillSwitch | releaseKillSwitch
  | retryTask | cancelTask | requestCancelTask | requireManualIntervention
  deriving DecidableEq

/-- A row of `operator_actions`. -/
structure OperatorAction where
  action : OperatorActionType
  actor : String
  reason : String
  taskId : Option TaskId
  details : List (String × Option String)
  deriving DecidableEq

abbrev TaskTable := Table Task.id

structure Store where
  tasks : TaskTable := Table.empty
  stateTransitions : List StateTransitionRow := []
  taskDependencies : List TaskDependency := []
  taskWorkUnits : List TaskWorkUnit := []
  intakeQuarantines : Table IntakeQuarantine.linearIssueId := Table.empty
  orchestratorControls : Option OrchestratorControls := none
  operatorActions : List OperatorAction := []

namespace Store

variable (store : Store)

/-- `getTask`. -/
def getTask (taskId : TaskId) : Option Task := store.tasks.find? taskId

/-- The transitions of one task, oldest first. -/
def history (taskId : TaskId) : List StateTransitionRow :=
  store.stateTransitions.filter fun row => row.taskId = taskId

/-- Some work unit of the task is in one of the repositories. -/
def touches (taskId : TaskId) (repositories : List String) : Bool :=
  store.taskWorkUnits.any fun unit => unit.taskId = taskId && repositories.contains unit.repository

/-- `listUnfinishedBlockers`: dependency rows joined with blockers not `COMPLETED`. -/
def listUnfinishedBlockers (taskId : TaskId) : List Task :=
  (store.taskDependencies.filter fun row => row.taskId = taskId).filterMap fun row =>
    (store.getTask row.blockerTaskId).filter fun blocker => blocker.state ≠ .completed

/-- A task id no row uses. -/
def freshTaskId : TaskId := (store.tasks.rows.map Task.id).foldr max 0 + 1

theorem id_lt_freshTaskId {task : Task} (h : task ∈ store.tasks.rows) :
    task.id < store.freshTaskId := by
  have hle := le_foldr_max (List.mem_map_of_mem (f := Task.id) h)
  exact Nat.lt_succ_of_le hle

theorem getTask_freshTaskId : store.getTask store.freshTaskId = none := by
  rw [getTask, Table.find?_eq_none_iff]
  exact fun task h => (store.id_lt_freshTaskId h).ne

theorem getTask_eq_some_iff {store : Store} {taskId : TaskId} {task : Task} :
    store.getTask taskId = some task ↔ task ∈ store.tasks.rows ∧ task.id = taskId :=
  Table.find?_eq_some_iff

theorem mem_listUnfinishedBlockers {store : Store} {taskId : TaskId} {blocker : Task} :
    blocker ∈ store.listUnfinishedBlockers taskId ↔
      blocker ∈ store.tasks.rows ∧ blocker.state ≠ .completed ∧
        ⟨taskId, blocker.id⟩ ∈ store.taskDependencies := by
  simp only [listUnfinishedBlockers, List.mem_filterMap, List.mem_filter, decide_eq_true_eq,
    Option.filter_eq_some_iff, getTask_eq_some_iff]
  constructor
  · rintro ⟨⟨_, _⟩, ⟨hrow, rfl⟩, ⟨hmem, rfl⟩, hstate⟩
    exact ⟨hmem, by simpa using hstate, hrow⟩
  · rintro ⟨hmem, hstate, hrow⟩
    exact ⟨⟨taskId, blocker.id⟩, ⟨hrow, rfl⟩, ⟨hmem, rfl⟩, by simpa using hstate⟩

/-! ## The two ways a task row changes -/

/-- Replace the row that has this id. -/
def putTask (row : Task) : Store := { store with tasks := store.tasks.put row }

/-- `UPDATE tasks … WHERE id = row.id`, with the error of a row that is gone. -/
def updateTask (row : Task) : Except WorkflowError Store :=
  match store.getTask row.id with
  | none => .error (taskNotFound row.id)
  | some _ => .ok (store.putTask row)

/-- Append a history record. -/
def appendTransition (row : StateTransitionRow) : Store :=
  { store with stateTransitions := store.stateTransitions ++ [row] }

theorem updateTask_eq_ok {store : Store} {row old : Task} (h : store.getTask row.id = some old) :
    store.updateTask row = .ok (store.putTask row) := by
  simp [updateTask, h]

theorem getTask_putTask_self {store : Store} {old : Task} (row : Task)
    (h : store.getTask row.id = some old) : (store.putTask row).getTask row.id = some row :=
  Table.find?_put_self h

theorem getTask_putTask_of_ne {store : Store} {row : Task} {taskId : TaskId}
    (h : taskId ≠ row.id) : (store.putTask row).getTask taskId = store.getTask taskId :=
  Table.find?_put_of_ne h

end Store

/-! ## Sample rows

The rows of the witnesses and counterexamples differ in id and state only.
-/

def sampleTask (id : TaskId) (state : TaskState) : Task :=
  { id, linearIssueId := s!"linear-{id}", linearIdentifier := s!"AI-{id}",
    contractSnapshot := sampleIssue "task" [], state, createdAt := 0, updatedAt := 0 }

def sampleStore (rows : List Task) : Store where
  tasks := rows.foldl Table.insert Table.empty
  taskWorkUnits := rows.map fun row => { taskId := row.id, repository := "web" }

end Orchestrator
