import Orchestrator.Repositories.TaskRepository

/-! # Discovered tasks

Creating tasks and recording what blocks them: the intake side of the task
repository (`repositories/task.repository.ts`).
-/

namespace Orchestrator

open Kit TaskState

structure WorkUnitInput where
  repository : String
  outcome : Option String := none
  deriving DecidableEq

structure CreateTaskInput where
  linearIssueId : String
  linearIdentifier : String
  contractSnapshot : PlanningIssue
  complexity : Complexity
  risk : Option String := none
  blockerTaskIds : List TaskId := []
  workUnits : List WorkUnitInput

/-- The row `createTask` inserts; every other column takes its default. -/
def CreateTaskInput.row (input : CreateTaskInput) (id : TaskId) (clock : Instant) : Task :=
  { id, linearIssueId := input.linearIssueId, linearIdentifier := input.linearIdentifier,
    contractSnapshot := input.contractSnapshot, complexity := some input.complexity,
    risk := input.risk, createdAt := clock, updatedAt := clock }

/-- The violated unique index on `linear_issue_id`. -/
def duplicateLinearIssue : WorkflowError :=
  .error "duplicate key value violates unique constraint \"tasks_linear_issue_id_unique\""

def findByLinearIssue (store : Store) (linearIssueId : String) : Option Task :=
  store.tasks.rows.find? fun task => task.linearIssueId = linearIssueId

def createTask (store : Store) (input : CreateTaskInput) (clock : Instant) :
    Except WorkflowError (Store × Task) :=
  if input.workUnits = [] then .error (.error "Task requires at least one work unit")
  else if hasDuplicates (input.workUnits.map (·.repository)) then
    .error (.error "Task work units must use unique repositories")
  else if hasDuplicates input.blockerTaskIds then .error (.error "Task blockers must be unique")
  else match findByLinearIssue store input.linearIssueId with
    | some _ => .error duplicateLinearIssue
    | none =>
        let task := input.row store.freshTaskId clock
        .ok ({ store with
          tasks := store.tasks.insert task
          taskWorkUnits := store.taskWorkUnits ++ input.workUnits.map fun unit =>
            { taskId := task.id, repository := unit.repository, outcome := unit.outcome }
          taskDependencies := store.taskDependencies ++ input.blockerTaskIds.map fun blocker =>
            ⟨task.id, blocker⟩ }, task)

/-- The first statement of `upsertDiscoveredTask`: the row of the Linear issue, or
`ContractChangedError` when its contract is not the persisted one. -/
def discoveredTask (store : Store) (input : CreateTaskInput) :
    Except WorkflowError (Option Task) :=
  match findByLinearIssue store input.linearIssueId with
  | none => .ok none
  | some existing =>
      -- `stableJson` is a canonical text, so equal texts mean equal contracts.
      if existing.contractSnapshot ≠ input.contractSnapshot then
        .error (.contractChanged input.linearIssueId)
      else .ok (some existing)

/-- The row and whether it was created. -/
def upsertDiscoveredTask (store : Store) (input : CreateTaskInput) (clock : Instant) :
    Except WorkflowError (Store × Task × Bool) := do
  match ← discoveredTask store input with
  | some existing => return (store, existing, false)
  | none =>
      let created ← createTask store input clock
      return (created.1, created.2, true)

/-- Replace all dependency rows of a task. -/
def replaceDependencies (store : Store) (taskId : TaskId) (blockerTaskIds : List TaskId) :
    Except WorkflowError Store :=
  if hasDuplicates blockerTaskIds then .error (.error "Task blockers must be unique")
  else .ok { store with
    taskDependencies := (store.taskDependencies.filter fun row => row.taskId ≠ taskId) ++
      blockerTaskIds.map fun blocker => ⟨taskId, blocker⟩ }

def quarantineIntake (store : Store) (row : IntakeQuarantine) : Store :=
  { store with intakeQuarantines := store.intakeQuarantines.upsert row }

end Orchestrator
