import Orchestrator.Repositories.TaskRepository

/-! # The operator repository

Operator controls and task actions, each with its audit record
(`repositories/operator.repository.ts`).
-/

namespace Orchestrator

open Kit TaskState

structure OperatorContext where
  actor : String
  reason : String
  deriving DecidableEq

namespace Store

variable (store : Store)

def getControls : OrchestratorControls := store.orchestratorControls.getD {}

def audit (action : OperatorActionType) (context : OperatorContext) (taskId : Option TaskId)
    (details : List (String × Option String)) : Store :=
  { store with
    operatorActions := store.operatorActions ++
      [⟨action, context.actor, context.reason, taskId, details⟩] }

end Store

/-! ## Controls -/

/-- Insert or patch the single controls row. -/
def updateControls (store : Store) (patch : OrchestratorControls → OrchestratorControls)
    (action : OperatorActionType) (context : OperatorContext)
    (details : List (String × Option String)) (clock : Instant) : Store :=
  -- The first patch starts from the column defaults.
  let row := { patch store.getControls with updatedBy := some context.actor, updatedAt := clock }
  Store.audit { store with orchestratorControls := some row } action context none details

def setPauseNewWork (store : Store) (paused : Bool) (context : OperatorContext)
    (clock : Instant) : Store :=
  updateControls store (fun row => { row with pauseNewWork := paused })
    (if paused then .pauseNewWork else .resumeNewWork) context [] clock

def setKillSwitch (store : Store) (engaged : Bool) (context : OperatorContext)
    (clock : Instant) : Store :=
  updateControls store (fun row => { row with killSwitch := engaged })
    (if engaged then .engageKillSwitch else .releaseKillSwitch) context [] clock

def ScheduleOverride.text : ScheduleOverride → String
  | .normal => "normal"
  | .enabled => "enabled"
  | .disabled => "disabled"

def setScheduleOverride (store : Store) (override : ScheduleOverride) (context : OperatorContext)
    (clock : Instant) : Store :=
  updateControls store (fun row => { row with scheduleOverride := override })
    .setScheduleOverride context [("scheduleOverride", some override.text)] clock

/-! ## Task actions -/

/-- Run `operation` on a row read `FOR UPDATE`. -/
def withLockedTask {α : Type} (store : Store) (taskId : TaskId)
    (operation : Task → Except WorkflowError (Store × α)) : Except WorkflowError (Store × α) :=
  match store.getTask taskId with
  | none => .error (.operatorAction s!"Task not found: {taskId}" .notFound)
  | some task => operation task

def retryInput (task : Task) (context : OperatorContext) : LockedTransitionInput :=
  { toState := queued
    reason := some s!"Operator retry by {context.actor}: {context.reason}"
    requiresManualIntervention := some false
    lastError := some none
    clearCancelRequest := true
    -- A failed task exhausted its bounded attempts; a retry grants one new cycle.
    resetAttemptCounters := task.state = failed }

/-- Re-queue a `BLOCKED` or `FAILED` task. -/
def retryTask (store : Store) (taskId : TaskId) (context : OperatorContext) (clock : Instant) :
    Except WorkflowError (Store × Task) :=
  withLockedTask store taskId fun task =>
    match task.leaseOwner with
    | some owner =>
        .error (.operatorAction s!"Task {taskId} is leased by {owner}" .conflict)
    | none =>
        if canTransition task.state queued = false then
          .error (.operatorAction
            s!"Task {taskId} cannot be retried from {task.state.text}" .conflict)
        else do
          let updated ← transitionLockedTask store task (retryInput task context) clock
          return (updated.1.audit .retryTask context (some task.id)
            [("from", some task.state.text)], updated.2)

def Task.cancelRequested (clock : Instant) (task : Task) : Task :=
  { task with
    cancelRequestedAt := some (task.cancelRequestedAt.getD clock)
    updatedAt := clock }

def cancelInput (context : OperatorContext) : LockedTransitionInput :=
  { toState := cancelled
    reason := some s!"Operator cancellation by {context.actor}: {context.reason}" }

/-- Cancel an unleased task; leave a request for the owner of a leased one. The
flag of the result tells whether the cancellation is still pending. -/
def cancelTask (store : Store) (taskId : TaskId) (context : OperatorContext) (clock : Instant) :
    Except WorkflowError (Store × Task × Bool) :=
  withLockedTask store taskId fun task =>
    if canTransition task.state cancelled = false then
      .error (.operatorAction
        s!"Task {taskId} cannot be cancelled from {task.state.text}" .conflict)
    else match task.leaseOwner with
      | some owner => do
          let row := task.cancelRequested clock
          let store ← store.updateTask row
          return (store.audit .requestCancelTask context (some task.id)
            [("state", some task.state.text), ("leaseOwner", some owner)], row, true)
      | none => do
          let updated ← transitionLockedTask store task (cancelInput context) clock
          return (updated.1.audit .cancelTask context (some task.id)
            [("from", some task.state.text)], updated.2, false)

def manualNote (context : OperatorContext) : String :=
  s!"Manual intervention requested by {context.actor}: {context.reason}"

def Task.manualRequired (note : String) (clock : Instant) (task : Task) : Task :=
  { task with
    requiresManualIntervention := true
    lastError := some note
    updatedAt := clock }

def manualInput (context : OperatorContext) : LockedTransitionInput :=
  { toState := blocked
    reason := some (manualNote context)
    requiresManualIntervention := some true
    lastError := some (some (manualNote context)) }

/-- Block an unleased task; flag a leased one for its owner to hand back. -/
def requireManualIntervention (store : Store) (taskId : TaskId) (context : OperatorContext)
    (clock : Instant) : Except WorkflowError (Store × Task) :=
  withLockedTask store taskId fun task =>
    if task.state ∈ terminalStates then
      .error (.operatorAction s!"Task {taskId} is already {task.state.text}" .conflict)
    else do
      let updated ←
        -- A leased row keeps its state: its owner hands it over at the next boundary.
        if task.leaseOwner = none ∧ canTransition task.state blocked = true then
          transitionLockedTask store task (manualInput context) clock
        else do
          let row := task.manualRequired (manualNote context) clock
          let store ← store.updateTask row
          pure (store, row)
      return (updated.1.audit .requireManualIntervention context (some task.id)
        [("state", some task.state.text), ("leaseOwner", task.leaseOwner)], updated.2)

end Orchestrator
