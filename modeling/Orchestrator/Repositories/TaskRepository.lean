import Orchestrator.Store

/-! # The task repository

Every function that changes a task row, as a function of the store it runs in
(`repositories/task.repository.ts`). One definition is one transaction: an error
leaves the store it started from. `clock` is the time `new Date()` reads; `locked`
are the rows other transactions hold, which `SKIP LOCKED` passes over.
-/

namespace Orchestrator

open Kit TaskState

/-! ## One transition -/

structure LeaseUpdate where
  owner : Option WorkerId
  expiresAt : Option Instant
  heartbeatAt : Option Instant
  deriving DecidableEq

def clearedLease : LeaseUpdate := ⟨none, none, none⟩

/-- An absent field is `none`; `lastError` distinguishes absent from `null`. -/
structure LockedTransitionInput where
  toState : TaskState
  reason : Option String := none
  resumeState : Option TaskState := none
  pauseReason : Option PauseReason := none
  resumeAfter : Option Instant := none
  leaseOwner : Option WorkerId := none
  allowExpiredLease : Bool := false
  requiresManualIntervention : Option Bool := none
  lastError : Option (Option String) := none
  clearCancelRequest : Bool := false
  incrementCounter : Option AttemptCounter := none
  resetAttemptCounters : Bool := false
  lease : Option LeaseUpdate := none
  deriving DecidableEq

/-- The new value of one attempt counter; an increment reads the stored value. -/
def nextAttempts (counter : AttemptCounter) (stored : Nat) (input : LockedTransitionInput) : Nat :=
  -- The source assigns the reset first and the increment after it.
  if input.incrementCounter = some counter then stored + 1
  else if input.resetAttemptCounters then 0
  else stored

/-- The `updates` of `transitionLockedTask` applied to the row. -/
def Task.transitioned (task : Task) (transition : StateTransition)
    (input : LockedTransitionInput) (now : Instant) : Task :=
  let paused := transition.target ∈ pauseStates
  { task with
    state := transition.target
    resumeState := transition.resumeState
    pauseReason := transition.pauseReason
    pausedAt := if paused then some now else none
    resumeAfter := if paused then input.resumeAfter else none
    requiresManualIntervention :=
      input.requiresManualIntervention.getD task.requiresManualIntervention
    updatedAt := now
    lastError := input.lastError.getD task.lastError
    cancelRequestedAt := if input.clearCancelRequest then none else task.cancelRequestedAt
    implementationAttempts :=
      nextAttempts .implementationAttempts task.implementationAttempts input
    qualityFixAttempts := nextAttempts .qualityFixAttempts task.qualityFixAttempts input
    reviewAttempts := nextAttempts .reviewAttempts task.reviewAttempts input
    leaseOwner := (input.lease.map (·.owner)).getD task.leaseOwner
    leaseExpiresAt := (input.lease.map (·.expiresAt)).getD task.leaseExpiresAt
    lastHeartbeatAt := (input.lease.map (·.heartbeatAt)).getD task.lastHeartbeatAt }

/-- The two lease checks at the head of `transitionLockedTask`. -/
def leaseGuard (task : Task) (input : LockedTransitionInput) : Except WorkflowError Unit :=
  if task.leaseOwner ≠ none ∧ input.leaseOwner ≠ task.leaseOwner ∧
      input.allowExpiredLease = false then
    .error (.leaseOwnership task.id)
  -- A caller that also writes the lease columns is not asked whether it holds the lease.
  else if input.leaseOwner ≠ none ∧ task.leaseOwner ≠ input.leaseOwner ∧ input.lease = none then
    .error (.leaseOwnership task.id)
  else .ok ()

def LockedTransitionInput.details (input : LockedTransitionInput) : TransitionDetails :=
  ⟨input.reason, input.resumeState, input.pauseReason⟩

/-- Validate and apply one transition to a row the transaction has locked, then
append its history record. -/
def transitionLockedTask (store : Store) (task : Task) (input : LockedTransitionInput)
    (clock : Instant) : Except WorkflowError (Store × Task) := do
  leaseGuard task input
  let transition ← validateTransition task.state input.toState input.details
  let persistedTask := task.transitioned transition input clock
  let store ← store.updateTask persistedTask
  return (store.appendTransition
    ⟨task.id, transition.source, transition.target, transition.reason, clock⟩, persistedTask)

structure TaskTransitionInput where
  taskId : TaskId
  toState : TaskState
  reason : Option String := none
  resumeState : Option TaskState := none
  pauseReason : Option PauseReason := none
  resumeAfter : Option Instant := none
  leaseOwner : Option WorkerId := none
  releaseLease : Bool := false
  lastError : Option (Option String) := none
  requiresManualIntervention : Option Bool := none
  incrementCounter : Option AttemptCounter := none
  deriving DecidableEq

def TaskTransitionInput.locked (input : TaskTransitionInput) : LockedTransitionInput where
  toState := input.toState
  reason := input.reason
  resumeState := input.resumeState
  pauseReason := input.pauseReason
  resumeAfter := input.resumeAfter
  leaseOwner := input.leaseOwner
  lastError := input.lastError
  requiresManualIntervention := input.requiresManualIntervention
  incrementCounter := input.incrementCounter
  lease := if input.releaseLease then some clearedLease else none

def transitionTask (store : Store) (input : TaskTransitionInput) (clock : Instant) :
    Except WorkflowError (Store × Task) :=
  match store.getTask input.taskId with
  | none => .error (taskNotFound input.taskId)
  | some task => transitionLockedTask store task input.locked clock

/-! ## Updates by the lease owner -/

/-- `UPDATE tasks … WHERE id = taskId AND lease_owner = leaseOwner`; no row means
the caller does not own the lease. -/
def updateLeased (store : Store) (taskId : TaskId) (leaseOwner : WorkerId)
    (change : Task → Task) : Except WorkflowError (Store × Task) :=
  match store.getTask taskId with
  | none => .error (.leaseOwnership taskId)
  | some task =>
      if task.leaseOwner = some leaseOwner then
        .ok (store.putTask (change task), change task)
      else .error (.leaseOwnership taskId)

structure ReleasePatch where
  lastError : Option String := none
  requiresManualIntervention : Option Bool := none
  deriving DecidableEq

def Task.released (patch : ReleasePatch) (clock : Instant) (task : Task) : Task :=
  { task with
    leaseOwner := none
    leaseExpiresAt := none
    lastHeartbeatAt := none
    updatedAt := clock
    lastError := if patch.lastError = none then task.lastError else patch.lastError
    requiresManualIntervention :=
      patch.requiresManualIntervention.getD task.requiresManualIntervention }

/-- Release a lease without changing state. -/
def releaseLease (store : Store) (taskId : TaskId) (leaseOwner : WorkerId) (patch : ReleasePatch)
    (clock : Instant) : Except WorkflowError (Store × Task) :=
  updateLeased store taskId leaseOwner (Task.released patch clock)

def Task.deferred (untilTime : Instant) (lastError : Option (Option String)) (clock : Instant)
    (task : Task) : Task :=
  { task with
    leaseOwner := none
    leaseExpiresAt := none
    lastHeartbeatAt := none
    resumeAfter := some untilTime
    updatedAt := clock
    lastError := lastError.getD task.lastError }

/-- Release the lease and keep the state until `untilTime`. -/
def deferTask (store : Store) (taskId : TaskId) (leaseOwner : WorkerId) (untilTime : Instant)
    (lastError : Option (Option String)) (clock : Instant) :
    Except WorkflowError (Store × Task) :=
  updateLeased store taskId leaseOwner (Task.deferred untilTime lastError clock)

def Task.renewed (leaseDurationMs now : Instant) (task : Task) : Task :=
  { task with
    leaseExpiresAt := some (now + leaseDurationMs)
    lastHeartbeatAt := some now
    updatedAt := now }

def heartbeat (store : Store) (taskId : TaskId) (leaseOwner : WorkerId)
    (leaseDurationMs now : Instant) : Except WorkflowError (Store × Task) :=
  if leaseDurationMs ≤ 0 then .error (.error "leaseDurationMs must be positive")
  else updateLeased store taskId leaseOwner (Task.renewed leaseDurationMs now)

/-- A routed model, as `recordModelSelection` receives it. -/
structure SelectedModel where
  tier : String
  model : Option String
  effort : String
  deriving DecidableEq

def Task.modelSelected (selection : SelectedModel) (clock : Instant) (task : Task) : Task :=
  { task with
    selectedModelTier := some selection.tier
    -- An `undefined` value leaves its column out of the update.
    selectedModel := selection.model <|> task.selectedModel
    reasoningEffort := some selection.effort
    updatedAt := clock }

def recordModelSelection (store : Store) (taskId : TaskId) (leaseOwner : WorkerId)
    (selection : SelectedModel) (clock : Instant) : Except WorkflowError (Store × Task) :=
  updateLeased store taskId leaseOwner (Task.modelSelected selection clock)

/-! ## Recovery -/

def Task.flaggedRecovered (reason : String) (clock : Instant) (task : Task) : Task :=
  { task with
    leaseOwner := none
    leaseExpiresAt := none
    lastHeartbeatAt := none
    requiresManualIntervention := true
    lastError := some reason
    updatedAt := clock }

/-- What recovery does to a state that can be blocked. -/
def recoveryInput (reason : String) : LockedTransitionInput :=
  { toState := blocked, reason := some reason, allowExpiredLease := true,
    requiresManualIntervention := some true, lease := some clearedLease }

/-- One turn of the recovery loop. -/
def recoverTask (store : Store) (reason : String) (clock : Instant) (task : Task) :
    Except WorkflowError Store :=
  if canTransition task.state blocked then
    (transitionLockedTask store task (recoveryInput reason) clock).map (·.1)
  else
    -- Defensive in the source: a state without a BLOCKED transition is only flagged.
    store.updateTask (task.flaggedRecovered reason clock)

def recoverEach (reason : String) (clock : Instant) : Store → List Task →
    Except WorkflowError Store
  | store, [] => .ok store
  | store, task :: tasks => do
      let store ← recoverTask store reason clock task
      recoverEach reason clock store tasks

/-- The states recovery leaves alone. -/
def unrecoveredStates : List TaskState := [blocked, completed, cancelled]

def recoveryCandidates (store : Store) (condition : Task → Bool) (locked : List TaskId) :
    List Task :=
  store.tasks.rows.filter fun task =>
    task.leaseOwner.isSome && condition task && !unrecoveredStates.contains task.state &&
      !locked.contains task.id

def recoverLeases (store : Store) (condition : Task → Bool) (reason : String)
    (locked : List TaskId) (clock : Instant) : Except WorkflowError Store :=
  recoverEach reason clock store (recoveryCandidates store condition locked)

/-- `lease_expires_at < now`, which a null expiry never satisfies. -/
def leaseExpired (now : Instant) (task : Task) : Bool :=
  match task.leaseExpiresAt with
  | none => false
  | some expiresAt => expiresAt < now

def recoverExpiredLeases (store : Store) (now : Instant) (locked : List TaskId)
    (clock : Instant) : Except WorkflowError Store :=
  recoverLeases store (leaseExpired now) "Lease expired; manual recovery required" locked clock

def recoverLeasesOwnedBy (store : Store) (leaseOwner : WorkerId) (locked : List TaskId)
    (clock : Instant) : Except WorkflowError Store :=
  recoverLeases store (fun task => task.leaseOwner = some leaseOwner)
    "Worker restarted while holding lease; manual recovery required" locked clock

end Orchestrator
