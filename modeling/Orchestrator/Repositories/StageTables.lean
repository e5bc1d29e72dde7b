import Mathlib.Data.List.MinMax
import Orchestrator.Execution.AgentResults
import Orchestrator.Execution.DiffPolicy
import Orchestrator.Repositories.TaskRepository

/-! # What stages persist

The attempts, checkpoints, external operations and work-unit columns that a stage
handler writes, and the functions that write them (`db/schema.ts`,
`repositories/task.repository.ts`). `holds` says whether the lease column of the task
has the worker id of the caller; `now` is the time `new Date()` reads.
-/

namespace Orchestrator

open Kit TaskState

/-! ## Rows -/

/-- A record of commits, one for each repository. -/
abbrev Heads := List (String × String)

/-- Equality of two records, in whatever order their keys are. -/
def sameHeads (left right : Heads) : Bool :=
  (left.map (·.1) ++ right.map (·.1)).all fun repository =>
    left.lookup repository = right.lookup repository

/-- Why a stage attempt did not succeed. -/
inductive FailureCategory
  | usageLimit | rateLimit | timeout | cancelled | runnerFailed | invalidOutput | agentBlocked
  | needsClarification | workspaceIntegrity | diffRejected | qualityFailed | qualityInfrastructure
  | reviewChangesRequested | reviewRejected | providerUnavailable | providerRejected
  | deliveryRejected | linearUnavailable
  deriving DecidableEq, Repr

def FailureCategory.text : FailureCategory → String
  | .usageLimit => "usage-limit"
  | .rateLimit => "rate-limit"
  | .timeout => "timeout"
  | .cancelled => "cancelled"
  | .runnerFailed => "runner-failed"
  | .invalidOutput => "invalid-output"
  | .agentBlocked => "agent-blocked"
  | .needsClarification => "needs-clarification"
  | .workspaceIntegrity => "workspace-integrity"
  | .diffRejected => "diff-rejected"
  | .qualityFailed => "quality-failed"
  | .qualityInfrastructure => "quality-infrastructure"
  | .reviewChangesRequested => "review-changes-requested"
  | .reviewRejected => "review-rejected"
  | .providerUnavailable => "provider-unavailable"
  | .providerRejected => "provider-rejected"
  | .deliveryRejected => "delivery-rejected"
  | .linearUnavailable => "linear-unavailable"

structure AnalysisCheckpoint where
  contractDigest : String
  attempt : Nat
  plan : AnalysisResult
  deriving DecidableEq

structure ImplementationCheckpoint where
  implementationAttempt : Nat
  commits : Heads
  deriving DecidableEq

structure ImplementationRejection where
  implementationAttempt : Nat
  category : FailureCategory
  detail : String
  deriving DecidableEq

structure QualityPassed where
  heads : Heads
  attempt : Nat
  deriving DecidableEq

inductive FixSource
  | quality | review
  deriving DecidableEq, Repr

structure FixRequest where
  id : String
  source : FixSource
  heads : Heads
  details : List String
  deriving DecidableEq

structure FixApplied where
  requestId : String
  commits : Option Heads
  category : Option FailureCategory
  deriving DecidableEq

structure ReviewApproved where
  heads : Heads
  attempt : Nat
  summary : String
  deriving DecidableEq

inductive CheckpointKey
  | workspacesPrepared | analysis | setup | implementation | implementationRejection
  | qualityPassed | fixRequest | fixApplied | reviewApproved
  deriving DecidableEq, Repr

/-- `workspacesPreparedCheckpoint` and `checkpointKeys`. -/
def CheckpointKey.text : CheckpointKey → String
  | .workspacesPrepared => "workspaces-prepared"
  | .analysis => "analysis-accepted"
  | .setup => "workspace-setup"
  | .implementation => "implementation-committed"
  | .implementationRejection => "implementation-rejected"
  | .qualityPassed => "quality-passed"
  | .fixRequest => "fix-request"
  | .fixApplied => "fix-applied"
  | .reviewApproved => "review-approved"

/-- A payload, in the shape that the schema of its slot describes. -/
inductive CheckpointPayload
  | workspacesPrepared (repositories : List String)
  | analysis (value : AnalysisCheckpoint)
  | setup (heads : Heads)
  | implementation (value : ImplementationCheckpoint)
  | implementationRejection (value : ImplementationRejection)
  | qualityPassed (value : QualityPassed)
  | fixRequest (value : FixRequest)
  | fixApplied (value : FixApplied)
  | reviewApproved (value : ReviewApproved)
  deriving DecidableEq

/-- The slot that stages write the payload to. -/
def CheckpointPayload.key : CheckpointPayload → CheckpointKey
  | .workspacesPrepared _ => .workspacesPrepared
  | .analysis _ => .analysis
  | .setup _ => .setup
  | .implementation _ => .implementation
  | .implementationRejection _ => .implementationRejection
  | .qualityPassed _ => .qualityPassed
  | .fixRequest _ => .fixRequest
  | .fixApplied _ => .fixApplied
  | .reviewApproved _ => .reviewApproved

/-- A row of `task_checkpoints`. -/
structure TaskCheckpoint where
  taskId : TaskId
  stage : TaskState
  payload : CheckpointPayload
  completedAt : Instant
  deriving DecidableEq

/-- `task_checkpoints_task_checkpoint_key_unique`. -/
def TaskCheckpoint.slot (row : TaskCheckpoint) : TaskId × CheckpointKey :=
  (row.taskId, row.payload.key)

/-- One command of a quality gate. -/
structure QualityCommandResult where
  name : String
  passed : Bool
  outcome : String
  exitCode : Option Int
  deriving DecidableEq, Repr

structure RepositoryQualityReport where
  repository : String
  passed : Bool
  infrastructureError : Option String
  aborted : Bool
  results : List QualityCommandResult
  deriving DecidableEq, Repr

/-- A pull request as the evidence of its delivery names it. -/
structure DeliveredPullRequest where
  repository : String
  github : String
  number : Nat
  url : String
  head : String
  deriving DecidableEq, Repr

/-- What a later observation reads of `delivery_observation`. -/
structure DeliveryObservation where
  headSha : String
  headFirstObservedAt : Instant
  deriving DecidableEq, Repr

/-- A work unit as the evidence of an observation names it. -/
structure ObservedDelivery where
  repository : String
  status : String
  reason : String
  observation : Option DeliveryObservation
  deriving DecidableEq, Repr

/-- The results of attempts: the validated outputs of agents. -/
inductive AttemptResult
  | analysis (output : AnalysisResult)
  | change (output : ChangeResult)
  | review (output : ReviewResult)
  deriving DecidableEq, Repr

/-- The evidence of attempts; each shape is one that some stage records. -/
inductive AttemptEvidence
  | message (message : String)
  | problems (problems : List String)
  | detail (detail : Option String)
  | reports (reports : List RepositoryQualityReport)
  | setup (reports : List RepositoryQualityReport) (discardedSetupArtifacts : Bool)
  | quality (reports : List RepositoryQualityReport) (discardedArtifacts : Bool)
  | rejected (detail : String) (violations : List DiffViolation) (diff : List DiffEvidence)
  | committed (commits : Heads) (diff : List DiffEvidence)
  | verdict (declaredVerdict verdict : ReviewVerdict)
  | pullRequests (pullRequests : List DeliveredPullRequest)
  | units (units : List ObservedDelivery)
  deriving DecidableEq, Repr

/-- What `completeAttempt` is given; nothing is recorded of what a stage leaves out. -/
structure AttemptConclusion where
  category : Option FailureCategory := none
  result : Option AttemptResult := none
  evidence : Option AttemptEvidence := none
  usage : Option AgentUsage := none
  deriving DecidableEq, Repr

/-- A row of `task_attempts`. -/
structure TaskAttempt where
  taskId : TaskId
  stage : TaskState
  attempt : Nat
  failureCategory : Option FailureCategory := none
  result : Option AttemptResult := none
  evidence : Option AttemptEvidence := none
  usage : Option AgentUsage := none
  startedAt : Instant
  completedAt : Option Instant := none
  deriving DecidableEq

/-- `task_attempts_task_stage_attempt_unique`. -/
def TaskAttempt.number (row : TaskAttempt) : TaskId × TaskState × Nat :=
  (row.taskId, row.stage, row.attempt)

def TaskAttempt.restarted (now : Instant) (row : TaskAttempt) : TaskAttempt :=
  { row with startedAt := now }

def TaskAttempt.concluded (conclusion : AttemptConclusion) (now : Instant)
    (row : TaskAttempt) : TaskAttempt :=
  { row with
    failureCategory := conclusion.category, result := conclusion.result
    evidence := conclusion.evidence, usage := conclusion.usage, completedAt := some now }

inductive ExternalOperationType
  | gitPush | githubPullRequest | linearAttachment | linearComment
  deriving DecidableEq, Repr

inductive RemoteBranchKind
  | absent | atCommit | containsCommit | diverged
  deriving DecidableEq, Repr

/-- The responses that the four operations store. -/
inductive OperationResponse
  | push (state : RemoteBranchKind) (remoteHead : Option String)
  | pullRequest (number : Nat) (url : String) (reconciled : Bool)
  | attachment (attachmentId : String)
  | comment (commentId : String) (reconciled : Bool)
  deriving DecidableEq, Repr

inductive OperationStatus
  | pending | succeeded
  deriving DecidableEq, Repr

/-- A row of `external_operations`. -/
structure ExternalOperation where
  id : Nat
  taskId : TaskId
  operationType : ExternalOperationType
  idempotencyKey : String
  status : OperationStatus := .pending
  response : Option OperationResponse := none
  deriving DecidableEq

def ExternalOperation.succeededWith (response : OperationResponse) (row : ExternalOperation) :
    ExternalOperation :=
  { row with status := .succeeded, response := some response }

/-- A pull request as a work unit remembers it. -/
structure RecordedPullRequest where
  number : Nat
  url : String
  deriving DecidableEq, Repr

/-- The columns of a row of `task_work_units` that stages write. -/
structure WorkUnitRow where
  taskId : TaskId
  repository : String
  state : TaskState := queued
  outcome : Option String := none
  workspacePath : Option String := none
  branch : Option String := none
  baseCommit : Option String := none
  pushedCommit : Option String := none
  pullRequest : Option RecordedPullRequest := none
  mergeCommit : Option String := none
  deliveryObservation : Option DeliveryObservation := none
  deriving DecidableEq

/-- `task_work_units_task_repository_unique`. -/
def WorkUnitRow.unit (row : WorkUnitRow) : TaskId × String := (row.taskId, row.repository)

structure StageTables where
  taskAttempts : Table TaskAttempt.number := Table.empty
  taskCheckpoints : Table TaskCheckpoint.slot := Table.empty
  externalOperations : Table ExternalOperation.idempotencyKey := Table.empty
  taskWorkUnits : Table WorkUnitRow.unit := Table.empty
  deriving DecidableEq

/-! ## Errors -/

inductive GitHubErrorKind
  | transient | rateLimit | auth | notFound | rejected | invalidResponse
  deriving DecidableEq, Repr

/-- The errors that stages tell apart. -/
inductive StageError
  | leaseOwnership (taskId : TaskId)
  | workspaceBlocked (message : String)
  | remoteUnavailable (message : String)
  | gitHub (kind : GitHubErrorKind) (status : Option Nat) (retryAfter : Option Instant)
      (message : String)
  | linearSync (message : String)
  | deliveryRejected (message : String)
  | other (message : String)
  deriving DecidableEq

/-! ## The repository functions -/

/-- The stage on whose behalf a function is called. -/
structure StageWriter where
  taskId : TaskId
  stage : TaskState
  deriving DecidableEq

namespace StageTables

variable (tables : StageTables) (writer : StageWriter)

/-- `getWorkUnits`, ordered by repository. -/
def getWorkUnits (taskId : TaskId) : List WorkUnitRow :=
  (tables.taskWorkUnits.rows.filter fun row => row.taskId = taskId).insertionSort
    fun left right => left.repository ≤ right.repository

def getCheckpoint (taskId : TaskId) (key : CheckpointKey) : Option CheckpointPayload :=
  (tables.taskCheckpoints.find? (taskId, key)).map (·.payload)

def recordCheckpoint (payload : CheckpointPayload) (now : Instant) : StageTables :=
  { tables with
    taskCheckpoints :=
      tables.taskCheckpoints.upsert ⟨writer.taskId, writer.stage, payload, now⟩ }

/-- The attempts of one stage of a task. -/
def attemptsOf (taskId : TaskId) (stage : TaskState) : List TaskAttempt :=
  tables.taskAttempts.rows.filter fun row => row.taskId = taskId && row.stage = stage

/-- `ORDER BY attempt DESC LIMIT 1`. -/
def latestAttempt (taskId : TaskId) (stage : TaskState) : Option TaskAttempt :=
  (tables.attemptsOf taskId stage).argmax (·.attempt)

def putAttempt (row : TaskAttempt) : StageTables :=
  { tables with taskAttempts := tables.taskAttempts.put row }

def addAttempt (attempt : Nat) (now : Instant) : StageTables :=
  { tables with
    taskAttempts := tables.taskAttempts.insert
      { taskId := writer.taskId, stage := writer.stage, attempt, startedAt := now } }

/-- A run that never completed is reused. -/
def startAttempt (holds : Bool) (now : Instant) : Except StageError (StageTables × Nat) :=
  if !holds then .error (.leaseOwnership writer.taskId)
  else
    match tables.latestAttempt writer.taskId writer.stage with
    | some latest =>
        if latest.completedAt = none then
          .ok (tables.putAttempt (latest.restarted now), latest.attempt)
        else .ok (tables.addAttempt writer (latest.attempt + 1) now, latest.attempt + 1)
    | none => .ok (tables.addAttempt writer 1 now, 1)

def completeAttempt (attempt : Nat) (conclusion : AttemptConclusion) (now : Instant) :
    Except StageError (StageTables × Unit) :=
  match tables.taskAttempts.find? (writer.taskId, writer.stage, attempt) with
  | none => .error (.other
      s!"Attempt not found: {writer.stage.text} {attempt} for task {writer.taskId}")
  | some row => .ok (tables.putAttempt (row.concluded conclusion now), ())

/-- An operation id no row uses. -/
def freshOperationId : Nat :=
  (tables.externalOperations.rows.map ExternalOperation.id).foldr max 0 + 1

/-- The existing record of the key, or a new one and `created`. -/
def beginExternalOperation (operationType : ExternalOperationType) (idempotencyKey : String) :
    StageTables × ExternalOperation × Bool :=
  match tables.externalOperations.find? idempotencyKey with
  | some operation => (tables, operation, false)
  | none =>
      let operation : ExternalOperation :=
        { id := tables.freshOperationId, taskId := writer.taskId, operationType, idempotencyKey }
      ({ tables with externalOperations := tables.externalOperations.insert operation },
        operation, true)

def completeExternalOperation (holds : Bool) (operationId : Nat) (response : OperationResponse) :
    Except StageError (StageTables × Unit) :=
  match tables.externalOperations.rows.find? fun row =>
      row.id = operationId && row.taskId = writer.taskId && holds with
  | none => .error (.leaseOwnership writer.taskId)
  | some row =>
      let operation := row.succeededWith response
      .ok ({ tables with externalOperations := tables.externalOperations.put operation }, ())

end StageTables

/-- The identity of a prepared workspace. -/
structure WorkspaceIdentity where
  repository : String
  workspacePath : String
  branch : String
  baseCommit : String
  deriving DecidableEq, Repr

/-- An absent field is `none`; nullable columns distinguish absent from `null`. -/
structure WorkUnitDeliveryUpdate where
  state : Option TaskState := none
  outcome : Option (Option String) := none
  pushedCommit : Option String := none
  pullRequest : Option RecordedPullRequest := none
  mergeCommit : Option (Option String) := none
  observation : Option (Option DeliveryObservation) := none
  deriving DecidableEq

def WorkUnitRow.prepared (identity : WorkspaceIdentity) (row : WorkUnitRow) : WorkUnitRow :=
  { row with
    workspacePath := some identity.workspacePath
    branch := some identity.branch
    baseCommit := some identity.baseCommit }

def WorkUnitRow.delivered (delivery : WorkUnitDeliveryUpdate) (row : WorkUnitRow) : WorkUnitRow :=
  { row with
    state := delivery.state.getD row.state
    outcome := delivery.outcome.getD row.outcome
    pushedCommit := delivery.pushedCommit.or row.pushedCommit
    pullRequest := delivery.pullRequest.or row.pullRequest
    mergeCommit := delivery.mergeCommit.getD row.mergeCommit
    deliveryObservation := delivery.observation.getD row.deliveryObservation }

namespace StageTables

variable (tables : StageTables) (writer : StageWriter)

/-- `UPDATE task_work_units … WHERE … AND EXISTS (leased)`; `clashes` is a unique index
that another row with the new values violates. -/
def updateWorkUnit (holds : Bool) (repository : String) (change : WorkUnitRow → WorkUnitRow)
    (clashes : WorkUnitRow → WorkUnitRow → Bool) (conflict : StageError) :
    Except StageError (StageTables × Unit) :=
  match tables.taskWorkUnits.find? (writer.taskId, repository) with
  | none => .error (.leaseOwnership writer.taskId)
  | some row =>
      if !holds then .error (.leaseOwnership writer.taskId)
      else if tables.taskWorkUnits.rows.any fun other =>
          other.unit ≠ row.unit && clashes (change row) other then .error conflict
      else .ok ({ tables with taskWorkUnits := tables.taskWorkUnits.put (change row) }, ())

def recordWorkUnitWorkspace (holds : Bool) (identity : WorkspaceIdentity) :
    Except StageError (StageTables × Unit) :=
  tables.updateWorkUnit writer holds identity.repository (WorkUnitRow.prepared identity)
    (fun row other => (row.repository = other.repository && row.branch = other.branch) ||
      row.workspacePath = other.workspacePath)
    (.other (s!"Workspace branch or path for {identity.repository} is already recorded by " ++
      "another work unit"))

def recordWorkUnitDelivery (holds : Bool) (repository : String)
    (delivery : WorkUnitDeliveryUpdate) : Except StageError (StageTables × Unit) :=
  tables.updateWorkUnit writer holds repository (WorkUnitRow.delivered delivery)
    (fun row other => row.repository = other.repository && row.pullRequest.isSome &&
      row.pullRequest.map (·.number) = other.pullRequest.map (·.number))
    (.other "duplicate key value violates unique constraint")

end StageTables

/-! ## One call -/

/-- A call of a stage on the task repository. -/
inductive DatabaseCall
  | getWorkUnits
  | getCheckpoint (key : CheckpointKey)
  | recordCheckpoint (payload : CheckpointPayload)
  | startAttempt
  | completeAttempt (attempt : Nat) (conclusion : AttemptConclusion)
  | recordModelSelection (selection : SelectedModel)
  | beginExternalOperation (operationType : ExternalOperationType) (idempotencyKey : String)
  | completeExternalOperation (operationId : Nat) (response : OperationResponse)
  | recordWorkUnitWorkspace (identity : WorkspaceIdentity)
  | recordWorkUnitDelivery (repository : String) (delivery : WorkUnitDeliveryUpdate)
  deriving DecidableEq

abbrev DatabaseCall.Answer : DatabaseCall → Type
  | .getWorkUnits => List WorkUnitRow
  | .getCheckpoint _ => Option CheckpointPayload
  | .startAttempt => Nat
  | .beginExternalOperation _ _ => ExternalOperation × Bool
  | _ => Unit

/-- The transaction of a call. `recordModelSelection` writes the task row, which is not
in these tables. -/
def DatabaseCall.perform (writer : StageWriter) (holds : Bool) (now : Instant)
    (tables : StageTables) : (call : DatabaseCall) → Except StageError (StageTables × call.Answer)
  | .getWorkUnits => .ok (tables, tables.getWorkUnits writer.taskId)
  | .getCheckpoint key => .ok (tables, tables.getCheckpoint writer.taskId key)
  | .recordCheckpoint payload => .ok (tables.recordCheckpoint writer payload now, ())
  | .startAttempt => tables.startAttempt writer holds now
  | .completeAttempt attempt conclusion => tables.completeAttempt writer attempt conclusion now
  | .recordModelSelection _ =>
      if holds then .ok (tables, ()) else .error (.leaseOwnership writer.taskId)
  | .beginExternalOperation operationType idempotencyKey =>
      .ok (tables.beginExternalOperation writer operationType idempotencyKey)
  | .completeExternalOperation operationId response =>
      tables.completeExternalOperation writer holds operationId response
  | .recordWorkUnitWorkspace identity => tables.recordWorkUnitWorkspace writer holds identity
  | .recordWorkUnitDelivery repository delivery =>
      tables.recordWorkUnitDelivery writer holds repository delivery

/-- The tables once the transaction has ended. -/
def DatabaseCall.after (writer : StageWriter) (holds : Bool) (now : Instant)
    (tables : StageTables) (call : DatabaseCall) : StageTables :=
  match call.perform writer holds now tables with
  | .ok (tables', _) => tables'
  | .error _ => tables

/-- The calls that write without asking for the lease. -/
def DatabaseCall.unfenced : DatabaseCall → Bool
  | .recordCheckpoint _ => true
  | .completeAttempt _ _ => true
  | .beginExternalOperation _ _ => true
  | _ => false

/-- Every other call changes nothing without the lease. -/
theorem after_of_not_holds {writer : StageWriter} {now : Instant} {tables : StageTables}
    {call : DatabaseCall} (hfenced : call.unfenced = false) :
    call.after writer false now tables = tables := by
  unfold DatabaseCall.after
  cases call with
  | getWorkUnits => rfl
  | getCheckpoint key => rfl
  | recordCheckpoint payload => cases hfenced
  | startAttempt => rfl
  | completeAttempt attempt conclusion => cases hfenced
  | recordModelSelection selection => rfl
  | beginExternalOperation operationType idempotencyKey => cases hfenced
  | completeExternalOperation operationId response =>
      have hnone : (tables.externalOperations.rows.find? fun row =>
          row.id = operationId && row.taskId = writer.taskId && false) = none := by
        simp [List.find?_eq_none]
      simp only [DatabaseCall.perform, StageTables.completeExternalOperation, hnone]
  | recordWorkUnitWorkspace identity =>
      simp only [DatabaseCall.perform, StageTables.recordWorkUnitWorkspace,
        StageTables.updateWorkUnit]
      cases tables.taskWorkUnits.find? (writer.taskId, identity.repository) <;> rfl
  | recordWorkUnitDelivery repository delivery =>
      simp only [DatabaseCall.perform, StageTables.recordWorkUnitDelivery,
        StageTables.updateWorkUnit]
      cases tables.taskWorkUnits.find? (writer.taskId, repository) <;> rfl

end Orchestrator
