import Orchestrator.Execution.DispatchingRunner
import Orchestrator.Execution.WorkspaceChanges
import Orchestrator.Scheduler.RunTask

/-! # What the stage handlers share

The dependencies of a stage, the workspaces it loads, its checkpoints and attempts
(`execution/stages/stage-support.ts`). The writer of a database call is the task and
stage of the execution, so it is not passed along.
-/

namespace Orchestrator

open Kit TaskState

/-- `ExecutionDependencies`: the configuration, and the functions of libraries. -/
structure StageDependencies where
  config : OrchestratorConfig
  maxQualityFixAttempts : Nat := 3
  maxReviewCycles : Nat := 3
  rateLimitRetryMs : Instant := 5 * 60000
  remoteRetryMs : Instant := 5 * 60000
  commitAuthor : CommitAuthor
  diffPolicy : DiffPolicy := {}
  registry : List RegisteredRepository
  /-- The repository has setup commands. -/
  hasSetup : String → Bool := fun _ => false
  secretRules : List SecretRule := []
  knownSecrets : List String := []
  redactSecrets : String → String := id
  /-- Removes the control characters. -/
  stripControl : String → String := id
  contractDigest : PlanningIssue → String

namespace StageDependencies

variable (deps : StageDependencies)

def diffContext : DiffContext where
  policy := deps.diffPolicy
  secretRules := deps.secretRules
  knownSecrets := deps.knownSecrets

/-- `registry.get`. -/
def repository (name : String) : StageProc RegisteredRepository :=
  match deps.registry.find? fun repository => repository.name = name with
  | some repository => pure repository
  | none => .throw (.workspaceBlocked s!"Repository {name} is not in the repository registry")

end StageDependencies

/-! ## Checkpoints -/

def readCheckpoint {T : Type} (key : CheckpointKey) (parse : CheckpointPayload → Option T) :
    StageProc (Option T) := do
  match ← database (.getCheckpoint key) with
  | none => pure none
  | some payload =>
      match parse payload with
      | some value => pure (some value)
      | none => .throw (.workspaceBlocked
          s!"Checkpoint {key.text} is malformed; manual recovery required")

def readAnalysis : StageProc (Option AnalysisCheckpoint) :=
  readCheckpoint .analysis fun
    | .analysis value => some value
    | _ => none

def readSetup : StageProc (Option Heads) :=
  readCheckpoint .setup fun
    | .setup heads => some heads
    | _ => none

def readImplementation : StageProc (Option ImplementationCheckpoint) :=
  readCheckpoint .implementation fun
    | .implementation value => some value
    | _ => none

def readImplementationRejection : StageProc (Option ImplementationRejection) :=
  readCheckpoint .implementationRejection fun
    | .implementationRejection value => some value
    | _ => none

def readQualityPassed : StageProc (Option QualityPassed) :=
  readCheckpoint .qualityPassed fun
    | .qualityPassed value => some value
    | _ => none

def readFixRequest : StageProc (Option FixRequest) :=
  readCheckpoint .fixRequest fun
    | .fixRequest value => some value
    | _ => none

def readFixApplied : StageProc (Option FixApplied) :=
  readCheckpoint .fixApplied fun
    | .fixApplied value => some value
    | _ => none

def readReviewApproved : StageProc (Option ReviewApproved) :=
  readCheckpoint .reviewApproved fun
    | .reviewApproved value => some value
    | _ => none

/-- `context.checkpoint`. -/
def checkpoint (payload : CheckpointPayload) : StageProc Unit :=
  database (.recordCheckpoint payload)

/-! ## Attempts -/

def startAttempt : StageProc Nat := database .startAttempt

def completeAttempt (attempt : Nat) (conclusion : AttemptConclusion) : StageProc Unit :=
  database (.completeAttempt attempt conclusion)

/-! ## Workspaces -/

structure LoadedUnit extends TaskWorkspace where
  head : String
  deriving DecidableEq, Repr

structure LoadedWorkspaces where
  contract : PlanningIssue
  units : List LoadedUnit

def LoadedWorkspaces.heads (loaded : LoadedWorkspaces) : Heads :=
  loaded.units.map fun unit => (unit.repository, unit.head)

/-- `values.join('\0')`. -/
def joinNul (values : List String) : String := "\x00".intercalate values

/-- `validatePlanningIssue(task.contractSnapshot)`. -/
def validatedContract (task : Task) : StageProc PlanningIssue :=
  if planningIssueFindings task.contractSnapshot = [] then pure task.contractSnapshot
  else .throw (.other "ZodError")

/-- `[...contract.repositories].sort()`. -/
def declaredRepositories (contract : PlanningIssue) : List String :=
  (contract.repositories.map (·.text)).insertionSort (· ≤ ·)

/-- `verifyTaskWorkspace`. -/
def verifyTaskWorkspace (deps : StageDependencies) (workspace : TaskWorkspace) :
    StageProc String := do
  let _ ← deps.repository workspace.repository
  service (.verifyOwnedWorkspace workspace)

def loadUnit (deps : StageDependencies) (task : Task) (unit : WorkUnitRow) :
    StageProc LoadedUnit := do
  match unit.workspacePath, unit.branch, unit.baseCommit with
  | some workspacePath, some branch, some baseCommit =>
      let workspace : TaskWorkspace :=
        { repository := unit.repository, workspacePath, branch, baseCommit, taskId := task.id }
      let head ← verifyTaskWorkspace deps workspace
      pure { workspace with head }
  | _, _, _ => .throw (.workspaceBlocked
      s!"Workspace for {unit.repository} has not been prepared")

/-- Loads and verifies every declared repository workspace of the task. -/
def loadTaskWorkspaces (deps : StageDependencies) (task : Task) : StageProc LoadedWorkspaces := do
  let contract ← validatedContract task
  let units ← database .getWorkUnits
  if joinNul (units.map (·.repository)) ≠ joinNul (declaredRepositories contract) then
    .throw (.workspaceBlocked "Work units do not match contract repositories")
  else do
    let loaded ← Proc.each (loadUnit deps task) units
    pure ⟨contract, loaded⟩

/-- `restoreWorkspace` of every unit: whether anything was discarded. -/
def restoreAll (deps : StageDependencies) (loaded : LoadedWorkspaces) : StageProc Bool := do
  let discarded ← Proc.each (fun unit : LoadedUnit => do
    let _ ← deps.repository unit.repository
    service (.restoreWorkspace unit.toTaskWorkspace)) loaded.units
  pure (discarded.any id)

/-- What proves that a read-only agent changed nothing. -/
def workspaceSnapshots (loaded : LoadedWorkspaces) : StageProc (List (String × WorkspaceSnapshot)) :=
  Proc.each (fun unit : LoadedUnit => do
    let taken ← service (.snapshot unit.workspacePath)
    pure (unit.repository, taken)) loaded.units

/-! ## Outcomes -/

def manualIntervention (message : String) (reason : String := "Manual intervention required") :
    StageOutcome :=
  .advance
    { toState := blocked, reason := some reason, lastError := some (some message)
      requiresManualIntervention := some true }

/-- A runner result that stops the stage without consuming an attempt. -/
def pauseOrInterruption {T : Type} (deps : StageDependencies) :
    AgentRunResult T → StageProc (Option (StageOutcome × FailureCategory))
  | .usageLimit message retryAfter =>
      pure (some (.pauseLimit
        { pauseReason := .usageLimit, reason := some message, resumeAfter := retryAfter },
        .usageLimit))
  | .rateLimit message (some retryAfter) =>
      pure (some (.pauseLimit
        { pauseReason := .rateLimit, reason := some message, resumeAfter := some retryAfter },
        .rateLimit))
  | .rateLimit message none => do
      let now ← service .clock
      pure (some (.pauseLimit
        { pauseReason := .rateLimit, reason := some message
          resumeAfter := some (now + deps.rateLimitRetryMs) }, .rateLimit))
  | .cancelled _ => pure (some (.interrupted, .cancelled))
  | _ => pure none

def failureCategoryOf : AgentFailure → FailureCategory
  | .invalidOutput => .invalidOutput
  | .timeout => .timeout
  | .failed => .runnerFailed

/-- A result of the routing functions; their error is thrown. -/
def routed {α : Type} : Except String α → StageProc α
  | .ok value => pure value
  | .error message => .throw (.other message)

def requireAnalysis : StageProc AnalysisResult := do
  match ← readAnalysis with
  | some accepted => pure accepted.plan
  | none => .throw (.workspaceBlocked
      "No accepted analysis exists for this task; manual recovery required")

def plannedPaths (plan : AnalysisResult) : List (String × List String) :=
  plan.repositories.map fun entry => (entry.repository.text, entry.changes)

/-- Commit messages carry model text: control characters go, and the size is bounded. -/
def commitMessage (deps : StageDependencies) (subject body : String)
    (trailers : List (String × String)) : String :=
  let clean (value : String) (limit : Nat) : String :=
    utf16Slice limit (trimText (deps.stripControl value))
  let words := (subject.toList.splitBy fun left right => isBlank left = isBlank right).map
    fun part => if part.any isBlank then [' '] else part
  let lines := trailers.map fun entry => s!"{entry.1}: {clean entry.2 200}"
  "\n\n".intercalate
    ([clean (String.ofList words.flatten) 120, clean body 2000, "\n".intercalate lines].filter
      (· ≠ ""))

/-- `contract.source?.linearIdentifier ?? task.linearIdentifier`. -/
def issueIdentifier (task : Task) (contract : PlanningIssue) : String :=
  (contract.source.map (·.linearIdentifier)).getD task.linearIdentifier

end Orchestrator
