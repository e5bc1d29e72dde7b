import Orchestrator.Execution.Stages.StageSupport

/-! # `ANALYZING` and `READY`

Workspace preparation, analysis and setup (`workspaces/preparation-stage.ts`,
`execution/stages/analysis-stage.ts`, `ready-stage.ts`).
-/

namespace Orchestrator

open Kit TaskState

variable (deps : StageDependencies) (task : Task)

/-! ## Preparation -/

/-- The `catch` of a work unit's preparation. -/
def preparationFailed (failure : StageError) :
    StageProc (Except StageOutcome WorkspaceIdentity) :=
  match failure with
  | .remoteUnavailable message => do
      let now ← service .clock
      pure (.error (.pauseLimit
        { pauseReason := .remoteUnavailable, resumeAfter := some (now + deps.remoteRetryMs)
          reason := some message }))
  | _ => .throw failure

/-- One round of the loop over the work units. -/
def prepareUnit (branch : String) (unit : WorkUnitRow) :
    StageProc (Except StageOutcome WorkspaceIdentity) := do
  if ← service .aborted then pure (.error .interrupted)
  else
    let prepare : StageProc (Except StageOutcome WorkspaceIdentity) := do
      let workspace ← service (.prepareWorkspace
        { taskId := task.id, repository := unit.repository, branch := branch
          workspacePath := unit.workspacePath, persistedBranch := unit.branch
          baseCommit := unit.baseCommit })
      let _ ← database (.recordWorkUnitWorkspace workspace)
      pure (.ok workspace)
    prepare.tryCatch (preparationFailed deps)

/-- Prepares a worktree for each declared repository, then goes on with `next`. -/
def prepareWorkspaces (contract : PlanningIssue) (branch : String)
    (next : Option (StageProc StageOutcome)) : StageProc StageOutcome := do
  let units ← database .getWorkUnits
  let declared := declaredRepositories contract
  let persisted := (units.map (·.repository)).insertionSort (· ≤ ·)
  if joinNul declared ≠ joinNul persisted then
    let persistedNames := ", ".intercalate persisted
    let declaredNames := ", ".intercalate declared
    .throw (.workspaceBlocked (s!"Work units [{persistedNames}] do not match contract " ++
      s!"repositories [{declaredNames}]"))
  else do
    match ← Proc.collect (prepareUnit deps task branch) units with
    | .error outcome => pure outcome
    | .ok prepared => do
        let _ ← checkpoint (.workspacesPrepared (prepared.map (·.repository)))
        match next with
        | some next => next
        | none => pure (.advance
            { toState := blocked
              reason := some "Workspaces prepared; no analyzer stage is registered" })

/-- `WorkspacePreparationStage.run`. -/
def preparationStage (next : Option (StageProc StageOutcome)) : StageProc StageOutcome := do
  let contract ← validatedContract task
  match contract.source with
  | none => .throw (.workspaceBlocked "Task contract has no hydrated Linear source")
  | some source => do
      let blockers ← service (.listUnfinishedBlockers task.id)
      if blockers ≠ [] then
        let named := ", ".intercalate (blockers.map fun blocker =>
          s!"{blocker.1} ({blocker.2.text})")
        .throw (.workspaceBlocked s!"Task depends on unmerged work: {named}")
      else prepareWorkspaces deps task contract source.gitBranchName next

/-! ## Analysis -/

/-- What an analyzer run that left the worktrees alone leads to. -/
def analysisResult (loaded : LoadedWorkspaces) (digest : String) (attempt : Nat)
    (usage : Option AgentUsage) (result : AgentRunResult AnalysisResult) :
    StageProc StageOutcome := do
  match ← pauseOrInterruption deps result with
  | some (outcome, category) => do
      let _ ← completeAttempt attempt { category := some category, usage }
      pure outcome
  | none =>
      match result with
      | .completed output =>
          let problems := analysisProblems output loaded.contract.repositories
          if problems ≠ [] then do
            let _ ← completeAttempt attempt
              { category := some .invalidOutput, evidence := some (.problems problems), usage }
            let listed := "; ".intercalate problems
            pure (manualIntervention s!"Analysis plan rejected: {listed}")
          else if output.decision = .needsClarification then do
            let _ ← completeAttempt attempt
              { category := some .needsClarification, result := some (.analysis output), usage }
            let listed := " | ".intercalate output.clarifications
            pure (manualIntervention s!"Analysis needs clarification: {listed}"
              "Contract needs clarification")
          else do
            let _ ← checkpoint (.analysis ⟨digest, attempt, output⟩)
            let _ ← completeAttempt attempt { result := some (.analysis output), usage }
            pure (.advance { toState := ready, reason := some "Analysis plan accepted" })
      | .failure kind message => do
          let _ ← completeAttempt attempt
            { category := some (failureCategoryOf kind), evidence := some (.message message)
              usage }
          pure (manualIntervention s!"Analysis {kind.text}: {message}")
      -- The other results pause or interrupt.
      | _ => pure .interrupted

/-- `AnalysisStage.run`. -/
def analysisStage : StageProc StageOutcome := do
  let loaded ← loadTaskWorkspaces deps task
  let digest := deps.contractDigest task.contractSnapshot
  let accepted ← readAnalysis
  if accepted.any (·.contractDigest = digest) then
    pure (.advance { toState := ready, reason := some "Accepted analysis reused" })
  else do
    let _ ← service (.loadDocumentation loaded.contract.repositories)
    let model ← routed (roleModel deps.config .analyzer)
    let attempt ← startAttempt
    let before ← workspaceSnapshots loaded
    let run ← service (.runAgent .analyzer model)
    let afterwards ← workspaceSnapshots loaded
    if afterwards ≠ before then do
      let _ ← completeAttempt attempt { category := some .workspaceIntegrity, usage := run.usage }
      pure (manualIntervention
        "The read-only analyzer changed a workspace; inspect the worktrees before retrying")
    else analysisResult deps loaded digest attempt run.usage run.result

/-! ## Setup -/

/-- The failed command that a setup report names. -/
def setupFailure (report : RepositoryQualityReport) : String :=
  match report.infrastructureError with
  | some message => message
  | none =>
      match report.results.find? fun result => !result.passed with
      | some command =>
          let exitCode := (command.exitCode.map toString).getD "none"
          s!"{command.name} {command.outcome} (exit {exitCode})"
      | none => "command  (exit none)"

/-- The setup commands of one repository, after those of the others. -/
def setUpUnit (attempt : Nat) (reports : List RepositoryQualityReport) (unit : LoadedUnit) :
    StageProc (Except StageOutcome RepositoryQualityReport) := do
  let report ← service (.runQuality unit.repository unit.workspacePath .setup)
  let evidence : Option AttemptEvidence := some (.reports (reports ++ [report]))
  if report.aborted then do
    let _ ← completeAttempt attempt { category := some .cancelled, evidence }
    pure (.error .interrupted)
  else if !report.passed then do
    let category : FailureCategory :=
      if report.infrastructureError = none then .qualityFailed else .qualityInfrastructure
    let _ ← completeAttempt attempt { category := some category, evidence }
    pure (.error (manualIntervention
      s!"Setup failed in {unit.repository} before implementation: {setupFailure report}"))
  else pure (.ok report)

/-- `ReadyStage.run`. -/
def readyStage : StageProc StageOutcome := do
  let loaded ← loadTaskWorkspaces deps task
  let done ← readSetup
  let needed := loaded.units.filter fun unit => deps.hasSetup unit.repository
  if needed.isEmpty || done.any (sameHeads · loaded.heads) then
    pure (.advance
      { toState := implementing, reason := some "Workspaces ready for implementation" })
  else do
    let attempt ← startAttempt
    match ← Proc.collectFrom (setUpUnit attempt) [] needed with
    | .error outcome => pure outcome
    | .ok reports => do
        let discarded ← restoreAll deps loaded
        let _ ← checkpoint (.setup loaded.heads)
        let _ ← completeAttempt attempt { evidence := some (.setup reports discarded) }
        pure (.advance { toState := implementing, reason := some "Workspace setup completed" })

end Orchestrator
