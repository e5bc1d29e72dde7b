import Orchestrator.Execution.Stages.StageSupport

/-! # `IMPLEMENTING` and `FIXING`

The write-enabled agents, the inspection of their changes, and the local commits
(`execution/stages/change-application.ts`, `implementation-stage.ts`, `fixing-stage.ts`).
-/

namespace Orchestrator

open Kit TaskState

variable (deps : StageDependencies) (task : Task)

/-! ## Change application -/

inductive ChangeApplication
  | committed (commits : Heads) (evidence : List DiffEvidence)
  /-- The changes violate the diff policy and were discarded. -/
  | rejected (detail : String) (violations : List DiffViolation) (evidence : List DiffEvidence)
  /-- A worktree no longer proves its ownership, or its HEAD moved; nothing was committed. -/
  | integrity (detail : String)

/-- The worktree of one repository after an agent run. -/
def verifyAgentLeftUnit (unit : LoadedUnit) : StageProc (Except String Unit) :=
  let verify : StageProc (Except String Unit) := do
    let head ← verifyTaskWorkspace deps unit.toTaskWorkspace
    if head ≠ unit.head then
      pure (.error (s!"HEAD of {unit.repository} moved from {unit.head} to {head} during the " ++
        "agent run"))
    else pure (.ok ())
  verify.tryCatch fun failure =>
    match failure with
    | .workspaceBlocked message => pure (.error message)
    | _ => .throw failure

/-- What the agent did to the Git state of a worktree, if anything. -/
def verifyAgentLeftGitState (loaded : LoadedWorkspaces) : StageProc (Option String) := do
  match ← Proc.collect (verifyAgentLeftUnit deps) loaded.units with
  | .error problem => pure (some problem)
  | .ok _ => pure none

structure ChangeOptions where
  required : List String
  plannedPaths : List (String × List String)
  message : String → String

/-- The commit of a changed repository, and the HEAD of an unchanged one. -/
def commitUnit (options : ChangeOptions) (changes : List RepositoryChanges) (unit : LoadedUnit) :
    StageProc (String × String) := do
  if (changes.find? fun entry => entry.repository = unit.repository).any (·.files.isEmpty) then
    pure (unit.repository, unit.head)
  else do
    let commit ← service (.commitWorkspace unit.toTaskWorkspace (options.message unit.repository)
      deps.commitAuthor)
    pure (unit.repository, commit)

/-- Inspects agent changes against the diff policy, and commits each changed repository or
discards all changes. -/
def inspectAndCommit (loaded : LoadedWorkspaces) (options : ChangeOptions) :
    StageProc ChangeApplication := do
  match ← verifyAgentLeftGitState deps loaded with
  | some problem => pure (.integrity problem)
  | none => do
      let changes ← Proc.each (fun unit : LoadedUnit =>
        collect unit.repository unit.workspacePath deps.diffPolicy.maxChangedLines) loaded.units
      let context : DiffContext :=
        { deps.diffContext with
          required := options.required, plannedPaths := options.plannedPaths }
      let violations := evaluateChanges context changes
      let evidence := diffEvidence context changes
      if violations ≠ [] then do
        let _ ← restoreAll deps loaded
        pure (.rejected (describeViolations violations) violations evidence)
      else do
        let commits ← Proc.each (commitUnit deps options changes) loaded.units
        pure (.committed commits evidence)

/-- The summary of a repository in the commit message. -/
def ChangeResult.summaryOf (result : ChangeResult) (repository : String) : String :=
  ((result.repositories.find? fun entry => entry.1.text = repository).map (·.2)).getD
    result.summary

/-- `deps.tasks.recordModelSelection`. -/
def recordModel (model : ModelSelection) : StageProc Unit :=
  database (.recordModelSelection ⟨model.tier, model.model, model.effort.text⟩)

/-! ## Implementation -/

/-- The committed implementation is still in the history of every branch. -/
def committedUnit (committed : ImplementationCheckpoint) (unit : LoadedUnit) :
    StageProc (Except StageOutcome Unit) := do
  let gone := manualIntervention
    s!"Committed implementation for {unit.repository} is no longer in the branch history"
  match committed.commits.lookup unit.repository with
  | none => pure (.error gone)
  | some commit => do
      if ← service (.isAncestor unit.workspacePath commit unit.head) then pure (.ok ())
      else pure (.error gone)

def reuseImplementation (loaded : LoadedWorkspaces) (committed : ImplementationCheckpoint) :
    StageProc StageOutcome := do
  match ← Proc.collect (committedUnit committed) loaded.units with
  | .error outcome => pure outcome
  | .ok _ =>
      -- Counted only if the run that committed it did not get to count it.
      let increment : Option AttemptCounter :=
        if task.implementationAttempts < committed.implementationAttempt then
          some .implementationAttempts
        else none
      pure (.advance
        { toState := testing, reason := some "Committed implementation reused"
          incrementCounter := increment })

/-- `ImplementationStage.reject`; `scope` is the attempt of the stage, `attempt` the number of
the implementation. -/
def rejectImplementation (loaded : LoadedWorkspaces) (scope attempt : Nat)
    (category : FailureCategory) (detail : String) (usage : Option AgentUsage)
    (evidence : AttemptEvidence) : StageProc StageOutcome := do
  let _ ← restoreAll deps loaded
  let _ ← checkpoint (.implementationRejection ⟨attempt, category, detail⟩)
  let _ ← completeAttempt scope { category := some category, evidence := some evidence, usage }
  let limit := deps.config.maxImplementationAttempts
  if limit ≤ attempt then
    pure (.advance
      { toState := failed, reason := some "Implementation attempts exhausted"
        incrementCounter := some .implementationAttempts
        lastError := some (some (s!"Implementation attempt {attempt} of {limit} rejected " ++
          s!"({category.text}): {detail}")) })
  else
    pure (.advance
      { toState := ready
        reason := some
          s!"Implementation attempt {attempt} rejected ({category.text}); retrying"
        incrementCounter := some .implementationAttempts })

/-- What the changes of a completed implementer run lead to. -/
def applyImplementation (loaded : LoadedWorkspaces) (plan : AnalysisResult)
    (scope attempt : Nat) (usage : Option AgentUsage) (output : ChangeResult) :
    StageProc StageOutcome := do
  let options : ChangeOptions :=
    { required := loaded.contract.repositories.map (·.text)
      plannedPaths := plannedPaths plan
      message := fun repository => commitMessage deps
        s!"{issueIdentifier task loaded.contract}: {loaded.contract.title}"
        (output.summaryOf repository)
        [("Orchestrator-Task", toString task.id),
          ("Orchestrator-Stage", s!"implementation/{attempt}")] }
  match ← inspectAndCommit deps loaded options with
  | .integrity detail => do
      let _ ← completeAttempt scope
        { category := some .workspaceIntegrity, evidence := some (.detail (some detail)), usage }
      pure (manualIntervention
        s!"Workspace integrity check failed after implementation: {detail}")
  | .rejected detail violations evidence =>
      rejectImplementation deps loaded scope attempt .diffRejected detail usage
        (.rejected detail violations evidence)
  | .committed commits evidence => do
      let _ ← checkpoint (.implementation ⟨attempt, commits⟩)
      let _ ← completeAttempt scope
        { result := some (.change output), evidence := some (.committed commits evidence), usage }
      pure (.advance
        { toState := testing, reason := some s!"Implementation attempt {attempt} committed"
          incrementCounter := some .implementationAttempts })

/-- An agent that was stopped leaves nothing behind only if it was cancelled. -/
def stopAttempt (loaded : LoadedWorkspaces) (scope : Nat) (outcome : StageOutcome)
    (category : FailureCategory) (usage : Option AgentUsage) : StageProc StageOutcome := do
  if category = .cancelled then do
    let _ ← restoreAll deps loaded
    let _ ← completeAttempt scope { category := some category, usage }
    pure outcome
  else do
    let _ ← completeAttempt scope { category := some category, usage }
    pure outcome

/-- An agent that stopped by itself. -/
def agentBlocked (loaded : LoadedWorkspaces) (scope : Nat) (agent : String)
    (usage : Option AgentUsage) (output : ChangeResult) : StageProc StageOutcome := do
  let _ ← restoreAll deps loaded
  let _ ← completeAttempt scope
    { category := some .agentBlocked, result := some (.change output), usage }
  let why := output.blockedReason.getD output.summary
  pure (manualIntervention s!"{agent} stopped: {why}" s!"{agent} needs a decision")

/-- What an implementer run leads to. -/
def implementationResult (loaded : LoadedWorkspaces) (plan : AnalysisResult)
    (scope attempt : Nat) (usage : Option AgentUsage) (result : AgentRunResult ChangeResult) :
    StageProc StageOutcome := do
  match ← pauseOrInterruption deps result with
  | some (outcome, category) => stopAttempt deps loaded scope outcome category usage
  | none =>
      match result with
      | .completed output =>
          if output.status = .blocked then
            agentBlocked deps loaded scope "Implementer" usage output
          else applyImplementation deps task loaded plan scope attempt usage output
      | .failure kind message =>
          rejectImplementation deps loaded scope attempt (failureCategoryOf kind) message usage
            (.detail (some message))
      -- The other results pause or interrupt.
      | _ => pure .interrupted

/-- The route of an implementation attempt. -/
def implementationModel (complexity : Complexity) (attempt : Nat) :
    Except String (Option ModelSelection) :=
  if attempt ≤ deps.config.maxImplementationAttempts then
    escalationStep deps.config complexity attempt
  else .ok none

/-- The implementer works on the accepted plan. -/
def implement (loaded : LoadedWorkspaces) (plan : AnalysisResult) (attempt : Nat)
    (model : ModelSelection) : StageProc StageOutcome := do
  -- An interrupted earlier run may have left partial, unverified output.
  let _ ← restoreAll deps loaded
  let _ ← recordModel model
  let _ ← readImplementationRejection
  let _ ← service (.loadDocumentation loaded.contract.repositories)
  let scope ← startAttempt
  let run ← service (.runAgent .implementer model)
  implementationResult deps task loaded plan scope attempt run.usage run.result

/-- `ImplementationStage.run`. -/
def implementationStage : StageProc StageOutcome := do
  let loaded ← loadTaskWorkspaces deps task
  let plan ← requireAnalysis
  match ← readImplementation with
  | some committed => reuseImplementation task loaded committed
  | none =>
      match loaded.units.find? fun unit => unit.head ≠ unit.baseCommit with
      | some unit => pure (manualIntervention
          s!"{unit.repository} has commits that no accepted implementation recorded")
      | none => do
          let attempt := task.implementationAttempts + 1
          let complexity := loaded.contract.complexity
          match ← routed (implementationModel deps complexity attempt) with
          | some model => implement deps task loaded plan attempt model
          | none => pure (.advance
              { toState := failed, reason := some "Implementation attempts exhausted"
                lastError := some (some (s!"No implementation route remains for " ++
                  s!"{complexity.text} complexity at attempt {attempt}")) })

/-! ## Fixing -/

def FixSource.text : FixSource → String
  | .quality => "quality gate failures"
  | .review => "review findings"

def FixApplied.applies (applied : FixApplied) (request : FixRequest) : Bool :=
  applied.requestId = request.id

/-- A fix that was not applied. -/
def dismissFix (scope : Nat) (request : FixRequest) (category : FailureCategory)
    (reason : String) (usage : Option AgentUsage) (evidence : AttemptEvidence) :
    StageProc StageOutcome := do
  let _ ← checkpoint (.fixApplied ⟨request.id, none, some category⟩)
  let _ ← completeAttempt scope { category := some category, evidence := some evidence, usage }
  pure (.advance { toState := testing, reason := some reason })

/-- What the changes of a completed fixer run lead to. -/
def applyFix (loaded : LoadedWorkspaces) (plan : AnalysisResult) (scope : Nat)
    (request : FixRequest) (usage : Option AgentUsage) (output : ChangeResult) :
    StageProc StageOutcome := do
  let options : ChangeOptions :=
    { required := []
      plannedPaths := plannedPaths plan
      message := fun repository => commitMessage deps
        s!"{issueIdentifier task loaded.contract}: address {request.source.text}"
        (output.summaryOf repository)
        [("Orchestrator-Task", toString task.id), ("Orchestrator-Stage", s!"fix/{request.id}")] }
  match ← inspectAndCommit deps loaded options with
  | .integrity detail => do
      let _ ← completeAttempt scope
        { category := some .workspaceIntegrity, evidence := some (.detail (some detail)), usage }
      pure (manualIntervention s!"Workspace integrity check failed after fix: {detail}")
  | .rejected detail violations evidence =>
      dismissFix scope request .diffRejected s!"Fix {request.id} rejected: {detail}" usage
        (.rejected detail violations evidence)
  | .committed commits evidence => do
      let _ ← checkpoint (.fixApplied ⟨request.id, some commits, none⟩)
      let _ ← completeAttempt scope
        { result := some (.change output), evidence := some (.committed commits evidence), usage }
      pure (.advance { toState := testing, reason := some s!"Fix {request.id} committed" })

/-- What a fixer run leads to. -/
def fixResult (loaded : LoadedWorkspaces) (plan : AnalysisResult) (scope : Nat)
    (request : FixRequest) (usage : Option AgentUsage) (result : AgentRunResult ChangeResult) :
    StageProc StageOutcome := do
  match ← pauseOrInterruption deps result with
  | some (outcome, category) => stopAttempt deps loaded scope outcome category usage
  | none =>
      match result with
      | .completed output =>
          if output.status = .blocked then agentBlocked deps loaded scope "Fixer" usage output
          else applyFix deps task loaded plan scope request usage output
      | .failure kind message => do
          let category := failureCategoryOf kind
          let _ ← restoreAll deps loaded
          dismissFix scope request category s!"Fix {request.id} not applied ({category.text})"
            usage (.detail (some message))
      -- The other results pause or interrupt.
      | _ => pure .interrupted

/-- The fixer works on a request. -/
def fix (loaded : LoadedWorkspaces) (request : FixRequest) : StageProc StageOutcome := do
  let plan ← requireAnalysis
  let columns : SelectedColumns := ⟨task.selectedModelTier, task.reasoningEffort⟩
  let complexity := loaded.contract.complexity
  match ← routed (fixingModel deps.config complexity task.implementationAttempts columns) with
  | none => pure (manualIntervention "No model route is available for a fix")
  | some model => do
      let _ ← restoreAll deps loaded
      let scope ← startAttempt
      let run ← service (.runAgent .fixer model)
      fixResult deps task loaded plan scope request run.usage run.result

/-- `FixingStage.run`. -/
def fixingStage : StageProc StageOutcome := do
  let loaded ← loadTaskWorkspaces deps task
  match ← readFixRequest with
  | none => pure (manualIntervention "No fix request exists for this task")
  | some request => do
      let applied ← readFixApplied
      if applied.any (·.applies request) then
        pure (.advance
          { toState := testing, reason := some s!"Fix {request.id} already applied" })
      else if !sameHeads request.heads loaded.heads then
        pure (manualIntervention s!"Branches moved since fix {request.id} was requested")
      else fix deps task loaded request

end Orchestrator
