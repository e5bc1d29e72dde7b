import Orchestrator.Execution.Stages.StageSupport

/-! # `TESTING` and `REVIEWING`

The quality gates on committed content and the read-only review, with the fixes they
request (`execution/stages/testing-stage.ts`, `review-stage.ts`).
-/

namespace Orchestrator

open Kit TaskState

variable (deps : StageDependencies) (task : Task)

/-! ## Quality gates -/

/-- The gates of one repository, after those of the others. -/
def testUnit (loaded : LoadedWorkspaces) (attempt : Nat)
    (reports : List RepositoryQualityReport) (unit : LoadedUnit) :
    StageProc (Except StageOutcome RepositoryQualityReport) := do
  let report ← service (.runQuality unit.repository unit.workspacePath .all)
  let evidence : Option AttemptEvidence := some (.reports (reports ++ [report]))
  if report.aborted then do
    let _ ← restoreAll deps loaded
    let _ ← completeAttempt attempt { category := some .cancelled, evidence }
    pure (.error .interrupted)
  else
    match report.infrastructureError with
    | some message => do
        let _ ← restoreAll deps loaded
        let _ ← completeAttempt attempt { category := some .qualityInfrastructure, evidence }
        pure (.error (manualIntervention
          s!"Quality gate could not run in {unit.repository}: {message}"))
    | none => pure (.ok report)

/-- A failed command, in the words of the summary. -/
def failureSummary (repository : String) (result : QualityCommandResult) : String :=
  let verb := if result.outcome = "exited" then "failed" else result.outcome
  let exitCode := (result.exitCode.map toString).getD "none"
  s!"{repository}:{result.name} {verb} (exit {exitCode})"

def failedCommands (reports : List RepositoryQualityReport) : List String :=
  reports.flatMap fun report =>
    (report.results.filter (!·.passed)).map (failureSummary report.repository)

def qualityRequestId (attempt : Nat) : String := s!"quality-{attempt}"

/-- The gates failed: a fix is requested, up to the limit. -/
def requestQualityFix (loaded : LoadedWorkspaces) (attempt : Nat)
    (reports : List RepositoryQualityReport) (discarded : Bool) : StageProc StageOutcome := do
  let _ ← completeAttempt attempt
    { category := some .qualityFailed, evidence := some (.quality reports discarded) }
  let failures := failedCommands reports
  let summary := ", ".intercalate failures
  let limit := deps.maxQualityFixAttempts
  if limit ≤ task.qualityFixAttempts then
    pure (.advance
      { toState := failed, reason := some "Quality fix attempts exhausted"
        lastError := some (some
          s!"Quality gates still failing after {limit} fix attempts: {summary}") })
  else do
    let _ ← checkpoint (.fixRequest ⟨qualityRequestId attempt, .quality, loaded.heads, failures⟩)
    pure (.advance
      { toState := fixing, reason := some s!"Quality gates failed: {summary}"
        incrementCounter := some .qualityFixAttempts })

/-- What the reports of all repositories lead to. -/
def qualityResult (loaded : LoadedWorkspaces) (attempt : Nat)
    (reports : List RepositoryQualityReport) : StageProc StageOutcome := do
  let discarded ← restoreAll deps loaded
  if reports.all (·.passed) then do
    let _ ← checkpoint (.qualityPassed ⟨loaded.heads, attempt⟩)
    let _ ← completeAttempt attempt { evidence := some (.quality reports discarded) }
    pure (.advance { toState := reviewing, reason := some "Quality gates passed" })
  else requestQualityFix deps task loaded attempt reports discarded

/-- `TestingStage.run`. -/
def testingStage : StageProc StageOutcome := do
  let loaded ← loadTaskWorkspaces deps task
  let passed ← readQualityPassed
  if passed.any (sameHeads ·.heads loaded.heads) then
    pure (.advance
      { toState := reviewing, reason := some "Quality gates already passed for these commits" })
  else do
    -- Gates run against committed content only.
    let _ ← restoreAll deps loaded
    let attempt ← startAttempt
    match ← Proc.collectFrom (testUnit deps loaded attempt) [] loaded.units with
    | .error outcome => pure outcome
    | .ok reports => qualityResult deps task loaded attempt reports

/-! ## Review -/

/-- Where an approved task goes: `deliver` says whether delivery is enabled. -/
def acceptedOutcome (deliver : Bool) : StageOutcome :=
  if deliver then
    .advance
      { toState := prCreated, reason := some "Review accepted; delivering pull requests" }
  else
    .advance
      { toState := blocked
        reason := some "Reviewed local branch ready; delivery is not enabled" }

def reviewRequestId (attempt : Nat) : String := s!"review-{attempt}"

/-- What is recorded of a valid review. -/
def verdictConclusion (category : Option FailureCategory) (usage : Option AgentUsage)
    (output : ReviewResult) : AttemptConclusion :=
  { category, result := some (.review output)
    evidence := some (.verdict output.verdict (effectiveVerdict output)), usage }

/-- The reviewer requested changes: a fix is requested, up to the limit. -/
def requestReviewFix (loaded : LoadedWorkspaces) (attempt : Nat) (usage : Option AgentUsage)
    (output : ReviewResult) : StageProc StageOutcome := do
  let _ ← completeAttempt attempt
    (verdictConclusion (some .reviewChangesRequested) usage output)
  let limit := deps.maxReviewCycles
  if limit ≤ task.reviewAttempts then
    pure (.advance
      { toState := failed, reason := some "Review cycles exhausted"
        lastError := some (some (s!"Reviewer still requests changes after {limit} review " ++
          s!"cycles: {output.summary}")) })
  else do
    let details := output.summary :: output.findings.map (·.description)
    let _ ← checkpoint (.fixRequest ⟨reviewRequestId attempt, .review, loaded.heads, details⟩)
    let summary := utf16Slice 300 output.summary
    pure (.advance
      { toState := fixing, reason := some s!"Reviewer requested changes: {summary}"
        incrementCounter := some .reviewAttempts })

/-- What a valid review leads to. -/
def reviewVerdict (deliver : Bool) (loaded : LoadedWorkspaces) (attempt : Nat)
    (usage : Option AgentUsage) (output : ReviewResult) : StageProc StageOutcome := do
  match effectiveVerdict output with
  | .approve => do
      let _ ← checkpoint (.reviewApproved ⟨loaded.heads, attempt, output.summary⟩)
      let _ ← completeAttempt attempt (verdictConclusion none usage output)
      pure (acceptedOutcome deliver)
  | .reject => do
      let _ ← completeAttempt attempt (verdictConclusion (some .reviewRejected) usage output)
      pure (manualIntervention s!"Reviewer rejected the change: {output.summary}"
        "Review rejected")
  | .requestChanges => requestReviewFix deps task loaded attempt usage output

/-- What a reviewer run that left the worktrees alone leads to. -/
def reviewResult (deliver : Bool) (loaded : LoadedWorkspaces) (attempt : Nat)
    (usage : Option AgentUsage) (result : AgentRunResult ReviewResult) :
    StageProc StageOutcome := do
  match ← pauseOrInterruption deps result with
  | some (outcome, category) => do
      let _ ← completeAttempt attempt { category := some category, usage }
      pure outcome
  | none =>
      match result with
      | .completed output =>
          let problems := reviewProblems output loaded.contract.repositories
          if problems ≠ [] then do
            let _ ← completeAttempt attempt
              { category := some .invalidOutput, evidence := some (.problems problems), usage }
            let listed := "; ".intercalate problems
            pure (manualIntervention s!"Review result rejected: {listed}")
          else reviewVerdict deps task deliver loaded attempt usage output
      | .failure kind message => do
          let _ ← completeAttempt attempt
            { category := some (failureCategoryOf kind), evidence := some (.message message)
              usage }
          pure (manualIntervention s!"Review {kind.text}: {message}")
      -- The other results pause or interrupt.
      | _ => pure .interrupted

/-- The reviewer reads the committed change. -/
def review (deliver : Bool) (loaded : LoadedWorkspaces) : StageProc StageOutcome := do
  let _ ← requireAnalysis
  let _ ← Proc.each (fun unit : LoadedUnit =>
    service (.diffFromBase unit.workspacePath unit.baseCommit)) loaded.units
  let model ← routed (roleModel deps.config .reviewer)
  let attempt ← startAttempt
  let before ← workspaceSnapshots loaded
  let run ← service (.runAgent .reviewer model)
  let afterwards ← workspaceSnapshots loaded
  if afterwards ≠ before then do
    let _ ← completeAttempt attempt { category := some .workspaceIntegrity, usage := run.usage }
    pure (manualIntervention
      "The read-only reviewer changed a workspace; inspect the worktrees before retrying")
  else reviewResult deps task deliver loaded attempt run.usage run.result

/-- `ReviewStage.run`. -/
def reviewStage (deliver : Bool) : StageProc StageOutcome := do
  let loaded ← loadTaskWorkspaces deps task
  let approved ← readReviewApproved
  if approved.any (sameHeads ·.heads loaded.heads) then pure (acceptedOutcome deliver)
  else do
    let passed ← readQualityPassed
    if !passed.any (sameHeads ·.heads loaded.heads) then
      pure (manualIntervention "Review requires passing quality gates for the current commits")
    else review deps task deliver loaded

end Orchestrator
