import Orchestrator.Delivery.ObservationStage
import Orchestrator.Delivery.PullRequestStage
import Orchestrator.Delivery.Reconciliation
import Orchestrator.Execution.Stages.AnalyzingStages
import Orchestrator.Execution.Stages.ChangeStages
import Orchestrator.Execution.Stages.VerificationStages

/-! # The stage handlers and their routine calls

Which handler runs in which state (`execution/stages/index.ts`).

Three checkpoints decide how often agents run: the committed implementation, the fix
request and the applied fix. A call is routine if it records none of them, does not run the
fixer, and pushes nothing. Everything that stages share makes routine calls only, and so do
the handlers of the states outside the implementation and fix loops, but for the one push.
-/

namespace Orchestrator

open Kit TaskState

/-- `createExecutionHandlers`; without delivery, an approved task is parked. -/
def executionHandler (deps : DeliveryDependencies) (deliver : Bool) (task : Task) :
    Option (StageProc StageOutcome) :=
  let execution := deps.toStageDependencies
  match task.state with
  | .analyzing => some (preparationStage execution task (some (analysisStage execution task)))
  | .ready => some (readyStage execution task)
  | .implementing => some (implementationStage execution task)
  | .testing => some (testingStage execution task)
  | .fixing => some (fixingStage execution task)
  | .reviewing => some (reviewStage execution task deliver)
  | .prCreated => if deliver then some (pullRequestStage deps task) else none
  | .waitingCi => if deliver then some (observationStage deps task) else none
  | .readyForHumanReview => if deliver then some (observationStage deps task) else none
  | _ => none

def CheckpointKey.routine : CheckpointKey → Bool
  | .implementation => false
  | .fixRequest => false
  | .fixApplied => false
  | _ => true

def StageCall.routine : StageCall → Bool
  | .database (.recordCheckpoint payload) => payload.key.routine
  | .service (.runAgent .fixer _) => false
  | .service (.gitPush _ _ _) => false
  | _ => true

/-- The procedure makes routine calls only. -/
abbrev Routine {α : Type} (procedure : StageProc α) : Prop :=
  procedure.Only fun call => call.routine = true

section Steps

variable {α β γ ω : Type}

/-- Routine procedures compose, so each stage is routine once its parts are. -/
theorem routine_bind {procedure : StageProc α} {rest : α → StageProc β}
    (h : Routine procedure) (hrest : ∀ value, Routine (rest value)) :
    Routine (procedure >>= rest) :=
  only_bind h hrest

/-- A call, and what follows it. -/
theorem routine_database {call : DatabaseCall} {rest : call.Answer → StageProc β}
    (hcall : (StageCall.database call).routine = true) (hrest : ∀ value, Routine (rest value)) :
    Routine (database call >>= rest) :=
  only_bind (only_database.mpr hcall) hrest

theorem routine_service {call : ServiceCall} {rest : call.Answer → StageProc β}
    (hcall : (StageCall.service call).routine = true) (hrest : ∀ value, Routine (rest value)) :
    Routine (service call >>= rest) :=
  only_bind (only_service.mpr hcall) hrest

/-- The end of an attempt, with what follows it. -/
theorem routine_completeAttempt {attempt : Nat} {conclusion : AttemptConclusion}
    {rest : Unit → StageProc β} (hrest : ∀ value, Routine (rest value)) :
    Routine (completeAttempt attempt conclusion >>= rest) :=
  routine_database rfl hrest

end Steps

/-! ## What stages share -/

section Support

variable {α β : Type} {deps : StageDependencies} {task : Task} {loaded : LoadedWorkspaces}

theorem routine_repository (name : String) : Routine (deps.repository name) := by
  unfold StageDependencies.repository
  split
  · exact trivial
  · exact trivial

theorem routine_readCheckpoint {T : Type} (key : CheckpointKey)
    (parse : CheckpointPayload → Option T) : Routine (readCheckpoint key parse) := by
  unfold readCheckpoint
  refine routine_database rfl ?_
  rintro (_ | payload)
  · exact trivial
  · dsimp only
    cases parse payload with
    | none => exact trivial
    | some value => exact trivial

/-- What a checkpoint read returns. -/
theorem keeps_readCheckpoint {ω T : Type} {services : Services ω} {writer : StageWriter}
    {I : StageWorld ω → Prop} {w : StageWorld ω} {key : CheckpointKey}
    {parse : CheckpointPayload → Option T} (hI : I w)
    (hread : I (w.wrote writer (.getCheckpoint key) w.tables)) :
    (readCheckpoint key parse).Keeps (serves services writer) I
      (fun found w' => w' = w.wrote writer (.getCheckpoint key) w.tables ∧
        found = (w.tables.getCheckpoint writer.taskId key).bind parse) w := by
  unfold readCheckpoint
  refine keeps_bind (R := fun found w' => w' = w.wrote writer (.getCheckpoint key) w.tables ∧
    found = w.tables.getCheckpoint writer.taskId key) (keeps_database hI ?_) ?_
  · rintro holds now tables value ⟨⟩
    exact ⟨hread, rfl, rfl⟩
  · rintro (_ | payload) w₁ hI₁ ⟨rfl, hfound⟩
    · rw [← hfound]
      exact keeps_pure hread ⟨rfl, rfl⟩
    · rw [← hfound]
      dsimp only
      split
      · rename_i value hparse
        exact keeps_pure hread ⟨rfl, hparse.symm⟩
      · exact keeps_throw hread

/-- Stage support: loading and restoring workspaces only reads and verifies. -/
theorem routine_verifyTaskWorkspace (workspace : TaskWorkspace) :
    Routine (verifyTaskWorkspace deps workspace) :=
  routine_bind (routine_repository _) fun _ => only_service.mpr rfl

theorem routine_validatedContract : Routine (validatedContract task) := by
  unfold validatedContract
  split_ifs
  · exact trivial
  · exact trivial

theorem routine_loadUnit (unit : WorkUnitRow) : Routine (loadUnit deps task unit) := by
  unfold loadUnit
  split
  · exact routine_bind (routine_verifyTaskWorkspace _) fun _ => trivial
  · exact trivial

theorem routine_loadTaskWorkspaces : Routine (loadTaskWorkspaces deps task) := by
  refine routine_bind routine_validatedContract ?_
  intro contract
  refine routine_database rfl ?_
  intro units
  split_ifs
  · exact trivial
  · exact routine_bind (only_each routine_loadUnit _) fun _ => trivial

theorem routine_restoreAll : Routine (restoreAll deps loaded) := by
  refine routine_bind (only_each ?_ _) fun _ => trivial
  intro unit
  exact routine_bind (routine_repository _) fun _ => only_service.mpr rfl

theorem routine_workspaceSnapshots : Routine (workspaceSnapshots loaded) := by
  refine only_each ?_ _
  intro unit
  exact routine_service rfl fun _ => trivial

theorem routine_pauseOrInterruption {T : Type} (result : AgentRunResult T) :
    Routine (pauseOrInterruption deps result) := by
  unfold pauseOrInterruption
  split
  · exact trivial
  · exact trivial
  · exact routine_service rfl fun _ => trivial
  · exact trivial
  · exact trivial

theorem routine_routed (result : Except String α) : Routine (routed result) := by
  cases result with
  | ok value => exact trivial
  | error message => exact trivial

theorem routine_requireAnalysis : Routine requireAnalysis := by
  refine routine_bind (routine_readCheckpoint _ _) ?_
  rintro (_ | accepted)
  · exact trivial
  · exact trivial

end Support

/-! ## `ANALYZING` and `READY` -/

section Analyzing

variable {deps : StageDependencies} {task : Task} {loaded : LoadedWorkspaces}

theorem routine_prepareUnit (branch : String) (unit : WorkUnitRow) :
    Routine (prepareUnit deps task branch unit) := by
  refine routine_service rfl ?_
  intro aborted
  split_ifs
  · exact trivial
  · refine only_tryCatch ?_ ?_
    · exact routine_service rfl fun _ => routine_database rfl fun _ => trivial
    · intro failure
      unfold preparationFailed
      split
      · exact routine_service rfl fun _ => trivial
      · exact trivial

/-- Preparation is routine when the stage behind it is. -/
theorem routine_preparationStage {next : StageProc StageOutcome} (hnext : Routine next) :
    Routine (preparationStage deps task (some next)) := by
  refine routine_bind routine_validatedContract ?_
  intro contract
  split
  · exact trivial
  · refine routine_service rfl ?_
    intro blockers
    split_ifs
    · exact trivial
    · unfold prepareWorkspaces
      refine routine_database rfl ?_
      intro units
      dsimp only
      split_ifs
      · exact trivial
      · refine routine_bind (only_collect (routine_prepareUnit _) _) ?_
        rintro (outcome | prepared)
        · exact trivial
        · exact routine_database rfl fun _ => hnext

theorem routine_analysisResult (digest : String) (attempt : Nat) (usage : Option AgentUsage)
    (result : AgentRunResult AnalysisResult) :
    Routine (analysisResult deps loaded digest attempt usage result) := by
  refine routine_bind (routine_pauseOrInterruption result) ?_
  rintro (_ | ⟨outcome, category⟩)
  · cases result with
    | completed output =>
        dsimp only
        split_ifs
        · exact routine_completeAttempt fun _ => trivial
        · exact routine_completeAttempt fun _ => trivial
        · exact routine_database rfl fun _ => routine_completeAttempt fun _ => trivial
    | failure kind message => exact routine_completeAttempt fun _ => trivial
    | _ => exact trivial
  · exact routine_completeAttempt fun _ => trivial

/-- The analysis writes its attempt and its plan, both routine. -/
theorem routine_analysisStage : Routine (analysisStage deps task) := by
  refine routine_bind routine_loadTaskWorkspaces ?_
  intro loaded
  refine routine_bind (routine_readCheckpoint _ _) ?_
  intro accepted
  split_ifs
  · exact trivial
  · refine routine_service rfl fun _ => routine_bind (routine_routed _) fun model => ?_
    refine routine_database rfl fun attempt => routine_bind routine_workspaceSnapshots ?_
    intro before
    refine routine_service rfl fun result => routine_bind routine_workspaceSnapshots ?_
    intro afterwards
    split_ifs
    · exact routine_completeAttempt fun _ => trivial
    · exact routine_analysisResult _ _ _ _

theorem routine_setUpUnit (attempt : Nat) (reports : List RepositoryQualityReport)
    (unit : LoadedUnit) : Routine (setUpUnit attempt reports unit) := by
  refine routine_service rfl ?_
  intro report
  split_ifs
  · exact routine_completeAttempt fun _ => trivial
  · exact routine_completeAttempt fun _ => trivial
  · exact routine_completeAttempt fun _ => trivial
  · exact trivial

theorem routine_readyStage : Routine (readyStage deps task) := by
  refine routine_bind routine_loadTaskWorkspaces ?_
  intro loaded
  refine routine_bind (routine_readCheckpoint _ _) ?_
  intro done
  dsimp only
  split_ifs
  · exact trivial
  · refine routine_database rfl ?_
    intro attempt
    refine routine_bind (only_collectFrom (routine_setUpUnit attempt) [] _) ?_
    rintro (outcome | reports)
    · exact trivial
    · exact routine_bind routine_restoreAll fun _ =>
        routine_database rfl fun _ => routine_completeAttempt fun _ => trivial

end Analyzing

/-! ## Changes -/

section Changes

variable {deps : StageDependencies} {task : Task} {loaded : LoadedWorkspaces}

theorem routine_collectDiff (repository workspacePath : String) (scope : DiffScope) (limit : Nat) :
    Routine (collectDiff repository workspacePath scope limit) := by
  refine routine_service rfl fun raw => routine_service rfl fun numstat => ?_
  dsimp only
  split_ifs
  · exact trivial
  · exact routine_service rfl fun _ => trivial

theorem routine_verifyAgentLeftGitState : Routine (verifyAgentLeftGitState deps loaded) := by
  refine routine_bind (only_collect ?_ _) ?_
  · intro unit
    refine only_tryCatch ?_ ?_
    · refine routine_bind (routine_verifyTaskWorkspace _) ?_
      intro head
      split_ifs
      · exact trivial
      · exact trivial
    · intro failure
      split
      · exact trivial
      · exact trivial
  · rintro (problem | units)
    · exact trivial
    · exact trivial

/-- Inspecting and committing pushes nothing. -/
theorem routine_inspectAndCommit (options : ChangeOptions) :
    Routine (inspectAndCommit deps loaded options) := by
  refine routine_bind routine_verifyAgentLeftGitState ?_
  rintro (_ | problem)
  · refine routine_bind (only_each ?_ _) ?_
    · intro unit
      exact routine_service rfl fun _ => routine_collectDiff _ _ _ _
    · intro changes
      dsimp only
      split_ifs
      · exact routine_bind routine_restoreAll fun _ => trivial
      · refine routine_bind (only_each ?_ _) fun _ => trivial
        intro unit
        unfold commitUnit
        split_ifs
        · exact trivial
        · exact routine_service rfl fun _ => trivial
  · exact trivial

/-- Taking over a recorded implementation only asks whether its commits are reachable. -/
theorem routine_reuseImplementation (committed : ImplementationCheckpoint) :
    Routine (reuseImplementation task loaded committed) := by
  refine routine_bind (only_collect ?_ _) ?_
  · intro unit
    unfold committedUnit
    dsimp only
    split
    · exact trivial
    · refine routine_service rfl ?_
      intro reachable
      split_ifs
      · exact trivial
      · exact trivial
  · rintro (outcome | units)
    · exact trivial
    · exact trivial

theorem routine_rejectImplementation (scope attempt : Nat) (category : FailureCategory)
    (detail : String) (usage : Option AgentUsage) (evidence : AttemptEvidence) :
    Routine (rejectImplementation deps loaded scope attempt category detail usage evidence) := by
  refine routine_bind routine_restoreAll fun _ => routine_database rfl fun _ => ?_
  refine routine_completeAttempt ?_
  intro _
  dsimp only
  split_ifs
  · exact trivial
  · exact trivial

/-- Stopping an attempt completes it, after the worktrees are restored if it was cancelled. -/
theorem routine_stopAttempt (scope : Nat) (outcome : StageOutcome) (category : FailureCategory)
    (usage : Option AgentUsage) :
    Routine (stopAttempt deps loaded scope outcome category usage) := by
  unfold stopAttempt
  split_ifs
  · exact routine_bind routine_restoreAll fun _ => routine_completeAttempt fun _ => trivial
  · exact routine_completeAttempt fun _ => trivial

theorem routine_agentBlocked (scope : Nat) (agent : String) (usage : Option AgentUsage)
    (output : ChangeResult) : Routine (agentBlocked deps loaded scope agent usage output) :=
  routine_bind routine_restoreAll fun _ => routine_completeAttempt fun _ => trivial

end Changes

/-! ## `TESTING` and `REVIEWING` -/

section Verification

variable {deps : StageDependencies} {loaded : LoadedWorkspaces}

theorem routine_testUnit (attempt : Nat) (reports : List RepositoryQualityReport)
    (unit : LoadedUnit) : Routine (testUnit deps loaded attempt reports unit) := by
  refine routine_service rfl ?_
  intro report
  split_ifs
  · exact routine_bind routine_restoreAll fun _ => routine_completeAttempt fun _ => trivial
  · split
    · exact routine_bind routine_restoreAll fun _ => routine_completeAttempt fun _ => trivial
    · exact trivial

end Verification

/-! ## Delivery -/

section Delivery

variable {deps : DeliveryDependencies} {task : Task} {loaded : LoadedUnit}
  {repository : RegisteredRepository} {recorded : Option Nat}

/-- An idempotent operation is as routine as its effect. -/
theorem routine_idempotentOperation {operationType : ExternalOperationType} {key : String}
    {effect : Bool → StageProc OperationResponse} (heffect : ∀ created, Routine (effect created)) :
    Routine (idempotentOperation task operationType key effect) :=
  only_idempotentOperation rfl heffect fun _ _ => rfl

theorem routine_classifyDeliveryError (failure : StageError) :
    Routine (classifyDeliveryError deps failure) := by
  have hretry : ∀ hint, Routine (retryAt deps hint) := by
    intro hint
    refine routine_service rfl ?_
    intro now
    cases hint with
    | none => exact trivial
    | some hint => exact routine_service rfl fun _ => trivial
  unfold classifyDeliveryError
  cases failure with
  | gitHub kind status retryAfter message =>
      cases kind with
      | transient => exact routine_bind (hretry _) fun _ => trivial
      | rateLimit => exact routine_bind (hretry _) fun _ => trivial
      | _ => exact trivial
  | remoteUnavailable message => exact routine_bind (hretry _) fun _ => trivial
  | linearSync message => exact routine_bind (hretry _) fun _ => trivial
  | _ => exact trivial

/-- Comments go to Linear, not to the repository. -/
theorem routine_syncLinearComment (input : LinearCommentInput) :
    Routine (syncLinearComment deps task input) := by
  unfold syncLinearComment
  split_ifs
  · exact trivial
  · refine routine_bind (routine_idempotentOperation ?_) fun _ => trivial
    intro created
    refine only_tryCatch (routine_bind ?_ ?_) fun _ => trivial
    · unfold existingComment
      split_ifs
      · exact trivial
      · exact routine_service rfl fun _ => trivial
    · rintro (_ | comment)
      · exact routine_service rfl fun _ => trivial
      · exact trivial

theorem routine_notifyLinearBestEffort (input : LinearCommentInput) :
    Routine (notifyLinearBestEffort deps task input) :=
  only_tryCatch (routine_syncLinearComment input) fun _ => trivial

theorem routine_syncLinearPullRequestLink (link : PullRequestLink) :
    Routine (syncLinearPullRequestLink task link) := by
  refine routine_bind (routine_idempotentOperation ?_) fun _ => trivial
  intro created
  exact only_tryCatch (routine_service rfl fun _ => trivial) fun _ => trivial

/-! ### `PR_CREATED` -/

/-- What is to be delivered is inspected by reads. -/
theorem routine_verifyBranchContent : Routine (verifyBranchContent deps task loaded) := by
  unfold verifyBranchContent
  split_ifs
  · exact trivial
  · refine routine_bind (routine_service rfl fun _ => trivial) ?_
    intro commits
    dsimp only
    split
    · exact trivial
    · refine routine_bind (routine_collectDiff _ _ _ _) ?_
      intro changes
      split_ifs
      · exact trivial
      · exact trivial
      · exact trivial

theorem routine_verifyGitHubRepository : Routine (verifyGitHubRepository repository) := by
  refine routine_service rfl ?_
  intro metadata
  split_ifs
  · exact trivial
  · exact trivial
  · exact trivial
  · exact trivial

/-- Besides routine calls, there is the push of the commit to the branch. -/
theorem only_pushTaskBranch {allowed : StageCall → Prop} {workspace : TaskWorkspace}
    {commit : String} (hroutine : ∀ call : StageCall, call.routine = true → allowed call)
    (hpush : ∀ remote, allowed (.service (.gitPush workspace.repository remote
      s!"{commit}:refs/heads/{workspace.branch}"))) :
    (pushTaskBranch deps.toStageDependencies workspace commit).Only allowed := by
  unfold pushTaskBranch StageDependencies.repository
  cases hfound : deps.registry.find? fun repository => repository.name = workspace.repository with
  | none => exact trivial
  | some repository =>
      have hname : repository.name = workspace.repository := by
        simpa using List.find?_some hfound
      change (service (.verifyRepository repository.name) >>= _).Only allowed
      refine only_bind (only_service.mpr (hroutine _ rfl)) fun _ => ?_
      refine only_bind (only_service.mpr (hroutine _ rfl)) fun head => ?_
      split_ifs
      · exact trivial
      · refine only_bind (only_service.mpr (hroutine _ rfl)) fun before => ?_
        split_ifs
        · exact trivial
        · refine only_bind (only_tryCatch ?_ ?_) fun _ => ?_
          · rw [hname]
            exact only_service.mpr (hpush repository.remote)
          · intro failure
            split_ifs
            · exact trivial
            · exact trivial
          · refine only_bind (only_service.mpr (hroutine _ rfl)) fun pushed => ?_
            split_ifs
            · exact trivial
            · exact trivial

/-- A unit pushes its own head to its own branch, and nothing else. -/
theorem only_pushUnit {allowed : StageCall → Prop}
    (hroutine : ∀ call : StageCall, call.routine = true → allowed call)
    (hpush : ∀ remote, allowed (.service (.gitPush loaded.repository remote
      s!"{loaded.head}:refs/heads/{loaded.branch}"))) :
    (pushUnit deps task loaded).Only allowed := by
  refine only_bind (only_idempotentOperation (hroutine _ rfl) ?_ fun _ _ => hroutine _ rfl) ?_
  · intro created
    exact only_bind (only_pushTaskBranch hroutine hpush) fun _ => trivial
  · intro operation
    have hinspect : Routine (inspectRemoteBranch deps.toStageDependencies loaded.toTaskWorkspace
        loaded.head) :=
      routine_bind (routine_repository _) fun _ => routine_service rfl fun _ =>
        only_service.mpr rfl
    refine only_bind (only_mono hroutine hinspect) ?_
    intro state
    split
    · exact trivial
    · exact trivial
    · exact trivial

theorem routine_verifyPullRequest (pullRequest : GitHubPullRequest) :
    Routine (verifyPullRequest loaded repository pullRequest recorded) := by
  unfold verifyPullRequest
  split
  · exact trivial
  · exact trivial

theorem routine_reconcilePullRequest :
    Routine (reconcilePullRequest loaded repository recorded) := by
  refine routine_service rfl ?_
  intro pullRequests
  unfold reconcileListed
  dsimp only
  generalize Option.or _ _ = candidate
  split_ifs
  · exact trivial
  · cases candidate with
    | none => exact only_noCandidate pullRequests
    | some candidate =>
        refine routine_bind (routine_verifyPullRequest candidate) fun _ => ?_
        unfold verifyHead
        split_ifs
        · exact trivial
        · refine routine_service rfl fun relation => ?_
          split_ifs
          · exact trivial
          · exact trivial

/-- Opening a pull request is no push: the branch is on the remote by then. -/
theorem routine_openPullRequest : Routine (openPullRequest deps task loaded repository) := by
  refine routine_bind (routine_database rfl fun units => ?_)
    fun _ => routine_database rfl fun _ => trivial
  refine routine_bind routine_reconcilePullRequest ?_
  rintro (_ | found)
  · refine routine_bind (only_tryCatch (routine_idempotentOperation fun _ =>
      routine_service rfl fun _ => trivial) fun _ => trivial) fun operation => ?_
    dsimp only
    split_ifs
    · exact trivial
    · exact routine_service rfl fun created =>
        routine_bind (routine_verifyPullRequest created) fun _ => trivial
  · exact routine_bind (routine_idempotentOperation fun _ => trivial) fun _ => trivial

/-- What follows the push of a work unit. -/
theorem routine_recordPushed {repository : RegisteredRepository} :
    Routine (do
      let _ ← database (.recordWorkUnitDelivery loaded.repository (pushedUpdate loaded))
      let pullRequest ← openPullRequest deps task loaded repository
      let link : PullRequestLink :=
        ⟨loaded.repository, repository.github, pullRequest.number, pullRequest.url⟩
      let _ ← syncLinearPullRequestLink task link
      pure (.ok ⟨link, loaded.head⟩ : Except StageOutcome DeliveredUnit)) :=
  routine_database rfl fun _ => routine_bind routine_openPullRequest fun _ =>
    routine_bind (routine_syncLinearPullRequestLink _) fun _ => trivial

/-- Besides routine calls, the stage pushes. -/
theorem only_deliverUnit {allowed : StageCall → Prop}
    (hroutine : ∀ call : StageCall, call.routine = true → allowed call)
    (hpush : ∀ repository remote refspec, allowed (.service (.gitPush repository remote refspec))) :
    (deliverUnit deps task loaded).Only allowed := by
  refine only_bind (only_service.mpr (hroutine _ rfl)) fun aborted => ?_
  split_ifs
  · exact trivial
  · refine only_bind (only_mono hroutine (routine_repository _)) fun repository => ?_
    refine only_bind (only_mono hroutine routine_verifyGitHubRepository) fun _ => ?_
    refine only_bind (only_mono hroutine routine_verifyBranchContent) fun _ => ?_
    refine only_bind (only_pushUnit hroutine fun remote => hpush _ _ _) fun _ => ?_
    exact only_mono hroutine routine_recordPushed

theorem routine_result {α : Type} {body : StageProc α} (h : Routine body) : Routine body.result :=
  only_tryCatch (routine_bind h fun _ => trivial) fun _ => trivial

theorem routine_deliveryFailed (attempt : Option Nat) (failure : StageError) :
    Routine (deliveryFailed deps task attempt failure) := by
  unfold deliveryFailed
  split
  · cases attempt with
    | none => exact routine_bind (routine_notifyLinearBestEffort _) fun _ => trivial
    | some number =>
        apply routine_completeAttempt
        intro _
        exact routine_bind (routine_notifyLinearBestEffort _) fun _ => trivial
  · refine routine_bind (routine_classifyDeliveryError failure) ?_
    rintro ⟨outcome, category⟩
    dsimp only
    split
    · exact routine_completeAttempt fun _ => trivial
    · exact routine_completeAttempt fun _ => trivial
    · exact routine_completeAttempt fun _ => trivial
    · exact trivial

theorem routine_beginDelivery : Routine (beginDelivery deps task) := by
  refine routine_bind routine_loadTaskWorkspaces fun loaded => ?_
  refine routine_bind (routine_readCheckpoint _ _) fun approved => ?_
  refine routine_bind (routine_readCheckpoint _ _) fun passed => ?_
  split_ifs
  · exact trivial
  · exact routine_database rfl fun _ => trivial

/-- What follows the loop over the work units. -/
theorem routine_concludeDelivery (loaded : LoadedWorkspaces) (attempt : Nat)
    (delivered : List DeliveredUnit) :
    Routine (do
      let _ ← syncLinearComment deps task
        ⟨"pull-requests-opened", .heads loaded.heads, openedBody delivered⟩
      let _ ← completeAttempt attempt
        { evidence := some (.pullRequests (delivered.map DeliveredUnit.recorded)) }
      let names := ", ".intercalate (delivered.map fun entry =>
        s!"{entry.link.repository}#{entry.link.number}")
      pure (.advance { toState := waitingCi, reason := some s!"Pull requests open: {names}",
                       lastError := some none } : StageOutcome)) :=
  routine_bind (routine_syncLinearComment _) fun _ => routine_completeAttempt fun _ => trivial

/-- The only calls of the delivery that are not routine are its pushes. -/
theorem only_pullRequestStage {allowed : StageCall → Prop}
    (hroutine : ∀ call : StageCall, call.routine = true → allowed call)
    (hpush : ∀ repository remote refspec, allowed (.service (.gitPush repository remote refspec))) :
    (pullRequestStage deps task).Only allowed := by
  refine only_bind (only_mono hroutine (routine_result routine_beginDelivery)) ?_
  rintro (failure | (outcome | ⟨loaded, attempt⟩))
  · exact only_mono hroutine (routine_deliveryFailed _ _)
  · exact trivial
  · refine only_bind (only_tryCatch (only_bind (only_bind (only_collect (fun unit =>
      only_deliverUnit hroutine hpush) _) ?_) fun _ => trivial) fun _ => trivial) ?_
    · rintro (outcome | delivered)
      · exact trivial
      · exact only_mono hroutine (routine_concludeDelivery loaded attempt delivered)
    · rintro (failure | outcome)
      · exact only_mono hroutine (routine_deliveryFailed _ _)
      · exact trivial

/-! ### `WAITING_CI` and `READY_FOR_HUMAN_REVIEW` -/

theorem routine_observePullRequest (unit : WorkUnitRow) (branch pushedCommit : String)
    (pullRequest : GitHubPullRequest) (now : Instant) :
    Routine (observePullRequest deps unit branch pushedCommit repository pullRequest now) := by
  unfold observePullRequest
  dsimp only
  split
  · exact trivial
  · refine routine_bind ?_ fun contains => ?_
    · unfold containsPushed
      split_ifs
      · exact trivial
      · exact routine_service rfl fun _ => trivial
    · split_ifs
      · exact trivial
      · exact trivial
      · refine routine_bind ?_ fun _ => trivial
        unfold observeMerged
        split
        · exact trivial
        · refine routine_service rfl fun relation => ?_
          dsimp only
          split_ifs
          · exact trivial
          · exact trivial
          · exact trivial
      · exact trivial
      · refine routine_bind ?_ fun _ => trivial
        exact routine_service rfl fun _ =>
          routine_service rfl fun _ => routine_service rfl fun _ => trivial

theorem routine_observeUnit (unit : WorkUnitRow) : Routine (observeUnit deps unit) := by
  refine routine_service rfl fun aborted => ?_
  split_ifs
  · exact trivial
  · refine routine_bind ?_ fun _ => routine_database rfl fun _ => trivial
    refine routine_bind (routine_repository _) fun repository => ?_
    split
    · exact routine_service rfl fun _ =>
        routine_service rfl fun _ => routine_observePullRequest _ _ _ _ _
    · exact trivial

theorem routine_advanceObserved (observed : List ObservedUnit) (toState : TaskState)
    (reason : String) : Routine (advanceObserved observed toState reason) :=
  routine_bind (routine_database rfl fun _ => only_database.mpr rfl) fun _ => trivial

theorem routine_poll (reason : String) : Routine (poll deps reason) :=
  routine_service rfl fun _ => trivial

theorem routine_decideDelivery (observed : List ObservedUnit) :
    Routine (decideDelivery deps task observed) := by
  unfold decideDelivery
  dsimp only
  split_ifs
  · exact routine_bind (routine_database rfl fun _ => only_database.mpr rfl) fun _ =>
      routine_bind (routine_notifyLinearBestEffort _) fun _ => trivial
  · unfold decideMerged
    split_ifs
    · exact routine_advanceObserved _ _ _
    · exact routine_bind (routine_syncLinearComment _) fun _ => routine_advanceObserved _ _ _
  · unfold decideReviewable
    split_ifs
    · exact routine_poll _
    · exact routine_bind (routine_syncLinearComment _) fun _ => routine_advanceObserved _ _ _
  · exact routine_advanceObserved _ _ _
  · exact routine_poll _

/-- Observing the pull requests pushes nothing. -/
theorem routine_observationStage : Routine (observationStage deps task) := by
  refine only_tryCatch ?_ ?_
  · refine routine_bind routine_validatedContract fun contract => ?_
    refine routine_database rfl fun units => ?_
    split_ifs
    · exact trivial
    · refine routine_bind (only_collect routine_observeUnit _) ?_
      rintro (outcome | observed)
      · exact trivial
      · exact routine_decideDelivery observed
  · intro failure
    exact routine_bind (routine_classifyDeliveryError failure) fun _ => trivial

end Delivery

end Orchestrator
