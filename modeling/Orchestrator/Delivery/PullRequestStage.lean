import Orchestrator.Delivery.DeliverySupport

/-! # `PR_CREATED`

The stage that delivers the reviewed branch of every declared repository: it verifies
what leaves the host, pushes without force, and opens or recovers one pull request for
each work unit (`delivery/pull-request-stage.ts`, `pushTaskBranch` and
`inspectRemoteBranch` of `workspaces/workspace-manager.ts`). Texts that only people read,
such as the description of a pull request, are left out.
-/

namespace Orchestrator

open Kit TaskState

/-! ## The remote branch -/

/-- Git's messages for a push that the remote refused. -/
def pushRefused (message : String) : Bool :=
  let text := String.ofList (message.toList.map Char.toLower)
  ["[rejected]", "non-fast-forward", "fetch first", "stale info"].any (includes text)

def remoteUnavailableError (repository : String) (cause : StageError) : StageError :=
  .remoteUnavailable s!"Remote for repository {repository} is unavailable: {cause.message}"

/-- Describes the remote task branch relative to a reviewed local commit. -/
def inspectRemoteBranch (deps : StageDependencies) (workspace : TaskWorkspace) (commit : String) :
    StageProc RemoteBranchState := do
  let repository ← deps.repository workspace.repository
  let _ ← service (.verifyRepository repository.name)
  service (.remoteBranchState repository.name workspace.branch commit)

/-- The push of a reviewed commit; it never forces. -/
def pushCommit (repository : RegisteredRepository) (branch commit : String) : StageProc Unit :=
  (service (.gitPush repository.name repository.remote s!"{commit}:refs/heads/{branch}")).tryCatch
    fun failure =>
      if pushRefused failure.message then
        .throw (.workspaceBlocked (s!"Remote branch {branch} of {repository.name} changed during " ++
          "push; manual recovery required"))
      -- The push may have reached the remote; the next attempt reads the branch.
      else .throw (remoteUnavailableError repository.name failure)

/-- Pushes a reviewed commit to the task branch, if the worktree still has it as its HEAD and
the remote branch does not exist. -/
def pushTaskBranch (deps : StageDependencies) (workspace : TaskWorkspace) (commit : String) :
    StageProc RemoteBranchState := do
  let repository ← deps.repository workspace.repository
  let _ ← service (.verifyRepository repository.name)
  let head ← service (.verifyOwnedWorkspace workspace)
  if head ≠ commit then
    .throw (.workspaceBlocked
      s!"Worktree HEAD {head} in {repository.name} is not the reviewed commit {commit}")
  else do
    let before ← service (.remoteBranchState repository.name workspace.branch commit)
    if before.kind ≠ .absent then pure before
    else do
      let _ ← pushCommit repository workspace.branch commit
      let pushed ← service (.remoteBranchState repository.name workspace.branch commit)
      if pushed.kind ≠ .atCommit then
        .throw (.workspaceBlocked
          s!"Remote branch {workspace.branch} of {repository.name} is not at {commit} after push")
      else pure pushed

/-! ## What is verified before a push -/

variable (deps : DeliveryDependencies) (task : Task)

def verifyGitHubRepository (repository : RegisteredRepository) : StageProc Unit := do
  let metadata ← service (.getRepository repository.github)
  if metadata.fullName ≠ repository.github then
    .throw (.deliveryRejected
      s!"GitHub reports {metadata.fullName} for registered repository {repository.github}")
  else if metadata.archived then
    .throw (.deliveryRejected s!"GitHub repository {repository.github} is archived")
  else if metadata.canPush = some false then
    .throw (.deliveryRejected
      s!"GitHub reports no push permission on {repository.github} for the orchestrator token")
  else pure ()

/-- Why a commit of the branch may not be delivered. -/
def commitProblem (unit : LoadedUnit) (commit : RangeCommit) : Option String :=
  let named := s!"Commit {shortSha commit.sha} in {unit.repository}"
  if commit.authorEmail ≠ deps.commitAuthor.email ∨ commit.authorName ≠ deps.commitAuthor.name then
    some s!"{named} was not authored by the orchestrator"
  else if commit.parents.length ≠ 1 then some s!"{named} is a merge commit"
  else if commit.taskTrailers ≠ [toString task.id] then
    some s!"{named} does not carry this task's trailer"
  else none

/-- The violations of the content rules in the cumulative change. -/
def cumulativeViolations (changes : RepositoryChanges) : List DiffViolation :=
  (evaluateChanges deps.diffContext [changes]).filter fun violation =>
    cumulativeRules.contains violation.rule

/-- The branch has only orchestrator commits of this task, and its whole change passes the
content rules of the diff policy. -/
def verifyBranchContent (unit : LoadedUnit) : StageProc Unit := do
  if unit.head = unit.baseCommit then
    .throw (.deliveryRejected s!"{unit.repository} has no commits to deliver")
  else do
    let commits ← commitsInRange unit.workspacePath unit.baseCommit unit.head
    match commits.findSome? (commitProblem deps task unit) with
    | some problem => .throw (.deliveryRejected problem)
    | none => do
        let limit := deps.diffPolicy.maxChangedLines
        let changes ← collectRange unit.repository unit.workspacePath unit.baseCommit unit.head limit
        if changes.patchSkipped then
          .throw (.deliveryRejected (s!"The change in {unit.repository} exceeds {limit} lines " ++
            "and cannot be re-inspected"))
        else
          let violations := cumulativeViolations deps changes
          if violations ≠ [] then
            .throw (.deliveryRejected (s!"Branch content in {unit.repository} violates the diff " ++
              s!"policy: {describeViolations violations}"))
          else pure ()

def pushKey (unit : LoadedUnit) : String :=
  s!"kelolakelas-orchestrator:{task.id}:git-push:{unit.repository}:{unit.head}"

def pushResponse (state : RemoteBranchState) : OperationResponse :=
  .push state.kind state.remoteHead

/-- The push under its intent record, and the state of the remote branch afterwards. -/
def pushUnit (unit : LoadedUnit) : StageProc Unit := do
  let _ ← idempotentOperation task .gitPush (pushKey task unit) fun _ => do
    let state ← pushTaskBranch deps.toStageDependencies unit.toTaskWorkspace unit.head
    pure (pushResponse state)
  -- Observed after a recorded push too: the branch may have been rewritten since.
  let state ← inspectRemoteBranch deps.toStageDependencies unit.toTaskWorkspace unit.head
  match state.kind with
  | .absent => .throw (.deliveryRejected
      s!"Remote branch {unit.branch} of {unit.repository} was deleted after it was pushed")
  | .diverged => .throw (.deliveryRejected
      (s!"Remote branch {unit.branch} of {unit.repository} no longer contains the reviewed " ++
        "commit; it was force-pushed or replaced"))
  | _ => pure ()

/-! ## The pull request of a work unit -/

/-- Why a pull request is not the one of this work unit. -/
def pullRequestProblem (unit : LoadedUnit) (repository : RegisteredRepository)
    (pullRequest : GitHubPullRequest) (recorded : Option Nat) : Option String :=
  let named := s!"Pull request #{pullRequest.number}"
  match recorded.filter (· ≠ pullRequest.number) with
  | some number =>
      some s!"{named} for {unit.repository} replaced recorded pull request #{number}"
  | none =>
      if pullRequest.headRepository ≠ some repository.github ∨ pullRequest.headRef ≠ unit.branch then
        some s!"{named} does not come from {repository.github}:{unit.branch}"
      else if pullRequest.baseRef ≠ repository.baseBranch then
        some (s!"{named} for {unit.repository} targets {pullRequest.baseRef}, " ++
          s!"not {repository.baseBranch}")
      else none

def verifyPullRequest (unit : LoadedUnit) (repository : RegisteredRepository)
    (pullRequest : GitHubPullRequest) (recorded : Option Nat) : StageProc Unit :=
  match pullRequestProblem unit repository pullRequest recorded with
  | some problem => .throw (.deliveryRejected problem)
  | none => pure ()

/-- Why the listed pull requests have no candidate, or that there is none to find. -/
def noCandidate (unit : LoadedUnit) (recorded : Option Nat)
    (pullRequests : List GitHubPullRequest) : StageProc (Option GitHubPullRequest) :=
  if 1 < (pullRequests.filter (·.merged)).length then
    .throw (.deliveryRejected
      s!"Branch {unit.branch} of {unit.repository} has several merged pull requests")
  else
    match pullRequests, recorded with
    | pullRequest :: _, _ => .throw (.deliveryRejected
        (s!"Pull request #{pullRequest.number} for {unit.repository} was closed without merging; " ++
          "reopen it or cancel the task"))
    | [], some number => .throw (.deliveryRejected
        (s!"Recorded pull request #{number} for {unit.repository} is no longer found for " ++
          s!"branch {unit.branch}"))
    | [], none => pure none

/-- The candidate contains the reviewed commit. -/
def verifyHead (unit : LoadedUnit) (repository : RegisteredRepository)
    (candidate : GitHubPullRequest) : StageProc (Option GitHubPullRequest) := do
  if candidate.headSha = unit.head then pure (some candidate)
  else do
    let relation ← service (.compareCommits repository.github unit.head candidate.headSha)
    if !relation.contains then
      .throw (.deliveryRejected (s!"Pull request #{candidate.number} for {unit.repository} no " ++
        s!"longer contains the reviewed commit {shortSha unit.head}"))
    else pure (some candidate)

/-- The decision about the listed pull requests. Closed, duplicated, retargeted, or rewritten
ones need an operator. -/
def reconcileListed (unit : LoadedUnit) (repository : RegisteredRepository)
    (recorded : Option Nat) (pullRequests : List GitHubPullRequest) :
    StageProc (Option GitHubPullRequest) :=
  let opened := pullRequests.filter fun pullRequest => pullRequest.state = .opened
  let merged := pullRequests.filter (·.merged)
  if 1 < opened.length then
    .throw (.deliveryRejected
      s!"Branch {unit.branch} of {unit.repository} has {opened.length} open pull requests")
  else
    match opened.head?.or (if merged.length = 1 then merged.head? else none) with
    | none => noCandidate unit recorded pullRequests
    | some candidate => do
        let _ ← verifyPullRequest unit repository candidate recorded
        verifyHead unit repository candidate

/-- Finds the work unit's existing pull request. -/
def reconcilePullRequest (unit : LoadedUnit) (repository : RegisteredRepository)
    (recorded : Option Nat) : StageProc (Option GitHubPullRequest) := do
  let pullRequests ← service (.findPullRequests repository.github unit.branch)
  reconcileListed unit repository recorded pullRequests

def pullRequestKey (repository : String) : String :=
  s!"kelolakelas-orchestrator:{task.id}:github-pull-request:{repository}"

/-- A pull request whose creation was lost may not be listed yet: GitHub refuses a second open
one for the same head and base, and the next run reconciles. -/
def retryExisting (failure : StageError) : StageError :=
  match failure with
  | .gitHub _ (some 422) _ message =>
      if includes (String.ofList (message.toList.map Char.toLower)) "already exists" then
        .gitHub .transient (some 422) none message
      else failure
  | _ => failure

def createdPullRequest (unit : LoadedUnit) (repository : RegisteredRepository) :
    StageProc OperationResponse := do
  let input : CreatePullRequestInput :=
    { head := unit.branch, base := repository.baseBranch, draft := deps.delivery.draftPullRequests }
  let created ← service (.createPullRequest repository.github input)
  pure (.pullRequest created.number created.url false)

/-- `operation.response.number`. -/
def responseNumber : Option OperationResponse → Option Nat
  | some (.pullRequest number _ _) => some number
  | _ => none

def createPullRequest (unit : LoadedUnit) (repository : RegisteredRepository)
    (recorded : Option Nat) : StageProc GitHubPullRequest := do
  let operation ← (idempotentOperation task .githubPullRequest (pullRequestKey task unit.repository)
    fun _ => createdPullRequest deps unit repository).tryCatch
      fun failure => .throw (retryExisting failure)
  let number := responseNumber operation.1
  let named := (number.map toString).getD "undefined"
  if operation.2 then
    .throw (.deliveryRejected (s!"Pull request #{named} recorded for {unit.repository} is no " ++
      s!"longer found for branch {unit.branch}"))
  else do
    let created ← service (.getPullRequest repository.github (number.getD 0))
    let _ ← verifyPullRequest unit repository created recorded
    pure created

/-- `pullRequestNumber` of the work unit. -/
def recordedNumber (units : List WorkUnitRow) (repository : String) : Option Nat :=
  ((units.find? fun row => row.repository = repository).bind (·.pullRequest)).map (·.number)

def ensurePullRequest (unit : LoadedUnit) (repository : RegisteredRepository) :
    StageProc GitHubPullRequest := do
  let units ← database .getWorkUnits
  let recorded := recordedNumber units unit.repository
  match ← reconcilePullRequest unit repository recorded with
  | some found => do
      let _ ← idempotentOperation task .githubPullRequest (pullRequestKey task unit.repository)
        fun _ => pure (.pullRequest found.number found.url true)
      pure found
  | none => createPullRequest deps task unit repository recorded

/-! ## The stage -/

/-- What is written about a work unit once its pull request is there. -/
def openedUpdate (pullRequest : GitHubPullRequest) : WorkUnitDeliveryUpdate :=
  { state := some prCreated
    outcome := some (some s!"Pull request #{pullRequest.number} open")
    pullRequest := some ⟨pullRequest.number, pullRequest.url⟩ }

def pushedUpdate (unit : LoadedUnit) : WorkUnitDeliveryUpdate :=
  { pushedCommit := some unit.head, state := some prCreated
    outcome := some (some "Reviewed branch pushed") }

/-- The pull request of a work unit, recorded on it. -/
def openPullRequest (unit : LoadedUnit) (repository : RegisteredRepository) :
    StageProc GitHubPullRequest := do
  let pullRequest ← ensurePullRequest deps task unit repository
  let _ ← database (.recordWorkUnitDelivery unit.repository (openedUpdate pullRequest))
  pure pullRequest

/-- One entry of `pullRequests`. -/
structure DeliveredUnit where
  link : PullRequestLink
  head : String

def DeliveredUnit.recorded (entry : DeliveredUnit) : DeliveredPullRequest :=
  ⟨entry.link.repository, entry.link.github, entry.link.number, entry.link.url, entry.head⟩

/-- One round of the loop over the work units. -/
def deliverUnit (unit : LoadedUnit) : StageProc (Except StageOutcome DeliveredUnit) := do
  if ← service .aborted then pure (.error .interrupted)
  else do
    let repository ← deps.repository unit.repository
    let _ ← verifyGitHubRepository repository
    let _ ← verifyBranchContent deps task unit
    let _ ← pushUnit deps task unit
    let _ ← database (.recordWorkUnitDelivery unit.repository (pushedUpdate unit))
    let pullRequest ← openPullRequest deps task unit repository
    let link : PullRequestLink :=
      ⟨unit.repository, repository.github, pullRequest.number, pullRequest.url⟩
    let _ ← syncLinearPullRequestLink task link
    pure (.ok ⟨link, unit.head⟩)

/-- The comment on the opened pull requests. -/
def openedBody (delivered : List DeliveredUnit) : String :=
  let line (entry : DeliveredUnit) : String :=
    s!"- `{entry.link.repository}`: [{entry.link.github}#{entry.link.number}]" ++
      s!"({entry.link.url}) at `{shortSha entry.head}`"
  "\n".intercalate (["**Pull requests opened** by the KelolaKelas AI orchestrator.", ""] ++
    delivered.map line ++ ["", "Required checks and human review are pending."])

/-- What follows the start of the attempt. -/
def deliverUnits (loaded : LoadedWorkspaces) (attempt : Nat) : StageProc StageOutcome := do
  match ← Proc.collect (deliverUnit deps task) loaded.units with
  | .error outcome => pure outcome
  | .ok delivered => do
      let _ ← syncLinearComment deps task
        ⟨"pull-requests-opened", .heads loaded.heads, openedBody delivered⟩
      let _ ← completeAttempt attempt
        { evidence := some (.pullRequests (delivered.map DeliveredUnit.recorded)) }
      let names := ", ".intercalate (delivered.map fun entry =>
        s!"{entry.link.repository}#{entry.link.number}")
      pure (.advance { toState := waitingCi, reason := some s!"Pull requests open: {names}",
                       lastError := some none })

/-- The checkpoints that approve the commits at hand. -/
def approvedHeads (loaded : LoadedWorkspaces) (approved : Option ReviewApproved)
    (passed : Option QualityPassed) : Bool :=
  match approved, passed with
  | some approved, some passed =>
      sameHeads approved.heads loaded.heads && sameHeads passed.heads loaded.heads
  | _, _ => false

/-- The part of the stage before its attempt, with the attempt it starts. -/
def beginDelivery : StageProc (Except StageOutcome (LoadedWorkspaces × Nat)) := do
  let loaded ← loadTaskWorkspaces deps.toStageDependencies task
  let approved ← readReviewApproved
  let passed ← readQualityPassed
  if !approvedHeads loaded approved passed then
    pure (.error (manualDeliveryIntervention
      "Delivery requires an approved review and passing quality gates for the current commits"))
  else do
    let attempt ← startAttempt
    pure (.ok (loaded, attempt))

/-- The `catch` of the stage; `attempt` is the one in progress. -/
def deliveryFailed (attempt : Option Nat) (failure : StageError) : StageProc StageOutcome := do
  match failure with
  | .deliveryRejected message => do
      if let some number := attempt then
        completeAttempt number
          { category := some .deliveryRejected, evidence := some (.detail (some message)) }
      let _ ← notifyLinearBestEffort deps task
        ⟨"delivery-blocked", .message message,
          s!"**Delivery blocked**; manual intervention required.\n\n{untrustedText deps message 1000}"⟩
      pure (manualDeliveryIntervention message)
  | _ => do
      let (outcome, category) ← classifyDeliveryError deps failure
      match attempt, outcome with
      -- A wait keeps the attempt open: the next run continues it.
      | some number, .advance advance =>
          completeAttempt number
            { category := some category, evidence := some (.detail advance.lastError.join) }
      | some number, .pauseLimit _ =>
          completeAttempt number { category := some category, evidence := some (.detail none) }
      | some number, .interrupted =>
          completeAttempt number { category := some category, evidence := some (.detail none) }
      | _, _ => pure ()
      pure outcome

/-- `PullRequestStage.run`. -/
def pullRequestStage : StageProc StageOutcome := do
  match ← (beginDelivery deps task).result with
  | .error failure => deliveryFailed deps task none failure
  | .ok (.error outcome) => pure outcome
  | .ok (.ok (loaded, attempt)) => do
      match ← (deliverUnits deps task loaded attempt).result with
      | .error failure => deliveryFailed deps task (some attempt) failure
      | .ok outcome => pure outcome

end Orchestrator
