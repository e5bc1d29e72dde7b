import Orchestrator.Delivery.DeliverySupport

/-! # `WAITING_CI` and `READY_FOR_HUMAN_REVIEW`

The evaluation of required checks and reviews, and the stage that observes the pull
request of every work unit and decides about the task (`delivery/required-checks.ts`,
`delivery/observation-stage.ts`). The orchestrator never merges.
-/

namespace Orchestrator

open Kit TaskState

/-! ## Required checks -/

inductive RequiredCheckState
  | success | pending | missing | failed
  deriving DecidableEq, Repr

def RequiredCheckState.text : RequiredCheckState → String
  | .success => "success"
  | .pending => "pending"
  | .missing => "missing"
  | .failed => "failed"

structure RequiredCheckObservation where
  context : String
  appId : Option Int
  state : RequiredCheckState
  conclusions : List (Option String)
  deriving DecidableEq, Repr

inductive RequiredChecksOutcome
  | passed | pending | failed | noPolicy
  deriving DecidableEq, Repr

structure RequiredChecksEvaluation where
  outcome : RequiredChecksOutcome
  checks : List RequiredCheckObservation
  deriving DecidableEq, Repr

/-- Only an explicit success counts. -/
def stateOf (check : CheckResult) : RequiredCheckState :=
  let concluded : RequiredCheckState :=
    if check.conclusion = some "success" then .success else .failed
  match check.kind with
  | .status => if check.status = "pending" then .pending else concluded
  | .checkRun => if check.status ≠ "completed" then .pending else concluded

/-- What was reported for one requirement. -/
def observeRequirement (reported : List CheckResult) (requirement : RequiredCheck) :
    RequiredCheckObservation :=
  let matching := reported.filter fun check =>
    check.name = requirement.context &&
      (requirement.appId.isNone || check.appId = requirement.appId)
  let states := matching.map stateOf
  let state : RequiredCheckState :=
    if matching.isEmpty then .missing
    else if states.contains .failed then .failed
    else if states.contains .pending then .pending
    else .success
  ⟨requirement.context, requirement.appId, state, matching.map (·.conclusion)⟩

/-- The required checks by context and app: the last entry of a key counts. -/
def requirements (policy : BranchPolicy) : List RequiredCheck :=
  let entries := policy.requiredChecks.foldl (fun entries check =>
    setEntry entries (s!"{check.context}\x00" ++ (check.appId.map toString).getD "") check) []
  entries.map (·.2)

def evaluateRequiredChecks (policy : BranchPolicy) (reported : List CheckResult) :
    RequiredChecksEvaluation :=
  let required := requirements policy
  if required.isEmpty then ⟨.noPolicy, []⟩
  else
    let checks := required.map (observeRequirement reported)
    let outcome : RequiredChecksOutcome :=
      if checks.any (·.state = .failed) then .failed
      else if checks.all (·.state = .success) then .passed
      else .pending
    ⟨outcome, checks⟩

structure ReviewSummary where
  approvedBy : List String
  requiredApprovingReviews : Option Nat
  deriving DecidableEq, Repr

/-- One review on top of the decisions so far. -/
def decideReview (latest : List (String × PullRequestReview)) (review : PullRequestReview) :
    List (String × PullRequestReview) :=
  match review.reviewer with
  | none => latest
  | some reviewer =>
      if review.state = "COMMENTED" ∨ review.state = "PENDING" then latest
      else if review.state = "DISMISSED" then latest.filter (·.1 ≠ reviewer)
      else setEntry latest reviewer review

/-- The latest decisive review of each reviewer. -/
def summarizeReviews (reviews : List PullRequestReview) (requiredApprovingReviews : Option Nat) :
    ReviewSummary :=
  let ordered := reviews.insertionSort fun left right =>
    left.submittedAt.getD "" ≤ right.submittedAt.getD ""
  let decisions := ordered.foldl decideReview []
  let approved := (decisions.filter (·.2.state = "APPROVED")).map (·.1)
  ⟨approved.insertionSort (· ≤ ·), requiredApprovingReviews⟩

/-! ## One work unit -/

/-- Delivery status of one work unit at one observation. -/
inductive UnitDelivery
  | blocked (reason : String)
  | checksPending (reason : String)
  | checksPassed (reason : String)
  /-- Merged, but the merge commit is not yet reachable from the remote base branch. -/
  | mergeUnverified (reason : String)
  | merged (reason mergeCommit : String)
  deriving DecidableEq, Repr

namespace UnitDelivery

def reason : UnitDelivery → String
  | .blocked reason => reason
  | .checksPending reason => reason
  | .checksPassed reason => reason
  | .mergeUnverified reason => reason
  | .merged reason _ => reason

def status : UnitDelivery → String
  | .blocked _ => "blocked"
  | .checksPending _ => "checks-pending"
  | .checksPassed _ => "checks-passed"
  | .mergeUnverified _ => "merge-unverified"
  | .merged _ _ => "merged"

/-- `unitStates`. -/
def unitState : UnitDelivery → TaskState
  | .blocked _ => TaskState.blocked
  | .checksPending _ => waitingCi
  | .checksPassed _ => readyForHumanReview
  | .mergeUnverified _ => readyForHumanReview
  | .merged _ _ => completed

def mergeCommit? : UnitDelivery → Option String
  | .merged _ mergeCommit => some mergeCommit
  | _ => none

/-- The unit waits for nobody but people. -/
def isReviewable : UnitDelivery → Bool
  | .checksPassed _ => true
  | .mergeUnverified _ => true
  | .merged _ _ => true
  | _ => false

def isBlocked : UnitDelivery → Bool
  | .blocked _ => true
  | _ => false

end UnitDelivery

structure ObservedUnit where
  unit : WorkUnitRow
  repository : RegisteredRepository
  delivery : UnitDelivery
  pullRequestUrl : String
  checks : Option RequiredChecksEvaluation := none
  reviews : Option ReviewSummary := none
  observation : Option DeliveryObservation

variable (deps : DeliveryDependencies) (task : Task)

/-- `minutesBetween(headFirstObservedAt, now) > requiredChecksTimeoutMinutes`. -/
def timedOut (first now : Instant) : Bool :=
  deps.delivery.requiredChecksTimeoutMinutes * 60000 < now - first

/-- Since when the head of the pull request was seen. -/
def headFirstObservedAt (unit : WorkUnitRow) (headSha : String) (now : Instant) : Instant :=
  match unit.deliveryObservation with
  | some previous => if previous.headSha = headSha then previous.headFirstObservedAt else now
  | none => now

/-- What is wrong with a pull request before its checks count. -/
def identityProblem (branch : String) (repository : RegisteredRepository)
    (pullRequest : GitHubPullRequest) : Option String :=
  let named := s!"Pull request #{pullRequest.number}"
  if pullRequest.headRepository ≠ some repository.github ∨ pullRequest.headRef ≠ branch then
    some s!"{named} no longer comes from {repository.github}:{branch}"
  else if pullRequest.baseRef ≠ repository.baseBranch then
    some s!"{named} was retargeted to {pullRequest.baseRef}"
  else none

/-- The pull request still contains the pushed commit. -/
def containsPushed (repository : RegisteredRepository) (pushedCommit : String)
    (pullRequest : GitHubPullRequest) : StageProc Bool := do
  if pullRequest.headSha = pushedCommit then pure true
  else do
    let relation ← service
      (.compareCommits repository.github pushedCommit pullRequest.headSha)
    pure relation.contains

/-- A merged pull request: its merge commit has to be reachable from the base branch. -/
def observeMerged (repository : RegisteredRepository) (pullRequest : GitHubPullRequest)
    (late : Bool) : StageProc UnitDelivery := do
  match pullRequest.mergeCommitSha with
  | none => pure (.mergeUnverified
      s!"Pull request #{pullRequest.number} merged; merge commit not reported yet")
  | some mergeCommit => do
      let relation ← service
        (.compareCommits repository.github mergeCommit repository.baseBranch)
      let short := shortSha mergeCommit
      if relation.contains then pure (.merged s!"Merged as {short}" mergeCommit)
      else if late then pure (.blocked
        s!"Merge commit {short} is not reachable from {repository.baseBranch} ({relation.text})")
      else pure (.mergeUnverified
        s!"Merge commit {short} not yet reachable from {repository.baseBranch}")

/-- What the required checks of an open pull request say. -/
def checksDelivery (repository : RegisteredRepository) (pullRequest : GitHubPullRequest)
    (late : Bool) (checks : RequiredChecksEvaluation) (reviews : ReviewSummary) : UnitDelivery :=
  let short := shortSha pullRequest.headSha
  match checks.outcome with
  | .noPolicy => .blocked (s!"{repository.baseBranch} of {repository.github} requires no status " ++
      "checks; the merge gate is misconfigured")
  | .failed =>
      let failures := (checks.checks.filter (·.state = .failed)).map fun check =>
        let conclusions := ", ".intercalate (check.conclusions.map (·.getD ""))
        s!"{check.context} ({conclusions})"
      let listed := ", ".intercalate failures
      .blocked s!"Required check failed on {short}: {listed}"
  | .pending =>
      let pendings := (checks.checks.filter (·.state ≠ .success)).map fun check =>
        s!"{check.context} {check.state.text}"
      let waiting := ", ".intercalate pendings
      if late then .blocked (s!"Required checks did not succeed within " ++
        s!"{deps.delivery.requiredChecksTimeoutMinutes} minutes: {waiting}")
      else .checksPending s!"Required checks pending: {waiting}"
  | .passed =>
      let approved := reviews.approvedBy.length
      let approvals :=
        match reviews.requiredApprovingReviews with
        | none => s!"{approved} approval(s)"
        | some required => s!"{approved}/{required} approval(s)"
      .checksPassed s!"Required checks passed on {short}; {approvals}; awaiting merge"

/-- An open pull request: its required checks decide. -/
def observeOpen (repository : RegisteredRepository) (pullRequest : GitHubPullRequest)
    (late : Bool) :
    StageProc (UnitDelivery × RequiredChecksEvaluation × ReviewSummary) := do
  let policy ← service (.getBranchPolicy repository.github repository.baseBranch)
  let reported ← service (.listChecks repository.github pullRequest.headSha)
  let submitted ← service (.listReviews repository.github pullRequest.number)
  let checks := evaluateRequiredChecks policy reported
  let reviews := summarizeReviews submitted policy.requiredApprovingReviews
  pure (checksDelivery deps repository pullRequest late checks reviews, checks, reviews)

/-- The observation of a pull request that has been read. -/
def observePullRequest (unit : WorkUnitRow) (branch pushedCommit : String)
    (repository : RegisteredRepository) (pullRequest : GitHubPullRequest) (now : Instant) :
    StageProc ObservedUnit := do
  let first := headFirstObservedAt unit pullRequest.headSha now
  let observed (delivery : UnitDelivery) : ObservedUnit :=
    { unit, repository, delivery, pullRequestUrl := pullRequest.url
      observation := some ⟨pullRequest.headSha, first⟩ }
  let blockedUnit (reason : String) : ObservedUnit :=
    { observed (.blocked reason) with
      pullRequestUrl := (unit.pullRequest.map (·.url)).getD "" }
  match identityProblem branch repository pullRequest with
  | some problem => pure (blockedUnit problem)
  | none =>
      if !(← containsPushed repository pushedCommit pullRequest) then
        pure (blockedUnit (s!"Pull request #{pullRequest.number} no longer contains the " ++
          s!"reviewed commit {shortSha pushedCommit}; it was force-pushed"))
      else if pullRequest.state = .closed ∧ !pullRequest.merged then
        pure (blockedUnit s!"Pull request #{pullRequest.number} was closed without merging")
      else
        let late := timedOut deps first now
        if pullRequest.merged then do
          let delivery ← observeMerged repository pullRequest late
          pure (if delivery.isBlocked then blockedUnit delivery.reason else observed delivery)
        else if pullRequest.mergeableState = some "dirty" then
          pure (blockedUnit
            s!"Pull request #{pullRequest.number} conflicts with {repository.baseBranch}")
        else do
          let (delivery, checks, reviews) ← observeOpen deps repository pullRequest late
          pure { observed delivery with checks := some checks, reviews := some reviews }

/-- `DeliveryObservationStage.observe`. -/
def observe (unit : WorkUnitRow) : StageProc ObservedUnit := do
  let repository ← deps.repository unit.repository
  match unit.pushedCommit, unit.pullRequest, unit.branch with
  | some pushedCommit, some recorded, some branch => do
      let pullRequest ← service (.getPullRequest repository.github recorded.number)
      let now ← service .clock
      observePullRequest deps unit branch pushedCommit repository pullRequest now
  | _, _, _ =>
      pure
        { unit, repository
          delivery := .blocked "No delivered pull request is recorded for this repository"
          pullRequestUrl := (unit.pullRequest.map (·.url)).getD ""
          observation := none }

/-- What an observation writes about its work unit. -/
def observedUpdate (observed : ObservedUnit) : WorkUnitDeliveryUpdate :=
  { state := some observed.delivery.unitState
    outcome := some (some observed.delivery.reason)
    mergeCommit := some observed.delivery.mergeCommit?
    observation := some observed.observation }

/-- One round of the loop over the work units. -/
def observeUnit (unit : WorkUnitRow) : StageProc (Except StageOutcome ObservedUnit) := do
  if ← service .aborted then pure (.error .interrupted)
  else do
    let observed ← observe deps unit
    let _ ← database (.recordWorkUnitDelivery unit.repository (observedUpdate observed))
    pure (.ok observed)

/-! ## The decision -/

def ObservedUnit.recorded (entry : ObservedUnit) : ObservedDelivery :=
  ⟨entry.unit.repository, entry.delivery.status, entry.delivery.reason, entry.observation⟩

/-- One attempt for each state change, with the observations that justified it. -/
def recordOutcome (observed : List ObservedUnit) (category : Option FailureCategory) :
    StageProc Unit := do
  let attempt ← startAttempt
  completeAttempt attempt
    { category, evidence := some (.units (observed.map ObservedUnit.recorded)) }

def advanceObserved (observed : List ObservedUnit) (toState : TaskState) (reason : String) :
    StageProc StageOutcome := do
  let _ ← recordOutcome observed none
  pure (.advance
    { toState, reason := some (utf16Slice 1000 reason), lastError := some none })

def poll (reason : String) : StageProc StageOutcome := do
  let now ← service .clock
  pure (.wait
    { untilTime := now + deps.delivery.pollIntervalSeconds * 1000, reason
      lastError := some none })

/-- The lines of a comment on the work units. -/
def unitLinks (observed : List ObservedUnit) (detail : ObservedUnit → String) : String :=
  "\n".intercalate (observed.map fun entry =>
    let number := (entry.unit.pullRequest.map fun recorded => toString recorded.number).getD "null"
    s!"- `{entry.unit.repository}`: [{entry.repository.github}#{number}]" ++
      s!"({entry.pullRequestUrl}): {detail entry}")

def decideBlocked (observed : List ObservedUnit) : StageProc StageOutcome := do
  let reasons := (observed.filter (·.delivery.isBlocked)).map fun entry =>
    s!"{entry.unit.repository}: {entry.delivery.reason}"
  let message := "; ".intercalate reasons
  let _ ← recordOutcome observed (some .deliveryRejected)
  let links := unitLinks observed fun entry => untrustedText deps entry.delivery.reason 500
  let _ ← notifyLinearBestEffort deps task
    ⟨"delivery-blocked", .message message,
      s!"**Delivery blocked**; manual intervention required.\n\n{links}"⟩
  pure (manualDeliveryIntervention message "Pull request delivery blocked")

def decideMerged (observed : List ObservedUnit) : StageProc StageOutcome := do
  if task.state = waitingCi then
    advanceObserved observed readyForHumanReview "Every pull request is merged"
  else do
    let commits := observed.filterMap (·.delivery.mergeCommit?)
    let links := unitLinks observed fun entry =>
      let short := shortSha (entry.delivery.mergeCommit?.getD "")
      s!"merge commit `{short}`"
    let _ ← syncLinearComment deps task
      ⟨"delivery-completed", .commits commits, "\n".intercalate
        ["**Every pull request is merged** and verified reachable from its base branch.", "", links,
          "", "The orchestrator task is complete. Check the acceptance criteria before moving " ++
            "this issue to Done."]⟩
    advanceObserved observed completed
      "Every pull request is merged and reachable from its base branch"

def decideReviewable (observed : List ObservedUnit) (report : String) : StageProc StageOutcome := do
  if task.state = readyForHumanReview then poll deps s!"Awaiting human review and merge: {report}"
  else do
    let heads : Heads := observed.map fun entry =>
      (entry.unit.repository, (entry.observation.map (·.headSha)).getD "")
    let links := unitLinks observed fun entry =>
      match entry.delivery with
      | .checksPassed _ =>
          let contexts := ((entry.checks.map (·.checks)).getD []).map fun check =>
            "`" ++ check.context ++ "`"
          let listed := ", ".intercalate contexts
          let approved := ((entry.reviews.map (·.approvedBy)).getD []).length
          s!"{listed} passed; {approved} approval(s)"
      | _ => "merged"
    let _ ← syncLinearComment deps task
      ⟨"ready-for-human-review", .heads heads, "\n".intercalate
        ["**Required checks passed**; the pull requests are ready for human review and merge.", "",
          links]⟩
    advanceObserved observed readyForHumanReview s!"Required checks passed: {report}"

/-- `DeliveryObservationStage.decide`. -/
def decideDelivery (observed : List ObservedUnit) : StageProc StageOutcome := do
  let report := "; ".intercalate (observed.map fun entry =>
    s!"{entry.unit.repository}: {entry.delivery.reason}")
  if observed.any (·.delivery.isBlocked) then decideBlocked deps task observed
  else if observed.all (·.delivery.mergeCommit?.isSome) then decideMerged deps task observed
  else if observed.all (·.delivery.isReviewable) then decideReviewable deps task observed report
  -- Some repository has required checks pending, for example after its head moved.
  else if task.state = readyForHumanReview then
    advanceObserved observed waitingCi s!"Required checks are running again: {report}"
  else poll deps s!"Waiting for required checks: {report}"

/-- The observation of all work units, and the decision. -/
def observeDelivery : StageProc StageOutcome := do
  let contract ← validatedContract task
  let units ← database .getWorkUnits
  if joinNul (units.map (·.repository)) ≠ joinNul (declaredRepositories contract) then
    pure (manualDeliveryIntervention "Work units do not match contract repositories")
  else do
    match ← Proc.collect (observeUnit deps) units with
    | .error outcome => pure outcome
    | .ok observed => decideDelivery deps task observed

/-- `DeliveryObservationStage.run`. -/
def observationStage : StageProc StageOutcome :=
  (observeDelivery deps task).tryCatch fun failure => do
    let (outcome, _) ← classifyDeliveryError deps failure
    pure outcome

end Orchestrator
