import Orchestrator.Types.Domain

/-! # What GitHub and Linear report

The values that the delivery stages read from their providers, and how those of a branch policy
and of the reported checks come from GitHub's answers (`providers/github.ts`,
`providers/linear.ts`).
-/

namespace Orchestrator

structure GitHubRepository where
  fullName : String
  archived : Bool
  canPush : Option Bool
  deriving DecidableEq, Repr

inductive RequiredCheckSource
  | branchProtection | ruleset
  deriving DecidableEq, Repr

structure RequiredCheck where
  context : String
  appId : Option Int
  source : RequiredCheckSource
  deriving DecidableEq, Repr

/-- `requiredApprovingReviews` comes from rulesets; `protected` is read by nothing here. -/
structure BranchPolicy where
  requiredChecks : List RequiredCheck
  requiredApprovingReviews : Option Nat
  deriving DecidableEq, Repr

inductive PullRequestState
  | opened | closed
  deriving DecidableEq, Repr

structure GitHubPullRequest where
  number : Nat
  url : String
  state : PullRequestState
  merged : Bool
  mergeCommitSha : Option String
  headSha : String
  headRef : String
  headRepository : Option String
  baseRef : String
  mergeableState : Option String := none
  deriving DecidableEq, Repr

inductive CheckKind
  | checkRun | status
  deriving DecidableEq, Repr

structure CheckResult where
  name : String
  kind : CheckKind
  status : String
  conclusion : Option String
  appId : Option Int
  deriving DecidableEq, Repr

structure PullRequestReview where
  reviewer : Option String
  state : String
  commitId : Option String
  submittedAt : Option String
  deriving DecidableEq, Repr

/-- How `head` relates to `base`. -/
inductive CommitComparison
  | ahead | behind | identical | diverged
  deriving DecidableEq, Repr

def CommitComparison.text : CommitComparison → String
  | .ahead => "ahead"
  | .behind => "behind"
  | .identical => "identical"
  | .diverged => "diverged"

/-- `relation === 'ahead' || relation === 'identical'`: `head` contains `base`. -/
def CommitComparison.contains : CommitComparison → Bool
  | .ahead => true
  | .identical => true
  | _ => false

/-- The part of the input that decides which pull request is created. -/
structure CreatePullRequestInput where
  head : String
  base : String
  draft : Bool
  deriving DecidableEq, Repr

structure LinearComment where
  id : String
  body : String
  deriving DecidableEq, Repr

/-! ## Branch policies and reported checks -/

/-- A required check as the branch protection or a ruleset states it. -/
structure ProtectionCheck where
  context : String
  appId : Option Int
  deriving DecidableEq, Repr

/-- `required_status_checks` of a branch; either list may be left out. -/
structure RequiredStatusChecks where
  checks : Option (List ProtectionCheck)
  contexts : Option (List String)
  deriving DecidableEq, Repr

/-- A rule for the branch, with the two parameters that are read. -/
structure BranchRule where
  type : String
  requiredStatusChecks : Option (List ProtectionCheck)
  requiredApprovingReviewCount : Option Nat
  deriving DecidableEq, Repr

def protectionChecks (statusChecks : Option RequiredStatusChecks) : List RequiredCheck :=
  match statusChecks with
  | none => []
  | some statusChecks =>
      match statusChecks.checks with
      | some checks => checks.map fun check => ⟨check.context, check.appId, .branchProtection⟩
      | none => (statusChecks.contexts.getD []).map fun context =>
          ⟨context, none, .branchProtection⟩

/-- What one rule adds to the policy. -/
def applyRule (policy : BranchPolicy) (rule : BranchRule) : BranchPolicy :=
  let requiredChecks := if rule.type = "required_status_checks" then
      policy.requiredChecks ++ (rule.requiredStatusChecks.getD []).map fun check =>
        ⟨check.context, check.appId, .ruleset⟩
    else policy.requiredChecks
  let requiredApprovingReviews := match rule.requiredApprovingReviewCount with
    | some count =>
        if rule.type = "pull_request" then some (max (policy.requiredApprovingReviews.getD 0) count)
        else policy.requiredApprovingReviews
    | none => policy.requiredApprovingReviews
  ⟨requiredChecks, requiredApprovingReviews⟩

/-- `getBranchPolicy`; a repository without rulesets has no rules. -/
def getBranchPolicy (statusChecks : Option RequiredStatusChecks) (rules : List BranchRule) :
    BranchPolicy :=
  rules.foldl applyRule ⟨protectionChecks statusChecks, none⟩

structure CheckRun where
  name : String
  status : String
  conclusion : Option String
  appId : Option Int
  deriving DecidableEq, Repr

inductive CommitState
  | error | failure | pending | success
  deriving DecidableEq, Repr

def CommitState.text : CommitState → String
  | .error => "error"
  | .failure => "failure"
  | .pending => "pending"
  | .success => "success"

structure CommitStatus where
  context : String
  state : CommitState
  deriving DecidableEq, Repr

/-- `listChecks`: the check runs and the commit statuses of a commit. -/
def listChecks (runs : List CheckRun) (statuses : List CommitStatus) : List CheckResult :=
  runs.map (fun run => ⟨run.name, .checkRun, run.status, run.conclusion, run.appId⟩) ++
  statuses.map fun status =>
    ⟨status.context, .status, if status.state = .pending then "pending" else "completed",
      if status.state = .pending then none else some status.state.text, none⟩

end Orchestrator
