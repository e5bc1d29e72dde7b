import Orchestrator.Delivery.ExternalOperations
import Orchestrator.Delivery.PullRequestStage

/-! # Reconciliation with GitHub

GitHub as far as the pull requests of one repository go: it refuses a second open pull
request for a head and base, a listing may omit one that was just created, and people act
at any time. Below, what the calls of `reconcilePullRequest` keep and what it can return.
-/

namespace Orchestrator

open Kit

/-! ## GitHub -/

/-- The pull requests of the work unit's repository. -/
structure GitHubServer where
  pullRequests : Table GitHubPullRequest.number := Table.empty
  /-- What `createPullRequest` calls have created. -/
  created : List Nat := []
  /-- What a listing shows for certain. -/
  listed : List Nat := []

namespace GitHubServer

variable (server : GitHubServer)

/-- The pull request is open against the base branch. -/
def OpenAgainst (base : String) (number : Nat) : Prop :=
  ∃ pullRequest, server.pullRequests.find? number = some pullRequest ∧
    pullRequest.state = .opened ∧ pullRequest.baseRef = base

/-- A new pull request, if there is no open one for the same head and base. -/
structure Accepts (github : String) (input : CreatePullRequestInput)
    (pullRequest : GitHubPullRequest) : Prop where
  new : server.pullRequests.find? pullRequest.number = none
  state : pullRequest.state = .opened
  headRef : pullRequest.headRef = input.head
  headRepository : pullRequest.headRepository = some github
  baseRef : pullRequest.baseRef = input.base
  alone : ∀ other ∈ server.pullRequests.rows, other.headRef = input.head →
    other.headRepository = some github → other.state = .opened → other.baseRef ≠ input.base

def opened (pullRequest : GitHubPullRequest) : GitHubServer :=
  { server with
    pullRequests := server.pullRequests.insert pullRequest
    created := server.created ++ [pullRequest.number] }

/-- A listing of the pull requests of a branch. -/
structure Lists (github branch : String) (pullRequests : List GitHubPullRequest) : Prop where
  current : ∀ pullRequest ∈ pullRequests, pullRequest ∈ server.pullRequests.rows ∧
    pullRequest.headRef = branch ∧ pullRequest.headRepository = some github
  complete : ∀ pullRequest ∈ server.pullRequests.rows, pullRequest.headRef = branch →
    pullRequest.headRepository = some github → pullRequest.number ∈ server.listed →
      pullRequest ∈ pullRequests

/-- What people can do: close, merge, retarget or force-push pull requests, and open others.
A pull request keeps its number and the branch it comes from. -/
structure Peopled (server' : GitHubServer) : Prop where
  created : server'.created = server.created
  listed : ∀ number ∈ server.listed, number ∈ server'.listed
  lasting : ∀ number pullRequest, server.pullRequests.find? number = some pullRequest →
    ∃ later, server'.pullRequests.find? number = some later ∧
      later.headRef = pullRequest.headRef ∧ later.headRepository = pullRequest.headRepository

theorem peopled_refl : server.Peopled server where
  created := rfl
  listed _ h := h
  lasting _ pullRequest h := ⟨pullRequest, h, rfl, rfl⟩

end GitHubServer

/-- GitHub's answers; every call may fail, and a creation may fail before or after it. -/
def githubServices : Services GitHubServer
  | server, .findPullRequests github branch, answer, server' =>
      server.Peopled server' ∧
        ∀ pullRequests, answer = .ok pullRequests → server.Lists github branch pullRequests
  | server, .createPullRequest github input, answer, server' =>
      (∃ pullRequest, server.Accepts github input pullRequest ∧
        (server.opened pullRequest).Peopled server' ∧
          (answer = .ok pullRequest ∨ ∃ failure, answer = .error failure)) ∨
      (server.Peopled server' ∧ ∃ failure, answer = .error failure)
  | server, .getPullRequest _ number, answer, server' =>
      server.Peopled server' ∧ ∀ pullRequest, answer = .ok pullRequest →
        server.pullRequests.find? number = some pullRequest
  | server, _, _, server' => server.Peopled server'

/-! ## The work unit -/

abbrev GitHubWorld := StageWorld GitHubServer

/-- What stays the same of a work unit between executions. -/
structure PullRequestUnit where
  taskId : TaskId
  repository : String
  github : String
  branch : String

namespace PullRequestUnit

variable (unit : PullRequestUnit)

def key : String :=
  s!"kelolakelas-orchestrator:{unit.taskId}:github-pull-request:{unit.repository}"

def recorded (w : GitHubWorld) : Option Nat :=
  w.tables.pullRequestNumber unit.taskId unit.repository

end PullRequestUnit

/-! ## What calls other than a creation keep -/

/-- One pull request was created at most, and it comes from the branch of the work unit. -/
structure Owned (unit : PullRequestUnit) (server : GitHubServer) : Prop where
  once : server.created.length ≤ 1
  ours : ∀ number ∈ server.created, ∃ pullRequest,
    server.pullRequests.find? number = some pullRequest ∧
      pullRequest.headRef = unit.branch ∧ pullRequest.headRepository = some unit.github

theorem Owned.peopled {unit : PullRequestUnit} {server server' : GitHubServer}
    (h : Owned unit server) (hpeopled : server.Peopled server') : Owned unit server' where
  once := by
    rw [hpeopled.created]
    exact h.once
  ours := by
    intro number hnumber
    rw [hpeopled.created] at hnumber
    rcases h.ours number hnumber with ⟨pullRequest, hfound, hbranch, hgithub⟩
    rcases hpeopled.lasting number pullRequest hfound with ⟨later, hlater, hhead, hrepository⟩
    exact ⟨later, hlater, hhead.trans hbranch, hrepository.trans hgithub⟩

/-- The call that creates a pull request. -/
def StageCall.creates : StageCall → Bool
  | .service (.createPullRequest _ _) => true
  | _ => false

theorem peopled_of_not_creates {server server' : GitHubServer} {call : ServiceCall}
    {answer : Except StageError call.Answer} (hcall : (StageCall.service call).creates = false)
    (h : githubServices server call answer server') : server.Peopled server' := by
  cases call with
  | createPullRequest github input => cases hcall
  | findPullRequests github branch => exact h.1
  | getPullRequest github number => exact h.1
  | _ => exact h

section Calls

variable {unit : PullRequestUnit} {C : GitHubServer → Prop} {writer : StageWriter}
  {α : Type} {procedure : StageProc α} {w : GitHubWorld}

theorem keeps_owned (honly : procedure.Only fun call => call.creates = false)
    (h : Owned unit w.outside) :
    procedure.Keeps (serves (githubServices.within C) writer) (fun w' => Owned unit w'.outside)
      (fun _ _ => True) w := by
  refine keeps_of_only ?_ honly h
  intro w₁ call answer w₂ hcall hserves howned
  cases call with
  | database call =>
      rcases hserves with ⟨holds, now, tables, value, _, rfl, _⟩ | ⟨rfl, _⟩
      · exact howned
      · exact howned
  | service call =>
      rcases hserves with ⟨server, hserved, rfl⟩
      exact howned.peopled (peopled_of_not_creates hcall hserved.1)

/-- An execution that started in `w₀` and has written nothing yet. -/
structure Reconciling (unit : PullRequestUnit) (C : GitHubServer → Prop) (w₀ w : GitHubWorld) :
    Prop where
  owned : Owned unit w.outside
  tables : w.tables = w₀.tables
  meanwhile : C w.outside
  created : w.outside.created = w₀.outside.created
  listed : ∀ number ∈ w₀.outside.listed, number ∈ w.outside.listed

theorem Reconciling.asked {w₀ : GitHubWorld} {call : ServiceCall}
    {answer : Except StageError call.Answer} {server : GitHubServer}
    (h : Reconciling unit C w₀ w) (hpeopled : w.outside.Peopled server) (hC : C server) :
    Reconciling unit C w₀ (w.asked call answer server) where
  owned := h.owned.peopled hpeopled
  tables := h.tables
  meanwhile := hC
  created := hpeopled.created.trans h.created
  listed number hnumber := hpeopled.listed number (h.listed number hnumber)

/-- The services that reconciliation asks. -/
def StageCall.inspects : StageCall → Bool
  | .service (.createPullRequest _ _) => false
  | .service _ => true
  | .database _ => false

theorem keeps_reconciling {w₀ : GitHubWorld}
    (honly : procedure.Only fun call => call.inspects = true) (h : Reconciling unit C w₀ w) :
    procedure.Keeps (serves (githubServices.within C) writer) (Reconciling unit C w₀)
      (fun _ _ => True) w := by
  refine keeps_of_only ?_ honly h
  intro w₁ call answer w₂ hcall hserves hkept
  cases call with
  | database call => cases hcall
  | service call =>
      rcases hserves with ⟨server, hserved, rfl⟩
      have hcreates : (StageCall.service call).creates = false := by
        cases call with
        | createPullRequest github input => cases hcall
        | _ => rfl
      exact hkept.asked (peopled_of_not_creates hcreates hserved.1) hserved.2

end Calls

/-! ## Reconciliation -/

section Reconciliation

variable {loaded : LoadedUnit} {repository : RegisteredRepository} {recorded : Option Nat}

/-- The pull request has passed `verifyPullRequest`. -/
def Verified (loaded : LoadedUnit) (repository : RegisteredRepository) (recorded : Option Nat)
    (pullRequest : GitHubPullRequest) : Prop :=
  pullRequestProblem loaded repository pullRequest recorded = none

theorem returns_verifyPullRequest (pullRequest : GitHubPullRequest) :
    (verifyPullRequest loaded repository pullRequest recorded).Returns
      fun _ => Verified loaded repository recorded pullRequest := by
  unfold verifyPullRequest
  cases hproblem : pullRequestProblem loaded repository pullRequest recorded with
  | some problem => exact trivial
  | none => exact hproblem

theorem only_verifyPullRequest {allowed : StageCall → Prop} (pullRequest : GitHubPullRequest) :
    (verifyPullRequest loaded repository pullRequest recorded).Only allowed := by
  unfold verifyPullRequest
  cases pullRequestProblem loaded repository pullRequest recorded with
  | some problem => exact trivial
  | none => exact trivial

/-- Without a candidate, nothing is found only where nothing is listed or recorded. -/
theorem returns_noCandidate (pullRequests : List GitHubPullRequest) :
    (noCandidate loaded recorded pullRequests).Returns fun found =>
      found = none ∧ pullRequests = [] ∧ recorded = none := by
  unfold noCandidate
  split_ifs
  · exact trivial
  · cases pullRequests with
    | cons pullRequest pullRequests => exact trivial
    | nil =>
        cases recorded with
        | some number => exact trivial
        | none => exact ⟨rfl, rfl, rfl⟩

theorem only_noCandidate {allowed : StageCall → Prop} (pullRequests : List GitHubPullRequest) :
    (noCandidate loaded recorded pullRequests).Only allowed := by
  unfold noCandidate
  split_ifs
  · exact trivial
  · cases pullRequests with
    | cons pullRequest pullRequests => exact trivial
    | nil =>
        cases recorded with
        | some number => exact trivial
        | none => exact trivial

theorem returns_verifyHead (candidate : GitHubPullRequest) :
    (verifyHead loaded repository candidate).Returns (· = some candidate) := by
  unfold verifyHead
  split_ifs
  · exact rfl
  · refine returns_rest ?_
    intro relation
    split_ifs
    · exact trivial
    · exact rfl

/-- What is found: a verified pull request, or nothing where nothing is listed or recorded. -/
theorem returns_reconcileListed (pullRequests : List GitHubPullRequest) :
    (reconcileListed loaded repository recorded pullRequests).Returns fun found =>
      match found with
      | some pullRequest => Verified loaded repository recorded pullRequest
      | none => pullRequests = [] ∧ recorded = none := by
  unfold reconcileListed
  dsimp only
  generalize Option.or _ _ = candidate
  split_ifs
  · exact trivial
  · cases candidate with
    | none =>
        refine returns_mono ?_ (returns_noCandidate pullRequests)
        rintro found ⟨rfl, hnothing⟩
        exact hnothing
    | some candidate =>
        refine returns_bind (returns_verifyPullRequest candidate) ?_
        intro _ hverified
        refine returns_mono ?_ (returns_verifyHead candidate)
        rintro found rfl
        exact hverified

theorem returns_reconcilePullRequest :
    (reconcilePullRequest loaded repository recorded).Returns fun found =>
      ∀ pullRequest, found = some pullRequest →
        Verified loaded repository recorded pullRequest := by
  refine returns_rest ?_
  intro pullRequests
  refine returns_mono ?_ (returns_reconcileListed pullRequests)
  rintro found hfound pullRequest rfl
  exact hfound

theorem only_reconcileListed (pullRequests : List GitHubPullRequest) :
    (reconcileListed loaded repository recorded pullRequests).Only
      fun call => call.inspects = true := by
  unfold reconcileListed
  dsimp only
  generalize Option.or _ _ = candidate
  split_ifs
  · exact trivial
  · cases candidate with
    | none => exact only_noCandidate pullRequests
    | some candidate =>
        refine only_bind (only_verifyPullRequest candidate) ?_
        intro _
        unfold verifyHead
        split_ifs
        · exact trivial
        · refine only_bind (only_service.mpr rfl) ?_
          intro relation
          split_ifs
          · exact trivial
          · exact trivial

end Reconciliation

/-! ## Failed deliveries -/

section Failed

variable {deps : DeliveryDependencies} {task : Task} {P : StageOutcome → Prop}

/-- A classified error waits, or stops for an operator. -/
theorem returns_classifyDeliveryError (hwait : ∀ outcome, P (.wait outcome))
    (hstops : ∀ message reason, P (manualDeliveryIntervention message reason))
    (failure : StageError) :
    (classifyDeliveryError deps failure).Returns fun outcome => P outcome.1 := by
  have hretry : ∀ (hint : Option Instant) (reason message : String) (category : FailureCategory),
      (do
        let untilTime ← retryAt deps hint
        pure (.wait { untilTime, reason, lastError := some (some message) }, category) :
          StageProc (StageOutcome × FailureCategory)).Returns fun outcome => P outcome.1 := by
    intro hint reason message category
    exact returns_rest fun _ => hwait _
  unfold classifyDeliveryError
  dsimp only
  cases failure with
  | gitHub kind status retryAfter message =>
      cases kind with
      | transient => exact hretry _ _ _ _
      | rateLimit => exact hretry _ _ _ _
      | _ => exact hstops _ _
  | remoteUnavailable message => exact hretry _ _ _ _
  | linearSync message => exact hretry _ _ _ _
  | workspaceBlocked message => exact hstops _ _
  | _ => exact trivial

theorem returns_deliveryFailed (hwait : ∀ outcome, P (.wait outcome))
    (hstops : ∀ message reason, P (manualDeliveryIntervention message reason))
    (attempt : Option Nat) (failure : StageError) :
    (deliveryFailed deps task attempt failure).Returns P := by
  unfold deliveryFailed
  split
  · cases attempt with
    | none => exact returns_rest fun _ => hstops _ _
    | some number => exact returns_rest fun _ => returns_rest fun _ => hstops _ _
  · refine returns_bind (returns_classifyDeliveryError hwait hstops failure) ?_
    rintro ⟨outcome, category⟩ houtcome
    dsimp only
    split
    · exact returns_rest fun _ => houtcome
    · exact returns_rest fun _ => houtcome
    · exact returns_rest fun _ => houtcome
    · exact houtcome

end Failed

end Orchestrator
