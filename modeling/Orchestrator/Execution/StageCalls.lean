import Orchestrator.Kit.Proc
import Orchestrator.Providers.GitHub
import Orchestrator.Repositories.StageTables
import Orchestrator.Routing.EscalationPolicy

/-! # The calls of a stage handler

A stage handler is a procedure that calls the task repository and the services around
the orchestrator: worktrees and Git, agents, quality gates, GitHub, Linear. A database
call is a transaction on the stage tables whose answer may be lost; what a service does
and answers is a relation on the world outside. The journal records what happened.
-/

namespace Orchestrator

open Kit

/-! ## Services -/

/-- A persisted work-unit workspace that a stage operates on. -/
structure TaskWorkspace extends WorkspaceIdentity where
  taskId : TaskId
  deriving DecidableEq, Repr

/-- `PrepareWorkspaceInput`; `persisted` is the identity the work unit has, if any. -/
structure PrepareWorkspaceInput where
  taskId : TaskId
  repository : String
  branch : String
  workspacePath : Option String
  persistedBranch : Option String
  baseCommit : Option String
  deriving DecidableEq, Repr

structure RemoteBranchState where
  kind : RemoteBranchKind
  remoteHead : Option String
  deriving DecidableEq, Repr

structure CommitAuthor where
  name : String
  email : String
  deriving DecidableEq, Repr

/-- A registry entry, with the fields that stages read. -/
structure RegisteredRepository where
  name : String
  github : String
  remote : String
  baseBranch : String
  deriving DecidableEq, Repr

/-- HEAD and porcelain status of a worktree. -/
structure WorkspaceSnapshot where
  head : String
  status : String
  deriving DecidableEq, Repr

/-- What `git diff` compares: the index with HEAD, or two commits. -/
inductive DiffScope
  | cached
  | range (base head : String)
  deriving DecidableEq, Repr

/-- `--raw -z`, `--numstat -z`, or a zero-context patch. -/
inductive DiffFormat
  | raw | numstat | patch
  deriving DecidableEq, Repr

inductive QualityPhases
  | setup | all
  deriving DecidableEq, Repr

/-- The schema-validated output of each role. -/
abbrev AgentRole.Output : AgentRole → Type
  | .analyzer => AnalysisResult
  | .implementer => ChangeResult
  | .fixer => ChangeResult
  | .reviewer => ReviewResult

inductive ServiceCall
  /-- `deps.clock()`. -/
  | clock
  /-- `context.signal.aborted`. -/
  | aborted
  | listUnfinishedBlockers (taskId : TaskId)
  | prepareWorkspace (input : PrepareWorkspaceInput)
  /-- The registered clone and its remote are what the registry says. -/
  | verifyRepository (repository : String)
  /-- The worktree proves its ownership; the answer is its HEAD. -/
  | verifyOwnedWorkspace (workspace : TaskWorkspace)
  /-- The answer says whether anything was discarded. -/
  | restoreWorkspace (workspace : TaskWorkspace)
  | commitWorkspace (workspace : TaskWorkspace) (message : String) (author : CommitAuthor)
  | remoteBranchState (repository branch commit : String)
  | gitPush (repository remote refspec : String)
  | snapshot (workspacePath : String)
  | isAncestor (workspacePath ancestor descendant : String)
  | gitAdd (workspacePath : String)
  | gitDiff (workspacePath : String) (scope : DiffScope) (format : DiffFormat)
  | gitLog (workspacePath base head : String)
  | diffFromBase (workspacePath baseCommit : String)
  | loadDocumentation (repositories : List RepositoryName)
  | runAgent (role : AgentRole) (model : ModelSelection)
  | runQuality (repository workspacePath : String) (phases : QualityPhases)
  | getRepository (github : String)
  | findPullRequests (github branch : String)
  | createPullRequest (github : String) (input : CreatePullRequestInput)
  | getPullRequest (github : String) (number : Nat)
  | compareCommits (github base head : String)
  | getBranchPolicy (github branch : String)
  | listChecks (github sha : String)
  | listReviews (github : String) (number : Nat)
  | listComments (issueId : String)
  | createComment (issueId body : String)
  | attachLink (issueId url title subtitle : String)
  deriving DecidableEq

abbrev ServiceCall.Answer : ServiceCall → Type
  | .clock => Instant
  | .aborted => Bool
  | .listUnfinishedBlockers _ => List (String × TaskState)
  | .prepareWorkspace _ => WorkspaceIdentity
  | .verifyOwnedWorkspace _ => String
  | .restoreWorkspace _ => Bool
  | .commitWorkspace _ _ _ => String
  | .remoteBranchState _ _ _ => RemoteBranchState
  | .snapshot _ => WorkspaceSnapshot
  | .isAncestor _ _ _ => Bool
  | .gitDiff _ _ _ => String
  | .gitLog _ _ _ => String
  | .runAgent role _ => AgentRun role.Output
  | .runQuality _ _ _ => RepositoryQualityReport
  | .getRepository _ => GitHubRepository
  | .findPullRequests _ _ => List GitHubPullRequest
  | .createPullRequest _ _ => GitHubPullRequest
  | .getPullRequest _ _ => GitHubPullRequest
  | .compareCommits _ _ _ => CommitComparison
  | .getBranchPolicy _ _ => BranchPolicy
  | .listChecks _ _ => List CheckResult
  | .listReviews _ _ => List PullRequestReview
  | .listComments _ => List LinearComment
  | .createComment _ _ => String
  | .attachLink _ _ _ _ => String
  | _ => Unit

/-! ## Stage procedures -/

inductive StageCall
  | database (call : DatabaseCall)
  | service (call : ServiceCall)
  deriving DecidableEq

abbrev StageCall.Answer : StageCall → Type
  | .database call => call.Answer
  | .service call => call.Answer

abbrev StageProc (α : Type) := Proc StageError StageCall StageCall.Answer α

def database (call : DatabaseCall) : StageProc call.Answer :=
  @Proc.perform StageError StageCall StageCall.Answer (.database call)

def service (call : ServiceCall) : StageProc call.Answer :=
  @Proc.perform StageError StageCall StageCall.Answer (.service call)

/-- What happened in an execution. No definition of the code reads it. -/
inductive JournalEntry
  /-- The transaction committed. -/
  | wrote (writer : StageWriter) (call : DatabaseCall)
  | asked (call : ServiceCall) (answer : Except StageError call.Answer)

/-- What a stage can act on: the tables and the world outside. -/
structure StageWorld (ω : Type) where
  tables : StageTables
  outside : ω
  journal : List JournalEntry := []

namespace StageWorld

variable {ω : Type} (w : StageWorld ω)

def wrote (writer : StageWriter) (call : DatabaseCall) (tables : StageTables) : StageWorld ω :=
  { w with tables, journal := w.journal ++ [.wrote writer call] }

def asked (call : ServiceCall) (answer : Except StageError call.Answer) (outside : ω) :
    StageWorld ω :=
  { w with outside, journal := w.journal ++ [.asked call answer] }

@[simp] theorem wrote_tables {writer : StageWriter} {call : DatabaseCall}
    {tables : StageTables} : (w.wrote writer call tables).tables = tables := rfl

@[simp] theorem wrote_journal {writer : StageWriter} {call : DatabaseCall}
    {tables : StageTables} :
    (w.wrote writer call tables).journal = w.journal ++ [.wrote writer call] := rfl

@[simp] theorem asked_tables {call : ServiceCall} {answer : Except StageError call.Answer}
    {outside : ω} : (w.asked call answer outside).tables = w.tables := rfl

@[simp] theorem asked_outside {call : ServiceCall} {answer : Except StageError call.Answer}
    {outside : ω} : (w.asked call answer outside).outside = outside := rfl

@[simp] theorem asked_journal {call : ServiceCall} {answer : Except StageError call.Answer}
    {outside : ω} :
    (w.asked call answer outside).journal = w.journal ++ [.asked call answer] := rfl

end StageWorld

/-- Which answers the services may give, and what they leave outside. -/
abbrev Services (ω : Type) := ω → (call : ServiceCall) → Except StageError call.Answer → ω → Prop

/-- The services, while the world outside stays in `C`. -/
def Services.within {ω : Type} (services : Services ω) (C : ω → Prop) : Services ω :=
  fun outside call answer outside' => services outside call answer outside' ∧ C outside'

/-- Services that answer by a function. -/
def fixedServices (answers : (call : ServiceCall) → Except StageError call.Answer) :
    Services Unit :=
  fun _ call answer _ => answer = answers call

/-- The answers of a stage's calls. Whether the row is leased to the caller is the
scheduler's business, so both answers to that are possible. -/
def serves {ω : Type} (services : Services ω) (writer : StageWriter) :
    Kit.Serves (StageWorld ω) StageError StageCall StageCall.Answer
  | w, .database call, answer, w' =>
      (∃ holds now tables value,
        call.perform writer holds now w.tables = .ok (tables, value) ∧
          w' = w.wrote writer call tables ∧
          -- The transaction committed, and its answer may never reach the worker.
          (answer = .ok value ∨ ∃ message, answer = .error (.other message))) ∨
      (w' = w ∧ ∃ failure, answer = .error failure ∧
        ((∃ holds now, call.perform writer holds now w.tables = .error failure) ∨
          ∃ message, failure = .other message))
  | w, .service call, answer, w' =>
      ∃ outside, services w.outside call answer outside ∧ w' = w.asked call answer outside

/-! ## Fixed answers -/

/-- A world whose services answer so, and whose database loses no answer. -/
def respondFixed (answers : (call : ServiceCall) → Except StageError call.Answer)
    (writer : StageWriter) (w : StageWorld Unit) :
    (call : StageCall) → Except StageError call.Answer × StageWorld Unit
  | .service call => (answers call, w.asked call (answers call) ())
  | .database call =>
      match call.perform writer true 0 w.tables with
      | .ok (tables, value) => (.ok value, w.wrote writer call tables)
      | .error failure => (.error failure, w)

/-- Fixed answers are one behaviour that the services may show. -/
theorem serves_respondFixed (answers : (call : ServiceCall) → Except StageError call.Answer)
    (writer : StageWriter) (w : StageWorld Unit) (call : StageCall) :
    serves (fixedServices answers) writer w call (respondFixed answers writer w call).1
      (respondFixed answers writer w call).2 := by
  cases call with
  | service call => exact ⟨(), rfl, rfl⟩
  | database call =>
      unfold respondFixed
      dsimp only
      cases hperform : call.perform writer true 0 w.tables with
      | ok performed => exact Or.inl ⟨true, 0, _, _, hperform, rfl, Or.inl rfl⟩
      | error failure => exact Or.inr ⟨rfl, failure, rfl, Or.inl ⟨true, 0, hperform⟩⟩

/-! ## Rules -/

section Rules

variable {ω : Type} {services : Services ω} {writer : StageWriter} {I : StageWorld ω → Prop}
  {w : StageWorld ω}

/-- A database call commits, or leaves the tables as they are. -/
theorem keeps_database {call : DatabaseCall} {Q : call.Answer → StageWorld ω → Prop} (hI : I w)
    (hcommit : ∀ holds now tables value,
      call.perform writer holds now w.tables = .ok (tables, value) →
        I (w.wrote writer call tables) ∧ Q value (w.wrote writer call tables)) :
    (database call).Keeps (serves services writer) I Q w := by
  refine @keeps_perform _ _ StageCall.Answer _ _ _ (.database call) Q _ hI ?_
  rintro answer w' (⟨holds, now, tables, value, hperform, rfl, hanswer⟩ | ⟨rfl, failure, rfl, _⟩)
  · obtain ⟨hkept, hvalue⟩ := hcommit holds now tables value hperform
    refine ⟨hkept, ?_⟩
    rintro answered rfl
    rcases hanswer with hanswer | ⟨message, hanswer⟩
    · cases hanswer
      exact hvalue
    · cases hanswer
  · exact ⟨hI, nofun⟩

/-- The tables are the same behind a service call; only what is outside moves. -/
theorem keeps_service {call : ServiceCall} {Q : call.Answer → StageWorld ω → Prop} (hI : I w)
    (hserved : ∀ answer outside, services w.outside call answer outside →
      I (w.asked call answer outside) ∧
        ∀ value, answer = .ok value → Q value (w.asked call answer outside)) :
    (service call).Keeps (serves services writer) I Q w := by
  refine @keeps_perform _ _ StageCall.Answer _ _ _ (.service call) Q _ hI ?_
  rintro answer w' ⟨outside, hserves, rfl⟩
  exact hserved answer outside hserves

/-- A write that commits answers its value. -/
theorem exec_database {call : DatabaseCall} {holds : Bool} {now : Instant}
    {tables : StageTables} {value : call.Answer}
    (h : call.perform writer holds now w.tables = .ok (tables, value)) :
    Exec (serves services writer) (database call) w (.returned value)
      (w.wrote writer call tables) :=
  @exec_perform _ _ StageCall.Answer _ _ _ _ (.database call) _
    (Or.inl ⟨holds, now, tables, value, h, rfl, Or.inl rfl⟩)

theorem exec_service {call : ServiceCall} {value : call.Answer} {outside : ω}
    (h : services w.outside call (.ok value) outside) :
    Exec (serves services writer) (service call) w (.returned value)
      (w.asked call (.ok value) outside) :=
  @exec_perform _ _ StageCall.Answer _ _ _ _ (.service call) _ ⟨outside, h, rfl⟩

@[simp] theorem only_database {allowed : StageCall → Prop} {call : DatabaseCall} :
    (database call).Only allowed ↔ allowed (.database call) :=
  @only_perform StageError StageCall StageCall.Answer allowed (.database call)

@[simp] theorem only_service {allowed : StageCall → Prop} {call : ServiceCall} :
    (service call).Only allowed ↔ allowed (.service call) :=
  @only_perform StageError StageCall StageCall.Answer allowed (.service call)

theorem throws_database {R : StageError → Prop} (call : DatabaseCall) :
    (database call).Throws R :=
  throws_perform (R := R) (StageCall.database call)

theorem throws_service {R : StageError → Prop} (call : ServiceCall) : (service call).Throws R :=
  throws_perform (R := R) (StageCall.service call)

end Rules

end Orchestrator
