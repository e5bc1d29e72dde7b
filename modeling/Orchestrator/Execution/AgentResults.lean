import Orchestrator.Intake.PlanningContract
import Orchestrator.Kit.Json
import Orchestrator.Kit.PosixPath

/-! # Results of agent runs

The schema-validated results of the four agent roles, with the fields that stages
read, and the semantic checks a schema cannot express (`execution/agent-results.ts`,
`execution/agent-runner.ts`).
-/

namespace Orchestrator

open Kit

inductive AnalysisDecision
  | proceed | needsClarification
  deriving DecidableEq, Repr

/-- One repository of a plan, with the paths of its changes. -/
structure PlannedRepository where
  repository : RepositoryName
  changes : List String
  deriving DecidableEq, Repr

structure AnalysisResult where
  decision : AnalysisDecision
  clarifications : List String := []
  repositories : List PlannedRepository
  deriving DecidableEq, Repr

inductive ChangeStatus
  | completed | blocked
  deriving DecidableEq, Repr

/-- What an implementer or a fixer reports. -/
structure ChangeResult where
  status : ChangeStatus
  summary : String
  blockedReason : Option String := none
  repositories : List (RepositoryName × String) := []
  deriving DecidableEq, Repr

inductive ReviewVerdict
  | approve | requestChanges | reject
  deriving DecidableEq, Repr

inductive FindingSeverity
  | blocker | major | minor
  deriving DecidableEq, Repr

structure ReviewFinding where
  repository : RepositoryName
  path : String
  severity : FindingSeverity
  description : String
  deriving DecidableEq, Repr

structure ReviewResult where
  verdict : ReviewVerdict
  summary : String
  findings : List ReviewFinding := []
  deriving DecidableEq, Repr

/-- How a run that did not complete failed. -/
inductive AgentFailure
  | invalidOutput | timeout | failed
  deriving DecidableEq, Repr

def AgentFailure.text : AgentFailure → String
  | .invalidOutput => "invalid-output"
  | .timeout => "timeout"
  | .failed => "failed"

inductive AgentRunResult (T : Type)
  | completed (output : T)
  | usageLimit (message : String) (retryAfter : Option Int)
  | rateLimit (message : String) (retryAfter : Option Int)
  | cancelled (message : String)
  | failure (kind : AgentFailure) (message : String)

structure AgentUsage where
  inputTokens : Nat
  cachedInputTokens : Nat
  outputTokens : Nat
  reasoningOutputTokens : Nat
  deriving DecidableEq, Repr

/-- A result with the metrics that stages record of its run. -/
structure AgentRun (T : Type) where
  result : AgentRunResult T
  usage : Option AgentUsage := none

/-- `path.replace(/\/+$/, '')`. -/
def withoutTrailingSlashes (path : List Char) : List Char :=
  (path.reverse.dropWhile (· = '/')).reverse

/-- A repository-relative POSIX path that cannot escape the repository. -/
def isSafeRepositoryPath (path : String) : Bool :=
  let trimmed := withoutTrailingSlashes path.toList
  if trimmed = [] || trimmed.contains '\\' || trimmed.contains '\x00' ||
      PosixPath.isAbsolute trimmed then false
  else
    let normalized := PosixPath.normalize trimmed
    normalized = trimmed && normalized ≠ ['.'] && normalized ≠ ['.', '.'] &&
      !(['.', '.', '/'].isPrefixOf normalized)

/-- `JSON.stringify(text)`. -/
def stringifyText (text : String) : String :=
  String.ofList (Kit.quote (text.toList.map .character))

def analysisProblems (result : AnalysisResult) (declared : List RepositoryName) : List String :=
  let planned := result.repositories.map (·.repository)
  let plannedNames := ", ".intercalate (planned.map (·.text))
  let declaredNames := ", ".intercalate (declared.map (·.text))
  (if hasDuplicates planned then ["plan lists a repository more than once"] else []) ++
  (if sortedText (planned.map (·.text)) ≠ sortedText (declared.map (·.text)) then
    [s!"plan repositories [{plannedNames}] must equal contract repositories [{declaredNames}]"]
    else []) ++
  (if result.decision = .proceed ∧ result.repositories.any (·.changes.isEmpty) then
    ["every planned repository must list at least one change"] else []) ++
  (if result.decision = .needsClarification ∧ result.clarifications = [] then
    ["needs-clarification requires at least one clarification"] else []) ++
  result.repositories.flatMap fun entry =>
    (entry.changes.filter fun path => !isSafeRepositoryPath path).map fun path =>
      s!"unsafe path in {entry.repository.text}: {stringifyText path}"

def reviewProblems (result : ReviewResult) (declared : List RepositoryName) : List String :=
  result.findings.flatMap fun finding =>
    (if declared.contains finding.repository then []
      else [s!"finding names undeclared repository {finding.repository.text}"]) ++
    (if isSafeRepositoryPath finding.path then []
      else [s!"unsafe finding path {stringifyText finding.path}"])

/-- A blocking finding overrides an approval. -/
def effectiveVerdict (result : ReviewResult) : ReviewVerdict :=
  if result.verdict = .approve ∧ result.findings.any (fun finding => finding.severity ≠ .minor)
  then .requestChanges
  else result.verdict

end Orchestrator
