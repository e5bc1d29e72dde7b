import Orchestrator.Config.Schema
import Orchestrator.Kit.Utf16

/-! # The diff policy

Which changes may be committed, and which content may leave the host
(`execution/diff-policy.ts`, `detectSecrets` of `execution/secrets.ts`).
-/

namespace Orchestrator

open Kit

structure DiffPolicy where
  maxChangedFiles : Nat := 50
  maxChangedLines : Nat := 2000
  maxUnplannedFiles : Nat := 10
  forbiddenPaths : List String :=
    [".git/**", ".github/**", ".gitmodules", "**/CODEOWNERS", ".husky/**", "**/.npmrc",
      "**/AGENTS.md", "**/CLAUDE.md", ".codex/**", ".claude/**", "**/.env", "**/.env.local",
      "**/.env.*.local", "**/.env.production", "**/*.pem", "**/*.key", "**/id_rsa*"]
  generatedPaths : List String :=
    ["**/node_modules/**", "**/dist/**", "**/coverage/**", "**/.next/**", "**/*.min.js",
      "**/*.min.css"]
  allowedBinaryPaths : List String := []
  deriving DecidableEq, Repr

/-- `addedLines` and `deletedLines` are `none` for binary content. -/
structure ChangedFile where
  path : String
  status : String
  mode : String
  addedLines : Option Nat
  deletedLines : Option Nat
  deriving DecidableEq, Repr

structure AddedLine where
  path : String
  line : Nat
  text : String
  deriving DecidableEq, Repr

/-- `patchSkipped`: the added lines were not read. -/
structure RepositoryChanges where
  repository : String
  files : List ChangedFile
  addedLines : List AddedLine
  patchSkipped : Bool
  deriving DecidableEq, Repr

inductive DiffViolationRule
  | unchanged | tooManyFiles | tooManyLines | tooManyUnplannedFiles | binaryFile | forbiddenPath
  | generatedPath | symlink | submodule | secret
  deriving DecidableEq, Repr

def DiffViolationRule.text : DiffViolationRule → String
  | .unchanged => "unchanged"
  | .tooManyFiles => "too-many-files"
  | .tooManyLines => "too-many-lines"
  | .tooManyUnplannedFiles => "too-many-unplanned-files"
  | .binaryFile => "binary-file"
  | .forbiddenPath => "forbidden-path"
  | .generatedPath => "generated-path"
  | .symlink => "symlink"
  | .submodule => "submodule"
  | .secret => "secret"

structure DiffViolation where
  repository : String
  rule : DiffViolationRule
  path : Option String
  detail : String
  deriving DecidableEq, Repr

/-- What is recorded of the changes of one repository. -/
structure DiffEvidence where
  repository : String
  changedFiles : Nat
  addedLines : Nat
  deletedLines : Nat
  binaryFiles : Nat
  unplannedFiles : List String
  paths : List String
  deriving DecidableEq, Repr

/-! ## Path globs -/

/-- One piece of the regular expression that a glob is compiled to. -/
inductive GlobToken
  | text (character : Char)
  /-- `[^/]`. -/
  | one
  /-- `[^/]*`. -/
  | star
  /-- `.*`. -/
  | rest
  /-- `(?:.*/)?`. -/
  | segments
  deriving DecidableEq, Repr

def globTokens : List Char → List GlobToken
  | '*' :: '*' :: '/' :: glob => .segments :: globTokens glob
  | '*' :: '*' :: glob => .rest :: globTokens glob
  | '*' :: glob => .star :: globTokens glob
  | '?' :: glob => .one :: globTokens glob
  | character :: glob => .text character :: globTokens glob
  | [] => []

/-- What can be left of `path` after some of its first units, all `allowed`. -/
def skips (allowed : Nat → Bool) : List Nat → List (List Nat)
  | [] => [[]]
  | unit :: path =>
      (unit :: path) :: if allowed unit then skips allowed path else []

/-- What `[^/]` matches. -/
def isSegmentUnit (unit : Nat) : Bool := unit ≠ '/'.toNat

/-- What `.` matches. -/
def isLineUnit (unit : Nat) : Bool :=
  !(unit = '\n'.toNat || unit = '\r'.toNat || unit = 0x2028 || unit = 0x2029)

/-- The anchored match of the compiled glob, over the code units of a path. -/
def matchTokens : List GlobToken → List Nat → Bool
  | [], path => path.isEmpty
  | .text character :: tokens, path =>
      (utf16Units character).isPrefixOf path &&
        matchTokens tokens (path.drop (utf16Units character).length)
  | .one :: tokens, path =>
      match path with
      | [] => false
      | unit :: path => isSegmentUnit unit && matchTokens tokens path
  | .star :: tokens, path => (skips isSegmentUnit path).any (matchTokens tokens)
  | .rest :: tokens, path => (skips isLineUnit path).any (matchTokens tokens)
  | .segments :: tokens, path =>
      matchTokens tokens path ||
        (skips isLineUnit path).any fun left =>
          match left with
          | [] => false
          | unit :: left => unit = '/'.toNat && matchTokens tokens left

def matchesAnyGlob (path : String) (globs : List String) : Bool :=
  globs.any fun glob => matchTokens (globTokens glob.toList) (utf16 path.toList)

/-! ## Secrets -/

/-- A credential format; `test` is the match of its pattern. -/
structure SecretRule where
  rule : String
  test : String → Bool

/-- The rules that a line matches, and `known-secret` for a literal credential. -/
def detectSecrets (secretRules : List SecretRule) (text : String) (knownSecrets : List String) :
    List String :=
  (secretRules.filter (·.test text)).map (·.rule) ++
    if knownSecrets.any (includes text) then ["known-secret"] else []

/-! ## The evaluation -/

def isPlanned (path : String) (planned : List String) : Bool :=
  planned.any fun entry =>
    let normalized := (entry.toList.reverse.dropWhile (· = '/')).reverse
    path.toList = normalized || (normalized ++ ['/']).isPrefixOf path.toList

/-- The violations of one changed file. -/
def fileViolations (policy : DiffPolicy) (repository : String) (file : ChangedFile) :
    List DiffViolation :=
  let add (rule : DiffViolationRule) (detail : String) : DiffViolation :=
    ⟨repository, rule, some file.path, detail⟩
  (if matchesAnyGlob file.path policy.forbiddenPaths then
    [add .forbiddenPath "path is protected configuration"] else []) ++
  (if file.status ≠ "D" ∧ matchesAnyGlob file.path policy.generatedPaths then
    [add .generatedPath "generated or build output must not be committed"] else []) ++
  (if file.mode = "120000" then [add .symlink "symbolic links are not accepted"] else []) ++
  (if file.mode = "160000" then [add .submodule "submodule changes are not accepted"] else []) ++
  (if file.status ≠ "D" ∧ file.addedLines = none ∧
      !matchesAnyGlob file.path policy.allowedBinaryPaths then
    [add .binaryFile "binary content is not accepted"] else [])

/-- What `evaluateChanges` is given besides the changes. -/
structure DiffContext where
  policy : DiffPolicy
  secretRules : List SecretRule
  knownSecrets : List String
  /-- Repositories that must contain changes. -/
  required : List String := []
  /-- Paths named by the accepted plan. -/
  plannedPaths : List (String × List String) := []

/-- The violations of one repository. -/
def repositoryViolations (context : DiffContext) (changes : RepositoryChanges) :
    List DiffViolation :=
  let add (rule : DiffViolationRule) (detail : String) : DiffViolation :=
    ⟨changes.repository, rule, none, detail⟩
  let policy := context.policy
  let planned := (context.plannedPaths.lookup changes.repository).getD []
  let lines := changes.files.foldl (fun total file =>
    total + file.addedLines.getD 0 + file.deletedLines.getD 0) 0
  let unplanned := changes.files.filter fun file => !isPlanned file.path planned
  (if changes.files = [] ∧ changes.repository ∈ context.required then
    [add .unchanged "the plan requires changes in this repository"] else []) ++
  (if policy.maxChangedFiles < changes.files.length then
    [add .tooManyFiles
      s!"{changes.files.length} files changed; limit is {policy.maxChangedFiles}"] else []) ++
  (if policy.maxChangedLines < lines then
    [add .tooManyLines s!"{lines} lines changed; limit is {policy.maxChangedLines}"] else []) ++
  (if policy.maxUnplannedFiles < unplanned.length then
    [add .tooManyUnplannedFiles
      s!"{unplanned.length} files outside the accepted plan; limit is {policy.maxUnplannedFiles}"]
    else []) ++
  changes.files.flatMap (fileViolations policy changes.repository) ++
  changes.addedLines.flatMap fun line =>
    (detectSecrets context.secretRules line.text context.knownSecrets).map fun rule =>
      ⟨changes.repository, .secret, some line.path, s!"line {line.line} matches {rule}"⟩

/-- Decides whether agent changes may be committed: the violations found. -/
def evaluateChanges (context : DiffContext) (changes : List RepositoryChanges) :
    List DiffViolation :=
  (if changes.all (·.files.isEmpty) then
    [⟨"*", .unchanged, none, "the agent produced no changes"⟩] else []) ++
  changes.flatMap (repositoryViolations context)

/-- The evidence of `evaluateChanges`, violations or not. -/
def diffEvidence (context : DiffContext) (changes : List RepositoryChanges) :
    List DiffEvidence :=
  changes.map fun repository =>
    let planned := (context.plannedPaths.lookup repository.repository).getD []
    { repository := repository.repository
      changedFiles := repository.files.length
      addedLines := repository.files.foldl (fun total file => total + file.addedLines.getD 0) 0
      deletedLines :=
        repository.files.foldl (fun total file => total + file.deletedLines.getD 0) 0
      binaryFiles := (repository.files.filter (·.addedLines = none)).length
      unplannedFiles := (repository.files.map (·.path)).filter (!isPlanned · planned)
      paths := repository.files.map (·.path) }

def describeViolations (violations : List DiffViolation) : String :=
  let limit := 20
  let listed := (violations.take limit).map fun violation =>
    let path := (violation.path.map (":" ++ ·)).getD ""
    s!"{violation.repository}{path} {violation.rule.text} ({violation.detail})"
  "; ".intercalate (listed ++
    if limit < violations.length then [s!"and {violations.length - limit} more"] else [])

/-- The rules about content, which do not depend on the size of one attempt. -/
def cumulativeRules : List DiffViolationRule :=
  [.forbiddenPath, .generatedPath, .symlink, .submodule, .binaryFile, .secret]

end Orchestrator
