import Orchestrator.Config.Schema
import Orchestrator.Execution.WorkspaceChanges
import Orchestrator.Workspaces.Git

/-! # Preparing a workspace

`WorkspaceManager.prepare` (`workspaces/workspace-manager.ts`, `repository-registry.ts`), from
its guards to the check of the new worktree. It runs under the repository's lock, a session
lock that the database releases when the process dies.
-/

namespace Orchestrator

open Kit

/-! ## The registry -/

/-- A registry entry with the canonical path of its clone. -/
structure RegisteredClone extends RegisteredRepository where
  path : String

structure RepositoryRegistry where
  workspaceRoot : String
  repositories : List RegisteredClone

/-- Eight, four, four, four and twelve hexadecimal digits. -/
def taskIdPattern (text : String) : Bool :=
  let groups := text.toList.splitOn '-'
  groups.map List.length = [8, 4, 4, 4, 12] && groups.all fun digits =>
    digits.all fun digit => digit.isDigit || ('a' ≤ digit && digit ≤ 'f')

/-- For canonical absolute paths. -/
def isInside (parent child : String) : Bool :=
  child ≠ parent && startsWith child (if parent = "/" then parent else parent ++ "/")

namespace RepositoryRegistry

variable (registry : RepositoryRegistry)

def get (name : String) : Except WorkspaceError RegisteredClone :=
  match registry.repositories.find? fun repository => repository.name = name with
  | some repository => .ok repository
  | none => .error (.blocked s!"Repository {name} is not in the repository registry")

def taskDirectory (taskId : String) : String := registry.workspaceRoot ++ "/" ++ taskId

/-- Deterministic worktree path for one task and repository. -/
def worktreePath (taskId repository : String) : Except WorkspaceError String := do
  if !taskIdPattern taskId then
    .error (.blocked s!"Invalid task id for workspace path: {taskId}")
  else
    let entry ← registry.get repository
    let path := registry.taskDirectory taskId ++ "/" ++ entry.name
    if !isInside registry.workspaceRoot path then
      .error (.blocked "Workspace path escapes the workspace root")
    else .ok path

end RepositoryRegistry

/-- `owner/name` in lower case, without the suffix `.git`. -/
def githubSlug (owner name : List Char) : Option String :=
  let suffix := ".git".toList
  let bare := if suffix.length < name.length ∧ suffix.isSuffixOf name then
    name.take (name.length - suffix.length) else name
  if owner ≠ [] ∧ bare ≠ [] ∧ (owner.all fun c => c.isAlphanum || c = '-') ∧
      (bare.all fun c => c.isAlphanum || c = '.' || c = '_' || c = '-') then
    some (String.ofList ((owner ++ ['/'] ++ bare).map Char.toLower))
  else none

/-- Normalizes GitHub HTTPS and SSH remote URLs to lowercase `owner/name`. -/
def githubRepositoryFromUrl (url : String) : Option String :=
  let forms := ["https://github.com/", "git@github.com:", "ssh://git@github.com/"]
  let text := trimText url
  (forms.find? (startsWith text)).bind fun form =>
    match (text.toList.drop form.length).splitOn '/' with
    | [owner, name] => githubSlug owner name
    | [owner, name, []] => githubSlug owner name
    | _ => none

def worktreeLockReason (taskId repository : String) : String :=
  s!"kelolakelas-ai-orchestrator task={taskId} repository={repository}"

/-! ## The manager -/

structure WorkspaceManager where
  registry : RepositoryRegistry
  minimumFreeDiskMb : Nat
  /-- The UUID of a task. -/
  taskUuid : TaskId → String
  /-- `JSON.stringify` of a string. -/
  jsonString : String → String

structure PreparedWorkspace extends WorkspaceIdentity where
  reused : Bool
  localBaseUpdated : Bool
  deriving DecidableEq, Repr

namespace WorkspaceManager

def blocked {α : Type} (message : String) : GitProc α := .throw (.blocked message)

def remoteUnavailable (repository : String) (cause : WorkspaceError) : WorkspaceError :=
  .remoteUnavailable s!"Remote for repository {repository} is unavailable: {cause.message}"

def ofExcept {α : Type} : Except WorkspaceError α → GitProc α
  | .ok value => pure value
  | .error failure => .throw failure

variable (manager : WorkspaceManager)

def validateBranch (repository : RegisteredClone) (branch : String) : GitProc String := do
  let normalized ← git (.checkRefFormat branch)
  if normalized ≠ some branch ∨ branch = repository.baseBranch ∨ startsWith branch "-" then
    blocked s!"Branch name {manager.jsonString branch} is not a valid task branch"
  else pure branch

def verifyRepository (repository : RegisteredClone) : GitProc Unit := do
  let topLevel ← git .showTopLevel
  let canonical ← (match topLevel with
    | none => pure none
    | some path => git (.realpath path))
  if canonical ≠ some repository.path then
    blocked s!"Registered path for {repository.name} is not the top level of a Git repository"
  else
    let url ← git (.remoteUrl repository.remote)
    if url.bind githubRepositoryFromUrl ≠ some repository.github then
      blocked (s!"Remote {repository.remote} of {repository.name} does not point to " ++
        s!"github.com/{repository.github}")
    else pure ()

def readMarker (branch : String) : GitProc OwnershipMarker := do
  let task ← git (.configGet branch .orchestratortask)
  let base ← git (.configGet branch .orchestratorbase)
  let worktree ← git (.configGet branch .orchestratorworktree)
  pure { task, base, worktree }

def writeMarker (branch taskId baseCommit workspacePath : String) : GitProc Unit := do
  let _ ← git (.configSet branch .orchestratortask taskId)
  let _ ← git (.configSet branch .orchestratorbase baseCommit)
  git (.configSet branch .orchestratorworktree workspacePath)

/-- The worktree at the task's path is the orchestrator's, and its branch still descends from
the base. -/
def verifyReusableWorktree (repository : RegisteredClone) (worktree : Worktree)
    (input : PrepareWorkspaceInput) (workspacePath branch : String) (marker : OwnershipMarker)
    (reason : String) : GitProc WorkspaceIdentity :=
  if worktree.branch ≠ some branch ∨ worktree.lockReason ≠ some reason then
    blocked s!"Worktree {workspacePath} is not locked by the orchestrator for branch {branch}"
  else
    match marker.base with
    | none => blocked s!"Ownership markers for {branch} in {repository.name} are incomplete"
    | some base =>
        if marker.worktree ≠ some workspacePath then
          blocked s!"Ownership markers for {branch} in {repository.name} are incomplete"
        else if input.baseCommit.getD base ≠ base then
          blocked s!"Persisted base commit differs from the worktree base in {repository.name}"
        else do
          let head ← git (.revParseHead workspacePath)
          let descends ← (match head with
            | none => pure false
            | some head => git (.isAncestor base head))
          if !descends then
            blocked s!"Worktree HEAD in {repository.name} no longer descends from base {base}"
          else pure ⟨repository.name, workspacePath, branch, base⟩

def ensureRemoteBranchAbsent (repository : RegisteredClone) (branch : String) : GitProc Unit := do
  let remoteHead ← (git (.lsRemote repository.remote branch)).tryCatch fun failure =>
    .throw (remoteUnavailable repository.name failure)
  if remoteHead.isSome then
    blocked s!"Branch {branch} already exists on {repository.remote} for {repository.name}"
  else pure ()

/-- Git's message for a branch that the remote does not have. -/
def remoteRefMissing : WorkspaceError → Bool
  | .gitCommand (some _) message =>
      includes (String.ofList (message.toList.map Char.toLower)) "couldn't find remote ref"
  | _ => false

def fetchBase (repository : RegisteredClone) : GitProc Commit := do
  let _ ← (git (.fetch repository.remote repository.baseBranch)).tryCatch fun failure =>
    if remoteRefMissing failure then
      blocked (s!"Base branch {repository.baseBranch} does not exist on {repository.remote} " ++
        s!"for {repository.name}")
    else .throw (remoteUnavailable repository.name failure)
  match ← git (.revParse (.tracking repository.remote repository.baseBranch)) with
  | none => blocked (s!"Fetched base refs/remotes/{repository.remote}/{repository.baseBranch} " ++
      s!"is missing in {repository.name}")
  | some base => pure base

/-- Best-effort fast-forward of the local base branch. -/
def fastForwardLocalBase (repository : RegisteredClone) (worktrees : List Worktree) :
    GitProc Bool := do
  let localRef : GitRef := .branch repository.baseBranch
  let remoteRef : GitRef := .tracking repository.remote repository.baseBranch
  let localBase ← git (.revParse localRef)
  let remoteBase ← git (.revParse remoteRef)
  match localBase, remoteBase with
  | some localBase, some remoteBase =>
      if localBase = remoteBase then pure true
      else do
        let contained ← git (.isAncestor localBase remoteBase)
        if !contained then pure false
        else
          match worktrees.find? fun worktree => worktree.branch = some repository.baseBranch with
          | none => do
              let _ ← git (.updateRef localRef remoteBase localBase)
              pure true
          | some checkout => do
              let clean ← git (.status checkout.path false)
              if !clean then pure false
              else git (.mergeFastForward checkout.path remoteRef)
  | _, _ => pure false

def ensureDiskCapacity : GitProc Unit := do
  let freeBytes ← git .statfs
  if freeBytes < manager.minimumFreeDiskMb * (1024 * 1024) then
    blocked (s!"Workspace root has {freeBytes / (1024 * 1024)} MB free; " ++
      s!"{manager.minimumFreeDiskMb} MB required")
  else pure ()

def verifyFreshWorktree (workspacePath : String) (baseCommit : Commit) : GitProc Unit := do
  match ← git (.realpath workspacePath) with
  | none => .throw (.other s!"ENOENT: no such file or directory, realpath {workspacePath}")
  | some canonical =>
      if canonical ≠ workspacePath ∨ !isInside manager.registry.workspaceRoot canonical then
        blocked s!"Created worktree resolved outside the workspace root: {canonical}"
      else do
        let head ← git (.revParseHead workspacePath)
        let clean ← git (.status workspacePath true)
        if head ≠ some baseCommit ∨ !clean then
          blocked s!"Created worktree {workspacePath} is not a clean checkout of {baseCommit}"
        else pure ()

/-- `prepare` after its guards: nothing stands at the workspace path. -/
def createWorktree (repository : RegisteredClone) (taskId branch workspacePath reason : String)
    (worktrees : List Worktree) (localBranchCommit : Option Commit) :
    GitProc PreparedWorkspace := do
  ensureRemoteBranchAbsent repository branch
  let baseCommit ← (match localBranchCommit with
    | some commit => pure commit
    | none => fetchBase repository)
  let localBaseUpdated ← fastForwardLocalBase repository worktrees
  manager.ensureDiskCapacity
  -- Markers are written before the worktree, so that a crash in between can be recovered.
  writeMarker branch taskId baseCommit workspacePath
  let _ ← git (.mkdir (manager.registry.taskDirectory taskId))
  let startPoint := if localBranchCommit.isNone then some baseCommit else none
  let _ ← git (.worktreeAdd reason branch workspacePath startPoint)
  manager.verifyFreshWorktree workspacePath baseCommit
  pure { repository := repository.name, workspacePath, branch, baseCommit, reused := false,
         localBaseUpdated }

/-- `prepare` under the repository's lock. -/
def prepareLocked (repository : RegisteredClone) (input : PrepareWorkspaceInput)
    (taskId branch workspacePath : String) : GitProc PreparedWorkspace := do
  verifyRepository repository
  let worktrees ← git .worktreeList
  let worktree := worktrees.find? fun worktree => worktree.path = workspacePath
  let branchWorktree := worktrees.find? fun worktree => worktree.branch = some branch
  let marker ← readMarker branch
  let localBranchCommit ← git (.revParse (.branch branch))
  let reason := worktreeLockReason taskId repository.name
  let owner := marker.task.getD ""
  let checkout := (branchWorktree.map (·.path)).getD ""
  if marker.task.isSome ∧ owner ≠ taskId then
    blocked s!"Branch {branch} in {repository.name} is owned by task {owner}"
  else if marker.task.isNone ∧
      (localBranchCommit.isSome ∨ branchWorktree.isSome ∨ worktree.isSome) then
    blocked (s!"Branch {branch} or its workspace exists in {repository.name} without " ++
      "orchestrator ownership")
  else if branchWorktree.isSome ∧ checkout ≠ workspacePath then
    blocked s!"Branch {branch} is checked out at {checkout}"
  else
    match worktree with
    | some worktree => do
        let identity ← verifyReusableWorktree repository worktree input workspacePath branch marker
          reason
        pure { identity with reused := true, localBaseUpdated := false }
    | none =>
        if input.baseCommit.isSome then
          blocked (s!"Persisted workspace for {repository.name} is missing at {workspacePath}; " ++
            "manual recovery required")
        else do
          let occupied ← git (.existsSync workspacePath)
          if occupied then
            blocked s!"Workspace path {workspacePath} exists but is not a registered worktree"
          else if localBranchCommit.isSome ∧ localBranchCommit ≠ marker.base then
            blocked (s!"Orchestrator branch {branch} in {repository.name} has commits without a " ++
              "workspace; manual recovery required")
          else
            manager.createWorktree repository taskId branch workspacePath reason worktrees
              localBranchCommit

def prepare (input : PrepareWorkspaceInput) : GitProc PreparedWorkspace := do
  let taskId := manager.taskUuid input.taskId
  let repository ← ofExcept (manager.registry.get input.repository)
  let workspacePath ← ofExcept (manager.registry.worktreePath taskId repository.name)
  let branch ← manager.validateBranch repository input.branch
  let persistedBranch := input.persistedBranch.getD branch
  let persistedPath := input.workspacePath.getD workspacePath
  if persistedBranch ≠ branch then
    blocked s!"Persisted branch {persistedBranch} differs from contract branch {branch}"
  else if persistedPath ≠ workspacePath then
    blocked s!"Persisted workspace path {persistedPath} differs from {workspacePath}"
  else manager.prepareLocked repository input taskId branch workspacePath

end WorkspaceManager

end Orchestrator
