import Orchestrator.Delivery.PullRequestStage
import Orchestrator.Workspaces.CrashRecovery

/-! # Work in prepared workspaces

What `workspaces/workspace-manager.ts` does with a workspace after its preparation: it verifies,
restores, commits, pushes and releases it. Agents write inside a worktree, its `.git` file
included, so a command that runs there acts on whatever Git directory that file leads to.
-/

namespace Orchestrator

open Kit

/-! ## The host -/

/-- The Git directory to which a `.git` file leads. -/
structure GitDirectory where
  commonDirectory : String
  /-- The branch that HEAD names, unless it is detached. -/
  branch : Option String
  detachedHead : Option Commit

structure Host where
  clone : GitState
  /-- The worktrees whose `.git` file was replaced, and where it leads now, if anywhere. -/
  replaced : String → Option (Option GitDirectory)
  /-- The branches of the repositories with other common directories. -/
  foreign : String → String → Option Commit

inductive WorkspaceCall
  /-- A call that `prepare` makes too. -/
  | git (call : GitCall)
  /-- `git rev-parse --git-common-dir`. -/
  | gitCommonDir (path : String)
  /-- `git symbolic-ref HEAD`. -/
  | symbolicRef (path : String)
  | resetHard (path : String) (commit : Commit)
  | clean (path : String)
  | addAll (path : String)
  | commit (path message : String) (author : CommitAuthor)
  | head (path : String)
  | headParent (path : String)
  /-- `git rev-parse` of a commit that the clone may not have. -/
  | hasCommit (commit : Commit)
  /-- A push that does not force. -/
  | push (remote : String) (commit : Commit) (branch : String)
  | worktreeUnlock (path : String)
  /-- `git worktree remove` without `--force`. -/
  | worktreeRemove (path : String)
  | worktreeLock (reason path : String)
  | rmdir (path : String)

/-- A non-zero exit that the caller allows is `none` or `false`. -/
abbrev WorkspaceCall.Answer : WorkspaceCall → Type
  | .git call => call.Answer
  | .gitCommonDir _ => Option String
  | .symbolicRef _ => Option String
  | .resetHard _ _ => Unit
  | .clean _ => Unit
  | .addAll _ => Unit
  | .commit _ _ _ => Unit
  | .head _ => Commit
  | .headParent _ => Commit
  | .hasCommit _ => Bool
  | .push _ _ _ => Unit
  | .worktreeUnlock _ => Unit
  | .worktreeRemove _ => Unit
  | .worktreeLock _ _ => Bool
  | .rmdir _ => Unit

abbrev HostProc (α : Type) : Type := Proc WorkspaceError WorkspaceCall WorkspaceCall.Answer α

def onHost (call : WorkspaceCall) : HostProc call.Answer := Proc.perform call

/-- A procedure of the clone, on the host. -/
def inHost {α : Type} : GitProc α → HostProc α
  | .ret value => .ret value
  | .throw failure => .throw failure
  | .call name next => .call (.git name) fun answer => inHost (next answer)

/-! ## What the calls do -/

def RegisteredClone.gitDirectory (repository : RegisteredClone) : String :=
  repository.path ++ "/.git"

namespace Host

variable (repository : RegisteredClone) (g : Host)

/-- The Git directory in which a command in the worktree at a path runs. -/
def directoryAt (path : String) : Option GitDirectory :=
  match g.replaced path with
  | some directory => directory
  | none => (g.clone.worktreeAt path).map fun worktree =>
      ⟨repository.gitDirectory, worktree.branch, worktree.detachedHead⟩

/-- The directory is one of the clone. -/
def Own (directory : GitDirectory) : Prop :=
  g.clone.resolves directory.commonDirectory = g.clone.resolves repository.gitDirectory

instance (directory : GitDirectory) : Decidable (g.Own repository directory) :=
  inferInstanceAs (Decidable (_ = _))

def headOf (directory : GitDirectory) : Option Commit :=
  match directory.branch with
  | some branch =>
      if g.Own repository directory then g.clone.refs (.branch branch)
      else g.foreign directory.commonDirectory branch
  | none => directory.detachedHead

/-- HEAD for a command in the worktree at a path. -/
def headAt (path : String) : Option Commit :=
  (g.directoryAt repository path).bind (g.headOf repository)

def mapWorktree (path : String) (change : Worktree → Worktree) : Host :=
  let worktrees := g.clone.worktrees.map fun worktree =>
    if worktree.path = path then change worktree else worktree
  { g with clone := { g.clone with worktrees } }

def setForeign (commonDirectory branch : String) (commit : Commit) : Host :=
  { g with
    foreign := fun directory name =>
      if directory = commonDirectory ∧ name = branch then some commit
      else g.foreign directory name }

/-- A HEAD that names no branch moves by itself. -/
def detach (path : String) (directory : GitDirectory) (commit : Commit) : Host :=
  match g.replaced path with
  | some _ =>
      { g with
        replaced := fun other =>
          if other = path then some (some { directory with detachedHead := some commit })
          else g.replaced other }
  | none => g.mapWorktree path fun worktree => { worktree with detachedHead := some commit }

/-- `git reset` and `git commit` move the branch that HEAD names, in its repository. -/
def moveHead (path : String) (commit : Commit) : Host :=
  match g.directoryAt repository path with
  | none => g
  | some directory =>
      match directory.branch with
      | some branch =>
          if g.Own repository directory then
            { g with clone := g.clone.setRef (.branch branch) commit }
          else g.setForeign directory.commonDirectory branch commit
      | none => g.detach path directory commit

def setRemote (branch : String) (commit : Commit) : Host :=
  let remote (other : String) : Option Commit :=
    if other = branch then some commit else g.clone.remote other
  { g with clone := { g.clone with remote } }

def removeWorktree (path : String) : Host :=
  let worktrees := g.clone.worktrees.filter fun worktree => worktree.path ≠ path
  let paths (other : String) : Bool := other ≠ path && g.clone.paths other
  { g with clone := { g.clone with worktrees, paths } }

def removePath (path : String) : Host :=
  let paths (other : String) : Bool := other ≠ path && g.clone.paths other
  { g with clone := { g.clone with paths } }

end Host

/-- The call fails and changes nothing. -/
def Fails {α : Type} (g : Host) (answer : Except WorkspaceError α) (g' : Host) : Prop :=
  (∃ failure, answer = .error failure) ∧ g' = g

/-- Commands in a worktree follow its `.git` file; without an agent's doing it is the one that
Git wrote. Commands that read HEAD, the status, the common directory or a symbolic reference fail
where there is nothing to read; every other command may fail. -/
def hostServes (parents : Commit → List Commit) (repository : RegisteredClone) :
    Serves Host WorkspaceError WorkspaceCall WorkspaceCall.Answer := fun g call answer g' =>
  match call, answer with
  | .git (.revParseHead path), answer =>
      inDirectory g.clone path (.ok (g.headAt repository path)) answer ∧ g' = g
  | .git (.status path untrackedFiles), answer =>
      (∃ clean, (g.replaced path = none → clean = g.clone.clean path untrackedFiles) ∧
        inDirectory g.clone path (.ok clean) answer) ∧ g' = g
  | .git call, answer =>
      (∃ clone, gitServes parents False g.clone call answer clone ∧ g' = { g with clone }) ∨
        Fails g answer g'
  | .gitCommonDir path, answer =>
      inDirectory g.clone path
        (.ok ((g.directoryAt repository path).map (·.commonDirectory))) answer ∧ g' = g
  | .symbolicRef path, answer =>
      inDirectory g.clone path (.ok ((g.directoryAt repository path).bind (·.branch))) answer ∧
        g' = g
  | .resetHard path commit, answer =>
      (answer = .ok () ∧ g' = (g.moveHead repository path commit).mapWorktree path fun worktree =>
        { worktree with modified := false }) ∨ Fails g answer g'
  | .clean path, answer =>
      (answer = .ok () ∧ g' = g.mapWorktree path fun worktree =>
        { worktree with untracked := false }) ∨ Fails g answer g'
  | .addAll _, answer => (answer = .ok () ∧ g' = g) ∨ Fails g answer g'
  | .commit path _ _, answer =>
      (∃ commit others, parents commit = (g.headAt repository path).toList ++ others ∧
        answer = .ok () ∧
        g' = (g.moveHead repository path commit).mapWorktree path fun worktree =>
          { worktree with modified := false, untracked := false }) ∨ Fails g answer g'
  | .head path, answer =>
      (∃ commit, g.headAt repository path = some commit ∧ answer = .ok commit ∧ g' = g) ∨
        Fails g answer g'
  | .headParent path, answer =>
      (∃ commit parent others, g.headAt repository path = some commit ∧
        parents commit = parent :: others ∧ answer = .ok parent ∧ g' = g) ∨ Fails g answer g'
  | .hasCommit _, answer => (∃ known, answer = .ok known ∧ g' = g) ∨ Fails g answer g'
  | .push _ commit branch, answer =>
      -- A push that fails may have reached the remote.
      ((∀ old, g.clone.remote branch = some old → IsAncestor parents old commit) ∧
          g' = g.setRemote branch commit) ∨ Fails g answer g'
  | .worktreeUnlock path, answer =>
      (answer = .ok () ∧ g' = g.mapWorktree path fun worktree =>
        { worktree with lockReason := none }) ∨ Fails g answer g'
  | .worktreeRemove path, answer =>
      ((∃ worktree, g.clone.worktreeAt path = some worktree ∧ worktree.lockReason = none) ∧
        g.replaced path = none ∧ g.clone.clean path true = true ∧ answer = .ok () ∧
          g' = g.removeWorktree path) ∨ Fails g answer g'
  | .worktreeLock reason path, answer =>
      (answer = .ok true ∧ g' = g.mapWorktree path fun worktree =>
        { worktree with lockReason := some reason }) ∨ (answer = .ok false ∧ g' = g) ∨
          Fails g answer g'
  | .rmdir path, answer => (answer = .ok () ∧ g' = g.removePath path) ∨ Fails g answer g'

/-! ## The manager's operations -/

namespace WorkspaceManager

def refuse {α : Type} (message : String) : HostProc α := .throw (.blocked message)

/-- What `verifyOwnedWorkspace` checks in the worktree, whose `.git` file an agent can write. -/
def verifyGitDirectory (repository : RegisteredClone) (workspace : TaskWorkspace)
    (expectedPath : String) : HostProc Commit := do
  let commonDirectory ← onHost (.gitCommonDir expectedPath)
  let expectedCommonDirectory ← onHost (.git (.realpath repository.gitDirectory))
  let actualCommonDirectory ← (match commonDirectory with
    | none => pure none
    | some directory => onHost (.git (.realpath directory)))
  if actualCommonDirectory.isNone ∨ actualCommonDirectory ≠ expectedCommonDirectory then
    refuse s!"Worktree {expectedPath} no longer points to the {repository.name} repository"
  else do
    let symbolic ← onHost (.symbolicRef expectedPath)
    if symbolic ≠ some workspace.branch then
      refuse s!"Worktree {expectedPath} is not on branch {workspace.branch}"
    else do
      match ← onHost (.git (.revParseHead expectedPath)) with
      | none =>
          refuse (s!"Worktree HEAD in {repository.name} does not match branch " ++
            workspace.branch)
      | some head => do
          let tip ← onHost (.git (.revParse (.branch workspace.branch)))
          if tip ≠ some head then
            refuse (s!"Worktree HEAD in {repository.name} does not match branch " ++
              workspace.branch)
          else pure head

variable (manager : WorkspaceManager)

/-- Proves that a persisted workspace is still the task's worktree, and returns its HEAD. -/
def verifyOwnedWorkspace (repository : RegisteredClone) (workspace : TaskWorkspace) :
    HostProc Commit := do
  let taskId := manager.taskUuid workspace.taskId
  let expectedPath ← inHost (ofExcept (manager.registry.worktreePath taskId repository.name))
  if workspace.workspacePath ≠ expectedPath then
    refuse (s!"Workspace path {workspace.workspacePath} is not the orchestrator path " ++
      expectedPath)
  else do
    -- Resolved from the clone, which agents cannot write, rather than from the worktree.
    let worktrees ← onHost (.git .worktreeList)
    match worktrees.find? fun worktree => worktree.path = expectedPath with
    | none =>
        refuse (s!"Workspace for {repository.name} is missing at {expectedPath}; " ++
          "manual recovery required")
    | some worktree => do
        let marker ← inHost (readMarker workspace.branch)
        if marker.task ≠ some taskId then
          refuse s!"Branch {workspace.branch} in {repository.name} is not owned by task {taskId}"
        else do
          let input : PrepareWorkspaceInput := {
            taskId := workspace.taskId, repository := repository.name, branch := workspace.branch,
            workspacePath := some workspace.workspacePath, persistedBranch := some workspace.branch,
            baseCommit := some workspace.baseCommit }
          let _ ← inHost (verifyReusableWorktree repository worktree input expectedPath
            workspace.branch marker (worktreeLockReason taskId repository.name))
          verifyGitDirectory repository workspace expectedPath

/-- Discards what is not committed; returns the verified HEAD and whether there was anything. -/
def restoreWorkspace (repository : RegisteredClone) (workspace : TaskWorkspace) :
    HostProc (Commit × Bool) := do
  let head ← manager.verifyOwnedWorkspace repository workspace
  let clean ← onHost (.git (.status workspace.workspacePath true))
  if clean then pure (head, false)
  else do
    let _ ← onHost (.resetHard workspace.workspacePath head)
    let _ ← onHost (.clean workspace.workspacePath)
    pure (head, true)

/-- Returns the new commit and its parent, the verified HEAD. -/
def commitWorkspace (repository : RegisteredClone) (workspace : TaskWorkspace) (message : String)
    (author : CommitAuthor) : HostProc (Commit × Commit) := do
  let head ← manager.verifyOwnedWorkspace repository workspace
  let _ ← onHost (.addAll workspace.workspacePath)
  let _ ← onHost (.commit workspace.workspacePath message author)
  let commit ← onHost (.head workspace.workspacePath)
  let parent ← onHost (.headParent workspace.workspacePath)
  if parent ≠ head then
    refuse s!"Commit in {repository.name} is not a child of the verified HEAD {head}"
  else pure (commit, parent)

/-- Forty lower-case hexadecimal digits. -/
def commitPattern (text : String) : Bool :=
  text.toList.length = 40 && text.toList.all fun digit =>
    digit.isDigit || ('a' ≤ digit && digit ≤ 'f')

def remoteBranchState (repository : RegisteredClone) (branch : String) (commit : Commit) :
    HostProc RemoteBranchState := do
  let remoteHead ← (onHost (.git (.lsRemote repository.remote branch))).tryCatch fun failure =>
    .throw (remoteUnavailable repository.name failure)
  match remoteHead with
  | none => pure ⟨.absent, none⟩
  | some remoteHead =>
      if !commitPattern remoteHead then
        refuse s!"Remote branch {branch} of {repository.name} reported an invalid commit"
      else if remoteHead = commit then pure ⟨.atCommit, some remoteHead⟩
      else do
        let known ← onHost (.hasCommit remoteHead)
        -- Only the task branch is fetched, into its remote-tracking ref.
        let _ ← (if known then pure () else
          (onHost (.git (.fetch repository.remote branch))).tryCatch fun failure =>
            .throw (remoteUnavailable repository.name failure))
        let contains ← onHost (.git (.isAncestor commit remoteHead))
        pure ⟨if contains then .containsCommit else .diverged, some remoteHead⟩

def inspectRemoteBranch (repository : RegisteredClone) (workspace : TaskWorkspace)
    (commit : Commit) : HostProc RemoteBranchState := do
  inHost (verifyRepository repository)
  remoteBranchState repository workspace.branch commit

/-- Git rejected the push because the remote branch moved. -/
def pushRejected : WorkspaceError → Bool
  | .gitCommand _ message => pushRefused message
  | _ => false

/-- Pushes a reviewed commit to the task branch; never forces. -/
def pushTaskBranch (repository : RegisteredClone) (workspace : TaskWorkspace) (commit : Commit) :
    HostProc RemoteBranchState := do
  inHost (verifyRepository repository)
  let head ← manager.verifyOwnedWorkspace repository workspace
  if head ≠ commit then
    refuse s!"Worktree HEAD {head} in {repository.name} is not the reviewed commit {commit}"
  else do
    let before ← remoteBranchState repository workspace.branch commit
    if before.kind ≠ .absent then pure before
    else do
      let _ ← (onHost (.push repository.remote commit workspace.branch)).tryCatch fun failure =>
        if pushRejected failure then
          refuse (s!"Remote branch {workspace.branch} of {repository.name} changed during push; " ++
            "manual recovery required")
        else .throw (remoteUnavailable repository.name failure)
      let after ← remoteBranchState repository workspace.branch commit
      if after.kind ≠ .atCommit then
        refuse (s!"Remote branch {workspace.branch} of {repository.name} is not at {commit} " ++
          "after push")
      else pure after

structure ReleaseWorkspaceInput where
  taskId : TaskId
  repository : String
  workspacePath : String
  branch : String

/-- `git worktree remove`, and the lock again if it fails. -/
def removeUnlocked (path reason taskDirectory : String) : HostProc (Except String Unit) := do
  match ← (onHost (.worktreeRemove path)).result with
  | .error failure => do
      let _ ← onHost (.worktreeLock reason path)
      pure (.error failure.message)
  | .ok _ => do
      -- Another repository's worktree for the same task may remain.
      let _ ← (onHost (.rmdir taskDirectory)).result
      pure (.ok ())

/-- Removes an orchestrator-owned, clean worktree; the result is the reason for which it was
not released. -/
def release (repository : RegisteredClone) (input : ReleaseWorkspaceInput) :
    HostProc (Except String Unit) := do
  let taskId := manager.taskUuid input.taskId
  let expectedPath ← inHost (ofExcept (manager.registry.worktreePath taskId repository.name))
  if input.workspacePath ≠ expectedPath then
    pure (.error (s!"Workspace path {input.workspacePath} is not the orchestrator path " ++
      expectedPath))
  else do
    let worktrees ← onHost (.git .worktreeList)
    match worktrees.find? fun worktree => worktree.path = expectedPath with
    | none => do
        let occupied ← onHost (.git (.existsSync expectedPath))
        if occupied then
          pure (.error s!"Workspace path {expectedPath} exists but is not a registered worktree")
        else pure (.ok ())
    | some worktree => do
        let marker ← inHost (readMarker input.branch)
        let reason := worktreeLockReason taskId repository.name
        if marker.task ≠ some taskId ∨ worktree.lockReason ≠ some reason ∨
            worktree.branch ≠ some input.branch then
          pure (.error "Worktree ownership does not match this task")
        else do
          let clean ← onHost (.git (.status expectedPath true))
          if !clean then pure (.error "Worktree has uncommitted or untracked changes")
          else do
            let _ ← onHost (.worktreeUnlock expectedPath)
            removeUnlocked expectedPath reason (manager.registry.taskDirectory taskId)

end WorkspaceManager

end Orchestrator
