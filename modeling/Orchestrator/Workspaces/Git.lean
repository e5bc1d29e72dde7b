import Orchestrator.Execution.StageCalls
import Orchestrator.Execution.WorkspaceChanges
import Mathlib.Logic.Relation

/-! # A local clone

What the workspace manager sees of one registered clone, its remote and the workspace root,
and what the Git and file-system calls of `workspaces/workspace-manager.ts` do to it. Every
call is atomic; only `git worktree add` can be interrupted after it has created the branch.
-/

namespace Orchestrator

open Kit

abbrev Commit := String

inductive GitRef
  /-- `refs/heads/<name>`. -/
  | branch (name : String)
  /-- `refs/remotes/<remote>/<name>`. -/
  | tracking (remote name : String)
  deriving DecidableEq

/-- The keys of `branch.<name>.<key>` by which a branch is marked as a task's. -/
inductive MarkerKey
  | orchestratortask | orchestratorbase | orchestratorworktree
  deriving DecidableEq

structure OwnershipMarker where
  task : Option String := none
  base : Option String := none
  worktree : Option String := none
  deriving DecidableEq

def OwnershipMarker.get (marker : OwnershipMarker) : MarkerKey → Option String
  | .orchestratortask => marker.task
  | .orchestratorbase => marker.base
  | .orchestratorworktree => marker.worktree

def OwnershipMarker.set (marker : OwnershipMarker) (key : MarkerKey) (value : String) :
    OwnershipMarker :=
  match key with
  | .orchestratortask => { marker with task := some value }
  | .orchestratorbase => { marker with base := some value }
  | .orchestratorworktree => { marker with worktree := some value }

/-- A worktree of the clone; the first one is the clone itself. -/
structure Worktree where
  path : String
  /-- The branch that is checked out, unless HEAD is detached. -/
  branch : Option String
  detachedHead : Option Commit := none
  /-- The reason of the lock, if it is locked with one. -/
  lockReason : Option String := none
  modified : Bool := false
  untracked : Bool := false
  deriving DecidableEq

structure GitState where
  /-- `git rev-parse --show-toplevel` in the registered path. -/
  topLevel : Option String
  /-- `remote.<remote>.url`. -/
  remoteUrl : Option String
  /-- What `git check-ref-format --branch` makes of a name. -/
  branchFormat : String → Option String
  refs : GitRef → Option Commit
  markers : String → OwnershipMarker := fun _ => {}
  worktrees : List Worktree := []
  /-- The paths that exist when symbolic links are followed, as `existsSync` does. -/
  paths : String → Bool
  /-- The symbolic links that lead nowhere. -/
  dangling : String → Bool := fun _ => false
  /-- Where a path leads when symbolic links are followed. -/
  resolves : String → String := id
  /-- The branches of the remote. -/
  remote : String → Option Commit
  freeBytes : Nat

inductive WorkspaceError
  /-- `WorkspaceBlockedError`. -/
  | blocked (message : String)
  /-- `RemoteUnavailableError`. -/
  | remoteUnavailable (message : String)
  /-- `GitCommandError`. -/
  | gitCommand (exitCode : Option Int) (message : String)
  | other (message : String)
  deriving DecidableEq

def WorkspaceError.message : WorkspaceError → String
  | .blocked message => message
  | .remoteUnavailable message => message
  | .gitCommand _ message => message
  | .other message => message

inductive GitCall
  | checkRefFormat (branch : String)
  | showTopLevel
  | realpath (path : String)
  | remoteUrl (remote : String)
  | worktreeList
  | configGet (branch : String) (key : MarkerKey)
  | revParse (ref : GitRef)
  | revParseHead (path : String)
  | isAncestor (ancestor descendant : Commit)
  | existsSync (path : String)
  /-- `git ls-remote --heads` for one branch. -/
  | lsRemote (remote branch : String)
  /-- `git fetch` of one branch into its remote-tracking ref. -/
  | fetch (remote branch : String)
  | updateRef (ref : GitRef) (commit old : Commit)
  /-- The porcelain status is empty; untracked files count or not. -/
  | status (path : String) (untrackedFiles : Bool)
  | mergeFastForward (path : String) (ref : GitRef)
  | statfs
  | configSet (branch : String) (key : MarkerKey) (value : String)
  | mkdir (path : String)
  /-- `git worktree add --lock`; a new branch starts from `startPoint`. -/
  | worktreeAdd (reason branch path : String) (startPoint : Option Commit)

/-- Output is trimmed; a non-zero exit that the caller allows is `none` or `false`. -/
abbrev GitCall.Answer : GitCall → Type
  | .checkRefFormat _ => Option String
  | .showTopLevel => Option String
  | .realpath _ => Option String
  | .remoteUrl _ => Option String
  | .worktreeList => List Worktree
  | .configGet _ _ => Option String
  | .revParse _ => Option Commit
  | .revParseHead _ => Option Commit
  | .isAncestor _ _ => Bool
  | .existsSync _ => Bool
  | .lsRemote _ _ => Option Commit
  | .fetch _ _ => Unit
  | .updateRef _ _ _ => Unit
  | .status _ _ => Bool
  | .mergeFastForward _ _ => Bool
  | .statfs => Nat
  | .configSet _ _ _ => Unit
  | .mkdir _ => Unit
  | .worktreeAdd _ _ _ _ => Unit

abbrev GitProc (α : Type) : Type := Proc WorkspaceError GitCall GitCall.Answer α

def git (call : GitCall) : GitProc call.Answer := Proc.perform call

/-- Refs are files in directories: no name leads through another one. -/
def refsClash (name other : String) : Bool :=
  startsWith other (name ++ "/") || startsWith name (other ++ "/")

namespace GitState

variable (g : GitState)

def worktreeAt (path : String) : Option Worktree :=
  g.worktrees.find? fun worktree => worktree.path = path

def head (worktree : Worktree) : Option Commit :=
  match worktree.branch with
  | some branch => g.refs (.branch branch)
  | none => worktree.detachedHead

/-- HEAD of the worktree at a path. -/
def headAt (path : String) : Option Commit := (g.worktreeAt path).bind g.head

def clean (path : String) (untrackedFiles : Bool) : Bool :=
  (g.worktreeAt path).all fun worktree =>
    !worktree.modified && !(untrackedFiles && worktree.untracked)

def setRef (ref : GitRef) (commit : Commit) : GitState :=
  { g with refs := fun other => if other = ref then some commit else g.refs other }

def setMarker (branch : String) (key : MarkerKey) (value : String) : GitState :=
  { g with markers := fun other =>
      if other = branch then (g.markers other).set key value else g.markers other }

def addPath (path : String) : GitState :=
  { g with paths := fun other => other = path || g.paths other }

/-- `git merge --ff-only` in the checkout at a path. -/
def fastForwarded (path : String) (ref : GitRef) : GitState :=
  match (g.worktreeAt path).bind (·.branch), g.refs ref with
  | some branch, some commit => g.setRef (.branch branch) commit
  | _, _ => g

/-- What `git worktree add` asks for; it does not follow symbolic links. -/
structure CanAdd (branch path : String) (startPoint : Option Commit) : Prop where
  vacant : g.paths path = false
  unlinked : g.dangling path = false
  unregistered : ∀ worktree ∈ g.worktrees, worktree.path ≠ path
  unused : ∀ worktree ∈ g.worktrees, worktree.branch ≠ some branch
  /-- A branch is created, or it is there. -/
  created : (g.refs (.branch branch)).isSome ≠ startPoint.isSome
  separate : startPoint.isSome = true → ∀ other, (g.refs (.branch other)).isSome = true →
    refsClash branch other = false

/-- The branch of a new worktree, created unless it exists. -/
def withBranch (branch : String) : Option Commit → GitState
  | some startPoint => g.setRef (.branch branch) startPoint
  | none => g

/-- A locked, clean worktree on the branch. -/
def withWorktree (reason branch path : String) (startPoint : Option Commit) : GitState :=
  { (g.withBranch branch startPoint).addPath path with
    worktrees := g.worktrees ++ [{ path, branch := some branch, lockReason := some reason }] }

end GitState

/-! ## What the calls do -/

/-- `merge-base --is-ancestor`, for the parents that commits have. -/
def IsAncestor (parents : Commit → List Commit) (ancestor descendant : Commit) : Prop :=
  Relation.ReflTransGen (fun commit parent => parent ∈ parents commit) descendant ancestor

/-- The answer of a command that runs in a directory, which must exist. -/
def inDirectory {α : Type} (g : GitState) (path : String)
    (answer answered : Except WorkspaceError α) : Prop :=
  (g.paths path = true ∧ answered = answer) ∨
    (g.paths path = false ∧ ∃ message, answered = .error (.gitCommand none message))

/-- `interrupts` says whether `git worktree add` can be killed after it has created the branch.
The remote can be reached, and others push to its base branch at any time. -/
def gitServes (parents : Commit → List Commit) (interrupts : Prop) :
    Serves GitState WorkspaceError GitCall GitCall.Answer := fun g call answer g' =>
  match call, answer with
  | .checkRefFormat branch, answer => answer = .ok (g.branchFormat branch) ∧ g' = g
  | .showTopLevel, answer => answer = .ok g.topLevel ∧ g' = g
  | .realpath path, answer =>
      answer = .ok (if g.paths path then some (g.resolves path) else none) ∧ g' = g
  | .remoteUrl _, answer => answer = .ok g.remoteUrl ∧ g' = g
  | .worktreeList, answer => answer = .ok g.worktrees ∧ g' = g
  | .configGet branch key, answer => answer = .ok ((g.markers branch).get key) ∧ g' = g
  | .revParse ref, answer => answer = .ok (g.refs ref) ∧ g' = g
  | .revParseHead path, answer => inDirectory g path (.ok (g.headAt path)) answer ∧ g' = g
  | .isAncestor ancestor descendant, answer =>
      (∃ contained : Bool, answer = .ok contained ∧
        (contained = true ↔ IsAncestor parents ancestor descendant)) ∧ g' = g
  | .existsSync path, answer => answer = .ok (g.paths path) ∧ g' = g
  | .lsRemote _ branch, answer => answer = .ok (g.remote branch) ∧ g' = g
  | .fetch remote branch, answer =>
      answer = .ok () ∧ ∃ commit, g' = g.setRef (.tracking remote branch) commit
  | .updateRef ref commit old, answer =>
      (g.refs ref = some old ∧ answer = .ok () ∧ g' = g.setRef ref commit) ∨
        (g.refs ref ≠ some old ∧ (∃ message, answer = .error (.gitCommand (some 128) message)) ∧
          g' = g)
  | .status path untrackedFiles, answer =>
      inDirectory g path (.ok (g.clean path untrackedFiles)) answer ∧ g' = g
  | .mergeFastForward path ref, answer =>
      (answer = .ok true ∧ g' = g.fastForwarded path ref) ∨ (answer = .ok false ∧ g' = g)
  | .statfs, answer => answer = .ok g.freeBytes ∧ g' = g
  | .configSet branch key value, answer => answer = .ok () ∧ g' = g.setMarker branch key value
  | .mkdir path, answer => answer = .ok () ∧ g' = g.addPath path
  | .worktreeAdd reason branch path startPoint, answer =>
      (g.CanAdd branch path startPoint ∧ answer = .ok () ∧
          g' = g.withWorktree reason branch path startPoint) ∨
        (interrupts ∧ g.CanAdd branch path startPoint ∧
          answer = .error (.gitCommand none "interrupted") ∧ g' = g.withBranch branch startPoint) ∨
        (¬ g.CanAdd branch path startPoint ∧
          (∃ message, answer = .error (.gitCommand (some 128) message)) ∧ g' = g)

end Orchestrator
