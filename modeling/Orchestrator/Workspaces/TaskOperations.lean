import Orchestrator.Workspaces.OwnedWorkspaces

/-! # Operations and runs

Each operation on a prepared workspace keeps to its task; over a run of operations, crashes and
agents, the branches of the clone keep their commits.
-/

namespace Orchestrator

open Kit

/-! ## The operations -/

namespace WorkspaceManager

section Operations

variable {parents : Commit → List Commit} {repository : RegisteredClone} {g w : Host}
  {manager : WorkspaceManager} {workspace : TaskWorkspace} {taskId branch path : String}

theorem confined_verifyOwnedWorkspace :
    (manager.verifyOwnedWorkspace repository workspace).Keeps (hostServes parents repository)
      (Confined parents repository (manager.taskUuid workspace.taskId) workspace.branch g)
      (fun head w => w = g ∧ OwnedWorkspace repository g (manager.taskUuid workspace.taskId)
        workspace.branch workspace.workspacePath head) g :=
  keeps_of_unchanged .refl keeps_verifyOwnedWorkspace

theorem confined_reads {α : Type} {procedure : HostProc α}
    (hreads : procedure.Only WorkspaceCall.Reads)
    (h : Confined parents repository taskId branch g w) :
    procedure.Keeps (hostServes parents repository)
      (Confined parents repository taskId branch g) (fun _ w' => w' = w) w := by
  refine keeps_mono (fun _ hkept => hkept) ?_ (keeps_of_unchanged h (keeps_reads hreads))
  intro value w' _ hsame
  exact hsame.1

theorem confined_read {call : WorkspaceCall} (hreads : call.Reads)
    (h : Confined parents repository taskId branch g w) :
    (onHost call).Keeps (hostServes parents repository)
      (Confined parents repository taskId branch g) (fun _ w' => w' = w) w :=
  confined_reads (only_perform.mpr hreads) h

theorem confined_refuse {α : Type} {message : String} {Q : α → Host → Prop}
    (h : Confined parents repository taskId branch g w) :
    (refuse message : HostProc α).Keeps (hostServes parents repository)
      (Confined parents repository taskId branch g) Q w :=
  ⟨h, h⟩

/-- A change of the task's worktree that may fail. -/
theorem confined_change {call : WorkspaceCall} (change : Worktree → Worktree)
    (hpath : ∀ worktree, (change worktree).path = worktree.path)
    (hserves : ∀ answer w', hostServes parents repository w call answer w' →
      w' = w.mapWorktree path change ∨ w' = w)
    (h : Confined parents repository taskId branch g w)
    (howned : TaskWorktree repository taskId branch g path) :
    (onHost call).Keeps (hostServes parents repository)
      (Confined parents repository taskId branch g) (fun _ _ => True) w := by
  refine keeps_perform h ?_
  intro answer w' hanswer
  refine ⟨?_, fun _ _ => trivial⟩
  rcases hserves answer w' hanswer with rfl | rfl
  · exact h.mapWorktree howned hpath
  · exact h

theorem confined_restoreWorkspace :
    (manager.restoreWorkspace repository workspace).Keeps (hostServes parents repository)
      (Confined parents repository (manager.taskUuid workspace.taskId) workspace.branch g)
      (fun _ _ => True) g := by
  unfold restoreWorkspace
  refine keeps_bind confined_verifyOwnedWorkspace ?_
  rintro head w _ ⟨rfl, howned⟩
  refine keeps_bind (confined_read trivial .refl) ?_
  rintro clean w' _ rfl
  split_ifs
  · exact keeps_pure .refl trivial
  refine keeps_bind (R := fun _ _ => True) ?_ ?_
  · -- HEAD is verified, so the reset moves it to where it is.
    refine keeps_perform .refl ?_
    intro answer w hserves
    refine ⟨?_, fun _ _ => trivial⟩
    rcases hserves with ⟨_, rfl⟩ | ⟨_, rfl⟩
    · refine (howned.moveHead ?_).mapWorktree howned.worktree fun _ => rfl
      exact Relation.ReflTransGen.refl
    · exact .refl
  intro _ w hconfined _
  refine keeps_bind (confined_change (fun worktree => { worktree with untracked := false })
    (fun _ => rfl) ?_ hconfined howned.worktree) ?_
  · intro answer w'' hserves
    rcases hserves with ⟨_, hchanged⟩ | ⟨_, hsame⟩
    · exact Or.inl hchanged
    · exact Or.inr hsame
  · intro _ w'' hconfined' _
    exact keeps_pure hconfined' trivial

/-- The new commit has the verified HEAD as its parent. -/
theorem confined_commitWorkspace {message : String} {author : CommitAuthor} :
    (manager.commitWorkspace repository workspace message author).Keeps
      (hostServes parents repository)
      (Confined parents repository (manager.taskUuid workspace.taskId) workspace.branch g)
      (fun committed w =>
        OwnedWorkspace repository g (manager.taskUuid workspace.taskId) workspace.branch
          workspace.workspacePath committed.2 ∧
        OwnedWorkspace repository w (manager.taskUuid workspace.taskId) workspace.branch
          workspace.workspacePath committed.1 ∧
        ∃ others, parents committed.1 = committed.2 :: others) g := by
  unfold commitWorkspace
  refine keeps_bind confined_verifyOwnedWorkspace ?_
  rintro head w _ ⟨rfl, howned⟩
  refine keeps_bind (confined_read trivial .refl) ?_
  rintro _ w' _ rfl
  refine keeps_bind (R := fun _ w => ∃ commit others, parents commit = head :: others ∧
    OwnedWorkspace repository w (manager.taskUuid workspace.taskId) workspace.branch
      workspace.workspacePath commit) ?_ ?_
  · refine keeps_perform .refl ?_
    intro answer w hserves
    rcases hserves with ⟨commit, others, hparents, _, rfl⟩ | ⟨⟨failure, rfl⟩, rfl⟩
    · rw [howned.headAt] at hparents
      -- The commit goes on top of the HEAD that was verified.
      have hparent : IsAncestor parents head commit := by
        apply Relation.ReflTransGen.single
        rw [hparents]
        exact List.mem_cons_self
      refine ⟨(howned.moveHead hparent).mapWorktree howned.worktree fun _ => rfl, ?_⟩
      intro _ _
      exact ⟨commit, others, hparents, howned.moved commit fun _ => ⟨rfl, rfl, rfl⟩⟩
    · refine ⟨.refl, ?_⟩
      intro value hvalue
      cases hvalue
  rintro _ w hconfined ⟨commit, others, hparents, hcommitted⟩
  refine keeps_bind (R := fun value w' => w' = w ∧ value = commit) ?_ ?_
  · refine keeps_perform hconfined ?_
    intro answer w' hserves
    rcases hserves with ⟨tip, htip, rfl, rfl⟩ | ⟨⟨failure, rfl⟩, rfl⟩
    · rw [hcommitted.headAt] at htip
      refine ⟨hconfined, ?_⟩
      intro value hvalue
      exact ⟨rfl, (Except.ok.inj hvalue).symm.trans (Option.some.inj htip).symm⟩
    · refine ⟨hconfined, ?_⟩
      intro value hvalue
      cases hvalue
  rintro _ _ _ ⟨rfl, rfl⟩
  refine keeps_bind (confined_read trivial hconfined) ?_
  rintro parent _ _ rfl
  -- Another parent than the verified HEAD refuses the commit.
  split_ifs with hchild
  · exact confined_refuse hconfined
  rw [not_not] at hchild
  subst hchild
  exact keeps_pure hconfined ⟨howned, hcommitted, others, hparents⟩

/-- A commit is a child of the task's former tip; the branch and the worktree's HEAD are at it,
and the workspace is still the task's. -/
theorem commit_is_child {message : String} {author : CommitAuthor} {committed : Commit × Commit}
    {g' : Host}
    (hexec : Exec (hostServes parents repository)
      (manager.commitWorkspace repository workspace message author) g (.returned committed) g') :
    OwnedWorkspace repository g (manager.taskUuid workspace.taskId) workspace.branch
        workspace.workspacePath committed.2 ∧
      OwnedWorkspace repository g' (manager.taskUuid workspace.taskId) workspace.branch
        workspace.workspacePath committed.1 ∧
      g'.headAt repository workspace.workspacePath = some committed.1 ∧
      ∃ others, parents committed.1 = committed.2 :: others := by
  have hends := keeps_iff.mp confined_commitWorkspace _ g' hexec
  obtain ⟨hbefore, hafter, hparents⟩ := hends.2 committed rfl
  exact ⟨hbefore, hafter, hafter.headAt, hparents⟩

def sampleWorkspace : TaskWorkspace where
  repository := "web"
  workspacePath := "/work/01234567-89ab-cdef-0123-456789abcdef/web"
  branch := "ai/1"
  baseCommit := "c1"
  taskId := 1

/-- A prepared worktree in which an agent has changed a file. -/
def sampleHost : Host where
  clone := { sampleClone with
    refs := fun ref => if ref = .branch "main" ∨ ref = .branch "ai/1" then some "c1" else none
    markers := fun branch => if branch = "ai/1" then
      ⟨some (sampleManager.taskUuid 1), some "c1", some sampleWorkspace.workspacePath⟩ else {}
    worktrees := [{ path := "/src/web", branch := some "main" },
      { path := sampleWorkspace.workspacePath, branch := some "ai/1", modified := true,
        lockReason := some (worktreeLockReason (sampleManager.taskUuid 1) "web") }]
    paths := fun _ => true }
  replaced := fun _ => none
  foreign := fun _ _ => none

def sampleParents (commit : Commit) : List Commit := if commit = "c2" then ["c1"] else []

def sampleAuthor : CommitAuthor where
  name := "orchestrator"
  email := "orchestrator@example.com"

/-- The commit `c2` on the task's branch. -/
def committedHost : Host :=
  (sampleHost.moveHead sampleRepository sampleWorkspace.workspacePath "c2").mapWorktree
    sampleWorkspace.workspacePath fun worktree =>
      { worktree with modified := false, untracked := false }

theorem exec_commitWorkspace : Exec (hostServes sampleParents sampleRepository)
    (sampleManager.commitWorkspace sampleRepository sampleWorkspace "Add the page" sampleAuthor)
      sampleHost (.returned ("c2", "c1")) committedHost := by
  refine Exec.call (Or.inl ⟨_, ⟨rfl, rfl⟩, rfl⟩) ?_
  refine Exec.call (Or.inl ⟨_, ⟨rfl, rfl⟩, rfl⟩) ?_
  refine Exec.call (Or.inl ⟨_, ⟨rfl, rfl⟩, rfl⟩) ?_
  refine Exec.call (Or.inl ⟨_, ⟨rfl, rfl⟩, rfl⟩) ?_
  refine Exec.call ⟨Or.inl ⟨rfl, rfl⟩, rfl⟩ ?_
  refine Exec.call (Or.inl ⟨_, ⟨⟨true, rfl, fun _ => .refl, fun _ => rfl⟩, rfl⟩, rfl⟩) ?_
  -- The Git directory, the branch and HEAD of the worktree.
  refine Exec.call ⟨Or.inl ⟨rfl, rfl⟩, rfl⟩ ?_
  refine Exec.call (Or.inl ⟨_, ⟨rfl, rfl⟩, rfl⟩) ?_
  refine Exec.call (Or.inl ⟨_, ⟨rfl, rfl⟩, rfl⟩) ?_
  refine Exec.call ⟨Or.inl ⟨rfl, rfl⟩, rfl⟩ ?_
  refine Exec.call ⟨Or.inl ⟨rfl, rfl⟩, rfl⟩ ?_
  refine Exec.call (Or.inl ⟨_, ⟨rfl, rfl⟩, rfl⟩) ?_
  refine Exec.call (Or.inl ⟨rfl, rfl⟩) ?_
  refine Exec.call (Or.inl ⟨"c2", [], rfl, rfl, rfl⟩) ?_
  refine Exec.call (Or.inl ⟨"c2", rfl, rfl, rfl⟩) ?_
  refine Exec.call (Or.inl ⟨"c2", "c1", [], rfl, rfl, rfl, rfl⟩) ?_
  exact Exec.ret

theorem commit_is_child_sample :
    OwnedWorkspace sampleRepository sampleHost (sampleManager.taskUuid 1) "ai/1"
        sampleWorkspace.workspacePath "c1" ∧
      OwnedWorkspace sampleRepository committedHost (sampleManager.taskUuid 1) "ai/1"
        sampleWorkspace.workspacePath "c2" ∧
      committedHost.headAt sampleRepository sampleWorkspace.workspacePath = some "c2" ∧
      ∃ others, sampleParents "c2" = "c1" :: others :=
  commit_is_child exec_commitWorkspace

/-- The calls with which a remote branch is inspected. -/
def Inspects (call : WorkspaceCall) : Prop :=
  call.Reads ∨ ∃ remote branch, call = .git (.fetch remote branch)

theorem confined_inspects {α : Type} {procedure : HostProc α} (h : procedure.Only Inspects)
    (hconfined : Confined parents repository taskId branch g w) :
    procedure.Keeps (hostServes parents repository)
      (Confined parents repository taskId branch g) (fun _ _ => True) w := by
  refine keeps_of_only ?_ h hconfined
  intro w call answer w' hcall hserves hkept
  rcases hcall with hreads | ⟨remote, name, rfl⟩
  · rw [unchanged_of_reads hreads hserves]
    exact hkept
  · rcases hserves with ⟨clone, ⟨_, commit, rfl⟩, rfl⟩ | ⟨_, rfl⟩
    · exact hkept.fetched
    · exact hkept

theorem reads_verifyRepository :
    (inHost (verifyRepository repository)).Only WorkspaceCall.Reads := by
  refine only_inHost ?_
  unfold verifyRepository
  refine only_bind (only_perform.mpr trivial) fun topLevel => only_bind ?_ ?_
  · cases topLevel with
    | none => exact trivial
    | some path => exact only_perform.mpr trivial
  · intro canonical
    split_ifs
    · exact trivial
    · refine only_bind (only_perform.mpr trivial) fun url => ?_
      split_ifs
      · exact trivial
      · exact trivial

theorem only_remoteBranchState {commit : Commit} :
    (remoteBranchState repository branch commit).Only Inspects := by
  unfold remoteBranchState
  refine only_bind (only_tryCatch (only_perform.mpr (Or.inl trivial)) fun _ => trivial) ?_
  intro remoteHead
  cases remoteHead with
  | none => exact trivial
  | some remoteHead =>
      dsimp only
      split_ifs
      · exact trivial
      · exact trivial
      · refine only_bind (only_perform.mpr (Or.inl trivial)) fun known => only_bind ?_ ?_
        · split_ifs
          · exact trivial
          · exact only_tryCatch (only_perform.mpr (Or.inr ⟨_, _, rfl⟩)) fun _ => trivial
        · exact fun _ => only_bind (only_perform.mpr (Or.inl trivial)) fun contains => trivial

theorem confined_inspectRemoteBranch {commit : Commit} :
    (inspectRemoteBranch repository workspace commit).Keeps (hostServes parents repository)
      (Confined parents repository taskId branch g) (fun _ _ => True) g := by
  refine confined_inspects (only_bind ?_ fun _ => only_remoteBranchState) .refl
  exact only_mono (fun _ hreads => Or.inl hreads) reads_verifyRepository

theorem confined_pushTaskBranch {commit : Commit} :
    (manager.pushTaskBranch repository workspace commit).Keeps (hostServes parents repository)
      (Confined parents repository (manager.taskUuid workspace.taskId) workspace.branch g)
      (fun _ _ => True) g := by
  unfold pushTaskBranch
  refine keeps_bind (confined_reads reads_verifyRepository .refl) ?_
  rintro _ w _ rfl
  refine keeps_bind confined_verifyOwnedWorkspace ?_
  rintro head w' _ ⟨rfl, howned⟩
  split_ifs
  · exact confined_refuse .refl
  refine keeps_bind (confined_inspects only_remoteBranchState .refl) ?_
  intro before w hbefore _
  split_ifs
  · exact keeps_pure hbefore trivial
  refine keeps_bind (R := fun _ _ => True) (keeps_tryCatch ?_ ?_) ?_
  · -- Git rejects a push that is not a fast-forward.
    refine keeps_perform hbefore ?_
    intro answer w'' hserves
    refine ⟨?_, fun _ _ => trivial⟩
    rcases hserves with ⟨hforward, rfl⟩ | ⟨_, rfl⟩
    · exact hbefore.pushed hforward
    · exact hbefore
  · intro failure w'' hfailed
    split_ifs
    · exact confined_refuse hfailed
    · exact ⟨hfailed, hfailed⟩
  intro _ w'' hpushed _
  refine keeps_bind (confined_inspects only_remoteBranchState hpushed) ?_
  intro after w''' hafter _
  split_ifs
  · exact confined_refuse hafter
  · exact keeps_pure hafter trivial

/-- The calls of a removal. -/
def Removes (path : String) (call : WorkspaceCall) : Prop :=
  call = .worktreeRemove path ∨ (∃ reason, call = .worktreeLock reason path) ∨
    ∃ directory, call = .rmdir directory

theorem only_removeUnlocked {path reason taskDirectory : String} :
    (removeUnlocked path reason taskDirectory).Only (Removes path) := by
  unfold removeUnlocked Proc.result
  refine only_bind (only_tryCatch (only_bind ?_ fun _ => trivial) fun _ => trivial) ?_
  · exact only_perform.mpr (Or.inl rfl)
  intro removed
  cases removed with
  | error failure =>
      exact only_bind (only_perform.mpr (Or.inr (Or.inl ⟨reason, rfl⟩))) fun _ => trivial
  | ok value =>
      refine only_bind (only_tryCatch (only_bind ?_ fun _ => trivial) fun _ => trivial)
        fun _ => trivial
      exact only_perform.mpr (Or.inr (Or.inr ⟨taskDirectory, rfl⟩))

/-- The worktree is removed, or locked again. -/
theorem confined_removes {α : Type} {procedure : HostProc α} {path : String}
    (hremoves : procedure.Only (Removes path))
    (h : Confined parents repository taskId branch g w)
    (howned : TaskWorktree repository taskId branch g path) :
    procedure.Keeps (hostServes parents repository)
      (Confined parents repository taskId branch g) (fun _ _ => True) w := by
  refine keeps_of_only ?_ hremoves h
  intro w call answer w' hcall hserves hkept
  rcases hcall with rfl | ⟨reason, rfl⟩ | ⟨directory, rfl⟩
  · rcases hserves with ⟨_, _, _, _, rfl⟩ | ⟨_, rfl⟩
    · exact hkept.removeWorktree howned
    · exact hkept
  · rcases hserves with ⟨_, rfl⟩ | ⟨_, rfl⟩ | ⟨_, rfl⟩
    · exact hkept.mapWorktree howned fun _ => rfl
    · exact hkept
    · exact hkept
  · rcases hserves with ⟨_, rfl⟩ | ⟨_, rfl⟩
    · exact hkept.removePath
    · exact hkept

theorem confined_release {input : ReleaseWorkspaceInput} :
    (manager.release repository input).Keeps (hostServes parents repository)
      (Confined parents repository (manager.taskUuid input.taskId) input.branch g)
      (fun _ _ => True) g := by
  unfold release
  dsimp only
  refine keeps_bind (confined_reads (only_inHost only_ofExcept) .refl) ?_
  rintro expectedPath w _ rfl
  split_ifs
  · exact keeps_pure .refl trivial
  refine keeps_bind (keeps_of_unchanged .refl (keeps_hostRead trivial)) ?_
  rintro worktrees w' _ ⟨rfl, hlisted⟩
  rw [answer_of_git .worktreeList (fun _ h => Except.ok.inj h.1) hlisted]
  cases hat : w'.clone.worktrees.find? fun worktree => worktree.path = expectedPath with
  | none =>
      refine keeps_bind (confined_read trivial .refl) ?_
      rintro occupied w _ rfl
      split_ifs
      · exact keeps_pure .refl trivial
      · exact keeps_pure .refl trivial
  | some worktree =>
      dsimp only
      refine keeps_bind (keeps_of_unchanged .refl keeps_readMarker) ?_
      rintro marker w _ ⟨rfl, _⟩
      split_ifs with hforeign
      · exact keeps_pure .refl trivial
      simp only [not_or, not_not] at hforeign
      obtain ⟨_, hreason, hbranch⟩ := hforeign
      -- Past the checks the worktree is the task branch under the task lock.
      have howned : TaskWorktree repository (manager.taskUuid input.taskId) input.branch w
          expectedPath := ⟨worktree, hat, hbranch, hreason⟩
      refine keeps_bind (confined_read trivial .refl) ?_
      rintro clean w' _ rfl
      split_ifs
      · exact keeps_pure .refl trivial
      refine keeps_bind (confined_change (fun worktree => { worktree with lockReason := none })
        (fun _ => rfl) ?_ .refl howned) ?_
      · intro answer w hserves
        rcases hserves with ⟨_, hchanged⟩ | ⟨_, hsame⟩
        · exact Or.inl hchanged
        · exact Or.inr hsame
      · intro _ w hunlocked _
        exact confined_removes only_removeUnlocked hunlocked howned

end Operations

end WorkspaceManager

inductive TaskOperation
  | verifyTaskWorkspace (workspace : TaskWorkspace)
  | restoreWorkspace (workspace : TaskWorkspace)
  | commitWorkspace (workspace : TaskWorkspace) (message : String) (author : CommitAuthor)
  | inspectRemoteBranch (workspace : TaskWorkspace) (commit : Commit)
  | pushTaskBranch (workspace : TaskWorkspace) (commit : Commit)
  | release (input : WorkspaceManager.ReleaseWorkspaceInput)

namespace TaskOperation

def taskId : TaskOperation → TaskId
  | verifyTaskWorkspace workspace => workspace.taskId
  | restoreWorkspace workspace => workspace.taskId
  | commitWorkspace workspace _ _ => workspace.taskId
  | inspectRemoteBranch workspace _ => workspace.taskId
  | pushTaskBranch workspace _ => workspace.taskId
  | release input => input.taskId

def branch : TaskOperation → String
  | verifyTaskWorkspace workspace => workspace.branch
  | restoreWorkspace workspace => workspace.branch
  | commitWorkspace workspace _ _ => workspace.branch
  | inspectRemoteBranch workspace _ => workspace.branch
  | pushTaskBranch workspace _ => workspace.branch
  | release input => input.branch

/-- The operation under the lock of the repository, without what it returns. -/
def locked (manager : WorkspaceManager) (repository : RegisteredClone) :
    TaskOperation → HostProc Unit
  | verifyTaskWorkspace workspace => do
      let _ ← manager.verifyOwnedWorkspace repository workspace
  | restoreWorkspace workspace => do
      let _ ← manager.restoreWorkspace repository workspace
  | commitWorkspace workspace message author => do
      let _ ← manager.commitWorkspace repository workspace message author
  | inspectRemoteBranch workspace commit => do
      let _ ← WorkspaceManager.inspectRemoteBranch repository workspace commit
  | pushTaskBranch workspace commit => do
      let _ ← manager.pushTaskBranch repository workspace commit
  | release input => do
      let _ ← manager.release repository input

end TaskOperation

section Runs

open WorkspaceManager

variable {parents : Commit → List Commit} {manager : WorkspaceManager}
  {repository : RegisteredClone} {g g' : Host}

def sampleCommit : TaskOperation :=
  .commitWorkspace sampleWorkspace "Add the page" sampleAuthor

theorem exec_sampleCommit : Exec (hostServes sampleParents sampleRepository)
    (sampleCommit.locked sampleManager sampleRepository) sampleHost (.returned ())
      committedHost :=
  exec_bind exec_commitWorkspace .ret

theorem keeps_ignored {α : Type} {I : Host → Prop} {Q : α → Host → Prop} {procedure : HostProc α}
    (h : procedure.Keeps (hostServes parents repository) I Q g) :
    (procedure >>= fun _ => pure ()).Keeps (hostServes parents repository) I
      (fun _ _ => True) g :=
  keeps_bind h fun _ _ hkept _ => keeps_pure hkept trivial

theorem confined_locked (operation : TaskOperation) :
    (operation.locked manager repository).Keeps (hostServes parents repository)
      (Confined parents repository (manager.taskUuid operation.taskId) operation.branch g)
      (fun _ _ => True) g := by
  cases operation with
  | verifyTaskWorkspace workspace =>
      exact keeps_ignored WorkspaceManager.confined_verifyOwnedWorkspace
  | restoreWorkspace workspace =>
      exact keeps_ignored WorkspaceManager.confined_restoreWorkspace
  | commitWorkspace workspace message author =>
      exact keeps_ignored WorkspaceManager.confined_commitWorkspace
  | inspectRemoteBranch workspace commit =>
      exact keeps_ignored WorkspaceManager.confined_inspectRemoteBranch
  | pushTaskBranch workspace commit =>
      exact keeps_ignored WorkspaceManager.confined_pushTaskBranch
  | release input =>
      exact keeps_ignored WorkspaceManager.confined_release

/-- An agent writes in the worktree at a path: its files, its `.git` file and other
repositories, but not the clone. -/
inductive AgentWrites (path : String) (g g' : Host) : Prop
  | writes (change : Worktree → Worktree)
      (hkeeps : ∀ worktree, (change worktree).path = worktree.path ∧
        (change worktree).branch = worktree.branch ∧
          (change worktree).lockReason = worktree.lockReason)
      (hclone : g'.clone = (g.mapWorktree path change).clone)
      (hreplaced : ∀ other, other ≠ path → g'.replaced other = g.replaced other)

/-- What happens to a host between preparations. -/
inductive HostStep (parents : Commit → List Commit) (manager : WorkspaceManager)
    (repository : RegisteredClone) (g g' : Host) : Prop
  | operation (operation : TaskOperation) (ending : Ending WorkspaceError Unit)
      (hexec : Exec (hostServes parents repository) (operation.locked manager repository) g
        ending g')
  | agent (path : String) (hwrites : AgentWrites path g g')

/-- The branches of the clone from `g` to `g'`. -/
structure KeepsCommits (parents : Commit → List Commit) (g g' : Host) : Prop where
  markers : g'.clone.markers = g.clone.markers
  unowned : ∀ name, (g.clone.markers name).task = none →
    g'.clone.refs (.branch name) = g.clone.refs (.branch name)
  grows : ∀ name commit, g.clone.refs (.branch name) = some commit →
    ∃ commit', g'.clone.refs (.branch name) = some commit' ∧ IsAncestor parents commit commit'

theorem KeepsCommits.refl : KeepsCommits parents g g :=
  ⟨rfl, fun _ _ => rfl, fun _ commit hat => ⟨commit, hat, .refl⟩⟩

theorem KeepsCommits.trans {g'' : Host} (h : KeepsCommits parents g g')
    (h' : KeepsCommits parents g' g'') : KeepsCommits parents g g'' := by
  constructor
  · exact h'.markers.trans h.markers
  · intro name hunowned
    have hstill : (g'.clone.markers name).task = none := by
      rw [h.markers]
      exact hunowned
    exact (h'.unowned name hstill).trans (h.unowned name hunowned)
  · intro name commit hat
    obtain ⟨commit', hat', hancestor⟩ := h.grows name commit hat
    obtain ⟨commit'', hat'', hancestor'⟩ := h'.grows name commit' hat'
    exact ⟨commit'', hat'', hancestor'.trans hancestor⟩

theorem Confined.keepsCommits {taskId branch : String}
    (h : Confined parents repository taskId branch g g') : KeepsCommits parents g g' := by
  constructor
  · exact h.markers
  · intro name hunowned
    by_cases hname : name = branch
    · subst hname
      rcases h.grows with hsame | ⟨htask, _⟩
      · exact hsame
      · rw [hunowned] at htask
        cases htask
    · exact h.refs name hname
  · intro name commit hat
    by_cases hname : name = branch
    · subst hname
      rcases h.grows with hsame | ⟨_, head, moved, hhead, hmoved, hancestor⟩
      · exact ⟨commit, hsame.trans hat, .refl⟩
      · rw [hat] at hhead
        obtain rfl := Option.some.inj hhead
        exact ⟨moved, hmoved, hancestor⟩
    · exact ⟨commit, (h.refs name hname).trans hat, .refl⟩

theorem HostStep.keepsCommits (h : HostStep parents manager repository g g') :
    KeepsCommits parents g g' := by
  cases h with
  | operation operation ending hexec =>
      exact (keeps_iff.mp (confined_locked operation) ending g' hexec).1.keepsCommits
  | agent path hwrites =>
      obtain ⟨change, _, hclone, _⟩ := hwrites
      constructor
      · rw [hclone]
        rfl
      · intro name _
        rw [hclone]
        rfl
      · intro name commit hat
        refine ⟨commit, ?_, .refl⟩
        rw [hclone]
        exact hat

/-- After the commit the agent leads the worktree to the Git directory of the base branch. -/
def hijackedHost : Host :=
  { committedHost with
    replaced := fun path =>
      if path = sampleWorkspace.workspacePath then
        some (some ⟨sampleRepository.gitDirectory, some "main", none⟩)
      else none }

/-- The next operation finds the worktree on another branch, and refuses it. -/
theorem exec_hijackedCommit : Exec (hostServes sampleParents sampleRepository)
    (sampleCommit.locked sampleManager sampleRepository) hijackedHost
      (.threw (.blocked s!"Worktree {sampleWorkspace.workspacePath} is not on branch ai/1"))
      hijackedHost := by
  refine Exec.call (Or.inl ⟨_, ⟨rfl, rfl⟩, rfl⟩) ?_
  refine Exec.call (Or.inl ⟨_, ⟨rfl, rfl⟩, rfl⟩) ?_
  refine Exec.call (Or.inl ⟨_, ⟨rfl, rfl⟩, rfl⟩) ?_
  refine Exec.call (Or.inl ⟨_, ⟨rfl, rfl⟩, rfl⟩) ?_
  refine Exec.call ⟨Or.inl ⟨rfl, rfl⟩, rfl⟩ ?_
  refine Exec.call (Or.inl ⟨_, ⟨⟨true, rfl, fun _ => .refl, fun _ => rfl⟩, rfl⟩, rfl⟩) ?_
  -- The Git directory is the registered one, but HEAD names the base branch.
  refine Exec.call ⟨Or.inl ⟨rfl, rfl⟩, rfl⟩ ?_
  refine Exec.call (Or.inl ⟨_, ⟨rfl, rfl⟩, rfl⟩) ?_
  refine Exec.call (Or.inl ⟨_, ⟨rfl, rfl⟩, rfl⟩) ?_
  refine Exec.call ⟨Or.inl ⟨rfl, rfl⟩, rfl⟩ ?_
  exact Exec.throw

end Runs

end Orchestrator
