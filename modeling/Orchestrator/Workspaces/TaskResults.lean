import Orchestrator.Workspaces.TaskOperations

/-! # Results of pushes and releases

What holds of the host when `pushTaskBranch` or `release` returns. A push only says that a
commit is on the remote when it is; a release only removes the worktree of its task, clean, and
the branch keeps its commits.
-/

namespace Orchestrator

open Kit

/-! ## Pushes -/

namespace WorkspaceManager

section Push

variable {parents : Commit → List Commit} {repository : RegisteredClone} {g : Host}
  {manager : WorkspaceManager} {workspace : TaskWorkspace} {branch : String} {commit : Commit}

/-- A remote branch that is said to be at the commit is there. -/
theorem keeps_remoteBranchState :
    (remoteBranchState repository branch commit).Keeps (hostServes parents repository)
      (fun w => w.clone.remote = g.clone.remote)
      (fun state _ => state.kind = .atCommit → g.clone.remote branch = some commit) g := by
  unfold remoteBranchState
  -- A fetch that fails or succeeds leaves the remote alone.
  have hfetch : ∀ {w : Host}, w.clone.remote = g.clone.remote →
      ((onHost (.git (.fetch repository.remote branch))).tryCatch fun failure =>
        .throw (remoteUnavailable repository.name failure)).Keeps (hostServes parents repository)
          (fun w => w.clone.remote = g.clone.remote) (fun _ _ => True) w := by
    intro w hremote
    refine keeps_tryCatch (keeps_perform hremote ?_) fun failure w' hkept => ⟨hkept, hkept⟩
    intro answer w' hserves
    refine ⟨?_, fun _ _ => trivial⟩
    rcases hserves with ⟨clone, ⟨_, fetched, rfl⟩, rfl⟩ | ⟨_, rfl⟩
    · exact hremote
    · exact hremote
  refine keeps_bind (R := fun head w => w = g ∧ head = g.clone.remote branch) ?_ ?_
  · refine keeps_tryCatch ?_ fun failure w hkept => ⟨hkept, hkept⟩
    have hreads : WorkspaceCall.Reads (.git (.lsRemote repository.remote branch)) := trivial
    refine keeps_mono ?_ ?_ (keeps_hostRead hreads)
    · rintro w rfl
      rfl
    · intro head w hsame hserves
      exact ⟨hsame, answer_of_git (.lsRemote _ _) (fun _ h => Except.ok.inj h.1) hserves⟩
  rintro remoteHead w _ ⟨rfl, hhead⟩
  cases remoteHead with
  | none =>
      refine keeps_pure rfl ?_
      intro hkind
      cases hkind
  | some remoteHead =>
      dsimp only
      split_ifs with hpattern hsame
      · exact ⟨rfl, rfl⟩
      · refine keeps_pure rfl ?_
        intro _
        rw [← hhead, hsame]
      -- The heads differ: what follows only tells in which way.
      · have hkept : ∀ call : WorkspaceCall, call.Reads → ∀ {w' : Host},
            w'.clone.remote = w.clone.remote → (onHost call).Keeps (hostServes parents repository)
              (fun w' => w'.clone.remote = w.clone.remote) (fun _ _ => True) w' := by
          intro call hreads w' hremote
          refine keeps_mono ?_ (fun _ _ _ _ => trivial) (keeps_hostRead hreads)
          rintro w'' rfl
          exact hremote
        refine keeps_bind (hkept (.hasCommit remoteHead) trivial rfl) ?_
        intro known w' hremote _
        refine keeps_bind (R := fun _ _ => True) ?_ ?_
        · split_ifs
          · exact keeps_pure hremote trivial
          · exact hfetch hremote
        intro _ w'' hremote' _
        refine keeps_bind (hkept (.git (.isAncestor commit remoteHead)) trivial hremote') ?_
        intro contains w''' hremote'' _
        refine keeps_pure hremote'' ?_
        intro hkind
        cases contains with
        | true => cases hkind
        | false => cases hkind

theorem keeps_pushTaskBranch :
    (manager.pushTaskBranch repository workspace commit).Keeps (hostServes parents repository)
      (fun _ => True)
      (fun state w => OwnedWorkspace repository g (manager.taskUuid workspace.taskId)
          workspace.branch workspace.workspacePath commit ∧ state.kind ≠ .absent ∧
        (state.kind = .atCommit → w.clone.remote workspace.branch = some commit)) g := by
  unfold pushTaskBranch
  refine keeps_bind (keeps_of_unchanged trivial (keeps_reads reads_verifyRepository)) ?_
  rintro _ w _ ⟨rfl, _⟩
  refine keeps_bind (keeps_of_unchanged trivial keeps_verifyOwnedWorkspace) ?_
  rintro head w' _ ⟨rfl, howned⟩
  split_ifs with hhead
  · exact ⟨trivial, trivial⟩
  rw [not_not] at hhead
  subst hhead
  -- What the remote branch was found at, it is at.
  have hstate : ∀ w, (remoteBranchState repository workspace.branch head).Keeps
      (hostServes parents repository) (fun _ => True) (fun state w' =>
        state.kind = .atCommit → w'.clone.remote workspace.branch = some head) w := by
    intro w
    refine keeps_mono (fun _ _ => trivial) ?_ keeps_remoteBranchState
    intro state w' hremote hat hkind
    rw [hremote]
    exact hat hkind
  refine keeps_bind (hstate _) ?_
  intro before w _ hbefore
  split_ifs with habsent
  · exact keeps_pure trivial ⟨howned, habsent, hbefore⟩
  -- The push may fail or lose its answer: the branch is looked up again.
  refine keeps_bind (R := fun _ _ => True) (keeps_tryCatch ?_ ?_) ?_
  · exact keeps_perform trivial fun _ _ _ => ⟨trivial, fun _ _ => trivial⟩
  · intro failure w'' _
    split_ifs
    · exact ⟨trivial, trivial⟩
    · exact ⟨trivial, trivial⟩
  intro _ w'' _ _
  refine keeps_bind (hstate w'') ?_
  intro after w''' _ hafter
  split_ifs with harrived
  · exact ⟨trivial, trivial⟩
  · rw [not_not] at harrived
    refine keeps_pure trivial ⟨howned, ?_, hafter⟩
    rw [harrived]
    intro hkind
    cases hkind

/-- Whenever a push returns, the commit was HEAD of a verified workspace; the remote branch is
there, at the commit if it is said to be. Nobody else moves the remote branch during the operation:
`hostServes` has no such step. -/
theorem push_is_verified {state : RemoteBranchState} {g' : Host}
    (hexec : Exec (hostServes parents repository)
      (manager.pushTaskBranch repository workspace commit) g (.returned state) g') :
    OwnedWorkspace repository g (manager.taskUuid workspace.taskId) workspace.branch
        workspace.workspacePath commit ∧
      state.kind ≠ .absent ∧
      (state.kind = .atCommit → g'.clone.remote workspace.branch = some commit) := by
  have hends := keeps_iff.mp keeps_pushTaskBranch _ g' hexec
  exact hends.2 state rfl

def reviewedCommit : Commit := "0123456789abcdef0123456789abcdef01234567"

def reviewedParents (commit : Commit) : List Commit :=
  if commit = reviewedCommit then ["c1"] else []

/-- The reviewed commit is the tip of the task's branch. -/
def reviewedHost : Host :=
  sampleHost.moveHead sampleRepository sampleWorkspace.workspacePath reviewedCommit

theorem exec_pushTaskBranch : Exec (hostServes reviewedParents sampleRepository)
    (sampleManager.pushTaskBranch sampleRepository sampleWorkspace reviewedCommit) reviewedHost
      (.returned ⟨.atCommit, some reviewedCommit⟩)
      (reviewedHost.setRemote "ai/1" reviewedCommit) := by
  have hparent : IsAncestor reviewedParents "c1" reviewedCommit :=
    .single (by simp [reviewedParents])
  refine Exec.call (Or.inl ⟨_, ⟨rfl, rfl⟩, rfl⟩) ?_
  refine Exec.call (Or.inl ⟨_, ⟨rfl, rfl⟩, rfl⟩) ?_
  refine Exec.call (Or.inl ⟨_, ⟨rfl, rfl⟩, rfl⟩) ?_
  -- The workspace is verified.
  refine Exec.call (Or.inl ⟨_, ⟨rfl, rfl⟩, rfl⟩) ?_
  refine Exec.call (Or.inl ⟨_, ⟨rfl, rfl⟩, rfl⟩) ?_
  refine Exec.call (Or.inl ⟨_, ⟨rfl, rfl⟩, rfl⟩) ?_
  refine Exec.call (Or.inl ⟨_, ⟨rfl, rfl⟩, rfl⟩) ?_
  refine Exec.call ⟨Or.inl ⟨rfl, rfl⟩, rfl⟩ ?_
  refine Exec.call (Or.inl ⟨_, ⟨⟨true, rfl, fun _ => hparent, fun _ => rfl⟩, rfl⟩, rfl⟩) ?_
  refine Exec.call ⟨Or.inl ⟨rfl, rfl⟩, rfl⟩ ?_
  refine Exec.call (Or.inl ⟨_, ⟨rfl, rfl⟩, rfl⟩) ?_
  refine Exec.call (Or.inl ⟨_, ⟨rfl, rfl⟩, rfl⟩) ?_
  refine Exec.call ⟨Or.inl ⟨rfl, rfl⟩, rfl⟩ ?_
  refine Exec.call ⟨Or.inl ⟨rfl, rfl⟩, rfl⟩ ?_
  refine Exec.call (Or.inl ⟨_, ⟨rfl, rfl⟩, rfl⟩) ?_
  refine Exec.call (Or.inl ⟨_, ⟨rfl, rfl⟩, rfl⟩) ?_
  have hpushed : hostServes reviewedParents sampleRepository reviewedHost
      (.push "origin" reviewedCommit "ai/1") (.ok ())
        (reviewedHost.setRemote "ai/1" reviewedCommit) := by
    refine Or.inl ⟨?_, rfl⟩
    intro old hold
    cases hold
  refine Exec.call hpushed ?_
  refine Exec.call (Or.inl ⟨_, ⟨rfl, rfl⟩, rfl⟩) ?_
  exact Exec.ret

theorem push_is_verified_reviewed :
    OwnedWorkspace sampleRepository reviewedHost (sampleManager.taskUuid 1) "ai/1"
        sampleWorkspace.workspacePath reviewedCommit ∧
      RemoteBranchKind.atCommit ≠ .absent ∧
      (RemoteBranchKind.atCommit = .atCommit →
        (reviewedHost.setRemote "ai/1" reviewedCommit).clone.remote "ai/1" =
          some reviewedCommit) :=
  push_is_verified exec_pushTaskBranch

end Push

end WorkspaceManager

/-! ## Releases -/

/-- From `g` to `w` the worktree at the path has been locked and unlocked at most, unless it is
gone: then it was the task's, and clean. -/
structure Released (repository : RegisteredClone) (taskId branch path : String) (g w : Host) :
    Prop where
  refs : w.clone.refs = g.clone.refs
  replaced : w.replaced = g.replaced
  worktree : ∀ worktree, g.clone.worktreeAt path = some worktree →
    (∃ lockReason, w.clone.worktreeAt path = some { worktree with lockReason }) ∨
      w.clone.worktreeAt path = none ∧ (g.clone.markers branch).task = some taskId ∧
        TaskWorktree repository taskId branch g path ∧ g.clone.clean path true = true ∧
          g.replaced path = none

section Released

variable {repository : RegisteredClone} {taskId branch path : String} {g w : Host}

theorem Released.refl : Released repository taskId branch path g g := by
  refine ⟨rfl, rfl, ?_⟩
  intro worktree hat
  exact Or.inl ⟨worktree.lockReason, hat⟩

theorem Released.lock (h : Released repository taskId branch path g w)
    (lockReason : Option String) :
    Released repository taskId branch path g
      (w.mapWorktree path fun worktree => { worktree with lockReason }) := by
  refine ⟨h.refs, h.replaced, ?_⟩
  intro worktree hat
  have hself : (w.mapWorktree path fun worktree =>
      { worktree with lockReason }).clone.worktreeAt path =
        (w.clone.worktreeAt path).map fun worktree => { worktree with lockReason } :=
    worktreeAt_mapWorktree_self fun _ => rfl
  rw [hself]
  rcases h.worktree worktree hat with ⟨before, hkept⟩ | ⟨hgone, hrest⟩
  · refine Or.inl ⟨lockReason, ?_⟩
    rw [hkept]
    rfl
  · refine Or.inr ⟨?_, hrest⟩
    rw [hgone]
    rfl

theorem Released.removePath (h : Released repository taskId branch path g w)
    (directory : String) : Released repository taskId branch path g (w.removePath directory) :=
  ⟨h.refs, h.replaced, h.worktree⟩

theorem worktreeAt_removed : (w.removeWorktree path).clone.worktreeAt path = none := by
  unfold Host.removeWorktree GitState.worktreeAt
  refine List.find?_eq_none.mpr ?_
  intro worktree hworktree
  simpa using (List.mem_filter.mp hworktree).2

/-- Git removes a worktree only if it is clean. -/
theorem Released.remove (h : Released repository taskId branch path g w)
    (htask : (g.clone.markers branch).task = some taskId)
    (howned : TaskWorktree repository taskId branch g path)
    (hclean : w.clone.clean path true = true) (hreplaced : w.replaced path = none)
    (hthere : ∃ worktree, w.clone.worktreeAt path = some worktree) :
    Released repository taskId branch path g (w.removeWorktree path) := by
  refine ⟨h.refs, h.replaced, ?_⟩
  intro worktree hat
  refine Or.inr ⟨worktreeAt_removed, htask, howned, ?_, ?_⟩
  · rcases h.worktree worktree hat with ⟨lockReason, hkept⟩ | ⟨hgone, _⟩
    · unfold GitState.clean at hclean ⊢
      rw [hkept] at hclean
      rw [hat]
      exact hclean
    · obtain ⟨still, hstill⟩ := hthere
      rw [hgone] at hstill
      cases hstill
  · rw [← h.replaced]
    exact hreplaced

end Released

namespace WorkspaceManager

section Release

variable {parents : Commit → List Commit} {repository : RegisteredClone} {g w : Host}
  {manager : WorkspaceManager} {taskId branch path : String}

/-- `git worktree remove`, with its outcome as a value. -/
theorem released_worktreeRemove (h : Released repository taskId branch path g w)
    (htask : (g.clone.markers branch).task = some taskId)
    (howned : TaskWorktree repository taskId branch g path) :
    (onHost (.worktreeRemove path)).result.Keeps (hostServes parents repository)
      (Released repository taskId branch path g)
      (fun removed w' => ∀ value, removed = .ok value → w'.clone.worktreeAt path = none) w := by
  refine keeps_tryCatch (keeps_bind (R := fun _ w' => w'.clone.worktreeAt path = none) ?_ ?_) ?_
  · refine keeps_perform h ?_
    intro answer w' hserves
    rcases hserves with ⟨⟨worktree, hat, _⟩, hreplaced, hclean, _, rfl⟩ | ⟨⟨failure, rfl⟩, rfl⟩
    · exact ⟨h.remove htask howned hclean hreplaced ⟨worktree, hat⟩,
        fun _ _ => worktreeAt_removed⟩
    · refine ⟨h, ?_⟩
      intro value hvalue
      cases hvalue
  · intro _ w' hkept hgone
    exact keeps_pure hkept fun _ _ => hgone
  · intro failure w' hkept
    refine keeps_pure hkept ?_
    intro value hvalue
    cases hvalue

theorem released_rmdir {directory : String} (h : Released repository taskId branch path g w)
    (hgone : w.clone.worktreeAt path = none) :
    (onHost (.rmdir directory)).result.Keeps (hostServes parents repository)
      (fun w' => Released repository taskId branch path g w' ∧
        w'.clone.worktreeAt path = none) (fun _ _ => True) w := by
  refine keeps_tryCatch (keeps_bind (R := fun _ _ => True) ?_ ?_) ?_
  · refine keeps_perform ⟨h, hgone⟩ ?_
    intro answer w' hserves
    refine ⟨?_, fun _ _ => trivial⟩
    rcases hserves with ⟨_, rfl⟩ | ⟨_, rfl⟩
    · exact ⟨h.removePath directory, hgone⟩
    · exact ⟨h, hgone⟩
  · intro _ w' hkept _
    exact keeps_pure hkept trivial
  · intro failure w' hkept
    exact keeps_pure hkept trivial

theorem released_removeUnlocked {reason taskDirectory : String}
    (h : Released repository taskId branch path g w)
    (htask : (g.clone.markers branch).task = some taskId)
    (howned : TaskWorktree repository taskId branch g path) :
    (removeUnlocked path reason taskDirectory).Keeps (hostServes parents repository)
      (Released repository taskId branch path g)
      (fun result w' => result = .ok () → w'.clone.worktreeAt path = none) w := by
  unfold removeUnlocked
  refine keeps_bind (released_worktreeRemove h htask howned) ?_
  intro removed w' hremoved hgone
  cases removed with
  | error failure =>
      refine keeps_bind (R := fun _ _ => True) ?_ ?_
      · refine keeps_perform hremoved ?_
        intro answer w'' hserves
        refine ⟨?_, fun _ _ => trivial⟩
        rcases hserves with ⟨_, rfl⟩ | ⟨_, rfl⟩ | ⟨_, rfl⟩
        · exact hremoved.lock (some reason)
        · exact hremoved
        · exact hremoved
      · intro _ w'' hlocked _
        refine keeps_pure hlocked ?_
        intro hok
        cases hok
  | ok value =>
      refine keeps_mono (Q := fun _ _ => True) (fun w'' hkept => hkept.1) ?_
        (keeps_bind (released_rmdir hremoved (hgone value rfl)) ?_)
      · intro _ w'' hkept _ _
        exact hkept.2
      · intro _ w'' hkept _
        exact keeps_pure hkept trivial

theorem released_release {input : ReleaseWorkspaceInput} :
    (manager.release repository input).Keeps (hostServes parents repository)
      (Released repository (manager.taskUuid input.taskId) input.branch input.workspacePath g)
      (fun result w' => result = .ok () → w'.clone.worktreeAt input.workspacePath = none) g := by
  unfold release
  dsimp only
  refine keeps_bind (keeps_of_unchanged .refl (keeps_reads (only_inHost only_ofExcept))) ?_
  rintro expectedPath w _ ⟨rfl, _⟩
  split_ifs with hpath
  · refine keeps_pure .refl ?_
    intro hok
    cases hok
  rw [not_not] at hpath
  subst hpath
  refine keeps_bind (keeps_of_unchanged .refl (keeps_hostRead trivial)) ?_
  rintro worktrees w' _ ⟨rfl, hlisted⟩
  rw [answer_of_git .worktreeList (fun _ h => Except.ok.inj h.1) hlisted]
  cases hat : w'.clone.worktrees.find? fun worktree =>
      worktree.path = input.workspacePath with
  | none =>
      -- Nothing is listed at the path: the release is done already or refused.
      refine keeps_bind (keeps_of_unchanged .refl (keeps_hostRead trivial)) ?_
      rintro occupied w _ ⟨rfl, _⟩
      split_ifs
      · refine keeps_pure .refl ?_
        intro hok
        cases hok
      · exact keeps_pure .refl fun _ => hat
  | some worktree =>
      dsimp only
      refine keeps_bind (keeps_of_unchanged .refl keeps_readMarker) ?_
      rintro marker w _ ⟨rfl, hmarker⟩
      split_ifs with hforeign
      · refine keeps_pure .refl ?_
        intro hok
        cases hok
      simp only [not_or, not_not] at hforeign
      obtain ⟨htask, hreason, hbranch⟩ := hforeign
      rw [hmarker] at htask
      -- The markers checked out, so it is the worktree of the task.
      have howned : TaskWorktree repository (manager.taskUuid input.taskId) input.branch w
          input.workspacePath := ⟨worktree, hat, hbranch, hreason⟩
      refine keeps_bind (keeps_of_unchanged .refl (keeps_hostRead trivial)) ?_
      rintro clean w' _ ⟨rfl, _⟩
      split_ifs
      · refine keeps_pure .refl ?_
        intro hok
        cases hok
      refine keeps_bind (R := fun _ _ => True) ?_ ?_
      · refine keeps_perform .refl ?_
        intro answer w hserves
        refine ⟨?_, fun _ _ => trivial⟩
        rcases hserves with ⟨_, rfl⟩ | ⟨_, rfl⟩
        · exact Released.refl.lock none
        · exact .refl
      · intro _ w hunlocked _
        exact released_removeUnlocked hunlocked htask howned

def sampleRelease : ReleaseWorkspaceInput where
  taskId := 1
  repository := "web"
  workspacePath := sampleWorkspace.workspacePath
  branch := "ai/1"

/-- The worktree of the commit `c2` is released. -/
def releasedHost : Host :=
  ((committedHost.mapWorktree sampleWorkspace.workspacePath fun worktree =>
      { worktree with lockReason := none }).removeWorktree
    sampleWorkspace.workspacePath).removePath
      (sampleManager.registry.taskDirectory (sampleManager.taskUuid 1))

theorem exec_release : Exec (hostServes sampleParents sampleRepository)
    (sampleManager.release sampleRepository sampleRelease) committedHost (.returned (.ok ()))
      releasedHost := by
  refine Exec.call (Or.inl ⟨_, ⟨rfl, rfl⟩, rfl⟩) ?_
  refine Exec.call (Or.inl ⟨_, ⟨rfl, rfl⟩, rfl⟩) ?_
  refine Exec.call (Or.inl ⟨_, ⟨rfl, rfl⟩, rfl⟩) ?_
  refine Exec.call (Or.inl ⟨_, ⟨rfl, rfl⟩, rfl⟩) ?_
  refine Exec.call ⟨⟨true, fun _ => rfl, Or.inl ⟨rfl, rfl⟩⟩, rfl⟩ ?_
  refine Exec.call (Or.inl ⟨rfl, rfl⟩) ?_
  refine Exec.call (Or.inl ⟨⟨_, rfl, rfl⟩, rfl, rfl, rfl, rfl⟩) ?_
  refine Exec.call (Or.inl ⟨rfl, rfl⟩) ?_
  exact Exec.ret

end Release

end WorkspaceManager

end Orchestrator
