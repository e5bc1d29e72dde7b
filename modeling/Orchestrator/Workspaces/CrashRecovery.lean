import Orchestrator.Kit.Record
import Orchestrator.Workspaces.Prepare

/-! # Crashes during preparation

A preparation can be interrupted between any two calls, and inside `git worktree add`. What
it leaves behind is one of three stages of the work, from each of which the next preparation
goes on. What others left behind is never touched.
-/

namespace Orchestrator

open Kit

/-! ## What stands for a task -/

/-- The branch, the path or the worktree exists. -/
def Stands (g : GitState) (branch path : String) : Prop :=
  (g.refs (.branch branch)).isSome = true ∨ (g.paths path = true ∨ g.dangling path = true) ∨
    ∃ worktree ∈ g.worktrees, worktree.path = path ∨ worktree.branch = some branch

/-- The task's markers: the branch is the task's; a worktree at its path is locked for it, on
the branch and with all three markers; without one, nothing else is at the path and a branch
is still at the marked base. -/
structure CarriesMarkers (g : GitState) (taskId reason branch path : String) : Prop where
  task : (g.markers branch).task = some taskId
  checkout : ∀ worktree, (g.worktrees.find? fun worktree => worktree.branch = some branch) =
    some worktree → worktree.path = path
  worktree : ∀ worktree, g.worktreeAt path = some worktree → worktree.branch = some branch ∧
    worktree.lockReason = some reason ∧ (g.markers branch).base.isSome = true ∧
      (g.markers branch).worktree = some path
  vacant : g.worktreeAt path = none → g.paths path = false
  atBase : g.worktreeAt path = none → (g.refs (.branch branch)).isSome = true →
    g.refs (.branch branch) = (g.markers branch).base

/-! ## Rules for single calls -/

section Calls

variable {parents : Commit → List Commit} {interrupts : Prop} {α β : Type} {g : GitState}
  {post : Ending WorkspaceError α → GitState → Prop}

/-- A call that cannot fail here, at the end of a procedure. -/
theorem wp_answer (call : GitCall) {post : Ending WorkspaceError call.Answer → GitState → Prop}
    (hcrash : post .crashed g)
    (hanswer : ∀ answer g', gitServes parents interrupts g call answer g' →
      ∃ value, answer = .ok value ∧ post (.returned value) g' ∧ post .crashed g') :
    (git call).wp (gitServes parents interrupts) post g := by
  refine wp_perform.mpr ⟨hcrash, ?_, ?_⟩
  · intro value g' hserves
    rcases hanswer _ g' hserves with ⟨_, ⟨⟩, hpost⟩
    exact hpost
  · intro failure g' hserves
    rcases hanswer _ g' hserves with ⟨_, ⟨⟩, _⟩

/-- A call that cannot fail here. -/
theorem wp_git {call : GitCall} {rest : call.Answer → GitProc α} (hcrash : post .crashed g)
    (hanswer : ∀ answer g', gitServes parents interrupts g call answer g' →
      ∃ value, answer = .ok value ∧ (rest value).wp (gitServes parents interrupts) post g') :
    (git call >>= rest).wp (gitServes parents interrupts) post g := by
  refine wp_bind.mpr (wp_answer call hcrash fun answer g' hserves => ?_)
  rcases hanswer answer g' hserves with ⟨value, hvalue, hrest⟩
  have hend : post .crashed g' := wp_crashed hrest
  exact ⟨value, hvalue, hrest, hend⟩

/-- A call that only reads. -/
theorem wp_read {call : GitCall} {rest : call.Answer → GitProc α} (value : call.Answer)
    (hread : ∀ answer g', gitServes parents interrupts g call answer g' →
      answer = .ok value ∧ g' = g)
    (hcrash : post .crashed g)
    (hrest : (rest value).wp (gitServes parents interrupts) post g) :
    (git call >>= rest).wp (gitServes parents interrupts) post g := by
  refine wp_git hcrash fun answer g' hserves => ?_
  rcases hread answer g' hserves with ⟨hanswer, rfl⟩
  exact ⟨value, hanswer, hrest⟩

theorem wp_blocked {message : String} (hpost : post (.threw (.blocked message)) g)
    (hcrash : post .crashed g) :
    (WorkspaceManager.blocked message : GitProc α).wp (gitServes parents interrupts) post g :=
  ⟨hpost, hcrash⟩

theorem wp_ofExcept {result : Except WorkspaceError β} {value : β} {rest : β → GitProc α}
    (hresult : result = .ok value)
    (hrest : (rest value).wp (gitServes parents interrupts) post g) :
    (WorkspaceManager.ofExcept result >>= rest).wp (gitServes parents interrupts) post g := by
  rw [hresult]
  exact hrest

theorem wp_after {procedure : GitProc β} {rest : β → GitProc α}
    (h : procedure.wp (gitServes parents interrupts)
      (Ending.Then (fun value => (rest value).wp (gitServes parents interrupts) post) post) g) :
    (procedure >>= rest).wp (gitServes parents interrupts) post g := wp_bind.mpr h

end Calls

/-! ## Guards -/

/-- `verifyRepository` is content. -/
def Registered (repository : RegisteredClone) (g : GitState) : Prop :=
  (g.topLevel.bind fun path => if g.paths path then some (g.resolves path) else none) =
      some repository.path ∧
    g.remoteUrl.bind githubRepositoryFromUrl = some repository.github

/-- `validateBranch` is content. -/
def ValidBranch (repository : RegisteredClone) (branch : String) (g : GitState) : Prop :=
  g.branchFormat branch = some branch ∧ branch ≠ repository.baseBranch ∧
    startsWith branch "-" = false

namespace WorkspaceManager

section Guards

variable {parents : Commit → List Commit} {interrupts : Prop} {g : GitState}
  {manager : WorkspaceManager} {repository : RegisteredClone} {branch : String}

theorem wp_verifyRepository {post : Ending WorkspaceError Unit → GitState → Prop}
    (hcrash : post .crashed g)
    (hblocked : ¬ Registered repository g → ∀ message, post (.threw (.blocked message)) g)
    (hok : Registered repository g → post (.returned ()) g) :
    (verifyRepository repository).wp (gitServes parents interrupts) post g := by
  have hrest : ∀ canonical : Option String,
      canonical = (g.topLevel.bind fun path =>
        if g.paths path then some (g.resolves path) else none) →
      (if canonical ≠ some repository.path then
        blocked s!"Registered path for {repository.name} is not the top level of a Git repository"
      else do
        let url ← git (.remoteUrl repository.remote)
        if url.bind githubRepositoryFromUrl ≠ some repository.github then
          blocked (s!"Remote {repository.remote} of {repository.name} does not point to " ++
            s!"github.com/{repository.github}")
        else pure ()).wp (gitServes parents interrupts) post g := by
    intro canonical hcanonical
    by_cases hpath : canonical = some repository.path
    · rw [if_neg (not_not.mpr hpath)]
      refine wp_read g.remoteUrl (fun _ _ h => h) hcrash ?_
      by_cases hurl : g.remoteUrl.bind githubRepositoryFromUrl = some repository.github
      · rw [if_neg (not_not.mpr hurl)]
        exact ⟨hok ⟨hcanonical.symm.trans hpath, hurl⟩, hcrash⟩
      · rw [if_pos hurl]
        exact wp_blocked (hblocked (fun h => hurl h.2) _) hcrash
    · rw [if_pos hpath]
      exact wp_blocked (hblocked (fun h => hpath (hcanonical.trans h.1)) _) hcrash
  refine wp_read g.topLevel (fun _ _ h => h) hcrash ?_
  cases htop : g.topLevel with
  | none => exact hrest none (by rw [htop]; rfl)
  | some path =>
      refine wp_read (if g.paths path then some (g.resolves path) else none) (fun _ _ h => h)
        hcrash ?_
      exact hrest _ (by rw [htop]; rfl)

theorem wp_validateBranch {post : Ending WorkspaceError String → GitState → Prop}
    (hcrash : post .crashed g)
    (hblocked : ¬ ValidBranch repository branch g → ∀ message,
      post (.threw (.blocked message)) g)
    (hok : ValidBranch repository branch g → post (.returned branch) g) :
    (manager.validateBranch repository branch).wp (gitServes parents interrupts) post g := by
  refine wp_read (g.branchFormat branch) (fun _ _ h => h) hcrash ?_
  by_cases hvalid : g.branchFormat branch ≠ some branch ∨ branch = repository.baseBranch ∨
      startsWith branch "-" = true
  · rw [if_pos hvalid]
    refine wp_blocked (hblocked (fun h => ?_) _) hcrash
    rcases hvalid with hformat | hbase | hdash
    · exact hformat h.1
    · exact h.2.1 hbase
    · rw [h.2.2] at hdash
      cases hdash
  · rw [if_neg hvalid]
    simp only [not_or, not_not, Bool.not_eq_true] at hvalid
    exact ⟨hok hvalid, hcrash⟩

theorem wp_readMarker {α : Type} {rest : OwnershipMarker → GitProc α}
    {post : Ending WorkspaceError α → GitState → Prop} (hcrash : post .crashed g)
    (hrest : (rest (g.markers branch)).wp (gitServes parents interrupts) post g) :
    (readMarker branch >>= rest).wp (gitServes parents interrupts) post g := by
  refine wp_after ?_
  refine wp_read (g.markers branch).task (fun _ _ h => h) hcrash ?_
  refine wp_read (g.markers branch).base (fun _ _ h => h) hcrash ?_
  refine wp_read (g.markers branch).worktree (fun _ _ h => h) hcrash ?_
  exact ⟨hrest, hcrash⟩

end Guards

/-! ## What others left behind -/

/-- Nothing is returned, an error blocks for an operator, and the state stays as it was. -/
def Refused {α : Type} (g : GitState) : Ending WorkspaceError α → GitState → Prop
  | .returned _, _ => False
  | .threw failure, g' => (∃ message, failure = .blocked message) ∧ g' = g
  | .crashed, g' => g' = g

section Refusal

variable {parents : Commit → List Commit} {interrupts : Prop} {g : GitState}
  {manager : WorkspaceManager} {input : PrepareWorkspaceInput} {repository : RegisteredClone}
  {taskId reason branch path : String}

theorem refused_blocked {α : Type} {message : String} :
    (blocked message : GitProc α).wp (gitServes parents interrupts) (Refused g) g :=
  wp_blocked ⟨⟨message, rfl⟩, rfl⟩ rfl

/-- A worktree at the path that does not carry the markers. -/
theorem refused_worktree {worktree : Worktree}
    (h : ¬ (worktree.branch = some branch ∧ worktree.lockReason = some reason ∧
      (g.markers branch).base.isSome = true ∧ (g.markers branch).worktree = some path))
    {rest : WorkspaceIdentity → GitProc PreparedWorkspace} :
    (verifyReusableWorktree repository worktree input path branch (g.markers branch) reason >>=
      rest).wp (gitServes parents interrupts) (Refused g) g := by
  have hblocked : ∀ message, (blocked message : GitProc WorkspaceIdentity).wp
      (gitServes parents interrupts)
      (Ending.Then (fun value => (rest value).wp (gitServes parents interrupts) (Refused g))
        (@Refused PreparedWorkspace g)) g := by
    intro message
    exact ⟨⟨⟨message, rfl⟩, rfl⟩, rfl⟩
  refine wp_after ?_
  unfold verifyReusableWorktree
  by_cases hlocked : worktree.branch ≠ some branch ∨ worktree.lockReason ≠ some reason
  · rw [if_pos hlocked]
    exact hblocked _
  · rw [if_neg hlocked]
    simp only [not_or, not_not] at hlocked
    cases hbase : (g.markers branch).base with
    | none => exact hblocked _
    | some base =>
        by_cases hmarked : (g.markers branch).worktree = some path
        · refine absurd ⟨hlocked.1, hlocked.2, ?_, hmarked⟩ h
          rw [hbase]
          rfl
        · dsimp only
          rw [if_pos hmarked]
          exact hblocked _

/-- A branch, a checkout of it or a worktree that passes the first two guards is the task's. -/
theorem task_of_guards {marker : OwnershipMarker} {stands : Prop}
    (howner : ¬ (marker.task.isSome = true ∧ marker.task.getD "" ≠ taskId))
    (hunowned : ¬ (marker.task.isNone = true ∧ stands)) (hstands : stands) :
    marker.task = some taskId := by
  cases htask : marker.task with
  | none =>
      rw [htask] at hunowned
      exact absurd ⟨rfl, hstands⟩ hunowned
  | some owner =>
      rw [htask] at howner
      rw [Option.some.injEq]
      by_contra hother
      exact howner ⟨rfl, hother⟩

/-- The guards of `prepare` let nothing pass that stands without the task's markers. -/
theorem refused_prepareLocked (hlink : g.dangling path = false) (hstands : Stands g branch path)
    (hforeign : ¬ CarriesMarkers g taskId (worktreeLockReason taskId repository.name) branch path) :
    (manager.prepareLocked repository input taskId branch path).wp
      (gitServes parents interrupts) (Refused g) g := by
  refine wp_after (wp_verifyRepository rfl ?_ fun _ => ?_)
  · exact fun _ message => ⟨⟨message, rfl⟩, rfl⟩
  refine wp_read g.worktrees (fun _ _ h => h) rfl (wp_readMarker rfl ?_)
  refine wp_read (g.refs (.branch branch)) (fun _ _ h => h) rfl ?_
  dsimp only
  generalize hcheckout : (g.worktrees.find? fun worktree =>
    decide (worktree.branch = some branch)) = branchWorktree
  by_cases howner : (g.markers branch).task.isSome = true ∧
      (g.markers branch).task.getD "" ≠ taskId
  · rw [if_pos howner]
    exact refused_blocked
  rw [if_neg howner]
  generalize hat : (g.worktrees.find? fun worktree => decide (worktree.path = path)) = worktree
  by_cases hunowned : (g.markers branch).task.isNone = true ∧
      ((g.refs (.branch branch)).isSome = true ∨ branchWorktree.isSome = true ∨
        worktree.isSome = true)
  · rw [if_pos hunowned]
    exact refused_blocked
  rw [if_neg hunowned]
  by_cases helsewhere : branchWorktree.isSome = true ∧
      (branchWorktree.map (·.path)).getD "" ≠ path
  · rw [if_pos helsewhere]
    exact refused_blocked
  rw [if_neg helsewhere]
  have hchecked : ∀ found, (g.worktrees.find? fun worktree =>
      decide (worktree.branch = some branch)) = some found → found.path = path := by
    intro found hfound
    rw [hfound] at hcheckout
    subst hcheckout
    by_contra hother
    exact helsewhere ⟨rfl, hother⟩
  cases worktree with
  | some worktree =>
      refine refused_worktree fun hcarries => hforeign ?_
      refine ⟨task_of_guards howner hunowned (Or.inr (Or.inr rfl)), hchecked, ?_, ?_, ?_⟩
      · intro found hfound
        rcases hat.symm.trans hfound with ⟨⟩
        exact hcarries
      · intro hnone
        cases hat.symm.trans hnone
      · intro hnone
        cases hat.symm.trans hnone
  | none =>
      dsimp only
      by_cases hpersisted : input.baseCommit.isSome = true
      · rw [if_pos hpersisted]
        exact refused_blocked
      rw [if_neg hpersisted]
      refine wp_read (g.paths path) (fun _ _ h => h) rfl ?_
      by_cases hoccupied : g.paths path = true
      · rw [if_pos hoccupied]
        exact refused_blocked
      rw [if_neg hoccupied]
      by_cases hcommits : (g.refs (.branch branch)).isSome = true ∧
          g.refs (.branch branch) ≠ (g.markers branch).base
      · rw [if_pos hcommits]
        exact refused_blocked
      -- What stands is the branch or a checkout of it, so the task marker is the task's.
      have hguarded : (g.refs (.branch branch)).isSome = true ∨ branchWorktree.isSome = true ∨
          (none : Option Worktree).isSome = true := by
        rcases hstands with hbranch | (hpath | hdangling) | ⟨found, hfound, hsame | hsame⟩
        · exact Or.inl hbranch
        · exact absurd hpath hoccupied
        · rw [hlink] at hdangling
          cases hdangling
        · have hnot := List.find?_eq_none.mp hat found hfound
          simp [hsame] at hnot
        · refine Or.inr (Or.inl ?_)
          rw [← hcheckout, List.find?_isSome]
          exact ⟨found, hfound, decide_eq_true hsame⟩
      refine absurd ⟨task_of_guards howner hunowned hguarded, hchecked, ?_, ?_, ?_⟩ hforeign
      · intro found hfound
        cases hat.symm.trans hfound
      · intro _
        exact Bool.eq_false_of_not_eq_true hoccupied
      · intro _ hbranch
        by_contra hother
        exact hcommits ⟨hbranch, hother⟩

theorem refused_prepare (hget : manager.registry.get input.repository = .ok repository)
    (hpath : manager.registry.worktreePath (manager.taskUuid input.taskId) repository.name =
      .ok path)
    (hlink : g.dangling path = false) (hstands : Stands g input.branch path)
    (hforeign : ¬ CarriesMarkers g (manager.taskUuid input.taskId)
      (worktreeLockReason (manager.taskUuid input.taskId) repository.name) input.branch path) :
    (manager.prepare input).wp (gitServes parents interrupts) (Refused g) g := by
  refine wp_ofExcept hget (wp_ofExcept hpath ?_)
  refine wp_after (wp_validateBranch rfl ?_ fun _ => ?_)
  · exact fun _ message => ⟨⟨message, rfl⟩, rfl⟩
  · show Proc.wp _ _ (if _ then _ else if _ then _ else _) g
    split_ifs
    · exact refused_blocked
    · exact refused_blocked
    · exact refused_prepareLocked hlink hstands hforeign

end Refusal

/-! ## What crashes leave behind -/

/-- What a preparation relies on and never changes. -/
structure Healthy (manager : WorkspaceManager) (repository : RegisteredClone)
    (branch path : String) (g : GitState) : Prop where
  registered : Registered repository g
  valid : ValidBranch repository branch g
  canonical : g.resolves path = path
  remoteAbsent : g.remote branch = none
  disk : manager.minimumFreeDiskMb * (1024 * 1024) ≤ g.freeBytes

/-- What a preparation needs besides: the fast-forward of the base branch runs `git status` in
the directory of its checkout, and a new branch needs a name of its own. -/
structure Unobstructed (repository : RegisteredClone) (branch : String) (g : GitState) : Prop where
  checkout : (g.refs (.branch repository.baseBranch)).isSome = true → ∀ worktree,
    (g.worktrees.find? fun worktree => worktree.branch = some repository.baseBranch) =
      some worktree → g.paths worktree.path = true
  /-- No branch that exists or is checked out clashes with the task's. -/
  named : ∀ other, ((g.refs (.branch other)).isSome = true ∨
    ∃ worktree ∈ g.worktrees, worktree.branch = some other) → refsClash branch other = false

/-- No worktree of the task is there yet. -/
structure Vacant (branch path : String) (g : GitState) : Prop where
  absent : g.paths path = false
  unlinked : g.dangling path = false
  free : ∀ worktree ∈ g.worktrees, worktree.path ≠ path ∧ worktree.branch ≠ some branch

/-- How far the attempts have come. -/
inductive Progress (taskId reason branch path : String) (g : GitState) : Prop
  /-- There are markers at most. -/
  | unclaimed (hvacant : Vacant branch path g) (hbranch : g.refs (.branch branch) = none)
      (htask : (g.markers branch).task = none ∨ (g.markers branch).task = some taskId)
  /-- The branch stands at the marked base, without a worktree. -/
  | branched {base : Commit} (hvacant : Vacant branch path g)
      (hbranch : g.refs (.branch branch) = some base)
      (hmarkers : g.markers branch = ⟨some taskId, some base, some path⟩)
  | complete {base : Commit} (hbranch : g.refs (.branch branch) = some base)
      (hmarkers : g.markers branch = ⟨some taskId, some base, some path⟩)
      (hpath : g.paths path = true)
      (hat : g.worktreeAt path =
        some { path, branch := some branch, lockReason := some reason })
      (hcheckout : ∀ worktree ∈ g.worktrees, worktree.branch = some branch → worktree.path = path)

structure Recoverable (manager : WorkspaceManager) (repository : RegisteredClone)
    (taskId branch path : String) (g : GitState) : Prop where
  healthy : Healthy manager repository branch path g
  unobstructed : Unobstructed repository branch g
  progress : Progress taskId (worktreeLockReason taskId repository.name) branch path g

/-- How an attempt ends: it returns the marked base, at which the worktree stands; it is
interrupted; or it crashes. The next attempt can go on in any case. -/
def Recovered (manager : WorkspaceManager) (repository : RegisteredClone)
    (taskId branch path : String) (interrupts : Prop) :
    Ending WorkspaceError PreparedWorkspace → GitState → Prop
  | .returned prepared, g => Recoverable manager repository taskId branch path g ∧
      (g.markers branch).base = some prepared.baseCommit ∧ g.headAt path = some prepared.baseCommit
  | .threw _, g => interrupts ∧ Recoverable manager repository taskId branch path g
  | .crashed, g => Recoverable manager repository taskId branch path g

/-- The state in which `createWorktree` works, with the branch and the worktrees it was told. -/
structure Building (manager : WorkspaceManager) (repository : RegisteredClone)
    (taskId branch path : String) (worktrees : List Worktree) (localBranchCommit : Option Commit)
    (g : GitState) : Prop where
  healthy : Healthy manager repository branch path g
  unobstructed : Unobstructed repository branch g
  vacant : Vacant branch path g
  listed : g.worktrees = worktrees
  ref : g.refs (.branch branch) = localBranchCommit
  task : (g.markers branch).task = none ∨ (g.markers branch).task = some taskId
  marked : ∀ commit, localBranchCommit = some commit →
    g.markers branch = ⟨some taskId, some commit, some path⟩

section Recovery

variable {parents : Commit → List Commit} {interrupts : Prop} {g : GitState}
  {manager : WorkspaceManager} {repository : RegisteredClone} {taskId branch path : String}
  {worktrees : List Worktree} {localBranchCommit : Option Commit} {α : Type}
  {post : Ending WorkspaceError α → GitState → Prop}

theorem Building.recoverable
    (h : Building manager repository taskId branch path worktrees localBranchCommit g) :
    Recoverable manager repository taskId branch path g := by
  refine ⟨h.healthy, h.unobstructed, ?_⟩
  have hbranch := h.ref
  cases hcommit : localBranchCommit with
  | none =>
      rw [hcommit] at hbranch
      exact .unclaimed h.vacant hbranch h.task
  | some commit =>
      rw [hcommit] at hbranch
      exact .branched h.vacant hbranch (h.marked commit hcommit)

/-- A ref other than the task's branch is written; a branch that it creates is checked out. -/
theorem Building.setRef
    (h : Building manager repository taskId branch path worktrees localBranchCommit g)
    {ref : GitRef} (hother : ref ≠ .branch branch)
    (hbase : ref = .branch repository.baseBranch →
      (g.refs (.branch repository.baseBranch)).isSome = true)
    (hknown : ∀ name, ref = .branch name → (g.refs (.branch name)).isSome = true ∨
      ∃ worktree ∈ g.worktrees, worktree.branch = some name) (commit : Commit) :
    Building manager repository taskId branch path worktrees localBranchCommit
      (g.setRef ref commit) where
  healthy := ⟨h.healthy.registered, h.healthy.valid, h.healthy.canonical,
    h.healthy.remoteAbsent, h.healthy.disk⟩
  unobstructed := by
    constructor
    · intro hstands
      apply h.unobstructed.checkout
      by_cases hsame : GitRef.branch repository.baseBranch = ref
      · exact hbase hsame.symm
      · exact (congrArg Option.isSome (if_neg hsame)).symm.trans hstands
    · intro name hname
      apply h.unobstructed.named
      rcases hname with hstands | hchecked
      · by_cases hsame : GitRef.branch name = ref
        · exact hknown name hsame.symm
        · exact Or.inl ((congrArg Option.isSome (if_neg hsame)).symm.trans hstands)
      · exact Or.inr hchecked
  vacant := ⟨h.vacant.absent, h.vacant.unlinked, h.vacant.free⟩
  listed := h.listed
  ref := (if_neg hother.symm).trans h.ref
  task := h.task
  marked := h.marked

/-- A fast-forward in a checkout: no checkout is on the task's branch. -/
theorem Building.fastForwarded
    (h : Building manager repository taskId branch path worktrees localBranchCommit g)
    (hbase : (g.refs (.branch repository.baseBranch)).isSome = true) (checkout : String)
    (ref : GitRef) :
    Building manager repository taskId branch path worktrees localBranchCommit
      (g.fastForwarded checkout ref) := by
  unfold GitState.fastForwarded
  split
  · next merged commit hmerged _ =>
      rcases Option.bind_eq_some_iff.mp hmerged with ⟨worktree, hat, hbranch⟩
      have hmem : worktree ∈ g.worktrees := List.mem_of_find?_eq_some hat
      refine h.setRef ?_ (fun _ => hbase) ?_ commit
      · intro hsame
        rw [GitRef.branch.injEq] at hsame
        rw [hsame] at hbranch
        exact (h.vacant.free worktree hmem).2 hbranch
      · intro name hname
        rw [GitRef.branch.injEq] at hname
        exact Or.inr ⟨worktree, hmem, hname ▸ hbranch⟩
  · exact h

theorem Healthy.addPath (h : Healthy manager repository branch path g) (added : String) :
    Healthy manager repository branch path (g.addPath added) where
  registered := by
    rcases h.registered with ⟨htop, hurl⟩
    refine ⟨?_, hurl⟩
    rcases Option.bind_eq_some_iff.mp htop with ⟨top, htop', hpath⟩
    have hexists : g.paths top = true := by
      by_contra hmissing
      rw [if_neg hmissing] at hpath
      cases hpath
    rw [if_pos hexists] at hpath
    refine Option.bind_eq_some_iff.mpr ⟨top, htop', ?_⟩
    have hstill : (g.addPath added).paths top = true := Bool.or_eq_true_iff.mpr (Or.inr hexists)
    rw [if_pos hstill]
    exact hpath
  valid := h.valid
  canonical := h.canonical
  remoteAbsent := h.remoteAbsent
  disk := h.disk

theorem Unobstructed.addPath (h : Unobstructed repository branch g) (added : String) :
    Unobstructed repository branch (g.addPath added) where
  checkout hbase worktree hworktree :=
    Bool.or_eq_true_iff.mpr (Or.inr (h.checkout hbase worktree hworktree))
  named := h.named

theorem Building.addPath
    (h : Building manager repository taskId branch path worktrees localBranchCommit g)
    {added : String} (hother : added ≠ path) :
    Building manager repository taskId branch path worktrees localBranchCommit
      (g.addPath added) where
  healthy := h.healthy.addPath added
  unobstructed := h.unobstructed.addPath added
  vacant := by
    refine ⟨Bool.or_eq_false_iff.mpr ⟨decide_eq_false hother.symm, h.vacant.absent⟩, ?_, ?_⟩
    · exact h.vacant.unlinked
    · exact h.vacant.free
  listed := h.listed
  ref := h.ref
  task := h.task
  marked := h.marked

theorem setMarker_markers (key : MarkerKey) (value : String) :
    (g.setMarker branch key value).markers branch = (g.markers branch).set key value := by
  simp [GitState.setMarker]

theorem Building.setMarker
    (h : Building manager repository taskId branch path worktrees localBranchCommit g)
    {key : MarkerKey} {value : String}
    (htask : key = .orchestratortask → value = taskId)
    (hsame : ∀ commit, localBranchCommit = some commit →
      OwnershipMarker.set ⟨some taskId, some commit, some path⟩ key value =
        ⟨some taskId, some commit, some path⟩) :
    Building manager repository taskId branch path worktrees localBranchCommit
      (g.setMarker branch key value) where
  healthy := ⟨h.healthy.registered, h.healthy.valid, h.healthy.canonical,
    h.healthy.remoteAbsent, h.healthy.disk⟩
  unobstructed := ⟨h.unobstructed.checkout, h.unobstructed.named⟩
  vacant := ⟨h.vacant.absent, h.vacant.unlinked, h.vacant.free⟩
  listed := h.listed
  ref := h.ref
  task := by
    rw [setMarker_markers]
    cases key with
    | orchestratortask => exact Or.inr (congrArg some (htask rfl))
    | orchestratorbase => exact h.task
    | orchestratorworktree => exact h.task
  marked commit hcommit := by
    rw [setMarker_markers, h.marked commit hcommit]
    exact hsame commit hcommit

/-! ## Creating the worktree -/

theorem wp_ensureRemoteBranchAbsent {rest : Unit → GitProc α}
    (h : Healthy manager repository branch path g) (hcrash : post .crashed g)
    (hrest : (rest ()).wp (gitServes parents interrupts) post g) :
    (ensureRemoteBranchAbsent repository branch >>= rest).wp (gitServes parents interrupts)
      post g := by
  refine wp_after (wp_bind.mpr (wp_tryCatch.mpr (wp_perform.mpr ⟨hcrash, ?_, ?_⟩)))
  · rintro value g' ⟨hanswer, rfl⟩
    rcases hanswer with ⟨⟩
    rw [h.remoteAbsent]
    exact ⟨⟨hrest, hcrash⟩, hcrash⟩
  · rintro failure g' ⟨⟨⟩, -⟩

theorem wp_fetchBase {rest : Commit → GitProc α}
    (h : Building manager repository taskId branch path worktrees localBranchCommit g)
    (hcrash : ∀ g', Building manager repository taskId branch path worktrees localBranchCommit g' →
      post .crashed g')
    (hrest : ∀ base g',
      Building manager repository taskId branch path worktrees localBranchCommit g' →
        (rest base).wp (gitServes parents interrupts) post g') :
    (fetchBase repository >>= rest).wp (gitServes parents interrupts) post g := by
  refine wp_after (wp_bind.mpr (wp_tryCatch.mpr (wp_perform.mpr ⟨hcrash g h, ?_, ?_⟩)))
  · rintro value g' ⟨-, commit, rfl⟩
    have hother : GitRef.tracking repository.remote repository.baseBranch ≠ .branch branch :=
      fun hsame => nomatch hsame
    have hfetched := h.setRef hother (fun hsame => nomatch hsame)
      (fun _ hsame => nomatch hsame) commit
    have hcrashed := hcrash _ hfetched
    refine ⟨wp_read (some commit) ?_ hcrashed ?_, hcrashed⟩
    · rintro answer g' ⟨rfl, rfl⟩
      exact ⟨congrArg Except.ok (if_pos rfl), rfl⟩
    · exact ⟨hrest commit _ hfetched, hcrashed⟩
  · rintro failure g' ⟨⟨⟩, -⟩

theorem wp_fastForwardLocalBase {rest : Bool → GitProc α}
    (h : Building manager repository taskId branch path worktrees localBranchCommit g)
    (hcrash : ∀ g', Building manager repository taskId branch path worktrees localBranchCommit g' →
      post .crashed g')
    (hrest : ∀ updated g',
      Building manager repository taskId branch path worktrees localBranchCommit g' →
        (rest updated).wp (gitServes parents interrupts) post g') :
    (fastForwardLocalBase repository worktrees >>= rest).wp (gitServes parents interrupts)
      post g := by
  -- The base branch is another branch than the task branch, so moving it is harmless.
  have hbase : (GitRef.branch repository.baseBranch) ≠ .branch branch := by
    intro hsame
    rw [GitRef.branch.injEq] at hsame
    exact h.healthy.valid.2.1 hsame.symm
  have hdone : ∀ updated g', Building manager repository taskId branch path worktrees
      localBranchCommit g' → (pure updated : GitProc Bool).wp (gitServes parents interrupts)
        (Ending.Then (fun value => (rest value).wp (gitServes parents interrupts) post) post) g' :=
    fun updated g' hbuilding => ⟨hrest updated g' hbuilding, hcrash g' hbuilding⟩
  refine wp_after ?_
  unfold fastForwardLocalBase
  refine wp_read (g.refs (.branch repository.baseBranch)) (fun _ _ h => h) (hcrash g h) ?_
  refine wp_read (g.refs (.tracking repository.remote repository.baseBranch)) (fun _ _ h => h)
    (hcrash g h) ?_
  cases hlocal : g.refs (.branch repository.baseBranch) with
  | none => exact hdone false g h
  -- Nothing to fast-forward: the answers are read only.
  | some localBase =>
      cases g.refs (.tracking repository.remote repository.baseBranch) with
      | none => exact hdone false g h
      | some remoteBase =>
          dsimp only
          split_ifs
          · exact hdone true g h
          · refine wp_git (hcrash g h) ?_
            rintro answer g' ⟨⟨contained, rfl, -⟩, rfl⟩
            refine ⟨contained, rfl, ?_⟩
            split_ifs
            · exact hdone false g' h
            · have hexists : (g'.refs (.branch repository.baseBranch)).isSome = true := by
                rw [hlocal]
                rfl
              have hknown : ∀ name, GitRef.branch repository.baseBranch = .branch name →
                  (g'.refs (.branch name)).isSome = true ∨
                    ∃ worktree ∈ g'.worktrees, worktree.branch = some name :=
                fun name hname => Or.inl (hname ▸ hexists)
              cases hfind : worktrees.find? fun worktree =>
                  decide (worktree.branch = some repository.baseBranch) with
              | none =>
                  -- The base branch is checked out nowhere: its ref is moved directly.
                  refine wp_git (hcrash g' h) ?_
                  rintro answer g'' (⟨-, rfl, rfl⟩ | ⟨hmoved, -⟩)
                  · exact ⟨(), rfl, hdone true _ (h.setRef hbase (fun _ => hexists) hknown
                      remoteBase)⟩
                  · exact absurd hlocal hmoved
              | some checkout =>
                  -- It is checked out at a path that still stands, where status cannot fail.
                  have hcheckout : g'.paths checkout.path = true :=
                    h.unobstructed.checkout hexists checkout (h.listed.symm ▸ hfind)
                  refine wp_git (hcrash g' h) ?_
                  rintro answer g'' ⟨⟨-, rfl⟩ | ⟨hmissing, -⟩, rfl⟩
                  · refine ⟨_, rfl, ?_⟩
                    split_ifs
                    · exact hdone false _ h
                    · refine wp_answer (.mergeFastForward _ _) (hcrash _ h) ?_
                      rintro answer g''' (⟨rfl, rfl⟩ | ⟨rfl, rfl⟩)
                      · exact ⟨true, rfl, hdone true _ (h.fastForwarded hexists _ _)⟩
                      · exact ⟨false, rfl, hdone false _ h⟩
                  · rw [hcheckout] at hmissing
                    cases hmissing

theorem wp_ensureDiskCapacity {rest : Unit → GitProc α}
    (h : Healthy manager repository branch path g) (hcrash : post .crashed g)
    (hrest : (rest ()).wp (gitServes parents interrupts) post g) :
    (manager.ensureDiskCapacity >>= rest).wp (gitServes parents interrupts) post g := by
  refine wp_after (wp_read g.freeBytes (fun _ _ h => h) hcrash ?_)
  have henough : ¬ g.freeBytes < manager.minimumFreeDiskMb * (1024 * 1024) :=
    Nat.not_lt.mpr h.disk
  rw [if_neg henough]
  exact ⟨hrest, hcrash⟩

/-- The markers are the task's, with the base and the path that were written. -/
theorem wp_writeMarker {rest : Unit → GitProc α} {base : Commit}
    (h : Building manager repository taskId branch path worktrees localBranchCommit g)
    (hbase : ∀ commit, localBranchCommit = some commit → base = commit)
    (hcrash : ∀ g', Building manager repository taskId branch path worktrees localBranchCommit g' →
      post .crashed g')
    (hrest : ∀ g',
      Building manager repository taskId branch path worktrees localBranchCommit g' →
        g'.markers branch = ⟨some taskId, some base, some path⟩ →
          (rest ()).wp (gitServes parents interrupts) post g') :
    (writeMarker branch taskId base path >>= rest).wp (gitServes parents interrupts) post g := by
  have htask : Building manager repository taskId branch path worktrees localBranchCommit
      (g.setMarker branch .orchestratortask taskId) :=
    h.setMarker (fun _ => rfl) fun _ _ => rfl
  have hmarked : Building manager repository taskId branch path worktrees localBranchCommit
      ((g.setMarker branch .orchestratortask taskId).setMarker branch .orchestratorbase base) :=
    htask.setMarker (fun hkey => nomatch hkey) fun commit hcommit => by
      rw [hbase commit hcommit]
      rfl
  have hwritten : Building manager repository taskId branch path worktrees localBranchCommit
      (((g.setMarker branch .orchestratortask taskId).setMarker branch .orchestratorbase
        base).setMarker branch .orchestratorworktree path) :=
    hmarked.setMarker (fun hkey => nomatch hkey) fun _ _ => rfl
  refine wp_after (wp_git (hcrash g h) ?_)
  rintro answer g₁ ⟨rfl, rfl⟩
  refine ⟨(), rfl, wp_git (hcrash _ htask) ?_⟩
  rintro answer g₂ ⟨rfl, rfl⟩
  refine ⟨(), rfl, wp_answer (.configSet _ _ _) (hcrash _ hmarked) ?_⟩
  rintro answer g₃ ⟨rfl, rfl⟩
  refine ⟨(), rfl, hrest _ hwritten ?_, hcrash _ hwritten⟩
  rw [setMarker_markers, setMarker_markers, setMarker_markers]
  rfl

/-- The new worktree stands clean at its base. -/
theorem wp_verifyFreshWorktree {reason : String} {base : Commit} {rest : Unit → GitProc α}
    (h : Healthy manager repository branch path g)
    (hinside : isInside manager.registry.workspaceRoot path = true)
    (hbranch : g.refs (.branch branch) = some base) (hpath : g.paths path = true)
    (hat : g.worktreeAt path = some { path, branch := some branch, lockReason := some reason })
    (hcrash : post .crashed g) (hrest : (rest ()).wp (gitServes parents interrupts) post g) :
    (manager.verifyFreshWorktree path base >>= rest).wp (gitServes parents interrupts) post g := by
  have hhead : g.headAt path = some base := by
    unfold GitState.headAt
    rw [hat]
    exact hbranch
  have hclean : g.clean path true = true := by
    unfold GitState.clean
    rw [hat]
    rfl
  -- The path is its own and inside the root.
  have hplace : ¬ (path ≠ path ∨ (!isInside manager.registry.workspaceRoot path) = true) := by
    rw [hinside]
    simp
  refine wp_after (wp_read (some path) ?_ hcrash ?_)
  · rintro answer g' ⟨rfl, rfl⟩
    rw [if_pos hpath, h.canonical]
    exact ⟨rfl, rfl⟩
  · dsimp only
    rw [if_neg hplace]
    refine wp_git hcrash ?_
    rintro answer g₁ ⟨⟨-, rfl⟩ | ⟨hmissing, -⟩, rfl⟩
    · refine ⟨_, rfl, wp_git hcrash ?_⟩
      rintro answer g₂ ⟨⟨-, rfl⟩ | ⟨hmissing, -⟩, rfl⟩
      · refine ⟨_, rfl, ?_⟩
        rw [hhead, hclean, if_neg (by simp)]
        exact ⟨hrest, hcrash⟩
      · rw [hpath] at hmissing
        cases hmissing
    · rw [hpath] at hmissing
      cases hmissing

theorem refsClash_self (name : String) : refsClash name name = false := by
  have hlonger : startsWith name (name ++ "/") = false := by
    rw [Bool.eq_false_iff]
    intro hprefix
    have hlength := (List.isPrefixOf_iff_prefix.mp hprefix).length_le
    rw [String.toList_append, List.length_append] at hlength
    have hslash : "/".toList.length = 1 := rfl
    omega
  unfold refsClash
  rw [hlonger]
  rfl

/-- The task's branch is created. -/
theorem Unobstructed.created (h : Unobstructed repository branch g)
    (hbase : branch ≠ repository.baseBranch) (commit : Commit) :
    Unobstructed repository branch (g.setRef (.branch branch) commit) where
  checkout hstands := by
    apply h.checkout
    have hother : GitRef.branch repository.baseBranch ≠ .branch branch := by
      intro hsame
      rw [GitRef.branch.injEq] at hsame
      exact hbase hsame.symm
    exact (congrArg Option.isSome (if_neg hother)).symm.trans hstands
  named other hother := by
    by_cases hsame : GitRef.branch other = .branch branch
    · rw [GitRef.branch.injEq] at hsame
      rw [hsame]
      exact refsClash_self branch
    · apply h.named
      refine hother.imp_left fun hstands => ?_
      exact (congrArg Option.isSome (if_neg hsame)).symm.trans hstands

/-- The task's branch is checked out. -/
theorem Unobstructed.checkedOut {added : Worktree} (h : Unobstructed repository branch g)
    (hbase : branch ≠ repository.baseBranch) (hadded : added.branch = some branch) :
    Unobstructed repository branch { g with worktrees := g.worktrees ++ [added] } where
  checkout hstands worktree hfind := by
    refine h.checkout hstands worktree ?_
    have hnone : [added].find? (fun worktree =>
        decide (worktree.branch = some repository.baseBranch)) = none := by
      rw [List.find?_singleton, hadded]
      simpa using hbase
    rw [List.find?_append, hnone, Option.or_none] at hfind
    exact hfind
  named other hother := by
    rcases hother with hstands | ⟨worktree, hworktree, hbranch⟩
    · exact h.named other (Or.inl hstands)
    · rcases List.mem_append.mp hworktree with hold | hnew
      · exact h.named other (Or.inr ⟨worktree, hold, hbranch⟩)
      · rw [List.mem_singleton.mp hnew, hadded, Option.some.injEq] at hbranch
        rw [← hbranch]
        exact refsClash_self branch

/-- Once the markers are written, the branch is created or stands at the same base. -/
theorem Building.withBranch {base : Commit}
    (h : Building manager repository taskId branch path worktrees localBranchCommit g)
    (hmarkers : g.markers branch = ⟨some taskId, some base, some path⟩)
    (hbase : ∀ commit, localBranchCommit = some commit → base = commit) :
    Building manager repository taskId branch path worktrees (some base)
      (g.withBranch branch (if localBranchCommit.isNone then some base else none)) := by
  have htask : (g.markers branch).task = some taskId := by rw [hmarkers]
  have hmarked : ∀ commit, some base = some commit →
      g.markers branch = ⟨some taskId, some commit, some path⟩ := by
    rintro commit ⟨⟩
    exact hmarkers
  cases hcommit : localBranchCommit with
  | none =>
      exact ⟨⟨h.healthy.registered, h.healthy.valid, h.healthy.canonical,
        h.healthy.remoteAbsent, h.healthy.disk⟩, h.unobstructed.created h.healthy.valid.2.1 base,
        ⟨h.vacant.absent, h.vacant.unlinked, h.vacant.free⟩, h.listed, if_pos rfl, Or.inr htask,
        hmarked⟩
  | some commit =>
      have hstands : g.refs (.branch branch) = some base := by
        rw [h.ref, hcommit, hbase commit hcommit]
      exact ⟨h.healthy, h.unobstructed, h.vacant, h.listed, hstands, Or.inr htask, hmarked⟩

theorem Building.canAdd {base : Commit}
    (h : Building manager repository taskId branch path worktrees localBranchCommit g) :
    g.CanAdd branch path (if localBranchCommit.isNone then some base else none) where
  vacant := h.vacant.absent
  unlinked := h.vacant.unlinked
  unregistered worktree hworktree := (h.vacant.free worktree hworktree).1
  unused worktree hworktree := (h.vacant.free worktree hworktree).2
  created := by
    rw [h.ref]
    cases localBranchCommit with
    | none => exact Bool.false_ne_true
    | some commit => exact Bool.false_ne_true.symm
  separate _ other hstands := h.unobstructed.named other (Or.inl hstands)

/-- A worktree that is added to a marked branch completes the preparation. -/
theorem Building.complete {base : Commit}
    (h : Building manager repository taskId branch path worktrees (some base) g)
    (reason : String) :
    let added := { g.addPath path with
      worktrees := g.worktrees ++ [{ path, branch := some branch, lockReason := some reason }] }
    Healthy manager repository branch path added ∧ Unobstructed repository branch added ∧
      Progress taskId reason branch path added ∧ added.refs (.branch branch) = some base ∧
        added.paths path = true ∧ added.worktreeAt path =
          some { path, branch := some branch, lockReason := some reason } := by
  intro added
  have hhealthy := h.healthy.addPath path
  have hnone : g.worktrees.find? (fun worktree => decide (worktree.path = path)) = none :=
    List.find?_eq_none.mpr fun worktree hworktree => by
      simpa using (h.vacant.free worktree hworktree).1
  have hpath : added.paths path = true := Bool.or_eq_true_iff.mpr (Or.inl (decide_eq_true rfl))
  have hat : added.worktreeAt path =
      some { path, branch := some branch, lockReason := some reason } := by
    show (g.worktrees ++ [_]).find? _ = _
    rw [List.find?_append, hnone, Option.none_or, List.find?_cons_of_pos]
    exact decide_eq_true rfl
  refine ⟨⟨hhealthy.registered, hhealthy.valid, hhealthy.canonical, hhealthy.remoteAbsent,
    hhealthy.disk⟩, (h.unobstructed.addPath path).checkedOut h.healthy.valid.2.1 rfl,
    .complete h.ref (h.marked base rfl) hpath hat ?_, h.ref, hpath, hat⟩
  · intro worktree hworktree hbranch
    rcases List.mem_append.mp hworktree with hold | hnew
    · exact absurd hbranch (h.vacant.free worktree hold).2
    · rw [List.mem_singleton.mp hnew]

theorem wp_addWorktree {base : Commit} {prepared : PreparedWorkspace}
    (h : Building manager repository taskId branch path worktrees localBranchCommit g)
    (hinside : isInside manager.registry.workspaceRoot path = true)
    (hmarkers : g.markers branch = ⟨some taskId, some base, some path⟩)
    (hbase : ∀ commit, localBranchCommit = some commit → base = commit)
    (hprepared : prepared.baseCommit = base) :
    (do
      let _ ← git (.worktreeAdd (worktreeLockReason taskId repository.name) branch path
        (if localBranchCommit.isNone then some base else none))
      manager.verifyFreshWorktree path base
      pure prepared : GitProc PreparedWorkspace).wp (gitServes parents interrupts)
        (Recovered manager repository taskId branch path interrupts) g := by
  have hbranched := h.withBranch hmarkers hbase
  have hadd : g.CanAdd branch path (if localBranchCommit.isNone then some base else none) :=
    h.canAdd
  generalize (if localBranchCommit.isNone then some base else none) = startPoint at hbranched hadd ⊢
  -- The worktree comes after the branch, in one command.
  have hadded : g.withWorktree (worktreeLockReason taskId repository.name) branch path startPoint =
      { (g.withBranch branch startPoint).addPath path with
        worktrees := (g.withBranch branch startPoint).worktrees ++
          [{ path, branch := some branch,
             lockReason := some (worktreeLockReason taskId repository.name) }] } := by
    cases startPoint <;> rfl
  refine wp_bind.mpr (wp_perform.mpr ⟨h.recoverable, ?_, ?_⟩)
  -- The command went through: all markers agree with the new worktree.
  · rintro value g' (⟨-, -, rfl⟩ | ⟨-, -, ⟨⟩, -⟩ | ⟨-, ⟨_, ⟨⟩⟩, -⟩)
    have hmarked : (g.withWorktree (worktreeLockReason taskId repository.name) branch path
        startPoint).markers branch = ⟨some taskId, some base, some path⟩ := by
      rw [hadded]
      exact hbranched.marked base rfl
    rcases hbranched.complete (worktreeLockReason taskId repository.name) with
      ⟨hhealthy, hunobstructed, hprogress, hbranch, hpath, hat⟩
    rw [← hadded] at hhealthy hunobstructed hprogress hbranch hpath hat
    generalize g.withWorktree (worktreeLockReason taskId repository.name) branch path startPoint =
      added at hmarked hhealthy hunobstructed hprogress hbranch hpath hat
    have hrecoverable : Recoverable manager repository taskId branch path added :=
      ⟨hhealthy, hunobstructed, hprogress⟩
    refine ⟨wp_verifyFreshWorktree hhealthy hinside hbranch hpath hat hrecoverable
      ⟨⟨hrecoverable, ?_, ?_⟩, hrecoverable⟩, hrecoverable⟩
    · rw [hmarked, hprepared]
    · unfold GitState.headAt
      rw [hat, hprepared]
      exact hbranch
  -- It was cut short after the branch; nothing stands against it, so it was not refused.
  · rintro failure g' (⟨-, ⟨⟩, -⟩ | ⟨hinterrupts, -, -, rfl⟩ | ⟨hcannot, -⟩)
    · exact ⟨⟨hinterrupts, hbranched.recoverable⟩, hbranched.recoverable⟩
    · exact absurd hadd hcannot

/-- The working part of `prepare`. -/
theorem wp_createWorktree
    (h : Building manager repository taskId branch path worktrees localBranchCommit g)
    (hinside : isInside manager.registry.workspaceRoot path = true)
    (hdirectory : manager.registry.taskDirectory taskId ≠ path) :
    (manager.createWorktree repository taskId branch path
      (worktreeLockReason taskId repository.name) worktrees localBranchCommit).wp
        (gitServes parents interrupts)
        (Recovered manager repository taskId branch path interrupts) g := by
  have hcrash : ∀ g', Building manager repository taskId branch path worktrees localBranchCommit
      g' → Recovered manager repository taskId branch path interrupts .crashed g' :=
    fun _ hbuilding => hbuilding.recoverable
  -- Once the base is known, a new branch and one left by a crash go the same way.
  have hbuild : ∀ base g', (∀ commit, localBranchCommit = some commit → base = commit) →
      Building manager repository taskId branch path worktrees localBranchCommit g' →
        (do
          let localBaseUpdated ← fastForwardLocalBase repository worktrees
          manager.ensureDiskCapacity
          writeMarker branch taskId base path
          let _ ← git (.mkdir (manager.registry.taskDirectory taskId))
          let startPoint := if localBranchCommit.isNone then some base else none
          let _ ← git (.worktreeAdd (worktreeLockReason taskId repository.name) branch path
            startPoint)
          manager.verifyFreshWorktree path base
          pure { repository := repository.name, workspacePath := path, branch, baseCommit := base,
                 reused := false, localBaseUpdated } : GitProc PreparedWorkspace).wp
            (gitServes parents interrupts)
            (Recovered manager repository taskId branch path interrupts) g' := by
    intro base g₁ hbase hbuilding
    refine wp_fastForwardLocalBase hbuilding hcrash fun updated g₂ hforwarded => ?_
    refine wp_ensureDiskCapacity hforwarded.healthy (hcrash g₂ hforwarded) ?_
    refine wp_writeMarker hforwarded hbase hcrash fun g₃ hwritten hmarkers => ?_
    refine wp_git (hcrash g₃ hwritten) ?_
    rintro answer g₄ ⟨rfl, rfl⟩
    refine ⟨(), rfl, wp_addWorktree (hwritten.addPath hdirectory) hinside hmarkers hbase rfl⟩
  refine wp_ensureRemoteBranchAbsent h.healthy (hcrash g h) ?_
  cases hcommit : localBranchCommit with
  | none =>
      rw [hcommit] at h hbuild hcrash
      refine wp_fetchBase h hcrash fun base g' hfetched => ?_
      exact hbuild base g' (fun _ hsome => nomatch hsome) hfetched
  | some commit =>
      rw [hcommit] at h hbuild
      exact hbuild commit g (fun _ hsome => Option.some.inj hsome) h

/-- The task's worktree is used again, at the marked base. -/
theorem wp_verifyReusableWorktree {reason : String} {base : Commit} {input : PrepareWorkspaceInput}
    {rest : WorkspaceIdentity → GitProc α} (hpersisted : input.baseCommit = none)
    (hbranch : g.refs (.branch branch) = some base) (hpath : g.paths path = true)
    (hat : g.worktreeAt path = some { path, branch := some branch, lockReason := some reason })
    (hcrash : post .crashed g)
    (hrest : (rest ⟨repository.name, path, branch, base⟩).wp (gitServes parents interrupts)
      post g) :
    (verifyReusableWorktree repository { path, branch := some branch, lockReason := some reason }
      input path branch ⟨some taskId, some base, some path⟩ reason >>= rest).wp
        (gitServes parents interrupts) post g := by
  have hhead : g.headAt path = some base := by
    unfold GitState.headAt
    rw [hat]
    exact hbranch
  refine wp_after ?_
  unfold verifyReusableWorktree
  rw [if_neg (by simp)]
  dsimp only
  rw [if_neg (by simp), hpersisted, if_neg (by simp)]
  refine wp_git hcrash ?_
  rintro answer g₁ ⟨⟨-, rfl⟩ | ⟨hmissing, -⟩, rfl⟩
  · refine ⟨_, rfl, ?_⟩
    rw [hhead]
    refine wp_git hcrash ?_
    rintro answer g₂ ⟨⟨descends, rfl, hdescends⟩, rfl⟩
    refine ⟨descends, rfl, ?_⟩
    -- A commit is an ancestor of itself.
    rw [hdescends.mpr .refl]
    exact ⟨hrest, hcrash⟩
  · rw [hpath] at hmissing
    cases hmissing

theorem Progress.vacant_or_complete {reason : String}
    (h : Progress taskId reason branch path g) :
    (Vacant branch path g ∧
      ((g.markers branch).task = none ∨ (g.markers branch).task = some taskId) ∧
        ∀ commit, g.refs (.branch branch) = some commit →
          g.markers branch = ⟨some taskId, some commit, some path⟩) ∨
      ∃ base, g.refs (.branch branch) = some base ∧
        g.markers branch = ⟨some taskId, some base, some path⟩ ∧ g.paths path = true ∧
          g.worktreeAt path = some { path, branch := some branch, lockReason := some reason } ∧
            ∀ worktree ∈ g.worktrees, worktree.branch = some branch → worktree.path = path := by
  cases h with
  | unclaimed hvacant hbranch htask =>
      refine Or.inl ⟨hvacant, htask, fun commit hcommit => ?_⟩
      rw [hbranch] at hcommit
      cases hcommit
  | branched hvacant hbranch hmarkers =>
      refine Or.inl ⟨hvacant, Or.inr (by rw [hmarkers]), fun commit hcommit => ?_⟩
      rw [hbranch] at hcommit
      rcases hcommit with ⟨⟩
      exact hmarkers
  | @complete base hbranch hmarkers hpath hat hcheckout =>
      exact Or.inr ⟨base, hbranch, hmarkers, hpath, hat, hcheckout⟩

theorem find?_eq_none_of_free {worktrees : List Worktree} {accepts : Worktree → Prop}
    [DecidablePred accepts] (h : ∀ worktree ∈ worktrees, ¬ accepts worktree) :
    (worktrees.find? fun worktree => decide (accepts worktree)) = none :=
  List.find?_eq_none.mpr fun worktree hworktree =>
    fun hfound => h worktree hworktree (of_decide_eq_true hfound)

theorem wp_prepareLocked {input : PrepareWorkspaceInput}
    (h : Recoverable manager repository taskId branch path g)
    (hpersisted : input.baseCommit = none)
    (hinside : isInside manager.registry.workspaceRoot path = true)
    (hdirectory : manager.registry.taskDirectory taskId ≠ path) :
    (manager.prepareLocked repository input taskId branch path).wp
      (gitServes parents interrupts)
      (Recovered manager repository taskId branch path interrupts) g := by
  refine wp_after (wp_verifyRepository h ?_ fun _ => ?_)
  · exact fun hnot => absurd h.healthy.registered hnot
  refine wp_read g.worktrees (fun _ _ h => h) h (wp_readMarker h ?_)
  refine wp_read (g.refs (.branch branch)) (fun _ _ h => h) h ?_
  dsimp only
  rcases h.progress.vacant_or_complete with
    ⟨hvacant, htask, hmarked⟩ | ⟨base, hbranch, hmarkers, hpath, hat, hcheckout⟩
  · -- Without a worktree all guards are passed, and the attempt goes on to create one.
    have hbuilding : Building manager repository taskId branch path g.worktrees
        (g.refs (.branch branch)) g := ⟨h.healthy, h.unobstructed, hvacant, rfl, rfl, htask, hmarked⟩
    have howner : ¬ ((g.markers branch).task.isSome = true ∧
        (g.markers branch).task.getD "" ≠ taskId) := by
      rcases htask with hnone | hsome
      · simp [hnone]
      · simp [hsome]
    have hcheckout := find?_eq_none_of_free fun worktree hworktree =>
      (hvacant.free worktree hworktree).2
    have hat := find?_eq_none_of_free fun worktree hworktree =>
      (hvacant.free worktree hworktree).1
    have hunowned : ¬ ((g.markers branch).task.isNone = true ∧
        ((g.refs (.branch branch)).isSome = true ∨ (none : Option Worktree).isSome = true ∨
          (none : Option Worktree).isSome = true)) := by
      rintro ⟨hnone, hstands | hfound | hfound⟩
      · rcases Option.isSome_iff_exists.mp hstands with ⟨commit, hcommit⟩
        rw [hmarked commit hcommit] at hnone
        cases hnone
      · cases hfound
      · cases hfound
    have hcommits : ¬ ((g.refs (.branch branch)).isSome = true ∧
        g.refs (.branch branch) ≠ (g.markers branch).base) := by
      rintro ⟨hstands, hother⟩
      rcases Option.isSome_iff_exists.mp hstands with ⟨commit, hcommit⟩
      rw [hmarked commit hcommit] at hother
      exact hother hcommit
    rw [if_neg howner, hcheckout, hat, if_neg hunowned, if_neg (by simp), hpersisted]
    refine wp_read (g.paths path) (fun _ _ h => h) h ?_
    rw [hvacant.absent, if_neg Bool.false_ne_true, if_neg hcommits]
    exact wp_createWorktree hbuilding hinside hdirectory
  · have hguards : ∀ checkout : Option Worktree,
        (g.worktrees.find? fun worktree => decide (worktree.branch = some branch)) = checkout →
          ¬ (checkout.isSome = true ∧ (checkout.map (·.path)).getD "" ≠ path) := by
      rintro (_ | checkout) hfound
      · simp
      · rintro ⟨-, hother⟩
        have hon : decide (checkout.branch = some branch) = true :=
          List.find?_some (p := fun worktree : Worktree => decide (worktree.branch = some branch))
            hfound
        exact hother (hcheckout checkout (List.mem_of_find?_eq_some hfound)
          (of_decide_eq_true hon))
    have hworktree : (g.worktrees.find? fun worktree => decide (worktree.path = path)) =
        some { path, branch := some branch,
               lockReason := some (worktreeLockReason taskId repository.name) } := hat
    rw [hmarkers, if_neg (by simp), if_neg (by simp), if_neg (hguards _ rfl), hworktree]
    refine wp_verifyReusableWorktree hpersisted hbranch hpath hat h ⟨⟨h, ?_, ?_⟩, h⟩
    · rw [hmarkers]
    · unfold GitState.headAt
      rw [hat]
      exact hbranch

theorem worktreePath_inside {registry : RepositoryRegistry} {name : String}
    (h : registry.worktreePath taskId name = .ok path) :
    isInside registry.workspaceRoot path = true ∧ registry.taskDirectory taskId ≠ path := by
  unfold RepositoryRegistry.worktreePath at h
  split at h
  · cases h
  · cases hentry : registry.get name with
    | error failure =>
        rw [hentry] at h
        cases h
    | ok entry =>
        rw [hentry] at h
        change (if _ then _ else _) = _ at h
        split at h
        · cases h
        · next hinside =>
            rcases Except.ok.inj h with rfl
            refine ⟨by simpa using hinside, fun hsame => ?_⟩
            have hlength := congrArg String.length hsame
            rw [String.length_append, String.length_append] at hlength
            have hslash : "/".length = 1 := rfl
            omega

/-- An attempt from a recoverable state. -/
theorem wp_prepare {input : PrepareWorkspaceInput}
    (hget : manager.registry.get input.repository = .ok repository)
    (hpath : manager.registry.worktreePath (manager.taskUuid input.taskId) repository.name =
      .ok path)
    (hworkspace : input.workspacePath = none) (hpersistedBranch : input.persistedBranch = none)
    (hpersisted : input.baseCommit = none)
    (h : Recoverable manager repository (manager.taskUuid input.taskId) input.branch path g) :
    (manager.prepare input).wp (gitServes parents interrupts)
      (Recovered manager repository (manager.taskUuid input.taskId) input.branch path interrupts)
      g := by
  rcases worktreePath_inside hpath with ⟨hinside, hdirectory⟩
  refine wp_ofExcept hget (wp_ofExcept hpath ?_)
  refine wp_after (wp_validateBranch h ?_ fun _ => ?_)
  · exact fun hnot => absurd h.healthy.valid hnot
  · show Proc.wp _ _ (if _ then _ else if _ then _ else _) g
    rw [hpersistedBranch, hworkspace, if_neg (by simp), if_neg (by simp)]
    exact wp_prepareLocked h hpersisted hinside hdirectory

end Recovery

/-! ## Attempts come to an end -/

theorem gitServes_total (parents : Commit → List Commit) (interrupts : Prop) (g : GitState)
    (call : GitCall) : ∃ answer g', gitServes parents interrupts g call answer g' := by
  have hdirectory : ∀ {α : Type} (path : String) (answer : Except WorkspaceError α),
      ∃ answered, inDirectory g path answer answered := by
    intro α path answer
    cases hpath : g.paths path with
    | true => exact ⟨answer, Or.inl ⟨hpath, rfl⟩⟩
    | false => exact ⟨.error (.gitCommand none "ENOENT"), Or.inr ⟨hpath, "ENOENT", rfl⟩⟩
  cases call with
  | revParseHead path =>
      rcases hdirectory path (.ok (g.headAt path)) with ⟨answered, hanswered⟩
      exact ⟨answered, g, hanswered, rfl⟩
  | status path untrackedFiles =>
      rcases hdirectory path (.ok (g.clean path untrackedFiles)) with ⟨answered, hanswered⟩
      exact ⟨answered, g, hanswered, rfl⟩
  | isAncestor ancestor descendant =>
      by_cases h : IsAncestor parents ancestor descendant
      · exact ⟨.ok true, g, ⟨true, rfl, iff_of_true rfl h⟩, rfl⟩
      · exact ⟨.ok false, g, ⟨false, rfl, iff_of_false Bool.false_ne_true h⟩, rfl⟩
  | fetch remote branch => exact ⟨.ok (), _, rfl, "", rfl⟩
  | updateRef ref commit old =>
      by_cases h : g.refs ref = some old
      · exact ⟨.ok (), _, Or.inl ⟨h, rfl, rfl⟩⟩
      · exact ⟨.error (.gitCommand (some 128) ""), g, Or.inr ⟨h, ⟨"", rfl⟩, rfl⟩⟩
  | mergeFastForward path ref => exact ⟨.ok false, g, Or.inr ⟨rfl, rfl⟩⟩
  | worktreeAdd reason branch path startPoint =>
      by_cases h : g.CanAdd branch path startPoint
      · exact ⟨.ok (), _, Or.inl ⟨h, rfl, rfl⟩⟩
      · exact ⟨.error (.gitCommand (some 128) ""), g, Or.inr (Or.inr ⟨h, ⟨"", rfl⟩, rfl⟩)⟩
  | _ => exact ⟨_, _, rfl, rfl⟩

/-- Before the first attempt nothing of the task is there. -/
structure Untouched (manager : WorkspaceManager) (repository : RegisteredClone)
    (branch path : String) (g : GitState) : Prop where
  healthy : Healthy manager repository branch path g
  absent : ¬ Stands g branch path
  unmarked : g.markers branch = {}

theorem Untouched.recoverable {manager : WorkspaceManager} {repository : RegisteredClone}
    {taskId branch path : String} {g : GitState}
    (h : Untouched manager repository branch path g) (hclear : Unobstructed repository branch g) :
    Recoverable manager repository taskId branch path g := by
  have hpath : g.paths path = false :=
    Bool.eq_false_of_not_eq_true fun hpath => h.absent (Or.inr (Or.inl (Or.inl hpath)))
  have hlink : g.dangling path = false :=
    Bool.eq_false_of_not_eq_true fun hlink => h.absent (Or.inr (Or.inl (Or.inr hlink)))
  have hbranch : g.refs (.branch branch) = none := by
    rw [← Option.not_isSome_iff_eq_none]
    exact fun hstands => h.absent (Or.inl hstands)
  refine ⟨h.healthy, hclear,
    .unclaimed ⟨hpath, hlink, fun worktree hworktree => ⟨?_, ?_⟩⟩ hbranch (Or.inl ?_)⟩
  · exact fun hsame => h.absent (Or.inr (Or.inr ⟨worktree, hworktree, Or.inl hsame⟩))
  · exact fun hsame => h.absent (Or.inr (Or.inr ⟨worktree, hworktree, Or.inr hsame⟩))
  · rw [h.unmarked]

/-- The preparation comes to its end, and every way to end it is one of success. -/
def Succeeds (parents : Commit → List Commit) (attempt : GitProc PreparedWorkspace)
    (branch path : String) (g : GitState) : Prop :=
  (∃ prepared g', Exec (gitServes parents False) attempt g (.returned prepared) g') ∧
    ∀ ending g', Exec (gitServes parents False) attempt g ending g' → ending ≠ .crashed →
      ∃ prepared, ending = .returned prepared ∧
        (g'.markers branch).base = some prepared.baseCommit ∧
          g'.headAt path = some prepared.baseCommit

/-- The preparation throws a blocking error, and no call of it changes anything. -/
def Blocks (parents : Commit → List Commit) (attempt : GitProc PreparedWorkspace)
    (g : GitState) : Prop :=
  (∃ message, Exec (gitServes parents False) attempt g (.threw (.blocked message)) g) ∧
    ∀ ending g', Exec (gitServes parents False) attempt g ending g' → g' = g ∧
      (ending ≠ .crashed → ∃ message, ending = .threw (.blocked message))

def sampleRepository : RegisteredClone where
  name := "web"
  github := "kelolakelas/web"
  remote := "origin"
  baseBranch := "main"
  path := "/src/web"

def sampleManager : WorkspaceManager where
  registry := { workspaceRoot := "/work", repositories := [sampleRepository] }
  minimumFreeDiskMb := 1
  taskUuid := fun _ => "01234567-89ab-cdef-0123-456789abcdef"
  jsonString := id

def samplePreparation : PrepareWorkspaceInput where
  taskId := 1
  repository := "web"
  branch := "ai/1"
  workspacePath := none
  persistedBranch := none
  baseCommit := none

/-- The base branch is checked out in the clone. -/
def sampleClone : GitState where
  topLevel := some "/src/web"
  remoteUrl := some "https://github.com/kelolakelas/web.git"
  branchFormat := some
  refs := fun ref => if ref = .branch "main" then some "c0" else none
  worktrees := [{ path := "/src/web", branch := some "main" }]
  paths := fun path => path = "/src/web"
  remote := fun branch => if branch = "main" then some "c1" else none
  freeBytes := 2 ^ 30

/-- The base branch is checked out elsewhere, in a directory that was removed. -/
def goneClone : GitState :=
  { sampleClone with
    worktrees := [{ path := "/src/web", branch := none, detachedHead := some "c0" },
      { path := "/src/main", branch := some "main" }] }

def cloneParents (commit : Commit) : List Commit := if commit = "c1" then ["c0"] else []

theorem isAncestor_cloneParents {ancestor descendant : Commit} :
    (ancestor = descendant || (ancestor = "c0" && descendant = "c1")) = true ↔
      IsAncestor cloneParents ancestor descendant := by
  simp only [Bool.or_eq_true, Bool.and_eq_true, decide_eq_true_iff]
  constructor
  · rintro (rfl | ⟨rfl, rfl⟩)
    · exact .refl
    · exact .single (by decide)
  · intro h
    rcases Relation.ReflTransGen.cases_head h with hsame | ⟨parent, hparent, hrest⟩
    · exact Or.inl hsame.symm
    · unfold cloneParents at hparent
      split_ifs at hparent with hlast
      · rw [List.mem_singleton] at hparent
        rcases Relation.ReflTransGen.cases_head hrest with hsame | ⟨other, hother, _⟩
        · exact Or.inr ⟨hsame.symm.trans hparent, hlast⟩
        · rw [hparent] at hother
          cases hother
      · cases hparent

open Classical in
/-- The calls on a clone whose remote has `c1`; `git worktree add` is killed or comes to its
end. -/
noncomputable def cloneRespond (killed : Bool) (g : GitState) :
    (call : GitCall) → Except WorkspaceError call.Answer × GitState
  | .checkRefFormat branch => (.ok (g.branchFormat branch), g)
  | .showTopLevel => (.ok g.topLevel, g)
  | .realpath path => (.ok (if g.paths path then some (g.resolves path) else none), g)
  | .remoteUrl _ => (.ok g.remoteUrl, g)
  | .worktreeList => (.ok g.worktrees, g)
  | .configGet branch key => (.ok ((g.markers branch).get key), g)
  | .revParse ref => (.ok (g.refs ref), g)
  | .revParseHead path =>
      (if g.paths path then .ok (g.headAt path) else .error (.gitCommand none "ENOENT"), g)
  | .isAncestor ancestor descendant =>
      (.ok (ancestor = descendant || (ancestor = "c0" && descendant = "c1")), g)
  | .existsSync path => (.ok (g.paths path), g)
  | .lsRemote _ branch => (.ok (g.remote branch), g)
  | .fetch remote branch => (.ok (), g.setRef (.tracking remote branch) "c1")
  | .updateRef ref commit old =>
      if g.refs ref = some old then (.ok (), g.setRef ref commit)
      else (.error (.gitCommand (some 128) ""), g)
  | .status path untrackedFiles =>
      (if g.paths path then .ok (g.clean path untrackedFiles)
        else .error (.gitCommand none "ENOENT"), g)
  | .mergeFastForward path ref => (.ok true, g.fastForwarded path ref)
  | .statfs => (.ok g.freeBytes, g)
  | .configSet branch key value => (.ok (), g.setMarker branch key value)
  | .mkdir path => (.ok (), g.addPath path)
  | .worktreeAdd reason branch path startPoint =>
      if g.CanAdd branch path startPoint then
        if killed then (.error (.gitCommand none "interrupted"), g.withBranch branch startPoint)
        else (.ok (), g.withWorktree reason branch path startPoint)
      else (.error (.gitCommand (some 128) ""), g)

theorem gitServes_cloneRespond (killed : Bool) {interrupts : Prop}
    (hkilled : killed = true → interrupts) (g : GitState) (call : GitCall) :
    gitServes cloneParents interrupts g call (cloneRespond killed g call).1
      (cloneRespond killed g call).2 := by
  have hdirectory : ∀ {α : Type} (path : String) (value : α),
      inDirectory g path (.ok value)
        (if g.paths path then .ok value else .error (.gitCommand none "ENOENT")) := by
    intro α path value
    cases hpath : g.paths path with
    | true => exact Or.inl ⟨hpath, rfl⟩
    | false => exact Or.inr ⟨hpath, "ENOENT", rfl⟩
  cases call with
  | revParseHead path => exact ⟨hdirectory path _, rfl⟩
  | status path untrackedFiles => exact ⟨hdirectory path _, rfl⟩
  | isAncestor ancestor descendant => exact ⟨⟨_, rfl, isAncestor_cloneParents⟩, rfl⟩
  | fetch remote branch => exact ⟨rfl, "c1", rfl⟩
  | updateRef ref commit old =>
      by_cases h : g.refs ref = some old
      · exact Or.inl ⟨h, congrArg Prod.fst (if_pos h), congrArg Prod.snd (if_pos h)⟩
      · exact Or.inr ⟨h, ⟨"", congrArg Prod.fst (if_neg h)⟩, congrArg Prod.snd (if_neg h)⟩
  | mergeFastForward path ref => exact Or.inl ⟨rfl, rfl⟩
  | worktreeAdd reason branch path startPoint =>
      by_cases h : g.CanAdd branch path startPoint
      · cases killed with
        | true =>
            exact Or.inr (Or.inl ⟨hkilled rfl, h, congrArg Prod.fst (if_pos h),
              congrArg Prod.snd (if_pos h)⟩)
        | false =>
            exact Or.inl ⟨h, congrArg Prod.fst (if_pos h), congrArg Prod.snd (if_pos h)⟩
      · exact Or.inr (Or.inr ⟨h, ⟨"", congrArg Prod.fst (if_neg h)⟩,
          congrArg Prod.snd (if_neg h)⟩)
  | _ => exact ⟨rfl, rfl⟩

def clonePath : String := "/work/01234567-89ab-cdef-0123-456789abcdef/web"

theorem untouched_goneClone : Untouched sampleManager sampleRepository "ai/1" clonePath
    goneClone := by
  refine ⟨⟨⟨rfl, rfl⟩, ⟨rfl, by decide, rfl⟩, rfl, rfl, by decide⟩, ?_, rfl⟩
  rintro (hbranch | (hpath | hlink) | ⟨worktree, hworktree, hsame⟩)
  · cases hbranch
  · cases hpath
  · cases hlink
  · revert worktree
    decide

/-- What an attempt leaves behind that crashes after so many calls. -/
noncomputable def cloneCrashed (count : Nat) (g : GitState) : GitState :=
  ((sampleManager.prepare samplePreparation).after (cloneRespond true) count (g, [])).2.1

theorem crashes_cloneCrashed {g g' : GitState} (count : Nat)
    (h : Crashes (gitServes cloneParents True) (sampleManager.prepare samplePreparation) g g') :
    Crashes (gitServes cloneParents True) (sampleManager.prepare samplePreparation) g
      (cloneCrashed count g') :=
  .again h (exec_unrecorded
    (exec_after (gitServes_cloneRespond true fun _ => trivial) count _ (g', [])))

end WorkspaceManager

end Orchestrator
