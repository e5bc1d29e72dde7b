import Orchestrator.Workspaces.Host

/-! # Ownership on the host

What `verifyOwnedWorkspace` establishes: HEAD, as commands in the worktree see it, is the task's
branch of the clone. From there a command changes only what is the task's.
-/

namespace Orchestrator

open Kit

/-! ## Procedures of the clone on the host -/

theorem inHost_git (call : GitCall) : inHost (git call) = onHost (.git call) := by
  unfold git onHost Proc.perform inHost
  congr 1
  funext answer
  cases answer with
  | ok value => rfl
  | error failure => rfl

theorem inHost_bind {α β : Type} (procedure : GitProc α) (rest : α → GitProc β) :
    inHost (procedure >>= rest) = inHost procedure >>= fun value => inHost (rest value) := by
  induction procedure with
  | ret value => rfl
  | throw failure => rfl
  | call name next ih => exact congrArg (Proc.call (WorkspaceCall.git name)) (funext ih)

theorem returns_inHost {α : Type} {Q : α → Prop} {procedure : GitProc α}
    (h : procedure.Returns Q) : (inHost procedure).Returns Q := by
  induction procedure with
  | ret value => exact h
  | throw failure => exact trivial
  | call name next ih => exact fun answer => ih answer (h answer)

theorem only_inHost {α : Type} {allowed : WorkspaceCall → Prop} {procedure : GitProc α}
    (h : procedure.Only fun call => allowed (.git call)) : (inHost procedure).Only allowed := by
  induction procedure with
  | ret value => exact trivial
  | throw failure => exact trivial
  | call name next ih => exact ⟨h.1, fun answer => ih answer (h.2 answer)⟩

/-! ## Calls that only read -/

/-- The calls with which the manager looks at the clone and the worktree. -/
def WorkspaceCall.Reads : WorkspaceCall → Prop
  | .git (.checkRefFormat _) => True
  | .git .showTopLevel => True
  | .git (.realpath _) => True
  | .git (.remoteUrl _) => True
  | .git .worktreeList => True
  | .git (.configGet _ _) => True
  | .git (.revParse _) => True
  | .git (.revParseHead _) => True
  | .git (.isAncestor _ _) => True
  | .git (.existsSync _) => True
  | .git (.lsRemote _ _) => True
  | .git (.status _ _) => True
  | .gitCommonDir _ => True
  | .symbolicRef _ => True
  | .addAll _ => True
  | .head _ => True
  | .headParent _ => True
  | .hasCommit _ => True
  | _ => False

section Reads

variable {parents : Commit → List Commit} {repository : RegisteredClone} {g : Host}

theorem inDirectory_ok {α : Type} {clone : GitState} {path : String} {value value' : α}
    (h : inDirectory clone path (.ok value) (.ok value')) : value' = value := by
  rcases h with ⟨_, hanswer⟩ | ⟨_, _, hanswer⟩
  · exact Except.ok.inj hanswer
  · cases hanswer

/-- A call of the clone that only reads there. -/
theorem unchanged_of_git (call : GitCall) {answer : Except WorkspaceError call.Answer} {g' : Host}
    (hread : ∀ clone, gitServes parents False g.clone call answer clone → clone = g.clone)
    (h : (∃ clone, gitServes parents False g.clone call answer clone ∧ g' = { g with clone }) ∨
      Fails g answer g') : g' = g := by
  rcases h with ⟨clone, hserves, rfl⟩ | ⟨_, rfl⟩
  · rw [hread clone hserves]
  · rfl

theorem unchanged_of_reads {call : WorkspaceCall} {answer : Except WorkspaceError call.Answer}
    {g' : Host} (hreads : call.Reads) (h : hostServes parents repository g call answer g') :
    g' = g := by
  cases call with
  | git call =>
      cases call with
      | revParseHead path => exact h.2
      | status path untrackedFiles => exact h.2
      | checkRefFormat branch => exact unchanged_of_git (.checkRefFormat branch) (fun _ h => h.2) h
      | showTopLevel => exact unchanged_of_git .showTopLevel (fun _ h => h.2) h
      | realpath path => exact unchanged_of_git (.realpath path) (fun _ h => h.2) h
      | remoteUrl remote => exact unchanged_of_git (.remoteUrl remote) (fun _ h => h.2) h
      | worktreeList => exact unchanged_of_git .worktreeList (fun _ h => h.2) h
      | configGet branch key => exact unchanged_of_git (.configGet branch key) (fun _ h => h.2) h
      | revParse ref => exact unchanged_of_git (.revParse ref) (fun _ h => h.2) h
      | isAncestor old new => exact unchanged_of_git (.isAncestor _ _) (fun _ h => h.2) h
      | existsSync path => exact unchanged_of_git (.existsSync path) (fun _ h => h.2) h
      | lsRemote remote branch => exact unchanged_of_git (.lsRemote _ _) (fun _ h => h.2) h
      | _ => exact hreads.elim
  | gitCommonDir path => exact h.2
  | symbolicRef path => exact h.2
  | addAll path =>
      rcases h with ⟨_, hsame⟩ | ⟨_, hsame⟩
      · exact hsame
      · exact hsame
  | head path =>
      rcases h with ⟨_, _, _, hsame⟩ | ⟨_, hsame⟩
      · exact hsame
      · exact hsame
  | headParent path =>
      rcases h with ⟨_, _, _, _, _, _, hsame⟩ | ⟨_, hsame⟩
      · exact hsame
      · exact hsame
  | hasCommit commit =>
      rcases h with ⟨_, _, hsame⟩ | ⟨_, hsame⟩
      · exact hsame
      · exact hsame
  | _ => exact hreads.elim

/-- A read, with what its answer says. -/
theorem keeps_hostRead {call : WorkspaceCall} (hreads : call.Reads) :
    (onHost call).Keeps (hostServes parents repository) (fun w => w = g)
      (fun value _ => hostServes parents repository g call (.ok value) g) g := by
  refine keeps_perform rfl ?_
  intro answer w hserves
  have hsame := unchanged_of_reads hreads hserves
  refine ⟨hsame, ?_⟩
  rintro value rfl
  rwa [hsame] at hserves

/-- A procedure of reads. -/
theorem keeps_reads {α : Type} {procedure : HostProc α}
    (h : procedure.Only WorkspaceCall.Reads) :
    procedure.Keeps (hostServes parents repository) (fun w => w = g) (fun _ _ => True) g := by
  refine keeps_of_only ?_ h rfl
  intro w call answer w' hreads hserves hw
  exact (unchanged_of_reads hreads hserves).trans hw

/-- What leaves the host as it was keeps whatever holds of it. -/
theorem keeps_of_unchanged {α : Type} {procedure : HostProc α} {I : Host → Prop}
    {Q : α → Host → Prop} (hI : I g)
    (h : procedure.Keeps (hostServes parents repository) (fun w => w = g) Q g) :
    procedure.Keeps (hostServes parents repository) I (fun value w => w = g ∧ Q value w) g := by
  refine keeps_mono ?_ (fun _ _ => And.intro) h
  rintro w rfl
  exact hI

theorem keeps_inHost_git (call : GitCall) (hreads : WorkspaceCall.Reads (.git call)) :
    (inHost (git call)).Keeps (hostServes parents repository) (fun w => w = g)
      (fun value _ => hostServes parents repository g (.git call) (.ok value) g) g := by
  rw [inHost_git]
  exact keeps_hostRead hreads

theorem keeps_inHost_bind {α β : Type} {procedure : GitProc α} {rest : α → GitProc β}
    {I : Host → Prop} {Q : β → Host → Prop}
    (h : (inHost procedure >>= fun value => inHost (rest value)).Keeps
      (hostServes parents repository) I Q g) :
    (inHost (procedure >>= rest)).Keeps (hostServes parents repository) I Q g := by
  rw [inHost_bind]
  exact h

/-- An answer from the clone. -/
theorem answer_of_git (call : GitCall) {value expected : call.Answer} {g' : Host}
    (hanswer : ∀ clone, gitServes parents False g.clone call (.ok value) clone →
      value = expected)
    (h : (∃ clone, gitServes parents False g.clone call (.ok value) clone ∧
      g' = { g with clone }) ∨ Fails g (.ok value) g') : value = expected := by
  rcases h with ⟨clone, hserves, _⟩ | ⟨⟨_, hfailed⟩, _⟩
  · exact hanswer clone hserves
  · cases hfailed

end Reads

/-! ## What is verified -/

/-- The worktree is locked for the task and on its branch, and so is the Git directory in which
commands run there. -/
structure OwnedWorkspace (repository : RegisteredClone) (g : Host) (taskId branch path : String)
    (head : Commit) : Prop where
  task : (g.clone.markers branch).task = some taskId
  worktree : ∃ worktree, g.clone.worktreeAt path = some worktree ∧
    worktree.branch = some branch ∧
      worktree.lockReason = some (worktreeLockReason taskId repository.name)
  directory : ∃ directory, g.directoryAt repository path = some directory ∧
    g.Own repository directory ∧ directory.branch = some branch
  tip : g.clone.refs (.branch branch) = some head

namespace WorkspaceManager

section Verified

variable {parents : Commit → List Commit} {repository : RegisteredClone} {g : Host}
  {manager : WorkspaceManager} {workspace : TaskWorkspace} {path : String}

theorem keeps_refuse {α : Type} {message : String} {Q : α → Host → Prop} :
    (refuse message : HostProc α).Keeps (hostServes parents repository) (fun w => w = g) Q g :=
  ⟨rfl, rfl⟩

/-- The Git directory is checked before HEAD is read through it. -/
theorem keeps_verifyGitDirectory :
    (verifyGitDirectory repository workspace path).Keeps (hostServes parents repository)
      (fun w => w = g)
      (fun head _ => (∃ directory, g.directoryAt repository path = some directory ∧
        g.Own repository directory ∧ directory.branch = some workspace.branch) ∧
          g.clone.refs (.branch workspace.branch) = some head) g := by
  unfold verifyGitDirectory
  refine keeps_bind (keeps_hostRead trivial) ?_
  rintro commonDirectory w rfl hcommon
  have hdirectory := inDirectory_ok hcommon.1
  refine keeps_bind (keeps_hostRead trivial) ?_
  rintro expected w rfl hexpected
  have hexpected := answer_of_git (.realpath repository.gitDirectory)
    (fun _ h => Except.ok.inj h.1) hexpected
  -- What the common directory resolves to, if it is there.
  refine keeps_bind (R := fun actual _ => ∀ canonical, actual = some canonical →
    ∃ directory, w.directoryAt repository path = some directory ∧
      w.clone.resolves directory.commonDirectory = canonical) ?_ ?_
  · cases hat : w.directoryAt repository path with
    | none =>
        rw [hat] at hdirectory
        rw [hdirectory]
        refine keeps_pure rfl ?_
        intro canonical hnone
        cases hnone
    | some directory =>
        rw [hat] at hdirectory
        rw [hdirectory]
        refine keeps_mono (fun _ h => h) ?_ (keeps_hostRead trivial)
        rintro actual _ _ hactual canonical rfl
        have hactual := answer_of_git (.realpath directory.commonDirectory)
          (fun _ h => Except.ok.inj h.1) hactual
        refine ⟨directory, rfl, ?_⟩
        by_contra hother
        split at hactual
        · exact hother (Option.some.inj hactual).symm
        · cases hactual
  rintro actual w' rfl hactual
  split_ifs with helsewhere
  · exact keeps_refuse
  rw [not_or, Bool.not_eq_true, Option.isNone_eq_false_iff, not_not] at helsewhere
  obtain ⟨hsome, hsame⟩ := helsewhere
  obtain ⟨canonical, hcanonical⟩ := Option.isSome_iff_exists.mp hsome
  obtain ⟨directory, hat, hresolves⟩ := hactual canonical hcanonical
  have hown : w'.Own repository directory := by
    have hboth := hsame.symm.trans hcanonical
    rw [hexpected] at hboth
    split at hboth
    · exact hresolves.trans (Option.some.inj hboth).symm
    · cases hboth
  refine keeps_bind (keeps_hostRead trivial) ?_
  rintro symbolic w rfl hsymbolic
  have hnamed := inDirectory_ok hsymbolic.1
  rw [hat] at hnamed
  split_ifs with hbranch
  · exact keeps_refuse
  rw [not_not] at hbranch
  refine keeps_bind (keeps_reads (only_perform.mpr trivial)) ?_
  rintro head w' rfl _
  cases head with
  | none => exact keeps_refuse
  | some head =>
      refine keeps_bind (keeps_hostRead trivial) ?_
      rintro tip w rfl htip
      have htip := answer_of_git (.revParse (.branch workspace.branch))
        (fun _ h => Except.ok.inj h.1) htip
      split_ifs with hmatches
      · exact keeps_refuse
      · refine keeps_pure rfl ⟨⟨directory, hat, hown, ?_⟩, ?_⟩
        · exact hnamed.symm.trans hbranch
        · exact htip.symm.trans (not_not.mp hmatches)

theorem only_ofExcept {α : Type} {result : Except WorkspaceError α} {allowed : GitCall → Prop} :
    (ofExcept result).Only allowed := by
  cases result with
  | ok value => exact trivial
  | error failure => exact trivial

theorem keeps_readMarker {branch : String} :
    (inHost (readMarker branch)).Keeps (hostServes parents repository) (fun w => w = g)
      (fun marker _ => marker = g.clone.markers branch) g := by
  unfold readMarker
  refine keeps_inHost_bind (keeps_bind (keeps_inHost_git (.configGet _ _) trivial) ?_)
  rintro task w rfl htask
  have htask := answer_of_git (.configGet branch .orchestratortask)
    (fun _ h => Except.ok.inj h.1) htask
  refine keeps_inHost_bind (keeps_bind (keeps_inHost_git (.configGet _ _) trivial) ?_)
  rintro base w' rfl hbase
  have hbase := answer_of_git (.configGet branch .orchestratorbase)
    (fun _ h => Except.ok.inj h.1) hbase
  refine keeps_inHost_bind (keeps_bind (keeps_inHost_git (.configGet _ _) trivial) ?_)
  rintro worktree w rfl hworktree
  have hworktree := answer_of_git (.configGet branch .orchestratorworktree)
    (fun _ h => Except.ok.inj h.1) hworktree
  refine keeps_pure rfl ?_
  rw [htask, hbase, hworktree]
  rfl

/-- What a reusable worktree is registered with. -/
theorem returns_verifyReusableWorktree {worktree : Worktree} {input : PrepareWorkspaceInput}
    {branch reason : String} {marker : OwnershipMarker} :
    (verifyReusableWorktree repository worktree input path branch marker reason).Returns fun _ =>
      worktree.branch = some branch ∧ worktree.lockReason = some reason := by
  unfold verifyReusableWorktree
  cases marker.base with
  | none =>
      dsimp only
      split_ifs
      · exact trivial
      · exact trivial
  | some base =>
      dsimp only
      split_ifs with hlocked
      · exact trivial
      · exact trivial
      · exact trivial
      · refine returns_rest fun head => returns_rest fun descends => ?_
        split_ifs
        · exact trivial
        · rwa [not_or, not_not, not_not] at hlocked

theorem reads_verifyReusableWorktree {worktree : Worktree} {input : PrepareWorkspaceInput}
    {branch reason : String} {marker : OwnershipMarker} :
    (inHost (verifyReusableWorktree repository worktree input path branch marker reason)).Only
      WorkspaceCall.Reads := by
  refine only_inHost ?_
  unfold verifyReusableWorktree
  cases marker.base with
  | none =>
      dsimp only
      split_ifs
      · exact trivial
      · exact trivial
  | some base =>
      dsimp only
      split_ifs
      · exact trivial
      · exact trivial
      · exact trivial
      · refine only_bind (only_perform.mpr trivial) fun head => only_bind ?_ fun descends => ?_
        · cases head with
          | none => exact trivial
          | some head => exact only_perform.mpr trivial
        · split_ifs
          · exact trivial
          · exact trivial

/-- A workspace that passes is the task's, and nothing was changed. -/
theorem keeps_verifyOwnedWorkspace :
    (manager.verifyOwnedWorkspace repository workspace).Keeps (hostServes parents repository)
      (fun w => w = g)
      (fun head _ => OwnedWorkspace repository g (manager.taskUuid workspace.taskId)
        workspace.branch workspace.workspacePath head) g := by
  unfold verifyOwnedWorkspace
  dsimp only
  refine keeps_bind (keeps_reads (only_inHost only_ofExcept)) ?_
  rintro expectedPath w rfl _
  split_ifs with hpath
  · exact keeps_refuse
  rw [not_not] at hpath
  subst hpath
  refine keeps_bind (keeps_hostRead trivial) ?_
  rintro worktrees w' rfl hlisted
  have hlist := answer_of_git .worktreeList (fun _ h => Except.ok.inj h.1) hlisted
  rw [hlist]
  cases hat : w'.clone.worktrees.find? fun worktree =>
      worktree.path = workspace.workspacePath with
  | none => exact keeps_refuse
  | some worktree =>
      dsimp only
      refine keeps_bind keeps_readMarker ?_
      rintro marker w rfl hmarker
      split_ifs with htask
      · exact keeps_refuse
      rw [not_not, hmarker] at htask
      refine keeps_bind (keeps_returns (keeps_reads reads_verifyReusableWorktree)
        (returns_inHost returns_verifyReusableWorktree)) ?_
      rintro _ w' rfl ⟨_, hbranch, hreason⟩
      refine keeps_mono (fun _ h => h) ?_ keeps_verifyGitDirectory
      rintro head _ _ ⟨hdirectory, htip⟩
      exact ⟨htask, ⟨worktree, hat, hbranch, hreason⟩, hdirectory, htip⟩

end Verified

end WorkspaceManager

/-! ## What an operation may change -/

/-- The worktree at the path is the task's. -/
def TaskWorktree (repository : RegisteredClone) (taskId branch : String) (g : Host)
    (path : String) : Prop :=
  ∃ worktree, g.clone.worktreeAt path = some worktree ∧ worktree.branch = some branch ∧
    worktree.lockReason = some (worktreeLockReason taskId repository.name)

/-- From `g` to `g'`, only what is the task's has changed, and no commit was lost. -/
structure Confined (parents : Commit → List Commit) (repository : RegisteredClone)
    (taskId branch : String) (g g' : Host) : Prop where
  refs : ∀ name, name ≠ branch → g'.clone.refs (.branch name) = g.clone.refs (.branch name)
  grows : g'.clone.refs (.branch branch) = g.clone.refs (.branch branch) ∨
    (g.clone.markers branch).task = some taskId ∧ ∃ head commit,
      g.clone.refs (.branch branch) = some head ∧ g'.clone.refs (.branch branch) = some commit ∧
        IsAncestor parents head commit
  markers : g'.clone.markers = g.clone.markers
  remote : ∀ name, g'.clone.remote name = g.clone.remote name ∨ name = branch ∧
    ∃ commit, g'.clone.remote name = some commit ∧
      ∀ old, g.clone.remote name = some old → IsAncestor parents old commit
  foreign : g'.foreign = g.foreign
  worktrees : ∀ path, g'.clone.worktreeAt path = g.clone.worktreeAt path ∨
    TaskWorktree repository taskId branch g path

theorem worktreeAt_mapWorktree {g : Host} {path other : String} {change : Worktree → Worktree}
    (hother : other ≠ path) (hpath : ∀ worktree, (change worktree).path = worktree.path) :
    (g.mapWorktree path change).clone.worktreeAt other = g.clone.worktreeAt other := by
  unfold Host.mapWorktree GitState.worktreeAt
  dsimp only
  induction g.clone.worktrees with
  | nil => rfl
  | cons worktree worktrees ih =>
      rw [List.map_cons, List.find?_cons, List.find?_cons, ih]
      by_cases hat : worktree.path = path
      · have hne : worktree.path ≠ other := fun h => hother (h.symm.trans hat)
        rw [if_pos hat, hpath worktree]
        simp only [hne, decide_false]
      · rw [if_neg hat]

theorem worktreeAt_mapWorktree_self {g : Host} {path : String} {change : Worktree → Worktree}
    (hpath : ∀ worktree, (change worktree).path = worktree.path) :
    (g.mapWorktree path change).clone.worktreeAt path =
      (g.clone.worktreeAt path).map change := by
  unfold Host.mapWorktree GitState.worktreeAt
  dsimp only
  induction g.clone.worktrees with
  | nil => rfl
  | cons worktree worktrees ih =>
      rw [List.map_cons, List.find?_cons, List.find?_cons, ih]
      by_cases hat : worktree.path = path
      · have hkept : (change worktree).path = path := (hpath worktree).trans hat
        rw [if_pos hat]
        simp only [hkept, hat, decide_true, Option.map_some]
      · rw [if_neg hat]
        simp only [hat, decide_false]

theorem worktreeAt_removeWorktree {g : Host} {path other : String} (hother : other ≠ path) :
    (g.removeWorktree path).clone.worktreeAt other = g.clone.worktreeAt other := by
  unfold Host.removeWorktree GitState.worktreeAt
  dsimp only
  induction g.clone.worktrees with
  | nil => rfl
  | cons worktree worktrees ih =>
      by_cases hat : worktree.path = path
      · have hne : worktree.path ≠ other := fun h => hother (h.symm.trans hat)
        rw [List.filter_cons_of_neg (by simpa using hat), ih, List.find?_cons]
        simp only [hne, decide_false]
      · rw [List.filter_cons_of_pos (by simpa using hat), List.find?_cons, List.find?_cons, ih]

section Confined

variable {parents : Commit → List Commit} {repository : RegisteredClone}
  {taskId branch path : String} {g w : Host}

theorem Confined.refl : Confined parents repository taskId branch g g :=
  ⟨fun _ _ => rfl, Or.inl rfl, rfl, fun _ => Or.inl rfl, rfl, fun _ => Or.inl rfl⟩

/-- A change of the task's own worktree. -/
theorem Confined.mapWorktree (h : Confined parents repository taskId branch g w)
    (howned : TaskWorktree repository taskId branch g path) {change : Worktree → Worktree}
    (hpath : ∀ worktree, (change worktree).path = worktree.path) :
    Confined parents repository taskId branch g (w.mapWorktree path change) where
  refs := h.refs
  grows := h.grows
  markers := h.markers
  remote := h.remote
  foreign := h.foreign
  worktrees other := by
    by_cases hother : other = path
    · rw [hother]
      exact Or.inr howned
    · rw [worktreeAt_mapWorktree hother hpath]
      exact h.worktrees other

theorem Confined.removeWorktree (h : Confined parents repository taskId branch g w)
    (howned : TaskWorktree repository taskId branch g path) :
    Confined parents repository taskId branch g (w.removeWorktree path) where
  refs := h.refs
  grows := h.grows
  markers := h.markers
  remote := h.remote
  foreign := h.foreign
  worktrees other := by
    by_cases hother : other = path
    · rw [hother]
      exact Or.inr howned
    · rw [worktreeAt_removeWorktree hother]
      exact h.worktrees other

theorem Confined.removePath (h : Confined parents repository taskId branch g w) :
    Confined parents repository taskId branch g (w.removePath path) :=
  ⟨h.refs, h.grows, h.markers, h.remote, h.foreign, h.worktrees⟩

/-- A fetch moves a remote-tracking ref. -/
theorem Confined.fetched (h : Confined parents repository taskId branch g w)
    {remote name : String} {commit : Commit} :
    Confined parents repository taskId branch g
      { w with clone := w.clone.setRef (.tracking remote name) commit } := by
  have hsame : ∀ other, (w.clone.setRef (.tracking remote name) commit).refs (.branch other) =
      w.clone.refs (.branch other) := by
    intro other
    simp [GitState.setRef]
  constructor
  · intro other hother
    exact (hsame other).trans (h.refs other hother)
  · change (w.clone.setRef (.tracking remote name) commit).refs (.branch branch) = _ ∨ _
    rw [hsame branch]
    exact h.grows
  · exact h.markers
  · exact h.remote
  · exact h.foreign
  · exact h.worktrees

/-- A push that the remote accepts without force. -/
theorem Confined.pushed (h : Confined parents repository taskId branch g w) {commit : Commit}
    (hforward : ∀ old, w.clone.remote branch = some old → IsAncestor parents old commit) :
    Confined parents repository taskId branch g (w.setRemote branch commit) where
  refs := h.refs
  grows := h.grows
  markers := h.markers
  foreign := h.foreign
  worktrees := h.worktrees
  remote name := by
    by_cases hname : name = branch
    · subst hname
      refine Or.inr ⟨rfl, commit, if_pos rfl, ?_⟩
      intro old hold
      rcases h.remote name with hsame | ⟨_, moved, hmoved, hancestor⟩
      · exact hforward old (hsame.trans hold)
      · exact (hforward moved hmoved).trans (hancestor old hold)
    · have hsame : (w.setRemote branch commit).clone.remote name = w.clone.remote name :=
        if_neg hname
      rw [hsame]
      exact h.remote name

theorem Host.directoryAt_of_replaced {directory : Option GitDirectory}
    (h : g.replaced path = some directory) : g.directoryAt repository path = directory := by
  unfold Host.directoryAt
  rw [h]

theorem Host.directoryAt_of_intact (h : g.replaced path = none) :
    g.directoryAt repository path = (g.clone.worktreeAt path).map fun worktree =>
      ⟨repository.gitDirectory, worktree.branch, worktree.detachedHead⟩ := by
  unfold Host.directoryAt
  rw [h]

/-- In a verified worktree HEAD is the task's branch. -/
theorem OwnedWorkspace.moveHead_eq {head : Commit}
    (h : OwnedWorkspace repository g taskId branch path head) (commit : Commit) :
    g.moveHead repository path commit =
      { g with clone := g.clone.setRef (.branch branch) commit } := by
  obtain ⟨directory, hat, hown, hbranch⟩ := h.directory
  unfold Host.moveHead
  rw [hat]
  dsimp only
  rw [hbranch]
  exact if_pos hown

/-- HEAD of a verified worktree moves to a descendant. -/
theorem OwnedWorkspace.moveHead {head : Commit}
    (h : OwnedWorkspace repository g taskId branch path head) {commit : Commit}
    (hancestor : IsAncestor parents head commit) :
    Confined parents repository taskId branch g (g.moveHead repository path commit) := by
  rw [h.moveHead_eq]
  constructor
  · intro name hname
    refine if_neg ?_
    intro hsame
    exact hname (GitRef.branch.inj hsame)
  · exact Or.inr ⟨h.task, head, commit, h.tip, if_pos rfl, hancestor⟩
  · rfl
  · exact fun _ => Or.inl rfl
  · rfl
  · exact fun _ => Or.inl rfl

/-- Commands run in a Git directory of the clone as long as the `.git` file and the registered
branch are the same. -/
theorem OwnedWorkspace.directory_of_kept {head : Commit}
    (h : OwnedWorkspace repository g taskId branch path head)
    (hreplaced : w.replaced = g.replaced) (hresolves : w.clone.resolves = g.clone.resolves)
    (hworktree : ∃ worktree, w.clone.worktreeAt path = some worktree ∧
      worktree.branch = some branch) :
    ∃ directory, w.directoryAt repository path = some directory ∧
      w.Own repository directory ∧ directory.branch = some branch := by
  obtain ⟨worktree, hat, hon⟩ := hworktree
  cases hfile : w.replaced path with
  | some replaced =>
      obtain ⟨directory, hdirectory, hown, hbranch⟩ := h.directory
      have hbefore : g.replaced path = some replaced := by
        rw [← hreplaced]
        exact hfile
      rw [Host.directoryAt_of_replaced hbefore] at hdirectory
      refine ⟨directory, (Host.directoryAt_of_replaced hfile).trans hdirectory, ?_, hbranch⟩
      unfold Host.Own
      rw [hresolves]
      exact hown
  | none =>
      refine ⟨⟨repository.gitDirectory, worktree.branch, worktree.detachedHead⟩, ?_, rfl, hon⟩
      rw [Host.directoryAt_of_intact hfile, hat]
      rfl

/-- The worktree is still the task's after HEAD has moved. -/
theorem OwnedWorkspace.moved {head : Commit}
    (h : OwnedWorkspace repository g taskId branch path head) (commit : Commit)
    {change : Worktree → Worktree}
    (hkeeps : ∀ worktree, (change worktree).path = worktree.path ∧
      (change worktree).branch = worktree.branch ∧
        (change worktree).lockReason = worktree.lockReason) :
    OwnedWorkspace repository ((g.moveHead repository path commit).mapWorktree path change)
      taskId branch path commit := by
  obtain ⟨worktree, hworktree, hon, hreason⟩ := h.worktree
  rw [h.moveHead_eq]
  have hthere : ((Host.mk (g.clone.setRef (.branch branch) commit) g.replaced
      g.foreign).mapWorktree path change).clone.worktreeAt path = some (change worktree) := by
    rw [worktreeAt_mapWorktree_self fun worktree => (hkeeps worktree).1]
    exact congrArg (Option.map change) hworktree
  constructor
  · exact h.task
  · refine ⟨change worktree, hthere, ?_, ?_⟩
    · rw [(hkeeps worktree).2.1]
      exact hon
    · rw [(hkeeps worktree).2.2]
      exact hreason
  · exact h.directory_of_kept rfl rfl ⟨_, hthere, (hkeeps worktree).2.1.trans hon⟩
  · exact if_pos rfl

theorem OwnedWorkspace.headAt {head : Commit}
    (h : OwnedWorkspace repository g taskId branch path head) :
    g.headAt repository path = some head := by
  obtain ⟨directory, hat, hown, hbranch⟩ := h.directory
  unfold Host.headAt
  rw [hat, Option.bind_some]
  unfold Host.headOf
  rw [hbranch]
  exact (if_pos hown).trans h.tip

end Confined

end Orchestrator
