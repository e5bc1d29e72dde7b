import Orchestrator.Execution.CommitLog
import Orchestrator.Execution.SecretScan
import Orchestrator.Execution.Stages.RoutineCalls
import Orchestrator.Kit.Record

/-! # Nothing unreviewed leaves the host

Every push of an execution of the pull-request stage is preceded, in the record of that
execution, by the checkpoints that approve the pushed commit, and the commits between the base and
the pushed one, and their change, are what they have to be. What the worktrees contain meanwhile
does not matter: services may answer anything, as long as Git renders the commits of a range and
their change for the commit ids that it is given.
-/

namespace Orchestrator

open Kit TaskState

/-! ## The repositories -/

/-- What is in the repositories, by commit id. -/
structure GitObjects where
  /-- Commits reachable from `head` but not `base`. -/
  commits (base head : String) : List LoggedCommit
  /-- The cumulative change from `base` to `head`. -/
  change (base head : String) : StagedChange

/-- Git writes what is there, whatever the worktree in which it runs contains at the time. -/
structure Services.Truthful {ω : Type} (services : Services ω) (git : GitObjects) : Prop where
  log : ∀ {outside outside' workspacePath base head output},
    services outside (.gitLog workspacePath base head) (.ok output) outside' →
      output = logOutput (git.commits base head)
  raw : ∀ {outside outside' workspacePath base head output},
    services outside (.gitDiff workspacePath (.range base head) .raw) (.ok output) outside' →
      output = rawOutput (git.change base head).files
  numstat : ∀ {outside outside' workspacePath base head output},
    services outside (.gitDiff workspacePath (.range base head) .numstat) (.ok output) outside' →
      output = numstatOutput (git.change base head).files
  patch : ∀ {outside outside' workspacePath base head output},
    services outside (.gitDiff workspacePath (.range base head) .patch) (.ok output) outside' →
      output = patchOutput (git.change base head).patch

/-! ## Reviewed commits -/

abbrev StageAnswer := Answered StageError StageCall.Answer

/-- The record has a committed answer to the database call. -/
def Read (record : List StageAnswer) (call : DatabaseCall) (value : call.Answer) : Prop :=
  (⟨.database call, .ok value⟩ : StageAnswer) ∈ record

/-- The checkpoints read before record the commit as the head of the repository, and the same
heads for the others. -/
structure ApprovedBefore (record : List StageAnswer) (approved : ReviewApproved)
    (passed : QualityPassed) : Prop where
  review : Read record (.getCheckpoint .reviewApproved) (some (.reviewApproved approved))
  quality : Read record (.getCheckpoint .qualityPassed) (some (.qualityPassed passed))
  same : ∀ repository, approved.heads.lookup repository = passed.heads.lookup repository

/-- The commit was made by the orchestrator, on one parent, for this task. -/
def OrchestratorCommit (deps : DeliveryDependencies) (task : Task) : LoggedCommit → Prop :=
  LoggedCommit.MadeBy deps.commitAuthor.name deps.commitAuthor.email (toString task.id)

/-- The change as the diff policy got it: all of its files, and the texts of its added lines. The
end of an added line that ends the patch is not looked at if it is white space. -/
structure Scanned (change : StagedChange) (repository : String) (changes : RepositoryChanges) :
    Prop where
  repository : changes.repository = repository
  files : changes.files = change.files.map StagedFile.changed
  unskipped : changes.patchSkipped = false
  texts : (∀ line, lastAdded change.patch = some line → endsBlank line.text = false) →
    scannedTexts changes = change.addedTexts

/-- What the commits on top of the base, and their cumulative change, have to be. -/
structure BranchVerified (git : GitObjects) (deps : DeliveryDependencies) (task : Task)
    (repository base head : String) : Prop where
  commits : ∀ commit ∈ git.commits base head, OrchestratorCommit deps task commit
  content : ∃ changes, Scanned (git.change base head) repository changes ∧
    ∀ violation ∈ evaluateChanges deps.diffContext [changes], violation.rule ∉ cumulativeRules

/-- What is established about a commit before it is pushed to the branch of a work unit. -/
structure Reviewed (git : GitObjects) (deps : DeliveryDependencies) (task : Task)
    (record : List StageAnswer) (repository branch commit : String) : Prop where
  approved : ∃ approved passed, ApprovedBefore record approved passed ∧
    approved.heads.lookup repository = some commit ∧ passed.heads.lookup repository = some commit
  unit : ∃ rows row base, Read record .getWorkUnits rows ∧ row ∈ rows ∧
    row.repository = repository ∧ row.branch = some branch ∧ row.baseCommit = some base ∧
    BranchVerified git deps task repository base commit

/-- A push is of a reviewed commit, to the branch of its work unit. -/
def PushReviewed (git : GitObjects) (deps : DeliveryDependencies) (task : Task)
    (record : List StageAnswer) (entry : StageAnswer) : Prop :=
  ∀ repository remote refspec, entry.name = .service (.gitPush repository remote refspec) →
    ∃ commit branch, refspec = s!"{commit}:refs/heads/{branch}" ∧
      Reviewed git deps task record repository branch commit

/-! ## What the stage knows of its record -/

/-- The row of a loaded unit. -/
structure UnitOf (row : WorkUnitRow) (unit : LoadedUnit) : Prop where
  repository : row.repository = unit.repository
  branch : row.branch = some unit.branch
  baseCommit : row.baseCommit = some unit.baseCommit

theorem repositories_of_unitOf {rows : List WorkUnitRow} {units : List LoadedUnit}
    (h : List.Forall₂ UnitOf rows units) :
    rows.map (·.repository) = units.map (·.repository) := by
  induction h with
  | nil => rfl
  | cons hrow _ ih => rw [List.map_cons, List.map_cons, hrow.repository, ih]

theorem row_of_unitOf {rows : List WorkUnitRow} {units : List LoadedUnit} {unit : LoadedUnit}
    (h : List.Forall₂ UnitOf rows units) (hunit : unit ∈ units) :
    ∃ row ∈ rows, UnitOf row unit := by
  induction h with
  | nil => cases hunit
  | cons hrow _ ih =>
      rcases List.mem_cons.mp hunit with rfl | hrest
      · exact ⟨_, List.mem_cons_self, hrow⟩
      · rcases ih hrest with ⟨row, hmem, hof⟩
        exact ⟨row, List.mem_cons_of_mem _ hmem, hof⟩

/-- The work units that were read, and loaded. -/
def UnitsRead (loaded : LoadedWorkspaces) (record : List StageAnswer) : Prop :=
  (loaded.units.map (·.repository)).Nodup ∧
    ∃ rows, Read record .getWorkUnits rows ∧ List.Forall₂ UnitOf rows loaded.units

/-- The part of the stage before the attempt has approved the loaded heads. -/
def HeadsApproved (loaded : LoadedWorkspaces) (record : List StageAnswer) : Prop :=
  UnitsRead loaded record ∧ ∃ approved passed,
    Read record (.getCheckpoint .reviewApproved) (some (.reviewApproved approved)) ∧
    Read record (.getCheckpoint .qualityPassed) (some (.qualityPassed passed)) ∧
    sameHeads approved.heads loaded.heads = true ∧ sameHeads passed.heads loaded.heads = true

theorem Read.snoc {record : List StageAnswer} {call : DatabaseCall} {value : call.Answer}
    (h : Read record call value) (entry : StageAnswer) : Read (record ++ [entry]) call value :=
  List.mem_append_left [entry] h

/-- What a checkpoint read gave is in the record. -/
def CheckpointRead {T : Type} (key : CheckpointKey) (wrap : T → CheckpointPayload)
    (found : Option T) (record : List StageAnswer) : Prop :=
  ∀ value, found = some value → Read record (.getCheckpoint key) (some (wrap value))

theorem CheckpointRead.snoc {T : Type} {key : CheckpointKey} {wrap : T → CheckpointPayload}
    {found : Option T} {record : List StageAnswer} (h : CheckpointRead key wrap found record)
    (entry : StageAnswer) : CheckpointRead key wrap found (record ++ [entry]) := by
  intro value hvalue
  exact (h value hvalue).snoc entry

theorem UnitsRead.snoc {loaded : LoadedWorkspaces} {record : List StageAnswer}
    (h : UnitsRead loaded record) (entry : StageAnswer) : UnitsRead loaded (record ++ [entry]) := by
  rcases h with ⟨hdistinct, rows, hread, hrest⟩
  exact ⟨hdistinct, rows, hread.snoc entry, hrest⟩

theorem HeadsApproved.snoc {loaded : LoadedWorkspaces} {record : List StageAnswer}
    (h : HeadsApproved loaded record) (entry : StageAnswer) :
    HeadsApproved loaded (record ++ [entry]) := by
  rcases h with ⟨hunits, approved, passed, happroved, hpassed, hrest⟩
  exact ⟨hunits.snoc entry, approved, passed, happroved.snoc entry, hpassed.snoc entry, hrest⟩

/-! ## Equal heads -/

theorem lookup_eq_none_of_notMem {heads : Heads} {repository : String}
    (h : repository ∉ heads.map (·.1)) : heads.lookup repository = none := by
  rw [List.lookup_eq_none_iff]
  intro entry hentry
  have hne : repository ≠ entry.1 := by
    rintro rfl
    exact h (List.mem_map_of_mem hentry)
  simpa using hne

theorem lookup_of_sameHeads {left right : Heads} (h : sameHeads left right = true)
    (repository : String) : left.lookup repository = right.lookup repository := by
  by_cases hmem : repository ∈ left.map (·.1) ++ right.map (·.1)
  · exact of_decide_eq_true (List.all_eq_true.mp h repository hmem)
  · rw [List.mem_append, not_or] at hmem
    rw [lookup_eq_none_of_notMem hmem.1, lookup_eq_none_of_notMem hmem.2]

/-- A loaded unit's head is the one recorded for its repository. -/
theorem lookup_heads {units : List LoadedUnit} {unit : LoadedUnit}
    (hdistinct : (units.map (·.repository)).Nodup) (hunit : unit ∈ units) :
    (units.map fun unit => (unit.repository, unit.head)).lookup unit.repository =
      some unit.head := by
  induction units with
  | nil => cases hunit
  | cons first units ih =>
      rw [List.map_cons, List.nodup_cons] at hdistinct
      rcases List.mem_cons.mp hunit with rfl | hrest
      · exact List.lookup_cons_self
      · have hne : unit.repository ≠ first.repository := by
          intro heq
          apply hdistinct.1
          rw [← heq]
          exact List.mem_map_of_mem hrest
        rw [List.map_cons, List.lookup_cons, beq_false_of_ne hne]
        exact ih hdistinct.2 hrest

theorem nodup_getWorkUnits (tables : StageTables) (taskId : TaskId) :
    ((tables.getWorkUnits taskId).map (·.repository)).Nodup := by
  have hunits : ((tables.getWorkUnits taskId).map WorkUnitRow.unit).Nodup := by
    unfold StageTables.getWorkUnits
    rw [(List.perm_insertionSort _ _).map WorkUnitRow.unit |>.nodup_iff]
    exact tables.taskWorkUnits.keysNodup.sublist (List.filter_sublist.map WorkUnitRow.unit)
  -- The rows are those of one task, so that their repositories tell them apart.
  refine List.Nodup.of_map (fun repository => (taskId, repository)) ?_
  rw [List.map_map]
  refine Eq.subst (motive := List.Nodup) ?_ hunits
  apply List.map_congr_left
  intro row hrow
  unfold WorkUnitRow.unit
  rw [(StageTables.mem_getWorkUnits.mp hrow).2]
  rfl

/-! ## Executions -/

section Executions

variable {ω : Type} {services : Services ω} {writer : StageWriter} {git : GitObjects}
  {deps : DeliveryDependencies} {task : Task} {I : List StageAnswer → Prop}
  {w : StageWorld ω × List StageAnswer}

theorem pushReviewed_of_routine {call : StageCall} (hcall : call.routine = true)
    (record : List StageAnswer) (answer : Except StageError call.Answer) :
    PushReviewed git deps task record ⟨call, answer⟩ := by
  intro repository remote refspec hpush
  have hname : call = .service (.gitPush repository remote refspec) := hpush
  rw [hname] at hcall
  cases hcall

/-- Routine calls keep what the stage knows of its record. -/
theorem keeps_pushesNothing {α : Type} {procedure : StageProc α} (h : Routine procedure)
    (hlasts : ∀ record entry, I record → I (record ++ [entry]))
    (hw : GuardedWith (PushReviewed git deps task) I w) :
    procedure.Keeps (recording (serves services writer))
      (GuardedWith (PushReviewed git deps task) I) (fun _ _ => True) w :=
  keeps_guarded_of_only h hlasts
    (fun record _ answer hcall _ => pushReviewed_of_routine hcall record answer) hw

/-- A read is recorded with the value it returns. -/
theorem keeps_read {call : DatabaseCall} {Q : call.Answer → StageWorld ω × List StageAnswer → Prop}
    (hroutine : (StageCall.database call).routine = true)
    (hlasts : ∀ record entry, I record → I (record ++ [entry]))
    (hw : GuardedWith (PushReviewed git deps task) I w)
    (hanswer : ∀ holds now tables value w', call.perform writer holds now w.1.tables =
      .ok (tables, value) → Q value (w', w.2 ++ [⟨.database call, .ok value⟩])) :
    (database call).Keeps (recording (serves services writer))
      (GuardedWith (PushReviewed git deps task) I) Q w := by
  refine @keeps_guarded _ _ StageCall.Answer _ _ _ _ (.database call) Q _ hw
    (fun entry => hlasts _ entry hw.2) (pushReviewed_of_routine hroutine _) ?_
  rintro value w' (⟨holds, now, tables, answer, hperform, _, hvalue⟩ | ⟨_, failure, hvalue, _⟩)
  · rcases hvalue with hvalue | ⟨message, hvalue⟩
    · cases hvalue
      exact hanswer holds now tables value w' hperform
    · cases hvalue
  · cases hvalue

theorem keeps_report {call : ServiceCall} {Q : call.Answer → StageWorld ω × List StageAnswer → Prop}
    (hroutine : (StageCall.service call).routine = true)
    (hlasts : ∀ record entry, I record → I (record ++ [entry]))
    (hw : GuardedWith (PushReviewed git deps task) I w)
    (hanswer : ∀ value outside w', services w.1.outside call (.ok value) outside → Q value w') :
    (service call).Keeps (recording (serves services writer))
      (GuardedWith (PushReviewed git deps task) I) Q w := by
  refine @keeps_guarded _ _ StageCall.Answer _ _ _ _ (.service call) Q _ hw
    (fun entry => hlasts _ entry hw.2) (pushReviewed_of_routine hroutine _) ?_
  rintro value w' ⟨outside, hserves, _⟩
  exact hanswer value outside _ hserves

/-! ### Before the attempt -/

theorem returns_loadUnit (deps : StageDependencies) (task : Task) (row : WorkUnitRow) :
    (loadUnit deps task row).Returns (UnitOf row) := by
  unfold loadUnit
  split
  · rename_i workspacePath branch baseCommit hpath hbranch hbase
    refine returns_rest ?_
    intro head
    exact ⟨rfl, hbranch, hbase⟩
  · exact trivial

/-- The loaded units are those that were read. -/
theorem keeps_loadTaskWorkspaces (hlasts : ∀ record entry, I record → I (record ++ [entry]))
    (hw : GuardedWith (PushReviewed git deps task) I w) :
    (loadTaskWorkspaces deps.toStageDependencies task).Keeps (recording (serves services writer))
      (GuardedWith (PushReviewed git deps task) I)
      (fun loaded w' => UnitsRead loaded w'.2) w := by
  refine keeps_bind (keeps_pushesNothing routine_validatedContract hlasts hw) ?_
  intro contract w₁ hw₁ _
  refine keeps_bind (R := fun rows w' => Read w'.2 .getWorkUnits rows ∧
    (rows.map (·.repository)).Nodup) (keeps_read rfl hlasts hw₁ ?_) ?_
  · intro holds now tables value w' hperform
    cases hperform
    exact ⟨List.mem_append_right _ (List.mem_singleton_self _), nodup_getWorkUnits _ _⟩
  intro rows w₂ hw₂ hread
  split_ifs
  · exact keeps_throw hw₂
  refine keeps_bind (R := fun units w' => List.Forall₂ UnitOf rows units ∧
    Read w'.2 .getWorkUnits rows) ?_ ?_
  · -- The loop loads the rows in their order.
    refine keeps_mono (fun _ hkept => ⟨hkept.1, hkept.2.1⟩)
      (fun units w' hkept hunits => ⟨hunits, hkept.2.2⟩)
      (keeps_each (I := GuardedWith (PushReviewed git deps task) fun record =>
        I record ∧ Read record .getWorkUnits rows)
        (fun done units _ => List.Forall₂ UnitOf done units) ?_ ?_ ⟨hw₂.1, hw₂.2, hread.1⟩ .nil)
    · intro done row rest units w' _ hw' hdone
      refine keeps_mono (fun _ hkept => hkept) (fun unit _ _ hunit => ?_)
        (keeps_returns (keeps_pushesNothing (routine_loadUnit row) ?_ hw')
          (returns_loadUnit deps.toStageDependencies task row))
      · exact List.rel_append hdone (.cons hunit.2 .nil)
      · intro record entry hkept
        exact ⟨hlasts record entry hkept.1, hkept.2.snoc entry⟩
    · intro units w' _ hunits
      exact hunits
  · intro units w₃ hw₃ hunits
    refine keeps_pure hw₃ ⟨?_, rows, hunits.2, hunits.1⟩
    rw [← repositories_of_unitOf hunits.1]
    exact hread.2

/-- A checkpoint that is returned was read. -/
theorem keeps_readCheckpoint_recorded {T : Type} {key : CheckpointKey}
    {parse : CheckpointPayload → Option T} {wrap : T → CheckpointPayload}
    (hparse : ∀ payload value, parse payload = some value → payload = wrap value)
    (hlasts : ∀ record entry, I record → I (record ++ [entry]))
    (hw : GuardedWith (PushReviewed git deps task) I w) :
    (readCheckpoint key parse).Keeps (recording (serves services writer))
      (GuardedWith (PushReviewed git deps task) I)
      (fun found w' => CheckpointRead key wrap found w'.2) w := by
  unfold readCheckpoint
  refine keeps_bind (R := fun found w' => Read w'.2 (.getCheckpoint key) found)
    (keeps_read rfl hlasts hw ?_) ?_
  · intro holds now tables value w' _
    exact List.mem_append_right _ (List.mem_singleton_self _)
  rintro (_ | payload) w₁ hw₁ hread
  · exact keeps_pure hw₁ nofun
  · cases hvalue : parse payload with
    | none =>
        dsimp only
        rw [hvalue]
        exact keeps_throw hw₁
    | some value =>
        dsimp only
        rw [hvalue]
        refine keeps_pure hw₁ ?_
        intro other hother
        cases hother
        rw [← hparse payload value hvalue]
        exact hread

theorem keeps_readReviewApproved (hlasts : ∀ record entry, I record → I (record ++ [entry]))
    (hw : GuardedWith (PushReviewed git deps task) I w) :
    readReviewApproved.Keeps (recording (serves services writer))
      (GuardedWith (PushReviewed git deps task) I)
      (fun found w' => CheckpointRead .reviewApproved .reviewApproved found w'.2) w := by
  refine keeps_readCheckpoint_recorded ?_ hlasts hw
  intro payload value hparse
  cases payload with
  | reviewApproved value' =>
      cases hparse
      rfl
  | _ => cases hparse

theorem keeps_readQualityPassed (hlasts : ∀ record entry, I record → I (record ++ [entry]))
    (hw : GuardedWith (PushReviewed git deps task) I w) :
    readQualityPassed.Keeps (recording (serves services writer))
      (GuardedWith (PushReviewed git deps task) I)
      (fun found w' => CheckpointRead .qualityPassed .qualityPassed found w'.2) w := by
  refine keeps_readCheckpoint_recorded ?_ hlasts hw
  intro payload value hparse
  cases payload with
  | qualityPassed value' =>
      cases hparse
      rfl
  | _ => cases hparse

/-- Checkpoints that approve the loaded heads. -/
theorem headsApproved_of_approvedHeads {loaded : LoadedWorkspaces}
    {approved : Option ReviewApproved} {passed : Option QualityPassed}
    {record : List StageAnswer} (hunits : UnitsRead loaded record)
    (hreview : CheckpointRead .reviewApproved .reviewApproved approved record)
    (hquality : CheckpointRead .qualityPassed .qualityPassed passed record)
    (h : approvedHeads loaded approved passed = true) : HeadsApproved loaded record := by
  cases approved with
  | none => cases h
  | some approved =>
      cases passed with
      | none => cases h
      | some passed =>
          rcases (Bool.and_eq_true_iff).mp h with ⟨hsame, hsame'⟩
          exact ⟨hunits, approved, passed, hreview approved rfl, hquality passed rfl, hsame,
            hsame'⟩

/-- The stage goes on to its attempt only with approved heads. -/
theorem keeps_beginDelivery (hlasts : ∀ record entry, I record → I (record ++ [entry]))
    (hw : GuardedWith (PushReviewed git deps task) I w) :
    (beginDelivery deps task).Keeps (recording (serves services writer))
      (GuardedWith (PushReviewed git deps task) I)
      (fun begun w' => ∀ loaded attempt, begun = .ok (loaded, attempt) →
        HeadsApproved loaded w'.2) w := by
  unfold beginDelivery
  refine keeps_bind (keeps_loadTaskWorkspaces hlasts hw) ?_
  intro loaded w₁ hw₁ hunits
  refine keeps_bind (keeps_lasting (P := UnitsRead loaded) (fun _ entry hlast => hlast.snoc entry)
    hunits (keeps_readReviewApproved hlasts hw₁)) ?_
  rintro approved w₂ hw₂ ⟨hreview, hunits₂⟩
  refine keeps_bind (keeps_lasting (P := fun record => UnitsRead loaded record ∧
    CheckpointRead .reviewApproved .reviewApproved approved record) ?_ ⟨hunits₂, hreview⟩
    (keeps_readQualityPassed hlasts hw₂)) ?_
  · intro record entry hlast
    exact ⟨hlast.1.snoc entry, hlast.2.snoc entry⟩
  rintro passed w₃ hw₃ ⟨hquality, hunits₃, hreview₃⟩
  split_ifs with hunapproved
  · refine keeps_pure hw₃ ?_
    intro loaded' attempt' hbegun
    cases hbegun
  have happroved : approvedHeads loaded approved passed = true := by
    simpa using hunapproved
  refine keeps_bind (keeps_lasting (P := HeadsApproved loaded) (fun _ entry hlast =>
    hlast.snoc entry) (headsApproved_of_approvedHeads hunits₃ hreview₃ hquality happroved)
    (keeps_pushesNothing (only_database.mpr rfl) hlasts hw₃)) ?_
  rintro attempt w₄ hw₄ ⟨_, hlast⟩
  refine keeps_pure hw₄ ?_
  intro loaded' attempt' hbegun
  cases hbegun
  exact hlast

/-! ### The branch -/

/-- A change that was not skipped was scanned. -/
theorem scanned_of_collectedChanges {change : StagedChange} {repository : String} {limit : Nat}
    (h : (collectedChanges repository change limit).patchSkipped = false) :
    Scanned change repository (collectedChanges repository change limit) := by
  by_cases hskip : (change.files.isEmpty ||
      decide (limit < totalLines (change.files.map StagedFile.changed))) = true
  · have hcollected : collectedChanges repository change limit =
        ⟨repository, change.files.map StagedFile.changed, [], !change.files.isEmpty⟩ :=
      if_pos hskip
    rw [hcollected] at h ⊢
    -- Nothing was changed, so there is no added line.
    have hnone : change.files = [] := by simpa using h
    have htexts : change.addedTexts = [] := by
      unfold StagedChange.addedTexts
      rw [hnone]
      rfl
    refine ⟨rfl, rfl, h, ?_⟩
    intro _
    rw [htexts]
    rfl
  · have hcollected : collectedChanges repository change limit =
        ⟨repository, change.files.map StagedFile.changed,
          parseAddedLines (gitOutput (patchOutput change.patch)), false⟩ :=
      if_neg hskip
    rw [hcollected]
    refine ⟨rfl, rfl, rfl, ?_⟩
    intro hends
    have htexts := (texts_gitOutput_iff change.patch).mpr hends
    unfold scannedTexts
    rw [change.addedTexts_eq, ← htexts]

theorem keeps_collectRange (htruthful : services.Truthful git)
    (hlasts : ∀ record entry, I record → I (record ++ [entry]))
    (hw : GuardedWith (PushReviewed git deps task) I w)
    (repository workspacePath base head : String) (limit : Nat) :
    (collectRange repository workspacePath base head limit).Keeps
      (recording (serves services writer)) (GuardedWith (PushReviewed git deps task) I)
      (fun changes _ => changes = collectedChanges repository (git.change base head) limit) w := by
  unfold collectRange collectDiff collectedChanges
  refine keeps_bind (R := fun raw _ => raw = rawOutput (git.change base head).files)
    (keeps_report rfl hlasts hw fun _ _ _ hserves => htruthful.raw hserves) ?_
  rintro raw w₁ hw₁ rfl
  refine keeps_bind (R := fun numstat _ => numstat = numstatOutput (git.change base head).files)
    (keeps_report rfl hlasts hw₁ fun _ _ _ hserves => htruthful.numstat hserves) ?_
  rintro numstat w₂ hw₂ rfl
  dsimp only
  rw [changedFiles_render (git.change base head).different, List.isEmpty_map]
  split_ifs with hskip
  · exact keeps_pure hw₂ rfl
  · refine keeps_bind (R := fun patch _ => patch = patchOutput (git.change base head).patch)
      (keeps_report rfl hlasts hw₂ fun _ _ _ hserves => htruthful.patch hserves) ?_
    rintro patch w₃ hw₃ rfl
    exact keeps_pure hw₃ rfl

theorem madeBy_of_commitProblem {unit : LoadedUnit} {commit : RangeCommit}
    (h : commitProblem deps task unit commit = none) :
    commit.MadeBy deps.commitAuthor.name deps.commitAuthor.email (toString task.id) := by
  unfold commitProblem at h
  dsimp only at h
  split_ifs at h with hauthor hparents htrailers
  rw [not_or, not_not, not_not] at hauthor
  exact ⟨hauthor.2, hauthor.1, not_not.mp hparents, not_not.mp htrailers⟩

/-- Commits without a problem are the orchestrator's. -/
theorem orchestratorCommit_of_parsed {unit : LoadedUnit} {commits : List LoggedCommit}
    (h : (parseRangeCommits (gitOutput (logOutput commits))).findSome?
      (commitProblem deps task unit) = none) :
    ∀ commit ∈ commits, OrchestratorCommit deps task commit := by
  have hread := List.findSome?_eq_none_iff.mp h
  rw [parseRangeCommits_logOutput] at hread
  intro commit hcommit
  apply LoggedCommit.madeBy_of_record Nat.repr_ne_empty
  · intro character hmem
    exact not_separatesTrailers_of_isDigit (isDigit_of_mem_toString hmem)
  · intro parsed hparsed
    exact madeBy_of_commitProblem (hread parsed (List.mem_flatMap.mpr ⟨commit, hcommit, hparsed⟩))

/-- A branch that passes is verified. -/
theorem keeps_verifyBranchContent (htruthful : services.Truthful git)
    (hlasts : ∀ record entry, I record → I (record ++ [entry]))
    (hw : GuardedWith (PushReviewed git deps task) I w) (unit : LoadedUnit) :
    (verifyBranchContent deps task unit).Keeps (recording (serves services writer))
      (GuardedWith (PushReviewed git deps task) I)
      (fun _ _ => BranchVerified git deps task unit.repository unit.baseCommit unit.head) w := by
  unfold verifyBranchContent
  split_ifs
  · exact keeps_throw hw
  let logged := logOutput (git.commits unit.baseCommit unit.head)
  refine keeps_bind (R := fun commits _ => commits = parseRangeCommits (gitOutput logged)) ?_ ?_
  · refine keeps_bind (R := fun output _ => output = logged)
      (keeps_report rfl hlasts hw fun _ _ _ hserves => htruthful.log hserves) ?_
    rintro output w' hw' rfl
    exact keeps_pure hw' rfl
  intro commits w₁ hw₁ hcommits
  rw [hcommits]
  -- No commit of the log is refused.
  cases hproblem : (parseRangeCommits (gitOutput logged)).findSome?
      (commitProblem deps task unit) with
  | some problem => exact keeps_throw hw₁
  | none =>
      refine keeps_bind (keeps_collectRange htruthful hlasts hw₁ _ _ _ _ _) ?_
      intro changes w₂ hw₂ hchanges
      dsimp only
      -- The whole range was scanned, and no rule of delivery is broken.
      split_ifs with hskipped hviolations
      · exact keeps_throw hw₂
      · exact keeps_throw hw₂
      · refine keeps_pure hw₂ ⟨orchestratorCommit_of_parsed hproblem, changes, ?_, ?_⟩
        · rw [hchanges] at hskipped ⊢
          exact scanned_of_collectedChanges (Bool.not_eq_true _ ▸ hskipped)
        · intro violation hviolation hrule
          rw [not_not] at hviolations
          have hmem : violation ∈ cumulativeViolations deps changes :=
            List.mem_filter.mpr ⟨hviolation, List.contains_iff_mem.mpr hrule⟩
          rw [hviolations] at hmem
          cases hmem

/-! ### The push -/

/-- The head of a loaded unit whose branch was verified is a reviewed commit. -/
theorem reviewed_of_headsApproved {loaded : LoadedWorkspaces} {record : List StageAnswer}
    {unit : LoadedUnit} (h : HeadsApproved loaded record) (hunit : unit ∈ loaded.units)
    (hverified : BranchVerified git deps task unit.repository unit.baseCommit unit.head) :
    Reviewed git deps task record unit.repository unit.branch unit.head := by
  rcases h with
    ⟨⟨hdistinct, rows, hrows, hunits⟩, approved, passed, hreview, hquality, happroved, hpassed⟩
  have hhead : loaded.heads.lookup unit.repository = some unit.head :=
    lookup_heads hdistinct hunit
  constructor
  · refine ⟨approved, passed, ⟨hreview, hquality, ?_⟩, ?_, ?_⟩
    · intro repository
      rw [lookup_of_sameHeads happroved, lookup_of_sameHeads hpassed]
    · rw [lookup_of_sameHeads happroved, hhead]
    · rw [lookup_of_sameHeads hpassed, hhead]
  · rcases row_of_unitOf hunits hunit with ⟨row, hrow, hof⟩
    exact ⟨rows, row, unit.baseCommit, hrows, hrow, hof.repository, hof.branch, hof.baseCommit,
      hverified⟩

/-- One round of the loop pushes nothing but the head of its unit. -/
theorem keeps_deliverUnit (htruthful : services.Truthful git) {loaded : LoadedWorkspaces}
    {unit : LoadedUnit} (hunit : unit ∈ loaded.units)
    (hw : GuardedWith (PushReviewed git deps task) (HeadsApproved loaded) w) :
    (deliverUnit deps task unit).Keeps (recording (serves services writer))
      (GuardedWith (PushReviewed git deps task) (HeadsApproved loaded)) (fun _ _ => True) w := by
  have hlasts : ∀ record entry, HeadsApproved loaded record →
      HeadsApproved loaded (record ++ [entry]) :=
    fun _ entry hlast => hlast.snoc entry
  unfold deliverUnit
  refine keeps_bind (keeps_pushesNothing (only_service.mpr rfl) hlasts hw) ?_
  intro aborted w₁ hw₁ _
  split_ifs
  · exact keeps_pure hw₁ trivial
  refine keeps_bind (keeps_pushesNothing (routine_repository _) hlasts hw₁) ?_
  intro repository w₂ hw₂ _
  refine keeps_bind (keeps_pushesNothing routine_verifyGitHubRepository hlasts hw₂) ?_
  intro _ w₃ hw₃ _
  refine keeps_bind (keeps_verifyBranchContent htruthful hlasts hw₃ unit) ?_
  intro _ w₄ hw₄ hverified
  have honly : (pushUnit deps task unit).Only fun call => call.routine = true ∨
      ∃ remote, call = .service (.gitPush unit.repository remote
        s!"{unit.head}:refs/heads/{unit.branch}") :=
    only_pushUnit (fun _ hroutine => Or.inl hroutine) fun remote => Or.inr ⟨remote, rfl⟩
  refine keeps_bind (keeps_guarded_of_only honly hlasts ?_ hw₄) ?_
  · intro record call answer hcall hheads
    rcases hcall with hroutine | ⟨remote, rfl⟩
    · exact pushReviewed_of_routine hroutine record answer
    · intro name remote' refspec hpush
      cases hpush
      exact ⟨unit.head, unit.branch, rfl, reviewed_of_headsApproved hheads hunit hverified⟩
  · intro _ w₅ hw₅ _
    exact keeps_pushesNothing routine_recordPushed hlasts hw₅

theorem keeps_result {α : Type} {body : StageProc α} {Q : α → StageWorld ω × List StageAnswer → Prop}
    {C : StageWorld ω × List StageAnswer → Prop}
    (h : body.Keeps (recording (serves services writer)) C Q w) :
    body.result.Keeps (recording (serves services writer)) C
      (fun ended w' => ∀ value, ended = .ok value → Q value w') w := by
  refine keeps_tryCatch (keeps_bind h ?_) ?_
  · intro value w' hw' hvalue
    refine keeps_pure hw' ?_
    intro other hother
    cases hother
    exact hvalue
  · intro failure w' hw'
    exact keeps_pure hw' nofun

/-- The stage pushes reviewed commits only. -/
theorem keeps_pullRequestStage (htruthful : services.Truthful git)
    (hw : GuardedWith (PushReviewed git deps task) (fun _ => True) w) :
    (pullRequestStage deps task).Keeps (recording (serves services writer))
      (GuardedWith (PushReviewed git deps task) fun _ => True) (fun _ _ => True) w := by
  have hlasts : ∀ (record : List StageAnswer) (entry : StageAnswer), True → True :=
    fun _ _ hlast => hlast
  unfold pullRequestStage
  refine keeps_bind (keeps_result (keeps_beginDelivery hlasts hw)) ?_
  rintro (failure | (outcome | ⟨loaded, attempt⟩)) w₁ hw₁ hbegun
  · exact keeps_pushesNothing (routine_deliveryFailed _ _) hlasts hw₁
  · exact keeps_pure hw₁ trivial
  have hheads : HeadsApproved loaded w₁.2 := hbegun _ rfl loaded attempt rfl
  refine keeps_bind (R := fun _ _ => True) ?_ ?_
  · refine keeps_mono (fun _ hkept => ⟨hkept.1, trivial⟩) (fun _ _ _ _ => trivial)
      (keeps_result (C := GuardedWith (PushReviewed git deps task) (HeadsApproved loaded))
        (Q := fun _ _ => True) ?_)
    unfold deliverUnits
    refine keeps_bind (R := fun _ _ => True) (keeps_collect (fun _ _ _ => True) ?_
      (fun _ _ _ _ => trivial) ⟨hw₁.1, hheads⟩ trivial) ?_
    · intro done unit rest results w' hunits hw' _
      refine keeps_mono (fun _ hkept => hkept) ?_ (keeps_deliverUnit htruthful ?_ hw')
      · rintro (early | value) w'' _ _
        · exact trivial
        · exact trivial
      · rw [hunits]
        exact List.mem_append_right _ List.mem_cons_self
    · rintro (outcome | delivered) w₂ hw₂ _
      · exact keeps_pure hw₂ trivial
      · exact keeps_pushesNothing (routine_concludeDelivery loaded attempt delivered)
          (fun _ entry hlast => hlast.snoc entry) hw₂
  · rintro (failure | outcome) w₂ hw₂ _
    · exact keeps_pushesNothing (routine_deliveryFailed _ _) hlasts hw₂
    · exact keeps_pure hw₂ trivial

end Executions

/-- In every execution of the stage, a push is preceded by the checkpoints that approve its
commit; the commits on top of the base are the orchestrator's, and their change was scanned. -/
theorem push_is_reviewed {ω : Type} {services : Services ω} {git : GitObjects}
    (htruthful : services.Truthful git) {deps : DeliveryDependencies} {task : Task}
    {stage : TaskState} {w w' : StageWorld ω} {ending : Ending StageError StageOutcome}
    {record : List StageAnswer}
    (hexec : Exec (recording (serves services ⟨task.id, stage⟩)) (pullRequestStage deps task)
      (w, []) ending (w', record))
    {before after : List StageAnswer} {repository remote refspec : String}
    {answer : Except StageError Unit}
    (hpush : record = before ++ ⟨.service (.gitPush repository remote refspec), answer⟩ :: after) :
    ∃ commit branch, refspec = s!"{commit}:refs/heads/{branch}" ∧
      Reviewed git deps task before repository branch commit := by
  have hkept := (keeps_iff.mp (keeps_pullRequestStage htruthful ⟨guarded_nil, trivial⟩) _ _ hexec).1
  exact hkept.1 before _ after hpush repository remote refspec rfl

/-! ## A sample -/

theorem objectName_sample : ∀ name ∈ ["head", "base"], ObjectName name := by
  intro name hmem
  have hall : ∀ name ∈ ["head", "base"],
      (name.toList.all fun character => decide (isBlank character = false)) = true := by
    decide
  have hblank : ∀ character ∈ name.toList, isBlank character = false := fun character hin =>
    of_decide_eq_true (List.all_eq_true.mp (hall name hmem) character hin)
  simp only [List.mem_cons, List.not_mem_nil, or_false] at hmem
  rcases hmem with rfl | rfl
  · exact ⟨by decide, hblank, by decide, by decide⟩
  · exact ⟨by decide, hblank, by decide, by decide⟩

/-- A commit of the orchestrator with one trailer for the task, and others. -/
def trailedCommit (others : List String) (h : ∀ value ∈ others, '\x00' ∉ value.toList) :
    LoggedCommit where
  sha := "head"
  authorName := "Orchestrator"
  authorEmail := "orchestrator@localhost"
  parents := ["base"]
  taskTrailers := "1" :: others
  shaName := objectName_sample "head" (by decide)
  parentNames := by
    intro parent hmem
    exact objectName_sample parent (List.mem_cons_of_mem _ hmem)
  nameFree := by decide
  emailFree := by decide
  trailersFree := by
    intro value hmem
    rcases List.mem_cons.mp hmem with rfl | hother
    · decide
    · exact h value hother

/-- The commit adds one file of one line to the base. -/
def sampleGit (commit : LoggedCommit) : GitObjects where
  commits _ _ := [commit]
  change _ _ := sampleChange ⟨"reviewed", by decide⟩

def sampleAnswers (git : GitObjects) : (call : ServiceCall) → Except StageError call.Answer
  | .aborted => .ok false
  | .verifyOwnedWorkspace _ => .ok "head"
  | .verifyRepository _ => .ok ()
  | .getRepository github => .ok ⟨github, false, some true⟩
  | .gitLog _ base head => .ok (logOutput (git.commits base head))
  | .gitDiff _ (.range base head) .raw => .ok (rawOutput (git.change base head).files)
  | .gitDiff _ (.range base head) .numstat => .ok (numstatOutput (git.change base head).files)
  | .gitDiff _ (.range base head) .patch => .ok (patchOutput (git.change base head).patch)
  | .remoteBranchState _ _ _ => .ok ⟨.absent, none⟩
  | .gitPush _ _ _ => .ok ()
  | _ => .error (.other "offline")

/-- A task whose commit was reviewed, and passed its quality gates. -/
def sampleReviewed : StageWorld Unit where
  outside := ()
  tables :=
    { taskWorkUnits := Table.empty.insert
        { taskId := 1, repository := "web", workspacePath := some "/work", branch := some "task-1"
          baseCommit := some "base" }
      taskCheckpoints := (Table.empty.upsert
        ⟨1, testing, .qualityPassed ⟨[("web", "head")], 1⟩, 0⟩).upsert
        ⟨1, reviewing, .reviewApproved ⟨[("web", "head")], 1, "fine"⟩, 0⟩ }

def sampleRun (commit : LoggedCommit) (count : Nat) :=
  (pullRequestStage sampleDelivery (sampleTask 1 prCreated)).after
    (respondFixed (sampleAnswers (sampleGit commit)) ⟨1, prCreated⟩) count (sampleReviewed, [])

theorem truthful_fixedServices (git : GitObjects) :
    (fixedServices (sampleAnswers git)).Truthful git where
  log := by
    intro outside outside' workspacePath base head output hserves
    cases hserves
    rfl
  raw := by
    intro outside outside' workspacePath base head output hserves
    cases hserves
    rfl
  numstat := by
    intro outside outside' workspacePath base head output hserves
    cases hserves
    rfl
  patch := by
    intro outside outside' workspacePath base head output hserves
    cases hserves
    rfl

def samplePush : StageCall := .service (.gitPush "web" "origin" "head:refs/heads/task-1")

/-- A run that is about to push, and does. -/
theorem exec_samplePush {commit : LoggedCommit} {count : Nat}
    (h : (sampleRun commit count).1.pending = some samplePush) :
    Exec (recording (serves (fixedServices (sampleAnswers (sampleGit commit))) ⟨1, prCreated⟩))
      (pullRequestStage sampleDelivery (sampleTask 1 prCreated)) (sampleReviewed, []) .crashed
      ((sampleRun commit (count + 1)).2.1,
        (sampleRun commit count).2.2 ++ [⟨samplePush, .ok ()⟩]) := by
  have hexec := exec_after (serves_respondFixed (sampleAnswers (sampleGit commit)) ⟨1, prCreated⟩)
    (count + 1) (pullRequestStage sampleDelivery (sampleTask 1 prCreated)) (sampleReviewed, [])
  have hrecord : (sampleRun commit (count + 1)).2.2 =
      (sampleRun commit count).2.2 ++ [⟨samplePush, .ok ()⟩] := after_succ h
  rw [← hrecord]
  exact hexec

def onceTrailed : LoggedCommit := trailedCommit [] (by decide)

def twiceTrailed : LoggedCommit := trailedCommit [""] (by decide)

/-- The sixteenth call of the sample is the push. -/
theorem push_is_reviewed_sample : ∃ commit branch,
    "head:refs/heads/task-1" = s!"{commit}:refs/heads/{branch}" ∧
      Reviewed (sampleGit onceTrailed) sampleDelivery (sampleTask 1 prCreated)
        (sampleRun onceTrailed 15).2.2 "web" branch commit := by
  have hname : (sampleRun onceTrailed 15).1.pending = some samplePush := by decide +kernel
  exact push_is_reviewed (truthful_fixedServices (sampleGit onceTrailed)) (exec_samplePush hname) rfl

/-- A trailer without a value is not counted: the commit is pushed with two trailers. -/
theorem push_with_empty_trailer :
    (fixedServices (sampleAnswers (sampleGit twiceTrailed))).Truthful (sampleGit twiceTrailed) ∧
      ∃ (w' : StageWorld Unit) (before : List StageAnswer),
        Exec (recording (serves (fixedServices (sampleAnswers (sampleGit twiceTrailed)))
          ⟨1, prCreated⟩)) (pullRequestStage sampleDelivery (sampleTask 1 prCreated))
          (sampleReviewed, []) .crashed (w', before ++ [⟨samplePush, .ok ()⟩]) ∧
        ∃ commit ∈ (sampleGit twiceTrailed).commits "base" "head",
          commit.taskTrailers = [toString (sampleTask 1 prCreated).id, ""] := by
  have hname : (sampleRun twiceTrailed 15).1.pending = some samplePush := by decide +kernel
  exact ⟨truthful_fixedServices (sampleGit twiceTrailed), _, _, exec_samplePush hname,
    twiceTrailed, List.mem_singleton_self _, rfl⟩

end Orchestrator
