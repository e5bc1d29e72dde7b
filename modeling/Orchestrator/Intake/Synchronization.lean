import Orchestrator.Intake.LinearDiscovery
import Orchestrator.Repositories.TaskWrites

/-! # What an intake pass leaves in the dependency table

The first loop of `persistLinearIntake` enters an issue in `taskIds` only if the
issue is the contract of its task row; the second loop replaces the dependency rows
of those issues by the rows of their entered blockers. A blocker whose contract
changed is not entered, so the row that an earlier pass recorded for it is removed.
-/

namespace Orchestrator

open Kit TaskState

/-- The task persisted for an issue. -/
def persistedTask (store : Store) (issue : PlanningIssue) : Option Task :=
  issue.source.bind fun source => findByLinearIssue store source.linearIssueId

/-- Every persisted eligible issue has a dependency row to the task of each of its
blockers. -/
def DependenciesRecorded (eligible : List PlanningIssue) (store : Store) : Prop :=
  ∀ issue ∈ eligible, ∀ task ∈ persistedTask store issue,
    ∀ blocker ∈ eligible, blocker.draftKey ∈ issue.blockedByDraftKeys →
      ∀ blockerTask ∈ persistedTask store blocker,
        (⟨task.id, blockerTask.id⟩ : TaskDependency) ∈ store.taskDependencies

/-- The foreign key of `task_dependencies`: every blocker exists. -/
def BlockersExist (store : Store) : Prop :=
  ∀ row ∈ store.taskDependencies, (store.getTask row.blockerTaskId).isSome

instance (store : Store) : Decidable (BlockersExist store) :=
  inferInstanceAs (Decidable (∀ row ∈ store.taskDependencies, _))

instance (eligible : List PlanningIssue) (store : Store) :
    Decidable (DependenciesRecorded eligible store) :=
  inferInstanceAs (Decidable (∀ issue ∈ eligible, _))

/-- The contract that the task of a Linear issue has after a pass: the stored one, or
the first eligible one. -/
def registeredContract (store : Store) (eligible : List PlanningIssue)
    (linearIssueId : String) : Option PlanningIssue :=
  match findByLinearIssue store linearIssueId with
  | some task => some task.contractSnapshot
  -- Later issues of the same Linear issue meet the row the first one created.
  | none => eligible.find? fun issue =>
      issue.source.map (·.linearIssueId) = some linearIssueId

/-- The task of the issue is new or has this very contract. -/
def Unchanged (store : Store) (eligible : List PlanningIssue) (issue : PlanningIssue) : Prop :=
  ∃ source ∈ issue.source, registeredContract store eligible source.linearIssueId = some issue

def SameLinearIssue (issue other : PlanningIssue) : Prop :=
  issue.source.map (·.linearIssueId) = other.source.map (·.linearIssueId)

/-- The store already has the dependency row of the issue and its blocker. -/
def RecordedBefore (store : Store) (issue blocker : PlanningIssue) : Prop :=
  ∃ task ∈ persistedTask store issue, ∃ blockerTask ∈ persistedTask store blocker,
    (⟨task.id, blockerTask.id⟩ : TaskDependency) ∈ store.taskDependencies

/-- The second loop writes the row: an unchanged issue of the same task has an unchanged
blocker with the same task. -/
def LinkedByPass (store : Store) (eligible : List PlanningIssue)
    (issue blocker : PlanningIssue) : Prop :=
  ∃ owner ∈ eligible, Unchanged store eligible owner ∧ SameLinearIssue owner issue ∧
    ∃ other ∈ eligible, other.draftKey ∈ owner.blockedByDraftKeys ∧
      Unchanged store eligible other ∧ SameLinearIssue other blocker

/-- The second loop leaves the rows of the issue's task alone. -/
def SkippedByPass (store : Store) (eligible : List PlanningIssue) (issue : PlanningIssue) : Prop :=
  ∀ owner ∈ eligible, SameLinearIssue owner issue → ¬ Unchanged store eligible owner

/-! ## Tasks of Linear issues -/

theorem findByLinearIssue_eq_some {store : Store} {linearIssueId : String} {task : Task}
    (h : findByLinearIssue store linearIssueId = some task) :
    task ∈ store.tasks.rows ∧ task.linearIssueId = linearIssueId :=
  ⟨List.mem_of_find?_eq_some h, by simpa using List.find?_some h⟩

/-- One row per Linear issue: equal ids of found rows come from equal Linear ids. -/
theorem linearIssueId_of_id {store : Store} {linearIssueId otherId : String} {task other : Task}
    (htask : findByLinearIssue store linearIssueId = some task)
    (hother : findByLinearIssue store otherId = some other) (hid : task.id = other.id) :
    linearIssueId = otherId := by
  obtain ⟨hmem, hlinear⟩ := findByLinearIssue_eq_some htask
  obtain ⟨hmem', hlinear'⟩ := findByLinearIssue_eq_some hother
  rw [← hlinear, ← hlinear', store.tasks.eq_of_key hmem hmem' hid]

theorem persistedTask_eq_of_id {store : Store} {issue other : PlanningIssue}
    {task otherTask : Task} (htask : persistedTask store issue = some task)
    (hother : persistedTask store other = some otherTask) (hid : task.id = otherTask.id) :
    task = otherTask := by
  obtain ⟨_, _, hfind⟩ := Option.bind_eq_some_iff.mp htask
  obtain ⟨_, _, hfind'⟩ := Option.bind_eq_some_iff.mp hother
  exact store.tasks.eq_of_key (findByLinearIssue_eq_some hfind).1
    (findByLinearIssue_eq_some hfind').1 hid

theorem createTask_find {store store' : Store} {input : CreateTaskInput} {clock : Instant}
    {row : Task} (h : createTask store input clock = .ok (store', row)) (linearIssueId : String) :
    findByLinearIssue store' linearIssueId =
      (findByLinearIssue store linearIssueId).or
        (if linearIssueId = input.linearIssueId then some row else none) := by
  obtain ⟨_, hrow, htasks, _⟩ := createTask_eq_ok h
  have hfresh : row.id ∉ store.tasks.rows.map Task.id := by
    have hnone : store.tasks.find? row.id = none := by
      rw [hrow]
      exact store.getTask_freshTaskId
    simpa using Table.find?_eq_none_iff.mp hnone
  have hlinear : row.linearIssueId = input.linearIssueId := by
    rw [hrow]
    rfl
  unfold findByLinearIssue
  rw [htasks, Table.insert, dif_neg hfresh, List.find?_append, List.find?_singleton, hlinear]
  simp [eq_comm]

theorem createTask_discovered {store store' : Store} {issue : PlanningIssue}
    {source : IssueSource} {clock : Instant} {task : Task}
    (h : createTask store (discoveredInput issue source) clock = .ok (store', task)) :
    findByLinearIssue store' source.linearIssueId = some task ∧ task.contractSnapshot = issue := by
  obtain ⟨hnone, hrow, _⟩ := createTask_eq_ok h
  refine ⟨?_, by rw [hrow]; rfl⟩
  rw [createTask_find h, show findByLinearIssue store source.linearIssueId = none from hnone,
    Option.none_or]
  exact if_pos rfl

/-! ## The first loop -/

/-- What one turn of the first loop does. -/
inductive Persisted (store : Store) (progress : IntakeProgress) (issue : PlanningIssue) :
    Store → IntakeProgress → Prop
  | unsourced (hsource : issue.source = none) : Persisted store progress issue store progress
  | found {source task} (hsource : issue.source = some source)
      (hfind : findByLinearIssue store source.linearIssueId = some task)
      (hcontract : task.contractSnapshot = issue) :
      Persisted store progress issue store (progress.setTask issue.draftKey task.id)
  | changed {source task} (hsource : issue.source = some source)
      (hfind : findByLinearIssue store source.linearIssueId = some task)
      (hcontract : task.contractSnapshot ≠ issue) :
      Persisted store progress issue store (progress.quarantineChanged issue source)
  | created {source store' task clock} (hsource : issue.source = some source)
      (hfind : findByLinearIssue store source.linearIssueId = none)
      (hcreate : createTask store (discoveredInput issue source) clock = .ok (store', task)) :
      Persisted store progress issue store' (progress.setTask issue.draftKey task.id)

/-- Creation never fails with the error that the loop catches. -/
theorem createTask_eq_error {store : Store} {input : CreateTaskInput} {clock : Instant}
    {failure : WorkflowError} (h : createTask store input clock = .error failure) :
    ∃ message, failure = .error message := by
  unfold createTask at h
  split_ifs at h
  · cases h
    exact ⟨_, rfl⟩
  · cases h
    exact ⟨_, rfl⟩
  · cases h
    exact ⟨_, rfl⟩
  · split at h <;> cases h
    exact ⟨_, rfl⟩

theorem persistIssue_eq_ok {store store' : Store} {progress progress' : IntakeProgress}
    {issue : PlanningIssue} {clock : Instant}
    (h : persistIssue store progress issue clock = .ok (store', progress')) :
    Persisted store progress issue store' progress' := by
  cases hsource : issue.source with
  | none =>
      simp only [persistIssue, hsource] at h
      cases h
      exact .unsourced hsource
  | some source =>
      cases hfind : findByLinearIssue store source.linearIssueId with
      | some task =>
          by_cases hcontract : task.contractSnapshot = issue
          · have hfound :
                discoveredTask store (discoveredInput issue source) = .ok (some task) := by
              simp [discoveredTask, discoveredInput, hfind, hcontract]
            simp only [persistIssue, hsource, upsertDiscoveredTask, hfound, bind, Except.bind,
              pure, Except.pure] at h
            cases h
            exact .found hsource hfind hcontract
          · have hchanged : discoveredTask store (discoveredInput issue source) =
                .error (.contractChanged source.linearIssueId) := by
              simp [discoveredTask, discoveredInput, hfind, hcontract]
            simp only [persistIssue, hsource, upsertDiscoveredTask, hchanged, bind, Except.bind,
              catchChanged, pure, Except.pure] at h
            cases h
            exact .changed hsource hfind hcontract
      | none =>
          have hnone : discoveredTask store (discoveredInput issue source) = .ok none := by
            simp [discoveredTask, discoveredInput, hfind]
          -- New: the row is created, or another failure ends the pass.
          cases hcreate : createTask store (discoveredInput issue source) clock with
          | ok created =>
              simp only [persistIssue, hsource, upsertDiscoveredTask, hnone, hcreate, bind,
                Except.bind, pure, Except.pure] at h
              cases h
              exact .created hsource hfind hcreate
          | error failure =>
              obtain ⟨message, rfl⟩ := createTask_eq_error hcreate
              simp only [persistIssue, hsource, upsertDiscoveredTask, hnone, hcreate, bind,
                Except.bind, catchChanged] at h
              cases h

/-- The rows a turn leaves: those of before, and at most one new row. -/
theorem Persisted.find {store store' : Store} {progress progress' : IntakeProgress}
    {issue : PlanningIssue} (h : Persisted store progress issue store' progress')
    {linearIssueId : String} {task : Task}
    (hfind : findByLinearIssue store linearIssueId = some task) :
    findByLinearIssue store' linearIssueId = some task := by
  cases h with
  | unsourced => exact hfind
  | found => exact hfind
  | changed => exact hfind
  | created _ _ hcreate => rw [createTask_find hcreate, hfind, Option.some_or]

theorem Persisted.dependencies {store store' : Store} {progress progress' : IntakeProgress}
    {issue : PlanningIssue} (h : Persisted store progress issue store' progress') :
    store'.taskDependencies = store.taskDependencies := by
  cases h with
  | unsourced => rfl
  | found => rfl
  | changed => rfl
  | created _ _ hcreate =>
      obtain ⟨_, _, _, _, _, hdependencies⟩ := createTask_eq_ok hcreate
      simpa [discoveredInput] using hdependencies

/-- A turn registers its issue exactly where the issue is the first one eligible. -/
theorem Persisted.registered {store store' : Store} {progress progress' : IntakeProgress}
    {issue : PlanningIssue} (h : Persisted store progress issue store' progress')
    (issues : List PlanningIssue) (linearIssueId : String) :
    registeredContract store' issues linearIssueId =
      registeredContract store (issue :: issues) linearIssueId := by
  unfold registeredContract
  cases hold : findByLinearIssue store linearIssueId with
  | some task => rw [h.find hold]
  | none =>
      have hskip : ∀ {source : IssueSource} {task : Task}, issue.source = some source →
          findByLinearIssue store source.linearIssueId = some task →
          ((issue :: issues).find? fun issue =>
              issue.source.map (·.linearIssueId) = some linearIssueId) =
            issues.find? fun issue =>
              issue.source.map (·.linearIssueId) = some linearIssueId := by
        intro source task hsource hfind
        refine List.find?_cons_of_neg ?_
        rw [decide_eq_true_eq, hsource, Option.map_some, Option.some.injEq]
        intro heq
        rw [heq, hold] at hfind
        cases hfind
      cases h with
      | unsourced hsource => simp [hold, hsource]
      | found hsource hfind _ => rw [hold, hskip hsource hfind]
      | changed hsource hfind _ => rw [hold, hskip hsource hfind]
      | @created source store' task clock hsource hfind hcreate =>
          rw [createTask_find hcreate, hold, Option.none_or]
          by_cases hlinear : linearIssueId = source.linearIssueId
          · obtain ⟨_, hrow, _⟩ := createTask_eq_ok hcreate
            simp [discoveredInput, hlinear, hsource, hrow, CreateTaskInput.row]
          · have hne : source.linearIssueId ≠ linearIssueId := fun h => hlinear h.symm
            simp [discoveredInput, hlinear, hsource, hne]

/-- The issue is the contract of its task. -/
def Owns (store : Store) (issue : PlanningIssue) (task : Task) : Prop :=
  persistedTask store issue = some task ∧ task.contractSnapshot = issue

theorem persistedTask_of_source {store : Store} {issue : PlanningIssue} {source : IssueSource}
    (h : issue.source = some source) :
    persistedTask store issue = findByLinearIssue store source.linearIssueId := by
  simp [persistedTask, h]

theorem lookup_setTask {progress : IntakeProgress} {key other : String} {taskId : TaskId} :
    (progress.setTask key taskId).taskIds.lookup other =
      if other = key then some taskId else progress.taskIds.lookup other :=
  lookup_setEntry

/-- A turn enters its issue in `taskIds` exactly if the issue owns its task. -/
theorem Persisted.lookup_self {store store' : Store} {progress progress' : IntakeProgress}
    {issue : PlanningIssue} (h : Persisted store progress issue store' progress') {task : Task}
    (howns : Owns store' issue task) :
    progress'.taskIds.lookup issue.draftKey = some task.id := by
  obtain ⟨htask, hcontract⟩ := howns
  cases h with
  | unsourced hsource => simp [persistedTask, hsource] at htask
  | found hsource hfind _ =>
      rw [persistedTask_of_source hsource, hfind] at htask
      cases htask
      rw [lookup_setTask, if_pos rfl]
  | changed hsource hfind hchanged =>
      rw [persistedTask_of_source hsource, hfind] at htask
      cases htask
      exact absurd hcontract hchanged
  | created hsource _ hcreate =>
      rw [persistedTask_of_source hsource, (createTask_discovered hcreate).1] at htask
      cases htask
      rw [lookup_setTask, if_pos rfl]

theorem Persisted.lookup_other {store store' : Store} {progress progress' : IntakeProgress}
    {issue : PlanningIssue} (h : Persisted store progress issue store' progress') {key : String}
    (hkey : issue.draftKey = key → ∀ task, ¬ Owns store' issue task) :
    progress'.taskIds.lookup key = progress.taskIds.lookup key := by
  cases h with
  | unsourced => rfl
  | changed => rfl
  | found hsource hfind hcontract =>
      rw [lookup_setTask, if_neg]
      intro heq
      exact hkey heq.symm _ ⟨(persistedTask_of_source hsource).trans hfind, hcontract⟩
  | created hsource _ hcreate =>
      obtain ⟨hfind, hcontract⟩ := createTask_discovered hcreate
      rw [lookup_setTask, if_neg]
      intro heq
      exact hkey heq.symm _ ⟨(persistedTask_of_source hsource).trans hfind, hcontract⟩

/-- After its turn, an issue with a source has a task. -/
theorem Persisted.persisted {store store' : Store} {progress progress' : IntakeProgress}
    {issue : PlanningIssue} (h : Persisted store progress issue store' progress')
    (hsource : issue.source ≠ none) : ∃ task, persistedTask store' issue = some task := by
  cases h with
  | unsourced hnone => exact absurd hnone hsource
  | found hsource hfind _ => exact ⟨_, (persistedTask_of_source hsource).trans hfind⟩
  | changed hsource hfind _ => exact ⟨_, (persistedTask_of_source hsource).trans hfind⟩
  | created hsource _ hcreate =>
      exact ⟨_, (persistedTask_of_source hsource).trans (createTask_discovered hcreate).1⟩

/-- A row found after a turn was found before, or is new. -/
theorem Persisted.fresh {store store' : Store} {progress progress' : IntakeProgress}
    {issue : PlanningIssue} (h : Persisted store progress issue store' progress')
    {linearIssueId : String} {task : Task}
    (hfind : findByLinearIssue store' linearIssueId = some task) :
    findByLinearIssue store linearIssueId = some task ∨ store.getTask task.id = none := by
  cases h with
  | unsourced => exact Or.inl hfind
  | found => exact Or.inl hfind
  | changed => exact Or.inl hfind
  | created _ _ hcreate =>
      rw [createTask_find hcreate, Option.or_eq_some_iff] at hfind
      rcases hfind with hold | ⟨_, hnew⟩
      · exact Or.inl hold
      · split_ifs at hnew
        cases hnew
        obtain ⟨_, hrow, _⟩ := createTask_eq_ok hcreate
        rw [hrow]
        exact Or.inr store.getTask_freshTaskId

theorem Persisted.getTask_none {store store' : Store} {progress progress' : IntakeProgress}
    {issue : PlanningIssue} (h : Persisted store progress issue store' progress')
    {taskId : TaskId} (hnone : store'.getTask taskId = none) : store.getTask taskId = none := by
  cases h with
  | unsourced => exact hnone
  | found => exact hnone
  | changed => exact hnone
  | created _ _ hcreate =>
      obtain ⟨_, _, htasks, _⟩ := createTask_eq_ok hcreate
      rw [Store.getTask, htasks, Table.find?_eq_none_iff] at hnone
      rw [Store.getTask, Table.find?_eq_none_iff]
      exact fun task htask => hnone task (Table.mem_insert_of_mem htask)

/-- What the first loop leaves. -/
structure PersistedAll (store : Store) (progress : IntakeProgress) (issues : List PlanningIssue)
    (store' : Store) (progress' : IntakeProgress) : Prop where
  dependencies : store'.taskDependencies = store.taskDependencies
  find : ∀ {linearIssueId task}, findByLinearIssue store linearIssueId = some task →
    findByLinearIssue store' linearIssueId = some task
  fresh : ∀ {linearIssueId task}, findByLinearIssue store' linearIssueId = some task →
    findByLinearIssue store linearIssueId = some task ∨ store.getTask task.id = none
  registered : ∀ linearIssueId,
    (findByLinearIssue store' linearIssueId).map (·.contractSnapshot) =
      registeredContract store issues linearIssueId
  lookup_owner : ∀ issue ∈ issues, ∀ task, Owns store' issue task →
    progress'.taskIds.lookup issue.draftKey = some task.id
  lookup_other : ∀ key,
    (∀ issue ∈ issues, issue.draftKey = key → ∀ task, ¬ Owns store' issue task) →
    progress'.taskIds.lookup key = progress.taskIds.lookup key

theorem persistedTask_mono {store store' : Store} {issue : PlanningIssue} {task : Task}
    (h : persistedTask store issue = some task)
    (hfind : ∀ {linearIssueId task}, findByLinearIssue store linearIssueId = some task →
      findByLinearIssue store' linearIssueId = some task) :
    persistedTask store' issue = some task := by
  obtain ⟨source, hsource, htask⟩ := Option.bind_eq_some_iff.mp h
  exact (persistedTask_of_source hsource).trans (hfind htask)

theorem Owns.sourced {store : Store} {issue : PlanningIssue} {task : Task}
    (h : Owns store issue task) : issue.source ≠ none := by
  obtain ⟨source, hsource, _⟩ := Option.bind_eq_some_iff.mp h.1
  simp [hsource]

theorem persistIssues_eq_ok {store store' : Store} {progress progress' : IntakeProgress}
    {issues : List PlanningIssue} {clock : Instant}
    (hkeys : (issues.map (·.draftKey)).Nodup)
    (h : persistIssues clock store progress issues = .ok (store', progress')) :
    PersistedAll store progress issues store' progress' := by
  induction issues generalizing store progress with
  | nil =>
      cases h
      refine ⟨rfl, id, Or.inl, fun linearIssueId => ?_, by simp, fun _ _ => rfl⟩
      unfold registeredContract
      cases hfind : findByLinearIssue store' linearIssueId <;> simp
  | cons issue issues ih =>
      simp only [persistIssues] at h
      cases hissue : persistIssue store progress issue clock with
      | error failure =>
          rw [hissue] at h
          cases h
      | ok next =>
          rw [hissue] at h
          obtain ⟨hhead, hnodup⟩ := List.nodup_cons.mp hkeys
          have hturn : Persisted store progress issue next.1 next.2 := persistIssue_eq_ok hissue
          have hrest := ih hnodup h
          refine ⟨hrest.dependencies.trans hturn.dependencies,
            fun hfind => hrest.find (hturn.find hfind), ?_, fun linearIssueId => ?_, ?_, ?_⟩
          · intro linearIssueId task hfind
            rcases hrest.fresh hfind with hnext | hnone
            · exact hturn.fresh hnext
            · exact Or.inr (hturn.getTask_none hnone)
          · rw [hrest.registered, hturn.registered]
          -- Draft keys are unique, so no later turn overwrites the entry of this one.
          · intro other hother task howns
            rcases List.mem_cons.mp hother with rfl | hother
            · have hlater : ∀ later ∈ issues, later.draftKey = other.draftKey →
                  ∀ task, ¬ Owns store' later task := fun later hlater heq =>
                absurd (List.mem_map.mpr ⟨later, hlater, heq⟩) hhead
              rw [hrest.lookup_other other.draftKey hlater]
              obtain ⟨row, hrow⟩ := hturn.persisted howns.sourced
              have hsame := howns.1
              rw [persistedTask_mono hrow hrest.find] at hsame
              cases hsame
              exact hturn.lookup_self ⟨hrow, howns.2⟩
            · exact hrest.lookup_owner other hother task howns
          · intro key hkey
            rw [hrest.lookup_other key fun other hother =>
              hkey other (List.mem_cons_of_mem _ hother)]
            refine hturn.lookup_other fun heq task howns => ?_
            exact hkey issue List.mem_cons_self heq task
              ⟨persistedTask_mono howns.1 hrest.find, howns.2⟩

/-! ## The second loop -/

/-- A turn replaces the rows of the entered task and no others. -/
theorem linkIssue_dependencies {store store' : Store} {progress : IntakeProgress}
    {issue : PlanningIssue} (h : linkIssue store progress issue = .ok store')
    (taskId blockerTaskId : TaskId) :
    (⟨taskId, blockerTaskId⟩ : TaskDependency) ∈ store'.taskDependencies ↔
      if progress.taskIds.lookup issue.draftKey = some taskId then
        blockerTaskId ∈ knownBlockers progress issue
      else (⟨taskId, blockerTaskId⟩ : TaskDependency) ∈ store.taskDependencies := by
  unfold linkIssue at h
  cases hentry : progress.taskIds.lookup issue.draftKey with
  | none =>
      rw [hentry] at h
      cases h
      simp
  | some entered =>
      rw [hentry] at h
      obtain ⟨_, rfl⟩ := replaceDependencies_eq_ok_iff.mp h
      by_cases hself : entered = taskId
      · simp [hself]
      · have hne : taskId ≠ entered := fun h => hself h.symm
        simp [hself, hne]

theorem linkIssues_cons {store store' : Store} {progress : IntakeProgress} {issue : PlanningIssue}
    {issues : List PlanningIssue} (h : linkIssues progress store (issue :: issues) = .ok store') :
    ∃ next, linkIssue store progress issue = .ok next ∧
      linkIssues progress next issues = .ok store' := by
  simp only [linkIssues] at h
  cases hissue : linkIssue store progress issue with
  | error failure =>
      rw [hissue] at h
      cases h
  | ok next =>
      rw [hissue] at h
      exact ⟨next, rfl, h⟩

/-- The tables an intake pass touches only when it creates a task. -/
structure SameRows (store store' : Store) : Prop where
  tasks : store'.tasks = store.tasks
  taskWorkUnits : store'.taskWorkUnits = store.taskWorkUnits
  stateTransitions : store'.stateTransitions = store.stateTransitions

theorem linkIssue_sameRows {store store' : Store} {progress : IntakeProgress}
    {issue : PlanningIssue} (h : linkIssue store progress issue = .ok store') :
    SameRows store store' := by
  unfold linkIssue at h
  split at h
  · cases h
    exact ⟨rfl, rfl, rfl⟩
  · obtain ⟨_, rfl⟩ := replaceDependencies_eq_ok_iff.mp h
    exact ⟨rfl, rfl, rfl⟩

theorem linkIssues_tasks {store store' : Store} {progress : IntakeProgress}
    {issues : List PlanningIssue} (h : linkIssues progress store issues = .ok store') :
    store'.tasks = store.tasks := by
  induction issues generalizing store with
  | nil =>
      cases h
      rfl
  | cons issue issues ih =>
      obtain ⟨next, hissue, hrest⟩ := linkIssues_cons h
      rw [ih hrest, (linkIssue_sameRows hissue).tasks]

/-- Rows of a task that no issue entered stay. -/
theorem linkIssues_of_not_entered {store store' : Store} {progress : IntakeProgress}
    {issues : List PlanningIssue} {taskId : TaskId}
    (h : linkIssues progress store issues = .ok store')
    (hentered : ∀ issue ∈ issues, progress.taskIds.lookup issue.draftKey ≠ some taskId)
    (blockerTaskId : TaskId) :
    (⟨taskId, blockerTaskId⟩ : TaskDependency) ∈ store'.taskDependencies ↔
      (⟨taskId, blockerTaskId⟩ : TaskDependency) ∈ store.taskDependencies := by
  induction issues generalizing store with
  | nil =>
      cases h
      rfl
  | cons issue issues ih =>
      obtain ⟨next, hissue, hrest⟩ := linkIssues_cons h
      rw [ih hrest fun other hother => hentered other (List.mem_cons_of_mem _ hother),
        linkIssue_dependencies hissue, if_neg (hentered issue List.mem_cons_self)]

/-- The rows of a task that one issue entered are its known blockers. -/
theorem linkIssues_of_entered {store store' : Store} {progress : IntakeProgress}
    {issues : List PlanningIssue} {issue : PlanningIssue} {taskId : TaskId}
    (h : linkIssues progress store issues = .ok store') (hissue : issue ∈ issues)
    (hentry : progress.taskIds.lookup issue.draftKey = some taskId)
    (honly : ∀ other ∈ issues, progress.taskIds.lookup other.draftKey = some taskId →
      other = issue) (blockerTaskId : TaskId) :
    (⟨taskId, blockerTaskId⟩ : TaskDependency) ∈ store'.taskDependencies ↔
      blockerTaskId ∈ knownBlockers progress issue := by
  induction issues generalizing store with
  | nil => cases hissue
  | cons head issues ih =>
      obtain ⟨next, hhead, hrest⟩ := linkIssues_cons h
      by_cases hlater : issue ∈ issues
      · exact ih hrest hlater fun other hother => honly other (List.mem_cons_of_mem _ hother)
      · -- The issue's own turn is this one, and no later turn touches its task.
        have hself : issue = head := by simpa [hlater] using hissue
        subst hself
        rw [linkIssues_of_not_entered hrest ?_, linkIssue_dependencies hhead, if_pos hentry]
        intro other hother heq
        exact hlater (honly other (List.mem_cons_of_mem _ hother) heq ▸ hother)

/-! ## The whole pass -/

theorem quarantineAll_eq (store : Store) (candidates : List QuarantineCandidate)
    (clock : Instant) :
    (candidates.foldl (fun store candidate => quarantineCandidate store candidate clock)
        store).tasks = store.tasks ∧
      (candidates.foldl (fun store candidate => quarantineCandidate store candidate clock)
        store).taskDependencies = store.taskDependencies := by
  induction candidates generalizing store with
  | nil => exact ⟨rfl, rfl⟩
  | cons candidate candidates ih => exact ih (quarantineCandidate store candidate clock)

/-- A pass that returns ran both loops; the quarantines touch neither table. -/
theorem persistLinearIntake_eq_ok {store store' : Store} {report : IntakeReport}
    {clock : Instant} (hkeys : (report.eligible.map (·.draftKey)).Nodup)
    (h : persistLinearIntake store report clock = .ok store') :
    ∃ persisted progress linked,
      PersistedAll store { quarantined := report.quarantined } report.eligible persisted progress ∧
        linkIssues progress persisted report.eligible = .ok linked ∧
        store'.tasks = persisted.tasks ∧ store'.taskDependencies = linked.taskDependencies := by
  unfold persistLinearIntake at h
  cases hpersist : persistIssues clock store { quarantined := report.quarantined }
      report.eligible with
  | error failure =>
      rw [hpersist] at h
      cases h
  | ok persisted =>
      rw [hpersist] at h
      cases hlink : linkIssues persisted.2 persisted.1 report.eligible with
      | error failure =>
          simp only [bind, Except.bind, hlink] at h
          cases h
      | ok linked =>
          simp only [bind, Except.bind, hlink, pure, Except.pure] at h
          cases h
          obtain ⟨htasks, hdependencies⟩ := quarantineAll_eq linked persisted.2.quarantined clock
          exact ⟨persisted.1, persisted.2, linked, persistIssues_eq_ok hkeys hpersist, hlink,
            htasks.trans (linkIssues_tasks hlink), hdependencies⟩

/-- After the first loop, the unchanged issues are the contracts of their tasks. -/
theorem PersistedAll.unchanged_iff {store store' : Store} {progress progress' : IntakeProgress}
    {issues : List PlanningIssue} (h : PersistedAll store progress issues store' progress')
    {issue : PlanningIssue} :
    Unchanged store issues issue ↔ ∃ task, Owns store' issue task := by
  unfold Unchanged Owns
  constructor
  · rintro ⟨source, hsource, hregistered⟩
    rw [← h.registered] at hregistered
    obtain ⟨task, hfind, hcontract⟩ := Option.map_eq_some_iff.mp hregistered
    exact ⟨task, (persistedTask_of_source hsource).trans hfind, hcontract⟩
  · rintro ⟨task, htask, hcontract⟩
    obtain ⟨source, hsource, hfind⟩ := Option.bind_eq_some_iff.mp htask
    refine ⟨source, hsource, ?_⟩
    rw [← h.registered, hfind, Option.map_some, hcontract]

/-- Which tasks `taskIds` holds after the first loop. -/
theorem PersistedAll.lookup_iff {store store' : Store} {progress' : IntakeProgress}
    {quarantined : List QuarantineCandidate} {issues : List PlanningIssue}
    (h : PersistedAll store { quarantined } issues store' progress')
    {key : String} {taskId : TaskId} :
    progress'.taskIds.lookup key = some taskId ↔
      ∃ issue ∈ issues, issue.draftKey = key ∧
        ∃ task, Owns store' issue task ∧ task.id = taskId := by
  -- The map was empty before the loop: an entry comes from an owner.
  constructor
  · intro hlookup
    by_cases howner : ∃ issue ∈ issues, issue.draftKey = key ∧ ∃ task, Owns store' issue task
    · obtain ⟨issue, hissue, rfl, task, howns⟩ := howner
      rw [h.lookup_owner issue hissue task howns] at hlookup
      exact ⟨issue, hissue, rfl, task, howns, Option.some.inj hlookup⟩
    · have hnone := h.lookup_other key fun issue hissue heq task howns =>
        howner ⟨issue, hissue, heq, task, howns⟩
      rw [hnone] at hlookup
      cases hlookup
  · rintro ⟨issue, hissue, rfl, task, howns, rfl⟩
    exact h.lookup_owner issue hissue task howns

/-- Every eligible issue with a source has a task after the first loop. -/
theorem PersistedAll.persisted {store store' : Store} {progress progress' : IntakeProgress}
    {issues : List PlanningIssue} (h : PersistedAll store progress issues store' progress')
    {issue : PlanningIssue} (hissue : issue ∈ issues) (hsource : issue.source ≠ none) :
    ∃ task, persistedTask store' issue = some task := by
  obtain ⟨source, hsource⟩ := Option.ne_none_iff_exists'.mp hsource
  rw [persistedTask_of_source hsource]
  have hregistered : (registeredContract store issues source.linearIssueId).isSome := by
    unfold registeredContract
    cases findByLinearIssue store source.linearIssueId with
    | some task => rfl
    | none =>
        rw [List.find?_isSome]
        exact ⟨issue, hissue, by simp [hsource]⟩
  rw [← h.registered, Option.isSome_map] at hregistered
  exact Option.isSome_iff_exists.mp hregistered

theorem sameLinearIssue_iff {store : Store} {issue other : PlanningIssue} {task otherTask : Task}
    (htask : persistedTask store issue = some task)
    (hother : persistedTask store other = some otherTask) :
    SameLinearIssue issue other ↔ task = otherTask := by
  obtain ⟨source, hsource, hfind⟩ := Option.bind_eq_some_iff.mp htask
  obtain ⟨source', hsource', hfind'⟩ := Option.bind_eq_some_iff.mp hother
  simp only [SameLinearIssue, hsource, hsource', Option.map_some, Option.some.injEq]
  constructor
  · intro hlinear
    rw [hlinear, hfind'] at hfind
    exact (Option.some.inj hfind).symm
  · rintro rfl
    exact linearIssueId_of_id hfind hfind' rfl

/-- An issue whose task stays unlinked had that task before. -/
theorem PersistedAll.before_of_skipped {store store' : Store}
    {progress progress' : IntakeProgress} {issues : List PlanningIssue}
    (h : PersistedAll store progress issues store' progress') {issue : PlanningIssue} {task : Task}
    (hskipped : SkippedByPass store issues issue)
    (htask : persistedTask store' issue = some task) : persistedTask store issue = some task := by
  obtain ⟨source, hsource, hfind⟩ := Option.bind_eq_some_iff.mp htask
  rw [persistedTask_of_source hsource]
  cases hold : findByLinearIssue store source.linearIssueId with
  | some old => rw [← h.find hold, hfind]
  | none =>
      -- The first eligible issue of this Linear issue is new, hence unchanged.
      have hregistered := h.registered source.linearIssueId
      rw [hfind, Option.map_some, registeredContract, hold] at hregistered
      have hfirst := hregistered.symm
      have hlinear : (task.contractSnapshot.source.map (·.linearIssueId)) =
          some source.linearIssueId := by simpa using List.find?_some hfirst
      have hsame : SameLinearIssue task.contractSnapshot issue := by
        rw [SameLinearIssue, hlinear, hsource, Option.map_some]
      refine absurd (h.unchanged_iff.mpr ⟨task, ?_, rfl⟩)
        (hskipped _ (List.mem_of_find?_eq_some hfirst) hsame)
      obtain ⟨first, hfirstSource, hfirstLinear⟩ := Option.map_eq_some_iff.mp hlinear
      rw [persistedTask_of_source hfirstSource, hfirstLinear, hfind]

theorem persistedTask_congr {store store' : Store} (h : store'.tasks = store.tasks)
    (issue : PlanningIssue) : persistedTask store' issue = persistedTask store issue := by
  unfold persistedTask findByLinearIssue
  rw [h]

/-- An issue that `taskIds` maps to this task is the contract of the task. -/
theorem PersistedAll.owns_of_lookup {store persisted : Store} {progress : IntakeProgress}
    {quarantined : List QuarantineCandidate} {issues : List PlanningIssue}
    (hkeys : (issues.map (·.draftKey)).Nodup)
    (h : PersistedAll store { quarantined } issues persisted progress)
    {issue other : PlanningIssue} {task : Task} (htask : persistedTask persisted issue = some task)
    (hother : other ∈ issues) (hlookup : progress.taskIds.lookup other.draftKey = some task.id) :
    Owns persisted other task := by
  obtain ⟨same, hsame, hkey, row, howns, hid⟩ := h.lookup_iff.mp hlookup
  obtain rfl : same = other := List.inj_on_of_nodup_map hkeys hsame hother hkey
  obtain rfl := persistedTask_eq_of_id howns.1 htask hid
  exact howns

/-- The second loop writes exactly the rows of linked blockers for a task that one of the
issues is the contract of. -/
theorem PersistedAll.linked_iff {store persisted linked : Store} {progress : IntakeProgress}
    {quarantined : List QuarantineCandidate} {issues : List PlanningIssue}
    (hkeys : (issues.map (·.draftKey)).Nodup)
    (h : PersistedAll store { quarantined } issues persisted progress)
    (hlink : linkIssues progress persisted issues = .ok linked)
    {owner issue blocker : PlanningIssue} {task blockerTask : Task} (hmem : owner ∈ issues)
    (howns : Owns persisted owner task) (htask : persistedTask persisted issue = some task)
    (hblockerTask : persistedTask persisted blocker = some blockerTask) :
    (⟨task.id, blockerTask.id⟩ : TaskDependency) ∈ linked.taskDependencies ↔
      LinkedByPass store issues issue blocker := by
  have hsame : SameLinearIssue owner issue := (sameLinearIssue_iff howns.1 htask).mpr rfl
  have hunchanged := h.unchanged_iff.mpr ⟨task, howns⟩
  have hentry := h.lookup_owner owner hmem task howns
  have honly : ∀ other ∈ issues,
      progress.taskIds.lookup other.draftKey = some task.id → other = owner :=
    fun other hother hlookup =>
      (h.owns_of_lookup hkeys htask hother hlookup).2.symm.trans howns.2
  rw [linkIssues_of_entered hlink hmem hentry honly, knownBlockers, List.mem_filterMap]
  constructor
  · rintro ⟨key, hkey, hlookup⟩
    obtain ⟨other, hother, rfl, row, hrow, hid⟩ := h.lookup_iff.mp hlookup
    obtain rfl := persistedTask_eq_of_id hrow.1 hblockerTask hid
    exact ⟨owner, hmem, hunchanged, hsame, other, hother, hkey,
      h.unchanged_iff.mpr ⟨row, hrow⟩, (sameLinearIssue_iff hrow.1 hblockerTask).mpr rfl⟩
  · rintro ⟨owner', _, hunchanged', hsame', other, hother, hkey, hother', hsameBlocker⟩
    obtain ⟨row, hrow⟩ := h.unchanged_iff.mp hunchanged'
    obtain rfl := (sameLinearIssue_iff hrow.1 htask).mp hsame'
    obtain rfl : owner' = owner := hrow.2.symm.trans howns.2
    obtain ⟨blockerRow, hblockerRow⟩ := h.unchanged_iff.mp hother'
    obtain rfl := (sameLinearIssue_iff hblockerRow.1 hblockerTask).mp hsameBlocker
    exact ⟨other.draftKey, hkey, h.lookup_owner other hother _ hblockerRow⟩

/-- The rows that existed before a pass are rows between tasks that existed before. -/
theorem PersistedAll.recorded_iff {store persisted : Store} {progress progress' : IntakeProgress}
    {issues : List PlanningIssue} (h : PersistedAll store progress issues persisted progress')
    (hexist : BlockersExist store) {issue blocker : PlanningIssue} {task blockerTask : Task}
    (hskipped : SkippedByPass store issues issue)
    (htask : persistedTask persisted issue = some task)
    (hblockerTask : persistedTask persisted blocker = some blockerTask) :
    (⟨task.id, blockerTask.id⟩ : TaskDependency) ∈ store.taskDependencies ↔
      RecordedBefore store issue blocker := by
  constructor
  · intro hrow
    have hbefore := h.before_of_skipped hskipped htask
    refine ⟨task, hbefore, blockerTask, ?_, hrow⟩
    -- The foreign key excludes a blocker that the pass has only just created.
    obtain ⟨old, hold⟩ := Option.isSome_iff_exists.mp (hexist _ hrow)
    obtain ⟨source, hsource, hfind⟩ := Option.bind_eq_some_iff.mp hblockerTask
    rcases h.fresh hfind with hfound | hnone
    · exact (persistedTask_of_source hsource).trans hfound
    · rw [hnone] at hold
      cases hold
  · rintro ⟨before, hbefore, blockerBefore, hblockerBefore, hrow⟩
    have hsameTask := persistedTask_mono hbefore h.find
    have hsameBlocker := persistedTask_mono hblockerBefore h.find
    rw [htask] at hsameTask
    rw [hblockerTask] at hsameBlocker
    cases hsameTask
    cases hsameBlocker
    exact hrow

/-- The dependency row of an issue and its blocker after a pass. -/
theorem dependency_recorded_iff {store store' : Store} {report : IntakeReport} {clock : Instant}
    (hkeys : (report.eligible.map (·.draftKey)).Nodup) (hexist : BlockersExist store)
    (hok : persistLinearIntake store report clock = .ok store') {issue blocker : PlanningIssue}
    {task blockerTask : Task}
    (htask : persistedTask store' issue = some task)
    (hblockerTask : persistedTask store' blocker = some blockerTask) :
    (⟨task.id, blockerTask.id⟩ : TaskDependency) ∈ store'.taskDependencies ↔
      LinkedByPass store report.eligible issue blocker ∨
        SkippedByPass store report.eligible issue ∧ RecordedBefore store issue blocker := by
  obtain ⟨persisted, progress, linked, hpersisted, hlink, htasks, hdependencies⟩ :=
    persistLinearIntake_eq_ok hkeys hok
  rw [persistedTask_congr htasks] at htask hblockerTask
  rw [hdependencies]
  by_cases howner : ∃ owner ∈ report.eligible, Owns persisted owner task
  · obtain ⟨owner, hmem, howns⟩ := howner
    have hskipped : ¬ SkippedByPass store report.eligible issue :=
      fun hskipped => hskipped owner hmem ((sameLinearIssue_iff howns.1 htask).mpr rfl)
        (hpersisted.unchanged_iff.mpr ⟨task, howns⟩)
    rw [hpersisted.linked_iff hkeys hlink hmem howns htask hblockerTask]
    simp only [hskipped, false_and, or_false]
  · -- No turn of the second loop is about this task.
    have hnone : ∀ other ∈ report.eligible,
        progress.taskIds.lookup other.draftKey ≠ some task.id :=
      fun other hother hlookup =>
        howner ⟨other, hother, hpersisted.owns_of_lookup hkeys htask hother hlookup⟩
    have hskipped : SkippedByPass store report.eligible issue := by
      intro owner hmem hsame hunchanged
      obtain ⟨row, howns⟩ := hpersisted.unchanged_iff.mp hunchanged
      obtain rfl := (sameLinearIssue_iff howns.1 htask).mp hsame
      exact howner ⟨owner, hmem, howns⟩
    have hlinked : ¬ LinkedByPass store report.eligible issue blocker := by
      rintro ⟨owner, hmem, hunchanged, hsame, _⟩
      exact hskipped owner hmem hsame hunchanged
    rw [linkIssues_of_not_entered hlink hnone, hpersisted.dependencies,
      hpersisted.recorded_iff hexist hskipped htask hblockerTask]
    simp only [hskipped, hlinked, true_and, false_or]

/-- After a pass over a valid backlog, every dependency is recorded exactly if, for each
issue and each of its blockers, both are unchanged, or the issue's task is left alone and
already had the row. -/
theorem dependencies_recorded_iff (store store' : Store) (report : IntakeReport)
    (projects : List PlanningProject) (clock : Instant)
    (hvalid : ValidBacklog ⟨projects, report.eligible⟩) (hexist : BlockersExist store)
    (hok : persistLinearIntake store report clock = .ok store') :
    DependenciesRecorded report.eligible store' ↔
      ∀ issue ∈ report.eligible, issue.source ≠ none →
        ∀ blocker ∈ report.eligible, blocker.source ≠ none →
          blocker.draftKey ∈ issue.blockedByDraftKeys →
          LinkedByPass store report.eligible issue blocker ∨
            SkippedByPass store report.eligible issue ∧ RecordedBefore store issue blocker := by
  have hkeys := hvalid.wellKeyed.keysNodup
  obtain ⟨persisted, _, _, hpersisted, _, htasks, _⟩ := persistLinearIntake_eq_ok hkeys hok
  constructor
  · intro hrecorded issue hissue hsource blocker hblocker hblockerSource hkey
    obtain ⟨task, htask⟩ := hpersisted.persisted hissue hsource
    obtain ⟨blockerTask, hblockerTask⟩ := hpersisted.persisted hblocker hblockerSource
    rw [← persistedTask_congr htasks] at htask hblockerTask
    exact (dependency_recorded_iff hkeys hexist hok htask hblockerTask).mp
      (hrecorded issue hissue task htask blocker hblocker hkey blockerTask hblockerTask)
  · intro hcondition issue hissue task htask blocker hblocker hkey blockerTask hblockerTask
    refine (dependency_recorded_iff hkeys hexist hok htask hblockerTask).mpr
      (hcondition issue hissue ?_ blocker hblocker ?_ hkey)
    · rintro hnone
      simp [persistedTask, hnone] at htask
    · rintro hnone
      simp [persistedTask, hnone] at hblockerTask

/-- The store after a pass. -/
def passed (store : Store) (report : IntakeReport) : Store :=
  match persistLinearIntake store report 0 with
  | .ok store' => store'
  | .error _ => store

theorem passed_eq {store : Store} {report : IntakeReport}
    (h : (persistLinearIntake store report 0).isOk = true) :
    persistLinearIntake store report 0 = .ok (passed store report) := by
  unfold passed
  cases hpass : persistLinearIntake store report 0 with
  | ok store' => rfl
  | error failure =>
      rw [hpass] at h
      cases h

/-- The next report: the contract of `a` changed, that of `b` did not. -/
def changedReport : IntakeReport :=
  { eligible := [sampleIssue "b" ["a"], { sampleIssue "a" [] with title := "New title" }] }

theorem dependency_removed :
    ¬ ∀ (store store' : Store) (report : IntakeReport) (projects : List PlanningProject)
      (clock : Instant), ValidBacklog ⟨projects, report.eligible⟩ → BlockersExist store →
      persistLinearIntake store report clock = .ok store' →
        DependenciesRecorded report.eligible store' := by
  intro h
  have hrecorded := h (passed {} dependentReport) (passed (passed {} dependentReport) changedReport)
    changedReport [] 0 (by decide) (by decide) (passed_eq (by decide))
  revert hrecorded
  decide

theorem dependencies_recorded_iff_changed :
    DependenciesRecorded changedReport.eligible
        (passed (passed {} dependentReport) changedReport) ↔
      ∀ issue ∈ changedReport.eligible, issue.source ≠ none →
        ∀ blocker ∈ changedReport.eligible, blocker.source ≠ none →
          blocker.draftKey ∈ issue.blockedByDraftKeys →
          LinkedByPass (passed {} dependentReport) changedReport.eligible issue blocker ∨
            SkippedByPass (passed {} dependentReport) changedReport.eligible issue ∧
              RecordedBefore (passed {} dependentReport) issue blocker :=
  dependencies_recorded_iff (passed {} dependentReport) _ changedReport [] 0 (by decide)
    (by decide) (passed_eq (by decide))

end Orchestrator
