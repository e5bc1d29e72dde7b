import Orchestrator.Scheduler.History
import Orchestrator.Scheduler.Leases

/-! # Starting a task before its blockers are done

The claim query and the re-check in `ANALYZING` read only dependency rows, which
intake writes in a second loop. A task that both see without a row for one of its
blockers starts before that blocker is `COMPLETED`; with a row at either of the two
the blocker is done, because `COMPLETED` is final.
-/

namespace Orchestrator

open Kit TaskState

/-- The contract of the task names the draft key of this task as a blocker. -/
def NamedBlocker (store : Store) (taskId : TaskId) (blocker : Task) : Prop :=
  ∃ task ∈ store.getTask taskId,
    blocker.contractSnapshot.draftKey ∈ task.contractSnapshot.blockedByDraftKeys

/-- The tasks persisted for the blockers in the contract are all `COMPLETED`. -/
def NamedBlockersCompleted (store : Store) (taskId : TaskId) : Prop :=
  ∀ blocker ∈ store.tasks.rows, NamedBlocker store taskId blocker → blocker.state = completed

/-- A dependency row that the blocker queries see. -/
def DependencyRow (store : Store) (taskId blockerTaskId : TaskId) : Prop :=
  (⟨taskId, blockerTaskId⟩ : TaskDependency) ∈ store.taskDependencies ∧
    ∃ blocker, store.getTask blockerTaskId = some blocker

/-- The event claims this task out of `QUEUED`. -/
def StartsTask (config : SchedulerConfig) (s : System) (event : Event) (taskId : TaskId) :
    Prop :=
  ∃ claim ∈ claimedBy config s event, claim.2.id = taskId ∧
    ∃ task ∈ s.store.getTask taskId, task.state = queued

/-- The row that a running stage handler was called with. -/
def Phase.stageTask : Phase → Option Task
  | .running task => some task
  | _ => none

/-- The run is in `ANALYZING` and its re-check finds no unfinished blocker. -/
def PassesRecheck (s : System) (id : Nat) (taskId : TaskId) : Prop :=
  ∃ run ∈ s.runs.find? id, ∃ task ∈ run.phase.stageTask, task.id = taskId ∧
    task.state = analyzing ∧ s.store.listUnfinishedBlockers taskId = []

instance (store : Store) (taskId : TaskId) (blocker : Task) :
    Decidable (NamedBlocker store taskId blocker) :=
  inferInstanceAs (Decidable (∃ task ∈ store.getTask taskId, _))

instance (store : Store) (taskId : TaskId) : Decidable (NamedBlockersCompleted store taskId) :=
  inferInstanceAs (Decidable (∀ blocker ∈ store.tasks.rows, _ → _))

instance (config : SchedulerConfig) (s : System) (event : Event) (taskId : TaskId) :
    Decidable (StartsTask config s event taskId) :=
  inferInstanceAs (Decidable (∃ claim ∈ claimedBy config s event, _))

instance (s : System) (id : Nat) (taskId : TaskId) : Decidable (PassesRecheck s id taskId) :=
  inferInstanceAs (Decidable (∃ run ∈ s.runs.find? id, _))

/-! ## What the two queries establish -/

/-- Seen by a blocker query that finds nothing, a blocker is `COMPLETED`. -/
theorem completed_of_dependencyRow {store : Store} {taskId : TaskId} {blocker : Task}
    (hnone : store.listUnfinishedBlockers taskId = [])
    (hblocker : store.getTask blocker.id = some blocker)
    (hrow : (⟨taskId, blocker.id⟩ : TaskDependency) ∈ store.taskDependencies) :
    blocker.state = completed := by
  by_contra hunfinished
  have hlisted : blocker ∈ store.listUnfinishedBlockers taskId :=
    Store.mem_listUnfinishedBlockers.mpr
      ⟨(Store.getTask_eq_some_iff.mp hblocker).1, hunfinished, hrow⟩
  rw [hnone] at hlisted
  cases hlisted

/-- A task is claimed out of `QUEUED` only without unfinished blockers. -/
theorem ClaimGrant.blockersFinished {config : SchedulerConfig} {store : Store}
    {workerId : WorkerId} {lane : ClaimLane} {override : ScheduleOverride} {gated now : Instant}
    {locked : List TaskId} {task : Task}
    (h : ClaimGrant store (claimInput config workerId lane override gated now) locked task)
    (hqueued : task.state = queued) : store.listUnfinishedBlockers task.id = [] := by
  have heligible := h.eligible
  simp only [Orchestrator.eligible, hqueued, Bool.or_eq_true, Bool.and_eq_true] at heligible
  rcases heligible with ((hstart | ⟨hparked, _⟩) | ⟨hpaused, _⟩) | ⟨⟨hpaused, _⟩, _⟩
  · simpa using hstart.1.2
  · -- `QUEUED` is no parked state: no stage runs in it.
    obtain ⟨hmem, _⟩ := List.mem_filter.mp (List.contains_iff_mem.mp hparked)
    exact absurd (executableStage_of_permitted (List.mem_filter.mp hmem).2) (by decide)
  · simp at hpaused
  · simp at hpaused

theorem StartsTask.blockersFinished {config : SchedulerConfig} {s : System} {event : Event}
    {taskId : TaskId} (h : StartsTask config s event taskId) :
    s.store.listUnfinishedBlockers taskId = [] := by
  obtain ⟨claim, hclaim, hid, task, htask, hqueued⟩ := h
  cases event with
  | claim workerId lane override gated now locked clock =>
      cases hresult :
          claimNextTask s.store (claimInput config workerId lane override gated now) locked
          clock with
      | error failure => simp [claimedBy, hresult] at hclaim
      | ok result =>
          obtain ⟨store', claimed⟩ := result
          rcases claimNextTask_eq_ok hresult with ⟨rfl, _⟩ | ⟨task', hgrant, _, _, rfl⟩
          · simp [claimedBy, hresult] at hclaim
          · simp only [claimedBy, hresult, Option.mem_some_iff] at hclaim
            subst hclaim
            have hsame : task'.id = taskId := by simpa using hid
            have hrow := hgrant.row
            rw [hsame, Option.mem_def.mp htask] at hrow
            cases hrow
            rw [← hsame]
            exact hgrant.blockersFinished hqueued
  | _ => simp [claimedBy] at hclaim

/-! ## `COMPLETED` is final -/

/-- A row keeps its state or takes a legal transition. -/
theorem RowChange.state {config : SchedulerConfig} {s : System} {event : Event}
    {task row : Task} (h : RowChange config s event task row) :
    row.state = task.state ∨ canTransition task.state row.state = true := by
  cases h with
  | kept => exact Or.inl rfl
  | @claimed workerId lane override gated now locked clock _ hgrant hallowed =>
      unfold claimedRow
      split
      · next transition htransition => exact Or.inr (hallowed transition htransition).1
      · exact Or.inl rfl
  | renewed => exact Or.inl rfl
  | modelSelected => exact Or.inl rfl
  | performed _ _ heffect =>
      cases heffect with
      | transition _ _ hallowed => exact Or.inr hallowed.1
      | release => exact Or.inl rfl
      | defer => exact Or.inl rfl
  | recovered _ hcandidate => exact Or.inr (canTransition_of_candidate hcandidate)
  | retried _ hallowed => exact Or.inr hallowed.1
  | cancelRequested => exact Or.inl rfl
  | cancelled _ hallowed => exact Or.inr hallowed
  | manualBlocked _ hallowed => exact Or.inr hallowed
  | manualFlagged => exact Or.inl rfl

/-- The task is persisted and `COMPLETED`. -/
def CompletedTask (taskId : TaskId) (s : System) : Prop :=
  ∃ task, s.store.getTask taskId = some task ∧ task.state = completed

theorem completedTask_step {config : SchedulerConfig} {taskId : TaskId} (s : System)
    (event : Event) (h : CompletedTask taskId s) : CompletedTask taskId (step config s event) := by
  obtain ⟨task, htask, hstate⟩ := h
  obtain ⟨row, hrow, hchange⟩ := step_persists config event htask
  refine ⟨row, hrow, ?_⟩
  -- No transition leaves `COMPLETED`.
  rcases hchange.state with hsame | hmoved
  · rw [hsame, hstate]
  · rw [canTransition_of_terminal (hstate ▸ by decide)] at hmoved
    cases hmoved

/-- One of the two queries saw the dependency row, or the blocker was `COMPLETED` before the
first of them. -/
def BlockerSeen (claimed rechecked : Store) (taskId blockerTaskId : TaskId) : Prop :=
  DependencyRow claimed taskId blockerTaskId ∨ DependencyRow rechecked taskId blockerTaskId ∨
    ∃ blocker, claimed.getTask blockerTaskId = some blocker ∧ blocker.state = completed

/-- The intake pass has created both tasks and linked none. -/
def unlinkedIntake : List Event :=
  [.startIntake dependentReport, .intake 0 0, .intake 0 0, .intake 0 0, .intake 0 0]

def analysisStart : List Event := [.readTask 0 false, .readControls 0 false false 0]

/-- `a` is done, `b` waits for it, and both are linked. -/
def linkedStore : Store :=
  { sampleStore [{ sampleTask 2 completed with contractSnapshot := sampleIssue "a" [] },
      { sampleTask 1 queued with contractSnapshot := sampleIssue "b" ["a"] }] with
    taskDependencies := [⟨1, 2⟩] }

end Orchestrator
