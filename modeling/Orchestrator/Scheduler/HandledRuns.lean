import Orchestrator.Execution.Stages.HandlerMoves
import Orchestrator.Scheduler.PauseResume
import Orchestrator.Scheduler.Runs

/-! # Stage handlers under the scheduler

The workers on one database, with the world that the handlers of one task see. A handler
runs on the snapshot of the row that its run took at the stage boundary, and what it ends
in is the next event of that run. Everything else is any event of the system.

Unless an operator retries the task, at most one run at a time is in its loop, and it holds
the lease until the task is out of the workflow. So the outcome of a handler is applied to
the row as the handler saw it.
-/

namespace Orchestrator

open Kit TaskState Relation

/-! ## Events and the runs they move -/

/-- The row a run carries from its boundary checks to the result of its stage. -/
def Phase.snapshot? : Phase → Option Task
  | .readingControls task => some task
  | .pausingSchedule task _ => some task
  | .running task => some task
  | .applying task _ _ => some task
  | _ => none

section Runs

variable {config : SchedulerConfig} {s : System} {event : Event} {run run' : RunEntry}

/-- A run is left as it is, moved while the store stays, or has made its call. -/
inductive RunStep (config : SchedulerConfig) (s : System) (event : Event)
    (run run' : RunEntry) : Prop
  | kept (hphase : run'.phase = run.phase)
      (hquiet : ∀ clock lost, event = .perform run.id clock lost →
        (step config s event).store = s.store)
  | moved (hstore : (step config s event).store = s.store)
      (hchange : RunChange config s event run run')
  | performed {clock : Instant} {lost : Option String}
      (hevent : event = .perform run.id clock lost)
      (hphase : (run'.phase = .boundary ∧ run.phase.isAdvance = true) ∨
        ∃ message, run'.phase = .failing message)

/-- A claim that started the run: it took the row that the run is about. -/
structure StartsRun (config : SchedulerConfig) (s : System) (event : Event) (run : RunEntry)
    (task row : Task) : Prop where
  claim : ∃ lane override gated now locked clock,
    event = .claim run.workerId lane override gated now locked clock ∧
      ClaimGrant s.store (claimInput config run.workerId lane override gated now) locked task
  put : PutRow s.store (step config s event).store task row
  owner : row.leaseOwner = some run.workerId
  run : run = { id := s.claims, workerId := run.workerId, taskId := task.id }

/-- The rows of the table are runs of `s`, each one left or moved so. -/
def RunsStep (config : SchedulerConfig) (s : System) (event : Event)
    (runs : Table RunEntry.id) : Prop :=
  ∀ run' ∈ runs.rows, ∃ run ∈ s.runs.rows,
    (run'.id = run.id ∧ run'.workerId = run.workerId ∧ run'.taskId = run.taskId) ∧
      RunStep config s event run run'

/-- An event that leaves the store alone moves the runs by `RunChange`. -/
theorem runsStep_of_store {runs : Table RunEntry.id}
    (hstore : (step config s event).store = s.store) (h : RunsFrom config s event runs) :
    RunsStep config s event runs := by
  intro run' hrun'
  obtain ⟨run, hrun, hchange⟩ := h run' hrun'
  exact ⟨run, hrun, hchange.same, .moved hstore hchange⟩

def Event.isClaim : Event → Bool
  | .claim _ _ _ _ _ _ _ => true
  | _ => false

def Event.isPerform : Event → Bool
  | .perform _ _ _ => true
  | _ => false

theorem ne_claim (h : event.isClaim = false)
    (workerId : WorkerId) (lane : ClaimLane) (override : ScheduleOverride) (gated now : Instant)
    (locked : List TaskId) (clock : Instant) :
    event ≠ .claim workerId lane override gated now locked clock := by
  intro hclaim
  rw [hclaim] at h
  cases h

theorem ne_perform (h : event.isPerform = false) (id : Nat) (clock : Instant)
    (lost : Option String) : event ≠ .perform id clock lost := by
  intro hperform
  rw [hperform] at h
  cases h

/-- An event that is no call of a run leaves the runs it does not remove. -/
theorem runsStep_of_subset {runs : Table RunEntry.id}
    (hevent : ∀ id clock lost, event ≠ .perform id clock lost)
    (h : ∀ run ∈ runs.rows, run ∈ s.runs.rows) : RunsStep config s event runs := by
  intro run hrun
  refine ⟨run, h run hrun, ⟨rfl, rfl, rfl⟩, .kept rfl ?_⟩
  intro clock lost hperform
  exact absurd hperform (hevent _ _ _)

/-- A run whose flags are set keeps its phase. -/
theorem runsStep_flagged {id : Nat} {flagged : RunEntry} (hrun : s.runs.find? id = some run)
    (hevent : ∀ id clock lost, event ≠ .perform id clock lost)
    (hsame : (flagged.id = run.id ∧ flagged.workerId = run.workerId ∧
      flagged.taskId = run.taskId) ∧ flagged.phase = run.phase) :
    RunsStep config s event (s.runs.put flagged) := by
  intro run' hrun'
  have hquiet : ∀ other : RunEntry, ∀ clock lost, event = .perform other.id clock lost →
      (step config s event).store = s.store := by
    intro other clock lost hperform
    exact absurd hperform (hevent _ _ _)
  rcases Table.mem_put.mp hrun' with ⟨rfl, _⟩ | ⟨hother, _⟩
  · exact ⟨run, Table.mem_of_find? hrun, hsame.1, .kept hsame.2 (hquiet run)⟩
  · exact ⟨run', hother, ⟨rfl, rfl, rfl⟩, .kept rfl (hquiet run')⟩

theorem aborted_same (run : RunEntry) (reason : StageAbortReason) :
    ((run.aborted reason).id = run.id ∧ (run.aborted reason).workerId = run.workerId ∧
      (run.aborted reason).taskId = run.taskId) ∧ (run.aborted reason).phase = run.phase := by
  rw [aborted_eq]
  exact ⟨⟨rfl, rfl, rfl⟩, rfl⟩

theorem runsStep_heartbeat {id : Nat} {now : Instant} (hrun : s.runs.find? id = some run) :
    RunsStep config s (.heartbeat id now) (stepHeartbeat config s run now).runs := by
  have hevent : ∀ id' clock lost, Event.heartbeat id now ≠ .perform id' clock lost :=
    ne_perform rfl
  have hflagged : ∀ {flagged : RunEntry}, (flagged.id = run.id ∧
      flagged.workerId = run.workerId ∧ flagged.taskId = run.taskId) ∧
      flagged.phase = run.phase →
      RunsStep config s (.heartbeat id now) (s.runs.put flagged) :=
    fun hsame => runsStep_flagged hrun hevent hsame
  have hsame : RunsStep config s (.heartbeat id now) s.runs :=
    runsStep_of_subset hevent fun _ h => h
  unfold stepHeartbeat
  split_ifs
  · exact hsame
  · split
    · split_ifs
      · exact hflagged (aborted_same run _)
      · exact hflagged ⟨⟨rfl, rfl, rfl⟩, rfl⟩
    · split_ifs
      · exact hflagged (aborted_same run _)
      · exact hsame

/-- After its call a run is back at the loop head, in `failTask`, or gone. -/
theorem runsStep_perform {id : Nat} {clock : Instant} {lost : Option String}
    (hrun : s.runs.find? id = some run) :
    RunsStep config s (.perform id clock lost) (stepPerform config s run clock lost).runs := by
  have hid : run.id = id := Table.key_of_find? hrun
  have hmem := Table.mem_of_find? hrun
  -- The other runs are left as they are.
  have hother : ∀ other ∈ s.runs.rows, other.id ≠ run.id →
      RunStep config s (.perform id clock lost) other other := by
    intro other _ hne
    refine .kept rfl ?_
    intro clock' lost' hevent
    cases hevent
    exact absurd hid.symm hne
  have hput : ∀ {phase : Phase} {abortReason : Option StageAbortReason},
      ((phase = .boundary ∧ run.phase.isAdvance = true) ∨ ∃ message, phase = .failing message) →
      RunsStep config s (.perform id clock lost)
        (s.runs.put { run with phase, abortReason }) := by
    intro phase abortReason hphase run' hrun'
    rcases Table.mem_put.mp hrun' with ⟨rfl, _⟩ | ⟨hold, hne⟩
    · exact ⟨run, hmem, ⟨rfl, rfl, rfl⟩, .performed (by rw [hid]) hphase⟩
    · exact ⟨run', hold, ⟨rfl, rfl, rfl⟩, hother run' hold hne⟩
  have herase : RunsStep config s (.perform id clock lost) (s.runs.erase run.id) := by
    intro run' hrun'
    obtain ⟨hold, hne⟩ := Table.mem_filter.mp hrun'
    exact ⟨run', hold, ⟨rfl, rfl, rfl⟩, hother run' hold (by simpa using hne)⟩
  have hcatch : ∀ (store : Store) (leaseError : Bool) (message : String),
      RunsStep config s (.perform id clock lost)
        (({ s with store } : System).catchError run leaseError message).runs := by
    intro store leaseError message
    unfold System.catchError
    split_ifs
    · exact herase
    · exact hput (Or.inr ⟨message, rfl⟩)
  have hstore : (step config s (.perform id clock lost)).store =
      (stepPerform config s run clock lost).store := by
    simp only [step_store, effect, System.onRun, hrun]
  unfold stepPerform at hstore ⊢
  cases hcall : phaseCall config run with
  | none =>
      rw [hcall] at hstore
      exact runsStep_of_store hstore runsFrom_same
  | some call =>
      dsimp only
      split
      · split_ifs with hadvance
        · exact hput (Or.inl ⟨rfl, hadvance⟩)
        · exact herase
      · exact hcatch _ _ _
      · exact hcatch _ _ _

/-- An event about one run keeps the store when its effect on that run does. -/
theorem onRun_store {id : Nat} {act : RunEntry → System}
    (heffect : effect config s event = s.onRun id act)
    (hact : ∀ run, s.runs.find? id = some run → (act run).store = s.store) :
    (step config s event).store = s.store := by
  rw [step_store, heffect]
  unfold System.onRun
  cases hrun : s.runs.find? id with
  | none => rfl
  | some run => exact hact run hrun

/-- A claim leaves every run where it is, and starts one if it is granted. -/
theorem runStep_claim {workerId : WorkerId} {lane : ClaimLane} {override : ScheduleOverride}
    {gated now clock : Instant} {locked : List TaskId}
    (h : run' ∈ (step config s (.claim workerId lane override gated now locked clock)).runs.rows) :
    (∃ run ∈ s.runs.rows,
      (run'.id = run.id ∧ run'.workerId = run.workerId ∧ run'.taskId = run.taskId) ∧
        RunStep config s (.claim workerId lane override gated now locked clock) run run') ∨
      ∃ task row, StartsRun config s (.claim workerId lane override gated now locked clock) run'
        task row := by
  have hidle : Event.isPerform (.claim workerId lane override gated now locked clock) = false :=
    rfl
  have hsame : (∀ run ∈ (effect config s (.claim workerId lane override gated now locked
      clock)).runs.rows, run ∈ s.runs.rows) →
      ∃ run ∈ s.runs.rows,
        (run'.id = run.id ∧ run'.workerId = run.workerId ∧ run'.taskId = run.taskId) ∧
          RunStep config s (.claim workerId lane override gated now locked clock) run run' :=
    fun hrows => runsStep_of_subset (ne_perform hidle) hrows run' h
  cases hresult :
      claimNextTask s.store (claimInput config workerId lane override gated now) locked
      clock with
  | error failure =>
      refine Or.inl (hsame ?_)
      intro run hmem
      simpa only [effect, hresult] using hmem
  | ok result =>
      obtain ⟨store, claimed⟩ := result
      -- Nothing claimed, or a run begins on the claimed row.
      rcases claimNextTask_eq_ok hresult with ⟨rfl, _⟩ | ⟨task, hgrant, hallowed, hstore, rfl⟩
      · refine Or.inl (hsame ?_)
        intro run hmem
        simpa only [effect, hresult] using hmem
      · have hafter : (step config s
            (.claim workerId lane override gated now locked clock)).store = store := by
          simp only [step_store, effect, hresult, startTask_store]
        change run' ∈ (effect config s _).runs.rows at h
        simp only [effect, hresult, System.startTask] at h
        rcases Table.mem_of_mem_insert h with hold | rfl
        · refine Or.inl ⟨run', hold, ⟨rfl, rfl, rfl⟩, .kept rfl ?_⟩
          intro _ _ hevent
          cases hevent
        · refine Or.inr ⟨task,
            claimedRow (claimInput config workerId lane override gated now) task clock,
            ⟨_, _, _, _, _, _, rfl, hgrant⟩, ?_, claimedRow_lease.1, ?_⟩
          · rw [hafter, hstore]
            exact putRow_claimed hgrant.row hallowed
          · simp

/-- Every run after an event was left, moved while the store stayed, has made its call, or
was started by a claim. -/
theorem step_runStep (h : run' ∈ (step config s event).runs.rows) :
    (∃ run ∈ s.runs.rows,
      (run'.id = run.id ∧ run'.workerId = run.workerId ∧ run'.taskId = run.taskId) ∧
        RunStep config s event run run') ∨
      ∃ task row, StartsRun config s event run' task row := by
  -- Events that leave the store alone are the cases of `step_runs`.
  have hmoved : event.isClaim = false → (step config s event).store = s.store →
      ∃ run ∈ s.runs.rows,
        (run'.id = run.id ∧ run'.workerId = run.workerId ∧ run'.taskId = run.taskId) ∧
          RunStep config s event run run' := by
    intro hclaim hstore
    rcases step_runs h with ⟨run, hrun, hchange⟩ | ⟨task, hstarted⟩
    · exact ⟨run, hrun, hchange.same, .moved hstore hchange⟩
    · obtain ⟨_, _, _, _, _, _, hevent, _⟩ := hstarted.event
      exact absurd hevent (ne_claim hclaim _ _ _ _ _ _ _)
  have hsubset : event.isPerform = false →
      (∀ run ∈ (effect config s event).runs.rows, run ∈ s.runs.rows) →
      ∃ run ∈ s.runs.rows,
        (run'.id = run.id ∧ run'.workerId = run.workerId ∧ run'.taskId = run.taskId) ∧
          RunStep config s event run run' :=
    fun hevent hrows => runsStep_of_subset (ne_perform hevent) hrows run' h
  cases event with
  | claim workerId lane override gated now locked clock => exact runStep_claim h
  | heartbeat id now =>
      refine Or.inl ?_
      cases hrun : s.runs.find? id with
      | none =>
          refine hsubset rfl ?_
          intro run hmem
          simpa only [effect, System.onRun, hrun] using hmem
      | some run =>
          change run' ∈ (s.onRun id fun run => stepHeartbeat config s run now).runs.rows at h
          unfold System.onRun at h
          rw [hrun] at h
          exact runsStep_heartbeat hrun run' h
  | perform id clock lost =>
      refine Or.inl ?_
      change run' ∈ (s.onRun id fun run => stepPerform config s run clock lost).runs.rows at h
      unfold System.onRun at h
      cases hrun : s.runs.find? id with
      | none =>
          rw [hrun] at h
          have hstore : (step config s (.perform id clock lost)).store = s.store := by
            simp only [step_store, effect, System.onRun, hrun]
          exact runsStep_of_store hstore runsFrom_same run' h
      | some run =>
          rw [hrun] at h
          exact runsStep_perform hrun run' h
  | heartbeatControls id forceKillSwitch now =>
      exact Or.inl (hmoved rfl (onRun_store rfl fun run _ => stepHeartbeatControls_store))
  | heartbeatFails id => exact Or.inl (hmoved rfl (onRun_store rfl fun run _ => rfl))
  | abort id reason => exact Or.inl (hmoved rfl (onRun_store rfl fun run _ => rfl))
  | readTask id stopping =>
      exact Or.inl (hmoved rfl (onRun_store rfl fun run _ => stepReadTask_store))
  | readControls id forceKillSwitch stopping now =>
      exact Or.inl (hmoved rfl (onRun_store rfl fun run _ => stepReadControls_store))
  | recheck id => exact Or.inl (hmoved rfl (onRun_store rfl fun run _ => stepRecheck_store))
  | finish id outcome now =>
      exact Or.inl (hmoved rfl (onRun_store rfl fun run _ => stepFinish_store))
  | throws id message => exact Or.inl (hmoved rfl (onRun_store rfl fun run _ => catchError_store))
  | readFailed id => exact Or.inl (hmoved rfl (onRun_store rfl fun run _ => stepReadFailed_store))
  | crash runs intakes => exact Or.inl (hmoved rfl rfl)
  | startIntake report => exact Or.inl (hmoved rfl rfl)
  | selectModel id selection clock =>
      refine Or.inl (hsubset rfl ?_)
      intro run hrun
      simp only [effect, System.onRun] at hrun
      split at hrun
      · exact hrun
      · split at hrun
        · rwa [adopt_runs] at hrun
        · exact hrun
  | intake id clock =>
      refine Or.inl (hsubset rfl ?_)
      intro run hrun
      simp only [effect] at hrun
      split at hrun
      · exact hrun
      · rwa [stepIntake_runs] at hrun
  | _ =>
      refine Or.inl (hsubset rfl ?_)
      intro run hrun
      simpa only [effect, adopt_runs] using hrun

end Runs

/-! ## The sole loop of a task -/

/-- Out of the workflow, until an operator retries. -/
def closedStates : List TaskState := [blocked, TaskState.failed, completed, cancelled]

structure SameCounters (task row : Task) : Prop where
  implementationAttempts : row.implementationAttempts = task.implementationAttempts
  qualityFixAttempts : row.qualityFixAttempts = task.qualityFixAttempts
  reviewAttempts : row.reviewAttempts = task.reviewAttempts

theorem SameCounters.trans {task row next : Task} (h : SameCounters task row)
    (hnext : SameCounters row next) : SameCounters task next where
  implementationAttempts := hnext.implementationAttempts.trans h.implementationAttempts
  qualityFixAttempts := hnext.qualityFixAttempts.trans h.qualityFixAttempts
  reviewAttempts := hnext.reviewAttempts.trans h.reviewAttempts

/-- A transition that neither raises nor resets a counter. -/
theorem sameCounters_moved {task : Task} {input : LockedTransitionInput} {clock : Instant}
    (hincrement : input.incrementCounter = none) (hreset : input.resetAttemptCounters = false) :
    SameCounters task (task.moved input clock) := by
  have hkept : ∀ (counter : AttemptCounter) (stored : Nat),
      nextAttempts counter stored input = stored := by
    intro counter stored
    unfold nextAttempts
    rw [hincrement, hreset, if_neg (by simp), if_neg (by simp)]
  exact ⟨hkept _ _, hkept _ _, hkept _ _⟩

/-- The row is as far as the snapshot. -/
structure SameProgress (task row : Task) : Prop where
  state : row.state = task.state
  counters : SameCounters task row

theorem SameProgress.trans {task row next : Task} (h : SameProgress task row)
    (hnext : SameProgress row next) : SameProgress task next where
  state := hnext.state.trans h.state
  counters := h.counters.trans hnext.counters

/-- The run is in the loop of `runTask`. -/
def RunEntry.loops (run : RunEntry) (taskId : TaskId) : Prop :=
  run.taskId = taskId ∧ run.phase.inFailTask = false

/-- What is known of the runs of a task that no operator retries. -/
structure SoleLoop (deps : StageDependencies) (taskId : TaskId) (s : System) : Prop where
  row : ∃ row, s.store.getTask taskId = some row
  /-- A loop holds the lease while the task is in the workflow. -/
  holds : ∀ run ∈ s.runs.rows, run.loops taskId → ∀ row, s.store.getTask taskId = some row →
    row.leaseOwner = some run.workerId ∨ row.state ∈ closedStates
  alone : ∀ run ∈ s.runs.rows, ∀ other ∈ s.runs.rows, run.loops taskId → other.loops taskId →
    run.id = other.id
  /-- While it holds the lease, its snapshot is the row. -/
  current : ∀ run ∈ s.runs.rows, run.taskId = taskId → ∀ task, run.phase.snapshot? = some task →
    task.id = taskId ∧ ∀ row, s.store.getTask taskId = some row →
      row.leaseOwner = some run.workerId → SameProgress task row
  /-- The result it is about to apply is a move from its snapshot. -/
  moves : ∀ run ∈ s.runs.rows, run.taskId = taskId → ∀ task outcome now,
    run.phase = .applying task outcome now → outcome.Moves deps task
  /-- `failTask` releases a row that cannot be blocked, and that is out of the workflow. -/
  handsBack : ∀ run ∈ s.runs.rows, run.taskId = taskId → ∀ task message,
    run.phase = .handingBack task message → canTransition task.state blocked = false →
      ∀ row, s.store.getTask taskId = some row → row.state ∈ closedStates

/-- What an event does to the row of a task that no operator retries. -/
inductive TaskMove (deps : StageDependencies) (s : System) (event : Event) (task row : Task) :
    Prop
  | kept (hsame : SameProgress task row) (hresume : row.resumeState = task.resumeState)
      (howner : row.leaseOwner = task.leaseOwner)
  | claimed (hcounters : SameCounters task row)
      (hunleased : task.leaseOwner = none) (hopen : task.state ∉ closedStates)
      (hstate : (task.state = queued ∧ row.state = analyzing) ∨
        (task.state ∈ pauseStates ∧ row.state ∉ pauseStates ∧
          task.resumeState = some row.state) ∨
        (task.state ∉ queued :: pauseStates ∧ row.state = task.state))
  /-- A call of the loop that ends it. -/
  | released {run : RunEntry} {clock : Instant} {lost : Option String}
      (hevent : event = .perform run.id clock lost) (hrun : run ∈ s.runs.rows)
      (hloops : run.loops task.id) (hadvance : run.phase.isAdvance = false)
      (hunleased : row.leaseOwner = none) (hcounters : SameCounters task row)
      (hstate : (row.state = task.state ∧ row.resumeState = task.resumeState) ∨
        (task.state ∉ closedStates ∧ task.state ∉ pauseStates ∧ row.state ∈ pauseStates ∧
          row.resumeState = some task.state))
  | closed (hunleased : row.leaseOwner = none) (hstate : row.state ∈ closedStates)
      (hcounters : SameCounters task row)
  /-- The result of a handler, applied to the row that the handler saw. -/
  | advanced {run : RunEntry} {stage : Task} {outcome : AdvanceOutcome} {now clock : Instant}
      {lost : Option String} (hevent : event = .perform run.id clock lost)
      (hrun : run ∈ s.runs.rows) (htask : run.taskId = task.id)
      (hphase : run.phase = .applying stage (.advance outcome) now)
      (howner : task.leaseOwner = some run.workerId) (hstage : SameProgress stage task)
      (hmove : StageMove deps stage outcome.toState outcome.incrementCounter)
      (hallowed : TransitionAllowed task.state outcome.toState none)
      (hrow : row = task.moved (advanceInput run stage outcome).locked clock)

section Moves

variable {deps : StageDependencies} {config : SchedulerConfig} {s : System} {event : Event}
  {task row : Task}

/-- A stage that the scheduler runs is neither new, nor paused, nor out of the workflow. -/
theorem open_of_executable {state : TaskState} (h : ExecutableStage state) :
    state ∉ closedStates ∧ state ∉ queued :: pauseStates := by
  revert h
  cases state <;> decide

/-- A claim takes a new task, a parked one, or a paused one that names where it stopped. -/
theorem ClaimGrant.state_cases {workerId : WorkerId} {lane : ClaimLane}
    {override : ScheduleOverride} {gated now : Instant} {locked : List TaskId}
    (h : ClaimGrant s.store (claimInput config workerId lane override gated now) locked task) :
    task.state = queued ∨ ExecutableStage task.state ∨
      (task.state ∈ pauseStates ∧ ∃ state, task.resumeState = some state) := by
  have hresumes : ∀ states, resumesTo task states = true →
      ∃ state, task.resumeState = some state := by
    intro states hresumes
    unfold resumesTo at hresumes
    split at hresumes
    · cases hresumes
    · exact ⟨_, by assumption⟩
  have heligible := h.eligible
  simp only [Orchestrator.eligible, Bool.or_eq_true, Bool.and_eq_true] at heligible
  rcases heligible with ((⟨⟨⟨_, hqueued⟩, _⟩, _⟩ | ⟨hparked, _⟩) | ⟨hpaused, hresume⟩) |
    ⟨⟨hpaused, hresume⟩, _⟩
  · exact Or.inl (by simpa using hqueued)
  · obtain ⟨hmem, _⟩ := List.mem_filter.mp (List.contains_iff_mem.mp hparked)
    exact Or.inr (Or.inl (executableStage_of_permitted (List.mem_filter.mp hmem).2))
  · have hstate : task.state = pausedSchedule := by simpa using hpaused
    refine Or.inr (Or.inr ⟨?_, hresumes _ hresume⟩)
    rw [hstate]
    decide
  · have hstate : task.state = pausedLimit := by simpa using hpaused
    refine Or.inr (Or.inr ⟨?_, hresumes _ hresume⟩)
    rw [hstate]
    decide

/-- The row of a claim was neither leased nor out of the workflow. -/
theorem ClaimGrant.claimable {workerId : WorkerId} {lane : ClaimLane}
    {override : ScheduleOverride} {gated now : Instant} {locked : List TaskId}
    (h : ClaimGrant s.store (claimInput config workerId lane override gated now) locked task) :
    task.leaseOwner = none ∧ task.state ∉ closedStates := by
  refine ⟨(claimCandidate_iff.mp h.candidate).1, ?_⟩
  rcases h.state_cases with hstate | hstage | ⟨hpause, _⟩
  · rw [hstate]
    decide
  · exact (open_of_executable hstage).1
  · intro hclosed
    revert hpause hclosed
    cases task.state <;> decide

/-- A claim starts a new task, resumes a paused one where it stopped, or goes on with a
parked one. -/
theorem claimed_move {workerId : WorkerId} {lane : ClaimLane} {override : ScheduleOverride}
    {gated now : Instant} {locked : List TaskId} (clock : Instant)
    (hgrant : ClaimGrant s.store (claimInput config workerId lane override gated now) locked task)
    (hallowed : ∀ transition,
      claimTransition (claimInput config workerId lane override gated now) task =
        some transition → TransitionAllowed task.state transition.toState none) :
    TaskMove deps s event task
      (claimedRow (claimInput config workerId lane override gated now) task clock) := by
  obtain ⟨hunleased, hopen⟩ := hgrant.claimable
  rcases hgrant.state_cases with hqueued | hstage | ⟨hpause, state, hresume⟩
  -- New, parked in a stage, or paused.
  · unfold claimedRow
    simp only [claimTransition, hqueued, if_true]
    exact .claimed (sameCounters_moved rfl rfl) hunleased hopen (Or.inl ⟨hqueued, rfl⟩)
  · have hparked := (open_of_executable hstage).2
    have hnone : claimTransition (claimInput config workerId lane override gated now) task =
        none := by
      have hqueued : task.state ≠ queued := by
        intro hstate
        exact hparked (hstate ▸ List.mem_cons_self)
      have hpause : task.state ∉ pauseStates := by
        intro hpause
        exact hparked (List.mem_cons_of_mem _ hpause)
      simp [claimTransition, hqueued, hpause]
    unfold claimedRow
    rw [hnone]
    exact .claimed ⟨rfl, rfl, rfl⟩ hunleased hopen (Or.inr (Or.inr ⟨hparked, rfl⟩))
  · have hqueued : task.state ≠ queued := by
      intro hstate
      rw [hstate] at hpause
      exact absurd hpause (by decide)
    have htransition : ∃ transition, claimTransition
        (claimInput config workerId lane override gated now) task = some transition ∧
        transition.toState = state ∧ transition.incrementCounter = none ∧
        transition.resetAttemptCounters = false := by
      simp [claimTransition, hqueued, hpause, hresume]
    obtain ⟨transition, htransition, rfl, hincrement, hreset⟩ := htransition
    have hcan := (hallowed _ htransition).1
    unfold claimedRow
    rw [htransition]
    refine .claimed (sameCounters_moved hincrement hreset) hunleased hopen
      (Or.inr (Or.inl ⟨hpause, ?_, hresume⟩))
    exact resumed_not_paused hpause hcan

/-- What the transitions of a run in its loop lead to, besides the results of handlers. -/
theorem loop_transition {run : RunEntry} {input : TaskTransitionInput}
    (hcall : phaseCall config run = some (.transition input))
    (hadvance : run.phase.isAdvance = false) :
    (input.incrementCounter = none ∧ input.releaseLease = true) ∧
      (input.toState ∈ closedStates ∨
        (run.phase.inFailTask = false ∧ input.toState ∈ pauseStates ∧
          ∃ stage, run.phase.snapshot? = some stage ∧ input.resumeState = some stage.state)) := by
  unfold phaseCall at hcall
  split at hcall
  · cases hcall
  · cases hcall
    refine ⟨⟨rfl, rfl⟩, Or.inl ?_⟩
    show cancelled ∈ closedStates
    decide
  · split_ifs at hcall <;> cases hcall
    refine ⟨⟨rfl, rfl⟩, Or.inl ?_⟩
    show blocked ∈ closedStates
    decide
  · cases hcall
  · cases hcall
  · rename_i task gate hphase
    cases hcall
    refine ⟨⟨rfl, rfl⟩, Or.inr ⟨by rw [hphase]; rfl, ?_, task, by rw [hphase]; rfl, rfl⟩⟩
    show pausedSchedule ∈ pauseStates
    decide
  · cases hcall
  · rename_i hphase
    rw [hphase] at hadvance
    cases hadvance
  · rename_i task outcome now hphase
    cases hcall
    refine ⟨⟨rfl, rfl⟩, Or.inr ⟨by rw [hphase]; rfl, ?_, task, by rw [hphase]; rfl, rfl⟩⟩
    show pausedLimit ∈ pauseStates
    decide
  · cases hcall
  · cases hcall
  · cases hcall
  · split_ifs at hcall <;> cases hcall
    refine ⟨⟨rfl, rfl⟩, Or.inl ?_⟩
    show blocked ∈ closedStates
    decide

/-- A call that is no transition comes from the loop, or from `failTask` for a row that
cannot be blocked. -/
theorem other_call {run : RunEntry} {call : RepositoryCall}
    (hcall : phaseCall config run = some call) (hother : ∀ input, call ≠ .transition input) :
    run.phase.isAdvance = false ∧
      (run.phase.inFailTask = false ∨ ∃ task message, run.phase = .handingBack task message ∧
        canTransition task.state blocked = false) := by
  unfold phaseCall at hcall
  split at hcall
  · cases hcall
  · cases hcall
    exact absurd rfl (hother _)
  · rename_i hphase
    rw [hphase]
    exact ⟨rfl, Or.inl rfl⟩
  · rename_i hphase
    rw [hphase]
    exact ⟨rfl, Or.inl rfl⟩
  · cases hcall
  · cases hcall
    exact absurd rfl (hother _)
  · cases hcall
  · cases hcall
    exact absurd rfl (hother _)
  · cases hcall
    exact absurd rfl (hother _)
  · rename_i hphase
    rw [hphase]
    exact ⟨rfl, Or.inl rfl⟩
  · cases hcall
  · cases hcall
  · rename_i task message hphase
    split_ifs at hcall with hblock
    · cases hcall
      exact absurd rfl (hother _)
    · refine ⟨by rw [hphase]; rfl, Or.inr ⟨task, message, hphase, by simpa using hblock⟩⟩

/-- No pause follows a state out of the workflow. -/
theorem open_of_pause {state pause : TaskState} (hpause : pause ∈ pauseStates)
    (h : canTransition state pause = true) : state ∉ closedStates ∧ state ∉ pauseStates := by
  revert h hpause
  cases state <;> cases pause <;> decide

/-- What an event does to the row, if it is no retry. -/
theorem SoleLoop.move {taskId : TaskId} (h : SoleLoop deps taskId s)
    (htask : s.store.getTask taskId = some task) (hchange : RowChange config s event task row)
    (hretry : ∀ context clock, event ≠ .retry taskId context clock) :
    TaskMove deps s event task row := by
  have hid : task.id = taskId := (Store.getTask_eq_some_iff.mp htask).2
  cases hchange with
  | kept => exact .kept ⟨rfl, rfl, rfl, rfl⟩ rfl rfl
  | claimed hgrant hallowed => exact claimed_move _ hgrant hallowed
  | renewed howner => exact .kept ⟨rfl, rfl, rfl, rfl⟩ rfl rfl
  | modelSelected howner => exact .kept ⟨rfl, rfl, rfl, rfl⟩ rfl rfl
  | cancelRequested howner => exact .kept ⟨rfl, rfl, rfl, rfl⟩ rfl rfl
  | manualFlagged => exact .kept ⟨rfl, rfl, rfl, rfl⟩ rfl rfl
  | recovered hevent hcandidate =>
      refine .closed rfl ?_ (sameCounters_moved rfl rfl)
      show blocked ∈ closedStates
      decide
  | retried howner hallowed =>
      rw [hid] at hretry
      exact absurd rfl (hretry _ _)
  | cancelled howner hallowed =>
      refine .closed howner ?_ (sameCounters_moved rfl rfl)
      show TaskState.cancelled ∈ closedStates
      decide
  | manualBlocked howner hallowed =>
      refine .closed howner ?_ (sameCounters_moved rfl rfl)
      show blocked ∈ closedStates
      decide
  | @performed id run call clock lost _ _ hrun hcall heffect =>
      have hmem := Table.mem_of_find? hrun
      obtain rfl : run.id = id := Table.key_of_find? hrun
      -- A release or a deferral leaves the state alone.
      have hrest : (∀ input, call ≠ .transition input) → task.id = run.taskId →
          row.leaseOwner = none → SameCounters task row → row.state = task.state →
          row.resumeState = task.resumeState → TaskMove deps s (.perform run.id clock lost)
            task row := by
        intro hother hrunTask hunleased hcounters hstate hresume
        obtain ⟨hadvance, hloop | ⟨stage, message, hphase, hblock⟩⟩ := other_call hcall hother
        · exact .released rfl hmem ⟨hrunTask.symm, hloop⟩ hadvance hunleased hcounters
            (Or.inl ⟨hstate, hresume⟩)
        · refine .closed hunleased ?_ hcounters
          rw [hstate]
          exact h.handsBack run hmem (hrunTask.symm.trans hid) stage message hphase hblock
            task htask
      cases heffect with
      | release hrunTask howner =>
          refine hrest ?_ hrunTask rfl ⟨rfl, rfl, rfl⟩ rfl rfl
          intro input heq
          cases heq
      | defer hrunTask howner =>
          refine hrest ?_ hrunTask rfl ⟨rfl, rfl, rfl⟩ rfl rfl
          intro input heq
          cases heq
      | @transition input _ hinput hlease hallowed =>
          obtain ⟨hleaseOwner, hrunId, hrelease⟩ := phaseCall_transition hcall
          have hrunTask : run.taskId = task.id := hrunId.symm.trans hinput.symm
          cases hadvance : run.phase.isAdvance with
          | false =>
              obtain ⟨⟨hincrement, hunlease⟩, htarget⟩ := loop_transition hcall hadvance
              have hcounters : SameCounters task (task.moved input.locked clock) :=
                sameCounters_moved hincrement rfl
              rcases htarget with hclosed | ⟨hloop, hpause, stage, hsnapshot, hresume⟩
              · exact .closed (moved_unleased hunlease) hclosed hcounters
              · obtain ⟨hopen, hunpaused⟩ := open_of_pause hpause hallowed.1
                -- The loop holds the lease, so its snapshot is the row.
                have howner : task.leaseOwner = some run.workerId :=
                  (h.holds run hmem ⟨hrunTask.trans hid, hloop⟩ task htask).resolve_right hopen
                have hstage := (h.current run hmem (hrunTask.trans hid) stage hsnapshot).2 task
                  htask howner
                refine .released rfl hmem ⟨hrunTask, hloop⟩ hadvance (moved_unleased hunlease)
                  hcounters (Or.inr ⟨hopen, hunpaused, hpause, ?_⟩)
                rw [hstage.state]
                exact hresume
          | true =>
              obtain ⟨stage, outcome, now, hphase⟩ : ∃ stage outcome now,
                  run.phase = .applying stage (.advance outcome) now := by
                unfold Phase.isAdvance at hadvance
                split at hadvance
                · rename_i hphase
                  exact ⟨_, _, _, hphase⟩
                · cases hadvance
              have hinput : input = advanceInput run stage outcome := by
                simp only [phaseCall, hphase] at hcall
                cases hcall
                rfl
              subst hinput
              have howner := leasePermits_advance.mp hlease
              refine .advanced rfl hmem hrunTask hphase howner ?_ ?_ hallowed rfl
              · exact (h.current run hmem (hrunTask.trans hid) stage (by rw [hphase]; rfl)).2 task
                  htask howner
              · exact h.moves run hmem (hrunTask.trans hid) stage _ now hphase

theorem inFailTask_of_isAdvance {phase : Phase} (h : phase.isAdvance = true) :
    phase.inFailTask = false := by
  cases phase with
  | applying task outcome now => rfl
  | _ => cases h

/-- Besides to `BLOCKED`, no stage moves a task that is out of the workflow. -/
theorem stageMove_source {stage : Task} {toState : TaskState} {counter : Option AttemptCounter}
    (h : StageMove deps stage toState counter) :
    toState = blocked ∨ stage.state ∉ closedStates := by
  have hone : ∀ {state : TaskState}, stage.state = state → state ∉ closedStates →
      toState = blocked ∨ stage.state ∉ closedStates := by
    intro state hstate hopen
    rw [hstate]
    exact Or.inr hopen
  have hmany : ∀ {states : List TaskState}, stage.state ∈ states →
      (∀ state ∈ states, state ∉ closedStates) → toState = blocked ∨ stage.state ∉ closedStates :=
    fun hstate hopen => Or.inr (hopen _ hstate)
  cases h with
  | blocked => exact Or.inl rfl
  | failed hstate => exact hmany hstate (by decide)
  | observed hstate _ => exact hmany hstate (by decide)
  | analyzed hstate => exact hone hstate (by decide)
  | prepared hstate => exact hone hstate (by decide)
  | implemented hstate _ => exact hone hstate (by decide)
  | rejected hstate _ => exact hone hstate (by decide)
  | exhausted hstate _ => exact hone hstate (by decide)
  | reused hstate => exact hone hstate (by decide)
  | passed hstate => exact hone hstate (by decide)
  | qualityFix hstate _ => exact hone hstate (by decide)
  | fixed hstate => exact hone hstate (by decide)
  | approved hstate => exact hone hstate (by decide)
  | reviewFix hstate _ => exact hone hstate (by decide)
  | delivered hstate => exact hone hstate (by decide)

/-- A run never comes back from `failTask` to its loop. -/
theorem RunStep.loops {run run' : RunEntry} (hstep : RunStep config s event run run')
    (hloop : run'.phase.inFailTask = false) : run.phase.inFailTask = false := by
  cases hstep with
  | kept hphase _ => rwa [hphase] at hloop
  | moved _ hchange =>
      cases hchange with
      | kept => exact hloop
      | flagged _ => exact hloop
      | checked hphase _ _ => rw [hphase]; rfl
      | gated hphase => rw [hphase]; rfl
      | finished _ hphase _ => rw [hphase]; rfl
      | interrupted hphase _ => rw [hphase]; rfl
      | advanced hphase => exact inFailTask_of_isAdvance hphase
      | failed => cases hloop
      | handedBack _ _ => cases hloop
  | performed _ hphase =>
      rcases hphase with ⟨_, hadvance⟩ | ⟨_, hfailing⟩
      · exact inFailTask_of_isAdvance hadvance
      · rw [hfailing] at hloop
        cases hloop

/-- A loop survives a call that is no advance only if the call changed nothing. -/
theorem RunStep.quiet {run run' : RunEntry} {clock : Instant} {lost : Option String}
    (hstep : RunStep config s event run run') (hevent : event = .perform run.id clock lost)
    (hadvance : run.phase.isAdvance = false) (hloop : run'.phase.inFailTask = false) :
    (step config s event).store = s.store := by
  cases hstep with
  | kept _ hquiet => exact hquiet clock lost hevent
  | moved hstore _ => exact hstore
  | performed _ hphase =>
      rcases hphase with ⟨_, hagain⟩ | ⟨_, hfailing⟩
      · rw [hadvance] at hagain
        cases hagain
      · rw [hfailing] at hloop
        cases hloop

variable {taskId : TaskId}

theorem SoleLoop.row_step (h : SoleLoop deps taskId s)
    (hretry : ∀ context clock, event ≠ .retry taskId context clock)
    (hrow : (step config s event).store.getTask taskId = some row) :
    ∃ task, s.store.getTask taskId = some task ∧ TaskMove deps s event task row := by
  rcases step_rows hrow with ⟨task, htask, hchange⟩ | ⟨hnone, _⟩
  · exact ⟨task, htask, h.move htask hchange hretry⟩
  · obtain ⟨task, htask⟩ := h.row
    rw [hnone] at htask
    cases htask

/-- A task whose row a claim can take has no loop. -/
theorem SoleLoop.unclaimable (h : SoleLoop deps taskId s) {run : RunEntry}
    (hrun : run ∈ s.runs.rows) (hloops : run.loops taskId)
    (htask : s.store.getTask taskId = some task) (hunleased : task.leaseOwner = none)
    (hopen : task.state ∉ closedStates) : False := by
  rcases h.holds run hrun hloops task htask with howner | hclosed
  · rw [hunleased] at howner
    cases howner
  · exact hopen hclosed

theorem StartsRun.claimable {run : RunEntry} (h : StartsRun config s event run task row) :
    task.leaseOwner = none ∧ task.state ∉ closedStates := by
  obtain ⟨lane, override, gated, now, locked, clock, _, hgrant⟩ := h.claim
  exact hgrant.claimable

theorem StartsRun.sameTask {run : RunEntry} (h : StartsRun config s event run task row) :
    run.taskId = task.id := by
  rw [h.run]

theorem StartsRun.phase {run : RunEntry} (h : StartsRun config s event run task row) :
    run.phase = .boundary := by
  rw [h.run]

/-! ### One step of a loop -/

section Step

variable (h : SoleLoop deps taskId s)
  (hretry : ∀ context clock, event ≠ .retry taskId context clock)

include h hretry

theorem SoleLoop.step_holds {run' : RunEntry} (hrun' : run' ∈ (step config s event).runs.rows)
    (hloops : run'.loops taskId)
    (hrow : (step config s event).store.getTask taskId = some row) :
    row.leaseOwner = some run'.workerId ∨ row.state ∈ closedStates := by
  rcases step_runStep hrun' with ⟨run, hrun, ⟨_, hworker, hid⟩, hstep⟩ | ⟨task, row', hstarts⟩
  · have hbefore : run.loops taskId := ⟨hid ▸ hloops.1, hstep.loops hloops.2⟩
    -- A call that the loop survives changed nothing.
    have hquiet : (step config s event).store = s.store →
        row.leaseOwner = some run'.workerId ∨ row.state ∈ closedStates := by
      intro hstore
      rw [hstore] at hrow
      rw [hworker]
      exact h.holds run hrun hbefore row hrow
    obtain ⟨task, htask, hmove⟩ := h.row_step hretry hrow
    have htaskId : task.id = taskId := (Store.getTask_eq_some_iff.mp htask).2
    cases hmove with
    | kept hsame _ howner =>
        rw [howner, hsame.state, hworker]
        exact h.holds run hrun hbefore task htask
    | claimed _ hunleased hopen _ =>
        exact (h.unclaimable hrun hbefore htask hunleased hopen).elim
    | released hevent hcaller hcalls hadvance _ _ _ =>
        obtain hsame := h.alone _ hcaller run hrun (htaskId ▸ hcalls) hbefore
        obtain rfl := s.runs.eq_of_key hcaller hrun hsame
        exact hquiet (hstep.quiet hevent hadvance hloops.2)
    | closed _ hstate _ => exact Or.inr hstate
    | @advanced caller _ _ _ _ _ hevent hcaller hcallerTask hphase howner _ _ _ hadvanced =>
        have hcalls : caller.loops taskId := ⟨hcallerTask.trans htaskId, by rw [hphase]; rfl⟩
        have hsame := h.alone caller hcaller run hrun hcalls hbefore
        obtain rfl := s.runs.eq_of_key hcaller hrun hsame
        refine Or.inl ?_
        rw [hadvanced, hworker]
        exact howner
  · have hid : row'.id = taskId := by
      rw [hstarts.put.sameId, ← hstarts.sameTask]
      exact hloops.1
    rw [hstarts.put.getTask, if_pos hid.symm] at hrow
    cases hrow
    exact Or.inl hstarts.owner

omit hretry in
theorem SoleLoop.step_alone {run' other' : RunEntry}
    (hrun' : run' ∈ (step config s event).runs.rows)
    (hother' : other' ∈ (step config s event).runs.rows) (hloops : run'.loops taskId)
    (hotherLoops : other'.loops taskId) : run'.id = other'.id := by
  -- A loop of before leaves nothing for a claim to take.
  have hexcluded : ∀ {old new : RunEntry} {run : RunEntry} {task row : Task},
      run ∈ s.runs.rows → old.taskId = run.taskId → RunStep config s event run old →
      old.loops taskId → StartsRun config s event new task row → new.loops taskId → False := by
    intro old new run task row hrun hid hstep hold hstarts hnew
    obtain ⟨hunleased, hopen⟩ := hstarts.claimable
    have htask : s.store.getTask taskId = some task := by
      rw [← hnew.1, hstarts.sameTask]
      exact hstarts.put.found
    exact h.unclaimable hrun ⟨hid ▸ hold.1, hstep.loops hold.2⟩ htask hunleased hopen
  rcases step_runStep hrun' with ⟨run, hrun, ⟨hsame, _, hid⟩, hstep⟩ | ⟨task, row, hstarts⟩
  · rcases step_runStep hother' with
      ⟨other, hother, ⟨hotherSame, _, hotherId⟩, hotherStep⟩ | ⟨task, row, hstarts⟩
    · rw [hsame, hotherSame]
      exact h.alone run hrun other hother ⟨hid ▸ hloops.1, hstep.loops hloops.2⟩
        ⟨hotherId ▸ hotherLoops.1, hotherStep.loops hotherLoops.2⟩
    · exact (hexcluded hrun hid hstep hloops hstarts hotherLoops).elim
  · rcases step_runStep hother' with
      ⟨other, hother, ⟨_, _, hotherId⟩, hotherStep⟩ | ⟨otherTask, otherRow, hotherStarts⟩
    · exact (hexcluded hother hotherId hotherStep hotherLoops hstarts hloops).elim
    · rw [hstarts.run, hotherStarts.run]

theorem SoleLoop.step_current {run' : RunEntry} {stage : Task}
    (hrun' : run' ∈ (step config s event).runs.rows) (hid' : run'.taskId = taskId)
    (hsnapshot : run'.phase.snapshot? = some stage) :
    stage.id = taskId ∧ ∀ row, (step config s event).store.getTask taskId = some row →
      row.leaseOwner = some run'.workerId → SameProgress stage row := by
  have hlooping : ∀ phase : Phase, phase.snapshot? = some stage → phase.inFailTask = false := by
    intro phase hphase
    cases phase with
    | failing message => cases hphase
    | handingBack task message => cases hphase
    | _ => rfl
  rcases step_runStep hrun' with ⟨run, hrun, ⟨_, hworker, hid⟩, hstep⟩ | ⟨task, row', hstarts⟩
  · have hbefore : run.loops taskId := ⟨hid ▸ hid', hstep.loops (hlooping _ hsnapshot)⟩
    -- The snapshot was taken before this event.
    have hold : (step config s event).store = s.store → run.phase.snapshot? = some stage →
        stage.id = taskId ∧ ∀ row, (step config s event).store.getTask taskId = some row →
          row.leaseOwner = some run'.workerId → SameProgress stage row := by
      intro hstore hphase
      rw [hstore, hworker]
      exact h.current run hrun hbefore.1 stage hphase
    cases hstep with
    | kept hphase hquiet =>
        rw [hphase] at hsnapshot
        obtain ⟨hstage, hcurrent⟩ := h.current run hrun hbefore.1 stage hsnapshot
        refine ⟨hstage, ?_⟩
        intro row hrow howner'
        obtain ⟨task, htask, hmove⟩ := h.row_step hretry hrow
        have htaskId : task.id = taskId := (Store.getTask_eq_some_iff.mp htask).2
        -- The row is no longer leased, or it is as it was.
        have hlost : row.leaseOwner = none → SameProgress stage row := by
          intro hunleased
          rw [hunleased] at howner'
          cases howner'
        cases hmove with
        | kept hsame _ howner =>
            refine (hcurrent task htask ?_).trans hsame
            rw [← howner, ← hworker]
            exact howner'
        | claimed _ hunleased hopen _ =>
            exact (h.unclaimable hrun hbefore htask hunleased hopen).elim
        | released _ _ _ _ hunleased _ _ => exact hlost hunleased
        | closed hunleased _ _ => exact hlost hunleased
        | @advanced caller _ _ _ clock lost hevent hcaller hcallerTask hcallerPhase _ _ _ _ _ =>
            have hcalls : caller.loops taskId :=
              ⟨hcallerTask.trans htaskId, by rw [hcallerPhase]; rfl⟩
            have hsame := h.alone caller hcaller run hrun hcalls hbefore
            obtain rfl := s.runs.eq_of_key hcaller hrun hsame
            rw [hquiet clock lost hevent] at hrow
            rw [hworker] at howner'
            exact hcurrent row hrow howner'
    | moved hstore hchange =>
        cases hchange with
        | kept => exact hold hstore hsnapshot
        | flagged _ => exact hold hstore hsnapshot
        | @checked task stopping hphase hread howner =>
            have hstage : task = stage := by
              unfold boundaryPhase at hsnapshot
              dsimp only at hsnapshot
              split_ifs at hsnapshot
              · cases hsnapshot
              · cases hsnapshot
              · cases hsnapshot
              · cases hsnapshot
                rfl
            subst hstage
            rw [hbefore.1] at hread
            refine ⟨(Store.getTask_eq_some_iff.mp hread).2, ?_⟩
            intro row hrow _
            rw [hstore, hread] at hrow
            cases hrow
            exact ⟨rfl, rfl, rfl, rfl⟩
        | @gated task forceKillSwitch now abortReason hphase =>
            refine hold hstore ?_
            rw [hphase]
            unfold gatePhase at hsnapshot
            dsimp only at hsnapshot
            split_ifs at hsnapshot
            · cases hsnapshot
            · cases hsnapshot
            · cases hsnapshot
            · exact hsnapshot
            · cases hsnapshot
            · exact hsnapshot
        | finished _ hphase _ =>
            refine hold hstore ?_
            rw [hphase]
            exact hsnapshot
        | interrupted _ _ => cases hsnapshot
        | advanced _ => cases hsnapshot
        | failed => cases hsnapshot
        | handedBack _ _ => cases hsnapshot
    | performed _ hphase =>
        rcases hphase with ⟨hphase, _⟩ | ⟨_, hphase⟩
        · rw [hphase] at hsnapshot
          cases hsnapshot
        · rw [hphase] at hsnapshot
          cases hsnapshot
  · rw [hstarts.phase] at hsnapshot
    cases hsnapshot

/-- A row that is out of the workflow stays out of it. -/
theorem SoleLoop.step_closed (htask : s.store.getTask taskId = some task)
    (hclosed : task.state ∈ closedStates)
    (hrow : (step config s event).store.getTask taskId = some row) :
    row.state ∈ closedStates := by
  obtain ⟨task', htask', hmove⟩ := h.row_step hretry hrow
  rw [htask] at htask'
  cases htask'
  cases hmove with
  | kept hsame _ _ => rwa [hsame.state]
  | claimed _ _ hopen _ => exact absurd hclosed hopen
  | released _ _ _ _ _ _ hstate =>
      rcases hstate with ⟨hstate, _⟩ | ⟨hopen, _⟩
      · rwa [hstate]
      · exact absurd hclosed hopen
  | closed _ hstate _ => exact hstate
  | @advanced _ _ outcome _ _ _ _ _ _ _ _ hstage hmove _ hrow =>
      rw [hrow]
      rw [hstage.state] at hclosed
      rcases stageMove_source hmove with hblocked | hopen
      · show outcome.toState ∈ closedStates
        rw [hblocked]
        exact List.mem_cons_self
      · exact absurd hclosed hopen

omit hretry in
theorem SoleLoop.step_moves {run' : RunEntry} {stage : Task} {outcome : StageOutcome}
    {now : Instant}
    (hresult : ∀ id outcome now run stage, event = .finish id outcome now →
      s.runs.find? id = some run → run.taskId = taskId → run.phase = .running stage →
        outcome.Moves deps stage)
    (hrun' : run' ∈ (step config s event).runs.rows) (hid' : run'.taskId = taskId)
    (hphase' : run'.phase = .applying stage outcome now) : outcome.Moves deps stage := by
  rcases step_runStep hrun' with ⟨run, hrun, ⟨_, _, hid⟩, hstep⟩ | ⟨task, row', hstarts⟩
  · have hbefore : run.phase = .applying stage outcome now → outcome.Moves deps stage :=
      h.moves run hrun (hid ▸ hid') stage outcome now
    cases hstep with
    | kept hphase _ => exact hbefore (hphase ▸ hphase')
    | moved _ hchange =>
        cases hchange with
        | kept => exact hbefore hphase'
        | flagged _ => exact hbefore hphase'
        -- The one step that takes a result from a handler.
        | finished hevent hphase _ =>
            cases hphase'
            exact hresult _ _ _ run stage hevent (Table.find?_of_mem hrun) hid' hphase
        | checked _ _ _ =>
            unfold boundaryPhase at hphase'
            dsimp only at hphase'
            split_ifs at hphase'
        | gated _ =>
            unfold gatePhase at hphase'
            dsimp only at hphase'
            split_ifs at hphase'
        | _ => cases hphase'
    | performed _ hphase =>
        rw [hphase'] at hphase
        rcases hphase with ⟨hphase, _⟩ | ⟨_, hphase⟩
        · cases hphase
        · cases hphase
  · rw [hstarts.phase] at hphase'
    cases hphase'

theorem SoleLoop.step_handsBack {run' : RunEntry} {stage : Task} {message : String}
    (hrun' : run' ∈ (step config s event).runs.rows) (hid' : run'.taskId = taskId)
    (hphase' : run'.phase = .handingBack stage message)
    (hblock : canTransition stage.state blocked = false)
    (hrow : (step config s event).store.getTask taskId = some row) :
    row.state ∈ closedStates := by
  rcases step_runStep hrun' with ⟨run, hrun, ⟨_, _, hid⟩, hstep⟩ | ⟨task, row', hstarts⟩
  · have hbefore : run.phase = .handingBack stage message → row.state ∈ closedStates := by
      intro hphase
      obtain ⟨task, htask⟩ := h.row
      exact h.step_closed hretry htask
        (h.handsBack run hrun (hid ▸ hid') stage message hphase hblock task htask) hrow
    cases hstep with
    | kept hphase _ => exact hbefore (hphase ▸ hphase')
    | moved hstore hchange =>
        cases hchange with
        | kept => exact hbefore hphase'
        | flagged _ => exact hbefore hphase'
        | handedBack _ hread =>
            -- The row as `failTask` has just read it.
            cases hphase'
            rw [hid'] at hread
            rw [hstore, hread] at hrow
            cases hrow
            revert hblock
            cases row.state <;> decide
        | checked _ _ _ =>
            unfold boundaryPhase at hphase'
            dsimp only at hphase'
            split_ifs at hphase'
        | gated _ =>
            unfold gatePhase at hphase'
            dsimp only at hphase'
            split_ifs at hphase'
        | _ => cases hphase'
    | performed _ hphase =>
        rw [hphase'] at hphase
        rcases hphase with ⟨hphase, _⟩ | ⟨_, hphase⟩
        · cases hphase
        · cases hphase
  · rw [hstarts.phase] at hphase'
    cases hphase'

/-- Every event but a retry keeps the sole loop, if the results of handlers are moves. -/
theorem SoleLoop.step
    (hresult : ∀ id outcome now run stage, event = .finish id outcome now →
      s.runs.find? id = some run → run.taskId = taskId → run.phase = .running stage →
        outcome.Moves deps stage) :
    SoleLoop deps taskId (Orchestrator.step config s event) where
  row := by
    obtain ⟨task, htask⟩ := h.row
    obtain ⟨row, hrow, _⟩ := step_persists config event htask
    exact ⟨row, hrow⟩
  holds := fun _ hrun hloops _ hrow => h.step_holds hretry hrun hloops hrow
  alone := fun _ hrun _ hother hloops hotherLoops => h.step_alone hrun hother hloops hotherLoops
  current := fun _ hrun hid _ hsnapshot => h.step_current hretry hrun hid hsnapshot
  moves := fun _ hrun hid _ _ _ hphase => h.step_moves hresult hrun hid hphase
  handsBack := fun _ hrun hid _ _ hphase hblock _ hrow =>
    h.step_handsBack hretry hrun hid hphase hblock hrow

end Step

end Moves

/-! ## Handlers and the scheduler together -/

/-- The workers, with the world that the handlers of a task see. -/
structure Handled (ω : Type) where
  system : System
  world : StageWorld ω

/-- How the end of a handler reaches the scheduler. -/
inductive EndsIn (id : Nat) : Ending StageError StageOutcome → Event → Prop
  | returned {outcome : StageOutcome} {now : Instant} :
      EndsIn id (.returned outcome) (.finish id outcome now)
  | threw {failure : StageError} {message : String} : EndsIn id (.threw failure) (.throws id message)
  | crashed {runs intakes : List Nat} (hdies : id ∈ runs) :
      EndsIn id .crashed (.crash runs intakes)

/-- The event is the result of a handler of the task. -/
def Event.ResultFor (s : System) (taskId : TaskId) (event : Event) : Prop :=
  ∃ id outcome now run, event = .finish id outcome now ∧ s.runs.find? id = some run ∧
    run.taskId = taskId

/-- One step of the workers around a task; `allowed` are the other events. -/
inductive HandledStep {ω : Type} (config : SchedulerConfig) (deps : DeliveryDependencies)
    (deliver : Bool) (taskId : TaskId) (allowed : Event → Prop) : Handled ω → Handled ω → Prop
  | scheduled {h : Handled ω} {event : Event} (hallowed : allowed event)
      (hresult : ¬ event.ResultFor h.system taskId) :
      HandledStep config deps deliver taskId allowed h ⟨step config h.system event, h.world⟩
  /-- The handler of a running stage runs to its end, or to a crash. -/
  | handled {h : Handled ω} {services : Services ω} {run : RunEntry} {task : Task}
      {handler : StageProc StageOutcome} {ending : Ending StageError StageOutcome}
      {event : Event} {w' : StageWorld ω} (hrun : run ∈ h.system.runs.rows)
      (htask : run.taskId = taskId) (hphase : run.phase = .running task)
      (hhandler : executionHandler deps deliver task = some handler)
      (hexec : Exec (serves services ⟨task.id, task.state⟩) handler h.world ending w')
      (hends : EndsIn run.id ending event) :
      HandledStep config deps deliver taskId allowed h ⟨step config h.system event, w'⟩
  /-- A handler of another task makes a call. -/
  | elsewhere {h : Handled ω} {services : Services ω} {writer : StageWriter} {call : StageCall}
      {answer : Except StageError call.Answer} {w' : StageWorld ω}
      (hother : writer.taskId ≠ taskId) (hserves : serves services writer h.world call answer w') :
      HandledStep config deps deliver taskId allowed h ⟨h.system, w'⟩
  /-- Something changes outside. -/
  | outside {h : Handled ω} {outside : ω} :
      HandledStep config deps deliver taskId allowed h ⟨h.system, { h.world with outside }⟩

/-- The event is no retry of the task. -/
def Event.Unretried (taskId : TaskId) (event : Event) : Prop :=
  ∀ context clock, event ≠ .retry taskId context clock

/-- What holds of a task, its runs and its tables until an operator retries it. -/
structure HandledOnce {ω : Type} (deps : StageDependencies) (taskId : TaskId) (h : Handled ω) :
    Prop where
  sole : SoleLoop deps taskId h.system
  within : h.world.tables.ImplementationWithin taskId deps.config.maxImplementationAttempts

section Handled

variable {ω : Type} {config : SchedulerConfig} {deps : DeliveryDependencies} {deliver : Bool}
  {taskId : TaskId} {h h' : Handled ω}

theorem EndsIn.unretried {id : Nat} {ending : Ending StageError StageOutcome} {event : Event}
    (h : EndsIn id ending event) : event.Unretried taskId := by
  intro context clock hevent
  cases h with
  | returned => cases hevent
  | threw => cases hevent
  | crashed => cases hevent

/-- A result that reaches the scheduler is one the handler can return. -/
theorem HandledOnce.result {services : Services ω} {run : RunEntry} {task : Task}
    {handler : StageProc StageOutcome} {ending : Ending StageError StageOutcome} {event : Event}
    {w' : StageWorld ω} (hinv : HandledOnce deps.toStageDependencies taskId h)
    (hrun : run ∈ h.system.runs.rows) (htask : run.taskId = taskId)
    (hphase : run.phase = .running task)
    (hhandler : executionHandler deps deliver task = some handler)
    (hexec : Exec (serves services ⟨task.id, task.state⟩) handler h.world ending w')
    (hends : EndsIn run.id ending event) :
    w'.tables.ImplementationWithin taskId deps.config.maxImplementationAttempts ∧
      ∀ id outcome now found stage, event = .finish id outcome now →
        h.system.runs.find? id = some found → found.taskId = taskId →
        found.phase = .running stage → outcome.Moves deps.toStageDependencies stage := by
  have hid : task.id = taskId := (hinv.sole.current run hrun htask task (by rw [hphase]; rfl)).1
  have hkeeps := keeps_iff.mp (keeps_handler hhandler (hid ▸ hinv.within)) _ _ hexec
  refine ⟨hid ▸ hkeeps.1, ?_⟩
  intro id outcome now found stage hevent hfound _ hstage
  subst hevent
  cases hends with
  | returned =>
      rw [Table.find?_of_mem hrun] at hfound
      cases hfound
      rw [hphase] at hstage
      cases hstage
      exact hkeeps.2 outcome rfl

/-- The step as an event of the system. -/
theorem HandledStep.system
    (hstep : HandledStep config deps deliver taskId (Event.Unretried taskId) h h') :
    h'.system = h.system ∨ ∃ event, event.Unretried taskId ∧
      h'.system = step config h.system event := by
  cases hstep with
  | scheduled hallowed hresult => exact Or.inr ⟨_, hallowed, rfl⟩
  | handled hrun htask hphase hhandler hexec hends => exact Or.inr ⟨_, hends.unretried, rfl⟩
  | elsewhere hother hserves => exact Or.inl rfl
  | outside => exact Or.inl rfl

/-- A call for another task leaves the checkpoints of this one. -/
theorem getCheckpoint_elsewhere {services : Services ω} {writer : StageWriter} {call : StageCall}
    {answer : Except StageError call.Answer} {w w' : StageWorld ω} {key : CheckpointKey}
    (hother : writer.taskId ≠ taskId) (hserves : serves services writer w call answer w') :
    w'.tables.getCheckpoint taskId key = w.tables.getCheckpoint taskId key := by
  cases call with
  | service call =>
      rcases hserves with ⟨outside, _, rfl⟩
      rfl
  | database call =>
      rcases hserves with ⟨holds, now, tables, value, hperform, rfl, _⟩ | ⟨rfl, _⟩
      · apply (committed hperform).getCheckpoint
        intro payload htask
        exact absurd htask hother
      · rfl

/-- Without a retry at most one loop is about the task, and its handlers see the row that
their results are applied to. -/
theorem HandledOnce.step (hinv : HandledOnce deps.toStageDependencies taskId h)
    (hstep : HandledStep config deps deliver taskId (Event.Unretried taskId) h h') :
    HandledOnce deps.toStageDependencies taskId h' := by
  cases hstep with
  | scheduled hallowed hresult =>
      refine ⟨hinv.sole.step hallowed ?_, hinv.within⟩
      intro id outcome now run stage hevent hrun htask _
      exact absurd ⟨id, outcome, now, run, hevent, hrun, htask⟩ hresult
  | handled hrun htask hphase hhandler hexec hends =>
      obtain ⟨hwithin, hresult⟩ := hinv.result hrun htask hphase hhandler hexec hends
      exact ⟨hinv.sole.step hends.unretried hresult, hwithin⟩
  | @elsewhere services writer call answer w' hother hserves =>
      refine ⟨hinv.sole, ?_⟩
      intro recorded hslot
      rw [getCheckpoint_elsewhere hother hserves] at hslot
      exact hinv.within recorded hslot
  | outside => exact ⟨hinv.sole, hinv.within⟩

end Handled

end Orchestrator
