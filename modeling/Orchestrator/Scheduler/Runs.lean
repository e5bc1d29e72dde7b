import Orchestrator.Scheduler.Changes

/-! # What one event does to the runs in progress

`RunChange` lists the moves of a `runTask` call; `step_runs` says that every run
after an event is one of the runs before it, moved so, or was started by a claim.
-/

namespace Orchestrator

open Kit TaskState

/-- The moves of one run. -/
inductive RunChange (config : SchedulerConfig) (s : System) (event : Event) (run : RunEntry) :
    RunEntry → Prop
  | kept : RunChange config s event run run
  /-- A heartbeat or an abort request; a lost lease is never found again. -/
  | flagged {leaseLost heartbeatState abortReason}
      (hlost : run.leaseLost = true → leaseLost = true) :
      RunChange config s event run { run with leaseLost, heartbeatState, abortReason }
  | checked {task stopping} (hphase : run.phase = .boundary)
      (hrow : s.store.getTask run.taskId = some task)
      (howner : task.leaseOwner = some run.workerId) :
      RunChange config s event run { run with phase := boundaryPhase task stopping }
  | gated {task forceKillSwitch now abortReason} (hphase : run.phase = .readingControls task) :
      RunChange config s event run { run with
        phase := gatePhase config s.store.getControls forceKillSwitch task now, abortReason }
  | finished {task outcome now} (hevent : event = .finish run.id outcome now)
      (hphase : run.phase = .running task) (hlost : run.leaseLost = false) :
      RunChange config s event run { run with
        phase := .applying task outcome now, abortReason := none }
  | interrupted {task} (hphase : run.phase = .running task) (hlost : run.leaseLost = false) :
      RunChange config s event run { run with phase := .boundary, abortReason := none }
  | advanced (hphase : run.phase.isAdvance = true) :
      RunChange config s event run { run with phase := .boundary }
  | failed {message abortReason} :
      RunChange config s event run { run with phase := .failing message, abortReason }
  | handedBack {task message} (hphase : run.phase = .failing message)
      (hrow : s.store.getTask run.taskId = some task) :
      RunChange config s event run { run with phase := .handingBack task message }

/-- The run that a claim starts. -/
structure Started (config : SchedulerConfig) (s : System) (event : Event) (run : RunEntry)
    (task : Task) : Prop where
  event : ∃ lane override gated now locked clock,
    event = .claim run.workerId lane override gated now locked clock ∧
      ClaimGrant s.store (claimInput config run.workerId lane override gated now) locked task
  run : run = { id := s.claims, workerId := run.workerId, taskId := task.id }

/-- No change touches the id, the worker and the task of a run. -/
theorem RunChange.same {config : SchedulerConfig} {s : System} {event : Event}
    {run run' : RunEntry} (h : RunChange config s event run run') :
    run'.id = run.id ∧ run'.workerId = run.workerId ∧ run'.taskId = run.taskId := by
  cases h <;> exact ⟨rfl, rfl, rfl⟩

/-- Every run of the table is a run of `s`, moved by the event. -/
def RunsFrom (config : SchedulerConfig) (s : System) (event : Event)
    (runs : Table RunEntry.id) : Prop :=
  ∀ run' ∈ runs.rows, ∃ run ∈ s.runs.rows, RunChange config s event run run'

section Rules

variable {config : SchedulerConfig} {s : System} {event : Event}

theorem runsFrom_same : RunsFrom config s event s.runs :=
  fun run hrun => ⟨run, hrun, .kept⟩

theorem runsFrom_filter {p : RunEntry → Bool} : RunsFrom config s event (s.runs.filter p) :=
  fun run hrun => ⟨run, (Table.mem_filter.mp hrun).1, .kept⟩

/-- Changing one run of the table is a change of the runs. -/
theorem runsFrom_put {id : Nat} {run run' : RunEntry} (hrun : s.runs.find? id = some run)
    (hchange : RunChange config s event run run') : RunsFrom config s event (s.runs.put run') := by
  intro other hother
  rcases Table.mem_put.mp hother with ⟨rfl, _⟩ | ⟨hother, _⟩
  · exact ⟨run, Table.mem_of_find? hrun, hchange⟩
  · exact ⟨other, hother, .kept⟩

/-- A thrown error ends the run or hands it to `failTask`. -/
theorem runsFrom_catchError {id : Nat} {run : RunEntry} {leaseError : Bool} {message : String}
    {store : Store} (hrun : s.runs.find? id = some run) :
    RunsFrom config s event
      (({ s with store } : System).catchError run leaseError message).runs := by
  unfold System.catchError
  split_ifs
  · exact runsFrom_filter
  · exact runsFrom_put hrun .failed

/-- An abort request changes nothing but the abort reason. -/
theorem aborted_eq (run : RunEntry) (reason : StageAbortReason) :
    run.aborted reason = { run with abortReason := (run.aborted reason).abortReason } := by
  unfold RunEntry.aborted
  split <;> rfl

end Rules

section Events

variable {config : SchedulerConfig} {s : System} {event : Event} {id : Nat} {run : RunEntry}

/-- A renewal may abort a run; its phase stays. -/
theorem runsFrom_heartbeat {now : Instant} (hrun : s.runs.find? id = some run) :
    RunsFrom config s event (stepHeartbeat config s run now).runs := by
  unfold stepHeartbeat
  split_ifs
  · exact runsFrom_same
  · split
    · split_ifs
      · rw [aborted_eq]
        exact runsFrom_put hrun (.flagged fun h => h)
      · exact runsFrom_put hrun (.flagged fun h => h)
    · split_ifs
      · rw [aborted_eq]
        exact runsFrom_put hrun (.flagged fun _ => rfl)
      · exact runsFrom_same

theorem runsFrom_heartbeatControls {forceKillSwitch : Bool} {now : Instant}
    (hrun : s.runs.find? id = some run) :
    RunsFrom config s event (stepHeartbeatControls config s run forceKillSwitch now).runs := by
  unfold stepHeartbeatControls
  split
  · exact runsFrom_same
  · dsimp only
    split_ifs
    · rw [aborted_eq]
      exact runsFrom_put hrun (.flagged fun h => h)
    · rw [aborted_eq]
      exact runsFrom_put hrun (.flagged fun h => h)
    · exact runsFrom_put hrun (.flagged fun h => h)

theorem runsFrom_readTask {stopping : Bool} (hrun : s.runs.find? id = some run) :
    RunsFrom config s event (stepReadTask s run stopping).runs := by
  unfold stepReadTask
  split
  · next task hphase hrow =>
      split_ifs with howner
      · exact runsFrom_put hrun (.checked hphase hrow howner)
      · exact runsFrom_filter
  · exact runsFrom_filter
  · exact runsFrom_same

/-- The boundary starts the handler, or ends the run. -/
theorem runsFrom_readControls {forceKillSwitch stopping : Bool} {now : Instant}
    (hrun : s.runs.find? id = some run) :
    RunsFrom config s event (stepReadControls config s run forceKillSwitch stopping now).runs := by
  unfold stepReadControls
  split
  · next task hphase => exact runsFrom_put hrun (.gated hphase)
  · exact runsFrom_same

theorem runsFrom_recheck (hrun : s.runs.find? id = some run) :
    RunsFrom config s event (stepRecheck s run).runs := by
  unfold stepRecheck
  split
  · dsimp only
    split_ifs
    · exact runsFrom_catchError hrun
    · exact runsFrom_same
  · exact runsFrom_same

/-- A result of the handler puts its run into the call that applies it. -/
theorem runsFrom_finish {outcome : StageOutcome} {now : Instant}
    (hrun : s.runs.find? run.id = some run) :
    RunsFrom config s (.finish run.id outcome now) (stepFinish s run outcome now).runs := by
  unfold stepFinish
  split
  · next task hphase =>
      split_ifs with hlost
      · exact runsFrom_filter
      · exact runsFrom_put hrun (.interrupted hphase (by simpa using hlost))
      · exact runsFrom_put hrun .failed
      · exact runsFrom_put hrun (.finished rfl hphase (by simpa using hlost))
  · exact runsFrom_same

/-- The call that applies an outcome ends the run or leads it to its next boundary. -/
theorem runsFrom_perform {clock : Instant} {lost : Option String}
    (hrun : s.runs.find? id = some run) :
    RunsFrom config s event (stepPerform config s run clock lost).runs := by
  unfold stepPerform
  split
  · exact runsFrom_same
  · split
    · split_ifs with hadvance
      · exact runsFrom_put hrun (.advanced hadvance)
      · exact runsFrom_filter
    · exact runsFrom_catchError hrun
    · exact runsFrom_catchError hrun

theorem runsFrom_readFailed (hrun : s.runs.find? id = some run) :
    RunsFrom config s event (stepReadFailed s run).runs := by
  unfold stepReadFailed
  split
  · next message task hphase hrow =>
      split_ifs
      · exact runsFrom_put hrun (.handedBack hphase hrow)
      · exact runsFrom_filter
  · exact runsFrom_filter
  · exact runsFrom_same

@[simp] theorem adopt_runs {α : Type} {result : Except WorkflowError (Store × α)} :
    (s.adopt result).runs = s.runs := by
  cases result <;> rfl

@[simp] theorem stepIntake_runs {entry : IntakeEntry} {clock : Instant} :
    (stepIntake s entry clock).runs = s.runs := by
  unfold stepIntake
  split <;> rfl

/-- Everything an event can do to the runs in progress. -/
theorem step_runs {config : SchedulerConfig} {s : System} {event : Event} {run' : RunEntry}
    (h : run' ∈ (step config s event).runs.rows) :
    (∃ run ∈ s.runs.rows, RunChange config s event run run') ∨
      ∃ task, Started config s event run' task := by
  have honRun : ∀ {id : Nat} {act : RunEntry → System},
      (∀ run, s.runs.find? id = some run → RunsFrom config s event (act run).runs) →
      RunsFrom config s event (s.onRun id act).runs := by
    intro id act hact
    unfold System.onRun
    cases hrun : s.runs.find? id with
    | none => exact runsFrom_same
    | some run => exact hact run hrun
  change run' ∈ (effect config s event).runs.rows at h
  cases event with
  | claim workerId lane override gated now locked clock =>
      cases hresult :
          claimNextTask s.store (claimInput config workerId lane override gated now) locked
          clock with
      | error failure =>
          simp only [effect, hresult] at h
          exact Or.inl (runsFrom_same run' h)
      | ok result =>
          obtain ⟨store, claimed⟩ := result
          cases claimed with
          | none =>
              simp only [effect, hresult] at h
              exact Or.inl (runsFrom_same run' h)
          | some row =>
              simp only [effect, hresult, System.startTask] at h
              -- The run that the claim starts is the only one without a predecessor.
              rcases Table.mem_of_mem_insert h with hold | rfl
              · exact Or.inl ⟨run', hold, .kept⟩
              · rcases claimNextTask_eq_ok hresult with ⟨hnone, _⟩ | ⟨task, hgrant, _, _, hrow⟩
                · cases hnone
                · cases hrow
                  exact Or.inr ⟨task, ⟨_, _, _, _, _, _, rfl, hgrant⟩, by simp⟩
  | heartbeat id now => exact Or.inl (honRun (fun run hrun => runsFrom_heartbeat hrun) run' h)
  | heartbeatControls id forceKillSwitch now =>
      exact Or.inl (honRun (fun run hrun => runsFrom_heartbeatControls hrun) run' h)
  | heartbeatFails id =>
      refine Or.inl (honRun (fun run hrun => ?_) run' h)
      exact runsFrom_put hrun (.flagged fun h => h)
  | lateHeartbeat workerId taskId now =>
      exact Or.inl (runsFrom_same run' (by simpa only [effect, adopt_runs] using h))
  | abort id reason =>
      refine Or.inl (honRun (fun run hrun => ?_) run' h)
      rw [aborted_eq]
      exact runsFrom_put hrun (.flagged fun h => h)
  | readTask id stopping => exact Or.inl (honRun (fun run hrun => runsFrom_readTask hrun) run' h)
  | readControls id forceKillSwitch stopping now =>
      exact Or.inl (honRun (fun run hrun => runsFrom_readControls hrun) run' h)
  | recheck id => exact Or.inl (honRun (fun run hrun => runsFrom_recheck hrun) run' h)
  | selectModel id selection clock =>
      refine Or.inl (honRun (fun run _ => ?_) run' h)
      cases hphase : run.phase with
      | running task => simpa only [adopt_runs] using runsFrom_same
      | _ => exact runsFrom_same
  | finish id outcome now =>
      refine Or.inl (honRun (fun run hrun => ?_) run' h)
      obtain rfl : run.id = id := Table.key_of_find? hrun
      exact runsFrom_finish hrun
  | perform id clock lost => exact Or.inl (honRun (fun run hrun => runsFrom_perform hrun) run' h)
  | throws id message => exact Or.inl (honRun (fun run hrun => runsFrom_catchError hrun) run' h)
  | readFailed id => exact Or.inl (honRun (fun run hrun => runsFrom_readFailed hrun) run' h)
  | crash runs intakes => exact Or.inl (runsFrom_filter run' h)
  | recoverExpired now locked clock =>
      exact Or.inl (runsFrom_same run' (by simpa only [effect, adopt_runs] using h))
  | recoverOwned workerId locked clock =>
      exact Or.inl (runsFrom_same run' (by simpa only [effect, adopt_runs] using h))
  | retry taskId context clock =>
      exact Or.inl (runsFrom_same run' (by simpa only [effect, adopt_runs] using h))
  | cancel taskId context clock =>
      exact Or.inl (runsFrom_same run' (by simpa only [effect, adopt_runs] using h))
  | requireManual taskId context clock =>
      exact Or.inl (runsFrom_same run' (by simpa only [effect, adopt_runs] using h))
  | setPauseNewWork paused context clock => exact Or.inl (runsFrom_same run' h)
  | setKillSwitch engaged context clock => exact Or.inl (runsFrom_same run' h)
  | setScheduleOverride override context clock => exact Or.inl (runsFrom_same run' h)
  | startIntake report => exact Or.inl (runsFrom_same run' h)
  | intake id clock =>
      refine Or.inl (runsFrom_same run' ?_)
      cases hentry : s.intakes.find? id with
      | none => simpa only [effect, hentry] using h
      | some entry => simpa only [effect, hentry, stepIntake_runs] using h

end Events

end Orchestrator
