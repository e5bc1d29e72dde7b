import Orchestrator.Intake.Synchronization
import Orchestrator.Scheduler.System

/-! # What one event does to one task row

`RowChange config s event task row` lists every way an event can replace a row,
with the guards the code checked on the way; `StoreChange` says what that does to
the tables. `step_change` and `step_rows` say that nothing else happens; the
invariants of the workflow are derived from them by cases.
-/

namespace Orchestrator

open Kit TaskState

/-- The effect of a repository call on the row of its task. -/
inductive CallEffect (run : RunEntry) (clock : Instant) : RepositoryCall → Task → Task → Prop
  | transition {input : TaskTransitionInput} {task : Task} (htask : task.id = input.taskId)
      (hlease : LeasePermits task input.locked)
      (hallowed : TransitionAllowed task.state input.toState input.resumeState) :
      CallEffect run clock (.transition input) task (task.moved input.locked clock)
  | release {patch : ReleasePatch} {task : Task} (htask : task.id = run.taskId)
      (howner : task.leaseOwner = some run.workerId) :
      CallEffect run clock (.release patch) task (task.released patch clock)
  | defer {untilTime : Instant} {lastError : Option (Option String)} {task : Task}
      (htask : task.id = run.taskId) (howner : task.leaseOwner = some run.workerId) :
      CallEffect run clock (.defer untilTime lastError) task
        (task.deferred untilTime lastError clock)

/-- The event recovers leases that satisfy this condition. -/
inductive Recovers : Event → (Task → Bool) → String → List TaskId → Instant → Prop
  | expired (now locked clock) : Recovers (.recoverExpired now locked clock) (leaseExpired now)
      "Lease expired; manual recovery required" locked clock
  | owned (workerId locked clock) : Recovers (.recoverOwned workerId locked clock)
      (fun task => task.leaseOwner = some workerId)
      "Worker restarted while holding lease; manual recovery required" locked clock

/-- The ways an event changes a row. -/
inductive RowChange (config : SchedulerConfig) (s : System) : Event → Task → Task → Prop
  | kept {event task} : RowChange config s event task task
  | claimed {workerId lane override gated now locked clock task}
      (hgrant : ClaimGrant s.store (claimInput config workerId lane override gated now) locked task)
      (hallowed : ∀ transition,
        claimTransition (claimInput config workerId lane override gated now) task =
          some transition →
          TransitionAllowed task.state transition.toState none) :
      RowChange config s (.claim workerId lane override gated now locked clock) task
        (claimedRow (claimInput config workerId lane override gated now) task clock)
  | renewed {event workerId now task} (howner : task.leaseOwner = some workerId) :
      RowChange config s event task (task.renewed config.leaseDurationMs now)
  | modelSelected {event workerId selection clock task}
      (howner : task.leaseOwner = some workerId) :
      RowChange config s event task (task.modelSelected selection clock)
  | performed {id run call clock lost task row} (hrun : s.runs.find? id = some run)
      (hcall : phaseCall config run = some call) (heffect : CallEffect run clock call task row) :
      RowChange config s (.perform id clock lost) task row
  | recovered {event condition reason locked clock task}
      (hevent : Recovers event condition reason locked clock)
      (hcandidate : task ∈ recoveryCandidates s.store condition locked) :
      RowChange config s event task (task.moved (recoveryInput reason) clock)
  | retried {context clock task} (howner : task.leaseOwner = none)
      (hallowed : TransitionAllowed task.state queued none) :
      RowChange config s (.retry task.id context clock) task
        (task.moved (retryInput task context) clock)
  | cancelRequested {event clock task} (howner : task.leaseOwner ≠ none) :
      RowChange config s event task (task.cancelRequested clock)
  | cancelled {event context clock task} (howner : task.leaseOwner = none)
      (hallowed : canTransition task.state cancelled = true) :
      RowChange config s event task (task.moved (cancelInput context) clock)
  | manualBlocked {event context clock task} (howner : task.leaseOwner = none)
      (hallowed : canTransition task.state blocked = true) :
      RowChange config s event task (task.moved (manualInput context) clock)
  | manualFlagged {event note clock task} :
      RowChange config s event task (task.manualRequired note clock)

/-- A row that intake has just created. -/
def Created (row : Task) : Prop :=
  ∃ input id clock, row = CreateTaskInput.row input id clock

/-! ## Replacing one row -/

/-- The history of a replaced row: a legal transition with its record, or no record
and no state change. -/
def Recorded (store store' : Store) (task row : Task) : Prop :=
  (store'.stateTransitions = store.stateTransitions ∧ row.state = task.state) ∨
    ∃ reason createdAt, canTransition task.state row.state = true ∧
      store'.stateTransitions = store.stateTransitions ++
        [⟨task.id, task.state, row.state, reason, createdAt⟩]

/-- `store'` is `store` with one row replaced. -/
structure PutRow (store store' : Store) (task row : Task) : Prop where
  found : store.getTask task.id = some task
  sameId : row.id = task.id
  tasks : store'.tasks = store.tasks.put row
  taskWorkUnits : store'.taskWorkUnits = store.taskWorkUnits
  recorded : Recorded store store' task row

theorem PutRow.audit {store store' : Store} {task row : Task} {action : OperatorActionType}
    {context : OperatorContext} {taskId : Option TaskId} {details : List (String × Option String)}
    (h : PutRow store store' task row) :
    PutRow store (store'.audit action context taskId details) task row :=
  ⟨h.found, h.sameId, h.tasks, h.taskWorkUnits, h.recorded⟩

theorem putRow_moved {store : Store} {task : Task} {input : LockedTransitionInput}
    {clock : Instant} (hrow : store.getTask task.id = some task)
    (hallowed : canTransition task.state input.toState = true) :
    PutRow store (store.moved task input clock) task (task.moved input clock) :=
  ⟨hrow, rfl, rfl, rfl, Or.inr ⟨_, _, hallowed, rfl⟩⟩

theorem putRow_putTask {store : Store} {task : Task} (row : Task)
    (hrow : store.getTask task.id = some task) (hid : row.id = task.id)
    (hstate : row.state = task.state) : PutRow store (store.putTask row) task row :=
  ⟨hrow, hid, rfl, rfl, Or.inl ⟨rfl, hstate⟩⟩

theorem putRow_claimed {store : Store} {input : TaskClaimWithLimitInput} {task : Task}
    {clock : Instant} (hrow : store.getTask task.id = some task)
    (hallowed : ∀ transition, claimTransition input task = some transition →
      TransitionAllowed task.state transition.toState none) :
    PutRow store (claimedStore store input task clock) task (claimedRow input task clock) := by
  unfold claimedStore claimedRow
  cases h : claimTransition input task with
  | some transition => exact putRow_moved hrow (hallowed transition h).1
  | none => exact putRow_putTask _ hrow rfl rfl

/-- The row that `PutRow` replaced, read back. -/
theorem PutRow.getTask {store store' : Store} {task row : Task} (h : PutRow store store' task row)
    (taskId : TaskId) :
    store'.getTask taskId = if taskId = row.id then some row else store.getTask taskId := by
  rw [Store.getTask, h.tasks]
  split_ifs with hid
  · subst hid
    exact Table.find?_put_self (h.sameId ▸ h.found)
  · exact Table.find?_put_of_ne hid

/-- A call that succeeds replaces one row, by its effect. -/
theorem perform_eq_ok {call : RepositoryCall} {store store' : Store} {run : RunEntry}
    {clock : Instant} {row : Task}
    (h : call.perform store run.taskId run.workerId clock = .ok (store', row)) :
    ∃ task, CallEffect run clock call task row ∧ PutRow store store' task row := by
  cases call with
  | transition input =>
      obtain ⟨task, htask, hlease, hallowed, rfl, rfl⟩ := transitionTask_eq_ok_iff.mp h
      exact ⟨task, .transition (Store.getTask_eq_some_iff.mp htask).2 hlease hallowed,
        putRow_moved (getTask_self htask) hallowed.1⟩
  | release patch =>
      obtain ⟨task, htask, howner, rfl, rfl⟩ := updateLeased_eq_ok_iff.mp h
      exact ⟨task, .release (Store.getTask_eq_some_iff.mp htask).2 howner,
        putRow_putTask _ (getTask_self htask) rfl rfl⟩
  | defer untilTime lastError =>
      obtain ⟨task, htask, howner, rfl, rfl⟩ := updateLeased_eq_ok_iff.mp h
      exact ⟨task, .defer (Store.getTask_eq_some_iff.mp htask).2 howner,
        putRow_putTask _ (getTask_self htask) rfl rfl⟩

/-! ## Frame lemmas -/

section Frame

variable {config : SchedulerConfig} {s : System}

@[simp] theorem startTask_store {workerId : WorkerId} {row : Task} :
    (s.startTask workerId row).store = s.store := rfl

@[simp] theorem catchError_store {run : RunEntry} {leaseError : Bool} {message : String} :
    (s.catchError run leaseError message).store = s.store := by
  unfold System.catchError
  split <;> rfl

@[simp] theorem step_store {event : Event} :
    (step config s event).store = (effect config s event).store := rfl

theorem stepReadTask_store {run : RunEntry} {stopping : Bool} :
    (stepReadTask s run stopping).store = s.store := by
  unfold stepReadTask
  split <;> (try split) <;> rfl

theorem stepReadControls_store {run : RunEntry} {forceKillSwitch stopping : Bool}
    {now : Instant} :
    (stepReadControls config s run forceKillSwitch stopping now).store = s.store := by
  unfold stepReadControls
  split <;> rfl

theorem stepHeartbeatControls_store {run : RunEntry} {forceKillSwitch : Bool} {now : Instant} :
    (stepHeartbeatControls config s run forceKillSwitch now).store = s.store := by
  unfold stepHeartbeatControls
  split
  · rfl
  · dsimp only
    split_ifs <;> rfl

theorem stepRecheck_store {run : RunEntry} : (stepRecheck s run).store = s.store := by
  unfold stepRecheck
  split
  · dsimp only
    split_ifs <;> simp
  · rfl

theorem stepFinish_store {run : RunEntry} {outcome : StageOutcome} {now : Instant} :
    (stepFinish s run outcome now).store = s.store := by
  unfold stepFinish
  split
  · split_ifs <;> rfl
  · rfl

theorem stepReadFailed_store {run : RunEntry} : (stepReadFailed s run).store = s.store := by
  unfold stepReadFailed
  split <;> (try split) <;> rfl

end Frame

/-! ## Store changes of an event -/

/-- How the store of an event's result relates to the one before. -/
inductive StoreChange (config : SchedulerConfig) (s : System) (event : Event) (store' : Store) :
    Prop
  /-- One row is replaced. -/
  | put {task row : Task} (hput : PutRow s.store store' task row)
      (hchange : RowChange config s event task row)
  /-- Rows, work units and histories are untouched. -/
  | same (htasks : store'.tasks = s.store.tasks)
      (hunits : store'.taskWorkUnits = s.store.taskWorkUnits)
      (hhistory : store'.stateTransitions = s.store.stateTransitions)
  /-- Intake adds a row with its work units. -/
  | created {row : Task} {units : List TaskWorkUnit} (hfresh : s.store.getTask row.id = none)
      (hcreated : Created row) (htasks : store'.tasks = s.store.tasks.insert row)
      (hunits : store'.taskWorkUnits = s.store.taskWorkUnits ++ units)
      (howner : ∀ unit ∈ units, unit.taskId = row.id)
      (hhistory : store'.stateTransitions = s.store.stateTransitions)
  /-- Recovery blocks the selected rows. -/
  | recovered {condition reason locked clock}
      (hevent : Recovers event condition reason locked clock)
      (hstore : store' = recoveredStore reason clock s.store
        (recoveryCandidates s.store condition locked))

theorem StoreChange.of_eq {config : SchedulerConfig} {s : System} {event : Event} {store' : Store}
    (h : store' = s.store) : StoreChange config s event store' := by
  subst h
  exact .same rfl rfl rfl

/-- The rows after a change, one by one. -/
theorem StoreChange.rows {config : SchedulerConfig} {s : System} {event : Event}
    {store' : Store} (h : StoreChange config s event store') {taskId : TaskId} {row : Task}
    (hrow : store'.getTask taskId = some row) :
    (∃ task, s.store.getTask taskId = some task ∧ RowChange config s event task row) ∨
      (s.store.getTask taskId = none ∧ Created row) := by
  -- A change is about one row, a new row or the recovered rows; the others are kept.
  cases h with
  | @put task row' hput hchange =>
      rw [hput.getTask] at hrow
      split_ifs at hrow with hself
      · cases hrow
        exact Or.inl ⟨task, hself ▸ hput.sameId ▸ hput.found, hchange⟩
      · exact Or.inl ⟨row, hrow, .kept⟩
  | same htasks _ _ =>
      rw [Store.getTask, htasks] at hrow
      exact Or.inl ⟨row, hrow, .kept⟩
  | @created row' _ hfresh hcreated htasks _ _ _ =>
      rw [Store.getTask, htasks] at hrow
      obtain ⟨hmem, hkey⟩ := Table.find?_eq_some_iff.mp hrow
      rcases (Table.mem_insert hfresh).mp hmem with hold | rfl
      · exact Or.inl ⟨row, Table.find?_eq_some_iff.mpr ⟨hold, hkey⟩, .kept⟩
      · exact Or.inr ⟨hkey ▸ hfresh, hcreated⟩
  | @recovered condition reason locked clock hevent hstore =>
      rw [hstore, getTask_recoveredStore _ _
        (selected_recoveryCandidates s.store condition locked)] at hrow
      obtain ⟨task, htask, hmap⟩ := Option.map_eq_some_iff.mp hrow
      refine Or.inl ⟨task, htask, ?_⟩
      split_ifs at hmap with hcandidate
      · subst hmap
        exact .recovered hevent hcandidate
      · subst hmap
        exact .kept

section Events

variable {config : SchedulerConfig} {s : System} {event : Event}

theorem storeChange_heartbeat {store : Store} {taskId : TaskId} {workerId : WorkerId}
    {now : Instant} {row : Task}
    (h : heartbeat s.store taskId workerId config.leaseDurationMs now = .ok (store, row)) :
    StoreChange config s event store := by
  obtain ⟨_, task, htask, howner, rfl, _⟩ := heartbeat_eq_ok_iff.mp h
  exact .put (putRow_putTask _ (getTask_self htask) rfl rfl) (.renewed howner)

theorem storeChange_claim {workerId : WorkerId} {lane : ClaimLane} {override : ScheduleOverride}
    {gated now clock : Instant} {locked : List TaskId} {store : Store} {claimed : Option Task}
    (h : claimNextTask s.store (claimInput config workerId lane override gated now) locked clock =
      .ok (store, claimed)) :
    StoreChange config s (.claim workerId lane override gated now locked clock) store := by
  rcases claimNextTask_eq_ok h with ⟨_, rfl⟩ | ⟨task, hgrant, hallowed, rfl, _⟩
  · exact .same rfl rfl rfl
  · exact .put (putRow_claimed hgrant.row hallowed) (.claimed hgrant hallowed)

theorem storeChange_recover {condition : Task → Bool} {reason : String}
    {locked : List TaskId} {clock : Instant}
    (hevent : Recovers event condition reason locked clock) :
    StoreChange config s event (s.adopt
      ((recoverLeases s.store condition reason locked clock).map (·, ()))).store := by
  rw [recoverLeases_eq]
  exact .recovered hevent rfl

theorem storeChange_retry {taskId : TaskId} {context : OperatorContext} {clock : Instant} :
    StoreChange config s (.retry taskId context clock)
      (s.adopt (retryTask s.store taskId context clock)).store := by
  cases h : retryTask s.store taskId context clock with
  | error failure => exact .same rfl rfl rfl
  | ok result =>
      obtain ⟨task, htask, howner, hallowed, _, hstore⟩ := retryTask_eq_ok h
      obtain rfl : task.id = taskId := (Store.getTask_eq_some_iff.mp htask).2
      change StoreChange config s _ result.1
      rw [hstore]
      exact .put (putRow_moved (getTask_self htask) hallowed.1).audit (.retried howner hallowed)

theorem storeChange_cancel {taskId : TaskId} {context : OperatorContext} {clock : Instant} :
    StoreChange config s event (s.adopt (cancelTask s.store taskId context clock)).store := by
  cases h : cancelTask s.store taskId context clock with
  | error failure => exact .same rfl rfl rfl
  | ok result =>
      obtain ⟨task, htask, hcan, hcases⟩ := cancelTask_eq_ok h
      change StoreChange config s event result.1
      rcases hcases with ⟨howner, _, details, hstore⟩ | ⟨howner, _, details, hstore⟩
      · rw [hstore]
        exact .put (putRow_putTask (task.cancelRequested clock)
          (getTask_self htask) rfl rfl).audit (.cancelRequested howner)
      · rw [hstore]
        exact .put (putRow_moved (getTask_self htask) hcan).audit (.cancelled howner hcan)

theorem storeChange_requireManual {taskId : TaskId} {context : OperatorContext}
    {clock : Instant} : StoreChange config s event
      (s.adopt (requireManualIntervention s.store taskId context clock)).store := by
  cases h : requireManualIntervention s.store taskId context clock with
  | error failure => exact .same rfl rfl rfl
  | ok result =>
      obtain ⟨task, details, htask, hcases⟩ := requireManualIntervention_eq_ok h
      change StoreChange config s event result.1
      rcases hcases with ⟨howner, hblock, _, hstore⟩ | ⟨hflag, hstore⟩
      · rw [hstore]
        exact .put (putRow_moved (getTask_self htask) hblock).audit (.manualBlocked howner hblock)
      · rw [hstore, hflag]
        exact .put (putRow_putTask (task.manualRequired (manualNote context) clock)
          (getTask_self htask) rfl rfl).audit .manualFlagged

/-- Only the creating transaction of an intake pass touches rows. -/
theorem intakeStep_rows {store store' : Store} {pass : IntakePass} {clock : Instant}
    {next : Option IntakePass} (h : intakeStep store pass clock = .ok (store', next)) :
    SameRows store store' ∨
      ∃ issue source row, createTask store (discoveredInput issue source) clock =
        .ok (store', row) := by
  have hcaught : ∀ {issue source failure} {issues : List PlanningIssue},
      (do
        let progress ← catchChanged pass.progress issue source failure
        return (store, some (pass.discover progress issues))) = .ok (store', next) →
      SameRows store store' := by
    intro issue source failure issues h
    cases hcatch : catchChanged pass.progress issue source failure with
    | error failure =>
        rw [hcatch] at h
        cases h
    | ok progress =>
        rw [hcatch] at h
        cases h
        exact ⟨rfl, rfl, rfl⟩
  -- One case for each transaction of a pass; the caught errors share `hcaught`.
  unfold intakeStep at h
  cases hphase : pass.phase with
  | discovering issues =>
      left
      simp only [hphase] at h
      cases issues with
      | nil =>
          cases h
          exact ⟨rfl, rfl, rfl⟩
      | cons issue issues =>
          cases hsource : issue.source with
          | none =>
              simp only [hsource] at h
              cases h
              exact ⟨rfl, rfl, rfl⟩
          | some source =>
              cases hfind : discoveredTask store (discoveredInput issue source) with
              | error failure =>
                  simp only [hsource, hfind] at h
                  exact hcaught h
              | ok found =>
                  simp only [hsource, hfind] at h
                  cases found <;> cases h <;> exact ⟨rfl, rfl, rfl⟩
  | creating issue source issues =>
      cases hcreate : createTask store (discoveredInput issue source) clock with
      | ok created =>
          simp only [hphase, hcreate] at h
          cases h
          exact Or.inr ⟨issue, source, created.2, hcreate⟩
      | error failure =>
          simp only [hphase, hcreate] at h
          exact Or.inl (hcaught h)
  | linking issues =>
      left
      simp only [hphase] at h
      cases issues with
      | nil =>
          cases h
          exact ⟨rfl, rfl, rfl⟩
      | cons issue issues =>
          cases hlink : linkIssue store pass.progress issue with
          | error failure =>
              simp only [hlink] at h
              cases h
          | ok linked =>
              simp only [hlink] at h
              cases h
              exact linkIssue_sameRows hlink
  | quarantining candidates =>
      left
      simp only [hphase] at h
      cases candidates <;> cases h <;> exact ⟨rfl, rfl, rfl⟩

theorem storeChange_intake {entry : IntakeEntry} {clock : Instant} :
    StoreChange config s event (stepIntake s entry clock).store := by
  unfold stepIntake
  cases h : intakeStep s.store entry.pass clock with
  | error failure => exact .same rfl rfl rfl
  | ok result =>
      have hchange : StoreChange config s event result.1 := by
        rcases intakeStep_rows h with hsame | ⟨issue, source, row, hcreate⟩
        · exact .same hsame.tasks hsame.taskWorkUnits hsame.stateTransitions
        · obtain ⟨_, hrow, htasks, hhistory, hunits, _⟩ := createTask_eq_ok hcreate
          refine .created ?_ ⟨_, _, _, hrow⟩ htasks hunits ?_ hhistory
          · rw [hrow]
            exact s.store.getTask_freshTaskId
          · intro unit hunit
            obtain ⟨_, _, rfl⟩ := List.mem_map.mp hunit
            rfl
      obtain ⟨store, next⟩ := result
      cases next <;> exact hchange

theorem storeChange_stepHeartbeat {run : RunEntry} {now : Instant} :
    StoreChange config s event (stepHeartbeat config s run now).store := by
  unfold stepHeartbeat
  split_ifs
  · exact .same rfl rfl rfl
  · cases h : heartbeat s.store run.taskId run.workerId config.leaseDurationMs now with
    | error failure =>
        dsimp only
        split_ifs <;> exact .same rfl rfl rfl
    | ok result =>
        dsimp only
        split_ifs <;> exact storeChange_heartbeat h

theorem storeChange_stepPerform {id : Nat} {run : RunEntry} {clock : Instant}
    {lost : Option String} (hrun : s.runs.find? id = some run) :
    StoreChange config s (.perform id clock lost)
      (stepPerform config s run clock lost).store := by
  unfold stepPerform
  cases hcall : phaseCall config run with
  | none => exact .same rfl rfl rfl
  | some call =>
      dsimp only
      cases hresult : call.perform s.store run.taskId run.workerId clock with
      | error failure =>
          dsimp only
          exact .of_eq catchError_store
      | ok result =>
          have hchange : StoreChange config s (.perform id clock lost) result.1 := by
            obtain ⟨task, heffect, hput⟩ := perform_eq_ok hresult
            exact .put hput (.performed hrun hcall heffect)
          -- Whether the answer arrives makes a difference to the run, not to the store.
          cases lost with
          | none =>
              dsimp only
              split_ifs <;> exact hchange
          | some message =>
              dsimp only
              rw [catchError_store]
              exact hchange

variable (config s event) in
/-- Everything an event can do to the store. -/
theorem step_change :
    StoreChange config s event (step config s event).store := by
  -- An event of a run that is gone changes nothing.
  have honRun : ∀ {id : Nat} {act : RunEntry → System},
      (∀ run, s.runs.find? id = some run → StoreChange config s event (act run).store) →
      StoreChange config s event (s.onRun id act).store := by
    intro id act h
    unfold System.onRun
    cases hrun : s.runs.find? id with
    | none => exact .same rfl rfl rfl
    | some run => exact h run hrun
  rw [step_store]
  cases event with
  | claim workerId lane override gated now locked clock =>
      cases h : claimNextTask s.store (claimInput config workerId lane override gated now) locked
          clock with
      | error failure => simpa only [effect, h] using .same rfl rfl rfl
      | ok result =>
          obtain ⟨store, claimed⟩ := result
          cases claimed with
          | none => simpa only [effect, h] using .same rfl rfl rfl
          | some row => simpa only [effect, h, startTask_store] using storeChange_claim h
  | heartbeat id now => exact honRun fun run _ => storeChange_stepHeartbeat
  | heartbeatControls id forceKillSwitch now =>
      exact honRun fun run _ => .of_eq stepHeartbeatControls_store
  | heartbeatFails id => exact honRun fun run _ => .same rfl rfl rfl
  | lateHeartbeat workerId taskId now =>
      cases h : heartbeat s.store taskId workerId config.leaseDurationMs now with
      | error failure => simpa only [effect, h, System.adopt] using .same rfl rfl rfl
      | ok result => simpa only [effect, h, System.adopt] using storeChange_heartbeat h
  | abort id reason => exact honRun fun run _ => .same rfl rfl rfl
  | readTask id stopping => exact honRun fun run _ => .of_eq stepReadTask_store
  | readControls id forceKillSwitch stopping now =>
      exact honRun fun run _ => .of_eq stepReadControls_store
  | recheck id => exact honRun fun run _ => .of_eq stepRecheck_store
  | selectModel id selection clock =>
      refine honRun fun run _ => ?_
      cases hphase : run.phase with
      | running task =>
          cases h : recordModelSelection s.store run.taskId run.workerId selection clock with
          | error failure => exact .same rfl rfl rfl
          | ok result =>
              -- The write asks for the lease, so the writer still owns the row.
              obtain ⟨row, hrow, howner, hstore, _⟩ := updateLeased_eq_ok_iff.mp h
              change StoreChange config s _ result.1
              rw [hstore]
              exact .put (putRow_putTask _ (getTask_self hrow) rfl rfl) (.modelSelected howner)
      | _ => exact .same rfl rfl rfl
  | finish id outcome now => exact honRun fun run _ => .of_eq stepFinish_store
  | perform id clock lost => exact honRun fun run hrun => storeChange_stepPerform hrun
  | throws id message => exact honRun fun run _ => .of_eq catchError_store
  | readFailed id => exact honRun fun run _ => .of_eq stepReadFailed_store
  | crash runs intakes => exact .same rfl rfl rfl
  | recoverExpired now locked clock => exact storeChange_recover (.expired now locked clock)
  | recoverOwned workerId locked clock => exact storeChange_recover (.owned workerId locked clock)
  | retry taskId context clock => exact storeChange_retry
  | cancel taskId context clock => exact storeChange_cancel
  | requireManual taskId context clock => exact storeChange_requireManual
  | setPauseNewWork paused context clock => exact .same rfl rfl rfl
  | setKillSwitch engaged context clock => exact .same rfl rfl rfl
  | setScheduleOverride override context clock => exact .same rfl rfl rfl
  | startIntake report => exact .same rfl rfl rfl
  | intake id clock =>
      cases h : s.intakes.find? id with
      | none => simpa only [effect, h] using .same rfl rfl rfl
      | some entry => simpa only [effect, h] using storeChange_intake

/-- Everything an event can do to one row. -/
theorem step_rows {taskId : TaskId} {row : Task}
    (h : (step config s event).store.getTask taskId = some row) :
    (∃ task, s.store.getTask taskId = some task ∧ RowChange config s event task row) ∨
      (s.store.getTask taskId = none ∧ Created row) :=
  (step_change config s event).rows h

variable (config event) in
/-- A row stays, changed in one of these ways. -/
theorem step_persists {taskId : TaskId} {task : Task} (h : s.store.getTask taskId = some task) :
    ∃ row, (step config s event).store.getTask taskId = some row ∧
      RowChange config s event task row := by
  have hsome : ∃ row, (step config s event).store.getTask taskId = some row := by
    cases step_change config s event with
    | put hput _ =>
        rw [hput.getTask]
        split_ifs
        · exact ⟨_, rfl⟩
        · exact ⟨task, h⟩
    | same htasks _ _ =>
        rw [Store.getTask, htasks]
        exact ⟨task, h⟩
    | created hfresh _ htasks _ _ _ =>
        obtain ⟨hmem, hid⟩ := Store.getTask_eq_some_iff.mp h
        refine ⟨task, Store.getTask_eq_some_iff.mpr ⟨?_, hid⟩⟩
        rw [htasks]
        exact Table.mem_insert_of_mem hmem
    | recovered _ hstore =>
        rw [hstore, getTask_recoveredStore _ _ (selected_recoveryCandidates _ _ _), h]
        exact ⟨_, rfl⟩
  obtain ⟨row, hrow⟩ := hsome
  rcases step_rows hrow with ⟨task', htask, hchange⟩ | ⟨hnone, _⟩
  · rw [h] at htask
    cases htask
    exact ⟨row, hrow, hchange⟩
  · rw [h] at hnone
    cases hnone

end Events

/-! ## Claims -/

/-- The worker and the row of the claim that the event makes. -/
def claimedBy (config : SchedulerConfig) (s : System) : Event → Option (WorkerId × Task)
  | .claim workerId lane override gated now locked clock =>
      match claimNextTask s.store (claimInput config workerId lane override gated now) locked
          clock with
      | .ok (_, some row) => some (workerId, row)
      | _ => none
  | _ => none

/-- A claim event does nothing, or starts a run of the row it claimed. -/
theorem effect_claim (config : SchedulerConfig) (s : System) (workerId : WorkerId)
    (lane : ClaimLane) (override : ScheduleOverride) (gated now : Instant) (locked : List TaskId)
    (clock : Instant) :
    effect config s (.claim workerId lane override gated now locked clock) = s ∨
      ∃ store' task row,
        claimedBy config s (.claim workerId lane override gated now locked clock) =
          some (workerId, row) ∧
        effect config s (.claim workerId lane override gated now locked clock) =
          ({ s with store := store' } : System).startTask workerId row ∧
        PutRow s.store store' task row ∧ row.leaseOwner = some workerId := by
  cases hresult : claimNextTask s.store (claimInput config workerId lane override gated now) locked
      clock with
  | error failure => exact Or.inl (by simp only [effect, hresult])
  | ok result =>
      obtain ⟨store', claimed⟩ := result
      rcases claimNextTask_eq_ok hresult with ⟨rfl, _⟩ | ⟨task, hgrant, hallowed, rfl, rfl⟩
      · exact Or.inl (by simp only [effect, hresult])
      · refine Or.inr
          ⟨claimedStore s.store (claimInput config workerId lane override gated now) task clock,
          task, claimedRow (claimInput config workerId lane override gated now) task clock, ?_, ?_,
          putRow_claimed hgrant.row hallowed, claimedRow_lease.1⟩
        · simp only [claimedBy, hresult]
        · simp only [effect, hresult]

end Orchestrator
