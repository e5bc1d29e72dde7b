import Orchestrator.Repositories.Ownership
import Orchestrator.Repositories.StageTables
import Orchestrator.Scheduler.Leases

/-! # Stage handlers on the shared database

The workers together with the tables that their stage handlers write. Between two
scheduler events a running handler may call the repository, also after the lease of
its task was recovered and another worker has claimed the task. A late call is inert
unless it is one of those that never ask for the lease, or a release of a row that
nobody leases.
-/

namespace Orchestrator

open Kit TaskState

structure Workflow where
  system : System
  tables : StageTables := {}

inductive WorkflowEvent
  | scheduler (event : Event)
  /-- The handler of a running stage makes a repository call. -/
  | stage (run : Nat) (call : DatabaseCall) (now : Instant)

/-- The worker is in the lease column of the task. -/
def Store.holds (store : Store) (workerId : WorkerId) (taskId : TaskId) : Bool :=
  (store.getTask taskId).any fun task => task.leaseOwner = some workerId

namespace Workflow

/-- The effect of a handler's call: `recordModelSelection` is about the task row, every
other call about the stage tables. -/
def stageCall (config : SchedulerConfig) (w : Workflow) (run : RunEntry) (stage : TaskState)
    (call : DatabaseCall) (now : Instant) : Workflow where
  system :=
    match call with
    | .recordModelSelection selection =>
        Orchestrator.step config w.system (.selectModel run.id selection now)
    | _ => w.system
  tables := call.after ⟨run.taskId, stage⟩ (w.system.store.holds run.workerId run.taskId) now
    w.tables

def step (config : SchedulerConfig) (w : Workflow) : WorkflowEvent → Workflow
  | .scheduler event => { w with system := Orchestrator.step config w.system event }
  | .stage id call now =>
      match w.system.runs.find? id with
      | none => w
      | some run =>
          match run.phase with
          | .running task => w.stageCall config run task.state call now
          | _ => w

/-- The worker on whose behalf the event writes, and the task it writes for. -/
def writer (w : Workflow) : WorkflowEvent → Option (WorkerId × TaskId)
  | .stage id _ _ => (w.system.runs.find? id).map fun run => (run.workerId, run.taskId)
  | .scheduler (.perform id _ _) =>
      (w.system.runs.find? id).map fun run => (run.workerId, run.taskId)
  | .scheduler (.selectModel id _ _) =>
      (w.system.runs.find? id).map fun run => (run.workerId, run.taskId)
  | .scheduler (.heartbeat id _) =>
      (w.system.runs.find? id).map fun run => (run.workerId, run.taskId)
  | .scheduler (.lateHeartbeat workerId taskId _) => some (workerId, taskId)
  | _ => none

/-- The event writes for a task whose lease its worker does not hold. -/
def WritesLate (w : Workflow) (event : WorkflowEvent) : Prop :=
  ∃ writer ∈ w.writer event, w.system.store.holds writer.1 writer.2 = false

instance (w : Workflow) (event : WorkflowEvent) : Decidable (w.WritesLate event) :=
  inferInstanceAs (Decidable (∃ writer ∈ w.writer event, _))

/-- A late write changes nothing. -/
def LateWriteInert (config : SchedulerConfig) (w : Workflow) (event : WorkflowEvent) : Prop :=
  w.WritesLate event →
    (w.step config event).system.store = w.system.store ∧
      (w.step config event).tables = w.tables

end Workflow

/-- The call writes something new although it never asks for the lease. -/
def DatabaseCall.Overwrites (writer : StageWriter) (now : Instant) (tables : StageTables) :
    DatabaseCall → Prop
  | .recordCheckpoint payload =>
      tables.taskCheckpoints.find? (writer.taskId, payload.key) ≠
        some ⟨writer.taskId, writer.stage, payload, now⟩
  | .completeAttempt attempt conclusion =>
      ∃ row, tables.taskAttempts.find? (writer.taskId, writer.stage, attempt) = some row ∧
        row.concluded conclusion now ≠ row
  | .beginExternalOperation _ idempotencyKey =>
      tables.externalOperations.find? idempotencyKey = none
  | _ => False

/-- A running handler makes an unfenced call with something new to write, or a run
releases a row that nobody leases. -/
def Workflow.EscapesFence (config : SchedulerConfig) (w : Workflow) : WorkflowEvent → Prop
  | .stage id call now => ∃ run task, w.system.runs.find? id = some run ∧
      run.phase = .running task ∧ call.Overwrites ⟨run.taskId, task.state⟩ now w.tables
  | .scheduler (.perform id _ _) => ∃ run input task, w.system.runs.find? id = some run ∧
      phaseCall config run = some (.transition input) ∧ input.releaseLease = true ∧
      w.system.store.getTask run.taskId = some task ∧ task.leaseOwner = none ∧
      TransitionAllowed task.state input.toState input.resumeState
  | _ => False

/-! ## Calls without the lease -/

/-- Without the lease a call changes the tables exactly if it overwrites something. -/
theorem after_eq_self_iff {writer : StageWriter} {now : Instant} {tables : StageTables}
    {call : DatabaseCall} :
    call.after writer false now tables = tables ↔ ¬ call.Overwrites writer now tables := by
  cases call with
  | recordCheckpoint payload =>
      simp only [DatabaseCall.after, DatabaseCall.perform, StageTables.recordCheckpoint,
        DatabaseCall.Overwrites, not_not]
      constructor
      · intro h
        have hcheckpoints := congrArg StageTables.taskCheckpoints h
        exact Table.upsert_eq_self_iff.mp hcheckpoints
      · intro h
        rw [Table.upsert_eq_self_iff.mpr h]
  | completeAttempt attempt conclusion =>
      -- A conclusion writes the row in full: it is inert exactly if it repeats it.
      simp only [DatabaseCall.after, DatabaseCall.perform, StageTables.completeAttempt,
        DatabaseCall.Overwrites]
      cases hrow : tables.taskAttempts.find? (writer.taskId, writer.stage, attempt) with
      | none => simp
      | some row =>
          have hkey : row.number = (writer.taskId, writer.stage, attempt) :=
            Table.key_of_find? hrow
          have hput : tables.taskAttempts.put (row.concluded conclusion now) =
              tables.taskAttempts ↔ row = row.concluded conclusion now := by
            apply Table.put_eq_self_iff
            rw [← hrow, ← hkey]
            rfl
          simp only [Option.some.injEq, exists_eq_left', not_not]
          constructor
          · intro h
            have hattempts := congrArg StageTables.taskAttempts h
            exact (hput.mp hattempts).symm
          · intro h
            rw [StageTables.putAttempt, hput.mpr h.symm]
  | beginExternalOperation operationType idempotencyKey =>
      simp only [DatabaseCall.after, DatabaseCall.perform, StageTables.beginExternalOperation,
        DatabaseCall.Overwrites]
      cases hrow : tables.externalOperations.find? idempotencyKey with
      | some row => simp
      | none =>
          simp only [not_true, iff_false]
          intro h
          have hoperations := congrArg StageTables.externalOperations h
          exact Table.insert_eq_self_iff.mp hoperations hrow
  -- The other calls read, or ask for the lease first.
  | getWorkUnits => exact iff_of_true (after_of_not_holds rfl) id
  | getCheckpoint key => exact iff_of_true (after_of_not_holds rfl) id
  | startAttempt => exact iff_of_true (after_of_not_holds rfl) id
  | recordModelSelection selection => exact iff_of_true (after_of_not_holds rfl) id
  | completeExternalOperation operationId response =>
      exact iff_of_true (after_of_not_holds rfl) id
  | recordWorkUnitWorkspace identity => exact iff_of_true (after_of_not_holds rfl) id
  | recordWorkUnitDelivery repository delivery =>
      exact iff_of_true (after_of_not_holds rfl) id

section NotHeld

variable {config : SchedulerConfig} {s : System} {run : RunEntry} {workerId : WorkerId}
  {taskId : TaskId}

theorem updateLeased_of_not_holds {store : Store} {change : Task → Task}
    (h : store.holds workerId taskId = false) :
    updateLeased store taskId workerId change = .error (.leaseOwnership taskId) := by
  unfold updateLeased
  cases hrow : store.getTask taskId with
  | none => rfl
  | some task =>
      have hnot : task.leaseOwner ≠ some workerId := by simpa [Store.holds, hrow] using h
      simp [hnot]

theorem heartbeat_of_not_holds {store : Store} (leaseDurationMs now : Instant)
    (h : store.holds workerId taskId = false) :
    ∃ failure, heartbeat store taskId workerId leaseDurationMs now = .error failure := by
  unfold heartbeat
  split_ifs
  · exact ⟨_, rfl⟩
  · exact ⟨_, updateLeased_of_not_holds h⟩

theorem stepHeartbeat_of_not_holds {now : Instant}
    (h : s.store.holds run.workerId run.taskId = false) :
    (stepHeartbeat config s run now).store = s.store := by
  obtain ⟨failure, hfailure⟩ := heartbeat_of_not_holds config.leaseDurationMs now h
  unfold stepHeartbeat
  rw [hfailure]
  dsimp only
  split_ifs <;> rfl

/-- Without the lease a run's call goes through only as a release of an unleased row. -/
theorem perform_of_not_holds {store : Store} {call : RepositoryCall} (clock : Instant)
    (hcall : phaseCall config run = some call)
    (h : store.holds run.workerId run.taskId = false) :
    (∃ result, call.perform store run.taskId run.workerId clock = .ok result) ↔
      ∃ input task, call = .transition input ∧ input.releaseLease = true ∧
        store.getTask run.taskId = some task ∧ task.leaseOwner = none ∧
        TransitionAllowed task.state input.toState input.resumeState := by
  cases call with
  | release patch =>
      simp [RepositoryCall.perform, releaseLease, updateLeased_of_not_holds h]
  | defer untilTime lastError =>
      simp [RepositoryCall.perform, deferTask, updateLeased_of_not_holds h]
  | transition input =>
      obtain ⟨howner, htask, _⟩ := phaseCall_transition hcall
      constructor
      · rintro ⟨⟨store', row⟩, hresult⟩
        obtain ⟨task, hrow, hpermits, hallowed, _⟩ := transitionTask_eq_ok_iff.mp hresult
        rw [htask] at hrow
        have hnot : task.leaseOwner ≠ some run.workerId := by simpa [Store.holds, hrow] using h
        rcases (leasePermits_locked_iff task howner).mp hpermits with hheld | ⟨hnone, hrelease⟩
        · exact absurd hheld hnot
        · exact ⟨input, task, rfl, hrelease, hrow, hnone, hallowed⟩
      · rintro ⟨_, task, ⟨⟩, hrelease, hrow, hnone, hallowed⟩
        have hpermits := (leasePermits_locked_iff task howner).mpr (Or.inr ⟨hnone, hrelease⟩)
        exact ⟨_, transitionTask_eq_ok_iff.mpr
          ⟨task, htask ▸ hrow, hpermits, hallowed, rfl, rfl⟩⟩

/-- A late scheduler write is inert unless it releases an unleased row. -/
theorem perform_store_iff {id : Nat} {clock : Instant} {lost : Option String}
    (hrun : s.runs.find? id = some run)
    (h : s.store.holds run.workerId run.taskId = false) :
    (Orchestrator.step config s (.perform id clock lost)).store = s.store ↔
      ¬ ∃ input task, phaseCall config run = some (.transition input) ∧
        input.releaseLease = true ∧ s.store.getTask run.taskId = some task ∧
        task.leaseOwner = none ∧
        TransitionAllowed task.state input.toState input.resumeState := by
  cases hcall : phaseCall config run with
  | none => simp [effect, System.onRun, hrun, stepPerform, hcall]
  | some call =>
      have hgoes := perform_of_not_holds clock hcall h
      cases hresult : call.perform s.store run.taskId run.workerId clock with
      | error failure =>
          have hrefused : ¬ ∃ result, call.perform s.store run.taskId run.workerId clock =
              .ok result := by simp [hresult]
          refine iff_of_true ?_ ?_
          · simp only [step_store, effect, System.onRun, hrun, stepPerform, hcall, hresult,
              catchError_store]
          · rintro ⟨input, task, ⟨⟩, hrest⟩
            exact hrefused (hgoes.mpr ⟨input, task, rfl, hrest⟩)
      | ok result =>
          obtain ⟨store', row⟩ := result
          obtain ⟨input, task, rfl, hrelease, hrow, hnone, hallowed⟩ := hgoes.mp ⟨_, hresult⟩
          refine iff_of_false ?_ (not_not.mpr ⟨input, task, rfl, hrelease, hrow, hnone, hallowed⟩)
          -- A transition leaves a record in the history.
          intro hsame
          rw [step_perform_store hrun hcall hresult] at hsame
          obtain ⟨task', _, _, _, hstore, _⟩ := transitionTask_eq_ok_iff.mp hresult
          have hlength : store'.stateTransitions.length =
              s.store.stateTransitions.length + 1 := by
            rw [hstore]
            simp [Store.moved, Store.appendTransition, Store.putTask]
          rw [hsame] at hlength
          omega

theorem selectModel_store {id : Nat} {selection : SelectedModel} {now : Instant}
    (hrun : s.runs.find? id = some run)
    (h : s.store.holds run.workerId run.taskId = false) :
    (Orchestrator.step config s (.selectModel id selection now)).store = s.store := by
  simp only [step_store, effect, System.onRun, hrun]
  split
  · rw [recordModelSelection, updateLeased_of_not_holds h]
    rfl
  · rfl

theorem stageCall_store {w : Workflow} {id : Nat} {stage : TaskState} {call : DatabaseCall}
    {now : Instant} (hrun : w.system.runs.find? id = some run)
    (h : w.system.store.holds run.workerId run.taskId = false) :
    (w.stageCall config run stage call now).system.store = w.system.store := by
  have hid : run.id = id := Table.key_of_find? hrun
  cases call with
  | recordModelSelection selection => exact selectModel_store (hid ▸ hrun) h
  | _ => rfl

end NotHeld

/-- A late write is inert exactly if it does not escape the lease check. -/
theorem lateWriteInert_iff {config : SchedulerConfig} {w : Workflow} {event : WorkflowEvent} :
    w.LateWriteInert config event ↔ (w.WritesLate event → ¬ w.EscapesFence config event) := by
  unfold Workflow.LateWriteInert
  refine imp_congr_right ?_
  rintro ⟨writer, hwriter, hlate⟩
  cases event with
  | stage id call now =>
      obtain ⟨run, hrun, rfl⟩ := Option.map_eq_some_iff.mp hwriter
      have hstep : w.step config (.stage id call now) =
          match run.phase with
          | .running task => w.stageCall config run task.state call now
          | _ => w := by
        simp only [Workflow.step, hrun]
      have hescapes : w.EscapesFence config (.stage id call now) ↔ ∃ task,
          run.phase = .running task ∧
            call.Overwrites ⟨run.taskId, task.state⟩ now w.tables := by
        simp [Workflow.EscapesFence, hrun]
      rw [hstep, hescapes]
      cases hphase : run.phase with
      | running task =>
          -- The lease is gone: only the calls without a lease check can write.
          have hlate : w.system.store.holds run.workerId run.taskId = false := hlate
          have htables : (w.stageCall config run task.state call now).tables = w.tables ↔
              ¬ call.Overwrites ⟨run.taskId, task.state⟩ now w.tables := by
            unfold Workflow.stageCall
            rw [hlate]
            exact after_eq_self_iff
          simp only [stageCall_store hrun hlate, true_and, htables, Phase.running.injEq,
            exists_eq_left']
      | _ => simp
  | scheduler event =>
      cases event with
      | perform id clock lost =>
          obtain ⟨run, hrun, rfl⟩ := Option.map_eq_some_iff.mp hwriter
          have hescapes : w.EscapesFence config (.scheduler (.perform id clock lost)) ↔
              ∃ input task, phaseCall config run = some (.transition input) ∧
                input.releaseLease = true ∧ w.system.store.getTask run.taskId = some task ∧
                task.leaseOwner = none ∧
                TransitionAllowed task.state input.toState input.resumeState := by
            simp [Workflow.EscapesFence, hrun]
          rw [hescapes, ← perform_store_iff hrun hlate]
          exact and_iff_left rfl
      | heartbeat id now =>
          -- A heartbeat, a model selection and a late heartbeat are refused without the lease.
          obtain ⟨run, hrun, rfl⟩ := Option.map_eq_some_iff.mp hwriter
          have hstore : (Orchestrator.step config w.system (.heartbeat id now)).store =
              w.system.store := by
            simp only [step_store, effect, System.onRun, hrun]
            exact stepHeartbeat_of_not_holds hlate
          exact iff_of_true ⟨hstore, rfl⟩ fun hescapes => hescapes
      | selectModel id selection now =>
          obtain ⟨run, hrun, rfl⟩ := Option.map_eq_some_iff.mp hwriter
          exact iff_of_true ⟨selectModel_store hrun hlate, rfl⟩ fun hescapes => hescapes
      | lateHeartbeat workerId taskId now =>
          cases hwriter
          obtain ⟨failure, hfailure⟩ := heartbeat_of_not_holds config.leaseDurationMs now hlate
          have hstore : (Orchestrator.step config w.system
              (.lateHeartbeat workerId taskId now)).store = w.system.store := by
            simp only [step_store, effect]
            rw [hfailure]
            rfl
          exact iff_of_true ⟨hstore, rfl⟩ fun hescapes => hescapes
      | _ => cases hwriter

/-- In every run, every late write is inert exactly if none of them makes an unfenced call
with something new to write or releases a row that nobody leases. -/
theorem late_writes_inert_iff (config : SchedulerConfig) (w : Workflow)
    (events : List WorkflowEvent) :
    Along (Workflow.step config) (Workflow.LateWriteInert config) w events ↔
      Along (Workflow.step config)
        (fun w event => w.WritesLate event → ¬ w.EscapesFence config event) w events :=
  along_congr fun _ _ => lateWriteInert_iff

def lateAnalysis (digest : String) : CheckpointPayload :=
  .analysis ⟨digest, 1, { decision := .proceed, repositories := [] }⟩

/-- Worker `w1` analyses the task past the end of its lease; the task is recovered and
retried, `w2` claims it and accepts its own analysis, and then the handler of `w1`
accepts an older one. -/
def lateCheckpointRun : List WorkflowEvent :=
  ([sampleClaim "w1" .execution 0, .readTask 0 false, .readControls 0 false false 0,
    .recoverExpired 300001 [] 300001, .retry 1 ⟨"operator", "again"⟩ 300002,
    sampleClaim "w2" .execution 300003, .readTask 1 false,
    .readControls 1 false false 300004].map WorkflowEvent.scheduler) ++
  [.stage 1 (.recordCheckpoint (lateAnalysis "new")) 300005,
    .stage 0 (.recordCheckpoint (lateAnalysis "old")) 300006]

theorem late_checkpoint_overwrites :
    ¬ ∀ (config : SchedulerConfig) (w : Workflow) (events : List WorkflowEvent),
      Along (Workflow.step config) (Workflow.LateWriteInert config) w events := by
  intro h
  have hrun := h sampleConfig { system := boot (sampleStore [sampleTask 1 queued]) }
    lateCheckpointRun
  have htables : Along (Workflow.step sampleConfig)
      (fun w event => w.WritesLate event → (w.step sampleConfig event).tables = w.tables)
      { system := boot (sampleStore [sampleTask 1 queued]) } lateCheckpointRun :=
    along_of_invariant (fun _ => True) (fun _ _ _ _ => trivial)
      (fun _ _ _ hinert hlate => (hinert hlate).2) trivial hrun
  revert htables
  decide

end Orchestrator
