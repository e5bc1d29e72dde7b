import Orchestrator.Kit.Run
import Orchestrator.Scheduler.Changes

/-! # State and history

The `state_transitions` rows of a task are a trail from `QUEUED` to its current
state, whatever claims, stages, operators, recoveries and intake passes do.
-/

namespace Orchestrator

open Kit TaskState

/-- A step the state machine allows. -/
def LegalStep (source target : TaskState) : Prop := canTransition source target = true

/-- The recorded state changes of one task, oldest first. -/
def historyEdges (store : Store) (taskId : TaskId) : List (TaskState × TaskState) :=
  (store.history taskId).map fun row => (row.fromState, row.toState)

/-- Every task's history leads from `QUEUED` to its state; no record is orphaned. -/
structure HistoryConsistent (store : Store) : Prop where
  trail : ∀ task ∈ store.tasks.rows,
    Trail LegalStep queued (historyEdges store task.id) task.state
  known : ∀ row ∈ store.stateTransitions, ∃ task, store.getTask row.taskId = some task

theorem historyConsistent_empty : HistoryConsistent {} where
  trail := by simp
  known := by simp

theorem historyEdges_of_eq {store store' : Store} {taskId : TaskId}
    (h : store'.stateTransitions = store.stateTransitions) :
    historyEdges store' taskId = historyEdges store taskId := by
  simp [historyEdges, Store.history, h]

theorem historyEdges_snoc {store store' : Store} {row : StateTransitionRow} {taskId : TaskId}
    (h : store'.stateTransitions = store.stateTransitions ++ [row]) :
    historyEdges store' taskId = historyEdges store taskId ++
      if row.taskId = taskId then [(row.fromState, row.toState)] else [] := by
  unfold historyEdges Store.history
  rw [h, List.filter_append, List.map_append]
  by_cases hid : row.taskId = taskId <;> simp [hid]

theorem historyEdges_moved (store : Store) (task : Task) (input : LockedTransitionInput)
    (clock : Instant) (taskId : TaskId) :
    historyEdges (store.moved task input clock) taskId = historyEdges store taskId ++
      if task.id = taskId then [(task.state, input.toState)] else [] := by
  have hrecord : (store.moved task input clock).stateTransitions = store.stateTransitions ++
      [⟨task.id, task.state, input.toState, input.reason, clock⟩] := rfl
  rw [historyEdges_snoc hrecord]

theorem getTask_put_isSome {store store' : Store} {task row : Task}
    (h : PutRow store store' task row) {taskId : TaskId} :
    (∃ found, store'.getTask taskId = some found) ↔ ∃ found, store.getTask taskId = some found := by
  rw [h.getTask]
  split_ifs with hid
  · rw [hid, h.sameId, h.found]
    exact ⟨fun _ => ⟨task, rfl⟩, fun _ => ⟨row, rfl⟩⟩
  · rfl

/-- Replacing a row with its record keeps every history in step. -/
theorem HistoryConsistent.put {store store' : Store} {task row : Task}
    (hinv : HistoryConsistent store) (h : PutRow store store' task row) :
    HistoryConsistent store' where
  trail := by
    intro current hcurrent
    rw [h.tasks, Table.mem_put] at hcurrent
    have htask : task ∈ store.tasks.rows := (Store.getTask_eq_some_iff.mp h.found).1
    -- The replaced row gets the new record, if there is one; the others do not.
    rcases hcurrent with ⟨rfl, _⟩ | ⟨hother, hne⟩
    · rcases h.recorded with ⟨hsame, hstate⟩ | ⟨reason, createdAt, hlegal, hrecord⟩
      · rw [historyEdges_of_eq hsame, hstate, h.sameId]
        exact hinv.trail task htask
      · rw [historyEdges_snoc hrecord, if_pos h.sameId.symm, h.sameId]
        exact (hinv.trail task htask).snoc hlegal
    · rcases h.recorded with ⟨hsame, _⟩ | ⟨reason, createdAt, _, hrecord⟩
      · rw [historyEdges_of_eq hsame]
        exact hinv.trail current hother
      · rw [h.sameId] at hne
        rw [historyEdges_snoc hrecord, if_neg hne.symm, List.append_nil]
        exact hinv.trail current hother
  known := by
    intro record hrecord
    rw [getTask_put_isSome h]
    rcases h.recorded with ⟨hsame, _⟩ | ⟨reason, createdAt, _, happend⟩
    · exact hinv.known record (hsame ▸ hrecord)
    · rw [happend, List.mem_append, List.mem_singleton] at hrecord
      rcases hrecord with hold | rfl
      · exact hinv.known record hold
      · exact ⟨task, h.found⟩

theorem HistoryConsistent.recovered {reason : String} {clock : Instant} {store : Store}
    {tasks : List Task} (hinv : HistoryConsistent store) (hselected : Selected store tasks)
    (hstates : ∀ task ∈ tasks, canTransition task.state blocked = true) :
    HistoryConsistent (recoveredStore reason clock store tasks) := by
  -- Recovery is a sequence of replaced rows.
  induction tasks generalizing store with
  | nil => exact hinv
  | cons task tasks ih =>
      have hput : PutRow store (store.moved task (recoveryInput reason) clock) task
          (task.moved (recoveryInput reason) clock) :=
        putRow_moved (hselected.rows task List.mem_cons_self) (hstates task List.mem_cons_self)
      exact ih (hinv.put hput) (hselected.tail _ _)
        fun other hother => hstates other (List.mem_cons_of_mem _ hother)

theorem canTransition_of_candidate {store : Store} {condition : Task → Bool}
    {locked : List TaskId} {task : Task} (h : task ∈ recoveryCandidates store condition locked) :
    canTransition task.state blocked = true := by
  have hcandidate := (List.mem_filter.mp h).2
  simp only [Bool.and_eq_true] at hcandidate
  exact canTransition_blocked_iff.mpr (by simpa [unrecoveredStates] using hcandidate.1.2)

/-- One step keeps every history in step. -/
theorem HistoryConsistent.change {config : SchedulerConfig} {s : System} {event : Event}
    {store' : Store} (hinv : HistoryConsistent s.store)
    (h : StoreChange config s event store') : HistoryConsistent store' := by
  cases h with
  | put hput _ => exact hinv.put hput
  | same htasks _ hhistory =>
      refine ⟨?_, ?_⟩
      · intro task htask
        rw [historyEdges_of_eq hhistory]
        exact hinv.trail task (htasks ▸ htask)
      · intro record hrecord
        rw [Store.getTask, htasks]
        exact hinv.known record (hhistory ▸ hrecord)
  | @created row units hfresh hcreated htasks _ _ hhistory =>
      refine ⟨?_, ?_⟩
      · intro task htask
        rw [htasks, Table.mem_insert hfresh] at htask
        rw [historyEdges_of_eq hhistory]
        rcases htask with hold | rfl
        · exact hinv.trail task hold
        · -- No record can name a task that did not exist.
          have hnone : s.store.history task.id = [] := by
            refine List.filter_eq_nil_iff.mpr fun record hrecord hid => ?_
            obtain ⟨found, hfound⟩ := hinv.known record hrecord
            rw [show record.taskId = task.id by simpa using hid, hfresh] at hfound
            cases hfound
          obtain ⟨input, id, clock, rfl⟩ := hcreated
          simp only [historyEdges, hnone]
          exact rfl
      · intro record hrecord
        obtain ⟨found, hfound⟩ := hinv.known record (hhistory ▸ hrecord)
        obtain ⟨hmem, hid⟩ := Store.getTask_eq_some_iff.mp hfound
        refine ⟨found, Store.getTask_eq_some_iff.mpr ⟨?_, hid⟩⟩
        rw [htasks]
        exact Table.mem_insert_of_mem hmem
  | recovered hevent hstore =>
      rw [hstore]
      exact hinv.recovered (selected_recoveryCandidates _ _ _)
        fun task htask => canTransition_of_candidate htask

/-! ## Calls that throw -/

def failed {α : Type} : Except WorkflowError α → Bool
  | .ok _ => false
  | .error _ => true

/-- The repository call of this event throws. -/
def callThrows (config : SchedulerConfig) (s : System) : Event → Bool
  | .claim workerId lane override gated now locked clock =>
      failed
        (claimNextTask s.store (claimInput config workerId lane override gated now) locked clock)
  | .heartbeat id now =>
      match s.runs.find? id with
      | none => false
      | some run => run.heartbeatState.isNone &&
          failed (heartbeat s.store run.taskId run.workerId config.leaseDurationMs now)
  | .lateHeartbeat workerId taskId now =>
      failed (heartbeat s.store taskId workerId config.leaseDurationMs now)
  | .perform id clock _ =>
      match s.runs.find? id with
      | none => false
      | some run =>
          match phaseCall config run with
          | none => false
          | some call => failed (call.perform s.store run.taskId run.workerId clock)
  | .selectModel id selection clock =>
      match s.runs.find? id with
      | none => false
      | some run =>
          match run.phase with
          | .running _ =>
              failed (recordModelSelection s.store run.taskId run.workerId selection clock)
          | _ => false
  | .recoverExpired now locked clock => failed (recoverExpiredLeases s.store now locked clock)
  | .recoverOwned workerId locked clock =>
      failed (recoverLeasesOwnedBy s.store workerId locked clock)
  | .retry taskId context clock => failed (retryTask s.store taskId context clock)
  | .cancel taskId context clock => failed (cancelTask s.store taskId context clock)
  | .requireManual taskId context clock =>
      failed (requireManualIntervention s.store taskId context clock)
  | .intake id clock =>
      match s.intakes.find? id with
      | none => false
      | some entry => failed (intakeStep s.store entry.pass clock)
  | _ => false

theorem adopt_store_of_failed {s : System} {α : Type} {result : Except WorkflowError (Store × α)}
    (h : failed result = true) : (s.adopt result).store = s.store := by
  cases result with
  | ok value => cases h
  | error failure => rfl

/-- A call that throws leaves the store as it was. -/
theorem step_store_of_callThrows {config : SchedulerConfig} {s : System} {event : Event}
    (h : callThrows config s event = true) : (step config s event).store = s.store := by
  rw [step_store]
  cases event with
  | claim workerId lane override gated now locked clock =>
      -- Each call that can fail returns the store it would write only on success.
      cases hresult :
          claimNextTask s.store (claimInput config workerId lane override gated now) locked
          clock with
      | ok result => simp [callThrows, hresult, failed] at h
      | error failure => simp [effect, hresult]
  | heartbeat id now =>
      cases hrun : s.runs.find? id with
      | none => simp [callThrows, hrun] at h
      | some run =>
          simp only [callThrows, hrun, Bool.and_eq_true] at h
          simp only [effect, System.onRun, hrun, stepHeartbeat]
          cases hresult : heartbeat s.store run.taskId run.workerId config.leaseDurationMs now with
          | ok result => simp [hresult, failed] at h
          | error failure =>
              dsimp only
              split_ifs <;> rfl
  | perform id clock lost =>
      cases hrun : s.runs.find? id with
      | none => simp [callThrows, hrun] at h
      | some run =>
          cases hcall : phaseCall config run with
          | none => simp [callThrows, hrun, hcall] at h
          | some call =>
              cases hresult : call.perform s.store run.taskId run.workerId clock with
              | ok result => simp [callThrows, hrun, hcall, hresult, failed] at h
              | error failure =>
                  simp [effect, System.onRun, hrun, stepPerform, hcall, hresult]
  | intake id clock =>
      cases hentry : s.intakes.find? id with
      | none => simp [callThrows, hentry] at h
      | some entry =>
          cases hresult : intakeStep s.store entry.pass clock with
          | ok result => simp [callThrows, hentry, hresult, failed] at h
          | error failure => simp [effect, hentry, stepIntake, hresult]
  | selectModel id selection clock =>
      cases hrun : s.runs.find? id with
      | none => simp [callThrows, hrun] at h
      | some run =>
          cases hphase : run.phase with
          | running task =>
              simp only [callThrows, hrun, hphase] at h
              simpa only [effect, System.onRun, hrun, hphase] using adopt_store_of_failed h
          | _ => simp [callThrows, hrun, hphase] at h
  | recoverExpired now locked clock =>
      -- The recovery calls do not throw.
      simp [callThrows, recoverExpiredLeases, recoverLeases_eq, failed] at h
  | recoverOwned workerId locked clock =>
      simp [callThrows, recoverLeasesOwnedBy, recoverLeases_eq, failed] at h
  | lateHeartbeat workerId taskId now => exact adopt_store_of_failed h
  | retry taskId context clock => exact adopt_store_of_failed h
  | cancel taskId context clock => exact adopt_store_of_failed h
  | requireManual taskId context clock => exact adopt_store_of_failed h
  | _ => simp [callThrows] at h

/-- State and history never diverge, and a call that throws changes neither. -/
theorem history_matches_state (config : SchedulerConfig) (events : List Event) :
    (∀ task ∈ (run (step config) (boot {}) events).store.tasks.rows,
      Trail LegalStep queued
        (historyEdges (run (step config) (boot {}) events).store task.id) task.state) ∧
    ∀ (s : System) (event : Event), callThrows config s event = true →
      (step config s event).store.tasks = s.store.tasks ∧
        (step config s event).store.stateTransitions = s.store.stateTransitions := by
  have hstep : ∀ (s : System) (event : Event), HistoryConsistent s.store →
      HistoryConsistent (step config s event).store :=
    fun s event hinv => hinv.change (step_change config s event)
  refine ⟨?_, ?_⟩
  · exact (run_invariant (fun s : System => HistoryConsistent s.store) hstep
      historyConsistent_empty events).trail
  · intro s event hthrows
    have hstore := step_store_of_callThrows hthrows
    exact ⟨by rw [hstore], by rw [hstore]⟩

end Orchestrator
