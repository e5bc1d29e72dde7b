import Orchestrator.Scheduler.History
import Orchestrator.Scheduler.Workflow

/-! # Pauses and resumptions

A paused row is not leased and names a state its pause can legally move to; no other
row has pause fields. The next claim of a paused row moves it to the state it names.
That is the state it was paused from, unless the pause came from a run whose stage
snapshot was no longer the row: such a run names the state of its snapshot.
-/

namespace Orchestrator

open Kit TaskState

/-- The pause fields of a row agree with its state. -/
structure PauseConsistent (task : Task) : Prop where
  paused : task.state ∈ pauseStates → task.leaseOwner = none ∧
    ∃ state, task.resumeState = some state ∧ canTransition task.state state = true
  unpaused : task.state ∉ pauseStates →
    task.resumeState = none ∧ task.pauseReason = none ∧ task.pausedAt = none

/-- The task entered its present state from this one. -/
def EnteredFrom (store : Store) (task : Task) (state : TaskState) : Prop :=
  (historyEdges store task.id).getLast? = some (state, task.state)

/-- Every paused row names the state it was paused from. -/
def PausesRemembered (store : Store) : Prop :=
  AllRows (fun task => task.state ∈ pauseStates →
    ∃ state, EnteredFrom store task state ∧ task.resumeState = some state) store

/-- The row after a claim that resumes it: back in `state`, with its counters. -/
structure Resumed (task row : Task) (state : TaskState) : Prop where
  state : row.state = state
  cleared : row.resumeState = none ∧ row.pauseReason = none ∧ row.pausedAt = none
  implementationAttempts : row.implementationAttempts = task.implementationAttempts
  qualityFixAttempts : row.qualityFixAttempts = task.qualityFixAttempts
  reviewAttempts : row.reviewAttempts = task.reviewAttempts

/-- A claim of a paused task moves it back to the state it was paused from; checkpoints,
attempts, work units and dependencies stay. -/
def ClaimResumes (config : SchedulerConfig) (w : Workflow) (event : WorkflowEvent) : Prop :=
  ∀ claim, event = .scheduler claim → ∀ claimed ∈ claimedBy config w.system claim,
    ∀ task state, w.system.store.getTask claimed.2.id = some task →
      task.state ∈ pauseStates → EnteredFrom w.system.store task state →
      Resumed task claimed.2 state ∧
        (w.step config event).system.store.getTask task.id = some claimed.2 ∧
        (w.step config event).system.store.taskWorkUnits = w.system.store.taskWorkUnits ∧
        (w.step config event).system.store.taskDependencies = w.system.store.taskDependencies ∧
        (w.step config event).tables = w.tables

/-- Pause and resume are inverse along the run. -/
structure PauseResumeInverse (config : SchedulerConfig) (w : Workflow)
    (events : List WorkflowEvent) : Prop where
  consistent : Throughout (Workflow.step config)
    (fun w => AllRows PauseConsistent w.system.store) w events
  remembered : Throughout (Workflow.step config)
    (fun w => PausesRemembered w.system.store) w events
  resumed : Along (Workflow.step config) (ClaimResumes config) w events

/-- A run applies a pause to a row that is not in the state of the stage it ran. -/
def PausesElsewhere (config : SchedulerConfig) (s : System) (event : Event) : Prop :=
  ∃ id clock lost run input task, event = .perform id clock lost ∧
    s.runs.find? id = some run ∧ phaseCall config run = some (.transition input) ∧
    input.toState ∈ pauseStates ∧ s.store.getTask run.taskId = some task ∧
    LeasePermits task input.locked ∧
    TransitionAllowed task.state input.toState input.resumeState ∧
    input.resumeState ≠ some task.state

/-- No run applies such a pause. -/
def PausesInPlace (config : SchedulerConfig) (w : Workflow) (event : WorkflowEvent) : Prop :=
  ∀ scheduled, event = .scheduler scheduled → ¬ PausesElsewhere config w.system scheduled

/-! ## The pause fields across one change -/

theorem canTransition_self (state : TaskState) : canTransition state state = false := by
  cases state <;> rfl

theorem resumed_not_paused {pause state : TaskState} (hpause : pause ∈ pauseStates)
    (h : canTransition pause state = true) : state ∉ pauseStates := by
  revert h hpause
  cases pause <;> cases state <;> decide

/-- The pauses among the transitions of a run name a resume state and release the lease;
the others name none. -/
theorem phaseCall_pauseFields {config : SchedulerConfig} {run : RunEntry}
    {input : TaskTransitionInput} (h : phaseCall config run = some (.transition input)) :
    (input.resumeState = none ∧ input.pauseReason = none) ∨
      (input.toState ∈ pauseStates ∧ input.releaseLease = true) := by
  unfold phaseCall at h
  split at h
  · cases h
  · cases h
    exact Or.inl ⟨rfl, rfl⟩
  · split_ifs at h <;> cases h
    exact Or.inl ⟨rfl, rfl⟩
  · cases h
  · cases h
  · cases h
    exact Or.inr ⟨by simp [pauseScheduleInput, pauseStates], rfl⟩
  · cases h
  · cases h
    exact Or.inl ⟨rfl, rfl⟩
  · cases h
    exact Or.inr ⟨by simp [pauseLimitInput, pauseStates], rfl⟩
  · cases h
  · cases h
  · cases h
  · split_ifs at h <;> cases h
    exact Or.inl ⟨rfl, rfl⟩

/-- What an event does to the pause fields of a row. -/
inductive PauseChange (config : SchedulerConfig) (s : System) (event : Event) (task row : Task) :
    Prop
  | kept (hstate : row.state = task.state) (hresume : row.resumeState = task.resumeState)
      (hreason : row.pauseReason = task.pauseReason) (hpausedAt : row.pausedAt = task.pausedAt)
      (howner : task.state ∈ pauseStates → row.leaseOwner = task.leaseOwner)
  | cleared (hallowed : canTransition task.state row.state = true)
      (hstate : row.state ∉ pauseStates)
      (hcleared : row.resumeState = none ∧ row.pauseReason = none ∧ row.pausedAt = none)
  | paused {id run input clock lost} (hevent : event = .perform id clock lost)
      (hrun : s.runs.find? id = some run)
      (hcall : phaseCall config run = some (.transition input))
      (hpause : input.toState ∈ pauseStates) (htask : task.id = run.taskId)
      (hlease : LeasePermits task input.locked)
      (hallowed : TransitionAllowed task.state input.toState input.resumeState)
      (hrelease : input.releaseLease = true) (hrow : row = task.moved input.locked clock)

/-- A transition to a state that is no pause clears the pause fields, if its input has none. -/
theorem moved_cleared {task : Task} {input : LockedTransitionInput} {clock : Instant}
    (hstate : input.toState ∉ pauseStates) (hresume : input.resumeState = none)
    (hreason : input.pauseReason = none) :
    (task.moved input clock).resumeState = none ∧ (task.moved input clock).pauseReason = none ∧
      (task.moved input clock).pausedAt = none := by
  refine ⟨hresume, hreason, ?_⟩
  exact if_neg hstate

theorem RowChange.pauseChange {config : SchedulerConfig} {s : System} {event : Event}
    {task row : Task} (h : RowChange config s event task row) (hinv : PauseConsistent task) :
    PauseChange config s event task row := by
  cases h with
  | kept => exact .kept rfl rfl rfl rfl fun _ => rfl
  | @claimed workerId lane override gated now locked clock _ hgrant hallowed =>
      unfold claimedRow
      cases htransition : claimTransition
          (claimInput config workerId lane override gated now) task with
      | none =>
          -- A paused row names a resume state, so its claim has a transition.
          refine .kept rfl rfl rfl rfl ?_
          intro hpause
          obtain ⟨_, state, hresume, _⟩ := hinv.paused hpause
          have hqueued : task.state ≠ queued := by
            rintro hstate
            simp [hstate, pauseStates] at hpause
          simp [claimTransition, hqueued, hpause, hresume] at htransition
      | some transition =>
          obtain ⟨hcan, _⟩ := hallowed transition htransition
          have hfields : transition.toState ∉ pauseStates ∧ transition.resumeState = none ∧
              transition.pauseReason = none := by
            unfold claimTransition at htransition
            split_ifs at htransition with hqueued hpause
            · cases htransition
              refine ⟨?_, rfl, rfl⟩
              show analyzing ∉ pauseStates
              decide
            · obtain ⟨state, _, rfl⟩ := Option.map_eq_some_iff.mp htransition
              exact ⟨resumed_not_paused hpause hcan, rfl, rfl⟩
          exact .cleared hcan hfields.1 (moved_cleared hfields.1 hfields.2.1 hfields.2.2)
  | renewed _ => exact .kept rfl rfl rfl rfl fun _ => rfl
  | modelSelected _ => exact .kept rfl rfl rfl rfl fun _ => rfl
  | @performed id run call clock lost _ _ hrun hcall heffect =>
      cases heffect with
      | @transition input _ htask hlease hallowed =>
          obtain ⟨_, hid, _⟩ := phaseCall_transition hcall
          rcases phaseCall_pauseFields hcall with ⟨hresume, hreason⟩ | ⟨hpause, hrelease⟩
          · have hstate : input.toState ∉ pauseStates := by
              intro hpause
              obtain ⟨state, hsome, _⟩ := hallowed.2 hpause
              rw [hresume] at hsome
              cases hsome
            exact .cleared hallowed.1 hstate (moved_cleared hstate hresume hreason)
          · exact .paused rfl hrun hcall hpause (htask.trans hid) hlease hallowed hrelease rfl
      | release _ howner =>
          refine .kept rfl rfl rfl rfl ?_
          intro hpause
          rw [(hinv.paused hpause).1] at howner
          cases howner
      | defer _ howner =>
          refine .kept rfl rfl rfl rfl ?_
          intro hpause
          rw [(hinv.paused hpause).1] at howner
          cases howner
  | recovered _ hcandidate =>
      have hstate : blocked ∉ pauseStates := by decide
      exact .cleared (canTransition_of_candidate hcandidate) hstate
        (moved_cleared hstate rfl rfl)
  | retried _ hallowed =>
      have hstate : queued ∉ pauseStates := by decide
      exact .cleared hallowed.1 hstate (moved_cleared hstate rfl rfl)
  | cancelRequested _ => exact .kept rfl rfl rfl rfl fun _ => rfl
  | cancelled _ hallowed =>
      have hstate : TaskState.cancelled ∉ pauseStates := by decide
      exact .cleared hallowed hstate (moved_cleared hstate rfl rfl)
  | manualBlocked _ hallowed =>
      have hstate : blocked ∉ pauseStates := by decide
      exact .cleared hallowed hstate (moved_cleared hstate rfl rfl)
  | manualFlagged => exact .kept rfl rfl rfl rfl fun _ => rfl

/-- The pause fields agree with the state after every event. -/
theorem pauseConsistent_step {config : SchedulerConfig} {s : System} {event : Event}
    (h : AllRows PauseConsistent s.store) :
    AllRows PauseConsistent (Orchestrator.step config s event).store := by
  refine allRows_step ?_ ?_ h
  · rintro row ⟨input, id, clock, rfl⟩
    have hstate : queued ∉ pauseStates := by decide
    exact ⟨fun hpause => absurd hpause hstate, fun _ => ⟨rfl, rfl, rfl⟩⟩
  · intro task _ row hinv hchange
    cases hchange.pauseChange hinv with
    | kept hstate hresume hreason hpausedAt howner =>
        constructor
        · intro hpause
          rw [hstate] at hpause
          rw [howner hpause, hresume, hstate]
          exact hinv.paused hpause
        · intro hpause
          rw [hresume, hreason, hpausedAt]
          exact hinv.unpaused (hstate ▸ hpause)
    | cleared _ hstate hcleared => exact ⟨fun hpause => absurd hpause hstate, fun _ => hcleared⟩
    | paused _ _ _ hpause _ _ hallowed hrelease hrow =>
        subst hrow
        exact ⟨fun _ => ⟨moved_unleased hrelease, hallowed.2 hpause⟩,
          fun hstate => absurd hpause hstate⟩

/-! ## The state a row was paused from -/

theorem historyEdges_recoveredStore {reason : String} {clock : Instant} {taskId : TaskId}
    {store : Store} {tasks : List Task} (h : ∀ task ∈ tasks, task.id ≠ taskId) :
    historyEdges (recoveredStore reason clock store tasks) taskId = historyEdges store taskId := by
  induction tasks generalizing store with
  | nil => rfl
  | cons task tasks ih =>
      have hhead : historyEdges (store.moved task (recoveryInput reason) clock) taskId =
          historyEdges store taskId := by
        have hsnoc := historyEdges_moved store task (recoveryInput reason) clock taskId
        rw [hsnoc, if_neg (h task List.mem_cons_self), List.append_nil]
      rw [← hhead]
      exact ih fun other hother => h other (List.mem_cons_of_mem _ hother)

/-- A row that is paused after an event: its history has grown by its change of state. -/
theorem paused_step {config : SchedulerConfig} {s : System} {event : Event} {taskId : TaskId}
    {row : Task} (hrow : (Orchestrator.step config s event).store.getTask taskId = some row)
    (hpaused : row.state ∈ pauseStates) :
    ∃ task, s.store.getTask taskId = some task ∧ RowChange config s event task row ∧
      ((historyEdges (Orchestrator.step config s event).store taskId =
          historyEdges s.store taskId ∧ row.state = task.state) ∨
        (historyEdges (Orchestrator.step config s event).store taskId =
          historyEdges s.store taskId ++ [(task.state, row.state)] ∧
          canTransition task.state row.state = true)) := by
  cases step_change config s event with
  | @put task row' hput hchange =>
      rw [hput.getTask] at hrow
      split_ifs at hrow with hself
      · cases hrow
        have hid : taskId = task.id := hself.trans hput.sameId
        refine ⟨task, hid ▸ hput.found, hchange, ?_⟩
        rcases hput.recorded with ⟨hsame, hstate⟩ | ⟨reason, createdAt, hlegal, hrecord⟩
        · exact Or.inl ⟨historyEdges_of_eq hsame, hstate⟩
        · refine Or.inr ⟨?_, hlegal⟩
          rw [historyEdges_snoc hrecord, if_pos hid.symm]
      · have hne : task.id ≠ taskId := by
          intro heq
          exact hself (heq ▸ hput.sameId.symm)
        refine ⟨row, hrow, .kept, Or.inl ⟨?_, rfl⟩⟩
        rcases hput.recorded with ⟨hsame, _⟩ | ⟨reason, createdAt, _, hrecord⟩
        · exact historyEdges_of_eq hsame
        · rw [historyEdges_snoc hrecord, if_neg hne, List.append_nil]
  | same htasks _ hhistory =>
      rw [Store.getTask, htasks] at hrow
      exact ⟨row, hrow, .kept, Or.inl ⟨historyEdges_of_eq hhistory, rfl⟩⟩
  | @created row' units hfresh hcreated htasks _ _ hhistory =>
      rw [Store.getTask, htasks] at hrow
      obtain ⟨hmem, hkey⟩ := Table.find?_eq_some_iff.mp hrow
      rcases (Table.mem_insert hfresh).mp hmem with hold | rfl
      · exact ⟨row, Table.find?_eq_some_iff.mpr ⟨hold, hkey⟩, .kept,
          Or.inl ⟨historyEdges_of_eq hhistory, rfl⟩⟩
      · rw [hcreated.unleased.2.1] at hpaused
        exact absurd hpaused (by decide)
  | @recovered condition reason locked clock hevent hstore =>
      rw [hstore, getTask_recoveredStore _ _
        (selected_recoveryCandidates s.store condition locked)] at hrow
      obtain ⟨task, htask, hmap⟩ := Option.map_eq_some_iff.mp hrow
      split_ifs at hmap with hcandidate
      · subst hmap
        exact absurd hpaused (show blocked ∉ pauseStates by decide)
      · subst hmap
        refine ⟨task, htask, .kept, Or.inl ⟨?_, rfl⟩⟩
        rw [hstore]
        apply historyEdges_recoveredStore
        intro other hother hid
        -- A candidate with the id of the row would be the row.
        have hfound := (selected_recoveryCandidates s.store condition locked).rows other hother
        rw [hid, htask] at hfound
        cases hfound
        exact hcandidate hother

theorem remembered_step {config : SchedulerConfig} {s : System} {event : Event}
    (hinv : AllRows PauseConsistent s.store) (hremembered : PausesRemembered s.store)
    (hinplace : ¬ PausesElsewhere config s event) :
    PausesRemembered (Orchestrator.step config s event).store := by
  intro row hmem hpaused
  obtain ⟨task, htask, hchange, hhistory⟩ := paused_step (Table.find?_of_mem hmem) hpaused
  obtain ⟨htaskMem, hid⟩ := Store.getTask_eq_some_iff.mp htask
  cases hchange.pauseChange (hinv task htaskMem) with
  | kept hstate hresume _ _ _ =>
      rcases hhistory with ⟨hsame, _⟩ | ⟨_, hlegal⟩
      · obtain ⟨state, hentered, hnamed⟩ := hremembered task htaskMem (hstate ▸ hpaused)
        refine ⟨state, ?_, hresume.trans hnamed⟩
        rw [EnteredFrom, hsame, hstate, ← hid]
        exact hentered
      · rw [hstate, canTransition_self] at hlegal
        cases hlegal
  | cleared _ hstate _ => exact absurd hpaused hstate
  | @paused id run input clock lost hevent hrun hcall hpause htaskId hlease hallowed _ hrow =>
      subst hrow
      rcases hhistory with ⟨_, hstate⟩ | ⟨hgrown, _⟩
      · have hlegal : canTransition task.state input.toState = true := hallowed.1
        rw [Task.moved_state] at hstate
        rw [show input.toState = task.state from hstate, canTransition_self] at hlegal
        cases hlegal
      · refine ⟨task.state, ?_, ?_⟩
        · rw [EnteredFrom, hgrown]
          exact List.getLast?_concat
        · -- Otherwise the run would name another state than the row is in.
          by_contra hnamed
          refine hinplace ⟨id, clock, lost, run, input, task, hevent, hrun, hcall, hpause, ?_,
            hlease, hallowed, hnamed⟩
          rw [← htaskId]
          exact getTask_self htask

/-- A pause from elsewhere is not remembered. -/
theorem not_remembered_of_elsewhere {config : SchedulerConfig} {s : System} {event : Event}
    (helsewhere : PausesElsewhere config s event) :
    ¬ PausesRemembered (Orchestrator.step config s event).store := by
  obtain ⟨id, clock, lost, run, input, task, rfl, hrun, hcall, hpause, htask, hlease, hallowed,
    hother⟩ := helsewhere
  obtain ⟨_, htaskId, _⟩ := phaseCall_transition hcall
  have hid : task.id = run.taskId := (Store.getTask_eq_some_iff.mp htask).2
  have hresult : transitionTask s.store input clock =
      .ok (s.store.moved task input.locked clock, task.moved input.locked clock) :=
    transitionTask_eq_ok_iff.mpr ⟨task, htaskId ▸ htask, hlease, hallowed, rfl, rfl⟩
  have hstore : (Orchestrator.step config s (.perform id clock lost)).store =
      s.store.moved task input.locked clock := step_perform_store hrun hcall hresult
  intro hremembered
  have hrow : (s.store.moved task input.locked clock).getTask task.id =
      some (task.moved input.locked clock) := by
    rw [getTask_moved _ _ (getTask_self htask), if_pos rfl]
  obtain ⟨state, hentered, hnamed⟩ := hremembered (task.moved input.locked clock)
    (hstore ▸ Table.mem_of_find? hrow) hpause
  have hlast : (historyEdges (s.store.moved task input.locked clock) task.id).getLast? =
      some (task.state, input.toState) := by
    rw [historyEdges_moved, if_pos rfl]
    exact List.getLast?_concat
  rw [hstore] at hentered
  have hsame := hlast.symm.trans hentered
  simp only [Option.some.injEq, Prod.mk.injEq] at hsame
  rw [← hsame.1] at hnamed
  exact hother hnamed

/-! ## Claims of paused rows -/

/-- A claim of a paused row moves it to the state it names, with a new lease. -/
theorem claimedRow_resumed {input : TaskClaimWithLimitInput} {task : Task} {clock : Instant}
    {state : TaskState} (hpaused : task.state ∈ pauseStates)
    (hresume : task.resumeState = some state) (hstate : state ∉ pauseStates) :
    Resumed task (claimedRow input task clock) state := by
  have hqueued : task.state ≠ queued := by
    intro heq
    simp [heq, pauseStates] at hpaused
  have htransition : claimTransition input task = some
      { toState := state, reason := some s!"Resumed from {task.state.text}",
        lease := some (claimLease input) } := by
    simp [claimTransition, hqueued, hpaused, hresume]
  unfold claimedRow
  rw [htransition]
  exact ⟨rfl, moved_cleared hstate rfl rfl, rfl, rfl, rfl⟩

theorem claimResumes_of_remembered {config : SchedulerConfig} {w : Workflow}
    {event : WorkflowEvent} (hinv : AllRows PauseConsistent w.system.store)
    (hremembered : PausesRemembered w.system.store) : ClaimResumes config w event := by
  rintro claim rfl ⟨worker, row⟩ hclaimed task state htask hpaused hentered
  cases claim with
  | claim workerId lane override gated now locked clock =>
      cases hresult : claimNextTask w.system.store
          (claimInput config workerId lane override gated now) locked clock with
      | error failure => simp [claimedBy, hresult] at hclaimed
      | ok result =>
          obtain ⟨store', claimed⟩ := result
          rcases claimNextTask_eq_ok hresult with ⟨rfl, _⟩ | ⟨found, hgrant, _, hstore, rfl⟩
          · simp [claimedBy, hresult] at hclaimed
          · simp only [claimedBy, hresult, Option.mem_def, Option.some.injEq,
              Prod.mk.injEq] at hclaimed
            obtain ⟨rfl, rfl⟩ := hclaimed
            rw [claimedRow_id, hgrant.row] at htask
            cases htask
            have hmem := (Store.getTask_eq_some_iff.mp hgrant.row).1
            -- The state it was paused from is the one it names.
            obtain ⟨named, hnamed, hresume⟩ := hremembered task hmem hpaused
            have hsame : named = state := by
              have heq := hnamed.symm.trans hentered
              simpa using heq
            obtain ⟨_, resume, hresume', hlegal⟩ := (hinv task hmem).paused hpaused
            rw [hresume] at hresume'
            cases hresume'
            subst hsame
            have hstep : (w.step config (.scheduler
                (.claim workerId lane override gated now locked clock))).system.store =
                store' := by
              simp only [Workflow.step, step_store, effect, hresult, startTask_store]
            have hrows : store'.getTask task.id = some (claimedRow
                (claimInput config workerId lane override gated now) task clock) := by
              rw [hstore]
              unfold claimedStore claimedRow
              split
              · rw [getTask_moved _ _ hgrant.row, if_pos rfl]
              · exact Store.getTask_putTask_self _ hgrant.row
            refine ⟨claimedRow_resumed hpaused hresume (resumed_not_paused hpaused hlegal), ?_, ?_,
              ?_, rfl⟩
            · rw [hstep]
              exact hrows
            · rw [hstep, hstore]
              unfold claimedStore
              split <;> rfl
            · rw [hstep, hstore]
              unfold claimedStore
              split <;> rfl
  | _ => cases hclaimed

/-! ## Runs -/

/-- A stage call is no event of the scheduler but the selection of a model. -/
theorem workflow_system_step (config : SchedulerConfig) (w : Workflow) (event : WorkflowEvent) :
    (w.step config event).system = w.system ∨ ∃ scheduled,
      (w.step config event).system = Orchestrator.step config w.system scheduled ∧
        (event = .scheduler scheduled ∨
          ∃ id selection now, scheduled = .selectModel id selection now) := by
  cases event with
  | scheduler scheduled => exact Or.inr ⟨scheduled, rfl, Or.inl rfl⟩
  | stage id call now =>
      unfold Workflow.step
      dsimp only
      split
      · exact Or.inl rfl
      · split
        · cases call with
          | recordModelSelection selection =>
              exact Or.inr ⟨_, rfl, Or.inr ⟨_, _, _, rfl⟩⟩
          | _ => exact Or.inl rfl
        · exact Or.inl rfl

theorem pauseConsistent_workflow_step {config : SchedulerConfig} (w : Workflow)
    (event : WorkflowEvent) (h : AllRows PauseConsistent w.system.store) :
    AllRows PauseConsistent (w.step config event).system.store := by
  rcases workflow_system_step config w event with heq | ⟨scheduled, heq, _⟩
  · rwa [heq]
  · rw [heq]
    exact pauseConsistent_step h

theorem remembered_workflow_step_iff {config : SchedulerConfig} (w : Workflow)
    (event : WorkflowEvent) (hinv : AllRows PauseConsistent w.system.store)
    (hremembered : PausesRemembered w.system.store) :
    PausesRemembered (w.step config event).system.store ↔ PausesInPlace config w event := by
  constructor
  · rintro hnext scheduled rfl helsewhere
    exact not_remembered_of_elsewhere helsewhere hnext
  · intro hinplace
    rcases workflow_system_step config w event with heq | ⟨scheduled, heq, hevent⟩
    · rwa [heq]
    · rw [heq]
      apply remembered_step hinv hremembered
      rcases hevent with rfl | ⟨id, selection, now, rfl⟩
      · exact hinplace scheduled rfl
      · rintro ⟨_, _, _, _, _, _, ⟨⟩, _⟩

/-- In every reachable state the pause fields agree with the states. -/
theorem pause_fields_consistent (config : SchedulerConfig) (tables : StageTables)
    (events : List WorkflowEvent) :
    AllRows PauseConsistent
      (run (Workflow.step config) { system := boot {}, tables } events).system.store := by
  refine run_invariant (fun w : Workflow => AllRows PauseConsistent w.system.store)
    pauseConsistent_workflow_step ?_ events
  intro task htask
  cases htask

/-- Pause and resume are inverse along a run exactly if no run applies a pause to a row that
is not in the state of the stage it ran. -/
theorem pause_resume_inverse_iff (config : SchedulerConfig) (tables : StageTables)
    (events : List WorkflowEvent) :
    PauseResumeInverse config { system := boot {}, tables } events ↔
      Along (Workflow.step config) (PausesInPlace config) { system := boot {}, tables }
        events := by
  have hinit : AllRows PauseConsistent (boot {}).store := by
    intro task htask
    cases htask
  have hremembered : PausesRemembered (boot {}).store := by
    intro task htask
    cases htask
  have hiff : Throughout (Workflow.step config) (fun w => PausesRemembered w.system.store)
      { system := boot {}, tables } events ↔
        Along (Workflow.step config) (PausesInPlace config) { system := boot {}, tables } events :=
    throughout_iff_along (fun w : Workflow => AllRows PauseConsistent w.system.store)
      pauseConsistent_workflow_step remembered_workflow_step_iff hinit hremembered events
  constructor
  · intro h
    exact hiff.mp h.remembered
  · intro hinplace
    refine ⟨?_, hiff.mpr hinplace, ?_⟩
    · exact throughout_of_along (C := PausesInPlace config) _
        (fun w event h _ => pauseConsistent_workflow_step w event h) hinit hinplace
    · refine along_of_invariant (fun w : Workflow => AllRows PauseConsistent w.system.store ∧
        PausesRemembered w.system.store) ?_ ?_ ⟨hinit, hremembered⟩ hinplace
      · rintro w event ⟨hconsistent, hnamed⟩ hstep
        exact ⟨pauseConsistent_workflow_step w event hconsistent,
          (remembered_workflow_step_iff w event hconsistent hnamed).mpr hstep⟩
      · rintro w event ⟨hconsistent, hnamed⟩ _
        exact claimResumes_of_remembered hconsistent hnamed

/-- Worker `w1` analyses the task past the end of its lease; the task is recovered,
retried and claimed by `w1` again, and is being implemented when the first analysis
reports a usage limit. -/
def stalePauses : List Event :=
  [.startIntake { eligible := [sampleIssue "a" []] }, .intake 0 0, .intake 0 0,
    sampleClaim "w1" .execution 0, .readTask 0 false, .readControls 0 false false 0,
    .recoverExpired 300001 [] 300001, .retry 1 ⟨"operator", "again"⟩ 300002,
    sampleClaim "w1" .execution 300003] ++
  sampleStage 1 (.advance { toState := ready }) 300004 ++
  sampleStage 1 (.advance { toState := implementing }) 300005 ++
  [.finish 0 (.pauseLimit { pauseReason := .usageLimit, resumeAfter := some 0 }) 300006,
    .perform 0 300006 none]

def stalePauseRun : List WorkflowEvent := stalePauses.map WorkflowEvent.scheduler

def resumingClaim : Event := sampleClaim "w1" .execution 300007

theorem stale_pause_resumes_elsewhere :
    ¬ ∀ (config : SchedulerConfig) (tables : StageTables) (events : List WorkflowEvent),
      PauseResumeInverse config { system := boot {}, tables } events := by
  intro h
  have hresumed := (h sampleConfig {} (stalePauseRun ++ [.scheduler resumingClaim])).resumed
  have hlast := (along_append.mp hresumed).2.1
  -- Paused while it was implemented, the task resumes its analysis.
  have hclaimed : (claimedBy sampleConfig (run (Workflow.step sampleConfig)
      { system := boot {} } stalePauseRun).system resumingClaim).map
        (fun claimed => (claimed.2.id, claimed.2.state)) = some (1, analyzing) := by decide
  obtain ⟨claimed, hclaim, hrow⟩ := Option.map_eq_some_iff.mp hclaimed
  simp only [Prod.mk.injEq] at hrow
  have htask : ((run (Workflow.step sampleConfig) { system := boot {} }
      stalePauseRun).system.store.getTask 1).map (fun task => (task.id, task.state)) =
        some (1, pausedLimit) := by decide
  obtain ⟨task, hfound, hstate⟩ := Option.map_eq_some_iff.mp htask
  simp only [Prod.mk.injEq] at hstate
  have hentered : (historyEdges (run (Workflow.step sampleConfig) { system := boot {} }
      stalePauseRun).system.store 1).getLast? = some (implementing, pausedLimit) := by decide
  have hback := hlast resumingClaim rfl claimed hclaim task implementing
    (by rw [hrow.1]; exact hfound) (by rw [hstate.2]; decide)
    (by rw [EnteredFrom, hstate.1, hstate.2]; exact hentered)
  have himplementing := hback.1.state
  rw [hrow.2] at himplementing
  cases himplementing

end Orchestrator
