import Orchestrator.Scheduler.System

/-! # Interruption by the schedule

The heartbeat interrupts a stage by `shouldInterruptRunningStage`, and the boundary
starts one by `stageGate`. The two procedures agree at every instant: what the first
interrupts, the second refuses.
-/

namespace Orchestrator

open Kit TaskState

/-- A refusal because the schedule is closed, by the operator's override or by its
windows. -/
def StageGateDecision.Closed (gate : StageGateDecision) : Prop :=
  gate.permitted = false ∧
    (gate.reason = .overrideDisabled ∨ gate.reason = .hours .outsideWindow)

def ClosedTo (schedule : ScheduleConfig) (stage : TaskState) (override : ScheduleOverride)
    (now : LocalTime) : Prop :=
  ∃ gate, stageGate schedule stage override now = some gate ∧ gate.Closed

/-! ## The two procedures -/

theorem operatingHoursFor_closed {schedule : ScheduleConfig} {operation : OperationType}
    {now : LocalTime} (hclosed : (operatingHoursFor schedule operation now).isOpen = false) :
    (operatingHoursFor schedule operation now).canStart = false ∧
      (operatingHoursFor schedule operation now).reason = .outsideWindow := by
  revert hclosed
  unfold operatingHoursFor
  by_cases henabled : schedule.enabled = false
  · rw [if_pos henabled]
    intro hclosed
    cases hclosed
  · rw [if_neg henabled]
    cases openMinutes schedule now with
    | none => exact fun _ => ⟨rfl, rfl⟩
    | some minutes =>
        dsimp only
        split_ifs <;> intro hclosed <;> cases hclosed

theorem operatingHoursFor_outsideWindow {schedule : ScheduleConfig} {operation : OperationType}
    {now : LocalTime}
    (hreason : (operatingHoursFor schedule operation now).reason = .outsideWindow) :
    (operatingHoursFor schedule operation now).isOpen = false := by
  revert hreason
  unfold operatingHoursFor
  by_cases henabled : schedule.enabled = false
  · rw [if_pos henabled]
    intro hreason
    cases hreason
  · rw [if_neg henabled]
    cases openMinutes schedule now with
    | none => exact fun _ => rfl
    | some minutes =>
        dsimp only
        split_ifs <;> intro hreason <;> cases hreason

/-- The gate of the `normal` override refuses with a closed window exactly outside the
windows, unless the work is mechanical and allowed then. -/
theorem operationGate_normal_closed_iff (schedule : ScheduleConfig) (operation : OperationType)
    (now : LocalTime) :
    (operationGate schedule operation .normal now).Closed ↔
      (isMechanicalOperation operation && schedule.allowMechanicalOperationsOutsideHours) = false ∧
        (operatingHoursFor schedule operation now).isOpen = false := by
  unfold operationGate StageGateDecision.Closed
  dsimp only
  constructor
  · intro hgate
    split_ifs at hgate with hstart hguard hmechanical
    · rcases hgate.2 with hreason | hreason <;> cases hreason
    · cases hgate.1
    · cases hgate.1
    · rcases hgate.2 with hreason | hreason
      · cases hreason
      · have hhours := GateReason.hours.inj hreason
        exact ⟨Bool.eq_false_of_not_eq_true hmechanical, operatingHoursFor_outsideWindow hhours⟩
  · rintro ⟨hmechanical, hclosed⟩
    rcases operatingHoursFor_closed hclosed with ⟨hstart, hreason⟩
    rw [if_neg (by simp [hstart]), if_neg (by simp [hmechanical])]
    exact ⟨rfl, .inr (congrArg GateReason.hours hreason)⟩

/-- Interrupting a running stage and refusing to start it because the schedule is closed
are the same decision, where stages are not allowed to finish. -/
theorem shouldInterrupt_iff_closed {schedule : ScheduleConfig} {stage : TaskState}
    {override : ScheduleOverride} {now : LocalTime} :
    shouldInterruptRunningStage schedule stage override now = true ↔
      schedule.finishCurrentStep = false ∧ ClosedTo schedule stage override now := by
  unfold shouldInterruptRunningStage ClosedTo stageGate
  by_cases hfinish : schedule.finishCurrentStep = true
  · simp [hfinish]
  · rw [if_neg hfinish]
    have hfinishes := Bool.eq_false_of_not_eq_true hfinish
    cases executableStageOperations stage with
    | none => simp
    | some operation =>
        simp only [Option.map_some, Option.some.injEq, exists_eq_left', hfinishes, true_and]
        cases override with
        | enabled => simp [operationGate, StageGateDecision.Closed]
        | disabled =>
            by_cases hmechanical :
              (isMechanicalOperation operation &&
                schedule.allowMechanicalOperationsOutsideHours) = true
            · simp [operationGate, StageGateDecision.Closed, hmechanical]
            · simp [operationGate, StageGateDecision.Closed, hmechanical]
        | normal =>
            rw [operationGate_normal_closed_iff]
            by_cases hmechanical :
              (isMechanicalOperation operation &&
                schedule.allowMechanicalOperationsOutsideHours) = true
            · simp [hmechanical]
            · simp [hmechanical]

theorem not_permitted_of_closed {schedule : ScheduleConfig} {stage : TaskState}
    {override : ScheduleOverride} {now : LocalTime}
    (hclosed : ClosedTo schedule stage override now) :
    stagePermitted schedule stage override now = false := by
  rcases hclosed with ⟨gate, hgate, hrefused, -⟩
  simp [stagePermitted, hgate, hrefused]

/-! ## Boundaries and heartbeats -/

/-- What the schedule decisions of the system depend on at an instant. -/
def gateInputs (config : SchedulerConfig) (s : System) (now : Instant) :
    ScheduleOverride × LocalTime :=
  (s.store.getControls.scheduleOverride, config.localTime now)

/-- The heartbeat of the run aborts its stage because the schedule closed. -/
structure Interrupts (config : SchedulerConfig) (s : System) (id : Nat) (now : Instant)
    (run : RunEntry) (task : Task) : Prop where
  found : s.runs.find? id = some run
  phase : run.phase = .running task
  unaborted : run.abortReason = none
  aborted : ∃ after, (step config s (.heartbeatControls id false now)).runs.find? id = some after ∧
    after.abortReason = some .schedule

/-- The boundary of the run passes the gate, and the stage starts. -/
structure Starts (config : SchedulerConfig) (s : System) (id : Nat) (now : Instant)
    (run : RunEntry) (task : Task) : Prop where
  found : s.runs.find? id = some run
  phase : run.phase = .readingControls task
  started : ∃ after, (step config s (.readControls id false false now)).runs.find? id = some after ∧
    after.phase = .running task

/-- The run's next call of the repository pauses its task or gives up the lease. -/
def PausesOrParks (config : SchedulerConfig) (run : RunEntry) (task : Task) : Prop :=
  (∃ gate, phaseCall config run = some (.transition (pauseScheduleInput run task gate))) ∨
    phaseCall config run = some (.release {})

theorem find?_setRun {s : System} {run old : RunEntry} (hfound : s.runs.find? run.id = some old) :
    (s.setRun run).runs.find? run.id = some run :=
  Table.find?_put_self hfound

/-- What the heartbeat's controls leave of a run. -/
theorem heartbeatControls_run {config : SchedulerConfig} {s : System} {id : Nat} {now : Instant}
    {run after : RunEntry} {state : TaskState} (hfound : s.runs.find? id = some run)
    (hstate : run.heartbeatState = some state)
    (hafter : (step config s (.heartbeatControls id false now)).runs.find? id = some after) :
    after = { run with heartbeatState := none }.aborted .killSwitch ∨
      (shouldInterruptRunningStage config.schedule state s.store.getControls.scheduleOverride
          (config.localTime now) = true ∧
        after = { run with heartbeatState := none }.aborted .schedule) ∨
      after = { run with heartbeatState := none } := by
  have hid : run.id = id := Table.key_of_find? hfound
  have hidle : ∀ reason, ({ run with heartbeatState := none }.aborted reason).id = run.id := by
    intro reason
    unfold RunEntry.aborted
    split <;> rfl
  have hset : ∀ next : RunEntry, next.id = run.id →
      (s.setRun next).runs.find? id = some after → after = next := by
    intro next hnext hfind
    rw [← hid, ← hnext, find?_setRun (hnext.symm ▸ hid.symm ▸ hfound)] at hfind
    exact (Option.some.inj hfind).symm
  have heffect : (effect config s (.heartbeatControls id false now)).runs.find? id = some after :=
    hafter
  simp only [effect, System.onRun, hfound, stepHeartbeatControls, hstate] at heffect
  split_ifs at heffect with hkill hinterrupt
  · exact .inl (hset _ (hidle _) heffect)
  · exact .inr (.inl ⟨hinterrupt, hset _ (hidle _) heffect⟩)
  · exact .inr (.inr (hset _ rfl heffect))

/-- A heartbeat that interrupts the stage it renewed does so by the schedule of that
instant. -/
theorem Interrupts.shouldInterrupt {config : SchedulerConfig} {s : System} {id : Nat}
    {now : Instant} {run : RunEntry} {task : Task} (h : Interrupts config s id now run task)
    (hrenewed : run.heartbeatState = some task.state) :
    shouldInterruptRunningStage config.schedule task.state (gateInputs config s now).1
      (gateInputs config s now).2 = true := by
  rcases h.aborted with ⟨after, hafter, haborted⟩
  rcases heartbeatControls_run h.found hrenewed hafter with rfl | ⟨hinterrupt, -⟩ | rfl
  · simp [RunEntry.aborted, h.phase, h.unaborted] at haborted
  · exact hinterrupt
  · rw [h.unaborted] at haborted
    cases haborted

/-- What reading the controls makes of a run at a boundary. -/
theorem readControls_run {config : SchedulerConfig} {s : System} {id : Nat} {now : Instant}
    {run : RunEntry} {task : Task} (forceKillSwitch stopping : Bool)
    (hfound : s.runs.find? id = some run) (hphase : run.phase = .readingControls task) :
    (step config s (.readControls id forceKillSwitch stopping now)).runs.find? id =
      some { run with
        phase := gatePhase config s.store.getControls forceKillSwitch task now
        abortReason := if stopping then some .shutdown else none } := by
  have hid : run.id = id := Table.key_of_find? hfound
  simp only [step, effect, System.onRun, hfound, stepReadControls, hphase]
  rw [← hid] at hfound ⊢
  exact Table.find?_put_self hfound

/-- The gate passes on the snapshot it was given. -/
theorem gatePhase_running {config : SchedulerConfig} {controls : OrchestratorControls}
    {forceKillSwitch : Bool} {task running : Task} {now : Instant}
    (h : gatePhase config controls forceKillSwitch task now = .running running) :
    running = task := by
  unfold gatePhase at h
  dsimp only at h
  split_ifs at h
  exact (Phase.running.inj h).symm

/-- A boundary starts a stage only where the gate permits it. -/
theorem Starts.permitted {config : SchedulerConfig} {s : System} {id : Nat} {now : Instant}
    {run : RunEntry} {task : Task} (h : Starts config s id now run task) :
    stagePermitted config.schedule task.state (gateInputs config s now).1
      (gateInputs config s now).2 = true := by
  rcases h.started with ⟨after, hafter, hrunning⟩
  rw [readControls_run false false h.found h.phase] at hafter
  rcases Option.some.inj hafter with rfl
  by_contra hrefused
  have hfalse := Bool.eq_false_of_not_eq_true hrefused
  simp only [gateInputs] at hfalse
  simp only [gatePhase, hfalse, Bool.not_false, if_true] at hrunning
  split_ifs at hrunning

theorem gatePhase_refused {config : SchedulerConfig} {controls : OrchestratorControls}
    {forceKillSwitch : Bool} {task : Task} {now : Instant}
    (hrefused : stagePermitted config.schedule task.state controls.scheduleOverride
      (config.localTime now) = false) :
    gatePhase config controls forceKillSwitch task now = .parking task ∨
      ∃ gate, gatePhase config controls forceKillSwitch task now = .pausingSchedule task gate := by
  unfold gatePhase
  simp only [hrefused, Bool.not_false, if_true]
  split_ifs
  · exact .inl rfl
  · exact .inl rfl
  · exact .inl rfl
  · exact .inr ⟨_, rfl⟩
  · exact .inl rfl

/-- A boundary at which the stage would be interrupted pauses or parks it. -/
theorem boundary_stops {config : SchedulerConfig} {s : System} {id : Nat} {now : Instant}
    {run : RunEntry} {task : Task} (forceKillSwitch stopping : Bool)
    (hfound : s.runs.find? id = some run) (hphase : run.phase = .readingControls task)
    (hinterrupt : shouldInterruptRunningStage config.schedule task.state
      (gateInputs config s now).1 (gateInputs config s now).2 = true) :
    ∃ after, (step config s (.readControls id forceKillSwitch stopping now)).runs.find? id =
      some after ∧ PausesOrParks config after task := by
  refine ⟨_, readControls_run forceKillSwitch stopping hfound hphase, ?_⟩
  have hclosed := (shouldInterrupt_iff_closed.mp hinterrupt).2
  have hrefused := not_permitted_of_closed hclosed
  rcases @gatePhase_refused _ _ forceKillSwitch _ _ hrefused with hgate | ⟨gate, hgate⟩
  · exact .inr (by simp only [phaseCall, hgate])
  · exact .inl ⟨gate, by simp only [phaseCall, hgate]⟩

/-- Interruption and the gate agree: a stage is interrupted exactly where it is not left
to finish and the gate refuses it because the schedule is closed, a boundary at such an
instant stops the task, and a stage that a heartbeat interrupted and a boundary started
saw different local times or overrides. -/
theorem interruption_agrees_with_gate (config : SchedulerConfig) :
    (∀ (stage : TaskState) (override : ScheduleOverride) (now : LocalTime),
      (shouldInterruptRunningStage config.schedule stage override now = true ↔
        config.schedule.finishCurrentStep = false ∧
          ClosedTo config.schedule stage override now) ∧
      (shouldInterruptRunningStage config.schedule stage override now = true →
        stagePermitted config.schedule stage override now = false)) ∧
    (∀ (s : System) (id : Nat) (now : Instant) (run : RunEntry) (task : Task)
      (forceKillSwitch stopping : Bool),
      s.runs.find? id = some run → run.phase = .readingControls task →
      shouldInterruptRunningStage config.schedule task.state (gateInputs config s now).1
        (gateInputs config s now).2 = true →
      ∃ after, (step config s (.readControls id forceKillSwitch stopping now)).runs.find? id =
        some after ∧ PausesOrParks config after task) ∧
    (∀ (s t : System) (id other : Nat) (interruptedAt startedAt : Instant) (run starting : RunEntry)
      (task started : Task),
      Interrupts config s id interruptedAt run task → run.heartbeatState = some task.state →
      Starts config t other startedAt starting started → started.state = task.state →
      gateInputs config s interruptedAt ≠ gateInputs config t startedAt) := by
  refine ⟨fun stage override now => ⟨shouldInterrupt_iff_closed, ?_⟩, ?_, ?_⟩
  · intro hinterrupt
    exact not_permitted_of_closed (shouldInterrupt_iff_closed.mp hinterrupt).2
  · intro s id now run task forceKillSwitch stopping hfound hphase hinterrupt
    exact boundary_stops forceKillSwitch stopping hfound hphase hinterrupt
  · intro s t id other interruptedAt startedAt run starting task started hinterrupts hrenewed
      hstarts hstage hinputs
    have hinterrupt := hinterrupts.shouldInterrupt hrenewed
    have hpermitted := hstarts.permitted
    have hrefused := not_permitted_of_closed (shouldInterrupt_iff_closed.mp hinterrupt).2
    rw [hstage, ← hinputs, hrefused] at hpermitted
    cases hpermitted

/-! ## A later boundary -/

def Event.readsControlsOf (id : Nat) : Event → Bool
  | .readControls run _ _ _ => run = id
  | _ => false

/-- In every run from this store, the next boundary after a heartbeat interrupted a stage
does not start the stage again. -/
def NextBoundaryStops (config : SchedulerConfig) (store : Store) : Prop :=
  ∀ (before between : List Event) (id : Nat) (interruptedAt startedAt : Instant)
    (run starting : RunEntry) (task started : Task),
    Interrupts config (Kit.run (step config) (boot store) before) id interruptedAt run task →
    between.all (fun event => !event.readsControlsOf id) = true → started.state = task.state →
    ¬ Starts config (Kit.run (step config) (boot store)
        (before ++ .heartbeatControls id false interruptedAt :: between))
      id startedAt starting started

/-- The full hour `hour` of the day `weekday`, both counted around. -/
def fullHour (weekday hour : Nat) : LocalTime :=
  { sampleConfig.localTime 0 with
    weekday := ⟨weekday % 7, Nat.mod_lt weekday (by decide)⟩
    hour := ⟨hour % 24, Nat.mod_lt hour (by decide)⟩ }

/-- Every day from 09:00 to 17:00, and a running stage is not left to finish. The clock
passes 10:00, 18:00 and the next day's 10:00, one instant each. -/
def officeConfig : SchedulerConfig where
  schedule := {
    finishCurrentStep := false
    days := fun day =>
      let opens := fullHour day 9
      let closes := fullHour day 17
      ⟨true, [⟨⟨opens.hour, opens.minute⟩, ⟨closes.hour, closes.minute⟩⟩]⟩ }
  localTime := fun now =>
    if now = 0 then fullHour 0 10 else if now = 1 then fullHour 0 18 else fullHour 1 10
  handlers := taskStates.filter ExecutableStage

def officeStore : Store := sampleStore [sampleTask 1 implementing]

/-- The implementation starts in the morning, and a heartbeat begins in the evening. -/
def eveningHeartbeat : List Event :=
  [sampleClaim "w1" .execution 0, .readTask 0 false, .readControls 0 false false 0,
    .heartbeat 0 1]

/-- The stage stops, and the boundary reads the task again. -/
def stoppedStage (now : Instant) : List Event := [.finish 0 .interrupted now, .readTask 0 false]

/-- The stage a run is about to start or runs, and the reason its abort was given. -/
def stageSeen (s : System) (id : Nat) : Option (TaskState × Bool × Option StageAbortReason) :=
  match s.runs.find? id with
  | none => none
  | some run => match run.phase with
    | .running task => some (task.state, true, run.abortReason)
    | .readingControls task => some (task.state, false, run.abortReason)
    | _ => none

theorem run_of_stageSeen {s : System} {id : Nat} {stage : TaskState}
    {reason : Option StageAbortReason} (h : stageSeen s id = some (stage, true, reason)) :
    ∃ run task, s.runs.find? id = some run ∧ run.phase = .running task ∧ task.state = stage ∧
      run.abortReason = reason := by
  unfold stageSeen at h
  cases hfound : s.runs.find? id with
  | none => simp [hfound] at h
  | some run =>
      simp only [hfound] at h
      split at h
      · rename_i task hphase
        simp only [Option.some.injEq, Prod.mk.injEq, true_and] at h
        exact ⟨run, task, rfl, hphase, h.1, h.2⟩
      · simp at h
      · cases h

theorem boundary_of_stageSeen {s : System} {id : Nat} {stage : TaskState}
    {reason : Option StageAbortReason} (h : stageSeen s id = some (stage, false, reason)) :
    ∃ run task, s.runs.find? id = some run ∧ run.phase = .readingControls task ∧
      task.state = stage := by
  unfold stageSeen at h
  cases hfound : s.runs.find? id with
  | none => simp [hfound] at h
  | some run =>
      simp only [hfound] at h
      split at h
      · simp at h
      · rename_i task hphase
        simp only [Option.some.injEq, Prod.mk.injEq, true_and] at h
        exact ⟨run, task, rfl, hphase, h.1⟩
      · cases h

/-- A heartbeat after which the running stage is seen aborted. -/
theorem interrupts_of_stageSeen {config : SchedulerConfig} {s : System} {id : Nat}
    {stage : TaskState} {now : Instant} (hrunning : stageSeen s id = some (stage, true, none))
    (haborted : stageSeen (step config s (.heartbeatControls id false now)) id =
      some (stage, true, some .schedule)) :
    ∃ run task, Interrupts config s id now run task ∧ task.state = stage := by
  obtain ⟨run, task, hfound, hphase, hstage, hreason⟩ := run_of_stageSeen hrunning
  obtain ⟨after, _, hafter, _, _, hschedule⟩ := run_of_stageSeen haborted
  exact ⟨run, task, ⟨hfound, hphase, hreason, after, hafter, hschedule⟩, hstage⟩

/-- A boundary after which the stage is seen running. -/
theorem starts_of_stageSeen {config : SchedulerConfig} {s : System} {id : Nat}
    {stage : TaskState} {reason : Option StageAbortReason} {now : Instant}
    (hreading : stageSeen s id = some (stage, false, reason))
    (hstarted : stageSeen (step config s (.readControls id false false now)) id =
      some (stage, true, none)) :
    ∃ run task, Starts config s id now run task ∧ task.state = stage := by
  obtain ⟨run, task, hfound, hphase, hstage⟩ := boundary_of_stageSeen hreading
  obtain ⟨after, running, hafter, hruns, _, _⟩ := run_of_stageSeen hstarted
  refine ⟨run, task, ⟨hfound, hphase, after, hafter, ?_⟩, hstage⟩
  -- The gate passes the snapshot that the boundary read.
  have hread := @readControls_run config _ _ now _ _ false false hfound hphase
  rw [show after = _ from Option.some.inj (hafter.symm.trans hread)] at hruns ⊢
  rw [hruns, gatePhase_running hruns]

def eveningStage : System :=
  Kit.run (step officeConfig) (boot officeStore) eveningHeartbeat

/-- A worker that claimed the task in the morning is at the boundary in the evening. -/
def eveningBoundary : System :=
  Kit.run (step officeConfig) (boot officeStore) [sampleClaim "w1" .execution 0, .readTask 0 false]

def morningBoundary : System :=
  Kit.run (step officeConfig) (boot officeStore) [sampleClaim "w1" .execution 2, .readTask 0 false]

/-- In the evening a boundary stops the stage; a heartbeat of that evening and the boundary of the
next morning, which starts it, see different times. -/
theorem interruption_agrees_with_gate_office :
    (∃ task after,
      (step officeConfig eveningBoundary (.readControls 0 false false 1)).runs.find? 0 =
        some after ∧ PausesOrParks officeConfig after task) ∧
      gateInputs officeConfig eveningStage 1 ≠ gateInputs officeConfig morningBoundary 2 := by
  have hreading : stageSeen eveningBoundary 0 = some (implementing, false, none) := by
    decide +kernel
  have hcloses : shouldInterruptRunningStage officeConfig.schedule implementing
      (gateInputs officeConfig eveningBoundary 1).1
      (gateInputs officeConfig eveningBoundary 1).2 = true := by decide +kernel
  have hrenewals : (eveningStage.runs.find? 0).map (·.heartbeatState) =
      some (some implementing) := by decide +kernel
  obtain ⟨entry, task, hfound, hphase, hstage⟩ := boundary_of_stageSeen hreading
  obtain ⟨run, running, hinterrupts, hrunning⟩ := @interrupts_of_stageSeen officeConfig
    eveningStage 0 implementing 1 (by decide +kernel) (by decide +kernel)
  obtain ⟨starting, started, hstarts, hstarted⟩ := @starts_of_stageSeen officeConfig
    morningBoundary 0 implementing none 2 (by decide +kernel) (by decide +kernel)
  have hrenewed : run.heartbeatState = some running.state := by
    rw [hinterrupts.found] at hrenewals
    rw [hrunning]
    exact Option.some.inj hrenewals
  have hagrees := interruption_agrees_with_gate officeConfig
  constructor
  · obtain ⟨after, hafter, hstops⟩ :=
      hagrees.2.1 _ 0 1 entry task false false hfound hphase (by rw [hstage]; exact hcloses)
    exact ⟨task, after, hafter, hstops⟩
  · exact hagrees.2.2 _ _ 0 0 1 2 run starting running started hinterrupts hrenewed hstarts
      (hstarted.trans hrunning.symm)

/-- A run whose stage is seen interrupted by a heartbeat and then started by the next
boundary. -/
theorem not_nextBoundaryStops {config : SchedulerConfig} {store : Store}
    (before between : List Event) (interruptedAt startedAt : Instant) {stage : TaskState}
    (hbetween : between.all (fun event => !event.readsControlsOf 0) = true)
    (hrunning : stageSeen (run (step config) (boot store) before) 0 = some (stage, true, none))
    (haborted : stageSeen (run (step config) (boot store)
      (before ++ [.heartbeatControls 0 false interruptedAt])) 0 =
        some (stage, true, some .schedule))
    (hboundary : stageSeen (run (step config) (boot store)
      (before ++ .heartbeatControls 0 false interruptedAt :: between)) 0 =
        some (stage, false, none))
    (hstarted : stageSeen (run (step config) (boot store)
      (before ++ .heartbeatControls 0 false interruptedAt :: between ++
        [.readControls 0 false false startedAt])) 0 = some (stage, true, none)) :
    ¬ NextBoundaryStops config store := by
  intro hstops
  rw [run_append] at haborted hstarted
  obtain ⟨entry, task, hinterrupts, hstage⟩ := interrupts_of_stageSeen hrunning haborted
  obtain ⟨starting, started, hstarts, hsame⟩ := starts_of_stageSeen hboundary hstarted
  exact hstops before between 0 interruptedAt startedAt entry starting task started hinterrupts
    hbetween (hsame.trans hstage.symm) hstarts

/-- The same schedule, on a clock that stands at 18:00. -/
def eveningConfig : SchedulerConfig :=
  { officeConfig with localTime := fun _ => fullHour 0 18 }

/-- The operator lets the implementation start in the evening and takes the override back;
the stage advances while a heartbeat that renewed it still waits for the controls. -/
def advancedHeartbeat : List Event :=
  [.setScheduleOverride .enabled ⟨"operator", "late shift"⟩ 0,
    .claim "w1" .execution .enabled 0 0 [] 0, .readTask 0 false, .readControls 0 false false 0,
    .setScheduleOverride .normal ⟨"operator", "shift ends"⟩ 0, .heartbeat 0 0,
    .finish 0 (.advance { toState := testing }) 0, .perform 0 0 none, .readTask 0 false,
    .readControls 0 false false 0]

/-- The next boundary starts an interrupted stage again once the window is open. With a
heartbeat that had renewed an earlier stage it does so at the same instant. -/
theorem interrupted_stage_starts_again :
    ¬ NextBoundaryStops officeConfig officeStore ∧
      ¬ NextBoundaryStops eveningConfig officeStore := by
  constructor
  · exact @not_nextBoundaryStops _ _ eveningHeartbeat (stoppedStage 1) 1 2 implementing
      rfl (by decide +kernel) (by decide +kernel) (by decide +kernel) (by decide +kernel)
  · exact @not_nextBoundaryStops _ _ advancedHeartbeat (stoppedStage 0) 0 0 testing
      rfl (by decide +kernel) (by decide +kernel) (by decide +kernel) (by decide +kernel)

end Orchestrator
