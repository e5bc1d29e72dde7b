import Orchestrator.Scheduler.System

/-! # One worker process

The `Scheduler` object (`orchestrator/scheduler.ts`): what it keeps in memory, and what each
of its asynchronous functions does from one `await` to the next. The database, the handlers
and the timers answer with events, in any order; an answer nobody waits for changes nothing.
-/

namespace Orchestrator

open Kit TaskState

structure WorkerOptions where
  config : SchedulerConfig
  workerId : WorkerId
  dryRun : Bool := false
  forceKillSwitch : Bool := false

structure LaneHold where
  untilTime : Instant
  reason : String
  deriving DecidableEq

/-- The function that waits for the answer of a `getControls` call. -/
inductive ReadSite
  | tick
  | boundary (run : Nat)
  | heartbeat (run : Nat) (stage : TaskState)
  | refresh
  deriving DecidableEq

structure ControlsRead where
  id : Nat
  site : ReadSite
  deriving DecidableEq

/-- Where `tick` is suspended. -/
inductive TickPhase
  | idle
  | readingControls
  /-- Lease recovery, maintenance and intake. -/
  | preparing
  /-- `claimLane` waits for the answer of `claimNextTask`. -/
  | claiming (lane : ClaimLane) (work : ClaimableWork)

/-- An entry of the `inFlight` map; its stage and its controller are the run's. -/
structure InFlightTask where
  taskId : TaskId
  run : Nat
  deriving DecidableEq

/-- A `runTask` call with the stage of its `inFlight` entry. -/
structure WorkerRun extends RunEntry where
  stage : TaskState
  deriving DecidableEq

def WorkerRun.key (run : WorkerRun) : Nat := run.id

def WorkerRun.abort (run : WorkerRun) (reason : StageAbortReason) : WorkerRun :=
  { run with toRunEntry := run.toRunEntry.aborted reason }

/-- Pause reasons that hold the execution lane, whatever provider reported them. -/
def providerLimitPauses : List PauseReason := [.usageLimit, .codexUsageLimit, .rateLimit]

def isProviderLimitPause (reason : PauseReason) : Bool := providerLimitPauses.contains reason

structure Worker where
  clock : Instant
  stopping : Bool := false
  controls : Option OrchestratorControls := none
  laneHolds : ClaimLane → Option LaneHold := fun _ => none
  tick : TickPhase := .idle
  runs : Table WorkerRun.key := Table.empty
  inFlight : Table InFlightTask.taskId := Table.empty
  reads : Table ControlsRead.id := Table.empty
  /-- How many controls reads and runs were started so far. -/
  issued : Nat := 0
  started : Nat := 0
  /-- History variables: no definition of the code reads them. How many `claimNextTask` calls
  were made; and, since `refreshControls` last read an engaged kill switch, how many reads were
  issued before, until a later one reports the switch released. -/
  claims : Nat := 0
  ban : Option Nat := none

inductive WorkerEvent
  | wait (elapsed : Nat)
  | runOnce
  | controlsRead (read : Nat) (controls : OrchestratorControls)
  | controlsFails (read : Nat)
  /-- Recovery, maintenance and intake are done. -/
  | prepared
  | tickFails
  /-- The answer of `claimNextTask`; `inTime` says whether the deadline is still ahead. -/
  | claimed (task : Option Task) (inTime : Bool)
  | readTask (run : Nat) (task : Option Task)
  /-- The handler returns. -/
  | finish (run : Nat) (outcome : StageOutcome)
  /-- The repository call of the run's phase succeeds. -/
  | applied (run : Nat)
  /-- The call that the run waits for throws. -/
  | throws (run : Nat) (leaseError : Bool) (message : String)
  /-- `failTask` is done. -/
  | failed (run : Nat)
  /-- A heartbeat renewed the lease. -/
  | heartbeat (run : Nat) (current : Task)
  | leaseLost (run : Nat)
  | refreshControls
  /-- The GitHub circuit opens. -/
  | circuitOpened (openUntil : Instant)
  | stop

namespace Worker

variable (options : WorkerOptions) (s : Worker)

def killSwitchEngaged : Bool :=
  options.forceKillSwitch ||
    match s.controls with
    | none => false
    | some controls => controls.killSwitch

def setRun (run : WorkerRun) : Worker := { s with runs := s.runs.put run }

/-- The run is over: its promise settles and the entry of its task is deleted. -/
def endRun (run : WorkerRun) : Worker :=
  { s with runs := s.runs.erase run.id, inFlight := s.inFlight.erase run.taskId }

def onRun (id : Nat) (act : WorkerRun → Worker) : Worker :=
  match s.runs.find? id with
  | none => s
  | some run => act run

def abortRun (reason : StageAbortReason) (id : Nat) : Worker :=
  s.onRun id fun run => s.setRun (run.abort reason)

def abortInFlight (reason : StageAbortReason) : Worker :=
  s.inFlight.rows.foldl (fun s entry => s.abortRun reason entry.run) s

/-- Issue a `getControls` call. -/
def issueRead (site : ReadSite) : Worker :=
  { s with reads := s.reads.insert ⟨s.issued, site⟩, issued := s.issued + 1 }

/-! ## Lane holds and claims -/

/-- A later hold extends an earlier one. -/
def holdLane (lane : ClaimLane) (untilTime : Instant) (reason : String) : Worker :=
  match s.laneHolds lane with
  | some current =>
      if untilTime ≤ current.untilTime then s
      else { s with laneHolds := fun other =>
              if other = lane then some ⟨untilTime, reason⟩ else s.laneHolds other }
  | none => { s with laneHolds := fun other =>
      if other = lane then some ⟨untilTime, reason⟩ else s.laneHolds other }

/-- `activeLaneHolds()[lane]`. -/
def activeLaneHold (lane : ClaimLane) : Option LaneHold :=
  (s.laneHolds lane).filter fun hold => s.clock < hold.untilTime

def inFlightIn (lane : ClaimLane) : Nat :=
  s.inFlight.count fun entry =>
    match s.runs.find? entry.run with
    | none => false
    | some run => claimLaneOf run.stage = lane

def hasWork (lane : ClaimLane) (work : ClaimableWork) : Bool :=
  match lane with
  | .delivery => work.parkedStates.any fun state => claimLaneOf state = .delivery
  | .execution => work.queued || (work.parkedStates.any fun state => claimLaneOf state = .execution)
      || !work.scheduleResumeStates.isEmpty || !work.limitResumeStates.isEmpty

def issueClaim (lane : ClaimLane) (work : ClaimableWork) : Worker :=
  { s with tick := .claiming lane work, claims := s.claims + 1 }

/-- The condition of the claim loop. -/
def mayClaim (lane : ClaimLane) (inTime : Bool) : Bool :=
  !s.stopping && s.inFlightIn lane < laneLimit options.config lane && inTime

/-- `claimLane` up to its first claim, if it makes one. -/
def enterLane (lane : ClaimLane) (work : ClaimableWork) : Option Worker :=
  if hasWork lane work && (s.activeLaneHold lane).isNone && s.mayClaim options lane true then
    some (s.issueClaim lane work)
  else none

/-- `claimAvailableWork` after one lane: the other lane's turn, or the end of the tick. -/
def leaveLane (lane : ClaimLane) (work : ClaimableWork) : Worker :=
  match lane with
  | .execution => (s.enterLane options .delivery work).getD { s with tick := .idle }
  | .delivery => { s with tick := .idle }

def claimAvailableWork : Worker :=
  match s.controls with
  | none => { s with tick := .idle }
  | some controls =>
      if options.dryRun || s.stopping || controls.pauseNewWork || s.killSwitchEngaged options then
        { s with tick := .idle }
      else
        let work := claimableWork options.config controls.scheduleOverride s.clock
        (s.enterLane options .execution work).getD (s.leaveLane options .execution work)

def startTask (task : Task) : Worker :=
  { s with
    runs := s.runs.insert
      { id := s.started, workerId := options.workerId, taskId := task.id, stage := task.state }
    inFlight := s.inFlight.upsert ⟨task.id, s.started⟩
    started := s.started + 1 }

/-- The claim loop continues with the answer of a claim. -/
def stepClaimed (task : Option Task) (inTime : Bool) : Worker :=
  match s.tick, task with
  | .claiming lane work, none => s.leaveLane options lane work
  | .claiming lane work, some task =>
      -- A claim returns a task of the lane it was made for.
      if claimLaneOf task.state ≠ lane then s
      else
        let s := s.startTask options task
        if s.mayClaim options lane inTime then s.issueClaim lane work
        else s.leaveLane options lane work
  | _, _ => s

/-! ## Controls -/

/-- A read issued after the ban reports the switch released. -/
def relieved (ban : Option Nat) (read : Nat) (controls : OrchestratorControls) : Option Nat :=
  ban.filter fun issued => read < issued || controls.killSwitch

def stepBoundaryControls (controls : OrchestratorControls) (run : WorkerRun) : Worker :=
  match run.phase with
  | .readingControls task =>
      s.setRun { run with
        phase := gatePhase options.config controls options.forceKillSwitch task s.clock
        abortReason := if s.stopping then some .shutdown else none }
  | _ => s

/-- `this.controls = await getControls()`. -/
def received (read : ControlsRead) (controls : OrchestratorControls) : Worker :=
  { s with
    controls := some controls
    reads := s.reads.erase read.id
    ban := relieved s.ban read.id controls }

/-- What follows a received answer at the place that waited for it. -/
def stepControlsRead (read : ControlsRead) (controls : OrchestratorControls) : Worker :=
  let s := s.received read controls
  let engaged := s.killSwitchEngaged options
  match read.site with
  | .tick => { (if engaged then s.abortInFlight .killSwitch else s) with tick := .preparing }
  | .boundary run => s.onRun run fun run => s.stepBoundaryControls options controls run
  | .heartbeat run stage =>
      if engaged then s.abortRun .killSwitch run
      else if shouldInterruptRunningStage options.config.schedule stage
          controls.scheduleOverride (options.config.localTime s.clock) then
        s.abortRun .schedule run
      else s
  | .refresh =>
      { (if engaged then s.abortInFlight .killSwitch else s) with
        ban := if controls.killSwitch then some s.issued else s.ban }

def stepControlsFails (read : ControlsRead) : Worker :=
  let s := { s with reads := s.reads.erase read.id }
  match read.site with
  | .tick => { s with tick := .idle }
  -- A failing read at a boundary is the run's own `throws`.
  | .boundary _ => s
  | .heartbeat _ _ => s
  | .refresh => s

/-! ## Runs -/

def stepRunTask (current : Option Task) (run : WorkerRun) : Worker :=
  match run.phase, current with
  | .boundary, some task =>
      if task.leaseOwner = some options.workerId then
        let phase := boundaryPhase task s.stopping
        let s := s.setRun { run with phase, stage := task.state }
        match phase with
        | .readingControls _ => s.issueRead (.boundary run.id)
        | _ => s
      else s.endRun run
  | .boundary, none => s.endRun run
  | _, _ => s

def stepFinished (outcome : StageOutcome) (run : WorkerRun) : Worker :=
  match run.phase with
  | .running task =>
      if run.leaseLost then s.endRun run
      else if outcome = .interrupted then
        if run.abortReason.isSome then
          s.setRun { run with phase := .boundary, abortReason := none }
        else s.setRun { run with phase := .failing interruptedWithoutAbort }
      else s.setRun { run with phase := .applying task outcome s.clock, abortReason := none }
  | _ => s

/-- The state machine refuses the transition that the outcome asks for: `transitionTask`
throws, which is the run's `throws`. -/
def refused (run : WorkerRun) : Bool :=
  match run.phase with
  | .applying task (.advance outcome) _ => !canTransition task.state outcome.toState
  | .applying task (.pauseLimit _) _ =>
      !(canTransition task.state pausedLimit && canTransition pausedLimit task.state)
  | _ => false

/-- The time until which the outcome that is being applied holds the execution lane. Provider
limits are account-wide: other tasks would hit the same limit. -/
def limitHold (run : WorkerRun) : Option LaneHold :=
  match run.phase with
  | .applying _ (.pauseLimit outcome) now =>
      if isProviderLimitPause outcome.pauseReason && !refused run then
        some ⟨outcome.resumeAfter.getD (now + options.config.usageLimitPauseMs),
          s!"runner {outcome.pauseReason.text}"⟩
      else none
  | _ => none

def stepApplied (run : WorkerRun) : Worker :=
  if refused run then s
  else
    match run.phase with
    | .applying _ (.advance _) _ => s.setRun { run with phase := .boundary }
    | .applying _ (.pauseLimit _) _ =>
        match limitHold options run with
        | some hold => (s.holdLane .execution hold.untilTime hold.reason).endRun run
        | none => s.endRun run
    | .applying _ (.wait _) _ => s.endRun run
    | .cancelling _ => s.endRun run
    | .handingOver _ => s.endRun run
    | .parking _ => s.endRun run
    | .pausingSchedule _ _ => s.endRun run
    | _ => s

def stepThrows (leaseError : Bool) (message : String) (run : WorkerRun) : Worker :=
  let s := { s with reads := s.reads.filter fun read => read.site ≠ ReadSite.boundary run.id }
  if run.phase.inFailTask || run.leaseLost || leaseError then s.endRun run
  else s.setRun { run with phase := .failing message, abortReason := none }

/-- The heartbeat of a run goes on after its renewal, also when the run is over by then. -/
def stepHeartbeatRenewed (current : Task) (run : Nat) : Worker :=
  let inProgress := s.reads.rows.any fun read =>
    match read.site with
    | .heartbeat other _ => other = run
    | _ => false
  -- Heartbeats of a run never overlap.
  if inProgress || s.started ≤ run then s
  else if current.cancelRequestedAt.isSome || current.requiresManualIntervention then
    s.abortRun .operator run
  else s.issueRead (.heartbeat run current.state)

def step (s : Worker) : WorkerEvent → Worker
  | .wait elapsed => { s with clock := s.clock + elapsed }
  | .runOnce =>
      match s.tick with
      | .idle => if s.stopping then s else { s.issueRead .tick with tick := .readingControls }
      | _ => s
  | .controlsRead id controls =>
      match s.reads.find? id with
      | none => s
      | some read => s.stepControlsRead options read controls
  | .controlsFails id =>
      match s.reads.find? id with
      | none => s
      | some read => s.stepControlsFails read
  | .prepared =>
      match s.tick with
      | .preparing => s.claimAvailableWork options
      | _ => s
  | .tickFails =>
      match s.tick with
      | .preparing => { s with tick := .idle }
      | .claiming _ _ => { s with tick := .idle }
      | _ => s
  | .claimed task inTime => s.stepClaimed options task inTime
  | .readTask id task => s.onRun id fun run => s.stepRunTask options task run
  | .finish id outcome => s.onRun id fun run => s.stepFinished outcome run
  | .applied id => s.onRun id fun run => s.stepApplied options run
  | .throws id leaseError message => s.onRun id fun run => s.stepThrows leaseError message run
  | .failed id => s.onRun id fun run => if run.phase.inFailTask then s.endRun run else s
  | .heartbeat id current => s.stepHeartbeatRenewed current id
  | .leaseLost id => s.onRun id fun run =>
      s.setRun { run.abort .leaseLost with leaseLost := true }
  | .refreshControls => s.issueRead .refresh
  | .circuitOpened openUntil => s.holdLane .delivery openUntil "github circuit open"
  | .stop => ({ s with stopping := true } : Worker).abortInFlight .shutdown

/-- A worker that has not ticked yet. -/
def boot (clock : Instant) : Worker := { clock }

/-! ## Moving runs -/

/-- The runs are the same, and none has begun to wait at a boundary. -/
structure RunsMoved (runs runs' : Table WorkerRun.key) : Prop where
  back : ∀ run' ∈ runs'.rows, ∃ run ∈ runs.rows, run.id = run'.id ∧ run.taskId = run'.taskId ∧
    ∀ task, run'.phase = .readingControls task → run.phase = .readingControls task
  forth : ∀ run ∈ runs.rows, ∃ run' ∈ runs'.rows, run'.id = run.id ∧ run'.taskId = run.taskId

/-- Nothing moves when the runs are the same. -/
theorem RunsMoved.refl (runs : Table WorkerRun.key) : RunsMoved runs runs where
  back run hrun := ⟨run, hrun, rfl, rfl, fun _ h => h⟩
  forth run hrun := ⟨run, hrun, rfl, rfl⟩

/-- One run changes, without beginning to wait at its boundary. -/
theorem runsMoved_put {runs : Table WorkerRun.key} {run run' : WorkerRun} (hrun : run ∈ runs.rows)
    (hid : run'.id = run.id) (htask : run'.taskId = run.taskId)
    (hreading : ∀ task, run'.phase = .readingControls task → run.phase = .readingControls task) :
    RunsMoved runs (runs.put run') where
  back other hother := by
    rcases Table.mem_put.mp hother with ⟨rfl, -⟩ | ⟨hold, -⟩
    · exact ⟨run, hrun, hid.symm, htask.symm, hreading⟩
    · exact ⟨other, hold, rfl, rfl, fun _ h => h⟩
  forth other hother := by
    by_cases hsame : other.id = run'.id
    · have heq : other = run := runs.eq_of_key hother hrun (hsame.trans hid)
      refine ⟨run', Table.mem_put.mpr (Or.inl ⟨rfl, run, hrun, hid.symm⟩), ?_, ?_⟩
      · rw [heq, hid]
      · rw [heq, htask]
    · exact ⟨other, Table.mem_put.mpr (Or.inr ⟨hother, hsame⟩), rfl, rfl⟩

/-- The same runs in the same phases. -/
structure RunsKept (runs runs' : Table WorkerRun.key) : Prop where
  back : ∀ run' ∈ runs'.rows, ∃ run ∈ runs.rows, run.id = run'.id ∧ run.taskId = run'.taskId ∧
    run.phase = run'.phase
  forth : ∀ run ∈ runs.rows, ∃ run' ∈ runs'.rows, run'.id = run.id ∧ run'.taskId = run.taskId ∧
    run'.phase = run.phase

theorem RunsKept.refl (runs : Table WorkerRun.key) : RunsKept runs runs where
  back run hrun := ⟨run, hrun, rfl, rfl, rfl⟩
  forth run hrun := ⟨run, hrun, rfl, rfl, rfl⟩

theorem RunsKept.trans {runs runs' runs'' : Table WorkerRun.key} (h : RunsKept runs runs')
    (h' : RunsKept runs' runs'') : RunsKept runs runs'' where
  back run hrun := by
    rcases h'.back run hrun with ⟨between, hbetween, hid, htask, hphase⟩
    rcases h.back between hbetween with ⟨before, hbefore, hid', htask', hphase'⟩
    exact ⟨before, hbefore, hid'.trans hid, htask'.trans htask, hphase'.trans hphase⟩
  forth run hrun := by
    rcases h.forth run hrun with ⟨between, hbetween, hid, htask, hphase⟩
    rcases h'.forth between hbetween with ⟨after, hafter, hid', htask', hphase'⟩
    exact ⟨after, hafter, hid'.trans hid, htask'.trans htask, hphase'.trans hphase⟩

/-- Kept runs have not moved. -/
theorem RunsKept.moved {runs runs' : Table WorkerRun.key} (h : RunsKept runs runs') :
    RunsMoved runs runs' where
  back run hrun := by
    rcases h.back run hrun with ⟨before, hbefore, hid, htask, hphase⟩
    exact ⟨before, hbefore, hid, htask, fun _ hreading => hphase.trans hreading⟩
  forth run hrun := by
    rcases h.forth run hrun with ⟨after, hafter, hid, htask, -⟩
    exact ⟨after, hafter, hid, htask⟩

/-- One run changes, but not its phase. -/
theorem runsKept_put {runs : Table WorkerRun.key} {run run' : WorkerRun} (hrun : run ∈ runs.rows)
    (hid : run'.id = run.id) (htask : run'.taskId = run.taskId) (hphase : run'.phase = run.phase) :
    RunsKept runs (runs.put run') where
  back other hother := by
    rcases Table.mem_put.mp hother with ⟨rfl, -⟩ | ⟨hold, -⟩
    · exact ⟨run, hrun, hid.symm, htask.symm, hphase.symm⟩
    · exact ⟨other, hold, rfl, rfl, rfl⟩
  forth other hother := by
    by_cases hsame : other.id = run'.id
    · have heq : other = run := runs.eq_of_key hother hrun (hsame.trans hid)
      refine ⟨run', Table.mem_put.mpr (Or.inl ⟨rfl, run, hrun, hid.symm⟩), ?_, ?_, ?_⟩
      · rw [heq, hid]
      · rw [heq, htask]
      · rw [heq, hphase]
    · exact ⟨other, Table.mem_put.mpr (Or.inr ⟨hother, hsame⟩), rfl, rfl, rfl⟩

/-- An abort only sets the reason; the run notices it at its next boundary. -/
theorem WorkerRun.abort_phase (run : WorkerRun) (reason : StageAbortReason) :
    (run.abort reason).id = run.id ∧ (run.abort reason).taskId = run.taskId ∧
      (run.abort reason).phase = run.phase := by
  unfold WorkerRun.abort RunEntry.aborted
  dsimp only
  split <;> exact ⟨rfl, rfl, rfl⟩

/-- Aborting one run touches no other part of the worker. -/
theorem abortRun_eq (s : Worker) (reason : StageAbortReason) (id : Nat) :
    ∃ runs, s.abortRun reason id = { s with runs } ∧ RunsKept s.runs runs := by
  unfold abortRun onRun
  cases hfound : s.runs.find? id with
  | none => exact ⟨s.runs, rfl, .refl _⟩
  | some run =>
      rcases WorkerRun.abort_phase run reason with ⟨hid, htask, hphase⟩
      exact ⟨_, rfl, runsKept_put (Table.mem_of_find? hfound) hid htask hphase⟩

/-- Aborting stages leaves every run in its phase and touches nothing else. -/
theorem abortInFlight_eq (s : Worker) (reason : StageAbortReason) :
    ∃ runs, s.abortInFlight reason = { s with runs } ∧ RunsKept s.runs runs := by
  have hfold : ∀ (entries : List InFlightTask) (s : Worker), ∃ runs,
      entries.foldl (fun s entry => s.abortRun reason entry.run) s = { s with runs } ∧
        RunsKept s.runs runs := by
    intro entries
    induction entries with
    | nil => exact fun s => ⟨s.runs, rfl, .refl _⟩
    | cons entry entries ih =>
        intro s
        rcases abortRun_eq s reason entry.run with ⟨runs, hstep, hkept⟩
        rcases ih { s with runs } with ⟨runs', hrest, hkept'⟩
        refine ⟨runs', ?_, hkept.trans hkept'⟩
        rw [List.foldl_cons, hstep, hrest]
  exact hfold s.inFlight.rows s

end Worker

end Orchestrator
