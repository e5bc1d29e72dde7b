import Orchestrator.Intake.LinearDiscovery
import Orchestrator.Kit.Run
import Orchestrator.Repositories.OperatorRepository
import Orchestrator.Scheduler.RunTask

/-! # Workers on one database

The store shared by every worker together with the `runTask` calls and intake
passes in progress. An event is what one party does between two suspensions; an
event that is not enabled leaves the system as it is. What only a process knows
(whether it is stopping, its clock, its environment) comes with the event, so a
run of the system is any interleaving of any number of workers, several of which
may share a worker id.
-/

namespace Orchestrator

open Kit TaskState

/-- A claim whose lease has been held ever since. -/
structure Grant where
  taskId : TaskId
  claim : Nat
  deriving DecidableEq

/-- A `persistLinearIntake` call in progress. -/
structure IntakeEntry where
  id : Nat
  pass : IntakePass
  deriving DecidableEq

structure System where
  store : Store
  runs : Table RunEntry.id := Table.empty
  intakes : Table IntakeEntry.id := Table.empty
  /-- How many claims and intake passes were started so far. -/
  claims : Nat := 0
  passes : Nat := 0
  /-- History variable: no definition of the code reads it. -/
  inForce : List Grant := []

inductive Event
  /-- `claimLane`: one `claimNextTask` call, and `startTask` on what it returns. -/
  | claim (workerId : WorkerId) (lane : ClaimLane) (override : ScheduleOverride)
      (gated now : Instant) (locked : List TaskId) (clock : Instant)
  /-- The heartbeat timer of a run, up to the renewal. -/
  | heartbeat (run : Nat) (now : Instant)
  /-- The rest of the heartbeat, after it read the controls. -/
  | heartbeatControls (run : Nat) (forceKillSwitch : Bool) (now : Instant)
  /-- The heartbeat fails to read the controls. -/
  | heartbeatFails (run : Nat)
  /-- A renewal that was still in flight when its run ended. -/
  | lateHeartbeat (workerId : WorkerId) (taskId : TaskId) (now : Instant)
  /-- `stop` or the kill switch aborts a running stage. -/
  | abort (run : Nat) (reason : StageAbortReason)
  /-- The loop head reads the row. -/
  | readTask (run : Nat) (stopping : Bool)
  /-- The loop reads the operator controls and passes the stage gate. -/
  | readControls (run : Nat) (forceKillSwitch stopping : Bool) (now : Instant)
  /-- `ANALYZING` re-checks the blockers. -/
  | recheck (run : Nat)
  /-- A stage records the routed model. -/
  | selectModel (run : Nat) (selection : SelectedModel) (clock : Instant)
  /-- The handler returns. -/
  | finish (run : Nat) (outcome : StageOutcome) (now : Instant)
  /-- The run makes its repository call; `lost` is the error of a lost answer. -/
  | perform (run : Nat) (clock : Instant) (lost : Option String)
  /-- The handler or a database call throws. -/
  | throws (run : Nat) (message : String)
  /-- `failTask` reads the row. -/
  | readFailed (run : Nat)
  /-- A process dies with these runs and intake passes. -/
  | crash (runs intakes : List Nat)
  | recoverExpired (now : Instant) (locked : List TaskId) (clock : Instant)
  | recoverOwned (workerId : WorkerId) (locked : List TaskId) (clock : Instant)
  | retry (taskId : TaskId) (context : OperatorContext) (clock : Instant)
  | cancel (taskId : TaskId) (context : OperatorContext) (clock : Instant)
  | requireManual (taskId : TaskId) (context : OperatorContext) (clock : Instant)
  | setPauseNewWork (paused : Bool) (context : OperatorContext) (clock : Instant)
  | setKillSwitch (engaged : Bool) (context : OperatorContext) (clock : Instant)
  | setScheduleOverride (override : ScheduleOverride) (context : OperatorContext)
      (clock : Instant)
  | startIntake (report : IntakeReport)
  /-- The next transaction of an intake pass. -/
  | intake (pass : Nat) (clock : Instant)

namespace System

variable (s : System)

def setRun (run : RunEntry) : System := { s with runs := s.runs.put run }

def endRun (run : RunEntry) : System := { s with runs := s.runs.erase run.id }

/-- Continue with the store of a call that succeeded; an error changes nothing. -/
def adopt {α : Type} (result : Except WorkflowError (Store × α)) : System :=
  match result with
  | .ok (store, _) => { s with store := store }
  | .error _ => s

/-- Start the `runTask` call of a claimed row. -/
def startTask (workerId : WorkerId) (row : Task) : System :=
  { s with
    runs := s.runs.insert { id := s.claims, workerId, taskId := row.id }
    claims := s.claims + 1
    inForce := s.inForce ++ [⟨row.id, s.claims⟩] }

/-- `catch` of `runTask`: a lost lease ends the run, anything else fails the task. -/
def catchError (run : RunEntry) (leaseError : Bool) (message : String) : System :=
  if run.phase.inFailTask || run.leaseLost || leaseError then s.endRun run
  else s.setRun { run with phase := .failing message, abortReason := none }

end System

/-- `controller.abort(reason)`: the first reason stays. -/
def RunEntry.aborted (run : RunEntry) (reason : StageAbortReason) : RunEntry :=
  match run.phase with
  | .running _ => { run with abortReason := some (run.abortReason.getD reason) }
  | _ => run

/-- The boundary checks that need only the row. -/
def boundaryPhase (task : Task) (stopping : Bool) : Phase :=
  -- A cancellation wins over the manual-intervention flag, and both over stopping.
  if task.cancelRequestedAt.isSome && canTransition task.state cancelled then .cancelling task
  else if task.requiresManualIntervention then .handingOver task
  else if stopping then .parking task
  else .readingControls task

/-- The boundary checks that need the operator controls. -/
def gatePhase (config : SchedulerConfig) (controls : OrchestratorControls)
    (forceKillSwitch : Bool) (task : Task) (now : Instant) : Phase :=
  let localNow := config.localTime now
  let gate := stageGate config.schedule task.state controls.scheduleOverride localNow
  -- Every operator control releases the task before the schedule is consulted.
  if forceKillSwitch || controls.killSwitch then .parking task
  else if controls.pauseNewWork then .parking task
  else if !config.handlers.contains task.state then .parking task
  else if !stagePermitted config.schedule task.state controls.scheduleOverride localNow then
    if canTransition task.state pausedSchedule then .pausingSchedule task (gate.map (·.reason))
    else .parking task
  else .running task

def stepHeartbeat (config : SchedulerConfig) (s : System) (run : RunEntry) (now : Instant) :
    System :=
  -- One heartbeat of a run is in progress at a time.
  if run.heartbeatState.isSome then s
  else match heartbeat s.store run.taskId run.workerId config.leaseDurationMs now with
    | .ok (store, current) =>
        if current.cancelRequestedAt.isSome || current.requiresManualIntervention then
          { s with store }.setRun (run.aborted .operator)
        else { s with store }.setRun { run with heartbeatState := some current.state }
    | .error failure =>
        -- A transient failure is tolerated: the next tick tries again.
        if isLeaseOwnershipError failure then
          s.setRun { run.aborted .leaseLost with leaseLost := true }
        else s

def stepHeartbeatControls (config : SchedulerConfig) (s : System) (run : RunEntry)
    (forceKillSwitch : Bool) (now : Instant) : System :=
  match run.heartbeatState with
  | none => s
  | some state =>
      let controls := s.store.getControls
      let idle := { run with heartbeatState := none }
      if forceKillSwitch || controls.killSwitch then s.setRun (idle.aborted .killSwitch)
      else if shouldInterruptRunningStage config.schedule state controls.scheduleOverride
          (config.localTime now) then s.setRun (idle.aborted .schedule)
      else s.setRun idle

def stepReadTask (s : System) (run : RunEntry) (stopping : Bool) : System :=
  match run.phase, s.store.getTask run.taskId with
  | .boundary, some task =>
      if task.leaseOwner = some run.workerId then
        s.setRun { run with phase := boundaryPhase task stopping }
      else s.endRun run
  | .boundary, none => s.endRun run
  | _, _ => s

def stepReadControls (config : SchedulerConfig) (s : System) (run : RunEntry)
    (forceKillSwitch stopping : Bool) (now : Instant) : System :=
  match run.phase with
  | .readingControls task =>
      s.setRun { run with
        phase := gatePhase config s.store.getControls forceKillSwitch task now
        abortReason := if stopping then some .shutdown else none }
  | _ => s

def unmergedWorkMessage (blockers : List Task) : String :=
  errorMessage "WorkspaceBlockedError" ("Task depends on unmerged work: " ++
    ", ".intercalate (blockers.map fun blocker =>
      s!"{blocker.linearIdentifier} ({blocker.state.text})"))

def stepRecheck (s : System) (run : RunEntry) : System :=
  match run.phase with
  | .running task =>
      let blockers := s.store.listUnfinishedBlockers task.id
      if task.state = analyzing ∧ blockers ≠ [] then
        s.catchError run false (unmergedWorkMessage blockers)
      else s
  | _ => s

def interruptedWithoutAbort : String :=
  errorMessage "Error" "Stage handler reported interruption without an abort request"

def stepFinish (s : System) (run : RunEntry) (outcome : StageOutcome) (now : Instant) : System :=
  match run.phase with
  | .running task =>
      -- The result of a stage whose lease was lost is dropped.
      if run.leaseLost then s.endRun run
      else if outcome = .interrupted then
        if run.abortReason.isSome then s.setRun { run with phase := .boundary, abortReason := none }
        else s.setRun { run with phase := .failing interruptedWithoutAbort }
      else s.setRun { run with phase := .applying task outcome now, abortReason := none }
  | _ => s

def stepPerform (config : SchedulerConfig) (s : System) (run : RunEntry) (clock : Instant)
    (lost : Option String) : System :=
  match phaseCall config run with
  | none => s
  | some call =>
      match call.perform s.store run.taskId run.workerId clock, lost with
      | .ok (store, _), none =>
          if run.phase.isAdvance then { s with store }.setRun { run with phase := .boundary }
          else { s with store }.endRun run
      -- The transaction committed, and its answer never reached the worker.
      | .ok (store, _), some message => { s with store }.catchError run false message
      | .error failure, _ =>
          s.catchError run (isLeaseOwnershipError failure)
            (errorMessage failure.name failure.message)

def stepReadFailed (s : System) (run : RunEntry) : System :=
  match run.phase, s.store.getTask run.taskId with
  | .failing message, some task =>
      -- A row whose lease is gone is left to whoever took it.
      if task.leaseOwner = some run.workerId then
        s.setRun { run with phase := .handingBack task message }
      else s.endRun run
  | .failing _, none => s.endRun run
  | _, _ => s

def stepIntake (s : System) (entry : IntakeEntry) (clock : Instant) : System :=
  match intakeStep s.store entry.pass clock with
  | .ok (store, some pass) =>
      { s with store, intakes := s.intakes.put { entry with pass } }
  | .ok (store, none) => { s with store, intakes := s.intakes.erase entry.id }
  -- The pass throws: the transactions before this one stay.
  | .error _ => { s with intakes := s.intakes.erase entry.id }

/-- What a run event does to the run with this id. -/
def System.onRun (s : System) (id : Nat) (act : RunEntry → System) : System :=
  match s.runs.find? id with
  | none => s
  | some run => act run

/-- The effect of an event on the store and on what is in progress. -/
def effect (config : SchedulerConfig) (s : System) : Event → System
  | .claim workerId lane override gated now locked clock =>
      match claimNextTask s.store (claimInput config workerId lane override gated now) locked
          clock with
      | .ok (store, some row) => { s with store }.startTask workerId row
      | _ => s
  | .heartbeat id now => s.onRun id fun run => stepHeartbeat config s run now
  | .heartbeatControls id forceKillSwitch now =>
      s.onRun id fun run => stepHeartbeatControls config s run forceKillSwitch now
  | .heartbeatFails id => s.onRun id fun run => s.setRun { run with heartbeatState := none }
  | .lateHeartbeat workerId taskId now =>
      s.adopt (heartbeat s.store taskId workerId config.leaseDurationMs now)
  | .abort id reason => s.onRun id fun run => s.setRun (run.aborted reason)
  | .readTask id stopping => s.onRun id fun run => stepReadTask s run stopping
  | .readControls id forceKillSwitch stopping now =>
      s.onRun id fun run => stepReadControls config s run forceKillSwitch stopping now
  | .recheck id => s.onRun id fun run => stepRecheck s run
  | .selectModel id selection clock => s.onRun id fun run =>
      match run.phase with
      | .running _ =>
          s.adopt (recordModelSelection s.store run.taskId run.workerId selection clock)
      | _ => s
  | .finish id outcome now => s.onRun id fun run => stepFinish s run outcome now
  | .perform id clock lost => s.onRun id fun run => stepPerform config s run clock lost
  | .throws id message => s.onRun id fun run => s.catchError run false message
  | .readFailed id => s.onRun id fun run => stepReadFailed s run
  | .crash runs intakes =>
      { s with
        runs := s.runs.filter fun run => !runs.contains run.id
        intakes := s.intakes.filter fun entry => !intakes.contains entry.id }
  | .recoverExpired now locked clock =>
      s.adopt ((recoverExpiredLeases s.store now locked clock).map (·, ()))
  | .recoverOwned workerId locked clock =>
      s.adopt ((recoverLeasesOwnedBy s.store workerId locked clock).map (·, ()))
  | .retry taskId context clock => s.adopt (retryTask s.store taskId context clock)
  | .cancel taskId context clock => s.adopt (cancelTask s.store taskId context clock)
  | .requireManual taskId context clock =>
      s.adopt (requireManualIntervention s.store taskId context clock)
  | .setPauseNewWork paused context clock =>
      { s with store := setPauseNewWork s.store paused context clock }
  | .setKillSwitch engaged context clock =>
      { s with store := setKillSwitch s.store engaged context clock }
  | .setScheduleOverride override context clock =>
      { s with store := setScheduleOverride s.store override context clock }
  | .startIntake report =>
      { s with
        intakes := s.intakes.insert ⟨s.passes, startIntake report⟩
        passes := s.passes + 1 }
  | .intake id clock =>
      match s.intakes.find? id with
      | none => s
      | some entry => stepIntake s entry clock

/-- The row of this task is leased. -/
def Store.leased (store : Store) (taskId : TaskId) : Bool :=
  match store.getTask taskId with
  | none => false
  | some task => task.leaseOwner.isSome

/-- One step: the effect of the event; a grant ends when its row is not leased. -/
def step (config : SchedulerConfig) (s : System) (event : Event) : System :=
  let next := effect config s event
  { next with inForce := next.inForce.filter fun grant => next.store.leased grant.taskId }

/-- The system on a database that no worker uses yet. -/
def boot (store : Store) : System := { store }

/-! ## A small deployment

The inputs of the witnesses and counterexamples: the schedule is off and every
executable stage has a handler.
-/

def sampleConfig : SchedulerConfig where
  maxConcurrentTasks := 2
  maxConcurrentDeliveryTasks := 1
  repositories := [("web", some 2)]
  schedule := { enabled := false }
  localTime := fun _ => ⟨⟨0, by decide⟩, ⟨0, by decide⟩, ⟨0, by decide⟩, ⟨0, by decide⟩⟩
  handlers := taskStates.filter ExecutableStage

/-- A claim of the worker at time `now`. -/
def sampleClaim (workerId : WorkerId) (lane : ClaimLane) (now : Instant) : Event :=
  .claim workerId lane .normal now now [] now

/-- The events by which a run takes its task through one stage. -/
def sampleStage (run : Nat) (outcome : StageOutcome) (now : Instant) : List Event :=
  [.readTask run false, .readControls run false false now, .finish run outcome now,
    .perform run now none]

end Orchestrator
