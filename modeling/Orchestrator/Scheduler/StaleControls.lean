import Orchestrator.Scheduler.HeldClaims

/-! # Kill switch and older reads

`runTask` acts on the controls that its own read returned. A read that was issued before
`refreshControls` reported an engaged switch can be answered after it, with the switch as it
was before, and then starts a stage handler.
-/

namespace Orchestrator

open Kit TaskState

namespace Worker

/-- A run that was not running its handler for this task runs it now. -/
def StartsHandler (s s' : Worker) : Prop :=
  ∃ run' ∈ s'.runs.rows, ∃ task, run'.phase = .running task ∧
    ∀ run ∈ s.runs.rows, run.id = run'.id → run.phase ≠ .running task

/-- No handler starts between an engaged switch and a later read that reports it released. -/
def KeepsSwitch (options : WorkerOptions) (s : Worker) (event : WorkerEvent) : Prop :=
  StartsHandler s (step options s event) → (step options s event).ban = none

/-- Time passes, and reads report the switch released. -/
def reportsReleased : WorkerEvent → Bool
  | .wait _ => true
  | .controlsRead _ controls => !controls.killSwitch
  | _ => false

/-- The switch is respected in the run and in every one that goes on with more answers of this
kind at any point. -/
def RespectsSwitch (options : WorkerOptions) (s : Worker) (events : List WorkerEvent) : Prop :=
  AlongJoined (step options) (fun event => reportsReleased event = true) (KeepsSwitch options) s
    events

/-- The run is suspended at a stage boundary, on the answer of this read. -/
structure Waits (s : Worker) (read : ControlsRead) (run : WorkerRun) (task : Task) : Prop where
  pending : read ∈ s.reads.rows
  site : read.site = .boundary run.id
  mapped : run ∈ s.runs.rows
  phase : run.phase = .readingControls task

/-- Some answer, now or later, starts the handler of the task's stage. -/
def Startable (options : WorkerOptions) (s : Worker) (task : Task) : Prop :=
  ∃ controls : OrchestratorControls, ∃ elapsed : Nat,
    gatePhase options.config controls options.forceKillSwitch task (s.clock + elapsed) =
      .running task

/-- When `refreshControls` reads an engaged switch, no run waits for an earlier answer that
could start its handler. -/
def RefreshesBetweenBoundaries (options : WorkerOptions) (s : Worker) (event : WorkerEvent) :
    Prop :=
  ∀ id controls, event = .controlsRead id controls → controls.killSwitch = true →
    s.reads.find? id = some ⟨id, .refresh⟩ →
      ∀ read run task, Waits s read run task → ¬ Startable options s task

/-! ## Reads and the runs that wait for them -/

structure ReadsMapped (s : Worker) : Prop extends RunsMapped s where
  issued_before : ∀ read ∈ s.reads.rows, read.id < s.issued
  ban_before : ∀ issued, s.ban = some issued → issued ≤ s.issued
  /-- A boundary's read is pending only as long as its run waits for it. -/
  boundary : ∀ read ∈ s.reads.rows, ∀ id, read.site = .boundary id → id < s.started ∧
    ∀ run ∈ s.runs.rows, run.id = id → ∃ task, run.phase = .readingControls task
  single : ∀ read ∈ s.reads.rows, ∀ other ∈ s.reads.rows, ∀ id, read.site = .boundary id →
    other.site = .boundary id → read = other

/-- How a run goes on in a next state: it keeps waiting, or its read is no longer pending. -/
structure Continues (s' : Worker) (run run' : WorkerRun) : Prop where
  id : run'.id = run.id
  reading : ∀ task, run'.phase = .readingControls task → run.phase = .readingControls task
  answered : ∀ task, run.phase = .readingControls task → run'.phase = .readingControls task ∨
    ∀ read ∈ s'.reads.rows, read.site ≠ .boundary run.id

/-- No run begins to wait. -/
structure Settles (s s' : Worker) : Prop where
  runs : ∀ run' ∈ s'.runs.rows, (∃ run ∈ s.runs.rows, Continues s' run run') ∨
    (run'.phase = .boundary ∧ s.started ≤ run'.id)
  reads : ∀ read ∈ s'.reads.rows, read ∈ s.reads.rows ∨
    (s.issued ≤ read.id ∧ read.id < s'.issued ∧ ∀ id, read.site ≠ .boundary id)
  issued : s.issued ≤ s'.issued
  started : s.started ≤ s'.started
  clock : ∃ elapsed : Nat, s'.clock = s.clock + elapsed

/-- No handler starts either, and the ban stays or is lifted. -/
structure Quiet (s s' : Worker) : Prop extends Settles s s' where
  running : ∀ run' ∈ s'.runs.rows, ∀ task, run'.phase = .running task →
    ∃ run ∈ s.runs.rows, run.id = run'.id ∧ run.phase = .running task
  ban : s'.ban = s.ban ∨ s'.ban = none

theorem Quiet.starts {s s' : Worker} (h : Quiet s s') : ¬ StartsHandler s s' := by
  rintro ⟨run', hrun', task, hphase, hnew⟩
  rcases h.running run' hrun' task hphase with ⟨run, hrun, hid, hrunning⟩
  exact hnew run hrun hid hrunning

theorem Settles.mapped {s s' : Worker} (h : ReadsMapped s) (hsettles : Settles s s')
    (hruns : RunsMapped s') (hban : ∀ issued, s'.ban = some issued → issued ≤ s'.issued) :
    ReadsMapped s' where
  toRunsMapped := hruns
  issued_before read hread := by
    rcases hsettles.reads read hread with hold | ⟨-, hless, -⟩
    · exact Nat.lt_of_lt_of_le (h.issued_before read hold) hsettles.issued
    · exact hless
  ban_before := hban
  boundary read hread id hsite := by
    rcases hsettles.reads read hread with hold | ⟨-, -, hother⟩
    · rcases h.boundary read hold id hsite with ⟨hless, hwaits⟩
      refine ⟨Nat.lt_of_lt_of_le hless hsettles.started, fun run' hrun' hid' => ?_⟩
      rcases hsettles.runs run' hrun' with ⟨run, hrun, hnext⟩ | ⟨-, hfresh⟩
      · have hid : run.id = id := hnext.id.symm.trans hid'
        rcases hwaits run hrun hid with ⟨task, hphase⟩
        rcases hnext.answered task hphase with hstill | hgone
        · exact ⟨task, hstill⟩
        · exact absurd (hid ▸ hsite) (hgone read hread)
      · exact absurd hless (Nat.not_lt.mpr (hid' ▸ hfresh))
    · exact absurd hsite (hother id)
  single read hread other hother id hsite hsite' := by
    rcases hsettles.reads read hread with hold | ⟨-, -, hnot⟩
    · rcases hsettles.reads other hother with hold' | ⟨-, -, hnot⟩
      · exact h.single read hold other hold' id hsite hsite'
      · exact absurd hsite' (hnot id)
    · exact absurd hsite (hnot id)

/-! ## Steps -/

/-- The answer to a `refreshControls` read, with the switch engaged. -/
structure Engaged (s : Worker) (id : Nat) (s' : Worker) : Prop where
  runs : RunsKept s.runs s'.runs
  reads : s'.reads = s.reads.erase id
  issued : s'.issued = s.issued
  started : s'.started = s.started
  clock : s'.clock = s.clock
  ban : s'.ban = some s.issued

/-- What a step does to the reads and to the runs that wait for them. -/
inductive ReadChange (options : WorkerOptions) (s : Worker) (event : WorkerEvent) (s' : Worker) :
    Prop
  | quiet (h : Quiet s s')
  /-- A run issues the read of its boundary. -/
  | waits {run run' : WorkerRun} (hrun : run ∈ s.runs.rows) (hphase : run.phase = .boundary)
      (hid : run'.id = run.id) (hreading : ∃ task, run'.phase = .readingControls task)
      (hruns : s'.runs = s.runs.put run')
      (hreads : s'.reads = s.reads.insert ⟨s.issued, .boundary run.id⟩)
      (hissued : s'.issued = s.issued + 1) (hstarted : s'.started = s.started)
      (hclock : s'.clock = s.clock) (hban : s'.ban = s.ban)
  /-- A run gets the answer it waits for. -/
  | answered {id : Nat} {controls : OrchestratorControls} {run : WorkerRun} {task : Task}
      (hevent : event = .controlsRead id controls)
      (hwaits : Waits s ⟨id, .boundary run.id⟩ run task) (hsettles : Settles s s')
      (hban : s'.ban = relieved s.ban id controls)
      (hstarts : StartsHandler s s' → gatePhase options.config controls options.forceKillSwitch
        task s.clock = .running task)
  | engaged {id : Nat} {controls : OrchestratorControls}
      (hevent : event = .controlsRead id controls) (hengaged : controls.killSwitch = true)
      (hread : s.reads.find? id = some ⟨id, .refresh⟩) (h : Engaged s id s')

section Steps

variable {options : WorkerOptions} {s : Worker} {event : WorkerEvent}

theorem Continues.refl (s' : Worker) (run : WorkerRun) : Continues s' run run where
  id := rfl
  reading _ h := h
  answered _ h := Or.inl h

/-- A step that makes no new read and no new run. -/
theorem Settles.of_runs {s' : Worker}
    (hruns : ∀ run' ∈ s'.runs.rows, ∃ run ∈ s.runs.rows, Continues s' run run')
    (hreads : ∀ read ∈ s'.reads.rows, read ∈ s.reads.rows) (hissued : s'.issued = s.issued)
    (hstarted : s'.started = s.started) (hclock : s'.clock = s.clock) : Settles s s' where
  runs run' hrun' := Or.inl (hruns run' hrun')
  reads read hread := Or.inl (hreads read hread)
  issued := Nat.le_of_eq hissued.symm
  started := Nat.le_of_eq hstarted.symm
  clock := ⟨0, by simp [hclock]⟩

theorem Quiet.of_runs {s' : Worker}
    (hruns : ∀ run' ∈ s'.runs.rows, ∃ run ∈ s.runs.rows, Continues s' run run' ∧
      ∀ task, run'.phase = .running task → run.phase = .running task)
    (hreads : ∀ read ∈ s'.reads.rows, read ∈ s.reads.rows) (hissued : s'.issued = s.issued)
    (hstarted : s'.started = s.started) (hclock : s'.clock = s.clock)
    (hban : s'.ban = s.ban ∨ s'.ban = none) : Quiet s s' := by
  refine ⟨.of_runs (fun run' hrun' => ?_) hreads hissued hstarted hclock,
    fun run' hrun' task hphase => ?_, hban⟩
  · rcases hruns run' hrun' with ⟨run, hrun, hnext, -⟩
    exact ⟨run, hrun, hnext⟩
  · rcases hruns run' hrun' with ⟨run, hrun, hnext, hrunning⟩
    exact ⟨run, hrun, hnext.id.symm, hrunning task hphase⟩

theorem RunsKept.continues {s' : Worker} (h : RunsKept s.runs s'.runs) (run' : WorkerRun)
    (hrun' : run' ∈ s'.runs.rows) : ∃ run ∈ s.runs.rows, Continues s' run run' ∧
      run'.phase = run.phase := by
  rcases h.back run' hrun' with ⟨run, hrun, hid, -, hphase⟩
  exact ⟨run, hrun, ⟨hid.symm, fun _ h => hphase.trans h, fun _ h => Or.inl (hphase ▸ h)⟩,
    hphase.symm⟩

/-- A step that leaves every run in its phase. -/
theorem Quiet.of_kept {s' : Worker} (hruns : RunsKept s.runs s'.runs)
    (hreads : ∀ read ∈ s'.reads.rows, read ∈ s.reads.rows) (hissued : s'.issued = s.issued)
    (hstarted : s'.started = s.started) (hclock : s'.clock = s.clock)
    (hban : s'.ban = s.ban ∨ s'.ban = none) : Quiet s s' := by
  refine .of_runs (fun run' hrun' => ?_) hreads hissued hstarted hclock hban
  rcases RunsKept.continues hruns run' hrun' with ⟨run, hrun, hnext, hphase⟩
  exact ⟨run, hrun, hnext, fun _ h => hphase.symm.trans h⟩

/-- A step that touches neither runs nor reads. -/
theorem Quiet.same {s' : Worker} (hruns : s'.runs = s.runs) (hreads : s'.reads = s.reads)
    (hissued : s'.issued = s.issued) (hstarted : s'.started = s.started)
    (hclock : s'.clock = s.clock) (hban : s'.ban = s.ban) : Quiet s s' :=
  .of_kept (hruns ▸ .refl _) (fun _ hread => hreads ▸ hread) hissued hstarted hclock (Or.inl hban)

theorem Quiet.refl (s : Worker) : Quiet s s := .same rfl rfl rfl rfl rfl rfl

/-- A run that was not waiting goes on. -/
theorem quiet_setRun {run run' : WorkerRun} (hrun : run ∈ s.runs.rows) (hid : run'.id = run.id)
    (hreading : ∀ task, run'.phase = .readingControls task → run.phase = .readingControls task)
    (hanswered : ∀ task, run.phase = .readingControls task → run'.phase = .readingControls task)
    (hrunning : ∀ task, run'.phase = .running task → run.phase = .running task) :
    Quiet s (s.setRun run') := by
  refine .of_runs (fun other hother => ?_) (fun _ h => h) rfl rfl rfl (Or.inl rfl)
  rcases Table.mem_put.mp hother with ⟨rfl, -⟩ | ⟨hold, -⟩
  · exact ⟨run, hrun, ⟨hid, hreading, fun task h => Or.inl (hanswered task h)⟩, hrunning⟩
  · exact ⟨other, hold, .refl _ other, fun _ h => h⟩

theorem quiet_endRun {run : WorkerRun} : Quiet s (s.endRun run) := by
  refine .of_runs (fun other hother => ?_) (fun _ h => h) rfl rfl rfl (Or.inl rfl)
  exact ⟨other, (Table.mem_filter.mp hother).1, .refl _ other, fun _ h => h⟩

theorem quiet_abortRun {reason : StageAbortReason} {id : Nat} :
    Quiet s (s.abortRun reason id) := by
  rcases abortRun_eq s reason id with ⟨runs, hruns, hkept⟩
  rw [hruns]
  exact .of_kept hkept (fun _ h => h) rfl rfl rfl (Or.inl rfl)

theorem quiet_abortInFlight {reason : StageAbortReason} :
    Quiet s (s.abortInFlight reason) := by
  rcases abortInFlight_eq s reason with ⟨runs, hruns, hkept⟩
  rw [hruns]
  exact .of_kept hkept (fun _ h => h) rfl rfl rfl (Or.inl rfl)

theorem quiet_onRun {id : Nat} {act : WorkerRun → Worker}
    (h : ∀ run ∈ s.runs.rows, Quiet s (act run)) : Quiet s (s.onRun id act) := by
  unfold onRun
  split
  · exact .refl s
  · next run hfound => exact h run (Table.mem_of_find? hfound)

theorem quiet_issueRead {site : ReadSite} (hsite : ∀ id, site ≠ .boundary id) :
    Quiet s (s.issueRead site) where
  runs run hrun := Or.inl ⟨run, hrun, .refl _ run⟩
  reads read hread := by
    rcases Table.mem_of_mem_insert hread with hold | rfl
    · exact Or.inl hold
    · exact Or.inr ⟨Nat.le_refl _, Nat.lt_succ_self _, hsite⟩
  issued := Nat.le_succ _
  started := Nat.le_refl _
  clock := ⟨0, (Int.add_zero _).symm⟩
  running run hrun task h := ⟨run, hrun, rfl, h⟩
  ban := Or.inl rfl

theorem quiet_startTask {task : Task} : Quiet s (s.startTask options task) where
  runs run hrun := by
    rcases Table.mem_of_mem_insert hrun with hold | rfl
    · exact Or.inl ⟨run, hold, .refl _ run⟩
    · exact Or.inr ⟨rfl, Nat.le_refl _⟩
  reads read hread := Or.inl hread
  issued := Nat.le_refl _
  started := Nat.le_succ _
  clock := ⟨0, (Int.add_zero _).symm⟩
  running run hrun running h := by
    rcases Table.mem_of_mem_insert hrun with hold | rfl
    · exact ⟨run, hold, rfl, h⟩
    · cases h
  ban := Or.inl rfl

/-- The tick and the holds do not matter. -/
theorem Quiet.congr {s' s'' : Worker} (h : Quiet s s') (hruns : s''.runs = s'.runs)
    (hreads : s''.reads = s'.reads) (hissued : s''.issued = s'.issued)
    (hstarted : s''.started = s'.started) (hclock : s''.clock = s'.clock)
    (hban : s''.ban = s'.ban) : Quiet s s'' where
  runs run hrun := by
    rcases h.runs run (hruns ▸ hrun) with ⟨before, hbefore, hid, hreading, hanswered⟩ | hbegan
    · refine Or.inl ⟨before, hbefore, hid, hreading, ?_⟩
      rw [hreads]
      exact hanswered
    · exact Or.inr hbegan
  reads read hread := by
    rw [hissued]
    exact h.reads read (hreads ▸ hread)
  issued := hissued ▸ h.issued
  started := hstarted ▸ h.started
  clock := hclock ▸ h.clock
  running run hrun := h.running run (hruns ▸ hrun)
  ban := hban ▸ h.ban

theorem holdLane_reads (s : Worker) (lane : ClaimLane) (untilTime : Instant) (reason : String) :
    (s.holdLane lane untilTime reason).reads = s.reads ∧
      (s.holdLane lane untilTime reason).issued = s.issued ∧
      (s.holdLane lane untilTime reason).ban = s.ban := by
  unfold holdLane
  split
  · split_ifs <;> exact ⟨rfl, rfl, rfl⟩
  · exact ⟨rfl, rfl, rfl⟩

theorem relieved_cases (ban : Option Nat) (id : Nat) (controls : OrchestratorControls) :
    relieved ban id controls = ban ∨ relieved ban id controls = none := by
  unfold relieved
  cases ban with
  | none => exact Or.inl rfl
  | some issued =>
      rw [Option.filter_some]
      split_ifs
      · exact Or.inl rfl
      · exact Or.inr rfl

theorem mem_of_mem_erase {reads : Table ControlsRead.id} {id : Nat} {read : ControlsRead}
    (h : read ∈ (reads.erase id).rows) : read ∈ reads.rows := (Table.mem_filter.mp h).1

theorem gatePhase_running {config : SchedulerConfig} {controls : OrchestratorControls}
    {forceKillSwitch : Bool} {task stage : Task} {now : Instant}
    (h : gatePhase config controls forceKillSwitch task now = .running stage) :
    stage = task ∧ controls.killSwitch = false := by
  unfold gatePhase at h
  dsimp only at h
  split_ifs at h with hkill
  simp only [Phase.running.injEq] at h
  simp only [Bool.or_eq_true, not_or, Bool.not_eq_true] at hkill
  exact ⟨h.symm, hkill.2⟩

theorem answered_boundary (h : ReadsMapped s) {id : Nat} {controls : OrchestratorControls}
    {run : WorkerRun} {task : Task} (hwaits : Waits s ⟨id, .boundary run.id⟩ run task)
    {s' : Worker} {abortReason : Option StageAbortReason}
    (hruns : s'.runs = s.runs.put { run with
      phase := gatePhase options.config controls options.forceKillSwitch task s.clock
      abortReason })
    (hreads : s'.reads = s.reads.erase id) (hissued : s'.issued = s.issued)
    (hstarted : s'.started = s.started) (hclock : s'.clock = s.clock)
    (hban : s'.ban = relieved s.ban id controls) :
    ReadChange options s (.controlsRead id controls) s' := by
  refine .answered rfl hwaits ⟨fun run' hrun' => ?_, fun read hread => ?_,
    Nat.le_of_eq hissued.symm, Nat.le_of_eq hstarted.symm, ⟨0, by simp [hclock]⟩⟩ hban ?_
  · rw [hruns] at hrun'
    rcases Table.mem_put.mp hrun' with ⟨rfl, -⟩ | ⟨hold, -⟩
    · refine Or.inl ⟨run, hwaits.mapped, rfl, fun _ h => absurd h gatePhase_ne_reading,
        fun _ _ => Or.inr fun read hread hsite => ?_⟩
      -- The answered read was the only one that the run waits for.
      rw [hreads] at hread
      have hleft := Table.mem_filter.mp hread
      have hsame := h.single read hleft.1 _ hwaits.pending run.id hsite rfl
      rw [hsame] at hleft
      exact absurd rfl (of_decide_eq_true hleft.2)
    · exact Or.inl ⟨run', hold, .refl s' run'⟩
  · rw [hreads] at hread
    exact Or.inl (mem_of_mem_erase hread)
  · rintro ⟨run', hrun', stage, hphase, hnew⟩
    rw [hruns] at hrun'
    rcases Table.mem_put.mp hrun' with ⟨rfl, -⟩ | ⟨hold, -⟩
    · rcases gatePhase_running hphase with ⟨rfl, -⟩
      exact hphase
    · exact absurd hphase (hnew run' hold rfl)

theorem step_engaged {id : Nat} {controls : OrchestratorControls}
    (hengaged : controls.killSwitch = true) (hread : s.reads.find? id = some ⟨id, .refresh⟩) :
    Engaged s id (step options s (.controlsRead id controls)) := by
  have hkill : (s.received ⟨id, .refresh⟩ controls).killSwitchEngaged options = true := by
    simp [killSwitchEngaged, received, hengaged]
  rcases abortInFlight_eq (s.received ⟨id, .refresh⟩ controls) .killSwitch with
    ⟨runs, hruns, hkept⟩
  have hstep : step options s (.controlsRead id controls) =
      { s.received ⟨id, .refresh⟩ controls with runs, ban := some s.issued } := by
    unfold step
    simp only [hread, stepControlsRead, hkill, hengaged, if_true, hruns]
    rfl
  rw [hstep]
  exact ⟨hkept, rfl, rfl, rfl, rfl, rfl⟩

theorem reads_controlsRead (h : ReadsMapped s) {id : Nat} {controls : OrchestratorControls}
    {read : ControlsRead} (hfound : s.reads.find? id = some read) :
    ReadChange options s (.controlsRead id controls)
      (s.stepControlsRead options read controls) := by
  have hid : read.id = id := Table.key_of_find? hfound
  have hrelieved := relieved_cases s.ban read.id controls
  have haborted : ∃ runs, (if (s.received read controls).killSwitchEngaged options then
      (s.received read controls).abortInFlight .killSwitch else s.received read controls) =
        { s.received read controls with runs } ∧ RunsKept s.runs runs := by
    split_ifs
    · exact abortInFlight_eq (s.received read controls) .killSwitch
    · exact ⟨s.runs, rfl, .refl _⟩
  have hquiet : Quiet s (s.received read controls) :=
    .of_kept (.refl _) (fun _ => mem_of_mem_erase) rfl rfl rfl hrelieved
  unfold stepControlsRead
  dsimp only
  cases hsite : read.site with
  -- The read of a tick answers no run, it only aborts them.
  | tick =>
      rcases haborted with ⟨runs, hruns, hkept⟩
      dsimp only
      rw [hruns]
      exact .quiet (.of_kept hkept (fun _ => mem_of_mem_erase) rfl rfl rfl hrelieved)
  | boundary waiting =>
      dsimp only
      unfold onRun
      cases hrun : (s.received read controls).runs.find? waiting with
      | none => exact .quiet hquiet
      | some run =>
          have hwaiting : WorkerRun.key run = waiting := Table.key_of_find? hrun
          dsimp only
          unfold stepBoundaryControls
          split
          · next task hphase =>
              -- The run the answer finds is the one that issued the read.
              have hwaits : Waits s ⟨id, .boundary run.id⟩ run task := by
                refine ⟨?_, rfl, Table.mem_of_find? hrun, hphase⟩
                have hsame : (⟨id, .boundary run.id⟩ : ControlsRead) = read := by
                  rw [← hid, show run.id = waiting from hwaiting, ← hsite]
                rw [hsame]
                exact Table.mem_of_find? hfound
              exact answered_boundary h hwaits rfl (by rw [← hid]; rfl) rfl rfl rfl
                (by rw [← hid]; rfl)
          · exact .quiet hquiet
  | heartbeat waiting stage =>
      rcases abortRun_eq (s.received read controls) .killSwitch waiting with ⟨runs, hruns, hkept⟩
      rcases abortRun_eq (s.received read controls) .schedule waiting with
        ⟨runs', hruns', hkept'⟩
      dsimp only
      split_ifs
      · rw [hruns]
        exact .quiet (.of_kept hkept (fun _ => mem_of_mem_erase) rfl rfl rfl hrelieved)
      · rw [hruns']
        exact .quiet (.of_kept hkept' (fun _ => mem_of_mem_erase) rfl rfl rfl hrelieved)
      · exact .quiet hquiet
  | refresh =>
      -- A refresh that sees the switch bans every read issued so far.
      rcases haborted with ⟨runs, hruns, hkept⟩
      dsimp only
      rw [hruns]
      cases hengaged : controls.killSwitch with
      | false => exact .quiet (.of_kept hkept (fun _ => mem_of_mem_erase) rfl rfl rfl hrelieved)
      | true =>
          have hread : s.reads.find? id = some ⟨id, .refresh⟩ := by
            rw [hfound, ← hid, ← hsite]
          refine .engaged rfl hengaged hread ⟨hkept, ?_, rfl, rfl, rfl, rfl⟩
          rw [← hid]
          rfl

theorem boundaryPhase_ne_running {task stage : Task} {stopping : Bool} :
    boundaryPhase task stopping ≠ .running stage := by
  unfold boundaryPhase
  split_ifs <;> simp

theorem reads_runTask {id : Nat} {task : Option Task} :
    ReadChange options s event (s.onRun id fun run => s.stepRunTask options task run) := by
  unfold onRun
  cases hfound : s.runs.find? id with
  | none => exact .quiet (.refl s)
  | some run =>
      have hrun : run ∈ s.runs.rows := Table.mem_of_find? hfound
      dsimp only
      unfold stepRunTask
      split
      · next task hphase =>
          split_ifs
          · dsimp only
            split
            · next hreading =>
                exact @ReadChange.waits options s event _ run
                  { run with phase := boundaryPhase task s.stopping, stage := task.state }
                  hrun hphase rfl ⟨_, hreading⟩ rfl rfl rfl rfl rfl rfl
            · next hother =>
                refine .quiet (quiet_setRun hrun rfl (fun _ h => absurd h (hother _)) ?_ ?_)
                · intro _ hreading
                  rw [hphase] at hreading
                  cases hreading
                · intro running hrunning
                  exact absurd hrunning boundaryPhase_ne_running
          · exact .quiet quiet_endRun
      · exact .quiet quiet_endRun
      · exact .quiet (.refl s)

theorem quiet_applied {id : Nat} :
    Quiet s (s.onRun id fun run => s.stepApplied options run) := by
  refine quiet_onRun fun run hrun => ?_
  have hended : Quiet s (s.endRun run) := quiet_endRun
  unfold stepApplied
  split
  · exact .refl s
  split
  · next hphase =>
      refine quiet_setRun hrun rfl (fun _ h => nomatch h) (fun task h => ?_) (fun _ h => nomatch h)
      rw [hphase] at h
      cases h
  · split
    · next hold _ =>
        rcases holdLane_reads s .execution hold.untilTime hold.reason with
          ⟨hreads, hissued, hban⟩
        rcases holdLane_runs s .execution hold.untilTime hold.reason with ⟨hruns, -, hstarted⟩
        rcases holdLane_same s .execution hold.untilTime hold.reason with ⟨hclock, -⟩
        refine .of_runs (fun other hother => ?_) (fun _ h => hreads ▸ h) hissued hstarted hclock
          (Or.inl hban)
        exact ⟨other, hruns ▸ (Table.mem_filter.mp hother).1, .refl _ other, fun _ h => h⟩
    · exact hended
  all_goals first | exact hended | exact .refl s

theorem quiet_finished {id : Nat} {outcome : StageOutcome} :
    Quiet s (s.onRun id fun run => s.stepFinished outcome run) := by
  refine quiet_onRun fun run hrun => ?_
  unfold stepFinished
  split
  · next stage hphase =>
      have hmoves : ∀ run' : WorkerRun, run'.id = run.id →
          (∀ task, run'.phase ≠ .readingControls task) →
            (∀ task, run'.phase ≠ .running task) → Quiet s (s.setRun run') := by
        intro run' hid hreading hrunning
        refine quiet_setRun hrun hid (fun task h => absurd h (hreading task)) (fun task h => ?_)
          (fun task h => absurd h (hrunning task))
        rw [hphase] at h
        cases h
      split_ifs
      · exact quiet_endRun
      · exact hmoves _ rfl (fun _ h => nomatch h) (fun _ h => nomatch h)
      · exact hmoves _ rfl (fun _ h => nomatch h) (fun _ h => nomatch h)
      · exact hmoves _ rfl (fun _ h => nomatch h) (fun _ h => nomatch h)
  · exact .refl s

theorem quiet_throws {id : Nat} {leaseError : Bool} {message : String} :
    Quiet s (s.onRun id fun run => s.stepThrows leaseError message run) := by
  refine quiet_onRun fun run hrun => ?_
  unfold stepThrows
  dsimp only
  have hdropped : ∀ read ∈ (s.reads.filter fun read => read.site ≠ ReadSite.boundary run.id).rows,
      read ∈ s.reads.rows ∧ read.site ≠ .boundary run.id := by
    intro read hread
    have hleft := Table.mem_filter.mp hread
    exact ⟨hleft.1, of_decide_eq_true hleft.2⟩
  split_ifs
  · refine .of_runs (fun other hother => ?_) (fun read hread => (hdropped read hread).1) rfl rfl
      rfl (Or.inl rfl)
    exact ⟨other, (Table.mem_filter.mp hother).1, .refl _ other, fun _ h => h⟩
  · refine .of_runs (fun other hother => ?_) (fun read hread => (hdropped read hread).1) rfl rfl
      rfl (Or.inl rfl)
    rcases Table.mem_put.mp hother with ⟨rfl, -⟩ | ⟨hold, -⟩
    · exact ⟨run, hrun, ⟨rfl, (fun _ h => nomatch h),
        fun _ _ => Or.inr fun read hread => (hdropped read hread).2⟩, fun _ h => nomatch h⟩
    · exact ⟨other, hold, .refl _ other, fun _ h => h⟩

/-- A read that fails is gone. -/
theorem quiet_controlsFails {read : ControlsRead} : Quiet s (s.stepControlsFails read) := by
  have hquiet : Quiet s { s with reads := s.reads.erase read.id } :=
    .of_kept (.refl _) (fun _ => mem_of_mem_erase) rfl rfl rfl (Or.inl rfl)
  unfold stepControlsFails
  split
  · exact hquiet.congr rfl rfl rfl rfl rfl rfl
  · exact hquiet
  · exact hquiet
  · exact hquiet

/-- An answered claim reads no controls. -/
theorem quiet_claimed (h : RunsMapped s) {task : Option Task} {inTime : Bool} :
    Quiet s (s.stepClaimed options task inTime) := by
  rcases @stepClaimed_cases options s h task inTime with
    hsame | ⟨s', lane, work, -, hs', hnext⟩
  · rw [hsame]
    exact .refl s
  · have hstart : Quiet s s' := by
      rcases hs' with rfl | ⟨task, rfl⟩
      · exact .refl _
      · exact quiet_startTask
    rcases hnext with hleave | ⟨hclaim, -⟩
    · rw [hleave]
      rcases @leaveLane_cases options s' lane work with hidle | ⟨hnext, -⟩
      · rw [hidle]
        exact hstart.congr rfl rfl rfl rfl rfl rfl
      · rw [hnext]
        exact hstart.congr rfl rfl rfl rfl rfl rfl
    · rw [hclaim]
      exact hstart.congr rfl rfl rfl rfl rfl rfl

/-- The step lemma of the reads. -/
theorem step_reads (h : ReadsMapped s) : ReadChange options s event (step options s event) := by
  cases event with
  | wait elapsed =>
      refine .quiet ⟨⟨fun run hrun => Or.inl ⟨run, hrun, .refl _ run⟩, fun _ hread => Or.inl hread,
        Nat.le_refl _, Nat.le_refl _, ⟨elapsed, rfl⟩⟩, fun run hrun task hphase => ?_, Or.inl rfl⟩
      exact ⟨run, hrun, rfl, hphase⟩
  | runOnce =>
      unfold step
      dsimp only
      split
      · split_ifs
        · exact .quiet (.refl s)
        · have hissued : Quiet s (s.issueRead .tick) := quiet_issueRead fun _ h => nomatch h
          exact .quiet (hissued.congr rfl rfl rfl rfl rfl rfl)
      · exact .quiet (.refl s)
  | controlsRead id controls =>
      unfold step
      dsimp only
      split
      · exact .quiet (.refl s)
      · next read hfound => exact reads_controlsRead h hfound
  | controlsFails id =>
      unfold step
      dsimp only
      split
      · exact .quiet (.refl s)
      · next read hfound => exact .quiet quiet_controlsFails
  | prepared =>
      -- Claims issue no read of the controls.
      unfold step
      dsimp only
      split
      · rcases @claimAvailableWork_cases options s with hidle | ⟨lane, work, hclaim, -⟩
        · rw [hidle]
          exact .quiet (.same rfl rfl rfl rfl rfl rfl)
        · rw [hclaim]
          exact .quiet (.same rfl rfl rfl rfl rfl rfl)
      · exact .quiet (.refl s)
  | tickFails =>
      unfold step
      dsimp only
      split <;> exact .quiet (.same rfl rfl rfl rfl rfl rfl)
  | claimed task inTime => exact .quiet (quiet_claimed h.toRunsMapped)
  | readTask id task => exact reads_runTask
  | finish id outcome => exact .quiet quiet_finished
  | applied id => exact .quiet quiet_applied
  | throws id leaseError message => exact .quiet quiet_throws
  | failed id =>
      refine .quiet (quiet_onRun fun run _ => ?_)
      split_ifs
      · exact quiet_endRun
      · exact .refl s
  | heartbeat id current =>
      show ReadChange options s _ (s.stepHeartbeatRenewed current id)
      unfold stepHeartbeatRenewed
      dsimp only
      split_ifs
      · exact .quiet (.refl s)
      · exact .quiet quiet_abortRun
      · exact .quiet (quiet_issueRead fun _ h => nomatch h)
  | leaseLost id =>
      refine .quiet (quiet_onRun fun run hrun => ?_)
      rcases WorkerRun.abort_phase run .leaseLost with ⟨hid, -, hphase⟩
      exact quiet_setRun hrun hid (fun _ h => hphase ▸ h) (fun _ h => hphase.trans h)
        (fun _ h => hphase ▸ h)
  | refreshControls => exact .quiet (quiet_issueRead fun _ h => nomatch h)
  | circuitOpened openUntil =>
      rcases holdLane_reads s .delivery openUntil "github circuit open" with
        ⟨hreads, hissued, hban⟩
      rcases holdLane_runs s .delivery openUntil "github circuit open" with ⟨hruns, -, hstarted⟩
      rcases holdLane_same s .delivery openUntil "github circuit open" with ⟨hclock, -⟩
      exact .quiet (.same hruns hreads hissued hstarted hclock hban)
  | stop =>
      -- Stopping aborts the runs and touches no read.
      have haborted : Quiet { s with stopping := true }
          (({ s with stopping := true } : Worker).abortInFlight .shutdown) := quiet_abortInFlight
      exact .quiet ⟨⟨haborted.runs, haborted.reads, haborted.issued, haborted.started,
        haborted.clock⟩, haborted.running, haborted.ban⟩

theorem Engaged.settles {s' : Worker} {id : Nat} (h : Engaged s id s') : Settles s s' := by
  refine .of_runs (fun run' hrun' => ?_) (fun read hread => ?_) h.issued h.started h.clock
  · rcases RunsKept.continues h.runs run' hrun' with ⟨run, hrun, hnext, -⟩
    exact ⟨run, hrun, hnext⟩
  · rw [h.reads] at hread
    exact mem_of_mem_erase hread

/-- A run that begins to wait issues the only read it waits for. -/
theorem ReadsMapped.waits {s' : Worker} {run run' : WorkerRun} (h : ReadsMapped s)
    (hmapped : RunsMapped s') (hrun : run ∈ s.runs.rows) (hphase : run.phase = .boundary)
    (hid : run'.id = run.id) (hreading : ∃ task, run'.phase = .readingControls task)
    (hruns : s'.runs = s.runs.put run')
    (hreads : s'.reads = s.reads.insert ⟨s.issued, .boundary run.id⟩)
    (hissued : s'.issued = s.issued + 1) (hstarted : s'.started = s.started)
    (hban : s'.ban = s.ban) : ReadsMapped s' := by
  -- The run was not waiting, so no open read is of its boundary.
  have hnone : ∀ read ∈ s.reads.rows, read.site ≠ .boundary run.id := by
    intro read hread hsite
    rcases (h.boundary read hread run.id hsite).2 run hrun rfl with ⟨task, hwaiting⟩
    rw [hphase] at hwaiting
    cases hwaiting
  have hread : ∀ read ∈ s'.reads.rows, read ∈ s.reads.rows ∨
      read = ⟨s.issued, .boundary run.id⟩ := by
    intro read hread
    rw [hreads] at hread
    exact Table.mem_of_mem_insert hread
  refine ⟨hmapped, ?_, ?_, ?_, ?_⟩
  · intro read hmem
    rw [hissued]
    rcases hread read hmem with hold | rfl
    · exact Nat.lt_succ_of_lt (h.issued_before read hold)
    · exact Nat.lt_succ_self _
  · intro issued hsome
    rw [hban] at hsome
    rw [hissued]
    exact Nat.le_succ_of_le (h.ban_before issued hsome)
  · intro read hmem id hsite
    rw [hstarted, hruns]
    rcases hread read hmem with hold | rfl
    · rcases h.boundary read hold id hsite with ⟨hless, hwaiting⟩
      refine ⟨hless, fun other hother heq => ?_⟩
      rcases Table.mem_put.mp hother with ⟨rfl, -⟩ | ⟨hold', -⟩
      · exact absurd (heq.symm.trans hid ▸ hsite) (hnone read hold)
      · exact hwaiting other hold' heq
    · cases hsite
      refine ⟨h.fresh run hrun, fun other hother heq => ?_⟩
      rcases Table.mem_put.mp hother with ⟨rfl, -⟩ | ⟨hold', hne⟩
      · exact hreading
      · exact absurd (heq.trans hid.symm) hne
  -- Two open reads of one boundary would both be the new one.
  · intro read hmem other hmem' id hsite hsite'
    rcases hread read hmem with hold | rfl
    · rcases hread other hmem' with hold' | rfl
      · exact h.single read hold other hold' id hsite hsite'
      · cases hsite'
        exact absurd hsite (hnone read hold)
    · cases hsite
      rcases hread other hmem' with hold' | rfl
      · exact absurd hsite' (hnone other hold')
      · rfl

theorem readsMapped_step (s : Worker) (event : WorkerEvent) (h : ReadsMapped s) :
    ReadsMapped (step options s event) := by
  have hmapped := @runsMapped_step options s event h.toRunsMapped
  have hbefore : (step options s event).ban = s.ban ∨ (step options s event).ban = none →
      s.issued ≤ (step options s event).issued → ∀ issued,
        (step options s event).ban = some issued → issued ≤ (step options s event).issued := by
    intro hban hissued issued hsome
    rcases hban with hsame | hnone
    · exact Nat.le_trans (h.ban_before issued (hsame.symm.trans hsome)) hissued
    · rw [hnone] at hsome
      cases hsome
  cases @step_reads options s event h with
  | quiet hquiet => exact hquiet.mapped h hmapped (hbefore hquiet.ban hquiet.issued)
  | waits hrun hphase hid hreading hruns hreads hissued hstarted _ hban =>
      exact h.waits hmapped hrun hphase hid hreading hruns hreads hissued hstarted hban
  | @answered id controls _ _ _ _ hsettles hban _ =>
      exact hsettles.mapped h hmapped
        (hbefore (hban ▸ relieved_cases s.ban id controls) hsettles.issued)
  | engaged _ _ _ hengaged =>
      refine hengaged.settles.mapped h hmapped fun issued hsome => ?_
      rw [hengaged.ban] at hsome
      cases hsome
      rw [hengaged.issued]

theorem readsMapped_boot (clock : Instant) : ReadsMapped (boot clock) where
  toRunsMapped := runsMapped_boot clock
  issued_before _ hread := nomatch hread
  ban_before _ hsome := nomatch hsome
  boundary _ hread := nomatch hread
  single _ hread := nomatch hread

/-! ## Bans -/

/-- Under a ban no run waits for an older answer that could start its handler. -/
def Calm (options : WorkerOptions) (s : Worker) : Prop :=
  ∀ issued, s.ban = some issued → ∀ read run task, Waits s read run task → read.id < issued →
    ¬ Startable options s task

theorem Startable.before {s' : Worker} {task : Task}
    (hclock : ∃ elapsed : Nat, s'.clock = s.clock + elapsed) (h : Startable options s' task) :
    Startable options s task := by
  rcases hclock with ⟨elapsed, hclock⟩
  rcases h with ⟨controls, more, hgate⟩
  refine ⟨controls, elapsed + more, ?_⟩
  rw [hclock, Int.add_assoc] at hgate
  rw [Int.natCast_add]
  exact hgate

theorem Settles.waits {s' : Worker} (h : Settles s s') {read : ControlsRead} {run' : WorkerRun}
    {task : Task} (hwaits : Waits s' read run' task) :
    ∃ run, Waits s read run task := by
  rcases h.runs run' hwaits.mapped with ⟨run, hrun, hnext⟩ | ⟨hboundary, -⟩
  · rcases h.reads read hwaits.pending with hold | ⟨-, -, hother⟩
    · exact ⟨run, hold, hnext.id ▸ hwaits.site, hrun, hnext.reading task hwaits.phase⟩
    · exact absurd hwaits.site (hother _)
  · have hphase := hwaits.phase
    rw [hboundary] at hphase
    cases hphase

theorem Calm.settles {s' : Worker} (h : Calm options s) (hsettles : Settles s s')
    (hban : s'.ban = s.ban ∨ s'.ban = none) : Calm options s' := by
  intro issued hsome read run' task hwaits hless hstartable
  rcases hsettles.waits hwaits with ⟨run, hbefore⟩
  rcases hban with hsame | hnone
  · exact h issued (hsame.symm.trans hsome) read run task hbefore hless
      (hstartable.before hsettles.clock)
  · rw [hnone] at hsome
    cases hsome

theorem calm_engaged {s' : Worker} {id : Nat} (hmapped : ReadsMapped s) (h : Engaged s id s')
    (hread : s.reads.find? id = some ⟨id, .refresh⟩) :
    Calm options s' ↔ ∀ read run task, Waits s read run task → ¬ Startable options s task := by
  constructor
  · intro hcalm read run task hwaits hstartable
    rcases h.runs.forth run hwaits.mapped with ⟨run', hrun', hid, -, hphase⟩
    have hleft : read ∈ s'.reads.rows := by
      rw [h.reads]
      refine Table.mem_filter.mpr ⟨hwaits.pending, decide_eq_true fun heq => ?_⟩
      have hsame := s.reads.eq_of_key hwaits.pending (Table.mem_of_find? hread) heq
      have hsite := hwaits.site
      rw [hsame] at hsite
      cases hsite
    have hwaits' : Waits s' read run' task :=
      ⟨hleft, hid ▸ hwaits.site, hrun', hphase.trans hwaits.phase⟩
    refine hcalm s.issued h.ban read run' task hwaits' (hmapped.issued_before read hwaits.pending)
      (Startable.before ⟨0, ?_⟩ hstartable)
    simp [h.clock]
  · intro hbetween issued _ read run' task hwaits _ hstartable
    rcases h.settles.waits hwaits with ⟨run, hbefore⟩
    exact hbetween read run task hbefore (hstartable.before h.settles.clock)

/-- A step keeps the bans calm exactly if no refresh catches a run at a boundary. -/
theorem calm_step_iff (s : Worker) (event : WorkerEvent) (hmapped : ReadsMapped s)
    (h : Calm options s) :
    Calm options (step options s event) ↔ RefreshesBetweenBoundaries options s event := by
  by_cases hrefresh : ∃ id controls, event = .controlsRead id controls ∧
      controls.killSwitch = true ∧ s.reads.find? id = some ⟨id, .refresh⟩
  · rcases hrefresh with ⟨id, controls, rfl, hengaged, hread⟩
    rw [calm_engaged hmapped (step_engaged hengaged hread) hread]
    constructor
    · intro hcalm _ _ _ _ _
      exact hcalm
    · intro hbetween
      exact hbetween id controls rfl hengaged hread
  · have hother : RefreshesBetweenBoundaries options s event := by
      intro id controls hevent hengaged hread
      exact absurd ⟨id, controls, hevent, hengaged, hread⟩ hrefresh
    refine iff_of_true ?_ hother
    cases @step_reads options s event hmapped with
    | quiet hquiet => exact h.settles hquiet.toSettles hquiet.ban
    | @waits run run' hrun hphase hid _ hruns hreads _ _ hclock hban =>
        intro issued hsome read other task hwaits hless hstartable
        rw [hban] at hsome
        have hsite := hwaits.site
        have hpending := hwaits.pending
        have hother' := hwaits.mapped
        rw [hreads] at hpending
        rw [hruns] at hother'
        rcases Table.mem_of_mem_insert hpending with hold | rfl
        · rcases Table.mem_put.mp hother' with ⟨rfl, -⟩ | ⟨hold', -⟩
          · -- An older read of a run at the loop head.
            rw [hid] at hsite
            rcases (hmapped.boundary read hold run.id hsite).2 run hrun rfl with ⟨_, hwaiting⟩
            rw [hphase] at hwaiting
            cases hwaiting
          · exact h issued hsome read other task ⟨hold, hsite, hold', hwaits.phase⟩ hless
              (hstartable.before ⟨0, by simp [hclock]⟩)
        · exact absurd hless (Nat.not_lt.mpr (hmapped.ban_before issued hsome))
    | @answered id controls _ _ _ _ hsettles hban _ =>
        exact h.settles hsettles (hban ▸ relieved_cases s.ban id controls)
    | engaged hevent hengaged hread _ =>
        exact absurd ⟨_, _, hevent, hengaged, hread⟩ hrefresh

theorem RunsKept.starts {s' : Worker} (h : RunsKept s.runs s'.runs) : ¬ StartsHandler s s' := by
  rintro ⟨run', hrun', task, hphase, hnew⟩
  rcases h.back run' hrun' with ⟨run, hrun, hid, -, hsame⟩
  exact hnew run hrun hid (hsame.trans hphase)

/-- A handler that starts under a ban was started by an older answer. -/
theorem keepsSwitch_of_calm (s : Worker) (event : WorkerEvent) (hmapped : ReadsMapped s)
    (h : Calm options s) : KeepsSwitch options s event := by
  intro hstart
  cases @step_reads options s event hmapped with
  | quiet hquiet => exact absurd hstart hquiet.starts
  | @waits run run' _ _ hid hreading hruns _ _ _ _ _ =>
      rcases hstart with ⟨other, hother, task, hphase, hnew⟩
      rw [hruns] at hother
      rcases Table.mem_put.mp hother with ⟨rfl, -⟩ | ⟨hold, -⟩
      · rcases hreading with ⟨_, hwaiting⟩
        rw [hwaiting] at hphase
        cases hphase
      · exact absurd hphase (hnew other hold rfl)
  | @answered id controls run task _ hwaits _ hban hstarts =>
      have hgate := hstarts hstart
      rw [hban]
      by_contra hkept
      rcases Option.ne_none_iff_exists'.mp hkept with ⟨issued, hsome⟩
      rcases Option.filter_eq_some_iff.mp hsome with ⟨hbanned, hrelieved⟩
      have hreleased := (gatePhase_running hgate).2
      rw [hreleased, Bool.or_false, decide_eq_true_eq] at hrelieved
      refine h issued hbanned _ run task hwaits hrelieved ⟨controls, 0, ?_⟩
      rw [Int.natCast_zero, Int.add_zero]
      exact hgate
  | engaged _ _ _ hengaged => exact absurd hstart (RunsKept.starts hengaged.runs)

/-! ## A stale answer -/

theorem step_boundary {read : ControlsRead} {run : WorkerRun} {task : Task}
    (h : Waits s read run task) (controls : OrchestratorControls) :
    step options s (.controlsRead read.id controls) =
      (s.received read controls).setRun { run with
        phase := gatePhase options.config controls options.forceKillSwitch task s.clock
        abortReason := if s.stopping then some .shutdown else none } := by
  have hread : s.reads.find? read.id = some read := Table.find?_of_mem h.pending
  have hrun : (s.received read controls).runs.find? run.id = some run :=
    Table.find?_of_mem h.mapped
  unfold step
  simp only [hread, stepControlsRead, h.site, onRun, hrun, stepBoundaryControls, h.phase]
  rfl

theorem calm_of_answers (s : Worker)
    (h : ∀ burst, (∀ event ∈ burst, reportsReleased event = true) →
      Along (step options) (KeepsSwitch options) s burst) : Calm options s := by
  intro issued hban read run task hwaits hless hstartable
  rcases hstartable with ⟨controls, elapsed, hgate⟩
  have hreleased := (gatePhase_running hgate).2
  have hburst := h [.wait elapsed, .controlsRead read.id controls] (by
    intro event hevent
    rcases List.mem_pair.mp hevent with rfl | rfl
    · rfl
    · simp [reportsReleased, hreleased])
  rcases hburst with ⟨-, hkeeps, -⟩
  have hwaits' : Waits (step options s (.wait elapsed)) read run task :=
    ⟨hwaits.pending, hwaits.site, hwaits.mapped, hwaits.phase⟩
  unfold KeepsSwitch at hkeeps
  rw [step_boundary hwaits' controls] at hkeeps
  have hstarts : StartsHandler (step options s (.wait elapsed))
      (((step options s (.wait elapsed)).received read controls).setRun { run with
        phase := gatePhase options.config controls options.forceKillSwitch task
          (step options s (.wait elapsed)).clock
        abortReason := if (step options s (.wait elapsed)).stopping then some .shutdown
          else none }) := by
    refine ⟨_, Table.mem_put.mpr (Or.inl ⟨rfl, run, hwaits.mapped, rfl⟩), task, hgate, ?_⟩
    intro before hbefore hid hrunning
    have hsame : before = run := s.runs.eq_of_key hbefore hwaits.mapped hid
    rw [hsame, hwaits.phase] at hrunning
    cases hrunning
  have hlifted : relieved s.ban read.id controls = none := hkeeps hstarts
  rw [hban, relieved, Option.filter_some, decide_eq_true hless] at hlifted
  cases hlifted

end Steps

/-- A worker starts no handler between an engaged switch that `refreshControls` read and a
later read of a released one, whatever older answers arrive, exactly if no such refresh is
answered while a run waits at a boundary for an answer that could start its handler. -/
theorem refreshed_switch_iff (options : WorkerOptions) (clock : Instant)
    (events : List WorkerEvent) :
    RespectsSwitch options (boot clock) events ↔
      Along (step options) (RefreshesBetweenBoundaries options) (boot clock) events := by
  have hboot : Calm options (boot clock) := fun _ hsome => nomatch hsome
  have hkept : ∀ s event, ReadsMapped s → Calm options s → reportsReleased event = true →
      Calm options (step options s event) := by
    intro s event hmapped hcalm hreports
    refine (calm_step_iff s event hmapped hcalm).mpr fun id controls hevent hengaged => ?_
    rw [hevent] at hreports
    simp [reportsReleased, hengaged] at hreports
  refine (alongJoined_iff readsMapped_step hkept keepsSwitch_of_calm
    (fun s _ => calm_of_answers s) (readsMapped_boot clock) events).trans ?_
  exact throughout_iff_along ReadsMapped readsMapped_step calm_step_iff (readsMapped_boot clock)
    hboot events

/-- A run waits for its boundary's read, and `refreshControls` is answered first. -/
def refreshAtBoundary : List WorkerEvent :=
  let claimedRow : Task := { sampleTask 1 ready with leaseOwner := some "worker-a" }
  [.runOnce, .controlsRead 0 {}, .prepared, .claimed (some (sampleTask 1 ready)) true,
    .readTask 0 (some claimedRow), .refreshControls, .controlsRead 2 { killSwitch := true }]

/-- The older answer starts the handler although the switch is engaged. -/
theorem stale_read_starts_handler :
    ¬ Along (step { config := sampleConfig, workerId := "worker-a" })
      (KeepsSwitch { config := sampleConfig, workerId := "worker-a" }) (boot 0)
      (refreshAtBoundary ++ [.controlsRead 1 {}]) := by
  intro h
  have hlast := (along_append.mp h).2.1
  have hstarts : StartsHandler
      (run (step { config := sampleConfig, workerId := "worker-a" }) (boot 0) refreshAtBoundary)
      (step { config := sampleConfig, workerId := "worker-a" }
        (run (step { config := sampleConfig, workerId := "worker-a" }) (boot 0) refreshAtBoundary)
        (.controlsRead 1 {})) := by
    refine ⟨_, List.mem_cons_self, { sampleTask 1 ready with leaseOwner := some "worker-a" }, rfl,
      ?_⟩
    decide
  exact absurd (hlast hstarts) (by decide)

end Worker

end Orchestrator
