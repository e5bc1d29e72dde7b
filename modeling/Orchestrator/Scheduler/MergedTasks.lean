import Orchestrator.Delivery.Completion
import Orchestrator.Scheduler.HandledRuns

/-! # A completed task is merged

The rows of work units are overwritten one by one, the outcome is decided from results in
memory, and the state of the task changes in a later transaction. As long as one execution
of a handler at a time is between reading the task and applying its outcome, whatever
GitHub answers and however often workers crash, wait or are told to retry, the rows of a
completed task are those that the deciding observation wrote.
-/

namespace Orchestrator

open Kit TaskState Relation

/-! ## The way to `COMPLETED` -/

section Ways

variable {config : SchedulerConfig} {s : System} {event : Event} {run run' : RunEntry}
  {task row stage : Task}

/-- The only call that completes a task applies the outcome of a handler. -/
theorem phaseCall_completed {input : TaskTransitionInput}
    (hcall : phaseCall config run = some (.transition input))
    (hcompleted : input.toState = completed) :
    ∃ stage outcome now, run.phase = .applying stage (.advance outcome) now ∧
      outcome.toState = completed ∧ input.taskId = run.taskId := by
  unfold phaseCall at hcall
  split at hcall
  · cases hcall
  · cases hcall
    cases hcompleted
  · split_ifs at hcall
    · cases hcall
      cases hcompleted
    · cases hcall
  · cases hcall
  · cases hcall
  · cases hcall
    cases hcompleted
  · cases hcall
  · rename_i stage outcome now hphase
    cases hcall
    exact ⟨stage, outcome, now, hphase, hcompleted, rfl⟩
  · cases hcall
    cases hcompleted
  · cases hcall
  · cases hcall
  · cases hcall
  · split_ifs at hcall
    · cases hcall
      cases hcompleted
    · cases hcall

/-- The event applies the outcome of a run that has decided for `COMPLETED`. -/
def AppliesCompletion (s : System) (event : Event) (taskId : TaskId) (run : RunEntry) : Prop :=
  run ∈ s.runs.rows ∧ run.taskId = taskId ∧ (∃ clock lost, event = .perform run.id clock lost) ∧
    ∃ stage outcome now, run.phase = .applying stage (.advance outcome) now ∧
      outcome.toState = completed

theorem claimedRow_completed {input : TaskClaimWithLimitInput} {clock : Instant}
    (hallowed : ∀ transition, claimTransition input task = some transition →
      TransitionAllowed task.state transition.toState none)
    (hcompleted : (claimedRow input task clock).state = completed) : task.state = completed := by
  unfold claimedRow at hcompleted
  cases htransition : claimTransition input task with
  | none =>
      rw [htransition] at hcompleted
      exact hcompleted
  | some transition =>
      rw [htransition] at hcompleted
      have hcan := (hallowed transition htransition).1
      have htarget : transition.toState = completed := hcompleted
      rw [htarget] at hcan
      -- Only a task that people review can be completed, and that one is not claimed so.
      have hsource : task.state = readyForHumanReview := by
        revert hcan
        cases task.state <;> decide
      unfold claimTransition at htransition
      rw [hsource, if_neg (by decide), if_neg (by decide)] at htransition
      cases htransition

/-- A row becomes completed when the outcome of a handler is applied, and never else. -/
theorem RowChange.completed_by (h : RowChange config s event task row)
    (hcompleted : row.state = completed) :
    task.state = completed ∨ ∃ run, AppliesCompletion s event task.id run := by
  cases h with
  | kept => exact Or.inl hcompleted
  | claimed _ hallowed => exact Or.inl (claimedRow_completed hallowed hcompleted)
  | renewed _ => exact Or.inl hcompleted
  | modelSelected _ => exact Or.inl hcompleted
  | @performed id run _ clock lost _ _ hrun hcall heffect =>
      cases heffect with
      | transition htask _ _ =>
          obtain ⟨stage, outcome, now, hphase, htarget, hid⟩ := phaseCall_completed hcall hcompleted
          have hkey : run.id = id := Table.key_of_find? hrun
          refine Or.inr ⟨run, Table.mem_of_find? hrun, (htask.trans hid).symm, ⟨clock, lost, ?_⟩,
            stage, outcome, now, hphase, htarget⟩
          rw [hkey]
      | release _ _ => exact Or.inl hcompleted
      | defer _ _ => exact Or.inl hcompleted
  | recovered _ _ => cases hcompleted
  | retried _ _ => cases hcompleted
  | cancelRequested _ => exact Or.inl hcompleted
  | cancelled _ _ => cases hcompleted
  | manualBlocked _ _ => cases hcompleted
  | manualFlagged => exact Or.inl hcompleted

/-- A run carries the row it carried before, or it has just read the row. -/
theorem RunStep.snapshot (h : RunStep config s event run run')
    (hsnapshot : run'.phase.snapshot? = some stage) :
    run.phase.snapshot? = some stage ∨
      (s.store.getTask run.taskId = some stage ∧ (step config s event).store = s.store) := by
  cases h with
  | kept hphase _ => exact Or.inl (hphase ▸ hsnapshot)
  | moved hstore hchange =>
      cases hchange with
      | kept => exact Or.inl hsnapshot
      | flagged _ => exact Or.inl hsnapshot
      | @checked task stopping hphase hread howner =>
          unfold boundaryPhase at hsnapshot
          dsimp only at hsnapshot
          split_ifs at hsnapshot
          · cases hsnapshot
          · cases hsnapshot
          · cases hsnapshot
          · cases hsnapshot
            exact Or.inr ⟨hread, hstore⟩
      -- The boundary reads the row; the gate starts the stage with it or drops it.
      | @gated task forceKillSwitch now abortReason hphase =>
          refine Or.inl ?_
          rw [hphase]
          unfold gatePhase at hsnapshot
          dsimp only at hsnapshot
          split_ifs at hsnapshot
          · cases hsnapshot
          · cases hsnapshot
          · cases hsnapshot
          · exact hsnapshot
          · cases hsnapshot
          · exact hsnapshot
      | finished _ hphase _ =>
          rw [hphase]
          exact Or.inl hsnapshot
      | interrupted _ _ => cases hsnapshot
      | advanced _ => cases hsnapshot
      | failed => cases hsnapshot
      | handedBack _ _ => cases hsnapshot
  | performed _ hphase =>
      rcases hphase with ⟨hphase, _⟩ | ⟨_, hphase⟩
      · rw [hphase] at hsnapshot
        cases hsnapshot
      · rw [hphase] at hsnapshot
        cases hsnapshot

/-- A run that is about to apply an outcome was so before, or has just been given it. -/
theorem RunStep.outcome {outcome : StageOutcome} {now : Instant}
    (h : RunStep config s event run run') (hphase' : run'.phase = .applying stage outcome now) :
    run.phase = .applying stage outcome now ∨
      (event = .finish run.id outcome now ∧ run.phase = .running stage) := by
  cases h with
  | kept hphase _ => exact Or.inl (hphase ▸ hphase')
  | moved _ hchange =>
      cases hchange with
      | kept => exact Or.inl hphase'
      | flagged _ => exact Or.inl hphase'
      | finished hevent hphase _ =>
          cases hphase'
          exact Or.inr ⟨hevent, hphase⟩
      | checked _ _ _ =>
          unfold boundaryPhase at hphase'
          dsimp only at hphase'
          split_ifs at hphase'
      | gated _ =>
          unfold gatePhase at hphase'
          dsimp only at hphase'
          split_ifs at hphase'
      | _ => cases hphase'
  | performed _ hphase =>
      rw [hphase'] at hphase
      rcases hphase with ⟨hphase, _⟩ | ⟨_, hphase⟩
      · cases hphase
      · cases hphase

end Ways

/-! ## One execution at a time -/

/-- Two runs of the task are never both between reading the row and applying an outcome. The window
begins with the row, not with the handler: what a handler does depends on the row that its run
read, so an execution with an older row would overlap the one that changes it. -/
def OneExecution (taskId : TaskId) (s : System) : Prop :=
  ∀ run ∈ s.runs.rows, ∀ other ∈ s.runs.rows, run.taskId = taskId → other.taskId = taskId →
    run.phase.snapshot?.isSome → other.phase.snapshot?.isSome → run.id = other.id

/-- An observation of the task, as the run read it, has decided for `COMPLETED` with this outcome;
its calls are in the journal, and its evidence is that all work units, as they are now, are
merged. -/
def DecidedBy {ω : Type} (deps : DeliveryDependencies) (taskId : TaskId) (stage : Task)
    (outcome : AdvanceOutcome) (w : StageWorld ω) : Prop :=
  stage.id = taskId ∧ outcome.toState = completed ∧
    ∃ (services : Services ω) (w₀ w₁ : StageWorld ω),
      Exec (serves services ⟨taskId, stage.state⟩) (observationStage deps stage) w₀
        (.returned (.advance outcome)) w₁ ∧
      w₁.journal <+: w.journal ∧ AllMerged deps taskId (w₀.since w₁) w.tables

/-- The decision of the run that completed the task. -/
def DecidedMerged {ω : Type} (deps : DeliveryDependencies) (taskId : TaskId) (w : StageWorld ω) :
    Prop :=
  ∃ stage outcome, DecidedBy deps taskId stage outcome w

/-- What holds of a task that is complete, or about to be. -/
structure MergedIfCompleted {ω : Type} (deps : DeliveryDependencies) (taskId : TaskId)
    (h : Handled ω) : Prop where
  row : ∀ row, h.system.store.getTask taskId = some row → row.state = completed →
    DecidedMerged deps taskId h.world
  applying : ∀ run ∈ h.system.runs.rows, run.taskId = taskId → ∀ stage outcome now,
    run.phase = .applying stage (.advance outcome) now → outcome.toState = completed →
      DecidedBy deps taskId stage outcome h.world
  /-- Nobody is at work on it with an older row. -/
  idle : ∀ row, h.system.store.getTask taskId = some row → row.state = completed →
    ∀ run ∈ h.system.runs.rows, run.taskId = taskId → ∀ stage,
      run.phase.snapshot? = some stage → stage.state = completed
  read : ∀ run ∈ h.system.runs.rows, run.taskId = taskId → ∀ stage,
    run.phase.snapshot? = some stage → stage.id = taskId
  within : h.world.tables.ImplementationWithin taskId deps.config.maxImplementationAttempts

section Step

variable {ω : Type} {config : SchedulerConfig} {deps : DeliveryDependencies} {deliver : Bool}
  {taskId : TaskId} {h h' : Handled ω} {event : Event} {row : Task} {w w' : StageWorld ω}

theorem DecidedBy.later {stage : Task} {outcome : AdvanceOutcome}
    (hdecided : DecidedBy deps taskId stage outcome w)
    (hunits : ∀ unit, unit ∈ w'.tables.getWorkUnits taskId ↔ unit ∈ w.tables.getWorkUnits taskId)
    (hjournal : w.journal <+: w'.journal) : DecidedBy deps taskId stage outcome w' := by
  obtain ⟨hid, hcompleted, services, w₀, w₁, hexec, hbefore, hmerged⟩ := hdecided
  refine ⟨hid, hcompleted, services, w₀, w₁, hexec, hbefore.trans hjournal, ?_⟩
  constructor
  · obtain ⟨unit, hunit⟩ := List.exists_mem_of_ne_nil _ hmerged.declared
    exact List.ne_nil_of_mem ((hunits unit).mpr hunit)
  · intro unit hunit
    exact hmerged.merged unit ((hunits unit).mp hunit)

/-- The row after an event: completed before, or completed by an outcome. -/
theorem completed_before {s : System}
    (hrow : (step config s event).store.getTask taskId = some row)
    (hcompleted : row.state = completed) :
    (∃ task, s.store.getTask taskId = some task ∧ task.state = completed) ∨
      ∃ run, AppliesCompletion s event taskId run := by
  rcases step_rows hrow with ⟨task, htask, hchange⟩ | ⟨_, input, id, clock, hcreated⟩
  · have hid : task.id = taskId := (Store.getTask_eq_some_iff.mp htask).2
    rcases hchange.completed_by hcompleted with hbefore | happlies
    · exact Or.inl ⟨task, htask, hbefore⟩
    · exact Or.inr (hid ▸ happlies)
  · rw [hcreated] at hcompleted
    cases hcompleted

variable (hinv : MergedIfCompleted deps taskId h)

include hinv

theorem MergedIfCompleted.step_row
    (hrow : (step config h.system event).store.getTask taskId = some row)
    (hcompleted : row.state = completed) : DecidedMerged deps taskId h.world := by
  rcases completed_before hrow hcompleted with ⟨task, htask, hbefore⟩ | ⟨run, happlies⟩
  · exact hinv.row task htask hbefore
  · obtain ⟨hrun, hid, _, stage, outcome, now, hphase, htarget⟩ := happlies
    exact ⟨stage, outcome, hinv.applying run hrun hid stage outcome now hphase htarget⟩

theorem MergedIfCompleted.step_read {run' : RunEntry} {stage : Task}
    (hrun' : run' ∈ (step config h.system event).runs.rows) (hid' : run'.taskId = taskId)
    (hsnapshot : run'.phase.snapshot? = some stage) : stage.id = taskId := by
  rcases step_runStep hrun' with ⟨run, hrun, ⟨_, _, hid⟩, hstep⟩ | ⟨task, row', hstarts⟩
  · have htask : run.taskId = taskId := hid ▸ hid'
    rcases hstep.snapshot hsnapshot with hbefore | ⟨hread, _⟩
    · exact hinv.read run hrun htask stage hbefore
    · rw [htask] at hread
      exact (Store.getTask_eq_some_iff.mp hread).2
  · rw [hstarts.phase] at hsnapshot
    cases hsnapshot

/-- When the row becomes completed, no other run has read it; afterwards every run that reads
it sees that. -/
theorem MergedIfCompleted.step_idle (hone : OneExecution taskId h.system)
    (hrow : (step config h.system event).store.getTask taskId = some row)
    (hcompleted : row.state = completed) {run' : RunEntry} {stage : Task}
    (hrun' : run' ∈ (step config h.system event).runs.rows) (hid' : run'.taskId = taskId)
    (hsnapshot : run'.phase.snapshot? = some stage) : stage.state = completed := by
  rcases step_runStep hrun' with ⟨run, hrun, ⟨_, _, hid⟩, hstep⟩ | ⟨task, row', hstarts⟩
  · have htask : run.taskId = taskId := hid ▸ hid'
    -- The row that was read is the row that is there.
    have hnow : (step config h.system event).store = h.system.store →
        h.system.store.getTask taskId = some row := by
      intro hstore
      rw [← hstore]
      exact hrow
    rcases hstep.snapshot hsnapshot with hbefore | ⟨hread, hstore⟩
    · by_cases hstore : (step config h.system event).store = h.system.store
      · exact hinv.idle row (hnow hstore) hcompleted run hrun htask stage hbefore
      rcases completed_before hrow hcompleted with ⟨before, hfound, hstate⟩ | ⟨caller, happlies⟩
      · exact hinv.idle before hfound hstate run hrun htask stage hbefore
      · obtain ⟨hcaller, hcallerTask, ⟨clock, lost, hevent⟩, _, _, _, hphase, _⟩ := happlies
        -- The caller is the only run that had read the row, and it has not read it again.
        have hsame : caller.id = run.id := by
          apply hone caller hcaller run hrun hcallerTask htask
          · rw [hphase]
            rfl
          · rw [hbefore]
            rfl
        obtain rfl := h.system.runs.eq_of_key hcaller hrun hsame
        cases hstep with
        | kept _ hquiet => exact absurd (hquiet clock lost hevent) hstore
        | moved hkept _ => exact absurd hkept hstore
        | performed _ hends =>
            rcases hends with ⟨hends, _⟩ | ⟨_, hends⟩
            · rw [hends] at hsnapshot
              cases hsnapshot
            · rw [hends] at hsnapshot
              cases hsnapshot
    · rw [htask, hnow hstore] at hread
      cases hread
      exact hcompleted
  · rw [hstarts.phase] at hsnapshot
    cases hsnapshot

/-- An event of the scheduler leaves the evidence where it is. -/
theorem MergedIfCompleted.scheduled (hone : OneExecution taskId h.system)
    (hresult : ¬ event.ResultFor h.system taskId) :
    MergedIfCompleted deps taskId ⟨step config h.system event, h.world⟩ where
  row := fun _ hrow hcompleted => hinv.step_row hrow hcompleted
  applying := by
    intro run' hrun' hid' stage outcome now hphase' htarget
    rcases step_runStep hrun' with ⟨run, hrun, ⟨_, _, hid⟩, hstep⟩ | ⟨task, row', hstarts⟩
    · have htask : run.taskId = taskId := hid ▸ hid'
      rcases hstep.outcome hphase' with hbefore | ⟨hevent, _⟩
      · exact hinv.applying run hrun htask stage outcome now hbefore htarget
      · exact absurd ⟨run.id, _, now, run, hevent, Table.find?_of_mem hrun, htask⟩ hresult
    · rw [hstarts.phase] at hphase'
      cases hphase'
  idle := fun _ hrow hcompleted _ hrun' hid' _ hsnapshot =>
    hinv.step_idle hone hrow hcompleted hrun' hid' hsnapshot
  read := fun _ hrun' hid' _ hsnapshot => hinv.step_read hrun' hid' hsnapshot
  within := hinv.within

omit hinv in
/-- Only an observation decides for `COMPLETED`. -/
theorem observationStage_of_completed {handler : StageProc StageOutcome} {task : Task}
    {counter : Option AttemptCounter}
    (hhandler : executionHandler deps deliver task = some handler)
    (hmove : StageMove deps.toStageDependencies task completed counter) :
    handler = observationStage deps task := by
  have hstate : task.state ∈ [waitingCi, readyForHumanReview] := by
    cases hmove with
    | observed hstate _ => exact hstate
  unfold executionHandler at hhandler
  simp only [List.mem_cons, List.not_mem_nil, or_false] at hstate
  rcases hstate with hstate | hstate
  · rw [hstate] at hhandler
    dsimp only at hhandler
    split_ifs at hhandler
    exact (Option.some.inj hhandler).symm
  · rw [hstate] at hhandler
    dsimp only at hhandler
    split_ifs at hhandler
    exact (Option.some.inj hhandler).symm

/-- The handler of a completed task is none, and the outcome of an observation that decides
for `COMPLETED` has its evidence in the rows. -/
theorem MergedIfCompleted.handled (hone : OneExecution taskId h.system) {services : Services ω}
    {run : RunEntry} {task : Task} {handler : StageProc StageOutcome}
    {ending : Ending StageError StageOutcome} (hrun : run ∈ h.system.runs.rows)
    (htask : run.taskId = taskId) (hphase : run.phase = .running task)
    (hhandler : executionHandler deps deliver task = some handler)
    (hexec : Exec (serves services ⟨task.id, task.state⟩) handler h.world ending w')
    (hends : EndsIn run.id ending event) :
    MergedIfCompleted deps taskId ⟨step config h.system event, w'⟩ := by
  have hsnapshot : run.phase.snapshot? = some task := by
    rw [hphase]
    rfl
  have hid : task.id = taskId := hinv.read run hrun htask task hsnapshot
  have hkeeps := keeps_iff.mp (keeps_handler hhandler (hid ▸ hinv.within)) _ _ hexec
  constructor
  · intro row hrow hcompleted
    exfalso
    rcases completed_before hrow hcompleted with ⟨before, hfound, hstate⟩ | ⟨caller, happlies⟩
    · -- A run that is at work on it has read a row that is not completed.
      have hread := hinv.idle before hfound hstate run hrun htask task hsnapshot
      unfold executionHandler at hhandler
      rw [hread] at hhandler
      cases hhandler
    · obtain ⟨_, _, ⟨clock, lost, hevent⟩, _⟩ := happlies
      rw [hevent] at hends
      cases hends
  · intro run' hrun' hid' stage outcome now hphase' htarget
    rcases step_runStep hrun' with ⟨other, hother, ⟨_, _, hsame⟩, hstep⟩ | ⟨_, _, hstarts⟩
    · have hotherTask : other.taskId = taskId := hsame ▸ hid'
      have halone : other.phase.snapshot?.isSome → other = run := by
        intro hread
        apply h.system.runs.eq_of_key hother hrun
        apply hone other hother run hrun hotherTask htask hread
        rw [hsnapshot]
        rfl
      rcases hstep.outcome hphase' with hbefore | ⟨hevent, hrunning⟩
      · have heq := halone (by rw [hbefore]; rfl)
        rw [heq, hphase] at hbefore
        cases hbefore
      · have heq := halone (by rw [hrunning]; rfl)
        rw [heq, hphase] at hrunning
        cases hrunning
        rw [hevent, heq] at hends
        cases hends
        have hmove : StageMove deps.toStageDependencies task outcome.toState
            outcome.incrementCounter := hkeeps.2 _ rfl
        rw [htarget] at hmove
        rw [observationStage_of_completed hhandler hmove] at hexec
        rw [hid] at hexec
        have hobserves : (observationStage deps task).Keeps
            (serves services ⟨taskId, task.state⟩) (fun _ => True)
            (Completing deps taskId h.world) h.world := keeps_observationStage rfl
        have hcompleting := (keeps_iff.mp hobserves _ _ hexec).2 _ rfl
        exact ⟨hid, htarget, services, h.world, w', hexec, List.prefix_rfl,
          hcompleting outcome rfl htarget⟩
    · rw [hstarts.phase] at hphase'
      cases hphase'
  · exact fun _ hrow hcompleted _ hrun' hid' _ hread =>
      hinv.step_idle hone hrow hcompleted hrun' hid' hread
  · exact fun _ hrun' hid' _ hread => hinv.step_read hrun' hid' hread
  · exact hid ▸ hkeeps.1

theorem MergedIfCompleted.step (hone : OneExecution taskId h.system)
    (hstep : HandledStep config deps deliver taskId (fun _ => True) h h') :
    MergedIfCompleted deps taskId h' := by
  -- What changes only the world of others.
  have hworld : ∀ w' : StageWorld ω, (∀ unit, unit ∈ w'.tables.getWorkUnits taskId ↔
        unit ∈ h.world.tables.getWorkUnits taskId) → h.world.journal <+: w'.journal →
      w'.tables.getCheckpoint taskId .implementation =
        h.world.tables.getCheckpoint taskId .implementation →
      MergedIfCompleted deps taskId ⟨h.system, w'⟩ := by
    intro w' hunits hjournal hcheckpoint
    constructor
    · intro row hrow hcompleted
      obtain ⟨stage, outcome, hdecided⟩ := hinv.row row hrow hcompleted
      exact ⟨stage, outcome, hdecided.later hunits hjournal⟩
    · intro run hrun hid stage outcome now hphase htarget
      exact (hinv.applying run hrun hid stage outcome now hphase htarget).later hunits hjournal
    · exact hinv.idle
    · exact hinv.read
    · intro recorded hslot
      exact hinv.within recorded (hcheckpoint ▸ hslot)
  cases hstep with
  | scheduled _ hresult => exact hinv.scheduled hone hresult
  | handled hrun htask hphase hhandler hexec hends =>
      exact hinv.handled hone hrun htask hphase hhandler hexec hends
  | elsewhere hother hserves =>
      obtain ⟨entries, hentries⟩ := journal_serves hserves
      exact hworld _ (mem_getWorkUnits_elsewhere hother hserves) ⟨entries, hentries.symm⟩
        (getCheckpoint_elsewhere hother hserves)
  | outside => exact hworld _ (fun _ => Iff.rfl) List.prefix_rfl rfl

end Step

/-! ## Runs -/

/-- A step of the workers from a state with one execution of the task at most. -/
def SingleStep {ω : Type} (config : SchedulerConfig) (deps : DeliveryDependencies)
    (deliver : Bool) (taskId : TaskId) (h h' : Handled ω) : Prop :=
  OneExecution taskId h.system ∧ HandledStep config deps deliver taskId (fun _ => True) h h'

/-- The task is not completed, no worker has taken it, and nothing is recorded of it. -/
structure Unclaimed {ω : Type} (taskId : TaskId) (h : Handled ω) : Prop where
  incomplete : ∀ row, h.system.store.getTask taskId = some row → row.state ≠ completed
  idle : ∀ run ∈ h.system.runs.rows, run.taskId ≠ taskId
  unrecorded : ∀ key, h.world.tables.getCheckpoint taskId key = none

section Runs

variable {ω : Type} {config : SchedulerConfig} {deps : DeliveryDependencies} {deliver : Bool}
  {taskId : TaskId} {h₀ h : Handled ω} {row : Task}

theorem Unclaimed.mergedIfCompleted (hnew : Unclaimed taskId h) :
    MergedIfCompleted deps taskId h where
  row := fun row hrow hcompleted => absurd hcompleted (hnew.incomplete row hrow)
  applying := fun run hrun hid => absurd hid (hnew.idle run hrun)
  idle := fun row hrow hcompleted => absurd hcompleted (hnew.incomplete row hrow)
  read := fun run hrun hid => absurd hid (hnew.idle run hrun)
  within := by
    intro committed hrecorded
    rw [hnew.unrecorded] at hrecorded
    cases hrecorded

/-- In every state that the workers reach with one execution at a time, a completed task has
work units, and all of them are merged on the evidence of the observation that decided. -/
theorem completed_task_merged (hnew : Unclaimed taskId h₀)
    (hrun : ReflTransGen (SingleStep config deps deliver taskId) h₀ h)
    (hrow : h.system.store.getTask taskId = some row) (hcompleted : row.state = completed) :
    DecidedMerged deps taskId h.world := by
  have hinv : MergedIfCompleted deps taskId h := by
    clear hrow hcompleted
    induction hrun with
    | refl => exact hnew.mergedIfCompleted
    | tail _ hstep ih => exact ih.step hstep.1 hstep.2
  exact hinv.row row hrow hcompleted

end Runs

/-! ## A sample -/

/-- GitHub reports that the pull request is merged, and the merge commit on the base branch. -/
def githubMerged : (call : ServiceCall) → Except StageError call.Answer
  | .aborted => .ok false
  | .clock => .ok 0
  | .getPullRequest _ number => .ok
      { number, url := "url", state := .closed, merged := true, mergeCommitSha := some "merge"
        headSha := "head", headRef := "task-1", headRepository := some "acme/web"
        baseRef := "main" }
  | .compareCommits _ _ _ => .ok .identical
  | .createComment _ _ => .ok "comment"
  | _ => .error (.other "offline")

def deliveredWorld : StageWorld Unit where
  outside := ()
  tables :=
    { taskWorkUnits := Table.empty.insert
        { taskId := 1, repository := "web", branch := some "task-1", pushedCommit := some "head"
          pullRequest := some ⟨7, "url"⟩ } }

/-- A deployment with one task under review, after these events. -/
def reviewedSystem (events : List Event) : System :=
  Kit.run (step sampleConfig) (boot (sampleStore [sampleTask 1 readyForHumanReview])) events

/-- The row of the task when worker `a` has claimed it. -/
def claimedReview : Task :=
  claimedRow (claimInput sampleConfig "a" .delivery .normal 0 0)
    (sampleTask 1 readyForHumanReview) 0

/-- The end of the observation. -/
def observedMerge : Ending StageError StageOutcome × StageWorld Unit :=
  (observationStage sampleDelivery claimedReview).finish
    (respondFixed githubMerged ⟨1, readyForHumanReview⟩) deliveredWorld

def mergedOutcome : AdvanceOutcome where
  toState := completed
  reason := some "Every pull request is merged and reachable from its base branch"
  lastError := some none

/-- The outcome that an execution returned, if it advances. -/
def advancesBy : Ending StageError StageOutcome → Option AdvanceOutcome
  | .returned (.advance outcome) => some outcome
  | _ => none

theorem advancesBy_eq_some {ending : Ending StageError StageOutcome} {outcome : AdvanceOutcome}
    (h : advancesBy ending = some outcome) : ending = .returned (.advance outcome) := by
  unfold advancesBy at h
  split at h
  · cases h
    rfl
  · cases h

theorem oneExecution_of_length {taskId : TaskId} {s : System} (h : s.runs.rows.length ≤ 1) :
    OneExecution taskId s := by
  intro run hrun other hother _ _ _ _
  rcases hrows : s.runs.rows with _ | ⟨first, _ | ⟨second, rest⟩⟩
  · rw [hrows] at hrun
    cases hrun
  · rw [hrows, List.mem_singleton] at hrun hother
    rw [hrun, hother]
  · rw [hrows] at h
    simp at h

/-- The worker claims the task, finds its pull request merged, and completes it. -/
theorem completed_task_merged_observed : DecidedMerged sampleDelivery 1 observedMerge.2 := by
  have hnew : Unclaimed 1 (⟨reviewedSystem [], deliveredWorld⟩ : Handled Unit) := by
    constructor
    · intro row hrow
      cases hrow
      exact nofun
    · intro run hrun
      cases hrun
    · intro key
      rfl
  -- The steps of the scheduler leave the world of the handlers alone.
  have hscheduled : ∀ (w : StageWorld Unit) (events : List Event) (event : Event),
      (reviewedSystem events).runs.rows.length ≤ 1 →
      (∀ id outcome now, event ≠ .finish id outcome now) →
      SingleStep sampleConfig sampleDelivery true 1 ⟨reviewedSystem events, w⟩
        ⟨reviewedSystem (events ++ [event]), w⟩ := by
    intro w events event hlength hfinish
    refine ⟨oneExecution_of_length hlength, ?_⟩
    have hstep := @HandledStep.scheduled Unit sampleConfig sampleDelivery true 1 (fun _ => True)
      ⟨reviewedSystem events, w⟩ event trivial (by
        intro hresult
        obtain ⟨id, outcome, now, _, hevent, _⟩ := hresult
        exact hfinish id outcome now hevent)
    unfold reviewedSystem at hstep ⊢
    rwa [run_append]
  have hexec := exec_finish (serves_respondFixed githubMerged ⟨1, readyForHumanReview⟩)
    (observationStage sampleDelivery claimedReview) deliveredWorld
  have hreturned : observedMerge.1 = .returned (.advance mergedOutcome) :=
    advancesBy_eq_some (by decide +kernel)
  have hclaimed := hscheduled deliveredWorld [] (sampleClaim "a" .delivery 0) (by decide)
    (by intro _ _ _ hevent; cases hevent)
  have hread := hscheduled deliveredWorld [sampleClaim "a" .delivery 0] (.readTask 0 false)
    (by decide) (by intro _ _ _ hevent; cases hevent)
  have hcontrols := hscheduled deliveredWorld [sampleClaim "a" .delivery 0, .readTask 0 false]
    (.readControls 0 false false 0) (by decide) (by intro _ _ _ hevent; cases hevent)
  -- The handler runs once, and its result goes to the run that started it.
  have hobserved : SingleStep sampleConfig sampleDelivery true 1
      ⟨reviewedSystem [sampleClaim "a" .delivery 0, .readTask 0 false,
        .readControls 0 false false 0], deliveredWorld⟩
      ⟨reviewedSystem [sampleClaim "a" .delivery 0, .readTask 0 false,
        .readControls 0 false false 0, .finish 0 (.advance mergedOutcome) 0],
        observedMerge.2⟩ := by
    refine ⟨oneExecution_of_length (by decide), ?_⟩
    exact @HandledStep.handled Unit sampleConfig sampleDelivery true 1 (fun _ => True) _
      (fixedServices githubMerged)
      { id := 0, workerId := "a", taskId := 1, phase := .running claimedReview } claimedReview _
      observedMerge.1 (.finish 0 (.advance mergedOutcome) 0) observedMerge.2
      (List.mem_singleton.mpr rfl) rfl rfl rfl hexec (by rw [hreturned]; exact .returned)
  have happlied := hscheduled observedMerge.2 [sampleClaim "a" .delivery 0, .readTask 0 false,
    .readControls 0 false false 0, .finish 0 (.advance mergedOutcome) 0] (.perform 0 0 none)
    (by decide) (by intro _ _ _ hevent; cases hevent)
  have hrun := ((((ReflTransGen.single hclaimed).tail hread).tail hcontrols).tail
    hobserved).tail happlied
  have hrow : ∃ row, (reviewedSystem [sampleClaim "a" .delivery 0, .readTask 0 false,
      .readControls 0 false false 0, .finish 0 (.advance mergedOutcome) 0,
      .perform 0 0 none]).store.getTask 1 = some row ∧ row.state = completed :=
    ⟨_, rfl, by decide⟩
  obtain ⟨row, hrow, hcompleted⟩ := hrow
  exact completed_task_merged hnew hrun hrow hcompleted

end Orchestrator
