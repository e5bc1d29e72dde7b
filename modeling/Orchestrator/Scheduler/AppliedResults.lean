import Orchestrator.Scheduler.MergedTasks
import Orchestrator.Scheduler.StageBudget

/-! # Advances of handlers are never refused

A handler asks only for transitions that the state machine has from the state it was started
in, and until an operator retries the task the row keeps that state as long as the run holds
the lease. So the transaction that applies an advance can fail in one way: the lease is gone. The
pause of a limited run has no fence on the state, and nothing is said about it here.
-/

namespace Orchestrator

open Kit TaskState Relation

/-! ## What handlers ask for -/

/-- An advance is a transition of the state machine that needs no resume state. -/
def StageOutcome.Legal (task : Task) (outcome : StageOutcome) : Prop :=
  ∀ advance, outcome = .advance advance → TransitionAllowed task.state advance.toState none

section Legal

variable {deps : DeliveryDependencies} {task : Task}

theorem allowed_of_canTransition {source target : TaskState}
    (hcan : canTransition source target = true) (htarget : target ∉ pauseStates) :
    TransitionAllowed source target none := by
  refine ⟨hcan, ?_⟩
  intro hpause
  exact absurd hpause htarget

theorem allowed_blocked {state : TaskState} (h : ExecutableStage state) :
    TransitionAllowed state blocked none := by
  refine allowed_of_canTransition (canTransition_blocked_iff.mpr ?_) (by decide)
  revert h
  cases state <;> decide

theorem legal_manualIntervention (hstage : ExecutableStage task.state) (message reason : String) :
    (manualIntervention message reason).Legal task := by
  intro advance hadvance
  cases hadvance
  exact allowed_blocked hstage

/-- The moves of every stage but the observations are on the map. -/
theorem legal_of_moves {deps : StageDependencies} {outcome : StageOutcome}
    (hstage : ExecutableStage task.state)
    (hother : task.state ∉ [waitingCi, readyForHumanReview]) (h : outcome.Moves deps task) :
    outcome.Legal task := by
  intro advance hadvance
  rw [hadvance] at h
  have hmove : StageMove deps task advance.toState advance.incrementCounter := h
  have hsingle : ∀ {source target : TaskState}, task.state = source →
      canTransition source target = true → target ∉ pauseStates →
      TransitionAllowed task.state target none := by
    intro source target hsource hcan htarget
    rw [hsource]
    exact allowed_of_canTransition hcan htarget
  generalize advance.toState = toState at hmove ⊢
  generalize advance.incrementCounter = counter at hmove
  cases hmove with
  | blocked => exact allowed_blocked hstage
  | failed hstate =>
      refine allowed_of_canTransition ?_ (by decide)
      revert hstate
      cases task.state <;> decide
  | observed hstate _ => exact absurd hstate hother
  | analyzed hstate => exact hsingle hstate rfl (by decide)
  | prepared hstate => exact hsingle hstate rfl (by decide)
  | implemented hstate _ => exact hsingle hstate rfl (by decide)
  | rejected hstate _ => exact hsingle hstate rfl (by decide)
  | exhausted hstate _ => exact hsingle hstate rfl (by decide)
  | reused hstate => exact hsingle hstate rfl (by decide)
  | passed hstate => exact hsingle hstate rfl (by decide)
  | qualityFix hstate _ => exact hsingle hstate rfl (by decide)
  | fixed hstate => exact hsingle hstate rfl (by decide)
  | approved hstate => exact hsingle hstate rfl (by decide)
  | reviewFix hstate _ => exact hsingle hstate rfl (by decide)
  | delivered hstate => exact hsingle hstate rfl (by decide)

theorem legal_wait (outcome : WaitOutcome) : (StageOutcome.wait outcome).Legal task := by
  intro advance hadvance
  cases hadvance

theorem legal_poll (reason : String) : (poll deps reason).Returns (StageOutcome.Legal task) := by
  refine returns_rest ?_
  intro _ advance hadvance
  cases hadvance

theorem legal_advanceObserved {observed : List ObservedUnit} {toState : TaskState}
    {reason : String}
    (hcan : canTransition task.state toState = true) (htarget : toState ∉ pauseStates) :
    (advanceObserved observed toState reason).Returns (StageOutcome.Legal task) := by
  refine returns_rest ?_
  intro _ advance hadvance
  cases hadvance
  exact allowed_of_canTransition hcan htarget

/-- Only `READY_FOR_HUMAN_REVIEW` completes a task, and neither state is entered again. -/
theorem legal_decideDelivery (hstate : task.state ∈ [waitingCi, readyForHumanReview])
    (observed : List ObservedUnit) :
    (decideDelivery deps task observed).Returns (StageOutcome.Legal task) := by
  have hstage : ExecutableStage task.state := by
    revert hstate
    cases task.state <;> decide
  have hother : task.state ≠ waitingCi → task.state = readyForHumanReview := by
    intro hne
    simpa [hne] using hstate
  unfold decideDelivery
  dsimp only
  split_ifs with _ _ _ hready
  · exact returns_rest fun _ => returns_rest fun _ => legal_manualIntervention hstage _ _
  · unfold decideMerged
    split_ifs with hwaiting
    · refine legal_advanceObserved ?_ (by decide)
      rw [hwaiting]
      rfl
    · refine returns_rest fun _ => legal_advanceObserved ?_ (by decide)
      rw [hother hwaiting]
      rfl
  · unfold decideReviewable
    split_ifs with hreview
    · exact legal_poll _
    · refine returns_rest fun _ => legal_advanceObserved ?_ (by decide)
      have hwaiting : task.state = waitingCi := by
        simpa [hreview] using hstate
      rw [hwaiting]
      rfl
  · refine legal_advanceObserved ?_ (by decide)
    rw [hready]
    rfl
  · exact legal_poll _

theorem legal_observationStage (hstate : task.state ∈ [waitingCi, readyForHumanReview]) :
    (observationStage deps task).Returns (StageOutcome.Legal task) := by
  have hstage : ExecutableStage task.state := by
    revert hstate
    cases task.state <;> decide
  refine returns_tryCatch ?_ ?_
  · refine returns_rest fun contract => returns_rest fun units => ?_
    split_ifs
    · exact legal_manualIntervention hstage _ _
    · refine returns_bind (returns_collect (R := StageOutcome.Legal task) ?_ _) ?_
      · intro unit
        refine returns_rest fun aborted => ?_
        split_ifs
        · intro advance hadvance
          cases hadvance
        · exact returns_rest fun _ => returns_rest fun _ => trivial
      · rintro (outcome | observed) hearly
        · exact hearly
        · exact legal_decideDelivery hstate observed
  · intro failure
    refine returns_bind (returns_classifyDeliveryError (P := StageOutcome.Legal task)
      legal_wait (legal_manualIntervention hstage) failure) ?_
    rintro ⟨outcome, category⟩ houtcome
    exact houtcome

/-- The handlers of the two observing states are the observation. -/
theorem legal_handler {deliver : Bool} {handler : StageProc StageOutcome}
    (hstate : task.state ∈ [waitingCi, readyForHumanReview])
    (hhandler : executionHandler deps deliver task = some handler) :
    handler.Returns (StageOutcome.Legal task) := by
  have hobserves : handler = observationStage deps task := by
    unfold executionHandler at hhandler
    rcases List.mem_cons.mp hstate with hwaiting | hready
    · rw [hwaiting] at hhandler
      dsimp only at hhandler
      split_ifs at hhandler
      exact (Option.some.inj hhandler).symm
    · rw [List.mem_singleton.mp hready] at hhandler
      dsimp only at hhandler
      split_ifs at hhandler
      exact (Option.some.inj hhandler).symm
  rw [hobserves]
  exact legal_observationStage hstate

end Legal

/-! ## Runs that ask for legal transitions -/

/-- A running stage is executable, and a result that is about to be applied is legal. -/
structure LegalRuns (taskId : TaskId) (s : System) : Prop where
  running : ∀ run ∈ s.runs.rows, run.taskId = taskId → ∀ stage, run.phase = .running stage →
    ExecutableStage stage.state
  applying : ∀ run ∈ s.runs.rows, run.taskId = taskId → ∀ stage outcome now,
    run.phase = .applying stage outcome now → outcome.Legal stage

section System

variable {config : SchedulerConfig} {taskId : TaskId} {s : System} {event : Event}

theorem not_running_boundaryPhase {task stage : Task} {stopping : Bool} :
    boundaryPhase task stopping ≠ .running stage := by
  unfold boundaryPhase
  split_ifs <;> (intro hphase; cases hphase)

theorem not_applying_boundaryPhase {task stage : Task} {stopping : Bool} {outcome : StageOutcome}
    {now : Instant} : boundaryPhase task stopping ≠ .applying stage outcome now := by
  unfold boundaryPhase
  split_ifs <;> (intro hphase; cases hphase)

theorem not_applying_gatePhase {controls : OrchestratorControls} {forceKillSwitch : Bool}
    {task stage : Task} {now at' : Instant} {outcome : StageOutcome} :
    gatePhase config controls forceKillSwitch task now ≠ .applying stage outcome at' := by
  unfold gatePhase
  dsimp only
  split_ifs <;> (intro hphase; cases hphase)

/-- A stage starts only when the schedule permits it, and a result comes from its handler. -/
theorem LegalRuns.step (h : LegalRuns taskId s)
    (hresult : ∀ run ∈ s.runs.rows, run.taskId = taskId → ∀ stage outcome now,
      run.phase = .running stage → event = .finish run.id outcome now → outcome.Legal stage) :
    LegalRuns taskId (step config s event) := by
  constructor
  · intro run' hrun' htask stage hphase
    rcases step_runs hrun' with ⟨run, hrun, hchange⟩ | ⟨task, hstarted⟩
    · have hsame : run.taskId = taskId := hchange.same.2.2.symm.trans htask
      cases hchange with
      | kept => exact h.running run' hrun hsame stage hphase
      | flagged _ => exact h.running run hrun hsame stage hphase
      | checked _ _ _ => exact absurd hphase not_running_boundaryPhase
      -- The gate opens only for a stage on the map.
      | @gated task forceKillSwitch now abortReason _ =>
          have hgate : gatePhase config s.store.getControls forceKillSwitch task now =
              .running stage := hphase
          have honMap := @onMap_gatePhase config s.store.getControls forceKillSwitch task now
            { run with phase := .running stage } hgate.symm
          exact honMap
      | finished _ _ _ => cases hphase
      | interrupted _ _ => cases hphase
      | advanced _ => cases hphase
      | failed => cases hphase
      | handedBack _ _ => cases hphase
    · rw [hstarted.run] at hphase
      cases hphase
  · intro run' hrun' htask stage outcome now hphase
    rcases step_runs hrun' with ⟨run, hrun, hchange⟩ | ⟨task, hstarted⟩
    · have hsame : run.taskId = taskId := hchange.same.2.2.symm.trans htask
      cases hchange with
      | kept => exact h.applying run' hrun hsame stage outcome now hphase
      | flagged _ => exact h.applying run hrun hsame stage outcome now hphase
      | checked _ _ _ => exact absurd hphase not_applying_boundaryPhase
      | gated _ => exact absurd hphase not_applying_gatePhase
      | finished hevent hran _ =>
          -- The result of the handler that ran, which is a move of its stage.
          cases hphase
          exact hresult run hrun hsame _ _ _ hran hevent
      | interrupted _ _ => cases hphase
      | advanced _ => cases hphase
      | failed => cases hphase
      | handedBack _ _ => cases hphase
    · rw [hstarted.run] at hphase
      cases hphase

end System

/-! ## Runs of the workers -/

section Runs

variable {ω : Type} {config : SchedulerConfig} {deps : DeliveryDependencies} {deliver : Bool}
  {taskId : TaskId} {h₀ h h' : Handled ω}

theorem EndsIn.finish {id id' : Nat} {ending : Ending StageError StageOutcome}
    {outcome : StageOutcome} {now : Instant} (h : EndsIn id ending (.finish id' outcome now)) :
    id' = id ∧ ending = .returned outcome := by
  generalize hevent : Event.finish id' outcome now = event at h
  cases h with
  | returned =>
      cases hevent
      exact ⟨rfl, rfl⟩
  | threw => cases hevent
  | crashed => cases hevent

theorem LegalRuns.handledStep (hlegal : LegalRuns taskId h.system)
    (hinv : HandledOnce deps.toStageDependencies taskId h)
    (hstep : HandledStep config deps deliver taskId (Event.Unretried taskId) h h') :
    LegalRuns taskId h'.system := by
  cases hstep with
  | scheduled hallowed hresult =>
      refine hlegal.step ?_
      intro run hrun htask stage outcome now _ hevent
      exact absurd ⟨run.id, outcome, now, run, hevent, Table.find?_of_mem hrun, htask⟩ hresult
  | @handled _ ran task handler ending event w' hran htask hphase hhandler hexec hends =>
      refine hlegal.step ?_
      intro run hrun hsame stage outcome now hstage hevent
      have hmoves := (hinv.result hran htask hphase hhandler hexec hends).2 run.id outcome now run
        stage hevent (Table.find?_of_mem hrun) hsame hstage
      have hexecutable := hlegal.running run hrun hsame stage hstage
      by_cases hobserving : stage.state ∈ [waitingCi, readyForHumanReview]
      · -- The event is the end of this run's handler.
        rw [hevent] at hends
        obtain ⟨hid, hreturned⟩ := hends.finish
        have hfound := Table.find?_of_mem hrun
        rw [hid, Table.find?_of_mem hran] at hfound
        cases hfound
        rw [hphase] at hstage
        cases hstage
        rw [hreturned] at hexec
        exact hexec.returns (legal_handler hobserving hhandler)
      · exact legal_of_moves hexecutable hobserving hmoves
  | elsewhere => exact hlegal
  | outside => exact hlegal

/-- In every state that the workers reach without a retry of the task, the transaction that
applies an advance moves the row to the state that the handler asked for if the run still holds
the lease, and otherwise fails with the lease error: no advance is an invalid transition. -/
theorem result_applied_or_lease_lost (hnew : Unstarted taskId h₀)
    (hrun : ReflTransGen (HandledStep config deps deliver taskId (Event.Unretried taskId)) h₀ h)
    {run : RunEntry} (hmem : run ∈ h.system.runs.rows) (htask : run.taskId = taskId)
    {stage : Task} {outcome : AdvanceOutcome} {now : Instant}
    (hphase : run.phase = .applying stage (.advance outcome) now) (clock : Instant) :
    ∃ row, h.system.store.getTask taskId = some row ∧
      ((row.leaseOwner = some run.workerId ∧ ∃ store moved,
          transitionTask h.system.store (advanceInput run stage outcome) clock =
            .ok (store, moved) ∧ moved.state = outcome.toState ∧ row.state = stage.state) ∨
        (row.leaseOwner ≠ some run.workerId ∧
          transitionTask h.system.store (advanceInput run stage outcome) clock =
            .error (.leaseOwnership taskId))) := by
  have hinv : HandledOnce deps.toStageDependencies taskId h ∧ LegalRuns taskId h.system := by
    clear hmem
    -- Induction on the run: one handler at a time, each result a move its stage has.
    induction hrun with
    | refl =>
        refine ⟨hnew.handledOnce, ?_, ?_⟩
        · intro run hrun htask
          exact absurd htask (hnew.idle run hrun)
        · intro run hrun htask
          exact absurd htask (hnew.idle run hrun)
    | tail _ hstep ih => exact ⟨ih.1.step hstep, ih.2.handledStep ih.1 hstep⟩
  obtain ⟨hsole, hlegal⟩ := hinv
  obtain ⟨row, hrow⟩ := hsole.sole.row
  have hsnapshot := (hsole.sole.current run hmem htask stage (by rw [hphase]; rfl)).2 row hrow
  have hallowed := hlegal.applying run hmem htask stage _ now hphase outcome rfl
  have hread : h.system.store.getTask (advanceInput run stage outcome).taskId = some row := by
    rw [← hrow, ← htask]
    rfl
  refine ⟨row, hrow, ?_⟩
  by_cases howner : row.leaseOwner = some run.workerId
  -- Under the lease the row is in the state the handler read.
  · have hstate := (hsnapshot howner).state
    refine Or.inl ⟨howner, h.system.store.moved row (advanceInput run stage outcome).locked clock,
      row.moved (advanceInput run stage outcome).locked clock, ?_, rfl, hstate⟩
    apply transitionTask_eq_ok_iff.mpr
    refine ⟨row, hread, leasePermits_advance.mpr howner, ?_, rfl, rfl⟩
    rw [hstate]
    exact hallowed
  · refine Or.inr ⟨howner, ?_⟩
    have hrefused : ¬ LeasePermits row (advanceInput run stage outcome).locked := fun hpermits =>
      howner (leasePermits_advance.mp hpermits)
    have hid : row.id = taskId := (Store.getTask_eq_some_iff.mp hrow).2
    unfold transitionTask transitionLockedTask
    rw [hread]
    dsimp only
    rw [leaseGuard_eq_error hrefused, hid]
    rfl

end Runs

/-- A worker has observed the merge of the sample task and is about to complete it. -/
def completingRun : RunEntry where
  id := 0
  workerId := "a"
  taskId := 1
  phase := .applying claimedReview (.advance mergedOutcome) 0

theorem result_applied_observed :
    ∃ store moved, transitionTask
        (reviewedSystem [sampleClaim "a" .delivery 0, .readTask 0 false,
          .readControls 0 false false 0, .finish 0 (.advance mergedOutcome) 0]).store
        (advanceInput completingRun claimedReview mergedOutcome) 5 = .ok (store, moved) ∧
      moved.state = completed := by
  have hnew : Unstarted 1 (⟨reviewedSystem [], deliveredWorld⟩ : Handled Unit) := by
    constructor
    · exact ⟨sampleTask 1 readyForHumanReview, rfl, rfl, rfl, rfl⟩
    · intro run hrun
      cases hrun
    · intro key
      rfl
  have hscheduled : ∀ (events : List Event) (event : Event), event.Unretried 1 →
      (∀ id outcome now, event ≠ .finish id outcome now) →
      HandledStep sampleConfig sampleDelivery true 1 (Event.Unretried 1)
        ⟨reviewedSystem events, deliveredWorld⟩
        ⟨reviewedSystem (events ++ [event]), deliveredWorld⟩ := by
    intro events event hevent hfinish
    have hstep := @HandledStep.scheduled Unit sampleConfig sampleDelivery true 1
      (Event.Unretried 1) ⟨reviewedSystem events, deliveredWorld⟩ event hevent (by
        intro hresult
        obtain ⟨id, outcome, now, _, hsame, _⟩ := hresult
        exact hfinish id outcome now hsame)
    unfold reviewedSystem at hstep ⊢
    rwa [run_append]
  have hreturned : observedMerge.1 = .returned (.advance mergedOutcome) :=
    advancesBy_eq_some (by decide +kernel)
  have hclaimed := hscheduled [] (sampleClaim "a" .delivery 0)
    (by intro _ _ hevent; cases hevent) (by intro _ _ _ hevent; cases hevent)
  have hread := hscheduled [sampleClaim "a" .delivery 0] (.readTask 0 false)
    (by intro _ _ hevent; cases hevent) (by intro _ _ _ hevent; cases hevent)
  have hcontrols := hscheduled [sampleClaim "a" .delivery 0, .readTask 0 false]
    (.readControls 0 false false 0)
    (by intro _ _ hevent; cases hevent) (by intro _ _ _ hevent; cases hevent)
  have hobserved := @HandledStep.handled Unit sampleConfig sampleDelivery true 1
    (Event.Unretried 1)
    ⟨reviewedSystem [sampleClaim "a" .delivery 0, .readTask 0 false,
      .readControls 0 false false 0], deliveredWorld⟩
    (fixedServices githubMerged)
    { id := 0, workerId := "a", taskId := 1, phase := .running claimedReview } claimedReview _
    observedMerge.1 (.finish 0 (.advance mergedOutcome) 0) observedMerge.2
    (List.mem_singleton.mpr rfl) rfl rfl rfl
    (exec_finish (serves_respondFixed githubMerged ⟨1, readyForHumanReview⟩) _ _)
    (by rw [hreturned]; exact .returned)
  have hrun := (((ReflTransGen.single hclaimed).tail hread).tail hcontrols).tail hobserved
  have hmem : completingRun ∈
      (reviewedSystem [sampleClaim "a" .delivery 0, .readTask 0 false,
        .readControls 0 false false 0, .finish 0 (.advance mergedOutcome) 0]).runs.rows :=
    List.mem_singleton.mpr rfl
  obtain ⟨row, hrow, ⟨_, store, moved, hmoved, hstate, _⟩ | ⟨hlost, _⟩⟩ :=
    result_applied_or_lease_lost hnew hrun hmem rfl rfl 5
  · exact ⟨store, moved, hmoved, hstate⟩
  · -- Worker `a` holds the lease.
    cases hrow
    exact absurd rfl hlost

end Orchestrator
