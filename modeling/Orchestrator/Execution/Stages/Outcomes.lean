import Orchestrator.Execution.Stages.RoutineCalls

/-! # Where a stage goes

The moves of the state machine that the handlers ask for, with the counter each of them
raises and the limit checked before it. Every outcome of a handler is one of them.
-/

namespace Orchestrator

open Kit TaskState

/-- The moves out of the state of `task`: the next state, and the counter that is raised. -/
inductive StageMove (deps : StageDependencies) (task : Task) :
    TaskState → Option AttemptCounter → Prop
  | blocked : StageMove deps task blocked none
  | failed (hstate : task.state ∈ [implementing, testing, reviewing]) :
      StageMove deps task failed none
  | analyzed (hstate : task.state = analyzing) : StageMove deps task ready none
  | prepared (hstate : task.state = ready) : StageMove deps task implementing none
  | implemented (hstate : task.state = implementing)
      (hlimit : task.implementationAttempts < deps.config.maxImplementationAttempts) :
      StageMove deps task testing (some .implementationAttempts)
  | rejected (hstate : task.state = implementing)
      (hlimit : task.implementationAttempts < deps.config.maxImplementationAttempts) :
      StageMove deps task ready (some .implementationAttempts)
  | exhausted (hstate : task.state = implementing)
      (hlimit : task.implementationAttempts < deps.config.maxImplementationAttempts) :
      StageMove deps task failed (some .implementationAttempts)
  | reused (hstate : task.state = implementing) : StageMove deps task testing none
  | passed (hstate : task.state = testing) : StageMove deps task reviewing none
  | qualityFix (hstate : task.state = testing)
      (hlimit : task.qualityFixAttempts < deps.maxQualityFixAttempts) :
      StageMove deps task fixing (some .qualityFixAttempts)
  | fixed (hstate : task.state = fixing) : StageMove deps task testing none
  | approved (hstate : task.state = reviewing) : StageMove deps task prCreated none
  | reviewFix (hstate : task.state = reviewing)
      (hlimit : task.reviewAttempts < deps.maxReviewCycles) :
      StageMove deps task fixing (some .reviewAttempts)
  | delivered (hstate : task.state = prCreated) : StageMove deps task waitingCi none
  | observed (hstate : task.state ∈ [waitingCi, readyForHumanReview]) {toState : TaskState}
      (hto : toState ∈ [waitingCi, readyForHumanReview, completed]) :
      StageMove deps task toState none

/-- An outcome that advances makes a move. -/
def StageOutcome.Moves (deps : StageDependencies) (task : Task) : StageOutcome → Prop
  | .advance outcome => StageMove deps task outcome.toState outcome.incrementCounter
  | _ => True

section Support

variable {deps : StageDependencies} {task : Task} {loaded : LoadedWorkspaces}

/-- A stage that gives up blocks its task, which every state allows. -/
theorem moves_manualIntervention (message reason : String) :
    (manualIntervention message reason).Moves deps task := .blocked

/-- A pause is no advance; where it leads is the scheduler's business. -/
theorem moves_pauseLimit (outcome : PauseLimitOutcome) :
    (StageOutcome.pauseLimit outcome).Moves deps task := trivial

/-- A runner result that stops a stage does not advance it. -/
theorem returns_pauseOrInterruption {T : Type} (result : AgentRunResult T) :
    (pauseOrInterruption deps result).Returns fun stopped =>
      ∀ outcome category, stopped = some (outcome, category) →
        ∀ task, outcome.Moves deps task := by
  cases result with
  | usageLimit message retryAfter =>
      rintro _ _ ⟨⟩ task
      exact moves_pauseLimit _
  | rateLimit message retryAfter =>
      cases retryAfter with
      | some retryAfter =>
          rintro _ _ ⟨⟩ task
          exact moves_pauseLimit _
      | none =>
          apply returns_rest
          rintro now _ _ ⟨⟩ task
          exact moves_pauseLimit _
  | cancelled message =>
      rintro _ _ ⟨⟩ task
      exact trivial
  | _ => rintro _ _ ⟨⟩

end Support

/-! ## `ANALYZING` and `READY` -/

section Analyzing

variable {deps : StageDependencies} {task : Task} {loaded : LoadedWorkspaces}

theorem returns_preparationFailed (failure : StageError) :
    (preparationFailed deps failure).Returns (EarlyIn (StageOutcome.Moves deps task)) := by
  unfold preparationFailed
  split
  · exact returns_rest fun _ => trivial
  · exact trivial

theorem returns_prepareUnit (branch : String) (unit : WorkUnitRow) :
    (prepareUnit deps task branch unit).Returns (EarlyIn (StageOutcome.Moves deps task)) := by
  refine returns_rest fun aborted => ?_
  split_ifs
  · exact trivial
  · refine returns_tryCatch ?_ returns_preparationFailed
    exact returns_rest fun workspace => returns_rest fun _ => trivial

/-- Preparation makes no move of its own: it stops its task, or the stage behind it decides. -/
theorem returns_preparationStage {next : StageProc StageOutcome}
    (hnext : next.Returns (StageOutcome.Moves deps task)) :
    (preparationStage deps task (some next)).Returns (StageOutcome.Moves deps task) := by
  refine returns_rest fun contract => ?_
  split
  · exact trivial
  · refine returns_rest fun blockers => ?_
    split_ifs
    · exact trivial
    · refine returns_rest fun units => ?_
      dsimp only
      split_ifs
      · exact trivial
      · refine returns_bind (returns_collect (returns_prepareUnit _) _) ?_
        rintro (outcome | prepared) hearly
        · exact hearly
        · exact returns_rest fun _ => hnext

theorem returns_analysisResult (hstate : task.state = analyzing) (digest : String) (attempt : Nat)
    (usage : Option AgentUsage) (result : AgentRunResult AnalysisResult) :
    (analysisResult deps loaded digest attempt usage result).Returns
      (StageOutcome.Moves deps task) := by
  refine returns_bind (returns_pauseOrInterruption result) ?_
  rintro (_ | ⟨outcome, category⟩) hstopped
  · dsimp only
    split
    · split_ifs
      · exact returns_rest fun _ => moves_manualIntervention _ _
      · exact returns_rest fun _ => moves_manualIntervention _ _
      · exact returns_rest fun _ => returns_rest fun _ => .analyzed hstate
    · exact returns_rest fun _ => moves_manualIntervention _ _
    · exact trivial
  · exact returns_rest fun _ => hstopped outcome category rfl task

/-- `ANALYZING` goes to `READY`, or stops. -/
theorem returns_analysisStage (hstate : task.state = analyzing) :
    (analysisStage deps task).Returns (StageOutcome.Moves deps task) := by
  refine returns_rest fun loaded => returns_rest fun accepted => ?_
  split_ifs
  · exact .analyzed hstate
  · refine returns_rest fun _ => returns_rest fun model => returns_rest fun attempt => ?_
    refine returns_rest fun before => returns_rest fun result => returns_rest fun afterwards => ?_
    split_ifs
    · exact returns_rest fun _ => moves_manualIntervention _ _
    · exact returns_analysisResult hstate _ _ _ _

theorem returns_setUpUnit (deps : StageDependencies) (task : Task) (attempt : Nat)
    (reports : List RepositoryQualityReport) (unit : LoadedUnit) :
    (setUpUnit attempt reports unit).Returns (EarlyIn (StageOutcome.Moves deps task)) := by
  refine returns_rest fun report => ?_
  by_cases haborted : report.aborted = true
  · rw [if_pos haborted]
    exact returns_rest fun _ => trivial
  · rw [if_neg haborted]
    by_cases hpassed : (!report.passed) = true
    · rw [if_pos hpassed]
      exact returns_rest fun _ => moves_manualIntervention _ _
    · rw [if_neg hpassed]
      exact trivial

/-- `READY` goes to `IMPLEMENTING`, or stops. -/
theorem returns_readyStage (hstate : task.state = ready) :
    (readyStage deps task).Returns (StageOutcome.Moves deps task) := by
  refine returns_rest fun loaded => returns_rest fun done => ?_
  dsimp only
  split_ifs
  · exact .prepared hstate
  · refine returns_rest fun attempt => ?_
    refine returns_bind (returns_collectFrom (returns_setUpUnit deps task attempt) [] _) ?_
    rintro (outcome | reports) hearly
    · exact hearly
    · exact returns_rest fun _ => returns_rest fun _ => returns_rest fun _ => .prepared hstate

end Analyzing

/-! ## `IMPLEMENTING` and `FIXING` -/

section Changes

variable {deps : StageDependencies} {task : Task} {loaded : LoadedWorkspaces}

theorem returns_stopAttempt (scope : Nat) {outcome : StageOutcome} (category : FailureCategory)
    (usage : Option AgentUsage) (houtcome : outcome.Moves deps task) :
    (stopAttempt deps loaded scope outcome category usage).Returns
      (StageOutcome.Moves deps task) := by
  unfold stopAttempt
  split_ifs
  · exact returns_rest fun _ => returns_rest fun _ => houtcome
  · exact returns_rest fun _ => houtcome

theorem returns_agentBlocked (scope : Nat) (agent : String) (usage : Option AgentUsage)
    (output : ChangeResult) :
    (agentBlocked deps loaded scope agent usage output).Returns
      (StageOutcome.Moves deps task) :=
  returns_rest fun _ => returns_rest fun _ => moves_manualIntervention _ _

/-- The implementation can be reused within the limit. -/
theorem returns_reuseImplementation (hstate : task.state = implementing)
    {committed : ImplementationCheckpoint}
    (hlimit : committed.implementationAttempt ≤ deps.config.maxImplementationAttempts) :
    (reuseImplementation task loaded committed).Returns (StageOutcome.Moves deps task) := by
  refine returns_bind (returns_collect (R := StageOutcome.Moves deps task) ?_ _) ?_
  · intro unit
    unfold committedUnit
    dsimp only
    split
    · exact moves_manualIntervention _ _
    · refine returns_rest fun ancestor => ?_
      split_ifs
      · exact trivial
      · exact moves_manualIntervention _ _
  · rintro (outcome | reused) hearly
    · exact hearly
    · show StageMove deps task testing (if _ then _ else _)
      split_ifs with hcounted
      · exact .implemented hstate (by omega)
      · exact .reused hstate

/-- A rejected change is tried again in `IMPLEMENTING` only below the limit of attempts. -/
theorem returns_rejectImplementation (hstate : task.state = implementing)
    (hlimit : task.implementationAttempts < deps.config.maxImplementationAttempts)
    (scope attempt : Nat) (category : FailureCategory) (detail : String)
    (usage : Option AgentUsage) (evidence : AttemptEvidence) :
    (rejectImplementation deps loaded scope attempt category detail usage evidence).Returns
      (StageOutcome.Moves deps task) := by
  refine returns_rest fun _ => returns_rest fun _ => returns_rest fun _ => ?_
  dsimp only
  split_ifs
  · exact .exhausted hstate hlimit
  · exact .rejected hstate hlimit

/-- A change that passes the inspection goes to `TESTING` and is counted. -/
theorem returns_applyImplementation (hstate : task.state = implementing)
    (hlimit : task.implementationAttempts < deps.config.maxImplementationAttempts)
    (plan : AnalysisResult) (scope attempt : Nat) (usage : Option AgentUsage)
    (output : ChangeResult) :
    (applyImplementation deps task loaded plan scope attempt usage output).Returns
      (StageOutcome.Moves deps task) := by
  refine returns_rest ?_
  rintro (⟨commits, evidence⟩ | ⟨detail, violations, evidence⟩ | detail)
  · exact returns_rest fun _ => returns_rest fun _ => .implemented hstate hlimit
  · exact returns_rejectImplementation hstate hlimit _ _ _ _ _ _
  · exact returns_rest fun _ => moves_manualIntervention _ _

theorem returns_implementationResult (hstate : task.state = implementing)
    (hlimit : task.implementationAttempts < deps.config.maxImplementationAttempts)
    (plan : AnalysisResult) (scope attempt : Nat) (usage : Option AgentUsage)
    (result : AgentRunResult ChangeResult) :
    (implementationResult deps task loaded plan scope attempt usage result).Returns
      (StageOutcome.Moves deps task) := by
  refine returns_bind (returns_pauseOrInterruption result) ?_
  rintro (_ | ⟨outcome, category⟩) hstopped
  · dsimp only
    split
    · split_ifs
      · exact returns_agentBlocked _ _ _ _
      · exact returns_applyImplementation hstate hlimit _ _ _ _ _
    · exact returns_rejectImplementation hstate hlimit _ _ _ _ _ _
    · exact trivial
  · exact returns_stopAttempt _ _ _ (hstopped outcome category rfl task)

theorem returns_dismissFix (hstate : task.state = fixing) (scope : Nat) (request : FixRequest)
    (category : FailureCategory) (reason : String) (usage : Option AgentUsage)
    (evidence : AttemptEvidence) :
    (dismissFix scope request category reason usage evidence).Returns
      (StageOutcome.Moves deps task) :=
  returns_rest fun _ => returns_rest fun _ => .fixed hstate

/-- Whatever the fixer answers, `FIXING` goes back to `TESTING`, or stops. -/
theorem returns_fixResult (hstate : task.state = fixing) (plan : AnalysisResult) (scope : Nat)
    (request : FixRequest) (usage : Option AgentUsage) (result : AgentRunResult ChangeResult) :
    (fixResult deps task loaded plan scope request usage result).Returns
      (StageOutcome.Moves deps task) := by
  refine returns_bind (returns_pauseOrInterruption result) ?_
  rintro (_ | ⟨outcome, category⟩) hstopped
  · dsimp only
    split
    · split_ifs
      · exact returns_agentBlocked _ _ _ _
      · refine returns_rest ?_
        rintro (⟨commits, evidence⟩ | ⟨detail, violations, evidence⟩ | detail)
        · exact returns_rest fun _ => returns_rest fun _ => .fixed hstate
        · exact returns_dismissFix hstate _ _ _ _ _ _
        · exact returns_rest fun _ => moves_manualIntervention _ _
    · exact returns_rest fun _ => returns_dismissFix hstate _ _ _ _ _ _
    · exact trivial
  · exact returns_stopAttempt _ _ _ (hstopped outcome category rfl task)

/-- A concluded request takes `FIXING` to `TESTING` as well, without a fixer run. -/
theorem returns_fixingStage (hstate : task.state = fixing) :
    (fixingStage deps task).Returns (StageOutcome.Moves deps task) := by
  refine returns_rest fun loaded => returns_rest ?_
  rintro (_ | request)
  · exact moves_manualIntervention _ _
  · refine returns_rest fun applied => ?_
    split_ifs
    · exact .fixed hstate
    · exact moves_manualIntervention _ _
    · refine returns_rest fun plan => returns_rest ?_
      rintro (_ | model)
      · exact moves_manualIntervention _ _
      · exact returns_rest fun _ => returns_rest fun scope => returns_rest fun run =>
          returns_fixResult hstate _ _ _ _ _

end Changes

/-! ## `TESTING` and `REVIEWING` -/

section Verification

variable {deps : StageDependencies} {task : Task} {loaded : LoadedWorkspaces}

theorem returns_testUnit (task : Task) (attempt : Nat) (reports : List RepositoryQualityReport)
    (unit : LoadedUnit) :
    (testUnit deps loaded attempt reports unit).Returns
      (EarlyIn (StageOutcome.Moves deps task)) := by
  refine returns_rest fun report => ?_
  split_ifs
  · exact returns_rest fun _ => returns_rest fun _ => trivial
  · split
    · exact returns_rest fun _ => returns_rest fun _ => moves_manualIntervention _ _
    · exact trivial

/-- `TESTING` goes to `REVIEWING`, or to `FIXING` while fixes are left, or stops. -/
theorem returns_testingStage (hstate : task.state = testing) :
    (testingStage deps task).Returns (StageOutcome.Moves deps task) := by
  refine returns_rest fun loaded => returns_rest fun passed => ?_
  split_ifs
  · exact .passed hstate
  · refine returns_rest fun _ => returns_rest fun attempt => ?_
    refine returns_bind (returns_collectFrom (returns_testUnit task attempt) [] _) ?_
    rintro (outcome | reports) hearly
    · exact hearly
    · refine returns_rest fun _ => ?_
      split_ifs
      · exact returns_rest fun _ => returns_rest fun _ => .passed hstate
      · refine returns_rest fun _ => ?_
        dsimp only
        split_ifs with hlimit
        · exact .failed (by simp [hstate])
        · exact returns_rest fun _ => .qualityFix hstate (by omega)

theorem moves_acceptedOutcome (hstate : task.state = reviewing) (deliver : Bool) :
    (acceptedOutcome deliver).Moves deps task := by
  cases deliver with
  | true => exact .approved hstate
  | false => exact .blocked

/-- A review that asks for changes goes to `FIXING` while review cycles are left. -/
theorem returns_requestReviewFix (hstate : task.state = reviewing) (attempt : Nat)
    (usage : Option AgentUsage) (output : ReviewResult) :
    (requestReviewFix deps task loaded attempt usage output).Returns
      (StageOutcome.Moves deps task) := by
  refine returns_rest fun _ => ?_
  dsimp only
  split_ifs with hlimit
  · exact .failed (by simp [hstate])
  · exact returns_rest fun _ => .reviewFix hstate (by omega)

theorem returns_reviewResult (hstate : task.state = reviewing) (deliver : Bool) (attempt : Nat)
    (usage : Option AgentUsage) (result : AgentRunResult ReviewResult) :
    (reviewResult deps task deliver loaded attempt usage result).Returns
      (StageOutcome.Moves deps task) := by
  refine returns_bind (returns_pauseOrInterruption result) ?_
  rintro (_ | ⟨outcome, category⟩) hstopped
  · dsimp only
    split
    · split_ifs
      · exact returns_rest fun _ => moves_manualIntervention _ _
      · unfold reviewVerdict
        split
        · exact returns_rest fun _ => returns_rest fun _ => moves_acceptedOutcome hstate deliver
        · exact returns_rest fun _ => moves_manualIntervention _ _
        · exact returns_requestReviewFix hstate _ _ _
    · exact returns_rest fun _ => moves_manualIntervention _ _
    · exact trivial
  · exact returns_rest fun _ => hstopped outcome category rfl task

/-- `REVIEWING` goes to `PR_CREATED`, or to `FIXING`, or stops. -/
theorem returns_reviewStage (hstate : task.state = reviewing) (deliver : Bool) :
    (reviewStage deps task deliver).Returns (StageOutcome.Moves deps task) := by
  refine returns_rest fun loaded => returns_rest fun approved => ?_
  split_ifs
  · exact moves_acceptedOutcome hstate deliver
  · refine returns_rest fun passed => ?_
    split_ifs
    · exact moves_manualIntervention _ _
    · refine returns_rest fun _ => returns_rest fun _ => returns_rest fun model => ?_
      refine returns_rest fun attempt => returns_rest fun before => returns_rest fun result => ?_
      refine returns_rest fun afterwards => ?_
      split_ifs
      · exact returns_rest fun _ => moves_manualIntervention _ _
      · exact returns_reviewResult hstate deliver _ _ _

end Verification

/-! ## Delivery -/

section Delivery

variable {deps : DeliveryDependencies} {task : Task}

/-- `PR_CREATED` goes to `WAITING_CI`, or stops. -/
theorem returns_pullRequestStage (hstate : task.state = prCreated) :
    (pullRequestStage deps task).Returns (StageOutcome.Moves deps.toStageDependencies task) := by
  have hfailed : ∀ attempt failure, (deliveryFailed deps task attempt failure).Returns
      (StageOutcome.Moves deps.toStageDependencies task) :=
    returns_deliveryFailed (fun _ => trivial) moves_manualIntervention
  refine returns_bind (returns_result (Q := fun begun =>
    EarlyIn (StageOutcome.Moves deps.toStageDependencies task) begun) ?_) ?_
  · refine returns_rest fun loaded => returns_rest fun approved => returns_rest fun passed => ?_
    split_ifs
    · exact moves_manualIntervention _ _
    · exact returns_rest fun _ => trivial
  · rintro (failure | (outcome | ⟨loaded, attempt⟩)) hbegun
    · exact hfailed _ _
    · exact hbegun _ rfl
    · refine returns_bind (returns_result (Q := StageOutcome.Moves deps.toStageDependencies task)
        ?_) ?_
      · refine returns_bind (returns_collect (R := StageOutcome.Moves deps.toStageDependencies task)
          ?_ _) ?_
        · intro unit
          refine returns_rest fun aborted => ?_
          split_ifs
          · exact trivial
          · exact returns_rest fun _ => returns_rest fun _ => returns_rest fun _ =>
              returns_rest fun _ => returns_rest fun _ => returns_rest fun _ =>
                returns_rest fun _ => trivial
        · rintro (outcome | delivered) hearly
          · exact hearly
          · exact returns_rest fun _ => returns_rest fun _ => .delivered hstate
      · rintro (failure | outcome) hends
        · exact hfailed _ _
        · exact hends _ rfl

/-- What was observed of the pull requests decides between waiting and `COMPLETED`. -/
theorem returns_decideDelivery (hstate : task.state ∈ [waitingCi, readyForHumanReview])
    (observed : List ObservedUnit) :
    (decideDelivery deps task observed).Returns
      (StageOutcome.Moves deps.toStageDependencies task) := by
  have hmove : ∀ (toState : TaskState) (reason : String),
      toState ∈ [waitingCi, readyForHumanReview, completed] →
      (advanceObserved observed toState reason).Returns
        (StageOutcome.Moves deps.toStageDependencies task) := by
    intro toState reason hto
    exact returns_rest fun _ => .observed hstate hto
  unfold decideDelivery
  dsimp only
  split_ifs
  · exact returns_rest fun _ => returns_rest fun _ => moves_manualIntervention _ _
  · unfold decideMerged
    split_ifs
    · exact hmove _ _ (by simp)
    · exact returns_rest fun _ => hmove _ _ (by simp)
  · unfold decideReviewable
    split_ifs
    · exact returns_rest fun _ => trivial
    · exact returns_rest fun _ => hmove _ _ (by simp)
  · exact hmove _ _ (by simp)
  · exact returns_rest fun _ => trivial

/-- Both delivery waits run the same stage, so they move the same way. -/
theorem returns_observationStage (hstate : task.state ∈ [waitingCi, readyForHumanReview]) :
    (observationStage deps task).Returns (StageOutcome.Moves deps.toStageDependencies task) := by
  refine returns_tryCatch ?_ ?_
  · refine returns_rest fun contract => returns_rest fun units => ?_
    split_ifs
    · exact moves_manualIntervention _ _
    · refine returns_bind (returns_collect (R := StageOutcome.Moves deps.toStageDependencies task)
        ?_ _) ?_
      · intro unit
        refine returns_rest fun aborted => ?_
        split_ifs
        · exact trivial
        · exact returns_rest fun _ => returns_rest fun _ => trivial
      · rintro (outcome | observed) hearly
        · exact hearly
        · exact returns_decideDelivery hstate observed
  · intro failure
    refine returns_bind (returns_classifyDeliveryError
      (P := StageOutcome.Moves deps.toStageDependencies task) (fun _ => trivial)
      moves_manualIntervention failure) ?_
    rintro ⟨outcome, category⟩ houtcome
    exact houtcome

end Delivery

/-! ## The recorded implementation -/

/-- The committed implementation of the task is of an attempt within the limit. -/
def StageTables.ImplementationWithin (tables : StageTables) (taskId : TaskId) (limit : Nat) :
    Prop :=
  ∀ committed, tables.getCheckpoint taskId .implementation = some (.implementation committed) →
    committed.implementationAttempt ≤ limit

/-- The call records no implementation of an attempt above the limit. -/
def StageCall.Within (limit : Nat) : StageCall → Prop
  | .database (.recordCheckpoint (.implementation committed)) =>
      committed.implementationAttempt ≤ limit
  | _ => True

section Within

variable {ω : Type} {services : Services ω} {taskId : TaskId} {limit : Nat}
  {writer : StageWriter} {w w' : StageWorld ω} {deps : StageDependencies} {task : Task}
  {loaded : LoadedWorkspaces}

/-- Routine calls record no implementation, so the limit does not concern them. -/
theorem within_of_routine {call : StageCall} (h : call.routine = true) : call.Within limit := by
  cases call with
  | database call =>
      cases call with
      | recordCheckpoint payload =>
          cases payload with
          | implementation committed => cases h
          | _ => exact trivial
      | _ => exact trivial
  | service call => exact trivial

theorem Routine.within {α : Type} {procedure : StageProc α} (h : Routine procedure) :
    procedure.Only (StageCall.Within limit) :=
  only_mono (fun _ => within_of_routine) h

/-- A call within the limit keeps the recorded implementation within it. -/
theorem implementationWithin_serves {call : StageCall} {answer : Except StageError call.Answer}
    (hserves : serves services writer w call answer w') (hcall : call.Within limit)
    (h : w.tables.ImplementationWithin taskId limit) :
    w'.tables.ImplementationWithin taskId limit := by
  cases call with
  | service call =>
      rcases hserves with ⟨outside, _, rfl⟩
      exact h
  | database call =>
      rcases hserves with ⟨holds, now, tables, value, hperform, rfl, _⟩ | ⟨rfl, _⟩
      · intro recorded hslot
        by_cases hwrites : ∃ payload, writer.taskId = taskId ∧ call = .recordCheckpoint payload ∧
            payload.key = .implementation
        · rcases hwrites with ⟨payload, rfl, rfl, hkey⟩
          cases hperform
          have hnow : (w.tables.recordCheckpoint writer payload now).getCheckpoint writer.taskId
              payload.key = some payload := getCheckpoint_recordCheckpoint
          rw [hkey] at hnow
          cases hnow.symm.trans hslot
          exact hcall
        · apply h recorded
          rw [← hslot]
          symm
          apply (committed hperform).getCheckpoint
          intro payload htask hcall' hkey
          exact hwrites ⟨payload, htask, hcall', hkey⟩
      · exact h

end Within

end Orchestrator
