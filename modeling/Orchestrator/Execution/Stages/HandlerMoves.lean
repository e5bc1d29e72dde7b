import Orchestrator.Execution.Stages.FixRuns
import Orchestrator.Execution.Stages.Outcomes

/-! # Every outcome of every handler

`IMPLEMENTING` reads how far it came from a checkpoint, so what it asks for depends on what
the task's earlier executions wrote. The recorded implementation stays within the limit, and
with it every handler makes one of the moves of `StageMove`.
-/

namespace Orchestrator

open Kit TaskState

/-! ## Calls within the limit -/

section Within

variable {limit : Nat} {deps : StageDependencies} {task : Task} {loaded : LoadedWorkspaces}

/-- A procedure that records no implementation above the limit. -/
abbrev WithinLimit (limit : Nat) {α : Type} (procedure : StageProc α) : Prop :=
  procedure.Only (StageCall.Within limit)

theorem within_concludeFix (scope : Nat) (applied : FixApplied)
    (conclusion : AttemptConclusion) (outcome : StageOutcome) :
    WithinLimit limit (checkpoint (.fixApplied applied) >>= fun _ =>
      completeAttempt scope conclusion >>= fun _ => pure outcome) := by
  refine only_bind (only_database.mpr trivial) fun _ => ?_
  exact only_bind (only_database.mpr trivial) fun _ => trivial

theorem within_fixResult (plan : AnalysisResult) (scope : Nat) (request : FixRequest)
    (usage : Option AgentUsage) (result : AgentRunResult ChangeResult) :
    WithinLimit limit (fixResult deps task loaded plan scope request usage result) := by
  refine only_bind (routine_pauseOrInterruption result).within ?_
  rintro (_ | ⟨outcome, category⟩)
  · dsimp only
    split
    · split_ifs
      · exact (routine_agentBlocked _ _ _ _).within
      · refine only_bind (routine_inspectAndCommit _).within ?_
        rintro (⟨commits, evidence⟩ | ⟨detail, violations, evidence⟩ | detail)
        · exact within_concludeFix _ _ _ _
        · exact within_concludeFix _ _ _ _
        · exact only_bind (only_database.mpr trivial) fun _ => trivial
    · refine only_bind routine_restoreAll.within fun _ => ?_
      exact within_concludeFix _ _ _ _
    · exact trivial
  · exact (routine_stopAttempt _ _ _ _).within

theorem within_fixingStage : WithinLimit limit (fixingStage deps task) := by
  refine only_bind routine_loadTaskWorkspaces.within fun loaded => ?_
  refine only_bind (routine_readCheckpoint _ _).within ?_
  rintro (_ | request)
  · exact trivial
  · refine only_bind (routine_readCheckpoint _ _).within fun applied => ?_
    split_ifs
    · exact trivial
    · exact trivial
    · refine only_bind routine_requireAnalysis.within fun plan => ?_
      refine only_bind (routine_routed _).within ?_
      rintro (_ | model)
      · exact trivial
      · refine only_bind routine_restoreAll.within fun _ => ?_
        refine only_bind (only_database.mpr trivial) fun scope => ?_
        refine only_bind (only_service.mpr trivial) fun run => ?_
        exact within_fixResult plan scope request run.usage run.result

theorem within_testingStage : WithinLimit limit (testingStage deps task) := by
  refine only_bind routine_loadTaskWorkspaces.within fun loaded => ?_
  refine only_bind (routine_readCheckpoint _ _).within fun passed => ?_
  split_ifs
  · exact trivial
  · refine only_bind routine_restoreAll.within fun _ => ?_
    refine only_bind (only_database.mpr trivial) fun attempt => ?_
    refine only_bind (only_collectFrom
      (fun reports unit => (routine_testUnit attempt reports unit).within) [] _) ?_
    rintro (outcome | reports)
    · exact trivial
    · refine only_bind routine_restoreAll.within fun _ => ?_
      split_ifs
      · refine only_bind (only_database.mpr trivial) fun _ => ?_
        exact only_bind (only_database.mpr trivial) fun _ => trivial
      · refine only_bind (only_database.mpr trivial) fun _ => ?_
        dsimp only
        split_ifs
        · exact trivial
        · exact only_bind (only_database.mpr trivial) fun _ => trivial

theorem within_requestReviewFix (attempt : Nat) (usage : Option AgentUsage)
    (output : ReviewResult) :
    WithinLimit limit (requestReviewFix deps task loaded attempt usage output) := by
  refine only_bind (only_database.mpr trivial) fun _ => ?_
  dsimp only
  split_ifs
  · exact trivial
  · exact only_bind (only_database.mpr trivial) fun _ => trivial

theorem within_reviewResult (deliver : Bool) (attempt : Nat) (usage : Option AgentUsage)
    (result : AgentRunResult ReviewResult) :
    WithinLimit limit (reviewResult deps task deliver loaded attempt usage result) := by
  refine only_bind (routine_pauseOrInterruption result).within ?_
  rintro (_ | ⟨outcome, category⟩)
  · dsimp only
    split
    · split_ifs
      · exact only_bind (only_database.mpr trivial) fun _ => trivial
      · unfold reviewVerdict
        split
        · refine only_bind (only_database.mpr trivial) fun _ => ?_
          exact only_bind (only_database.mpr trivial) fun _ => trivial
        · exact only_bind (only_database.mpr trivial) fun _ => trivial
        · exact within_requestReviewFix _ _ _
    · exact only_bind (only_database.mpr trivial) fun _ => trivial
    · exact trivial
  · exact only_bind (only_database.mpr trivial) fun _ => trivial

theorem within_reviewStage (deliver : Bool) :
    WithinLimit limit (reviewStage deps task deliver) := by
  refine only_bind routine_loadTaskWorkspaces.within fun loaded => ?_
  refine only_bind (routine_readCheckpoint _ _).within fun approved => ?_
  split_ifs
  · exact trivial
  · refine only_bind (routine_readCheckpoint _ _).within fun passed => ?_
    split_ifs
    · exact trivial
    · refine only_bind routine_requireAnalysis.within fun _ => ?_
      refine only_bind (only_each ?_ _) fun _ => ?_
      · intro unit
        exact only_service.mpr trivial
      refine only_bind (routine_routed _).within fun model => ?_
      refine only_bind (only_database.mpr trivial) fun attempt => ?_
      refine only_bind routine_workspaceSnapshots.within fun before => ?_
      refine only_bind (only_service.mpr trivial) fun run => ?_
      refine only_bind routine_workspaceSnapshots.within fun afterwards => ?_
      split_ifs
      · exact only_bind (only_database.mpr trivial) fun _ => trivial
      · exact within_reviewResult deliver attempt run.usage run.result

/-! ### `PR_CREATED` -/

theorem within_pullRequestStage {deps : DeliveryDependencies} :
    WithinLimit limit (pullRequestStage deps task) := by
  refine only_pullRequestStage ?_ ?_
  · intro call hroutine
    exact within_of_routine hroutine
  · intro repository remote refspec
    trivial

/-! ### `IMPLEMENTING` -/

/-- The checkpoint is of the attempt that was checked against the limit. -/
theorem within_applyImplementation (plan : AnalysisResult) (scope : Nat) {attempt : Nat}
    (usage : Option AgentUsage) (output : ChangeResult) (hattempt : attempt ≤ limit) :
    WithinLimit limit (applyImplementation deps task loaded plan scope attempt usage output) := by
  refine only_bind (routine_inspectAndCommit _).within ?_
  rintro (⟨commits, evidence⟩ | ⟨detail, violations, evidence⟩ | detail)
  · refine only_bind (only_database.mpr hattempt) fun _ => ?_
    exact only_bind (only_database.mpr trivial) fun _ => trivial
  · exact (routine_rejectImplementation _ _ _ _ _ _).within
  · exact only_bind (only_database.mpr trivial) fun _ => trivial

theorem within_implementationResult (plan : AnalysisResult) (scope : Nat) {attempt : Nat}
    (usage : Option AgentUsage) (result : AgentRunResult ChangeResult)
    (hattempt : attempt ≤ limit) :
    WithinLimit limit
      (implementationResult deps task loaded plan scope attempt usage result) := by
  refine only_bind (routine_pauseOrInterruption result).within ?_
  rintro (_ | ⟨outcome, category⟩)
  · dsimp only
    split
    · split_ifs
      · exact (routine_agentBlocked _ _ _ _).within
      · exact within_applyImplementation _ _ _ _ hattempt
    · exact (routine_rejectImplementation _ _ _ _ _ _).within
    · exact trivial
  · exact (routine_stopAttempt _ _ _ _).within

theorem within_implement (plan : AnalysisResult) {attempt : Nat} (model : ModelSelection)
    (hattempt : attempt ≤ limit) :
    WithinLimit limit (implement deps task loaded plan attempt model) := by
  refine only_bind routine_restoreAll.within fun _ => ?_
  refine only_bind (only_database.mpr trivial) fun _ => ?_
  refine only_bind (routine_readCheckpoint _ _).within fun _ => ?_
  refine only_bind (only_service.mpr trivial) fun _ => ?_
  refine only_bind (only_database.mpr trivial) fun scope => ?_
  refine only_bind (only_service.mpr trivial) fun run => ?_
  exact within_implementationResult plan scope run.usage run.result hattempt

end Within

/-! ## The handlers -/

section Handlers

variable {ω : Type} {services : Services ω} {deps : StageDependencies} {task : Task}
  {writer : StageWriter} {w : StageWorld ω} {taskId : TaskId} {limit : Nat}

/-- Calls within the limit leave the recorded implementation within it. -/
theorem keeps_within {α : Type} {procedure : StageProc α} (hwithin : WithinLimit limit procedure)
    (h : w.tables.ImplementationWithin taskId limit) :
    procedure.Keeps (serves services writer)
      (fun w => w.tables.ImplementationWithin taskId limit) (fun _ _ => True) w := by
  refine keeps_of_only ?_ hwithin h
  intro w call answer w' hcall hserves hsofar
  exact implementationWithin_serves hserves hcall hsofar

theorem keeps_within_returns {α : Type} {procedure : StageProc α} {Q : α → Prop}
    (hwithin : WithinLimit limit procedure) (hreturns : procedure.Returns Q)
    (h : w.tables.ImplementationWithin taskId limit) :
    procedure.Keeps (serves services writer)
      (fun w => w.tables.ImplementationWithin taskId limit) (fun value _ => Q value) w := by
  refine keeps_mono (fun _ hI => hI) ?_ (keeps_returns (keeps_within hwithin h) hreturns)
  intro value w' _ hvalue
  exact hvalue.2

/-- A route exists only for an attempt within the limit. -/
theorem returns_implementationModel {complexity : Complexity} {attempt : Nat} :
    (routed (implementationModel deps complexity attempt)).Returns fun model =>
      model.isSome → attempt ≤ deps.config.maxImplementationAttempts := by
  unfold implementationModel
  split_ifs with hattempt
  · refine returns_mono ?_ (returns_true _)
    intro model _ _
    exact hattempt
  · intro hsome
    cases hsome

theorem returns_implement {loaded : LoadedWorkspaces} (hstate : task.state = implementing)
    (plan : AnalysisResult) (model : ModelSelection)
    (hattempt : task.implementationAttempts < deps.config.maxImplementationAttempts) :
    (implement deps task loaded plan (task.implementationAttempts + 1) model).Returns
      (StageOutcome.Moves deps task) := by
  refine returns_rest fun _ => returns_rest fun _ => returns_rest fun _ => returns_rest fun _ => ?_
  refine returns_rest fun scope => returns_rest fun run => ?_
  exact returns_implementationResult hstate hattempt plan scope _ run.usage run.result

/-- `IMPLEMENTING` makes a move, whether it reuses a recorded implementation or makes one. -/
theorem keeps_implementationStage (hstate : task.state = implementing)
    (h : w.tables.ImplementationWithin task.id deps.config.maxImplementationAttempts) :
    (implementationStage deps task).Keeps (serves services ⟨task.id, task.state⟩)
      (fun w => w.tables.ImplementationWithin task.id deps.config.maxImplementationAttempts)
      (fun outcome _ => outcome.Moves deps task) w := by
  refine keeps_bind (keeps_within routine_loadTaskWorkspaces.within h) ?_
  intro loaded w₁ h₁ _
  refine keeps_bind (keeps_within routine_requireAnalysis.within h₁) ?_
  intro plan w₂ h₂ _
  refine keeps_bind (keeps_readCheckpoint h₂ h₂) ?_
  rintro (_ | committed) w₃ h₃ ⟨hw, hfound⟩
  · dsimp only
    split
    · exact keeps_pure h₃ (moves_manualIntervention _ _)
    · refine keeps_bind (keeps_within_returns (routine_routed _).within
        returns_implementationModel h₃) ?_
      rintro (_ | model) w₄ h₄ hroute
      · exact keeps_pure h₄ (.failed (by simp [hstate]))
      · have hattempt := hroute rfl
        exact keeps_within_returns (within_implement plan model hattempt)
          (returns_implement hstate plan model hattempt) h₄
  · -- The slot holds what an earlier execution recorded, within the limit.
    have hcommitted : committed.implementationAttempt ≤ deps.config.maxImplementationAttempts := by
      cases hslot : w₂.tables.getCheckpoint task.id .implementation with
      | none =>
          rw [hslot] at hfound
          cases hfound
      | some payload =>
          rw [hslot] at hfound
          cases payload with
          | implementation recorded =>
              cases hfound
              exact h₂ _ hslot
          | _ => cases hfound
    exact keeps_within_returns (routine_reuseImplementation committed).within
      (returns_reuseImplementation hstate hcommitted) h₃

attribute [local irreducible] preparationStage readyStage implementationStage testingStage
  fixingStage reviewStage pullRequestStage observationStage

/-- Every execution of every handler makes one of the moves, and leaves the recorded
implementation within the limit however it ends. -/
theorem keeps_handler {deps : DeliveryDependencies} {deliver : Bool}
    {handler : StageProc StageOutcome}
    (hhandler : executionHandler deps deliver task = some handler)
    (h : w.tables.ImplementationWithin task.id deps.config.maxImplementationAttempts) :
    handler.Keeps (serves services ⟨task.id, task.state⟩)
      (fun w => w.tables.ImplementationWithin task.id deps.config.maxImplementationAttempts)
      (fun outcome _ => outcome.Moves deps.toStageDependencies task) w := by
  unfold executionHandler at hhandler
  split at hhandler
  · rename_i hstate
    cases hhandler
    exact keeps_within_returns (routine_preparationStage routine_analysisStage).within
      (returns_preparationStage (returns_analysisStage hstate)) h
  · rename_i hstate
    cases hhandler
    exact keeps_within_returns routine_readyStage.within (returns_readyStage hstate) h
  · rename_i hstate
    cases hhandler
    exact keeps_implementationStage hstate h
  · rename_i hstate
    cases hhandler
    exact keeps_within_returns within_testingStage (returns_testingStage hstate) h
  · rename_i hstate
    cases hhandler
    exact keeps_within_returns within_fixingStage (returns_fixingStage hstate) h
  · rename_i hstate
    cases hhandler
    exact keeps_within_returns (within_reviewStage deliver)
      (returns_reviewStage hstate deliver) h
  · rename_i hstate
    split_ifs at hhandler
    cases hhandler
    exact keeps_within_returns within_pullRequestStage (returns_pullRequestStage hstate) h
  · rename_i hstate
    split_ifs at hhandler
    cases hhandler
    exact keeps_within_returns routine_observationStage.within
      (returns_observationStage (by simp [hstate])) h
  · rename_i hstate
    split_ifs at hhandler
    cases hhandler
    exact keeps_within_returns routine_observationStage.within
      (returns_observationStage (by simp [hstate])) h
  · cases hhandler

end Handlers

end Orchestrator
