import Orchestrator.Execution.Stages.FixRequests
import Orchestrator.Kit.Record

/-! # Runs of a task with fixes

`TESTING` and `REVIEWING` request fixes under new ids, `FIXING` concludes the request in the
slot, and the other stages touch neither. Executions follow each other and may crash anywhere.
-/

namespace Orchestrator

open Kit TaskState Relation

/-! ## The stages that request fixes -/

/-- No request has the id. -/
def Unrequested {ω : Type} (taskId : TaskId) (id : String) (w : StageWorld ω) : Prop :=
  ∀ request ∈ requestsOf taskId w.journal, request.id ≠ id

section Requesting

variable {ω : Type} {services : Services ω} {taskId : TaskId} {w w' : StageWorld ω}
  {deps : StageDependencies} {task : Task} {loaded : LoadedWorkspaces} {attempt : Nat}

theorem Unrequested.same {id : String} (h : Unrequested taskId id w)
    (hsame : SameFixes taskId w w') : Unrequested taskId id w' := by
  unfold Unrequested
  rw [hsame.requests]
  exact h

/-- The attempt is not completed, and requests are of completed attempts. -/
theorem keeps_startAttempt (source : FixSource) (hfix : FixHistory taskId w) :
    startAttempt.Keeps (serves services ⟨taskId, source.stage⟩) (FixHistory taskId)
      (fun attempt w' => Unrequested taskId (source.requestId attempt) w') w := by
  refine keeps_database hfix ?_
  intro holds now tables attempt hperform
  have hcommitted := committed hperform
  have hsame : SameFixes taskId w _ := sameFixes_wrote hcommitted fun _ => rfl
  refine ⟨hfix.same hsame, ?_⟩
  intro request hrequest hid
  rw [hsame.requests] at hrequest
  rcases hfix.requested request hrequest with ⟨number, hnumber, hdone⟩
  rcases requestId_injective (hnumber.symm.trans hid) with ⟨hsource, rfl⟩
  rw [hsource] at hdone
  exact hcommitted.notCompleted hdone

theorem keeps_completeAttempt {stage : TaskState} (hfix : FixHistory taskId w)
    (conclusion : AttemptConclusion) :
    (completeAttempt attempt conclusion).Keeps (serves services ⟨taskId, stage⟩) (FixHistory taskId)
      (fun _ w' => SameFixes taskId w w' ∧ w'.tables.Completed taskId stage attempt) w := by
  refine keeps_database hfix ?_
  rintro holds now tables ⟨⟩ hperform
  have hsame : SameFixes taskId w _ := sameFixes_wrote (committed hperform) fun _ => rfl
  exact ⟨hfix.same hsame, hsame, completeAttempt_completed hperform⟩

theorem keeps_checkpointRequest {stage : TaskState} {request : FixRequest}
    (hfix : FixHistory taskId w) (hid : request.id = request.source.requestId attempt)
    (hdone : w.tables.Completed taskId request.source.stage attempt)
    (hnew : Unrequested taskId request.id w) :
    (checkpoint (.fixRequest request)).Keeps (serves services ⟨taskId, stage⟩) (FixHistory taskId)
      (fun _ _ => True) w := by
  refine keeps_database hfix ?_
  rintro holds now tables ⟨⟩ ⟨⟩
  exact ⟨fixHistory_requested hfix rfl hid hdone hnew, trivial⟩

theorem keeps_requestQualityFix (reports : List RepositoryQualityReport) (discarded : Bool)
    (hfix : FixHistory task.id w) (hnew : Unrequested task.id (qualityRequestId attempt) w) :
    (requestQualityFix deps task loaded attempt reports discarded).Keeps
      (serves services ⟨task.id, testing⟩) (FixHistory task.id) (fun _ _ => True) w := by
  refine keeps_bind (keeps_completeAttempt hfix _) ?_
  rintro _ w₁ hfix₁ ⟨hsame, hdone⟩
  dsimp only
  split_ifs
  · exact keeps_pure hfix₁ trivial
  · refine keeps_bind (keeps_checkpointRequest hfix₁ rfl hdone (hnew.same hsame)) ?_
    intro _ w₂ hfix₂ _
    exact keeps_pure hfix₂ trivial

/-- Every execution of `TESTING` keeps the history. -/
theorem keeps_testingStage (hfix : FixHistory task.id w) :
    (testingStage deps task).Keeps (serves services ⟨task.id, testing⟩) (FixHistory task.id)
      (fun _ _ => True) w := by
  refine keeps_bind (keeps_routine routine_loadTaskWorkspaces hfix) ?_
  intro loaded w₁ hfix₁ _
  refine keeps_bind (keeps_routine (routine_readCheckpoint _ _) hfix₁) ?_
  intro passed w₂ hfix₂ _
  split_ifs
  · exact keeps_pure hfix₂ trivial
  · refine keeps_bind (keeps_routine routine_restoreAll hfix₂) ?_
    intro _ w₃ hfix₃ _
    refine keeps_bind (keeps_startAttempt .quality hfix₃) ?_
    intro attempt w₄ hfix₄ hnew
    refine keeps_bind (keeps_routine (only_collectFrom (routine_testUnit attempt) [] _) hfix₄) ?_
    rintro (outcome | reports) w₅ hfix₅ hsame₅
    · exact keeps_pure hfix₅ trivial
    · refine keeps_bind (keeps_routine routine_restoreAll hfix₅) ?_
      intro _ w₆ hfix₆ hsame₆
      split_ifs
      · refine keeps_bind (keeps_routine (only_database.mpr rfl) hfix₆) ?_
        intro _ w₇ hfix₇ _
        refine keeps_bind (keeps_completeAttempt hfix₇ _) ?_
        intro _ w₈ hfix₈ _
        exact keeps_pure hfix₈ trivial
      · exact keeps_requestQualityFix reports _ hfix₆ (hnew.same (hsame₅.trans hsame₆))

theorem keeps_requestReviewFix (usage : Option AgentUsage) (output : ReviewResult)
    (hfix : FixHistory task.id w)
    (hnew : Unrequested task.id (reviewRequestId attempt) w) :
    (requestReviewFix deps task loaded attempt usage output).Keeps
      (serves services ⟨task.id, reviewing⟩) (FixHistory task.id) (fun _ _ => True) w := by
  refine keeps_bind (keeps_completeAttempt hfix _) ?_
  rintro _ w₁ hfix₁ ⟨hsame, hdone⟩
  dsimp only
  split_ifs
  · exact keeps_pure hfix₁ trivial
  · refine keeps_bind (keeps_checkpointRequest hfix₁ rfl hdone (hnew.same hsame)) ?_
    intro _ w₂ hfix₂ _
    exact keeps_pure hfix₂ trivial

theorem keeps_reviewResult (deliver : Bool) (usage : Option AgentUsage)
    (result : AgentRunResult ReviewResult) (hfix : FixHistory task.id w)
    (hnew : Unrequested task.id (reviewRequestId attempt) w) :
    (reviewResult deps task deliver loaded attempt usage result).Keeps
      (serves services ⟨task.id, reviewing⟩) (FixHistory task.id) (fun _ _ => True) w := by
  -- The attempt ends without a fix request.
  have hends : ∀ (w₁ : StageWorld ω) (conclusion : AttemptConclusion) (outcome : StageOutcome),
      FixHistory task.id w₁ →
      (completeAttempt attempt conclusion >>= fun _ => pure outcome).Keeps
        (serves services ⟨task.id, reviewing⟩) (FixHistory task.id) (fun _ _ => True) w₁ := by
    intro w₁ conclusion outcome hfix₁
    refine keeps_bind (keeps_completeAttempt hfix₁ _) ?_
    intro _ w₂ hfix₂ _
    exact keeps_pure hfix₂ trivial
  refine keeps_bind (keeps_routine (routine_pauseOrInterruption result) hfix) ?_
  rintro (_ | ⟨outcome, category⟩) w₁ hfix₁ hsame
  · dsimp only
    split
    · split_ifs
      · exact hends w₁ _ _ hfix₁
      · unfold reviewVerdict
        split
        · refine keeps_bind (keeps_routine (only_database.mpr rfl) hfix₁) ?_
          intro _ w₂ hfix₂ _
          refine keeps_bind (keeps_completeAttempt hfix₂ _) ?_
          intro _ w₃ hfix₃ _
          exact keeps_pure hfix₃ trivial
        · exact hends w₁ _ _ hfix₁
        · exact keeps_requestReviewFix _ _ hfix₁ (hnew.same hsame)
    · exact hends w₁ _ _ hfix₁
    · exact keeps_pure hfix₁ trivial
  · exact hends w₁ _ outcome hfix₁

/-- Every execution of `REVIEWING` keeps the history. -/
theorem keeps_reviewStage (deliver : Bool) (hfix : FixHistory task.id w) :
    (reviewStage deps task deliver).Keeps (serves services ⟨task.id, reviewing⟩)
      (FixHistory task.id) (fun _ _ => True) w := by
  refine keeps_bind (keeps_routine routine_loadTaskWorkspaces hfix) ?_
  intro loaded w₁ hfix₁ _
  refine keeps_bind (keeps_routine (routine_readCheckpoint _ _) hfix₁) ?_
  intro approved w₂ hfix₂ _
  split_ifs
  · exact keeps_pure hfix₂ trivial
  · refine keeps_bind (keeps_routine (routine_readCheckpoint _ _) hfix₂) ?_
    intro passed w₃ hfix₃ _
    split_ifs
    · exact keeps_pure hfix₃ trivial
    · refine keeps_bind (keeps_routine routine_requireAnalysis hfix₃) ?_
      intro _ w₄ hfix₄ _
      have hdiffs : Routine (Proc.each (fun unit : LoadedUnit =>
          service (.diffFromBase unit.workspacePath unit.baseCommit)) loaded.units) := by
        apply only_each
        intro unit
        exact only_service.mpr rfl
      refine keeps_bind (keeps_routine hdiffs hfix₄) ?_
      intro _ w₅ hfix₅ _
      refine keeps_bind (keeps_routine (routine_routed _) hfix₅) ?_
      intro model w₆ hfix₆ _
      -- From here on the review is an attempt, and what is concluded is its own.
      refine keeps_bind (keeps_startAttempt .review hfix₆) ?_
      intro attempt w₇ hfix₇ hnew
      refine keeps_bind (keeps_routine routine_workspaceSnapshots hfix₇) ?_
      intro before w₈ hfix₈ hsame₈
      refine keeps_bind (keeps_routine (only_service.mpr rfl) hfix₈) ?_
      intro run w₉ hfix₉ hsame₉
      refine keeps_bind (keeps_routine routine_workspaceSnapshots hfix₉) ?_
      intro afterwards w₁₀ hfix₁₀ hsame₁₀
      split_ifs
      · refine keeps_bind (keeps_completeAttempt hfix₁₀ _) ?_
        intro _ w₁₁ hfix₁₁ _
        exact keeps_pure hfix₁₁ trivial
      · exact keeps_reviewResult deliver run.usage run.result hfix₁₀
          (hnew.same (hsame₈.trans (hsame₉.trans hsame₁₀)))

end Requesting

/-! ## `FIXING` -/

/-- The outcome is an advance to the state. -/
def StageOutcome.advancesTo (state : TaskState) : StageOutcome → Bool
  | .advance outcome => outcome.toState = state
  | _ => false

theorem advancesTo_testing_blocked {outcome : StageOutcome}
    (htesting : outcome.advancesTo testing = true) : ¬ outcome.advancesTo blocked = true := by
  intro hblocked
  cases outcome with
  | advance outcome =>
      have hone : outcome.toState = testing := of_decide_eq_true htesting
      have hother : outcome.toState = blocked := of_decide_eq_true hblocked
      rw [hone] at hother
      cases hother
  | _ => cases htesting

section Fixing

variable {ω : Type} {services : Services ω} {taskId : TaskId} {writer : StageWriter}
  {w w' : StageWorld ω} {deps : StageDependencies} {task : Task} {loaded : LoadedWorkspaces}
  {scope : Nat} {request : FixRequest}

/-- A read changes nothing but the journal. -/
theorem sameFixes_read (key : CheckpointKey) :
    SameFixes taskId w (w.wrote writer (.getCheckpoint key) w.tables) := by
  have hread : Committed w.tables writer (.getCheckpoint key)
      (w.tables.getCheckpoint taskId key) w.tables := .kept rfl
  exact sameFixes_wrote hread fun _ => rfl

/-- Before the fixer is asked, an execution from `w₀` leaves the fixes as they are. -/
structure BeforeFix (taskId : TaskId) (w₀ w : StageWorld ω) : Prop where
  same : SameFixes taskId w₀ w
  runs : fixerRuns w.journal = fixerRuns w₀.journal

/-- An execution from `w₀` never asks the fixer about a concluded request. -/
structure FixingFrom (taskId : TaskId) (w₀ w : StageWorld ω) : Prop where
  history : FixHistory taskId w
  idle : ∀ request, w₀.tables.fixRequest taskId = some request →
    Concluded taskId w₀.journal request → fixerRuns w.journal = fixerRuns w₀.journal

/-- It goes on to `TESTING` if the request is concluded. Otherwise it has asked the fixer, or the
task is blocked. -/
def FixDecided (taskId : TaskId) (w₀ : StageWorld ω) (outcome : StageOutcome)
    (w : StageWorld ω) : Prop :=
  ∀ request, w₀.tables.fixRequest taskId = some request →
    (Concluded taskId w₀.journal request → outcome.advancesTo testing = true) ∧
      (¬ Concluded taskId w₀.journal request →
        fixerRuns w₀.journal < fixerRuns w.journal ∨ outcome.advancesTo blocked = true)

variable {w₀ : StageWorld ω}

theorem BeforeFix.from (hfix : FixHistory taskId w₀) (h : BeforeFix taskId w₀ w) :
    FixingFrom taskId w₀ w where
  history := hfix.same h.same
  idle _ _ _ := h.runs

theorem keeps_beforeFix {α : Type} {procedure : StageProc α} (hroutine : Routine procedure)
    (hfix : FixHistory taskId w₀) (h : BeforeFix taskId w₀ w) :
    procedure.Keeps (serves services writer) (FixingFrom taskId w₀)
      (fun _ w' => BeforeFix taskId w₀ w') w := by
  have hbefore : procedure.Keeps (serves services writer) (BeforeFix taskId w₀)
      (fun _ _ => True) w := by
    refine keeps_of_only ?_ hroutine h
    rintro w₁ call answer w₂ hcall hserves ⟨hsame, hruns⟩
    constructor
    · exact hsame.trans (sameFixes_serves hserves fun _ => neutral_of_routine hcall)
    · exact (fixerRuns_routine hcall hserves).trans hruns
  exact keeps_mono (fun _ hI => hI.from hfix) (fun _ _ hI _ => hI) hbefore

/-- The slots as they were at the start of the execution. -/
theorem keeps_readFix {T : Type} {key : CheckpointKey} {parse : CheckpointPayload → Option T}
    (hfix : FixHistory taskId w₀) (h : BeforeFix taskId w₀ w) :
    (readCheckpoint key parse).Keeps (serves services ⟨taskId, fixing⟩) (FixingFrom taskId w₀)
      (fun found w' => BeforeFix taskId w₀ w' ∧
        found = (w.tables.getCheckpoint taskId key).bind parse) w := by
  have hread : BeforeFix taskId w₀ (w.wrote ⟨taskId, fixing⟩ (.getCheckpoint key) w.tables) := by
    constructor
    · exact h.same.trans (sameFixes_read key)
    · unfold fixerRuns
      rw [StageWorld.wrote_journal, List.countP_append]
      exact h.runs
  refine keeps_mono (fun _ hI => hI) ?_ (keeps_readCheckpoint (h.from hfix) (hread.from hfix))
  rintro found _ _ ⟨rfl, hfound⟩
  exact ⟨hread, hfound⟩

/-- What follows the fixer keeps the history. -/
theorem keeps_concludeFix {commits : Option Heads} {category : Option FailureCategory}
    {conclusion : AttemptConclusion} {outcome : StageOutcome} (hfix : FixHistory taskId w)
    (hrequest : w.tables.fixRequest taskId = some request) :
    (checkpoint (.fixApplied ⟨request.id, commits, category⟩) >>= fun _ =>
      completeAttempt scope conclusion >>= fun _ => pure outcome).Keeps
      (serves services ⟨taskId, fixing⟩) (FixHistory taskId) (fun _ _ => True) w := by
  refine keeps_bind (R := fun _ _ => True) (keeps_database hfix ?_) ?_
  · rintro holds now tables ⟨⟩ ⟨⟩
    exact ⟨fixHistory_concluded hfix hrequest rfl, trivial⟩
  · intro _ w₁ hfix₁ _
    refine keeps_bind (keeps_routine (only_database.mpr rfl) hfix₁) ?_
    intro _ w₂ hfix₂ _
    exact keeps_pure hfix₂ trivial

theorem keeps_fixResult (plan : AnalysisResult) (usage : Option AgentUsage)
    (result : AgentRunResult ChangeResult) (hfix : FixHistory taskId w)
    (hrequest : w.tables.fixRequest taskId = some request) :
    (fixResult deps task loaded plan scope request usage result).Keeps
      (serves services ⟨taskId, fixing⟩) (FixHistory taskId) (fun _ _ => True) w := by
  refine keeps_bind (keeps_routine (routine_pauseOrInterruption result) hfix) ?_
  rintro (_ | ⟨outcome, category⟩) w₁ hfix₁ hsame
  · have hrequest₁ := hsame.request.trans hrequest
    dsimp only
    split
    · rename_i output
      split_ifs
      · exact keeps_mono (fun _ h => h) (fun _ _ _ _ => trivial)
          (keeps_routine (routine_agentBlocked _ _ _ _) hfix₁)
      · refine keeps_bind (keeps_routine (routine_inspectAndCommit _) hfix₁) ?_
        rintro (⟨commits, evidence⟩ | ⟨detail, violations, evidence⟩ | detail) w₂ hfix₂ hsame₂
        · exact keeps_concludeFix hfix₂ (hsame₂.request.trans hrequest₁)
        · exact keeps_concludeFix hfix₂ (hsame₂.request.trans hrequest₁)
        · refine keeps_bind (keeps_routine (only_database.mpr rfl) hfix₂) ?_
          intro _ w₃ hfix₃ _
          exact keeps_pure hfix₃ trivial
    · refine keeps_bind (keeps_routine routine_restoreAll hfix₁) ?_
      intro _ w₂ hfix₂ hsame₂
      exact keeps_concludeFix hfix₂ (hsame₂.request.trans hrequest₁)
    · exact keeps_pure hfix₁ trivial
  · exact keeps_mono (fun _ h => h) (fun _ _ _ _ => trivial)
      (keeps_routine (routine_stopAttempt _ _ _ _) hfix₁)

/-- The journal only grows. -/
theorem keeps_fixerRuns {α : Type} (procedure : StageProc α) {runs : Nat}
    (h : runs < fixerRuns w.journal) :
    procedure.Keeps (serves services writer) (fun w' => runs < fixerRuns w'.journal)
      (fun _ _ => True) w := by
  refine wp_mono ?_ (wp_invariant (fun w' => runs < fixerRuns w'.journal) ?_ procedure h)
  · rintro (value | failure | _) w' hruns
    · exact ⟨hruns, trivial⟩
    · exact hruns
    · exact hruns
  · intro w₁ call answer w₂ hserves hruns
    exact hruns.trans_le (fixerRuns_serves hserves)

/-- A request that is not concluded. -/
theorem keeps_fix (hfix : FixHistory taskId w₀) (h : BeforeFix taskId w₀ w)
    (hrequest : w₀.tables.fixRequest taskId = some request)
    (hopen : ¬ Concluded taskId w₀.journal request) :
    (fix deps task loaded request).Keeps (serves services ⟨taskId, fixing⟩) (FixingFrom taskId w₀)
      (FixDecided taskId w₀) w := by
  -- From here on the history is all that is left to keep.
  have hfrom : ∀ w', FixHistory taskId w' → FixingFrom taskId w₀ w' := by
    intro w' hfix'
    refine ⟨hfix', ?_⟩
    intro other hother hconcluded
    rw [hrequest] at hother
    cases hother
    exact absurd hconcluded hopen
  have hdecided : ∀ outcome w', (fixerRuns w₀.journal < fixerRuns w'.journal ∨
      outcome.advancesTo blocked = true) → FixDecided taskId w₀ outcome w' := by
    intro outcome w' hruns other hother
    rw [hrequest] at hother
    cases hother
    exact ⟨fun hconcluded => absurd hconcluded hopen, fun _ => hruns⟩
  refine keeps_bind (keeps_beforeFix routine_requireAnalysis hfix h) ?_
  intro plan w₁ _ h₁
  refine keeps_bind (keeps_beforeFix (routine_routed _) hfix h₁) ?_
  rintro (_ | model) w₂ hfrom₂ h₂
  · exact keeps_pure hfrom₂ (hdecided _ _ (Or.inr rfl))
  · refine keeps_bind (keeps_beforeFix routine_restoreAll hfix h₂) ?_
    intro _ w₃ _ h₃
    refine keeps_bind (keeps_beforeFix (only_database.mpr rfl) hfix h₃) ?_
    intro scope w₄ hfrom₄ h₄
    refine keeps_bind (R := fun _ w' => SameFixes taskId w₀ w' ∧
      fixerRuns w₀.journal < fixerRuns w'.journal) (keeps_service hfrom₄ ?_) ?_
    · intro answer outside _
      have hsame : SameFixes taskId w₀ (w₄.asked (.runAgent .fixer model) answer outside) :=
        h₄.same.trans sameFixes_asked
      have hruns : fixerRuns w₀.journal <
          fixerRuns (w₄.asked (.runAgent .fixer model) answer outside).journal := by
        have hbefore := h₄.runs
        unfold fixerRuns at hbefore ⊢
        rw [StageWorld.asked_journal, List.countP_append, hbefore, List.countP_singleton]
        exact Nat.lt_succ_self _
      exact ⟨hfrom _ (hfix.same hsame), fun _ _ => ⟨hsame, hruns⟩⟩
    · rintro run w₅ hfrom₅ ⟨hsame₅, hruns₅⟩
      refine keeps_mono ?_ ?_ (keeps_and
        (keeps_fixResult plan run.usage run.result hfrom₅.history (hsame₅.request.trans hrequest))
        (keeps_fixerRuns _ hruns₅))
      · rintro w' ⟨hfix', _⟩
        exact hfrom w' hfix'
      · rintro outcome w' ⟨_, hruns⟩ _
        exact hdecided outcome w' (Or.inl hruns)

/-- Every execution of `FIXING` keeps the history, and decides by whether the request is
concluded. -/
theorem keeps_fixingStage (hfix : FixHistory task.id w₀) :
    (fixingStage deps task).Keeps (serves services ⟨task.id, fixing⟩) (FixingFrom task.id w₀)
      (FixDecided task.id w₀) w₀ := by
  have hstart : BeforeFix task.id w₀ w₀ := ⟨SameFixes.refl w₀, rfl⟩
  refine keeps_bind (keeps_beforeFix routine_loadTaskWorkspaces hfix hstart) ?_
  intro loaded w₁ _ h₁
  refine keeps_bind (keeps_readFix hfix h₁) ?_
  rintro found w₂ hfrom₂ ⟨h₂, hfound⟩
  have hslot : found = w₀.tables.fixRequest task.id := hfound.trans h₁.same.request
  cases found with
  | none =>
      refine keeps_pure hfrom₂ ?_
      intro request hrequest
      rw [hrequest] at hslot
      cases hslot
  | some request =>
      have hrequest := hslot.symm
      refine keeps_bind (keeps_readFix hfix h₂) ?_
      rintro applied w₃ hfrom₃ ⟨h₃, happlied⟩
      -- The two slots say whether the journal concludes the request.
      have hconcluded : applied.any (·.applies request) = true ↔
          Concluded task.id w₀.journal request := by
        have heq : applied = w₀.tables.fixApplied task.id := happlied.trans h₂.same.applied
        rw [heq]
        exact hfix.concluded_iff hrequest
      split_ifs with hany hheads
      · refine keeps_pure hfrom₃ ?_
        intro other hother
        rw [hrequest] at hother
        cases hother
        exact ⟨fun _ => rfl, fun hopen => absurd (hconcluded.mp hany) hopen⟩
      · refine keeps_pure hfrom₃ ?_
        intro other hother
        rw [hrequest] at hother
        cases hother
        exact ⟨fun hdone => absurd (hconcluded.mpr hdone) hany, fun _ => Or.inr rfl⟩
      · exact keeps_fix hfix h₃ hrequest fun hdone => hany (hconcluded.mpr hdone)

end Fixing

/-! ## Every handler -/

section Handlers

variable {deps : StageDependencies} {task : Task} {loaded : LoadedWorkspaces}

/-- A procedure that may write anything but a fix request or a conclusion. -/
abbrev Neutral {α : Type} (procedure : StageProc α) : Prop :=
  procedure.Only fun call => call.neutral = true

theorem Routine.neutral {α : Type} {procedure : StageProc α} (h : Routine procedure) :
    Neutral procedure :=
  only_mono (fun _ => neutral_of_routine) h

theorem neutral_applyImplementation (plan : AnalysisResult) (scope attempt : Nat)
    (usage : Option AgentUsage) (output : ChangeResult) :
    Neutral (applyImplementation deps task loaded plan scope attempt usage output) := by
  refine only_bind (Routine.neutral (routine_inspectAndCommit _)) ?_
  rintro (⟨commits, evidence⟩ | ⟨detail, violations, evidence⟩ | detail)
  · refine only_bind (only_database.mpr rfl) fun _ => ?_
    exact only_bind (only_database.mpr rfl) fun _ => trivial
  · exact Routine.neutral (routine_rejectImplementation _ _ _ _ _ _)
  · exact only_bind (only_database.mpr rfl) fun _ => trivial

theorem neutral_implementationResult (plan : AnalysisResult) (scope attempt : Nat)
    (usage : Option AgentUsage) (result : AgentRunResult ChangeResult) :
    Neutral (implementationResult deps task loaded plan scope attempt usage result) := by
  refine only_bind (Routine.neutral (routine_pauseOrInterruption result)) ?_
  rintro (_ | ⟨outcome, category⟩)
  · dsimp only
    split
    · split_ifs
      · exact Routine.neutral (routine_agentBlocked _ _ _ _)
      · exact neutral_applyImplementation _ _ _ _ _
    · exact Routine.neutral (routine_rejectImplementation _ _ _ _ _ _)
    · exact trivial
  · exact Routine.neutral (routine_stopAttempt _ _ _ _)

theorem neutral_implementationStage : Neutral (implementationStage deps task) := by
  refine only_bind (Routine.neutral routine_loadTaskWorkspaces) fun loaded => ?_
  refine only_bind (Routine.neutral routine_requireAnalysis) fun plan => ?_
  refine only_bind (Routine.neutral (routine_readCheckpoint _ _)) ?_
  rintro (_ | committed)
  · dsimp only
    split
    · exact trivial
    · refine only_bind (Routine.neutral (routine_routed _)) ?_
      rintro (_ | model)
      · exact trivial
      · refine only_bind (Routine.neutral routine_restoreAll) fun _ => ?_
        refine only_bind (only_database.mpr rfl) fun _ => ?_
        refine only_bind (Routine.neutral (routine_readCheckpoint _ _)) fun _ => ?_
        refine only_bind (only_service.mpr rfl) fun _ => ?_
        refine only_bind (only_database.mpr rfl) fun scope => ?_
        refine only_bind (only_service.mpr rfl) fun run => ?_
        exact neutral_implementationResult _ _ _ _ _
  · exact Routine.neutral (routine_reuseImplementation _)

/-- Every execution of a handler keeps the history, whenever it ends. -/
theorem keeps_executionHandler {ω : Type} {services : Services ω} {deps : DeliveryDependencies}
    {deliver : Bool} {handler : StageProc StageOutcome} {w : StageWorld ω}
    (hhandler : executionHandler deps deliver task = some handler)
    (hfix : FixHistory task.id w) :
    handler.Keeps (serves services ⟨task.id, task.state⟩) (FixHistory task.id)
      (fun _ _ => True) w := by
  -- Only TESTING, FIXING and REVIEWING touch the two slots.
  have hneutral : ∀ procedure : StageProc StageOutcome, Neutral procedure →
      procedure.Keeps (serves services ⟨task.id, task.state⟩) (FixHistory task.id)
        (fun _ _ => True) w := by
    intro procedure h
    exact keeps_mono (fun _ hI => hI) (fun _ _ _ _ => trivial) (keeps_neutral h hfix)
  unfold executionHandler at hhandler
  split at hhandler
  · cases hhandler
    exact hneutral _ (Routine.neutral (routine_preparationStage routine_analysisStage))
  · cases hhandler
    exact hneutral _ (Routine.neutral routine_readyStage)
  · cases hhandler
    exact hneutral _ neutral_implementationStage
  · rename_i hstate
    cases hhandler
    rw [hstate]
    exact keeps_testingStage hfix
  · rename_i hstate
    cases hhandler
    rw [hstate]
    exact keeps_mono (fun _ hI => hI.history) (fun _ _ _ _ => trivial) (keeps_fixingStage hfix)
  · rename_i hstate
    cases hhandler
    rw [hstate]
    exact keeps_reviewStage deliver hfix
  · split_ifs at hhandler
    cases hhandler
    exact hneutral _ (only_pullRequestStage (fun _ => neutral_of_routine) fun _ _ _ => rfl)
  · split_ifs at hhandler
    cases hhandler
    exact hneutral _ (Routine.neutral routine_observationStage)
  · split_ifs at hhandler
    cases hhandler
    exact hneutral _ (Routine.neutral routine_observationStage)
  · cases hhandler

end Handlers

/-! ## Runs -/

/-- One step around a task: an execution of one of its handlers, up to its end or to a crash,
or in between a call for another task, or something outside. -/
inductive TaskStep {ω : Type} (taskId : TaskId) : StageWorld ω → StageWorld ω → Prop
  | handled {services : Services ω} {deps : DeliveryDependencies} {deliver : Bool} {task : Task}
      {handler : StageProc StageOutcome} {ending : Ending StageError StageOutcome}
      {w w' : StageWorld ω} (htask : task.id = taskId)
      (hhandler : executionHandler deps deliver task = some handler)
      (hexec : Exec (serves services ⟨task.id, task.state⟩) handler w ending w') :
      TaskStep taskId w w'
  | other {services : Services ω} {writer : StageWriter} {call : StageCall}
      {answer : Except StageError call.Answer} {w w' : StageWorld ω}
      (hother : writer.taskId ≠ taskId) (h : serves services writer w call answer w') :
      TaskStep taskId w w'
  | outside {w : StageWorld ω} {outside : ω} : TaskStep taskId w { w with outside }

/-- The task has neither attempts nor checkpoints, and nothing has happened. -/
structure NewTask {ω : Type} (taskId : TaskId) (w : StageWorld ω) : Prop where
  attempts : ∀ row ∈ w.tables.taskAttempts.rows, row.taskId ≠ taskId
  checkpoints : ∀ row ∈ w.tables.taskCheckpoints.rows, row.taskId ≠ taskId
  journal : w.journal = []

/-- The attempts of every stage are consecutive from 1, the last one at most incomplete. -/
def AttemptsNumbered {ω : Type} (taskId : TaskId) (w : StageWorld ω) : Prop :=
  ∀ stage, ∃ last, w.tables.Numbered taskId stage last

section Runs

variable {ω : Type} {services : Services ω} {taskId : TaskId} {writer : StageWriter}
  {w w' : StageWorld ω}

theorem AttemptsNumbered.serves {call : StageCall} {answer : Except StageError call.Answer}
    (h : AttemptsNumbered taskId w) (hserves : serves services writer w call answer w') :
    AttemptsNumbered taskId w' := by
  cases call with
  | database call =>
      rcases hserves with ⟨holds, now, tables, value, hperform, rfl, _⟩ | ⟨rfl, _⟩
      · intro stage
        rcases h stage with ⟨last, hnumbered⟩
        exact (committed hperform).attemptChange.numbered hnumbered
      · exact h
  | service call =>
      rcases hserves with ⟨outside, _, rfl⟩
      exact h

theorem TaskStep.attemptsNumbered (hstep : TaskStep taskId w w') (h : AttemptsNumbered taskId w) :
    AttemptsNumbered taskId w' := by
  cases hstep with
  | handled _ _ hexec =>
      exact wp_iff.mp (wp_invariant (AttemptsNumbered taskId)
        (fun _ _ _ _ hserves hsofar => hsofar.serves hserves) _ h) _ _ hexec
  | other _ hserves => exact h.serves hserves
  | outside => exact h

theorem TaskStep.fixHistory (hstep : TaskStep taskId w w') (h : FixHistory taskId w) :
    FixHistory taskId w' := by
  cases hstep with
  | handled htask hhandler hexec =>
      subst htask
      exact (keeps_iff.mp (keeps_executionHandler hhandler h) _ _ hexec).1
  | other hother hserves =>
      exact h.same (sameFixes_serves hserves fun htask => absurd htask hother)
  | outside => exact h.same ⟨rfl, rfl, rfl, rfl, fun _ _ hdone => hdone⟩

/-- What holds of the fixes and the attempts of a task in a world. -/
structure FixedOnce {ω : Type} (taskId : TaskId) (w : StageWorld ω) : Prop where
  distinct : ((requestsOf taskId w.journal).map (·.id)).Nodup
  /-- `FIXING` goes on without the fixer exactly when this request is concluded. Without a
  conclusion, an execution that returns and has not asked the fixer blocks the task. -/
  skips : ∀ (services : Services ω) deps task ending w' request, task.id = taskId →
    w.tables.fixRequest taskId = some request →
    Exec (serves services ⟨taskId, fixing⟩) (fixingStage deps task) w ending w' →
      (Concluded taskId w.journal request → fixerRuns w'.journal = fixerRuns w.journal) ∧
        ∀ outcome, ending = .returned outcome →
          (Concluded taskId w.journal request → outcome.advancesTo testing = true) ∧
            (outcome.advancesTo testing = true →
              (fixerRuns w'.journal = fixerRuns w.journal ↔
                Concluded taskId w.journal request)) ∧
            (¬ Concluded taskId w.journal request →
              fixerRuns w'.journal = fixerRuns w.journal → outcome.advancesTo blocked = true)
  /-- A conclusion of an older request does not count for a newer one. -/
  newer : (requestsOf taskId w.journal).Pairwise fun older newer =>
    ∀ applied : FixApplied, applied.requestId = older.id → applied.applies newer = false
  numbered : AttemptsNumbered taskId w

theorem FixHistory.fixedOnce (h : FixHistory taskId w) (hnumbered : AttemptsNumbered taskId w) :
    FixedOnce taskId w where
  distinct := h.distinct
  skips := by
    rintro services deps task ending w' request rfl hrequest hexec
    rcases keeps_iff.mp (keeps_fixingStage h) _ _ hexec with ⟨hfixing, hreturns⟩
    refine ⟨hfixing.idle request hrequest, ?_⟩
    rintro outcome rfl
    rcases hreturns outcome rfl request hrequest with ⟨hgoes, hruns⟩
    have hblocks : ¬ Concluded task.id w.journal request →
        fixerRuns w'.journal = fixerRuns w.journal → outcome.advancesTo blocked = true := by
      intro hopen hsame
      rcases hruns hopen with hmore | hblocked
      · omega
      · exact hblocked
    refine ⟨hgoes, ?_, hblocks⟩
    intro htesting
    constructor
    · intro hsame
      by_contra hopen
      exact advancesTo_testing_blocked htesting (hblocks hopen hsame)
    · exact hfixing.idle request hrequest
  newer := by
    have hdistinct := h.distinct
    rw [List.Nodup, List.pairwise_map] at hdistinct
    refine hdistinct.imp ?_
    intro older newer hne applied hid
    unfold FixApplied.applies
    rw [hid]
    exact decide_eq_false hne
  numbered := hnumbered

/-- Fix requests have distinct ids, `FIXING` skips the fixer exactly for a request that was
concluded, and attempts are numbered consecutively, in every run of one task. -/
theorem fix_requests_concluded_once {w₀ : StageWorld ω} (hnew : NewTask taskId w₀)
    (hrun : ReflTransGen (TaskStep taskId) w₀ w) : FixedOnce taskId w := by
  have hinit : FixHistory taskId w₀ ∧ AttemptsNumbered taskId w₀ := by
    constructor
    · exact fixHistory_new hnew.journal hnew.checkpoints
    · intro stage
      exact ⟨0, StageTables.numbered_new hnew.attempts⟩
  have hrest : FixHistory taskId w ∧ AttemptsNumbered taskId w := by
    induction hrun with
    | refl => exact hinit
    | tail _ hstep ih => exact ⟨hstep.fixHistory ih.1, hstep.attemptsNumbered ih.2⟩
  exact hrest.1.fixedOnce hrest.2

/-! ### A sample -/

def fixDelivery : DeliveryDependencies :=
  { sampleDelivery with
    config :=
      { timezone := "UTC"
        models :=
          { tiers := [("terra", ⟨"medium", none⟩)], analyzer := ⟨"terra", .high⟩
            reviewer := ⟨"terra", .high⟩ } } }

/-- The plan is accepted, the gate fails, and so does the fixer. -/
def fixAnswers : (call : ServiceCall) → Except StageError call.Answer
  | .aborted => .ok false
  | .listUnfinishedBlockers _ => .ok []
  | .prepareWorkspace input => .ok ⟨input.repository, "/work", input.branch, "base"⟩
  | .verifyRepository _ => .ok ()
  | .verifyOwnedWorkspace _ => .ok "head"
  | .restoreWorkspace _ => .ok false
  | .loadDocumentation _ => .ok ()
  | .snapshot _ => .ok ⟨"head", ""⟩
  | .runAgent .analyzer _ => .ok { result := .completed ⟨.proceed, [], [⟨.web, ["app.ts"]⟩]⟩ }
  | .runAgent .fixer _ => .ok { result := .failure .failed "gave up" }
  | .runQuality repository _ _ =>
      .ok ⟨repository, false, none, false, [⟨"test", false, "exited", some 1⟩]⟩
  | _ => .error (.other "offline")

/-- The handlers of the sample, for the one task in this state. -/
def fixHandler (state : TaskState) : StageProc StageOutcome :=
  (executionHandler fixDelivery true (sampleTask 1 state)).getD (pure .interrupted)

/-- An execution to its end. -/
def fixEnded (state : TaskState) (w : StageWorld Unit) : StageWorld Unit :=
  ((fixHandler state).finish (respondFixed fixAnswers ⟨1, state⟩) w).2

/-- An execution that crashes after so many calls. -/
def fixCrashed (state : TaskState) (count : Nat) (w : StageWorld Unit) : StageWorld Unit :=
  ((fixHandler state).after (respondFixed fixAnswers ⟨1, state⟩) count (w, [])).2.1

theorem taskStep_fixEnded {state : TaskState} {handler : StageProc StageOutcome}
    (hhandler : executionHandler fixDelivery true (sampleTask 1 state) = some handler)
    (w : StageWorld Unit) : TaskStep 1 w (fixEnded state w) := by
  have hexec := exec_finish (serves_respondFixed fixAnswers ⟨1, state⟩) handler w
  have hsame : fixHandler state = handler := by
    unfold fixHandler
    rw [hhandler]
    rfl
  unfold fixEnded
  rw [hsame]
  exact .handled rfl hhandler hexec

theorem taskStep_fixCrashed {state : TaskState} {handler : StageProc StageOutcome}
    (hhandler : executionHandler fixDelivery true (sampleTask 1 state) = some handler)
    (count : Nat) (w : StageWorld Unit) : TaskStep 1 w (fixCrashed state count w) := by
  have hexec := exec_unrecorded
    (exec_after (serves_respondFixed fixAnswers ⟨1, state⟩) count handler (w, []))
  have hsame : fixHandler state = handler := by
    unfold fixHandler
    rw [hhandler]
    rfl
  unfold fixCrashed
  rw [hsame]
  exact .handled rfl hhandler hexec

def fixStart : StageWorld Unit where
  tables := { taskWorkUnits := Table.empty.insert { taskId := 1, repository := "web" } }
  outside := ()

/-- The gate asks for a fix; the first fixer run dies with its answer, the second concludes the
request, and a third execution finds it concluded. -/
def fixSample : StageWorld Unit :=
  fixEnded fixing (fixEnded fixing (fixCrashed fixing 9 (fixEnded testing
    (fixEnded analyzing fixStart))))

theorem fix_requests_concluded_once_crashed : FixedOnce 1 fixSample ∧
    (requestsOf 1 fixSample.journal).map (·.id) = ["quality-1"] ∧
    (conclusionsOf 1 fixSample.journal).map (·.requestId) = ["quality-1"] ∧
    fixerRuns fixSample.journal = 2 := by
  have hnew : NewTask 1 fixStart := by
    constructor
    · intro row hrow
      cases hrow
    · intro row hrow
      cases hrow
    · rfl
  have hrun : ReflTransGen (TaskStep 1) fixStart fixSample :=
    ((((ReflTransGen.single (taskStep_fixEnded rfl _)).tail (taskStep_fixEnded rfl _)).tail
      (taskStep_fixCrashed rfl 9 _)).tail (taskStep_fixEnded rfl _)).tail
      (taskStep_fixEnded rfl _)
  exact ⟨fix_requests_concluded_once hnew hrun, by decide +kernel, by decide +kernel,
    by decide +kernel⟩

end Runs

end Orchestrator
