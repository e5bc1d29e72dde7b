import Orchestrator.Execution.SecretScan
import Orchestrator.Execution.Stages.FixRuns
import Orchestrator.Scheduler.ExecutionLimit
import Orchestrator.Scheduler.HandledRuns

/-! # The execution of a task is bounded

Three loops lead back: an implementation is rejected, a quality gate fails, a review asks for
changes. Each of them raises a counter that has a limit. The rank of the state together with
what is left of the limits goes down with every stage transition, whichever handler makes it
and whatever pauses, interruptions and crashes lie in between; so between two retries of an
operator a task makes only so many of them.
-/

namespace Orchestrator

open Kit TaskState Relation

/-! ## The history of one row -/

section History

variable {config : SchedulerConfig} {s : System} {event : Event} {taskId : TaskId}
  {task row : Task}

/-- Recovery adds one record to the history of a task that it selects. -/
theorem historyEdges_recovered {reason : String} {clock : Instant} {store : Store}
    {tasks : List Task} (hselected : Selected store tasks) (hmem : task ∈ tasks) :
    historyEdges (recoveredStore reason clock store tasks) task.id =
      historyEdges store task.id ++ [(task.state, blocked)] := by
  induction tasks generalizing store with
  | nil => cases hmem
  | cons head tasks ih =>
      -- The first task is blocked first.
      change historyEdges (recoveredStore reason clock
        (store.moved head (recoveryInput reason) clock) tasks) task.id = _
      have hhead := historyEdges_moved store head (recoveryInput reason) clock task.id
      obtain ⟨hnotin, _⟩ := List.nodup_cons.mp hselected.nodup
      rcases List.mem_cons.mp hmem with rfl | hmem
      · rw [if_pos rfl] at hhead
        have hstate : (recoveryInput reason).toState = blocked := rfl
        rw [hstate] at hhead
        rw [← hhead]
        apply historyEdges_recoveredStore
        intro other hother hid
        exact hnotin (hid ▸ List.mem_map_of_mem hother)
      · have hne : head.id ≠ task.id := by
          intro hid
          exact hnotin (hid ▸ List.mem_map_of_mem hmem)
        rw [if_neg hne, List.append_nil] at hhead
        rw [← hhead]
        exact ih (hselected.tail _ _) hmem

/-- An event leaves the state and the history of a task, or it changes the state and records
the change. -/
theorem step_history (htask : s.store.getTask taskId = some task)
    (hrow : (step config s event).store.getTask taskId = some row) :
    (historyEdges (step config s event).store taskId = historyEdges s.store taskId ∧
        row.state = task.state) ∨
      (historyEdges (step config s event).store taskId =
          historyEdges s.store taskId ++ [(task.state, row.state)] ∧
        canTransition task.state row.state = true) := by
  cases step_change config s event with
  | @put old new hput _ =>
      -- One row is replaced: that of the task, with its edge recorded, or another.
      rw [hput.getTask] at hrow
      split_ifs at hrow with hself
      · cases hrow
        have hid : taskId = old.id := hself.trans hput.sameId
        obtain rfl : old = task := by
          have hfound := hput.found
          rw [← hid, htask] at hfound
          cases hfound
          rfl
        rcases hput.recorded with ⟨hsame, hstate⟩ | ⟨reason, createdAt, hlegal, hrecord⟩
        · exact Or.inl ⟨historyEdges_of_eq hsame, hstate⟩
        · refine Or.inr ⟨?_, hlegal⟩
          rw [historyEdges_snoc hrecord, if_pos hid.symm]
      · rw [htask] at hrow
        cases hrow
        have hne : old.id ≠ taskId := by
          intro heq
          exact hself (heq ▸ hput.sameId.symm)
        refine Or.inl ⟨?_, rfl⟩
        rcases hput.recorded with ⟨hsame, _⟩ | ⟨reason, createdAt, _, hrecord⟩
        · exact historyEdges_of_eq hsame
        · rw [historyEdges_snoc hrecord, if_neg hne, List.append_nil]
  | same htasks _ hhistory =>
      have hkept : s.store.getTask taskId = some row := by
        rw [Store.getTask, ← htasks]
        exact hrow
      rw [htask] at hkept
      cases hkept
      exact Or.inl ⟨historyEdges_of_eq hhistory, rfl⟩
  | @created new units hfresh _ htasks _ _ hhistory =>
      refine Or.inl ⟨historyEdges_of_eq hhistory, ?_⟩
      have hne : taskId ≠ new.id := by
        intro hid
        rw [← hid, htask] at hfresh
        cases hfresh
      rw [Store.getTask, htasks, Table.find?_insert_of_ne hne] at hrow
      have hkept : s.store.getTask taskId = some row := hrow
      rw [htask] at hkept
      cases hkept
      rfl
  | @recovered condition reason locked clock _ hstore =>
      -- A recovery moves the candidates at once, each with an edge of its own.
      have hselected := selected_recoveryCandidates s.store condition locked
      rw [hstore, getTask_recoveredStore _ _ hselected, htask] at hrow
      rw [hstore]
      have hid : task.id = taskId := (Store.getTask_eq_some_iff.mp htask).2
      simp only [Option.map_some, Option.some.injEq] at hrow
      split_ifs at hrow with hcandidate
      · subst hrow
        refine Or.inr ⟨?_, canTransition_of_candidate hcandidate⟩
        rw [← hid]
        exact historyEdges_recovered hselected hcandidate
      · subst hrow
        refine Or.inl ⟨?_, rfl⟩
        apply historyEdges_recoveredStore
        intro other hother hsame
        have hfound := hselected.rows other hother
        rw [hsame, htask] at hfound
        cases hfound
        exact hcandidate hother

end History

/-! ## Stage transitions and what is left of them -/

/-- A transition out of a state in which the task is worked on, other than a pause. -/
def isStageTransition (edge : TaskState × TaskState) : Bool :=
  (queued :: executingStates).contains edge.1 && !pauseStates.contains edge.2

/-- `FIXING` is entered, and not resumed. -/
def entersFixing (edge : TaskState × TaskState) : Bool :=
  edge.2 = fixing && !pauseStates.contains edge.1

/-- Where the task is, or where it goes on after its pause. -/
def Task.workState (task : Task) : TaskState :=
  if task.state ∈ pauseStates then task.resumeState.getD task.state else task.state

/-- How far the end is, if nothing leads back. -/
def stageRank : TaskState → Nat
  | .queued => 6
  | .analyzing => 5
  | .ready => 4
  | .implementing => 3
  | .fixing => 3
  | .testing => 2
  | .reviewing => 1
  | _ => 0

/-- The rank, and twice or three times what is left of each limit: the way back of a rejected
implementation and of a failed quality gate is one state, that of a review two. -/
def remainingTransitions (deps : StageDependencies) (task : Task) : Nat :=
  stageRank task.workState +
    2 * (deps.config.maxImplementationAttempts - task.implementationAttempts) +
    2 * (deps.maxQualityFixAttempts - task.qualityFixAttempts) +
    3 * (deps.maxReviewCycles - task.reviewAttempts)

/-- The number of stage transitions that the limits allow. -/
def transitionBound (deps : StageDependencies) : Nat :=
  6 + 2 * deps.config.maxImplementationAttempts + 2 * deps.maxQualityFixAttempts +
    3 * deps.maxReviewCycles

/-- A task whose history is `edges` has kept within its limits. -/
structure StageBudget (deps : StageDependencies) (edges : List (TaskState × TaskState))
    (task : Task) : Prop where
  implementationAttempts : task.implementationAttempts ≤ deps.config.maxImplementationAttempts
  qualityFixAttempts : task.qualityFixAttempts ≤ deps.maxQualityFixAttempts
  reviewAttempts : task.reviewAttempts ≤ deps.maxReviewCycles
  fixes : edges.countP entersFixing ≤ task.qualityFixAttempts + task.reviewAttempts
  transitions : edges.countP isStageTransition + remainingTransitions deps task ≤
    transitionBound deps

section Budget

variable {deps : StageDependencies} {config : SchedulerConfig} {s : System} {event : Event}
  {edges : List (TaskState × TaskState)} {task row : Task}

theorem stageRank_pos {state : TaskState} (h : state ∈ queued :: executingStates) :
    1 ≤ stageRank state := by
  revert h
  cases state <;> decide

theorem stageRank_closed {state : TaskState} (h : state ∈ closedStates) :
    stageRank state = 0 ∧ state ∉ pauseStates ∧ state ≠ fixing := by
  revert h
  cases state <;> decide

/-- Neither the way into a pause nor the way out of it counts. -/
theorem pauseEdge {source target : TaskState}
    (h : source ∈ pauseStates ∨ target ∈ pauseStates) :
    isStageTransition (source, target) = false ∧ entersFixing (source, target) = false := by
  rcases h with hsource | htarget
  · have hidle : ¬ (source = queued ∨ source ∈ executingStates) := by
      revert hsource
      cases source <;> decide
    unfold isStageTransition entersFixing
    simp [hidle, hsource]
  · have hfix : target ≠ fixing := by
      intro hfixing
      rw [hfixing] at htarget
      exact absurd htarget (by decide)
    unfold isStageTransition entersFixing
    simp [hfix, htarget]

theorem workState_of_not_paused (h : task.state ∉ pauseStates) : task.workState = task.state :=
  if_neg h

/-- A task that goes on from its pause has not moved. -/
theorem workState_of_paused {state : TaskState} (h : task.state ∈ pauseStates)
    (hresume : task.resumeState = some state) : task.workState = state := by
  unfold Task.workState
  rw [if_pos h, hresume]
  rfl

theorem remaining_of_counters (h : SameCounters task row) (hrank : stageRank row.workState =
    stageRank task.workState) : remainingTransitions deps row = remainingTransitions deps task := by
  unfold remainingTransitions
  rw [hrank, h.implementationAttempts, h.qualityFixAttempts, h.reviewAttempts]

/-- A change of state that raises no counter, and costs no more rank than it takes. -/
theorem StageBudget.moved {edge : TaskState × TaskState} (h : StageBudget deps edges task)
    (hcounters : SameCounters task row) (hfix : entersFixing edge = false)
    (hrank : (if isStageTransition edge then 1 else 0) + stageRank row.workState ≤
      stageRank task.workState) : StageBudget deps (edges ++ [edge]) row where
  implementationAttempts := by
    rw [hcounters.implementationAttempts]
    exact h.implementationAttempts
  qualityFixAttempts := by
    rw [hcounters.qualityFixAttempts]
    exact h.qualityFixAttempts
  reviewAttempts := by
    rw [hcounters.reviewAttempts]
    exact h.reviewAttempts
  fixes := by
    rw [List.countP_append, List.countP_singleton, hfix, hcounters.qualityFixAttempts,
      hcounters.reviewAttempts]
    exact h.fixes
  transitions := by
    have hbefore := h.transitions
    unfold remainingTransitions at hbefore ⊢
    rw [List.countP_append, List.countP_singleton, hcounters.implementationAttempts,
      hcounters.qualityFixAttempts, hcounters.reviewAttempts]
    omega

/-- Nothing that counts has changed. -/
theorem StageBudget.kept (h : StageBudget deps edges task) (hcounters : SameCounters task row)
    (hrank : stageRank row.workState = stageRank task.workState) :
    StageBudget deps edges row where
  implementationAttempts := hcounters.implementationAttempts ▸ h.implementationAttempts
  qualityFixAttempts := hcounters.qualityFixAttempts ▸ h.qualityFixAttempts
  reviewAttempts := hcounters.reviewAttempts ▸ h.reviewAttempts
  fixes := by
    rw [hcounters.qualityFixAttempts, hcounters.reviewAttempts]
    exact h.fixes
  transitions := by
    rw [remaining_of_counters hcounters hrank]
    exact h.transitions

/-- A task that leaves the workflow. -/
theorem StageBudget.ended (h : StageBudget deps edges task) (hcounters : SameCounters task row)
    (hstate : row.state ∈ closedStates) :
    StageBudget deps (edges ++ [(task.state, row.state)]) row := by
  obtain ⟨hrank, hpause, hfixing⟩ := stageRank_closed hstate
  have hfix : entersFixing (task.state, row.state) = false := by
    unfold entersFixing
    simp [hfixing]
  refine h.moved hcounters hfix ?_
  rw [workState_of_not_paused hpause, hrank]
  split_ifs with hcounts
  · -- It was worked on, so its rank was positive.
    have hsource : task.state ∈ queued :: executingStates := by
      unfold isStageTransition at hcounts
      simp only [Bool.and_eq_true] at hcounts
      exact List.contains_iff_mem.mp hcounts.1
    have hopen : task.state ∉ pauseStates := by
      intro hpaused
      revert hsource hpaused
      cases task.state <;> decide
    rw [workState_of_not_paused hopen]
    have hpos := stageRank_pos hsource
    omega
  · omega

/-- What a move reads of the snapshot is the same in a row that is as far. -/
theorem SameProgress.stageMove {toState : TaskState} {counter : Option AttemptCounter}
    (hsame : SameProgress task row) (h : StageMove deps task toState counter) :
    StageMove deps row toState counter := by
  obtain ⟨hstate, himplementation, hquality, hreview⟩ := hsame
  cases h with
  | blocked => exact .blocked
  | failed hsource => exact .failed (hstate ▸ hsource)
  | analyzed hsource => exact .analyzed (hstate.trans hsource)
  | prepared hsource => exact .prepared (hstate.trans hsource)
  | implemented hsource hlimit =>
      exact .implemented (hstate.trans hsource) (himplementation ▸ hlimit)
  | rejected hsource hlimit => exact .rejected (hstate.trans hsource) (himplementation ▸ hlimit)
  | exhausted hsource hlimit => exact .exhausted (hstate.trans hsource) (himplementation ▸ hlimit)
  | reused hsource => exact .reused (hstate.trans hsource)
  | passed hsource => exact .passed (hstate.trans hsource)
  | qualityFix hsource hlimit => exact .qualityFix (hstate.trans hsource) (hquality ▸ hlimit)
  | fixed hsource => exact .fixed (hstate.trans hsource)
  | approved hsource => exact .approved (hstate.trans hsource)
  | reviewFix hsource hlimit => exact .reviewFix (hstate.trans hsource) (hreview ▸ hlimit)
  | delivered hsource => exact .delivered (hstate.trans hsource)
  | observed hsource hto => exact .observed (hstate ▸ hsource) hto

/-- The row after the result of a handler: the new state, and one counter raised or none. -/
structure Advances (task row : Task) (toState : TaskState) (counter : Option AttemptCounter) :
    Prop where
  state : row.state = toState
  implementationAttempts : row.implementationAttempts =
    if counter = some .implementationAttempts then task.implementationAttempts + 1
    else task.implementationAttempts
  qualityFixAttempts : row.qualityFixAttempts =
    if counter = some .qualityFixAttempts then task.qualityFixAttempts + 1
    else task.qualityFixAttempts
  reviewAttempts : row.reviewAttempts =
    if counter = some .reviewAttempts then task.reviewAttempts + 1 else task.reviewAttempts

theorem advances_moved {run : RunEntry} {stage : Task} {outcome : AdvanceOutcome}
    {clock : Instant} : Advances task (task.moved (advanceInput run stage outcome).locked clock)
      outcome.toState outcome.incrementCounter where
  state := rfl
  implementationAttempts := rfl
  qualityFixAttempts := rfl
  reviewAttempts := rfl

theorem Advances.sameCounters {toState : TaskState} (h : Advances task row toState none) :
    SameCounters task row :=
  ⟨h.implementationAttempts, h.qualityFixAttempts, h.reviewAttempts⟩

/-- A move that raises no counter goes down in rank, or it is after the pull requests. -/
theorem StageBudget.forward {source target : TaskState} (h : StageBudget deps edges task)
    (hadvances : Advances task row target none) (hsource : task.state = source)
    (hpauses : source ∉ pauseStates ∧ target ∉ pauseStates) (hfix : target ≠ fixing)
    (hrank : (if isStageTransition (source, target) then 1 else 0) + stageRank target ≤
      stageRank source) : StageBudget deps (edges ++ [(task.state, row.state)]) row := by
  have htarget := hadvances.state
  have hfixes : entersFixing (task.state, row.state) = false := by
    unfold entersFixing
    simp [htarget, hfix]
  refine h.moved hadvances.sameCounters hfixes ?_
  rw [workState_of_not_paused (htarget ▸ hpauses.2), htarget,
    workState_of_not_paused (hsource ▸ hpauses.1), hsource]
  exact hrank

/-- A counter is raised below its limit only. -/
theorem StageBudget.limits {toState : TaskState} {counter : Option AttemptCounter}
    (h : StageBudget deps edges task) (hmove : StageMove deps task toState counter)
    (hadvances : Advances task row toState counter) :
    row.implementationAttempts ≤ deps.config.maxImplementationAttempts ∧
      row.qualityFixAttempts ≤ deps.maxQualityFixAttempts ∧
      row.reviewAttempts ≤ deps.maxReviewCycles := by
  have himplementations := h.implementationAttempts
  have hqualities := h.qualityFixAttempts
  have hreviews := h.reviewAttempts
  obtain ⟨_, himplementation, hquality, hreview⟩ := hadvances
  rw [himplementation, hquality, hreview]
  refine ⟨?_, ?_, ?_⟩
  · split_ifs with hraised
    · subst hraised
      cases hmove <;> omega
    · exact himplementations
  · split_ifs with hraised
    · subst hraised
      cases hmove
      omega
    · exact hqualities
  · split_ifs with hraised
    · subst hraised
      cases hmove
      omega
    · exact hreviews

/-- A move that raises a counter: what it leads back by is paid from the limit. -/
theorem StageBudget.raised {source target : TaskState} {counter : AttemptCounter}
    (h : StageBudget deps edges task) (hadvances : Advances task row target (some counter))
    (hsource : task.state = source) (hpauses : source ∉ pauseStates ∧ target ∉ pauseStates)
    (hmove : StageMove deps task target (some counter))
    (hfix : target = fixing → counter ≠ .implementationAttempts)
    (hrank : 1 + stageRank target ≤
      stageRank source + (if counter = .reviewAttempts then 3 else 2)) :
    StageBudget deps (edges ++ [(task.state, row.state)]) row := by
  obtain ⟨himplementation, hquality, hreview⟩ := h.limits hmove hadvances
  obtain ⟨hrow, himplementations, hqualities, hreviews⟩ := hadvances
  obtain ⟨_, _, _, hfixes, htransitions⟩ := h
  refine ⟨himplementation, hquality, hreview, ?_, ?_⟩
  · rw [List.countP_append, List.countP_singleton, hrow]
    -- `FIXING` is entered with one of the two counters that its limit is made of.
    have hcost : (if entersFixing (task.state, target) then 1 else 0) + task.qualityFixAttempts +
        task.reviewAttempts ≤ row.qualityFixAttempts + row.reviewAttempts := by
      by_cases hentered : target = fixing
      · have hcounter := hfix hentered
        cases counter with
        | implementationAttempts => exact absurd rfl hcounter
        | qualityFixAttempts =>
            simp only [if_true, reduceCtorEq, Option.some.injEq, if_false] at hqualities hreviews
            split_ifs <;> omega
        | reviewAttempts =>
            simp only [if_true, reduceCtorEq, Option.some.injEq, if_false] at hqualities hreviews
            split_ifs <;> omega
      · have hzero : entersFixing (task.state, target) = false := by
          unfold entersFixing
          simp [hentered]
        rw [hzero]
        split_ifs at hqualities hreviews <;> simp <;> omega
    omega
  · rw [List.countP_append, List.countP_singleton]
    have hwork : row.workState = target := by
      rw [workState_of_not_paused (hrow ▸ hpauses.2), hrow]
    have hworked : task.workState = source := by
      rw [workState_of_not_paused (hsource ▸ hpauses.1), hsource]
    have hcost : (if isStageTransition (task.state, row.state) then 1 else 0) ≤ 1 := by
      split_ifs <;> omega
    unfold remainingTransitions at htransitions ⊢
    rw [hworked] at htransitions
    rw [hwork]
    cases counter with
    | implementationAttempts =>
        simp only [if_true, reduceCtorEq, Option.some.injEq, if_false] at *
        omega
    | qualityFixAttempts =>
        simp only [if_true, reduceCtorEq, Option.some.injEq, if_false] at *
        omega
    | reviewAttempts =>
        simp only [if_true, reduceCtorEq, Option.some.injEq, if_false] at *
        omega

/-- Every move of a handler stays within the limits, and uses up what it leads back by. -/
theorem StageBudget.advanced {toState : TaskState} {counter : Option AttemptCounter}
    (h : StageBudget deps edges task) (hmove : StageMove deps task toState counter)
    (hadvances : Advances task row toState counter) :
    StageBudget deps (edges ++ [(task.state, row.state)]) row := by
  have hended : ∀ {state : TaskState}, Advances task row state none → state ∈ closedStates →
      StageBudget deps (edges ++ [(task.state, row.state)]) row := by
    intro state hadvances hclosed
    exact h.ended hadvances.sameCounters (hadvances.state ▸ hclosed)
  cases hmove with
  | blocked => exact hended hadvances (by decide)
  | failed _ => exact hended hadvances (by decide)
  | analyzed hsource => exact h.forward hadvances hsource (by decide) (by decide) (by decide)
  | prepared hsource => exact h.forward hadvances hsource (by decide) (by decide) (by decide)
  | reused hsource => exact h.forward hadvances hsource (by decide) (by decide) (by decide)
  | passed hsource => exact h.forward hadvances hsource (by decide) (by decide) (by decide)
  | fixed hsource => exact h.forward hadvances hsource (by decide) (by decide) (by decide)
  | approved hsource => exact h.forward hadvances hsource (by decide) (by decide) (by decide)
  | delivered hsource => exact h.forward hadvances hsource (by decide) (by decide) (by decide)
  | observed hsource hto =>
      -- Past the pull requests nothing counts any more.
      simp only [List.mem_cons, List.not_mem_nil, or_false] at hsource hto
      rcases hsource with hsource | hsource <;> rcases hto with rfl | rfl | rfl <;>
        exact h.forward hadvances hsource (by decide) (by decide) (by decide)
  | implemented hsource hlimit =>
      exact h.raised hadvances hsource (by decide) (.implemented hsource hlimit) nofun (by decide)
  | rejected hsource hlimit =>
      exact h.raised hadvances hsource (by decide) (.rejected hsource hlimit) nofun (by decide)
  | exhausted hsource hlimit =>
      exact h.raised hadvances hsource (by decide) (.exhausted hsource hlimit) nofun (by decide)
  | qualityFix hsource hlimit =>
      exact h.raised hadvances hsource (by decide) (.qualityFix hsource hlimit) (fun _ => nofun)
        (by decide)
  | reviewFix hsource hlimit =>
      exact h.raised hadvances hsource (by decide) (.reviewFix hsource hlimit) (fun _ => nofun)
        (by decide)

/-- An event spends what the change of the row costs. -/
theorem StageBudget.move {edges' : List (TaskState × TaskState)} (h : StageBudget deps edges task)
    (hmove : TaskMove deps s event task row)
    (hhistory : (edges' = edges ∧ row.state = task.state) ∨
      (edges' = edges ++ [(task.state, row.state)] ∧
        canTransition task.state row.state = true)) : StageBudget deps edges' row := by
  rcases hhistory with ⟨rfl, hstate⟩ | ⟨rfl, hlegal⟩
  · -- The state is the same, and so is what the rank is taken of.
    cases hmove with
    | kept hsame hresume _ =>
        refine h.kept hsame.counters ?_
        unfold Task.workState
        rw [hstate, hresume]
    | claimed hcounters _ _ hclaimed =>
        refine h.kept hcounters ?_
        rcases hclaimed with ⟨hqueued, hanalyzing⟩ | ⟨hpause, hopen, _⟩ | ⟨hparked, _⟩
        · rw [hqueued, hanalyzing] at hstate
          cases hstate
        · exact absurd (hstate ▸ hpause) hopen
        · have hopen : task.state ∉ pauseStates := by
            intro hpause
            exact hparked (List.mem_cons_of_mem _ hpause)
          rw [workState_of_not_paused hopen, workState_of_not_paused (hstate ▸ hopen), hstate]
    | released _ _ _ _ _ hcounters hreleased =>
        refine h.kept hcounters ?_
        rcases hreleased with ⟨_, hresume⟩ | ⟨_, hopen, hpause, _⟩
        · unfold Task.workState
          rw [hstate, hresume]
        · exact absurd (hstate ▸ hpause) hopen
    | closed _ hclosed hcounters =>
        refine h.kept hcounters ?_
        obtain ⟨_, hopen, _⟩ := stageRank_closed hclosed
        rw [workState_of_not_paused hopen, hstate,
          workState_of_not_paused (hstate ▸ hopen)]
    | @advanced _ _ outcome _ _ _ _ _ _ _ _ _ _ hallowed hrow =>
        have hself : canTransition task.state row.state = true := by
          rw [hrow]
          exact hallowed.1
        rw [hstate, canTransition_self] at hself
        cases hself
  · have hne : row.state ≠ task.state := by
      intro hsame
      rw [hsame, canTransition_self] at hlegal
      cases hlegal
    cases hmove with
    | kept hsame _ _ => exact absurd hsame.state hne
    | claimed hcounters _ _ hclaimed =>
        rcases hclaimed with ⟨hqueued, hanalyzing⟩ | ⟨hpause, hopen, hresume⟩ | ⟨_, hsame⟩
        · have hadvances : Advances task row analyzing none :=
            ⟨hanalyzing, hcounters.implementationAttempts, hcounters.qualityFixAttempts,
              hcounters.reviewAttempts⟩
          exact h.forward hadvances hqueued (by decide) (by decide) (by decide)
        · -- The way back from a pause is neither a stage transition nor an entry.
          have hedge := @pauseEdge task.state row.state (Or.inl hpause)
          refine h.moved hcounters hedge.2 ?_
          rw [hedge.1, workState_of_not_paused hopen, workState_of_paused hpause hresume]
          simp
        · exact absurd hsame hne
    | released _ _ _ _ _ hcounters hreleased =>
        rcases hreleased with ⟨hsame, _⟩ | ⟨_, hopen, hpause, hresume⟩
        · exact absurd hsame hne
        · have hedge := @pauseEdge task.state row.state (Or.inr hpause)
          refine h.moved hcounters hedge.2 ?_
          rw [hedge.1, workState_of_not_paused hopen, workState_of_paused hpause hresume]
          simp
    | closed _ hclosed hcounters => exact h.ended hcounters hclosed
    | @advanced run stage outcome _ clock _ _ _ _ _ _ hstage hmove _ hrow =>
        subst hrow
        exact h.advanced (hstage.stageMove hmove) advances_moved

end Budget

/-! ## Runs without a retry -/

/-- A task that no worker has taken yet. -/
structure Unstarted {ω : Type} (taskId : TaskId) (h : Handled ω) : Prop where
  row : ∃ task, h.system.store.getTask taskId = some task ∧ task.implementationAttempts = 0 ∧
    task.qualityFixAttempts = 0 ∧ task.reviewAttempts = 0
  idle : ∀ run ∈ h.system.runs.rows, run.taskId ≠ taskId
  unrecorded : ∀ key, h.world.tables.getCheckpoint taskId key = none

/-- What the task has gone through since the history was `before`. -/
def SpentSince {ω : Type} (deps : StageDependencies) (taskId : TaskId)
    (before : List (TaskState × TaskState)) (h : Handled ω) : Prop :=
  ∃ edges row, h.system.store.getTask taskId = some row ∧
    historyEdges h.system.store taskId = before ++ edges ∧ StageBudget deps edges row

section Runs

variable {ω : Type} {config : SchedulerConfig} {deps : DeliveryDependencies} {deliver : Bool}
  {taskId : TaskId} {h₀ h h' : Handled ω} {before : List (TaskState × TaskState)}

theorem Unstarted.handledOnce {deps : StageDependencies} (hnew : Unstarted taskId h) :
    HandledOnce deps taskId h := by
  have hnone : ∀ run ∈ h.system.runs.rows, ¬ run.loops taskId := by
    intro run hrun hloops
    exact hnew.idle run hrun hloops.1
  obtain ⟨task, htask, _⟩ := hnew.row
  constructor
  · constructor
    · exact ⟨task, htask⟩
    · intro run hrun hloops
      exact absurd hloops (hnone run hrun)
    · intro run hrun _ _ hloops
      exact absurd hloops (hnone run hrun)
    · intro run hrun hid
      exact absurd hid (hnew.idle run hrun)
    · intro run hrun hid
      exact absurd hid (hnew.idle run hrun)
    · intro run hrun hid
      exact absurd hid (hnew.idle run hrun)
  · intro committed hrecorded
    rw [hnew.unrecorded] at hrecorded
    cases hrecorded

theorem Unstarted.spent {deps : StageDependencies} (hnew : Unstarted taskId h) :
    SpentSince deps taskId (historyEdges h.system.store taskId) h := by
  obtain ⟨task, htask, himplementation, hquality, hreview⟩ := hnew.row
  have hrank : stageRank task.workState ≤ 6 := by
    cases task.workState <;> decide
  refine ⟨[], task, htask, (List.append_nil _).symm, ?_⟩
  constructor
  · omega
  · omega
  · omega
  · exact Nat.zero_le _
  · unfold remainingTransitions transitionBound
    rw [himplementation, hquality, hreview, List.countP_nil]
    omega

/-- One step spends what it does to the task. -/
theorem HandledOnce.spent (hinv : HandledOnce deps.toStageDependencies taskId h)
    (hstep : HandledStep config deps deliver taskId (Event.Unretried taskId) h h')
    (hspent : SpentSince deps.toStageDependencies taskId before h) :
    SpentSince deps.toStageDependencies taskId before h' := by
  obtain ⟨edges, task, htask, hedges, hbudget⟩ := hspent
  rcases hstep.system with hsame | ⟨event, hretry, hsystem⟩
  · rw [← hsame] at htask hedges
    exact ⟨edges, task, htask, hedges, hbudget⟩
  · obtain ⟨row, hrow, _⟩ := step_persists config event htask
    obtain ⟨task', htask', hmove⟩ := hinv.sole.row_step hretry hrow
    rw [htask] at htask'
    cases htask'
    unfold SpentSince
    rw [hsystem]
    rcases step_history htask hrow with ⟨hhistory, hstate⟩ | ⟨hhistory, hlegal⟩
    · refine ⟨edges, row, hrow, hhistory.trans hedges, ?_⟩
      exact hbudget.move hmove (Or.inl ⟨rfl, hstate⟩)
    · refine ⟨edges ++ [(task.state, row.state)], row, hrow, ?_, ?_⟩
      · rw [hhistory, hedges, List.append_assoc]
      · exact hbudget.move hmove (Or.inr ⟨rfl, hlegal⟩)

/-- In every run of the workers without a retry the counters of a task stay within their
limits, `FIXING` is entered at most once for each fix that they allow, and the number of
stage transitions has a bound. -/
theorem stage_transitions_bounded (hnew : Unstarted taskId h₀)
    (hrun : ReflTransGen (HandledStep config deps deliver taskId (Event.Unretried taskId))
      h₀ h) :
    ∃ edges row, h.system.store.getTask taskId = some row ∧
      historyEdges h.system.store taskId = historyEdges h₀.system.store taskId ++ edges ∧
      row.implementationAttempts ≤ deps.config.maxImplementationAttempts ∧
      row.qualityFixAttempts ≤ deps.maxQualityFixAttempts ∧
      row.reviewAttempts ≤ deps.maxReviewCycles ∧
      edges.countP entersFixing ≤ deps.maxQualityFixAttempts + deps.maxReviewCycles ∧
      edges.countP isStageTransition ≤
        6 + 2 * deps.config.maxImplementationAttempts + 2 * deps.maxQualityFixAttempts +
          3 * deps.maxReviewCycles := by
  have hinv : HandledOnce deps.toStageDependencies taskId h ∧
      SpentSince deps.toStageDependencies taskId (historyEdges h₀.system.store taskId) h := by
    induction hrun with
    | refl => exact ⟨hnew.handledOnce, hnew.spent⟩
    | tail _ hstep ih => exact ⟨ih.1.step hstep, ih.1.spent hstep ih.2⟩
  obtain ⟨edges, row, hrow, hedges, hbudget⟩ := hinv.2
  have hfixes := hbudget.fixes
  have htransitions := hbudget.transitions
  have hquality := hbudget.qualityFixAttempts
  have hreview := hbudget.reviewAttempts
  refine ⟨edges, row, hrow, hedges, hbudget.implementationAttempts, hquality, hreview, ?_, ?_⟩
  · omega
  · unfold transitionBound at htransitions
    omega

end Runs

/-! ## A sample -/

/-- The plan is accepted, the implementation is committed, the gate fails, and so does the fixer. -/
def roundAnswers : (call : ServiceCall) → Except StageError call.Answer
  | .prepareWorkspace input => .ok ⟨input.repository, "/work", input.branch, "head"⟩
  | .isAncestor _ _ _ => .ok true
  | .gitAdd _ => .ok ()
  | .gitDiff _ .cached .raw => .ok (rawOutput (sampleChange ⟨"done", by decide⟩).files)
  | .gitDiff _ .cached .numstat => .ok (numstatOutput (sampleChange ⟨"done", by decide⟩).files)
  | .gitDiff _ .cached .patch => .ok (patchOutput (sampleChange ⟨"done", by decide⟩).patch)
  | .commitWorkspace _ _ _ => .ok "head"
  | .runAgent .analyzer _ =>
      .ok { result := .completed ⟨.proceed, [], [⟨.web, ["notes.txt"]⟩]⟩ }
  | .runAgent .implementer _ =>
      .ok { result := .completed { status := .completed, summary := "done" } }
  | .runQuality repository _ .setup => .ok ⟨repository, true, none, false, []⟩
  | call => fixAnswers call

/-- The row with which a handler of the sample task runs. -/
def runningTask (run : RunEntry) : Option Task :=
  match run.phase with
  | .running task => if run.taskId = 1 then some task else none
  | _ => none

theorem running_of_runningTask {run : RunEntry} {task : Task} (h : runningTask run = some task) :
    run.phase = .running task ∧ run.taskId = 1 := by
  unfold runningTask at h
  split at h
  · rename_i other hphase
    split_ifs at h with htask
    cases h
    exact ⟨hphase, htask⟩
  · cases h

/-- The first run takes its task through one stage. -/
def stageRound (h : Handled Unit) : Handled Unit :=
  let boundary := Kit.run (step sampleConfig) h.system
    [.readTask 0 false, .readControls 0 false false 0]
  match (boundary.runs.find? 0).bind runningTask with
  | none => ⟨boundary, h.world⟩
  | some task =>
      match executionHandler fixDelivery true task with
      | none => ⟨boundary, h.world⟩
      | some handler =>
          match handler.finish (respondFixed roundAnswers ⟨task.id, task.state⟩) h.world with
          | (.returned outcome, w') =>
              ⟨Kit.run (step sampleConfig) (step sampleConfig boundary (.finish 0 outcome 0))
                [.perform 0 0 none], w'⟩
          | _ => ⟨boundary, h.world⟩

/-- Events that are no results of handlers. -/
theorem scheduled_run {h : Handled Unit} {events : List Event}
    (hevents : ∀ event ∈ events, event.Unretried 1 ∧
      ∀ id outcome now, event ≠ .finish id outcome now) :
    ReflTransGen (HandledStep sampleConfig fixDelivery true 1 (Event.Unretried 1)) h
      ⟨Kit.run (step sampleConfig) h.system events, h.world⟩ := by
  induction events generalizing h with
  | nil => exact .refl
  | cons event events ih =>
      obtain ⟨hunretried, hfinish⟩ := hevents event List.mem_cons_self
      have hresult : ¬ event.ResultFor h.system 1 := by
        rintro ⟨id, outcome, now, _, hevent, _⟩
        exact hfinish id outcome now hevent
      have hstep : HandledStep sampleConfig fixDelivery true 1 (Event.Unretried 1) h
          ⟨step sampleConfig h.system event, h.world⟩ := .scheduled hunretried hresult
      exact .head hstep (ih fun other hmem => hevents other (List.mem_cons_of_mem _ hmem))

theorem handled_stageRound (h : Handled Unit) :
    ReflTransGen (HandledStep sampleConfig fixDelivery true 1 (Event.Unretried 1)) h
      (stageRound h) := by
  -- The boundary of the stage: the task and the controls are read.
  have hboundary : ReflTransGen (HandledStep sampleConfig fixDelivery true 1 (Event.Unretried 1)) h
      ⟨Kit.run (step sampleConfig) h.system [.readTask 0 false, .readControls 0 false false 0],
        h.world⟩ := by
    apply scheduled_run
    intro event hmem
    simp only [List.mem_cons, List.not_mem_nil, or_false] at hmem
    rcases hmem with rfl | rfl
    · exact ⟨(by intro _ _ hevent; cases hevent), (by intro _ _ _ hevent; cases hevent)⟩
    · exact ⟨(by intro _ _ hevent; cases hevent), (by intro _ _ _ hevent; cases hevent)⟩
  unfold stageRound
  dsimp only
  generalize Kit.run (step sampleConfig) h.system
    [.readTask 0 false, .readControls 0 false false 0] = boundary at hboundary ⊢
  split
  · exact hboundary
  rename_i task hrunning
  split
  · exact hboundary
  rename_i handler hhandler
  split
  · rename_i outcome w' hfinish
    obtain ⟨run, hfound, hrun⟩ := Option.bind_eq_some_iff.mp hrunning
    obtain ⟨hphase, htask⟩ := running_of_runningTask hrun
    have hid : run.id = 0 := Table.key_of_find? hfound
    have hexec := exec_finish (serves_respondFixed roundAnswers ⟨task.id, task.state⟩) handler
      h.world
    rw [hfinish] at hexec
    have hhandled := @HandledStep.handled Unit sampleConfig fixDelivery true 1 (Event.Unretried 1)
      ⟨boundary, h.world⟩ (fixedServices roundAnswers) run task handler (.returned outcome)
      (.finish 0 outcome 0) w' (Table.mem_of_find? hfound) htask hphase hhandler hexec
      (by rw [hid]; exact .returned)
    refine (hboundary.tail hhandled).trans (scheduled_run ?_)
    intro event hmem
    rw [List.mem_singleton.mp hmem]
    exact ⟨(by intro _ _ hevent; cases hevent), (by intro _ _ _ hevent; cases hevent)⟩
  · exact hboundary

def newTask : Handled Unit where
  system := boot (sampleStore [sampleTask 1 queued])
  world := fixStart

/-- A worker has claimed the task, and taken it through so many stages. -/
def afterRounds (count : Nat) : Handled Unit :=
  stageRound^[count] ⟨Kit.run (step sampleConfig) newTask.system [sampleClaim "a" .execution 0],
    newTask.world⟩

theorem handled_afterRounds (count : Nat) :
    ReflTransGen (HandledStep sampleConfig fixDelivery true 1 (Event.Unretried 1)) newTask
      (afterRounds count) := by
  induction count with
  | zero =>
      apply scheduled_run
      intro event hmem
      rw [List.mem_singleton.mp hmem]
      exact ⟨(by intro _ _ hevent; cases hevent), (by intro _ _ _ hevent; cases hevent)⟩
  | succ count ih =>
      unfold afterRounds at ih ⊢
      rw [Function.iterate_succ_apply']
      exact ih.trans (handled_stageRound _)

/-- The gate fails, the fix is not applied, and the gate fails again. -/
theorem stage_transitions_bounded_rounds :
    ∃ edges row, (afterRounds 6).system.store.getTask 1 = some row ∧
      edges = [(queued, analyzing), (analyzing, ready), (ready, implementing),
        (implementing, testing), (testing, fixing), (fixing, testing), (testing, fixing)] ∧
      row.qualityFixAttempts ≤ 3 ∧ edges.countP entersFixing ≤ 3 + 3 ∧
      edges.countP isStageTransition ≤ 6 + 2 * 4 + 2 * 3 + 3 * 3 := by
  have hnew : Unstarted 1 newTask := by
    constructor
    · exact ⟨sampleTask 1 queued, rfl, rfl, rfl, rfl⟩
    · intro run hrun
      cases hrun
    · intro key
      rfl
  obtain ⟨edges, row, hrow, hedges, _, hquality, _, hfixes, hbound⟩ :=
    stage_transitions_bounded hnew (handled_afterRounds 6)
  have hhistory : historyEdges (afterRounds 6).system.store 1 =
      [(queued, analyzing), (analyzing, ready), (ready, implementing), (implementing, testing),
        (testing, fixing), (fixing, testing), (testing, fixing)] := by
    decide +kernel
  exact ⟨edges, row, hrow, hedges.symm.trans hhistory, hquality, hfixes, hbound⟩

end Orchestrator
