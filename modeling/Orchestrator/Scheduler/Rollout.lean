import Orchestrator.Scheduler.ExecutionLimit

/-! # The daily rollout

A claim counts the task starts of the last 24 hours under the claim lock, and starts a
task only below `maxNewTasksPerDay`. Counted at each claim, the limit holds of every
window of 24 hours, wherever it ends.
-/

namespace Orchestrator

open Kit TaskState

/-- A recorded transition from `QUEUED` to `ANALYZING`. -/
def StateTransitionRow.isStart (row : StateTransitionRow) : Bool :=
  row.fromState = queued && row.toState = analyzing

def Store.starts (store : Store) : List StateTransitionRow :=
  store.stateTransitions.filter StateTransitionRow.isStart

/-- The task starts recorded in the window of 24 hours that ends at `t`. -/
def startsUntil (store : Store) (t : Instant) : Nat :=
  store.starts.countP fun row => t - dayMs < row.createdAt && row.createdAt ≤ t

/-- Every day keeps to the limit, and every started task to the listed repositories. -/
structure WithinRollout (rollout : TaskRolloutLimits) (store : Store) : Prop where
  perDay : ∀ limit, rollout.maxNewTasksPerDay = some limit → ∀ t, startsUntil store t ≤ limit
  repositories : ∀ listed, rollout.repositories = some listed →
    ∀ row ∈ store.starts, ∀ unit ∈ store.taskWorkUnits, unit.taskId = row.taskId →
      unit.repository ∈ listed

/-- No handler moves a task back to `QUEUED`. -/
def keepsOffQueue : Event → Bool
  | .finish _ (.advance outcome) _ => outcome.toState ≠ queued
  | _ => true

/-- The transition of a claim is stamped with the claim's `now`, or later. -/
def stampsClaims : Event → Bool
  | .claim _ _ _ _ now _ clock => now ≤ clock
  | _ => true

/-! ## Queued rows are not leased -/

/-- No outcome that waits to be applied names `QUEUED`. -/
def RunsOffQueue (s : System) : Prop :=
  ∀ run ∈ s.runs.rows, ∀ stage outcome now, run.phase = .applying stage (.advance outcome) now →
    outcome.toState ≠ queued

def LeasedOffQueue (task : Task) : Prop := task.leaseOwner ≠ none → task.state ≠ queued

section Step

variable {config : SchedulerConfig} {s : System} {event : Event}

theorem boundaryPhase_ne_applying {task stage : Task} {stopping : Bool} {outcome : StageOutcome}
    {now : Instant} : boundaryPhase task stopping ≠ .applying stage outcome now := by
  unfold boundaryPhase
  split_ifs <;> simp

theorem gatePhase_ne_applying {controls : OrchestratorControls} {forceKillSwitch : Bool}
    {task stage : Task} {now finished : Instant} {outcome : StageOutcome} :
    gatePhase config controls forceKillSwitch task now ≠ .applying stage outcome finished := by
  unfold gatePhase
  dsimp only
  split_ifs <;> simp

theorem runsOffQueue_step (h : RunsOffQueue s) (hevent : keepsOffQueue event = true) :
    RunsOffQueue (Orchestrator.step config s event) := by
  intro run' hrun' stage outcome now hphase'
  rcases step_runs hrun' with ⟨run, hrun, hchange⟩ | ⟨task, hstarted⟩
  · cases hchange with
    | kept => exact h _ hrun stage outcome now hphase'
    | flagged _ => exact h _ hrun stage outcome now hphase'
    | checked _ _ _ => exact absurd hphase' boundaryPhase_ne_applying
    | gated _ => exact absurd hphase' gatePhase_ne_applying
    | finished hfinish _ _ =>
        cases hphase'
        subst hfinish
        simpa [keepsOffQueue] using hevent
    | interrupted _ _ => cases hphase'
    | advanced _ => cases hphase'
    | failed => cases hphase'
    | handedBack _ _ => cases hphase'
  · rw [hstarted.run] at hphase'
    cases hphase'

theorem leasedOffQueue_step (hruns : RunsOffQueue s) (h : AllRows LeasedOffQueue s.store) :
    AllRows LeasedOffQueue (step config s event).store := by
  refine allRows_step (fun row hnew hleased => absurd hnew.unleased.1 hleased) ?_ h
  intro task _ row hinv hchange hleased
  cases hchange.held hleased with
  | @claimed workerId lane override gated now locked clock _ hgrant hrow =>
      have hstage := (claimed_state clock hgrant).1
      rw [← hrow] at hstage
      intro hqueued
      rw [hqueued] at hstage
      cases hstage
  | kept howner hstate _ =>
      rw [hstate]
      exact hinv (howner ▸ hleased)
  | @advanced id run stage outcome now clock lost _ hrun hphase _ _ _ hrow =>
      rw [hrow]
      exact hruns run (Table.mem_of_find? hrun) stage outcome now hphase

/-! ## Where starts are recorded -/

/-- Only applying an `advance` outcome leads into `ANALYZING` from inside a run. -/
theorem phaseCall_analyzing {run : RunEntry} {input : TaskTransitionInput}
    (h : phaseCall config run = some (.transition input)) (hto : input.toState = analyzing) :
    ∃ stage outcome now, run.phase = .applying stage (.advance outcome) now ∧
      input = advanceInput run stage outcome := by
  unfold phaseCall at h
  split at h
  · cases h
  · cases h
    cases hto
  · split_ifs at h <;> cases h
    cases hto
  · cases h
  · cases h
  · cases h
    cases hto
  · cases h
  · next stage outcome now hphase =>
      cases h
      exact ⟨stage, outcome, now, hphase, rfl⟩
  · cases h
    cases hto
  · cases h
  · cases h
  · cases h
  · split_ifs at h <;> cases h
    cases hto

/-- A row that moves from `QUEUED` to `ANALYZING` was claimed. -/
theorem RowChange.start {task row : Task} (h : RowChange config s event task row)
    (hleased : LeasedOffQueue task) (hqueued : task.state = queued) (hrow : row.state = analyzing) :
    ∃ workerId lane override gated now locked clock,
      event = .claim workerId lane override gated now locked clock := by
  have hsame : row.state ≠ task.state := by
    intro heq
    rw [hqueued, hrow] at heq
    cases heq
  cases h with
  | @claimed workerId lane override gated now locked clock _ _ _ =>
      exact ⟨workerId, lane, override, gated, now, locked, clock, rfl⟩
  | @performed id run call clock lost _ _ hrun hcall heffect =>
      cases heffect with
      | @transition input _ _ hlease _ =>
          rcases phaseCall_analyzing hcall hrow with ⟨stage, outcome, now, -, rfl⟩
          have howner : task.leaseOwner = some run.workerId := leasePermits_advance.mp hlease
          refine absurd hqueued (hleased ?_)
          simp [howner]
      | release _ _ => exact absurd rfl hsame
      | defer _ _ => exact absurd rfl hsame
  | recovered _ _ => cases hrow
  | retried _ _ => cases hrow
  | cancelled _ _ => cases hrow
  | manualBlocked _ _ => cases hrow
  | _ => exact absurd rfl hsame

theorem starts_recoveredStore {reason : String} {clock : Instant} {tasks : List Task} :
    ∀ store : Store, (recoveredStore reason clock store tasks).starts = store.starts := by
  induction tasks with
  | nil => exact fun _ => rfl
  | cons task tasks ih =>
      intro store
      have hmoved : (store.moved task (recoveryInput reason) clock).starts = store.starts := by
        show List.filter _ (store.stateTransitions ++ [_]) = _
        simp [Store.starts, StateTransitionRow.isStart, recoveryInput]
      exact (ih _).trans hmoved

/-- The claim of a queued task, and the start it records. -/
structure StartedBy (config : SchedulerConfig) (s : System) (event : Event) (store' : Store)
    (task : Task) (now clock : Instant) : Prop where
  claim : ∃ workerId lane override gated locked,
    event = .claim workerId lane override gated now locked clock ∧
      ClaimGrant s.store (claimInput config workerId lane override gated now) locked task
  queued : task.state = queued
  starts : ∃ reason,
    store'.starts = s.store.starts ++ [⟨task.id, .queued, analyzing, reason, clock⟩]

theorem claimTransition_start {input : TaskClaimWithLimitInput} {task : Task}
    {transition : LockedTransitionInput} (h : claimTransition input task = some transition)
    (hqueued : task.state = queued) : transition.toState = analyzing := by
  simp only [claimTransition, hqueued, if_true, Option.some.injEq] at h
  rw [← h]

/-- The transitions of a claim, with the claim's stamp. -/
theorem starts_claimedStore {store : Store} {input : TaskClaimWithLimitInput} {task : Task}
    {clock : Instant} :
    (claimedStore store input task clock).starts = store.starts ∨
      task.state = queued ∧ ∃ reason, (claimedStore store input task clock).starts =
        store.starts ++ [⟨task.id, queued, analyzing, reason, clock⟩] := by
  unfold claimedStore
  cases htransition : claimTransition input task with
  | none => exact Or.inl rfl
  | some transition =>
      by_cases hqueued : task.state = queued
      · refine Or.inr ⟨hqueued, transition.reason, ?_⟩
        have hto := claimTransition_start htransition hqueued
        show List.filter _ (store.stateTransitions ++ [_]) = _
        simp [Store.starts, StateTransitionRow.isStart, hqueued, hto]
      · refine Or.inl ?_
        show List.filter _ (store.stateTransitions ++ [_]) = _
        simp [Store.starts, StateTransitionRow.isStart, hqueued]

/-- A step records no start, or the one of the task it claims. -/
theorem step_starts (h : AllRows LeasedOffQueue s.store) :
    (Orchestrator.step config s event).store.starts = s.store.starts ∨
      ∃ task now clock,
        StartedBy config s event (Orchestrator.step config s event).store task now clock := by
  by_cases hclaim : ∃ workerId lane override gated now locked clock,
      event = .claim workerId lane override gated now locked clock
  · rcases hclaim with ⟨workerId, lane, override, gated, now, locked, clock, rfl⟩
    simp only [step_store, effect]
    split
    · next store row hresult =>
        rcases claimNextTask_eq_ok hresult with ⟨hnone, -⟩ | ⟨task, hgrant, -, rfl, -⟩
        · cases hnone
        · rcases starts_claimedStore with hsame | ⟨hqueued, hstarts⟩
          · exact Or.inl hsame
          · exact Or.inr ⟨task, now, clock, ⟨_, _, _, _, _, rfl, hgrant⟩, hqueued, hstarts⟩
    · exact Or.inl rfl
  · left
    cases step_change config s event with
    | @put task row hput hchange =>
        rcases hput.recorded with ⟨hsame, -⟩ | ⟨reason, createdAt, -, hhistory⟩
        · exact congrArg (List.filter _) hsame
        · have hnot : ¬ (task.state = queued ∧ row.state = analyzing) := by
            rintro ⟨hqueued, hrow⟩
            have hmem := (Store.getTask_eq_some_iff.mp hput.found).1
            exact hclaim (hchange.start (h task hmem) hqueued hrow)
          rw [Store.starts, hhistory]
          simp only [List.filter_append, Store.starts]
          simpa [StateTransitionRow.isStart] using hnot
    | same _ _ hhistory => exact congrArg (List.filter _) hhistory
    | created _ _ _ _ _ hhistory => exact congrArg (List.filter _) hhistory
    | recovered _ hstore =>
        rw [hstore]
        exact starts_recoveredStore _

/-! ## The limits -/

theorem startedTasks_eq (store : Store) (now : Instant) :
    startedTasks store now = store.starts.countP fun row => now - dayMs < row.createdAt := by
  rw [Store.starts, List.countP_filter]
  refine congrArg (List.countP · store.stateTransitions) (funext fun row => ?_)
  simp [StateTransitionRow.isStart, Bool.and_comm]

/-- A queued task is claimed only as a start that the rollout admits. -/
theorem ClaimGrant.admitted {store : Store} {input : TaskClaimWithLimitInput}
    {locked : List TaskId} {task : Task} (h : ClaimGrant store input locked task)
    (hqueued : task.state = queued) (hparked : queued ∉ (laneWork input).parkedStates) :
    startNewTasks store input = true ∧ outsideRollout store input.rollout task.id = false := by
  have heligible := h.eligible
  simp only [Orchestrator.eligible, hqueued, Bool.or_eq_true, Bool.and_eq_true] at heligible
  rcases heligible with ((⟨⟨⟨hstart, -⟩, -⟩, hinside⟩ | ⟨hmem, -⟩) | ⟨hpaused, -⟩) |
    ⟨⟨hpaused, -⟩, -⟩
  · exact ⟨hstart, by simpa using hinside⟩
  · exact absurd (List.contains_iff_mem.mp hmem) hparked
  · cases hpaused
  · cases hpaused

/-- The repositories of an existing task stay inside or outside the rollout. -/
theorem step_outsideRollout {task : Task} (h : s.store.getTask task.id = some task)
    (rollout : TaskRolloutLimits) :
    outsideRollout (Orchestrator.step config s event).store rollout task.id =
      outsideRollout s.store rollout task.id := by
  unfold outsideRollout
  cases rollout.repositories with
  | none => rfl
  | some listed => exact step_units h fun unit => !listed.contains unit.repository

/-- One start more in a window keeps to the limit that its claim checked. -/
theorem startsUntil_snoc {store store' : Store} {row : StateTransitionRow} {now : Instant}
    {limit : Nat} (hstarts : store'.starts = store.starts ++ [row]) (hstamp : now ≤ row.createdAt)
    (hfree : startedTasks store now < limit) {t : Instant} (h : startsUntil store t ≤ limit) :
    startsUntil store' t ≤ limit := by
  unfold startsUntil at h ⊢
  rw [hstarts, List.countP_append, List.countP_singleton]
  split_ifs with hwindow
  · -- The window holds the new start, so every start in it was counted by the claim.
    have hcounted : store.starts.countP (fun row => t - dayMs < row.createdAt &&
        row.createdAt ≤ t) ≤ startedTasks store now := by
      rw [startedTasks_eq]
      refine List.countP_mono_left fun other _ hother => ?_
      simp only [Bool.and_eq_true, decide_eq_true_eq] at hwindow hother ⊢
      have hends : now - dayMs ≤ t - dayMs := Int.sub_le_sub_right (hstamp.trans hwindow.2) dayMs
      exact lt_of_le_of_lt hends hother.1
    exact (Nat.succ_le_succ hcounted).trans hfree
  · exact h

/-- What a step keeps: the rollout, and what it rests on. -/
structure RolloutInv (config : SchedulerConfig) (s : System) : Prop where
  runs : RunsOffQueue s
  rows : AllRows LeasedOffQueue s.store
  perDay : ∀ limit, config.rollout.maxNewTasksPerDay = some limit →
    ∀ t, startsUntil s.store t ≤ limit
  known : ∀ row ∈ s.store.starts, ∃ task, s.store.getTask row.taskId = some task
  inside : ∀ row ∈ s.store.starts, outsideRollout s.store config.rollout row.taskId = false

theorem rolloutInv_step (h : RolloutInv config s)
    (hevent : keepsOffQueue event = true ∧ stampsClaims event = true) :
    RolloutInv config (Orchestrator.step config s event) := by
  -- A row that exists stays, inside or outside the rollout as it was.
  have hkept : ∀ taskId, (∃ task, s.store.getTask taskId = some task) →
      (∃ task, (Orchestrator.step config s event).store.getTask taskId = some task) ∧
        outsideRollout (Orchestrator.step config s event).store config.rollout taskId =
          outsideRollout s.store config.rollout taskId := by
    rintro taskId ⟨task, htask⟩
    have hid := (Store.getTask_eq_some_iff.mp htask).2
    rcases step_persists config event htask with ⟨row, hrow, -⟩
    exact ⟨⟨row, hrow⟩, hid ▸ step_outsideRollout (getTask_self htask) config.rollout⟩
  have hruns : RunsOffQueue (Orchestrator.step config s event) :=
    runsOffQueue_step h.runs hevent.1
  have hrows : AllRows LeasedOffQueue (Orchestrator.step config s event).store :=
    leasedOffQueue_step h.runs h.rows
  rcases @step_starts config s event h.rows with
    hsame | ⟨task, now, clock, hstarted⟩
  · refine ⟨hruns, hrows, ?_, ?_, ?_⟩
    · simpa only [startsUntil, hsame] using h.perDay
    · intro row hrow
      rw [hsame] at hrow
      exact (hkept _ (h.known row hrow)).1
    · intro row hrow
      rw [hsame] at hrow
      rw [(hkept _ (h.known row hrow)).2]
      exact h.inside row hrow
  · rcases hstarted with
      ⟨⟨workerId, lane, override, gated, locked, rfl, hgrant⟩, hqueued, reason, hstarts⟩
    -- A queued task is claimed as a new start, never as parked work.
    have hparked : queued ∉
        (laneWork (claimInput config workerId lane override gated now)).parkedStates := by
      intro hmem
      have hpermitted := (List.mem_filter.mp (List.mem_filter.mp hmem).1).2
      cases executableStage_of_permitted hpermitted
    rcases hgrant.admitted hqueued hparked with ⟨hstart, hinside⟩
    have hstamp : now ≤ clock := of_decide_eq_true hevent.2
    refine ⟨hruns, hrows, ?_, ?_, ?_⟩
    · intro limit hlimit t
      -- The claim counted fewer starts than the limit in the day behind it.
      have hfree : startedTasks s.store now < limit := by
        have hbudget : config.rollout.maxNewTasksPerDay = some limit := hlimit
        simp only [startNewTasks, claimInput, hbudget, Bool.and_eq_true] at hstart
        exact of_decide_eq_true hstart.2
      exact startsUntil_snoc hstarts hstamp hfree (h.perDay limit hlimit t)
    · intro row hrow
      rw [hstarts, List.mem_append, List.mem_singleton] at hrow
      rcases hrow with hold | rfl
      · exact (hkept _ (h.known row hold)).1
      · exact (hkept _ ⟨task, hgrant.row⟩).1
    · intro row hrow
      rw [hstarts, List.mem_append, List.mem_singleton] at hrow
      rcases hrow with hold | rfl
      · rw [(hkept _ (h.known row hold)).2]
        exact h.inside row hold
      · exact (hkept _ ⟨task, hgrant.row⟩).2.trans hinside

end Step

/-- No task of the store leads a start, and none is leased: the rollout begins. -/
structure RolloutBegins (store : Store) : Prop where
  unleased : Unleased store
  unstarted : store.starts = []

/-- Every day of every run keeps to the daily limit, and only tasks of the listed
repositories are started. The claims may come in any order. -/
theorem rollout_limits (config : SchedulerConfig) (store : Store) (hstore : RolloutBegins store)
    (events : List Event)
    (hevents : ∀ event ∈ events, keepsOffQueue event = true ∧ stampsClaims event = true) :
    Throughout (step config) (fun s => WithinRollout config.rollout s.store) (boot store)
      events := by
  have hinit : RolloutInv config (boot store) := by
    refine ⟨?_, ?_, ?_, ?_, ?_⟩
    · intro run hrun
      cases hrun
    · exact fun task htask hleased => absurd (hstore.unleased task htask) hleased
    · intro limit _ t
      have hnone : (boot store).store.starts = [] := hstore.unstarted
      simp [startsUntil, hnone]
    · intro row hrow
      rw [show (boot store).store.starts = [] from hstore.unstarted] at hrow
      cases hrow
    · intro row hrow
      rw [show (boot store).store.starts = [] from hstore.unstarted] at hrow
      cases hrow
  refine throughout_mono (fun s hinv => ⟨hinv.perDay, ?_⟩)
    (throughout_of_along (RolloutInv config) (fun s event => rolloutInv_step) hinit
      (along_of_forall hevents))
  intro listed hlisted row hrow unit hunit htask
  have hinside := hinv.inside row hrow
  simp only [outsideRollout, hlisted, List.any_eq_false] at hinside
  simpa [htask] using hinside unit hunit

/-- A deployment that starts one task of `web` a day. -/
def rolloutConfig : SchedulerConfig :=
  { sampleConfig with rollout := { repositories := some ["web"], maxNewTasksPerDay := some 1 } }

def rolloutStore : Store := sampleStore [sampleTask 1 queued, sampleTask 2 queued]

/-- The second task waits until the start of the first is a day old. -/
def rolloutRun : List Event :=
  [sampleClaim "w1" .execution 0, sampleClaim "w2" .execution 5,
    sampleClaim "w2" .execution dayMs]

theorem rollout_limits_day :
    Throughout (step rolloutConfig) (fun s => WithinRollout rolloutConfig.rollout s.store)
      (boot rolloutStore) rolloutRun :=
  rollout_limits rolloutConfig rolloutStore
    ⟨by unfold Unleased AllRows; decide, by decide⟩ rolloutRun (by decide)

end Orchestrator
