import Orchestrator.Kit.Run
import Orchestrator.Scheduler.Changes

/-! # How leases are kept

A row that is leased after an event was just claimed, kept its lease and its
state, or was advanced by its lease owner. Nothing else leaves a lease behind.
-/

namespace Orchestrator

open Kit TaskState

/-! ## Repository calls of a run -/

/-- Only the transition that applies an `advance` outcome keeps the lease. -/
theorem phaseCall_transition {config : SchedulerConfig} {run : RunEntry}
    {input : TaskTransitionInput} (h : phaseCall config run = some (.transition input)) :
    input.leaseOwner = some run.workerId ∧ input.taskId = run.taskId ∧
      (input.releaseLease = true ∨ ∃ stage outcome now,
        run.phase = .applying stage (.advance outcome) now ∧
          input = advanceInput run stage outcome) := by
  -- The calls that take part in this are the transitions; all but one release.
  unfold phaseCall at h
  split at h
  · cases h
  · cases h
    exact ⟨rfl, rfl, Or.inl rfl⟩
  · split_ifs at h <;> cases h
    exact ⟨rfl, rfl, Or.inl rfl⟩
  · cases h
  · cases h
  · cases h
    exact ⟨rfl, rfl, Or.inl rfl⟩
  · cases h
  · next stage outcome now hphase =>
      cases h
      exact ⟨rfl, rfl, Or.inr ⟨stage, outcome, now, hphase, rfl⟩⟩
  · cases h
    exact ⟨rfl, rfl, Or.inl rfl⟩
  · cases h
  · cases h
  · cases h
  · split_ifs at h <;> cases h
    exact ⟨rfl, rfl, Or.inl rfl⟩

theorem moved_unleased {task : Task} {input : TaskTransitionInput} {clock : Instant}
    (h : input.releaseLease = true) : (task.moved input.locked clock).leaseOwner = none := by
  simp [TaskTransitionInput.locked, h, clearedLease]

@[simp] theorem advance_locked {run : RunEntry} {stage : Task} {outcome : AdvanceOutcome} :
    (advanceInput run stage outcome).locked.lease = none ∧
      (advanceInput run stage outcome).locked.clearCancelRequest = false ∧
      (advanceInput run stage outcome).locked.leaseOwner = some run.workerId ∧
      (advanceInput run stage outcome).locked.toState = outcome.toState ∧
      (advanceInput run stage outcome).resumeState = none := ⟨rfl, rfl, rfl, rfl, rfl⟩

/-- A caller that keeps the lease must hold it. -/
theorem owner_of_leasePermits {task : Task} {input : LockedTransitionInput} {owner : WorkerId}
    (h : LeasePermits task input) (howner : input.leaseOwner = some owner)
    (hlease : input.lease = none) : task.leaseOwner = some owner := by
  rcases h.2 with hnone | hsame | hpresent
  · rw [howner] at hnone
    cases hnone
  · rw [hsame, howner]
  · exact absurd hlease hpresent

theorem leasePermits_advance {run : RunEntry} {stage task : Task} {outcome : AdvanceOutcome} :
    LeasePermits task (advanceInput run stage outcome).locked ↔
      task.leaseOwner = some run.workerId := by
  constructor
  · exact fun h => owner_of_leasePermits h rfl rfl
  · exact fun h => ⟨Or.inr (Or.inl h.symm), Or.inr (Or.inl h)⟩

/-- The store after a call that succeeds, whether or not its answer arrives. -/
theorem step_perform_store {config : SchedulerConfig} {s : System} {id : Nat} {run : RunEntry}
    {call : RepositoryCall} {clock : Instant} {lost : Option String} {store : Store} {row : Task}
    (hrun : s.runs.find? id = some run) (hcall : phaseCall config run = some call)
    (hresult : call.perform s.store run.taskId run.workerId clock = .ok (store, row)) :
    (step config s (.perform id clock lost)).store = store := by
  simp only [step_store, effect, System.onRun, hrun, stepPerform, hcall, hresult]
  cases lost with
  | none => dsimp only; split_ifs <;> rfl
  | some message => exact catchError_store

/-- Applying an `advance` outcome moves the row and keeps its lease. -/
theorem step_advance_store {config : SchedulerConfig} {s : System} {id : Nat} {run : RunEntry}
    {stage task : Task} {outcome : AdvanceOutcome} {now clock : Instant} {lost : Option String}
    (hrun : s.runs.find? id = some run)
    (hphase : run.phase = .applying stage (.advance outcome) now)
    (hrow : s.store.getTask run.taskId = some task)
    (howner : task.leaseOwner = some run.workerId)
    (hallowed : TransitionAllowed task.state outcome.toState none) :
    (step config s (.perform id clock lost)).store =
      s.store.moved task (advanceInput run stage outcome).locked clock := by
  have hcall : phaseCall config run = some (.transition (advanceInput run stage outcome)) := by
    simp [phaseCall, hphase]
  exact step_perform_store hrun hcall (transitionTask_eq_ok_iff.mpr
    ⟨task, hrow, leasePermits_advance.mpr howner, hallowed, rfl, rfl⟩)

/-! ## Rows that are leased after an event -/

/-- Where the lease of a row comes from. -/
inductive Held (config : SchedulerConfig) (s : System) (event : Event) (task row : Task) : Prop
  | claimed {workerId lane override gated now locked clock}
      (hevent : event = .claim workerId lane override gated now locked clock)
      (hgrant : ClaimGrant s.store (claimInput config workerId lane override gated now) locked task)
      (hrow : row = claimedRow (claimInput config workerId lane override gated now) task clock)
  | kept (howner : row.leaseOwner = task.leaseOwner) (hstate : row.state = task.state)
      (hexpires : task.leaseExpiresAt.isSome → row.leaseExpiresAt.isSome)
  | advanced {id run stage outcome now clock lost} (hevent : event = .perform id clock lost)
      (hrun : s.runs.find? id = some run)
      (hphase : run.phase = .applying stage (.advance outcome) now)
      (htask : task.id = run.taskId) (howner : task.leaseOwner = some run.workerId)
      (hallowed : TransitionAllowed task.state outcome.toState none)
      (hrow : row = task.moved (advanceInput run stage outcome).locked clock)

theorem RowChange.held {config : SchedulerConfig} {s : System} {event : Event} {task row : Task}
    (h : RowChange config s event task row) (hleased : row.leaseOwner ≠ none) :
    Held config s event task row := by
  cases h with
  | kept => exact .kept rfl rfl id
  | claimed hgrant _ => exact .claimed rfl hgrant rfl
  | renewed howner => exact .kept rfl rfl fun _ => rfl
  | modelSelected howner => exact .kept rfl rfl id
  | @performed id run call clock lost _ _ hrun hcall heffect =>
      cases heffect with
      | @transition input _ htask hlease hallowed =>
          obtain ⟨_, hid, hrelease | ⟨stage, outcome, now, hphase, rfl⟩⟩ :=
            phaseCall_transition hcall
          · exact absurd (moved_unleased hrelease) hleased
          · exact .advanced rfl hrun hphase (htask.trans hid) (leasePermits_advance.mp hlease)
              hallowed rfl
      | release htask howner => exact absurd rfl hleased
      | defer htask howner => exact absurd rfl hleased
  | recovered hevent hcandidate => exact absurd rfl hleased
  | retried howner hallowed => exact absurd howner hleased
  | cancelRequested howner => exact .kept rfl rfl id
  | cancelled howner hallowed => exact absurd howner hleased
  | manualBlocked howner hallowed => exact absurd howner hleased
  | manualFlagged => exact .kept rfl rfl id

/-! ## Invariants of single rows -/

/-- `P` holds of every task row. -/
def AllRows (P : Task → Prop) (store : Store) : Prop := ∀ task ∈ store.tasks.rows, P task

theorem allRows_step {config : SchedulerConfig} {s : System} {event : Event} {P : Task → Prop}
    (hcreated : ∀ row, Created row → P row)
    (hchange : ∀ task ∈ s.store.tasks.rows, ∀ row, P task →
      RowChange config s event task row → P row)
    (h : AllRows P s.store) : AllRows P (step config s event).store := by
  intro row hrow
  rcases step_rows (Table.find?_of_mem hrow) with ⟨task, htask, hrowChange⟩ | ⟨_, hnew⟩
  · have hmem := (Store.getTask_eq_some_iff.mp htask).1
    exact hchange task hmem row (h task hmem) hrowChange
  · exact hcreated row hnew

theorem Created.unleased {row : Task} (h : Created row) :
    row.leaseOwner = none ∧ row.state = queued ∧ row.cancelRequestedAt = none := by
  obtain ⟨input, id, clock, rfl⟩ := h
  exact ⟨rfl, rfl, rfl⟩

/-- No row of the store is leased. -/
def Unleased (store : Store) : Prop := AllRows (fun task => task.leaseOwner = none) store

/-- A lease has an expiry, so it can expire. -/
def LeaseExpires (task : Task) : Prop := task.leaseOwner ≠ none → task.leaseExpiresAt.isSome

theorem leaseExpires_step {config : SchedulerConfig} (s : System) (event : Event)
    (h : AllRows LeaseExpires s.store) : AllRows LeaseExpires (step config s event).store := by
  refine allRows_step (fun row hnew hleased => absurd hnew.unleased.1 hleased) ?_ h
  intro task _ row hinv hchange hleased
  cases hchange.held hleased with
  | claimed _ _ hrow => simp [hrow, claimedRow_lease.2.1]
  | kept howner _ hexpires => exact hexpires (hinv (howner ▸ hleased))
  | advanced _ _ _ _ howner _ hrow =>
      rw [hrow]
      exact hinv (by simp [howner])

/-! ## Counting leased rows -/

section Count

variable {config : SchedulerConfig} {s : System} {event : Event} {p q : Task → Bool}

/-- No more leased rows are counted after an event if each of them was counted. -/
theorem count_step_le (hleased : ∀ row, q row = true → row.leaseOwner ≠ none)
    (hheld : ∀ task row, s.store.getTask row.id = some task →
      Held config s event task row → q row = true → p task = true) :
    (step config s event).store.tasks.count q ≤ s.store.tasks.count p := by
  refine Table.count_le_of_forall fun row hrow hq => ?_
  rcases step_rows (Table.find?_of_mem hrow) with ⟨task, htask, hchange⟩ | ⟨_, hnew⟩
  · obtain ⟨hmem, hid⟩ := Store.getTask_eq_some_iff.mp htask
    exact ⟨task, hmem, hid, hheld task row htask (hchange.held (hleased row hq)) hq⟩
  · exact absurd hnew.unleased.1 (hleased row hq)

/-- An event brings at most one more leased row into a count. -/
theorem count_step_le_succ (hleased : ∀ row, q row = true → row.leaseOwner ≠ none)
    (hsame : ∀ task ∈ s.store.tasks.rows, q task = true → p task = true) :
    (step config s event).store.tasks.count q ≤ s.store.tasks.count p + 1 := by
  cases step_change config s event with
  | @put task row hput _ =>
      refine Table.count_le_succ_of_forall row.id fun other hother hne hq => ?_
      rw [hput.tasks, Table.mem_put] at hother
      rcases hother with ⟨rfl, _⟩ | ⟨hmem, _⟩
      · exact absurd rfl hne
      · exact ⟨other, hmem, rfl, hsame other hmem hq⟩
  | same htasks _ _ =>
      rw [htasks]
      exact (Table.count_mono hsame).trans (Nat.le_succ _)
  | @created row _ hfresh hcreated htasks _ _ _ =>
      refine (Table.count_le_of_forall fun other hother hq => ?_).trans (Nat.le_succ _)
      rw [htasks, Table.mem_insert hfresh] at hother
      rcases hother with hmem | rfl
      · exact ⟨other, hmem, rfl, hsame other hmem hq⟩
      · exact absurd hcreated.unleased.1 (hleased other hq)
  | @recovered condition reason locked clock hevent hstore =>
      refine (Table.count_le_of_forall fun row hrow hq => ?_).trans (Nat.le_succ _)
      have hget := getTask_recoveredStore reason clock
        (selected_recoveryCandidates s.store condition locked) row.id
      rw [← hstore, show (step config s event).store.getTask row.id = some row from
        Table.find?_of_mem hrow] at hget
      obtain ⟨task, htask, hmap⟩ := Option.map_eq_some_iff.mp hget.symm
      split_ifs at hmap with hcandidate
      · rw [← hmap] at hq
        exact absurd rfl (hleased _ hq)
      · rw [← hmap] at hq ⊢
        exact ⟨task, (Store.getTask_eq_some_iff.mp htask).1, rfl,
          hsame task (Store.getTask_eq_some_iff.mp htask).1 hq⟩

end Count

/-! ## Claimed rows -/

theorem inLane_delivery {state : TaskState} :
    inLane .delivery state = !inLane .execution state := by
  cases state <;> rfl

/-- A paused row resumes to a state the claim lists for its pause. -/
theorem claimedRow_of_pause (input : TaskClaimWithLimitInput) {task : Task} (clock : Instant)
    {resumes : List TaskState} (hpause : task.state ∈ pauseStates)
    (hresumes : resumesTo task resumes = true) :
    (claimedRow input task clock).state ∈ resumes := by
  have hqueued : task.state ≠ queued := by
    intro hstate
    simp [hstate, pauseStates] at hpause
  cases hresume : task.resumeState with
  | none => simp [resumesTo, hresume] at hresumes
  | some resumeState =>
      have hrow : (claimedRow input task clock).state = resumeState := by
        simp [claimedRow, claimTransition, hqueued, hpause, hresume]
      rw [hrow]
      simpa [resumesTo, hresume] using hresumes

/-- A row that is neither queued nor paused keeps its state. -/
theorem claimedRow_of_parked {input : TaskClaimWithLimitInput} {task : Task} {clock : Instant}
    (hqueued : task.state ≠ queued) (hpause : task.state ∉ pauseStates) :
    (claimedRow input task clock).state = task.state := by
  have hnone : claimTransition input task = none := by simp [claimTransition, hqueued, hpause]
  simp [claimedRow, hnone, Task.leased]

/-- A resume state of the execution lane is executable, and in that lane. -/
theorem resumed_in_lane {config : SchedulerConfig} {override : ScheduleOverride} {gated : Instant}
    {state : TaskState} (pause : TaskState) (hpause : pause ∈ pauseStates)
    (h : state ∈ (claimableWork config override gated).parkedStates.filter
      (transitionMap pause).contains) : ExecutableStage state ∧ inLane .execution state = true := by
  obtain ⟨hpermitted, hmap⟩ := List.mem_filter.mp h
  refine ⟨executableStage_of_permitted (List.mem_filter.mp hpermitted).2, ?_⟩
  -- Neither pause resumes into a delivery state.
  revert hmap hpause
  cases pause <;> cases state <;> decide

/-- A claimed row is in a stage the scheduler runs, in the lane it was claimed for. -/
theorem claimed_state {config : SchedulerConfig} {store : Store} {workerId : WorkerId}
    {lane : ClaimLane} {override : ScheduleOverride} {gated now : Instant} {locked : List TaskId}
    {task : Task} (clock : Instant)
    (h : ClaimGrant store (claimInput config workerId lane override gated now) locked task) :
    ExecutableStage
        (claimedRow (claimInput config workerId lane override gated now) task clock).state ∧
      inLane lane
        (claimedRow (claimInput config workerId lane override gated now) task clock).state = true :=
    by
  have heligible := h.eligible
  simp only [Orchestrator.eligible, Bool.or_eq_true, Bool.and_eq_true] at heligible
  rcases heligible with ((⟨⟨⟨hstart, hqueued⟩, _⟩, _⟩ | ⟨hparked, _⟩) | ⟨hpaused, hresumes⟩) |
    ⟨⟨hpaused, hresumes⟩, _⟩
  · -- A new task starts its analysis.
    have hstate : task.state = queued := by simpa using hqueued
    have hlane : lane = .execution := by
      simp only [startNewTasks, laneWork, claimInput, Bool.and_eq_true] at hstart
      exact of_decide_eq_true hstart.1.1
    subst hlane
    have hrow : (claimedRow (claimInput config workerId .execution override gated now) task
        clock).state = analyzing := by
      simp [claimedRow, claimTransition, hstate]
    rw [hrow]
    decide
  · -- A parked task keeps its state.
    obtain ⟨hmem, hlane⟩ := List.mem_filter.mp (List.contains_iff_mem.mp hparked)
    have hstage : ExecutableStage task.state :=
      executableStage_of_permitted (List.mem_filter.mp hmem).2
    have hstates : task.state ≠ queued ∧ task.state ∉ pauseStates := by
      revert hstage
      cases task.state <;> decide
    rw [claimedRow_of_parked hstates.1 hstates.2]
    exact ⟨hstage, hlane⟩
  · -- A task paused by the schedule resumes.
    have hpause : task.state = pausedSchedule := by simpa using hpaused
    have hmem := claimedRow_of_pause (claimInput config workerId lane override gated now) clock
      (by rw [hpause]; decide) hresumes
    cases lane with
    | delivery => simp [laneWork, claimInput] at hmem
    | execution => exact resumed_in_lane pausedSchedule (by decide) hmem
  · -- A task paused by a limit resumes.
    have hpause : task.state = pausedLimit := by simpa using hpaused
    have hmem := claimedRow_of_pause (claimInput config workerId lane override gated now) clock
      (by rw [hpause]; decide) hresumes
    cases lane with
    | delivery => simp [laneWork, claimInput] at hmem
    | execution => exact resumed_in_lane pausedLimit (by decide) hmem

end Orchestrator
