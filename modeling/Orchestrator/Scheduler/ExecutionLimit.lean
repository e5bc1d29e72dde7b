import Orchestrator.Scheduler.Leases
import Orchestrator.Scheduler.Runs

/-! # The execution lane limits

With handlers that advance along the transition map, leased tasks enter the
executing states only through claims, so the global limit and every repository
limit hold in every reachable state.
-/

namespace Orchestrator

open Kit TaskState

/-- The states in which a leased task occupies an execution slot. -/
def executingStates : List TaskState :=
  [analyzing, ready, implementing, testing, fixing, reviewing]

def leasedExecuting (task : Task) : Bool :=
  task.leaseOwner.isSome && executingStates.contains task.state

/-- Leased executing tasks with a work unit in the repository. -/
def leasedExecutingIn (store : Store) (repository : String) (task : Task) : Bool :=
  leasedExecuting task && store.touches task.id [repository]

/-- The limits a deployment is configured for. -/
structure WithinExecutionLimits (config : SchedulerConfig) (s : System) : Prop where
  execution : s.store.tasks.count leasedExecuting ≤ config.maxConcurrentTasks
  repositories : ∀ entry ∈ repositoryLimits config,
    s.store.tasks.count (leasedExecutingIn s.store entry.1) ≤ entry.2

/-- A handler that returns `advance` names a successor of the stage it ran. -/
def advancesAlongMap (s : System) : Event → Bool
  | .finish id (.advance outcome) _ =>
      match s.runs.find? id with
      | some { phase := .running task, .. } =>
          (transitionMap task.state).contains outcome.toState
      | _ => true
  | _ => true

/-! ## Runs stay on the map -/

/-- A running stage is executable; an outcome to apply is a successor of its stage. -/
def OnMap (run : RunEntry) : Prop :=
  match run.phase with
  | .running task => ExecutableStage task.state
  | .applying task (.advance outcome) _ =>
      ExecutableStage task.state ∧ outcome.toState ∈ transitionMap task.state
  | _ => True

def RunsOnMap (s : System) : Prop := ∀ run ∈ s.runs.rows, OnMap run

theorem onMap_gatePhase {config : SchedulerConfig} {controls : OrchestratorControls}
    {forceKillSwitch : Bool} {task : Task} {now : Instant} {run : RunEntry}
    (h : run.phase = gatePhase config controls forceKillSwitch task now) : OnMap run := by
  unfold OnMap
  rw [h]
  unfold gatePhase
  dsimp only
  split_ifs with _ _ _ hgate <;> try trivial
  exact executableStage_of_permitted (by simpa using hgate)

theorem runsOnMap_step {config : SchedulerConfig} {s : System} {event : Event}
    (hinv : RunsOnMap s) (hmap : advancesAlongMap s event = true) :
    RunsOnMap (step config s event) := by
  intro run' hrun'
  rcases step_runs hrun' with ⟨run, hrun, hchange⟩ | ⟨task, hstarted⟩
  · have hrunMap := hinv run hrun
    cases hchange with
    | kept => exact hrunMap
    | flagged _ => exact hrunMap
    | checked _ _ _ =>
        unfold OnMap boundaryPhase
        dsimp only
        split_ifs <;> trivial
    | gated _ => exact onMap_gatePhase rfl
    -- Only here does an outcome enter the system, and it is on the map.
    | @finished task outcome now hevent hphase _ =>
        unfold OnMap at hrunMap ⊢
        rw [hphase] at hrunMap
        cases outcome with
        | advance outcome =>
            refine ⟨hrunMap, ?_⟩
            have hfound := Table.find?_of_mem hrun
            subst hevent
            obtain ⟨_, _, _, _, _, _, phase⟩ := run
            subst hphase
            simpa [advancesAlongMap, hfound] using hmap
        | _ => trivial
    | interrupted _ _ => trivial
    | advanced _ => trivial
    | failed => trivial
    | handedBack _ _ => trivial
  · rw [hstarted.run]
    trivial

/-! ## Leased rows are at work -/

/-- A leased row is neither queued nor paused. -/
def AtWork (task : Task) : Prop :=
  task.leaseOwner ≠ none → task.state ≠ queued ∧ task.state ∉ pauseStates

theorem atWork_step {config : SchedulerConfig} {s : System} {event : Event}
    (hruns : RunsOnMap s) (h : AllRows AtWork s.store) :
    AllRows AtWork (step config s event).store := by
  refine allRows_step (fun row hnew hleased => absurd hnew.unleased.1 hleased) ?_ h
  intro task _ row hinv hchange hleased
  cases hchange.held hleased with
  | @claimed workerId lane override gated now locked clock hevent hgrant hrow =>
      have hstage := (claimed_state clock hgrant).1
      rw [← hrow] at hstage
      revert hstage
      cases row.state <;> decide
  | kept howner hstate _ =>
      rw [hstate]
      exact hinv (howner ▸ hleased)
  | @advanced id run stage outcome now clock lost hevent hrun hphase _ howner hallowed hrow =>
      have hmap := hruns run (Table.mem_of_find? hrun)
      unfold OnMap at hmap
      rw [hphase] at hmap
      obtain ⟨hstage, hsuccessor⟩ := hmap
      rw [hrow]
      change outcome.toState ≠ queued ∧ outcome.toState ∉ pauseStates
      refine ⟨?_, fun hpause => ?_⟩
      · -- No executable stage has `QUEUED` as a successor.
        rintro hqueued
        rw [hqueued] at hsuccessor
        revert hstage hsuccessor
        cases stage.state <;> decide
      · -- An `advance` carries no resume state.
        obtain ⟨resume, hresume, _⟩ := hallowed.2 hpause
        cases hresume

/-- No transition of a row at work enters the executing states from outside. -/
theorem executing_of_transition {source target : TaskState}
    (h : canTransition source target = true) (htarget : target ∈ executingStates)
    (hqueued : source ≠ queued) (hpaused : source ∉ pauseStates) : source ∈ executingStates := by
  revert h htarget hqueued hpaused
  cases source <;> cases target <;> decide

/-- The execution lane contains the executing states. -/
theorem inLane_of_executing {state : TaskState} (h : state ∈ executingStates) :
    inLane .execution state = true := by
  revert h
  cases state <;> decide

theorem leasedExecuting_iff {task : Task} :
    leasedExecuting task = true ↔ task.leaseOwner ≠ none ∧ task.state ∈ executingStates := by
  simp [leasedExecuting, Option.isSome_iff_ne_none]

/-- A leased executing row was leased and executing before, or was claimed in the
execution lane. -/
theorem leasedExecuting_held {config : SchedulerConfig} {s : System} {event : Event}
    {task row : Task} (hatWork : AtWork task) (hheld : Held config s event task row)
    (hrow : leasedExecuting row = true) :
    leasedExecuting task = true ∨
      ∃ workerId override gated now locked,
        ClaimGrant s.store (claimInput config workerId .execution override gated now) locked task :=
    by
  obtain ⟨hleased, hexecuting⟩ := leasedExecuting_iff.mp hrow
  cases hheld with
  | @claimed workerId lane override gated now locked clock hevent hgrant hclaimed =>
      cases lane with
      | execution => exact Or.inr ⟨workerId, override, gated, now, locked, hgrant⟩
      | delivery =>
          have hdelivery := (claimed_state clock hgrant).2
          rw [← hclaimed] at hdelivery
          simp [inLane_delivery, inLane_of_executing hexecuting] at hdelivery
  | kept howner hstate _ =>
      exact Or.inl (leasedExecuting_iff.mpr ⟨howner ▸ hleased, hstate ▸ hexecuting⟩)
  | advanced _ _ _ _ howner hallowed hmoved =>
      have htask : task.leaseOwner ≠ none := by simp [howner]
      obtain ⟨hqueued, hpaused⟩ := hatWork htask
      rw [hmoved] at hexecuting
      exact Or.inl (leasedExecuting_iff.mpr
        ⟨htask, executing_of_transition hallowed.1 hexecuting hqueued hpaused⟩)

/-! ## Work units -/

/-- The work units of an existing task never change. -/
theorem step_units {config : SchedulerConfig} {s : System} {event : Event} {task : Task}
    (h : s.store.getTask task.id = some task) (q : TaskWorkUnit → Bool) :
    (step config s event).store.taskWorkUnits.any (fun unit => unit.taskId = task.id && q unit) =
      s.store.taskWorkUnits.any fun unit => unit.taskId = task.id && q unit := by
  cases step_change config s event with
  | put hput _ => rw [hput.taskWorkUnits]
  | same _ hunits _ => rw [hunits]
  | @created row units hfresh _ _ hunits howner _ =>
      have hother : ∀ unit ∈ units, unit.taskId ≠ task.id := by
        intro unit hunit heq
        rw [← howner unit hunit, heq, h] at hfresh
        cases hfresh
      rw [hunits, List.any_append, Bool.or_eq_left_iff_imp]
      intro hany
      obtain ⟨unit, hunit, hmatch⟩ := List.any_eq_true.mp hany
      simp [hother unit hunit] at hmatch
  | @recovered condition reason locked clock _ hstore =>
      have hunits : ∀ (tasks : List Task) (store : Store),
          (recoveredStore reason clock store tasks).taskWorkUnits = store.taskWorkUnits := by
        intro tasks
        induction tasks with
        | nil => exact fun _ => rfl
        | cons task tasks ih => exact fun store => ih _
      rw [hstore, hunits]

theorem step_touches {config : SchedulerConfig} {s : System} {event : Event} {task : Task}
    (h : s.store.getTask task.id = some task) (repositories : List String) :
    (step config s event).store.touches task.id repositories =
      s.store.touches task.id repositories :=
  step_units h fun unit => repositories.contains unit.repository

/-- A repository below its limit is the only kind a claimed task touches. -/
theorem ClaimGrant.repositoryOpen {config : SchedulerConfig} {store : Store}
    {workerId : WorkerId} {override : ScheduleOverride} {gated now : Instant} {locked : List TaskId}
    {task : Task} {entry : String × Nat}
    (h : ClaimGrant store (claimInput config workerId .execution override gated now) locked task)
    (hentry : entry ∈ repositoryLimits config) (htouch : store.touches task.id [entry.1] = true) :
    busyTasks store .execution entry.1 < entry.2 := by
  by_contra hfull
  have hsaturated : entry.1 ∈
      saturatedRepositories store (claimInput config workerId .execution override gated now) := by
    refine List.mem_filterMap.mpr ⟨entry, by simpa [claimInput] using hentry, ?_⟩
    exact if_pos (Nat.not_lt.mp hfull)
  obtain ⟨unit, hunit, hmatch⟩ := List.any_eq_true.mp htouch
  have htouches : store.touches task.id
      (saturatedRepositories store
        (claimInput config workerId .execution override gated now)) = true := by
    refine List.any_eq_true.mpr ⟨unit, hunit, ?_⟩
    simp only [Bool.and_eq_true, decide_eq_true_eq, List.contains_iff_mem,
      List.mem_singleton] at hmatch ⊢
    exact ⟨hmatch.1, hmatch.2 ▸ hsaturated⟩
  rw [h.unsaturated] at htouches
  cases htouches

/-! ## The limits -/

/-- What a step keeps: the limits, and what they rest on. -/
structure ExecutionInv (config : SchedulerConfig) (s : System) : Prop where
  runs : RunsOnMap s
  rows : AllRows AtWork s.store
  limits : WithinExecutionLimits config s

theorem executionInv_step {config : SchedulerConfig} (s : System) (event : Event)
    (hinv : ExecutionInv config s) (hmap : advancesAlongMap s event = true) :
    ExecutionInv config (step config s event) := by
  refine ⟨runsOnMap_step hinv.runs hmap, atWork_step hinv.runs hinv.rows, ?_, ?_⟩
  · have hleased : ∀ row, leasedExecuting row = true → row.leaseOwner ≠ none :=
      fun row h => (leasedExecuting_iff.mp h).1
    -- Below the limit one more row fits; at the limit no row may enter.
    rcases Nat.lt_or_ge (s.store.tasks.count leasedExecuting) config.maxConcurrentTasks with
      hfree | hfull
    · exact (count_step_le_succ hleased fun _ _ h => h).trans hfree
    · refine (count_step_le hleased ?_).trans hinv.limits.execution
      intro task row htask hheld hrow
      have hmem := (Store.getTask_eq_some_iff.mp htask).1
      rcases leasedExecuting_held (hinv.rows task hmem) hheld hrow with
        hbefore | ⟨workerId, override, gated, now, locked, hgrant⟩
      · exact hbefore
      · -- A claim would have found the lane full.
        have hlane : s.store.tasks.count leasedExecuting ≤
            s.store.tasks.count (leasedInLane .execution) := by
          refine Table.count_mono fun other _ hother => ?_
          obtain ⟨howner, hstate⟩ := leasedExecuting_iff.mp hother
          simp [leasedInLane, Option.isSome_iff_ne_none, howner, inLane_of_executing hstate]
        have hopen : s.store.tasks.count (leasedInLane .execution) < config.maxConcurrentTasks :=
          hgrant.laneOpen
        omega
  · intro entry hentry
    have hleased : ∀ row, leasedExecutingIn (step config s event).store entry.1 row = true →
        row.leaseOwner ≠ none := by
      intro row h
      simp only [leasedExecutingIn, Bool.and_eq_true] at h
      exact (leasedExecuting_iff.mp h.1).1
    -- The same for one repository, whose rows keep their work units.
    rcases Nat.lt_or_ge (s.store.tasks.count (leasedExecutingIn s.store entry.1)) entry.2 with
      hfree | hfull
    · refine (count_step_le_succ hleased fun task htask h => ?_).trans hfree
      simpa only [leasedExecutingIn, step_touches (Table.find?_of_mem htask)] using h
    · refine (count_step_le hleased ?_).trans (hinv.limits.repositories entry hentry)
      intro task row htask hheld hrow
      have hid := (Store.getTask_eq_some_iff.mp htask).2
      have hmem := (Store.getTask_eq_some_iff.mp htask).1
      simp only [leasedExecutingIn, Bool.and_eq_true, ← hid] at hrow ⊢
      rw [step_touches (getTask_self htask)] at hrow
      refine ⟨?_, hrow.2⟩
      rcases leasedExecuting_held (hinv.rows task hmem) hheld hrow.1 with
        hbefore | ⟨workerId, override, gated, now, locked, hgrant⟩
      · exact hbefore
      · -- A claim would have avoided the saturated repository.
        have hbusy : s.store.tasks.count (leasedExecutingIn s.store entry.1) ≤
            busyTasks s.store .execution entry.1 := by
          refine Table.count_mono fun other _ hother => ?_
          simp only [leasedExecutingIn, Bool.and_eq_true] at hother ⊢
          obtain ⟨howner, hstate⟩ := leasedExecuting_iff.mp hother.1
          simp [leasedInLane, Option.isSome_iff_ne_none, howner, inLane_of_executing hstate,
            hother.2]
        have hopen := hgrant.repositoryOpen hentry hrow.2
        omega

/-- From an unleased store, with handlers that advance along the map, the execution
limits hold in every state of every run. -/
theorem execution_limits (config : SchedulerConfig) (store : Store) (hstore : Unleased store)
    (events : List Event)
    (hmap : Along (step config) (fun s event => advancesAlongMap s event = true) (boot store)
      events) :
    Throughout (step config) (WithinExecutionLimits config) (boot store) events := by
  have hcount : ∀ p : Task → Bool, (∀ task, p task = true → task.leaseOwner ≠ none) →
      store.tasks.count p = 0 := by
    refine fun p hp => Table.count_eq_zero fun task htask => ?_
    by_contra hcounted
    exact hp task (by simpa using hcounted) (hstore task htask)
  have hinit : ExecutionInv config (boot store) := by
    refine ⟨fun run hrun => ?_, fun task htask hleased => absurd (hstore task htask) hleased,
      ?_, ?_⟩
    · simp [boot] at hrun
    · simp [boot, hcount leasedExecuting fun task h => (leasedExecuting_iff.mp h).1]
    · intro entry _
      have hzero := hcount (leasedExecutingIn store entry.1) fun task h => by
        simp only [leasedExecutingIn, Bool.and_eq_true] at h
        exact (leasedExecuting_iff.mp h.1).1
      simp [boot, hzero]
  exact throughout_mono (fun s hinv => hinv.limits)
    (throughout_of_along (ExecutionInv config) executionInv_step hinit hmap)

theorem execution_limits_run :
    Throughout (step sampleConfig) (WithinExecutionLimits sampleConfig)
      (boot (sampleStore [sampleTask 1 queued, sampleTask 2 queued]))
      ([sampleClaim "w1" .execution 0, sampleClaim "w2" .execution 0] ++
        sampleStage 0 (.advance { toState := ready }) 0) :=
  execution_limits sampleConfig (sampleStore [sampleTask 1 queued, sampleTask 2 queued])
    (by unfold Unleased AllRows; decide) _ (by decide)

end Orchestrator
