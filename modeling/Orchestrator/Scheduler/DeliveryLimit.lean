import Orchestrator.Scheduler.Leases

/-! # The delivery lane limit

Claims in the delivery lane respect `maxConcurrentDeliveryTasks`. A leased task
that advances from `REVIEWING` to `PR_CREATED` enters the lane without a claim;
the limit holds throughout a run exactly if no such step is taken while the lane
is full.
-/

namespace Orchestrator

open Kit TaskState

/-- Leased tasks in delivery states. -/
def deliveryLeases (store : Store) : Nat := store.tasks.count (leasedInLane .delivery)

/-- At most `maxConcurrentDeliveryTasks` delivery tasks are leased. -/
def WithinDeliveryLimit (config : SchedulerConfig) (s : System) : Prop :=
  deliveryLeases s.store ≤ config.maxConcurrentDeliveryTasks

instance (config : SchedulerConfig) : DecidablePred (WithinDeliveryLimit config) :=
  fun _ => inferInstanceAs (Decidable (_ ≤ _))

/-- The event advances a leased task from `REVIEWING` to `PR_CREATED` while the
delivery lane is full. -/
def EntersFullLane (config : SchedulerConfig) (s : System) (event : Event) : Prop :=
  ∃ id clock lost run stage outcome now task, event = .perform id clock lost ∧
    s.runs.find? id = some run ∧ run.phase = .applying stage (.advance outcome) now ∧
    outcome.toState = prCreated ∧ s.store.getTask run.taskId = some task ∧
    task.leaseOwner = some run.workerId ∧ task.state = reviewing ∧
    config.maxConcurrentDeliveryTasks ≤ deliveryLeases s.store

theorem leasedInLane_iff {lane : ClaimLane} {task : Task} :
    leasedInLane lane task = true ↔ task.leaseOwner ≠ none ∧ inLane lane task.state = true := by
  simp [leasedInLane, Option.isSome_iff_ne_none]

/-- The state machine enters the delivery states only from `REVIEWING`. -/
theorem enters_delivery_from_reviewing {source target : TaskState}
    (h : canTransition source target = true) (htarget : inLane .delivery target = true)
    (hsource : inLane .delivery source = false) : source = reviewing ∧ target = prCreated := by
  revert h htarget hsource
  cases source <;> cases target <;> decide

/-- A step that does not enter the full lane keeps the limit. -/
theorem withinDeliveryLimit_step {config : SchedulerConfig} {s : System} {event : Event}
    (hwithin : WithinDeliveryLimit config s) (henters : ¬ EntersFullLane config s event) :
    WithinDeliveryLimit config (step config s event) := by
  have hleased : ∀ row, leasedInLane .delivery row = true → row.leaseOwner ≠ none :=
    fun row h => (leasedInLane_iff.mp h).1
  rcases Nat.lt_or_ge (deliveryLeases s.store) config.maxConcurrentDeliveryTasks with hfree | hfull
  · -- One free slot takes whatever this event brings.
    exact (count_step_le_succ hleased fun _ _ h => h).trans hfree
  · refine (count_step_le hleased ?_).trans hwithin
    intro task row htask hheld hrow
    obtain ⟨howner, hlane⟩ := leasedInLane_iff.mp hrow
    cases hheld with
    | @claimed workerId lane override gated now locked clock hevent hgrant hclaimed =>
        cases lane with
        | delivery => exact absurd hgrant.laneOpen (Nat.not_lt.mpr hfull)
        | execution =>
            have hexecution := (claimed_state clock hgrant).2
            rw [← hclaimed] at hexecution
            simp [inLane_delivery, hexecution] at hlane
    | kept howner' hstate _ =>
        exact leasedInLane_iff.mpr ⟨howner' ▸ howner, hstate ▸ hlane⟩
    | @advanced id run stage outcome now clock lost hevent hrun hphase hid howner' hallowed
        hmoved =>
        by_cases hsource : inLane .delivery task.state = true
        · exact leasedInLane_iff.mpr ⟨by simp [howner'], hsource⟩
        · -- Only `REVIEWING` leads into the lane, and the lane is full.
          rw [hmoved] at hlane
          obtain ⟨hreviewing, htarget⟩ :=
            enters_delivery_from_reviewing hallowed.1 hlane (by simpa using hsource)
          have hfound : s.store.getTask run.taskId = some task := by
            rw [← hid]
            exact getTask_self htask
          exact absurd ⟨id, clock, lost, run, stage, outcome, now, task, hevent, hrun, hphase,
            htarget, hfound, howner', hreviewing, hfull⟩ henters

/-- A step that enters the full lane breaks the limit. -/
theorem not_withinDeliveryLimit_of_enters {config : SchedulerConfig} {s : System} {event : Event}
    (henters : EntersFullLane config s event) :
    ¬ WithinDeliveryLimit config (step config s event) := by
  obtain ⟨id, clock, lost, run, stage, outcome, now, task, rfl, hrun, hphase, htarget, hfound,
    howner, hreviewing, hfull⟩ := henters
  have hallowed : TransitionAllowed task.state outcome.toState none := by
    rw [hreviewing, htarget]
    exact ⟨rfl, by simp [pauseStates]⟩
  rw [WithinDeliveryLimit, step_advance_store hrun hphase hfound howner hallowed, Nat.not_le]
  have hrow : s.store.tasks.find? (task.moved (advanceInput run stage outcome).locked clock).id =
      some task := getTask_self hfound
  have hcount := Table.count_put (leasedInLane .delivery) hrow
  have hbefore : leasedInLane .delivery task = false := by
    simp [leasedInLane, hreviewing, inLane, deliveryStates]
  have hafter : leasedInLane .delivery
      (task.moved (advanceInput run stage outcome).locked clock) = true := by
    simp [leasedInLane, howner, htarget, inLane, deliveryStates]
  rw [hbefore, hafter] at hcount
  change config.maxConcurrentDeliveryTasks <
    (s.store.tasks.put (task.moved (advanceInput run stage outcome).locked clock)).count
      (leasedInLane .delivery)
  simp only [Bool.false_eq_true, if_false, if_true] at hcount
  unfold deliveryLeases at hfull
  omega

/-- From an unleased store, the delivery lane stays within its limit throughout a run
exactly if no step advances a leased task into the lane while it is full. -/
theorem delivery_limit_iff (config : SchedulerConfig) (store : Store) (hstore : Unleased store)
    (events : List Event) :
    Throughout (step config) (WithinDeliveryLimit config) (boot store) events ↔
      Along (step config) (fun s event => ¬ EntersFullLane config s event) (boot store) events := by
  refine throughout_iff_along (fun _ => True) (fun _ _ _ => trivial) ?_ trivial ?_ events
  · intro s event _ hwithin
    exact ⟨fun h henters => not_withinDeliveryLimit_of_enters henters h,
      withinDeliveryLimit_step hwithin⟩
  · have hzero : deliveryLeases store = 0 :=
      Table.count_eq_zero fun task htask => by simp [leasedInLane, hstore task htask]
    simp [WithinDeliveryLimit, boot, hzero]

/-- One task waits in `PR_CREATED`, another finishes its review. -/
def deliveryStore : Store := sampleStore [sampleTask 1 reviewing, sampleTask 2 prCreated]

/-- Both workers claim a task, then the reviewed one advances. -/
def deliveryRun : List Event :=
  [sampleClaim "w1" .execution 0, sampleClaim "w2" .delivery 0] ++
    sampleStage 0 (.advance { toState := prCreated }) 0

theorem deliveryStore_unleased : Unleased deliveryStore := by
  unfold Unleased AllRows
  decide

theorem delivery_limit_exceeded :
    ¬ ∀ (config : SchedulerConfig) (store : Store), Unleased store → ∀ events : List Event,
      WithinDeliveryLimit config (run (step config) (boot store) events) := by
  intro h
  have hrun := h sampleConfig deliveryStore deliveryStore_unleased deliveryRun
  revert hrun
  decide

theorem delivery_limit_iff_run :
    Throughout (step sampleConfig) (WithinDeliveryLimit sampleConfig) (boot deliveryStore)
      (deliveryRun.take 5) ↔
    Along (step sampleConfig) (fun s event => ¬ EntersFullLane sampleConfig s event)
      (boot deliveryStore) (deliveryRun.take 5) :=
  delivery_limit_iff sampleConfig deliveryStore deliveryStore_unleased (deliveryRun.take 5)

end Orchestrator
