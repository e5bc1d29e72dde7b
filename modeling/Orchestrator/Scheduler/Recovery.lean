import Orchestrator.Scheduler.Leases

/-! # Recovering expired leases

`recoverExpiredLeases` passes over `BLOCKED`, `COMPLETED` and `CANCELLED` tasks.
An `advance` outcome into one of these states keeps the lease until the next loop
iteration releases it, so a crash in between leaves a lease that no recovery ever
clears. Without such an advance, recovery clears every overdue lease.
-/

namespace Orchestrator

open Kit TaskState

/-- A lease whose expiry has passed. -/
def Overdue (now : Instant) (task : Task) : Prop :=
  task.leaseOwner ≠ none ∧ leaseExpired now task = true

/-- Whenever recovery runs, with no row locked, no overdue lease is left. -/
def RecoveryIsComplete (s : System) : Prop :=
  ∀ now clock : Instant, ∃ store', recoverExpiredLeases s.store now [] clock = .ok store' ∧
    AllRows (fun task => ¬ Overdue now task) store'

/-- A lease that recovery would not pass over. -/
def Recoverable (task : Task) : Prop :=
  task.leaseOwner ≠ none → task.state ∉ unrecoveredStates

instance : DecidablePred Recoverable := fun _ => inferInstanceAs (Decidable (_ → _))

/-- The event applies an `advance` outcome into a state that recovery passes over,
with the lease held. -/
def AdvancesPastRecovery (s : System) (event : Event) : Prop :=
  ∃ id clock lost run stage outcome now task, event = .perform id clock lost ∧
    s.runs.find? id = some run ∧ run.phase = .applying stage (.advance outcome) now ∧
    outcome.toState ∈ unrecoveredStates ∧ s.store.getTask run.taskId = some task ∧
    task.leaseOwner = some run.workerId ∧ canTransition task.state outcome.toState = true

theorem mem_recoveryCandidates {store : Store} {now : Instant} {task : Task} :
    task ∈ recoveryCandidates store (leaseExpired now) [] ↔
      task ∈ store.tasks.rows ∧ Overdue now task ∧ task.state ∉ unrecoveredStates := by
  simp only [recoveryCandidates, List.mem_filter, Bool.and_eq_true, Option.isSome_iff_ne_none,
    Bool.not_eq_true', List.contains_eq_mem, decide_eq_false_iff_not, List.not_mem_nil,
    not_false_eq_true, and_true, Overdue, and_assoc]

/-- Recovery is complete exactly if it passes over no lease: an overdue lease it
passes over stays, and any lease becomes overdue. -/
theorem recoveryIsComplete_iff {s : System} (hexpires : AllRows LeaseExpires s.store) :
    RecoveryIsComplete s ↔ AllRows Recoverable s.store := by
  have hget : ∀ now clock taskId, (recoveredStore "Lease expired; manual recovery required" clock
      s.store (recoveryCandidates s.store (leaseExpired now) [])).getTask taskId =
      (s.store.getTask taskId).map fun task =>
        if task ∈ recoveryCandidates s.store (leaseExpired now) [] then
          task.moved (recoveryInput "Lease expired; manual recovery required") clock
        else task :=
    fun now clock taskId => getTask_recoveredStore _ _ (selected_recoveryCandidates _ _ _) taskId
  constructor
  · intro hcomplete task htask hleased hstate
    obtain ⟨expiresAt, hexpiry⟩ := Option.isSome_iff_exists.mp (hexpires task htask hleased)
    -- Run recovery just after this lease expires.
    obtain ⟨store', hok, hclean⟩ := hcomplete (expiresAt + 1) 0
    rw [recoverExpiredLeases, recoverLeases_eq] at hok
    cases hok
    have hskipped : task ∉ recoveryCandidates s.store (leaseExpired (expiresAt + 1)) [] :=
      fun hmem => (mem_recoveryCandidates.mp hmem).2.2 hstate
    have hkept := hget (expiresAt + 1) 0 task.id
    rw [show s.store.getTask task.id = some task from Table.find?_of_mem htask,
      Option.map_some, if_neg hskipped] at hkept
    refine hclean task (Store.getTask_eq_some_iff.mp hkept).1 ⟨hleased, ?_⟩
    simp [leaseExpired, hexpiry]
  · intro hrecoverable now clock
    refine ⟨_, recoverLeases_eq _ _ _ _ _, fun row hrow hoverdue => ?_⟩
    have hrow' := hget now clock row.id
    rw [show (recoveredStore "Lease expired; manual recovery required" clock s.store
      (recoveryCandidates s.store (leaseExpired now) [])).getTask row.id = some row from
      Table.find?_of_mem hrow] at hrow'
    obtain ⟨task, htask, hmap⟩ := Option.map_eq_some_iff.mp hrow'.symm
    have hmem := (Store.getTask_eq_some_iff.mp htask).1
    split_ifs at hmap with hcandidate
    · rw [← hmap] at hoverdue
      exact hoverdue.1 rfl
    · subst hmap
      exact hcandidate (mem_recoveryCandidates.mpr
        ⟨hmem, hoverdue, hrecoverable task hmem hoverdue.1⟩)

theorem recoverable_step {config : SchedulerConfig} {s : System} {event : Event}
    (hinv : AllRows Recoverable s.store) (hadvance : ¬ AdvancesPastRecovery s event) :
    AllRows Recoverable (step config s event).store := by
  refine allRows_step (fun row hnew hleased => absurd hnew.unleased.1 hleased) ?_ hinv
  intro task htask row hrecoverable hchange hleased
  cases hchange.held hleased with
  | @claimed workerId lane override gated now locked clock hevent hgrant hrow =>
      have hstage := (claimed_state clock hgrant).1
      rw [← hrow] at hstage
      revert hstage
      cases row.state <;> decide
  | kept howner hstate _ =>
      rw [hstate]
      exact hrecoverable (howner ▸ hleased)
  | @advanced id run stage outcome now clock lost hevent hrun hphase hid howner hallowed hrow =>
      intro hspecial
      rw [hrow] at hspecial
      have hfound : s.store.getTask run.taskId = some task := by
        rw [← hid]
        exact Table.find?_of_mem htask
      exact hadvance ⟨id, clock, lost, run, stage, outcome, now, task, hevent, hrun, hphase,
        hspecial, hfound, howner, hallowed.1⟩

theorem not_recoverable_of_advance {config : SchedulerConfig} {s : System} {event : Event}
    (hadvance : AdvancesPastRecovery s event) :
    ¬ AllRows Recoverable (step config s event).store := by
  obtain ⟨id, clock, lost, run, stage, outcome, now, task, rfl, hrun, hphase, hspecial, hfound,
    howner, hcan⟩ := hadvance
  -- These states are no pauses, so the advance needs no resume state.
  have hpause : outcome.toState ∉ pauseStates := by
    revert hspecial
    cases outcome.toState <;> decide
  rw [step_advance_store hrun hphase hfound howner ⟨hcan, fun h => absurd h hpause⟩]
  intro hrecoverable
  have hrow := getTask_moved (advanceInput run stage outcome).locked clock
    (getTask_self hfound) task.id
  rw [if_pos rfl] at hrow
  refine hrecoverable _ (Store.getTask_eq_some_iff.mp hrow).1 ?_ hspecial
  simp [howner]

/-- From an unleased store, recovery is complete in every state of a run exactly if no
step advances a leased task into a state that recovery passes over. -/
theorem recovery_complete_iff (config : SchedulerConfig) (store : Store) (hstore : Unleased store)
    (events : List Event) :
    Throughout (step config) RecoveryIsComplete (boot store) events ↔
      Along (step config) (fun s event => ¬ AdvancesPastRecovery s event) (boot store) events := by
  refine throughout_iff_along (fun s => AllRows LeaseExpires s.store) leaseExpires_step ?_
    (fun task htask hleased => absurd (hstore task htask) hleased) ?_ events
  · intro s event hexpires hcomplete
    have hrecoverable := (recoveryIsComplete_iff hexpires).mp hcomplete
    rw [recoveryIsComplete_iff (leaseExpires_step s event hexpires)]
    exact ⟨fun h hadvance => not_recoverable_of_advance hadvance h,
      recoverable_step hrecoverable⟩
  · refine (recoveryIsComplete_iff ?_).mpr ?_
    · exact fun task htask hleased => absurd (hstore task htask) hleased
    · exact fun task htask hleased => absurd (hstore task htask) hleased

/-- One task is about to be analyzed. -/
def analyzingStore : Store := sampleStore [sampleTask 1 analyzing]

theorem analyzingStore_unleased : Unleased analyzingStore := by
  unfold Unleased AllRows
  decide

/-- The stage asks for manual intervention; the worker dies before the next boundary. -/
def blockedCrashRun : List Event :=
  [sampleClaim "w1" .execution 0] ++
    sampleStage 0 (.advance { toState := blocked, requiresManualIntervention := some true }) 0 ++
    [.crash [0] []]

theorem recovery_incomplete :
    ¬ ∀ (config : SchedulerConfig) (store : Store), Unleased store → ∀ events : List Event,
      RecoveryIsComplete (run (step config) (boot store) events) := by
  intro h
  have hcomplete := h sampleConfig analyzingStore analyzingStore_unleased blockedCrashRun
  have hexpires : AllRows LeaseExpires
      (run (step sampleConfig) (boot analyzingStore) blockedCrashRun).store := by
    unfold AllRows LeaseExpires
    decide
  have hrecoverable := (recoveryIsComplete_iff hexpires).mp hcomplete
  revert hrecoverable
  unfold AllRows
  decide

theorem recovery_complete_iff_run :
    Throughout (step sampleConfig) RecoveryIsComplete (boot analyzingStore) blockedCrashRun ↔
      Along (step sampleConfig) (fun s event => ¬ AdvancesPastRecovery s event)
        (boot analyzingStore) blockedCrashRun :=
  recovery_complete_iff sampleConfig analyzingStore analyzingStore_unleased blockedCrashRun

end Orchestrator
