import Orchestrator.Repositories.TaskWrites

/-! # Calls of a lease owner

A caller that names itself as the lease owner must hold the lease when its call
runs. The updates by the lease owner check this in their `WHERE`. `transitionTask`
checks it in `leaseGuard`, whose second check is skipped when the call also
releases the lease: on a row nobody leases such a call goes through.
-/

namespace Orchestrator

open Kit TaskState

/-- The store once the transaction has ended: an error rolls it back. -/
def Store.after {α : Type} (store : Store) (result : Except WorkflowError (Store × α)) : Store :=
  match result with
  | .ok (store', _) => store'
  | .error _ => store

/-- The call changed the row `task` only as its lease owner; otherwise it was
refused, with the row and its history unchanged. -/
structure ActsAsOwner (store : Store) (task : Task) (leaseOwner : WorkerId)
    (result : Except WorkflowError (Store × Task)) : Prop where
  applied : ∀ store' row, result = .ok (store', row) → task.leaseOwner = some leaseOwner
  refused : task.leaseOwner ≠ some leaseOwner →
    result = .error (.leaseOwnership task.id) ∧
      (store.after result).getTask task.id = store.getTask task.id ∧
      (store.after result).history task.id = store.history task.id

theorem ActsAsOwner.of_holds {store : Store} {task : Task} {leaseOwner : WorkerId}
    {result : Except WorkflowError (Store × Task)} (h : task.leaseOwner = some leaseOwner) :
    ActsAsOwner store task leaseOwner result :=
  ⟨fun _ _ _ => h, fun hnot => absurd h hnot⟩

theorem ActsAsOwner.of_error {store : Store} {task : Task} {leaseOwner : WorkerId}
    {result : Except WorkflowError (Store × Task)}
    (h : result = .error (.leaseOwnership task.id)) : ActsAsOwner store task leaseOwner result := by
  subst h
  exact ⟨fun _ _ hok => (nomatch hok), fun _ => ⟨rfl, rfl, rfl⟩⟩

/-- `releaseLease`, `deferTask` and `recordModelSelection` are such calls. -/
theorem updateLeased_actsAsOwner {store : Store} {task : Task} {leaseOwner : WorkerId}
    {change : Task → Task} (hrow : store.getTask task.id = some task) :
    ActsAsOwner store task leaseOwner (updateLeased store task.id leaseOwner change) := by
  by_cases howner : task.leaseOwner = some leaseOwner
  · exact ActsAsOwner.of_holds howner
  · refine ActsAsOwner.of_error ?_
    simp [updateLeased, hrow, howner]

theorem heartbeat_actsAsOwner {store : Store} {task : Task} {leaseOwner : WorkerId}
    {leaseDurationMs now : Instant} (hrow : store.getTask task.id = some task)
    (hduration : 0 < leaseDurationMs) :
    ActsAsOwner store task leaseOwner
      (heartbeat store task.id leaseOwner leaseDurationMs now) := by
  rw [heartbeat, if_neg (Int.not_le.mpr hduration)]
  exact updateLeased_actsAsOwner hrow

theorem validateTransition_ne_leaseOwnership {current next : TaskState}
    {details : TransitionDetails} {taskId : TaskId} :
    validateTransition current next details ≠ .error (.leaseOwnership taskId) := by
  unfold validateTransition
  split_ifs
  · simp
  · simp
  · simp
  · cases details.resumeState with
    | none => simp
    | some resumeState => dsimp only; split_ifs <;> simp

/-- The lease checks alone decide whether a transition fails with the ownership
error of its row. -/
theorem transitionTask_eq_leaseOwnership_iff {store : Store} {task : Task}
    {input : TaskTransitionInput} {clock : Instant}
    (hrow : store.getTask input.taskId = some task) :
    transitionTask store input clock = .error (.leaseOwnership task.id) ↔
      ¬ LeasePermits task input.locked := by
  unfold transitionTask transitionLockedTask
  rw [hrow]
  change (leaseGuard task input.locked >>= _) = _ ↔ _
  -- Past the lease checks, no error of a transition is an ownership error.
  by_cases hpermits : LeasePermits task input.locked
  · rw [leaseGuard_eq_ok_iff.mpr hpermits]
    simp only [hpermits, not_true, iff_false]
    change ¬ (validateTransition task.state input.locked.toState input.locked.details >>= _) = _
    cases hvalid : validateTransition task.state input.locked.toState input.locked.details with
    | error failure =>
        rintro ⟨⟩
        exact validateTransition_ne_leaseOwnership hvalid
    | ok transition =>
        have hself : store.getTask (task.transitioned transition input.locked clock).id =
            some task := getTask_self hrow
        change ¬ (Store.updateTask _ _ >>= _) = _
        rw [Store.updateTask_eq_ok hself]
        rintro ⟨⟩
  · rw [leaseGuard_eq_error hpermits]
    exact iff_of_true rfl hpermits

theorem locked_lease_ne_none {input : TaskTransitionInput} :
    input.locked.lease ≠ none ↔ input.releaseLease = true := by
  unfold TaskTransitionInput.locked
  cases input.releaseLease <;> simp

/-- The lease checks pass for the holder, and on an unleased row for a caller that
releases the lease. -/
theorem leasePermits_locked_iff (task : Task) {input : TaskTransitionInput}
    {leaseOwner : WorkerId} (howner : input.leaseOwner = some leaseOwner) :
    LeasePermits task input.locked ↔
      task.leaseOwner = some leaseOwner ∨
        task.leaseOwner = none ∧ input.releaseLease = true := by
  have hlocked : input.locked.leaseOwner = some leaseOwner := howner
  have hexpired : input.locked.allowExpiredLease = false := rfl
  unfold LeasePermits
  rw [hlocked, hexpired, locked_lease_ne_none]
  -- On an unleased row only the second check is left, which a release skips.
  cases hholder : task.leaseOwner with
  | none => simp
  | some holder =>
      simp only [reduceCtorEq, false_or, or_false, Option.some.injEq, false_and]
      exact ⟨fun h => h.1.symm, fun h => ⟨h.symm, Or.inl h⟩⟩

/-- A transition that names a lease owner is applied only under that owner's lease,
and refused otherwise, exactly if it keeps the lease or the row is leased. -/
theorem transition_actsAsOwner_iff (store : Store) (task : Task) (input : TaskTransitionInput)
    (leaseOwner : WorkerId) (clock : Instant) (hrow : store.getTask input.taskId = some task)
    (howner : input.leaseOwner = some leaseOwner) :
    ActsAsOwner store task leaseOwner (transitionTask store input clock) ↔
      input.releaseLease = false ∨ task.leaseOwner ≠ none := by
  have hpermits := leasePermits_locked_iff task howner
  constructor
  · intro hacts
    -- Otherwise the call releases the lease of a row that nobody leases.
    by_contra hneither
    obtain ⟨hrelease, hunleased⟩ := not_or.mp hneither
    rw [Bool.not_eq_false] at hrelease
    rw [not_not] at hunleased
    have hnot : task.leaseOwner ≠ some leaseOwner := by simp [hunleased]
    exact (transitionTask_eq_leaseOwnership_iff hrow).mp (hacts.refused hnot).1
      (hpermits.mpr (Or.inr ⟨hunleased, hrelease⟩))
  · intro hguarded
    by_cases hholds : task.leaseOwner = some leaseOwner
    · exact ActsAsOwner.of_holds hholds
    · refine ActsAsOwner.of_error ((transitionTask_eq_leaseOwnership_iff hrow).mpr ?_)
      rw [hpermits]
      rintro (hholder | ⟨hunleased, hrelease⟩)
      · exact hholds hholder
      · rcases hguarded with hkeeps | hleased
        · rw [hkeeps] at hrelease
          cases hrelease
        · exact hleased hunleased

/-- The lease of worker `w1` on this task is gone, and `w1` still pauses the task. -/
def pauseUnleased : TaskTransitionInput :=
  { taskId := 1, toState := pausedLimit, resumeState := some implementing,
    pauseReason := some .usageLimit, leaseOwner := some "w1", releaseLease := true }

theorem transition_ignores_lost_lease :
    ¬ ∀ (store : Store) (task : Task) (input : TaskTransitionInput) (leaseOwner : WorkerId)
      (clock : Instant), store.getTask input.taskId = some task →
        input.leaseOwner = some leaseOwner →
        ActsAsOwner store task leaseOwner (transitionTask store input clock) := by
  intro h
  have hacts := h (sampleStore [sampleTask 1 implementing]) (sampleTask 1 implementing)
    pauseUnleased "w1" 0 (by decide) rfl
  exact (transitionTask_eq_leaseOwnership_iff (by decide)).mp (hacts.refused (by decide)).1
    (by decide)

theorem transition_actsAsOwner_iff_unleased :
    ActsAsOwner (sampleStore [sampleTask 1 implementing]) (sampleTask 1 implementing) "w1"
        (transitionTask (sampleStore [sampleTask 1 implementing]) pauseUnleased 0) ↔
      pauseUnleased.releaseLease = false ∨ (sampleTask 1 implementing).leaseOwner ≠ none :=
  transition_actsAsOwner_iff _ _ pauseUnleased "w1" 0 (by decide) rfl

end Orchestrator
