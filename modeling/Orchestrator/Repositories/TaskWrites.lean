import Orchestrator.Repositories.ClaimNextTask
import Orchestrator.Repositories.DiscoveredTasks
import Orchestrator.Repositories.OperatorRepository

/-! # What the repository functions write

One lemma for each function, saying when it succeeds and which store it leaves.
Everything later about task rows, leases and histories goes through these lemmas,
never through the definitions.
-/

namespace Orchestrator

open Kit TaskState

/-- A row read by its id is also found under its own id. -/
theorem getTask_self {store : Store} {taskId : TaskId} {task : Task}
    (h : store.getTask taskId = some task) : store.getTask task.id = some task := by
  rw [(Store.getTask_eq_some_iff.mp h).2, h]

/-! ## Transitions -/

/-- The lease checks let this caller change this row. -/
def LeasePermits (task : Task) (input : LockedTransitionInput) : Prop :=
  (task.leaseOwner = none ∨ input.leaseOwner = task.leaseOwner ∨
    input.allowExpiredLease = true) ∧
  (input.leaseOwner = none ∨ task.leaseOwner = input.leaseOwner ∨ input.lease ≠ none)

instance (task : Task) (input : LockedTransitionInput) : Decidable (LeasePermits task input) :=
  inferInstanceAs (Decidable (_ ∧ _))

theorem leaseGuard_eq_ok_iff {task : Task} {input : LockedTransitionInput} :
    leaseGuard task input = .ok () ↔ LeasePermits task input := by
  unfold leaseGuard LeasePermits
  split_ifs with hforeign hlost
  · simp only [false_iff, not_and_or, not_or]
    exact Or.inl ⟨hforeign.1, hforeign.2.1, by simp [hforeign.2.2]⟩
  · simp only [false_iff, not_and_or, not_or]
    exact Or.inr ⟨hlost.1, hlost.2.1, by simp [hlost.2.2]⟩
  · simp only [true_iff]
    constructor
    · by_contra hneither
      simp only [not_or] at hneither
      exact hforeign ⟨hneither.1, hneither.2.1, by simpa using hneither.2.2⟩
    · by_contra hneither
      simp only [not_or, not_not] at hneither
      exact hlost hneither

/-- A refused caller gets `LeaseOwnershipError` of the row. -/
theorem leaseGuard_eq_error {task : Task} {input : LockedTransitionInput}
    (h : ¬ LeasePermits task input) :
    leaseGuard task input = .error (.leaseOwnership task.id) := by
  have hguard := mt leaseGuard_eq_ok_iff.mp h
  unfold leaseGuard at hguard ⊢
  split_ifs at hguard ⊢ <;> first | rfl | exact absurd rfl hguard

/-- The row after a transition that was accepted. -/
def Task.moved (task : Task) (input : LockedTransitionInput) (clock : Instant) : Task :=
  task.transitioned
    ⟨task.state, input.toState, input.reason, input.resumeState, input.pauseReason⟩ input clock

@[simp] theorem Task.moved_state {task : Task} {input : LockedTransitionInput}
    {clock : Instant} : (task.moved input clock).state = input.toState := rfl

@[simp] theorem Task.moved_leaseOwner {task : Task} {input : LockedTransitionInput}
    {clock : Instant} : (task.moved input clock).leaseOwner =
      (input.lease.map (·.owner)).getD task.leaseOwner := rfl

@[simp] theorem Task.moved_leaseExpiresAt {task : Task} {input : LockedTransitionInput}
    {clock : Instant} : (task.moved input clock).leaseExpiresAt =
      (input.lease.map (·.expiresAt)).getD task.leaseExpiresAt := rfl

@[simp] theorem Task.moved_cancelRequestedAt {task : Task} {input : LockedTransitionInput}
    {clock : Instant} : (task.moved input clock).cancelRequestedAt =
      if input.clearCancelRequest then none else task.cancelRequestedAt := rfl

/-- The store after the transition: the moved row, and one history record more. -/
def Store.moved (store : Store) (task : Task) (input : LockedTransitionInput)
    (clock : Instant) : Store :=
  (store.putTask (task.moved input clock)).appendTransition
    ⟨task.id, task.state, input.toState, input.reason, clock⟩

theorem transitionLockedTask_eq_ok_iff {store store' : Store} {task row : Task}
    {input : LockedTransitionInput} {clock : Instant} (hrow : store.getTask task.id = some task) :
    transitionLockedTask store task input clock = .ok (store', row) ↔
      LeasePermits task input ∧ TransitionAllowed task.state input.toState input.resumeState ∧
        store' = store.moved task input clock ∧ row = task.moved input clock := by
  have hupdate : store.updateTask (task.moved input clock) =
      .ok (store.putTask (task.moved input clock)) := Store.updateTask_eq_ok hrow
  unfold transitionLockedTask
  -- The checks in the order of the code: the lease, then the transition.
  by_cases hlease : LeasePermits task input
  · rw [leaseGuard_eq_ok_iff.mpr hlease]
    by_cases hallowed : TransitionAllowed task.state input.toState input.resumeState
    · rw [validateTransition_eq_ok_iff.mpr ⟨hallowed, rfl⟩]
      change ((store.updateTask (task.moved input clock)).bind _ = _) ↔ _
      rw [hupdate]
      change (Except.ok (store.moved task input clock, task.moved input clock) = _) ↔ _
      simp [hlease, hallowed, @eq_comm _ store', @eq_comm _ row]
    · have hinvalid : ∀ transition,
          validateTransition task.state input.toState input.details ≠ .ok transition :=
        fun transition hok => hallowed (validateTransition_eq_ok_iff.mp hok).1
      cases hresult : validateTransition task.state input.toState input.details with
      | ok transition => exact absurd hresult (hinvalid transition)
      | error failure =>
          change (Except.error failure = _) ↔ _
          simp [hallowed]
  · rw [leaseGuard_eq_error hlease]
    change (Except.error _ = _) ↔ _
    simp [hlease]

theorem transitionTask_eq_ok_iff {store store' : Store} {input : TaskTransitionInput}
    {row : Task} {clock : Instant} :
    transitionTask store input clock = .ok (store', row) ↔
      ∃ task, store.getTask input.taskId = some task ∧ LeasePermits task input.locked ∧
        TransitionAllowed task.state input.toState input.resumeState ∧
        store' = store.moved task input.locked clock ∧ row = task.moved input.locked clock := by
  unfold transitionTask
  cases htask : store.getTask input.taskId with
  | none => simp
  | some task =>
      have hrow := getTask_self htask
      simp only [Option.some.injEq, exists_eq_left']
      exact transitionLockedTask_eq_ok_iff hrow

/-! ## Updates by the lease owner -/

theorem updateLeased_eq_ok_iff {store store' : Store} {taskId : TaskId} {leaseOwner : WorkerId}
    {change : Task → Task} {row : Task} :
    updateLeased store taskId leaseOwner change = .ok (store', row) ↔
      ∃ task, store.getTask taskId = some task ∧ task.leaseOwner = some leaseOwner ∧
        store' = store.putTask (change task) ∧ row = change task := by
  unfold updateLeased
  cases htask : store.getTask taskId with
  | none => simp
  | some task =>
      by_cases howner : task.leaseOwner = some leaseOwner
      · simp [howner, @eq_comm _ store', @eq_comm _ row]
      · simp [howner]

theorem heartbeat_eq_ok_iff {store store' : Store} {taskId : TaskId} {leaseOwner : WorkerId}
    {leaseDurationMs now : Instant} {row : Task} :
    heartbeat store taskId leaseOwner leaseDurationMs now = .ok (store', row) ↔
      0 < leaseDurationMs ∧
        ∃ task, store.getTask taskId = some task ∧ task.leaseOwner = some leaseOwner ∧
          store' = store.putTask (task.renewed leaseDurationMs now) ∧
          row = task.renewed leaseDurationMs now := by
  unfold heartbeat
  split_ifs with hduration
  · simp [hduration]
  · rw [updateLeased_eq_ok_iff]
    simp [Int.not_le.mp hduration]

/-! ## Claims -/

/-- What the claim query established about the row it selected. -/
structure ClaimGrant (store : Store) (input : TaskClaimWithLimitInput) (locked : List TaskId)
    (task : Task) : Prop where
  laneOpen : store.tasks.count (leasedInLane input.lane) < input.maxConcurrentTasks
  row : store.getTask task.id = some task
  candidate : claimCandidate store input locked task = true

theorem claimCandidate_iff {store : Store} {input : TaskClaimWithLimitInput}
    {locked : List TaskId} {task : Task} :
    claimCandidate store input locked task = true ↔
      task.leaseOwner = none ∧ store.touches task.id (saturatedRepositories store input) = false ∧
        task.requiresManualIntervention = false ∧ task.cancelRequestedAt = none ∧
        eligible store input task = true ∧ task.id ∉ locked := by
  simp [claimCandidate, and_assoc]

theorem ClaimGrant.eligible {store : Store} {input : TaskClaimWithLimitInput}
    {locked : List TaskId} {task : Task} (h : ClaimGrant store input locked task) :
    eligible store input task = true := by
  obtain ⟨_, _, _, _, heligible, _⟩ := claimCandidate_iff.mp h.candidate
  exact heligible

theorem ClaimGrant.unsaturated {store : Store} {input : TaskClaimWithLimitInput}
    {locked : List TaskId} {task : Task} (h : ClaimGrant store input locked task) :
    store.touches task.id (saturatedRepositories store input) = false := by
  obtain ⟨_, hopen, _⟩ := claimCandidate_iff.mp h.candidate
  exact hopen

/-- The row as the claim leaves it. -/
def claimedRow (input : TaskClaimWithLimitInput) (task : Task) (clock : Instant) : Task :=
  match claimTransition input task with
  | some transition => task.moved transition clock
  | none => task.leased (claimLease input) input.now

/-- The store as the claim leaves it. -/
def claimedStore (store : Store) (input : TaskClaimWithLimitInput) (task : Task)
    (clock : Instant) : Store :=
  match claimTransition input task with
  | some transition => store.moved task transition clock
  | none => store.putTask (task.leased (claimLease input) input.now)

/-- A claim transition carries the new lease and nothing about an old one. -/
theorem claimTransition_lease {input : TaskClaimWithLimitInput} {task : Task}
    {transition : LockedTransitionInput} (h : claimTransition input task = some transition) :
    transition.lease = some (claimLease input) ∧ transition.leaseOwner = none ∧
      transition.clearCancelRequest = false ∧ transition.resumeState = none := by
  unfold claimTransition at h
  -- A new task, a resumed one, and one that continues where it was parked.
  split_ifs at h
  · cases h
    exact ⟨rfl, rfl, rfl, rfl⟩
  · obtain ⟨resumeState, _, rfl⟩ := Option.map_eq_some_iff.mp h
    exact ⟨rfl, rfl, rfl, rfl⟩

theorem claimRow_eq_ok {store store' : Store} {input : TaskClaimWithLimitInput}
    {task row : Task} {clock : Instant} (hrow : store.getTask task.id = some task)
    (h : claimRow store input task clock = .ok (store', row)) :
    (∀ transition, claimTransition input task = some transition →
      TransitionAllowed task.state transition.toState none) ∧
    store' = claimedStore store input task clock ∧ row = claimedRow input task clock := by
  unfold claimRow at h
  unfold claimedStore claimedRow
  cases htransition : claimTransition input task with
  | some transition =>
      rw [htransition] at h
      obtain ⟨_, hallowed, rfl, rfl⟩ := (transitionLockedTask_eq_ok_iff hrow).mp h
      rw [(claimTransition_lease htransition).2.2.2] at hallowed
      refine ⟨?_, rfl, rfl⟩
      intro other hother
      cases hother
      exact hallowed
  | none =>
      rw [htransition] at h
      have hupdate : store.updateTask (task.leased (claimLease input) input.now) =
          .ok (store.putTask (task.leased (claimLease input) input.now)) :=
        Store.updateTask_eq_ok hrow
      change (store.updateTask _).bind _ = _ at h
      rw [hupdate] at h
      cases h
      exact ⟨fun _ hsome => (nomatch hsome), rfl, rfl⟩

theorem firstClaimed_mem {tasks : List Task} {task : Task} (h : firstClaimed tasks = some task) :
    task ∈ tasks := by
  induction tasks generalizing task with
  | nil => cases h
  | cons head tasks ih =>
      unfold firstClaimed at h
      cases hrest : firstClaimed tasks with
      | none =>
          rw [hrest] at h
          cases h
          exact List.mem_cons_self
      | some other =>
          simp only [hrest] at h
          split at h
          · cases h
            exact List.mem_cons_of_mem _ (ih hrest)
          · cases h
            exact List.mem_cons_self

/-- A claim either finds nothing and changes nothing, or grants one row its lease. -/
theorem claimNextTask_eq_ok {store store' : Store} {input : TaskClaimWithLimitInput}
    {locked : List TaskId} {clock : Instant} {claimed : Option Task}
    (h : claimNextTask store input locked clock = .ok (store', claimed)) :
    (claimed = none ∧ store' = store) ∨
      ∃ task, ClaimGrant store input locked task ∧
        (∀ transition, claimTransition input task = some transition →
          TransitionAllowed task.state transition.toState none) ∧
        store' = claimedStore store input task clock ∧
        claimed = some (claimedRow input task clock) := by
  unfold claimNextTask at h
  split_ifs at h with _ hlane
  · cases h
    exact Or.inl ⟨rfl, rfl⟩
  · cases hfirst : firstClaimed (store.tasks.rows.filter (claimCandidate store input locked)) with
    | none =>
        rw [hfirst] at h
        cases h
        exact Or.inl ⟨rfl, rfl⟩
    | some task =>
        rw [hfirst] at h
        obtain ⟨hmem, hcandidate⟩ := List.mem_filter.mp (firstClaimed_mem hfirst)
        have hrow : store.getTask task.id = some task := Table.find?_of_mem hmem
        cases hclaim : claimRow store input task clock with
        | error failure =>
            simp only [hclaim] at h
            cases h
        | ok result =>
            simp only [hclaim] at h
            cases h
            obtain ⟨hallowed, hstore, hclaimed⟩ := claimRow_eq_ok hrow hclaim
            exact Or.inr ⟨task, ⟨by omega, hrow, hcandidate⟩, hallowed, hstore, by rw [hclaimed]⟩

@[simp] theorem claimedRow_id {input : TaskClaimWithLimitInput} {task : Task} {clock : Instant} :
    (claimedRow input task clock).id = task.id := by
  unfold claimedRow
  split <;> rfl

theorem claimedRow_lease {input : TaskClaimWithLimitInput} {task : Task} {clock : Instant} :
    (claimedRow input task clock).leaseOwner = some input.leaseOwner ∧
      (claimedRow input task clock).leaseExpiresAt = some (input.now + input.leaseDurationMs) ∧
      (claimedRow input task clock).cancelRequestedAt = task.cancelRequestedAt := by
  unfold claimedRow
  split
  · next transition htransition =>
      obtain ⟨hlease, _, hclear, _⟩ := claimTransition_lease htransition
      simp [hlease, hclear, claimLease]
  · exact ⟨rfl, rfl, rfl⟩

/-! ## Recovery -/

/-- The store after recovery blocked these tasks one by one. -/
def recoveredStore (reason : String) (clock : Instant) (store : Store) (tasks : List Task) :
    Store :=
  tasks.foldl (fun store task => store.moved task (recoveryInput reason) clock) store

theorem getTask_moved {store : Store} {task : Task} (input : LockedTransitionInput)
    (clock : Instant) (hrow : store.getTask task.id = some task) (taskId : TaskId) :
    (store.moved task input clock).getTask taskId =
      if taskId = task.id then some (task.moved input clock) else store.getTask taskId := by
  split_ifs with h
  · subst h
    exact Store.getTask_putTask_self (task.moved input clock) hrow
  · exact Store.getTask_putTask_of_ne h

/-- Rows that are still what the candidate query read, each with its own id. -/
structure Selected (store : Store) (tasks : List Task) : Prop where
  nodup : (tasks.map Task.id).Nodup
  rows : ∀ task ∈ tasks, store.getTask task.id = some task

theorem Selected.tail {store : Store} {task : Task} {tasks : List Task}
    (input : LockedTransitionInput) (clock : Instant) (h : Selected store (task :: tasks)) :
    Selected (store.moved task input clock) tasks := by
  obtain ⟨hhead, htail⟩ := List.nodup_cons.mp h.nodup
  refine ⟨htail, fun other hother => ?_⟩
  have hne : other.id ≠ task.id := fun heq => hhead (heq ▸ List.mem_map_of_mem hother)
  rw [getTask_moved input clock (h.rows task List.mem_cons_self), if_neg hne]
  exact h.rows other (List.mem_cons_of_mem _ hother)

theorem selected_recoveryCandidates (store : Store) (condition : Task → Bool)
    (locked : List TaskId) : Selected store (recoveryCandidates store condition locked) where
  nodup := store.tasks.keysNodup.sublist (List.filter_sublist.map Task.id)
  rows := fun _ h => Table.find?_of_mem (List.mem_filter.mp h).1

theorem recoverEach_eq {reason : String} {clock : Instant} {store : Store} {tasks : List Task}
    (hselected : Selected store tasks) (hstates : ∀ task ∈ tasks, task.state ∉ unrecoveredStates) :
    recoverEach reason clock store tasks = .ok (recoveredStore reason clock store tasks) := by
  -- Each turn changes one row, so the others are still what the query read.
  induction tasks generalizing store with
  | nil => rfl
  | cons task tasks ih =>
      have hblock : canTransition task.state blocked = true :=
        canTransition_blocked_iff.mpr (hstates task List.mem_cons_self)
      have hmove : transitionLockedTask store task (recoveryInput reason) clock =
          .ok (store.moved task (recoveryInput reason) clock,
            task.moved (recoveryInput reason) clock) := by
        rw [transitionLockedTask_eq_ok_iff (hselected.rows task List.mem_cons_self)]
        refine ⟨⟨Or.inr (Or.inr rfl), Or.inl rfl⟩, ⟨hblock, ?_⟩, rfl, rfl⟩
        simp [recoveryInput, pauseStates]
      have hrest := ih
        (hselected.tail (recoveryInput reason) clock)
        fun other hother => hstates other (List.mem_cons_of_mem _ hother)
      have hstep : recoverTask store reason clock task =
          .ok (store.moved task (recoveryInput reason) clock) := by
        simp [recoverTask, hblock, hmove, Except.map]
      change (recoverTask store reason clock task).bind _ = _
      rw [hstep]
      exact hrest

/-- Recovery always succeeds. -/
theorem recoverLeases_eq (store : Store) (condition : Task → Bool) (reason : String)
    (locked : List TaskId) (clock : Instant) :
    recoverLeases store condition reason locked clock =
      .ok (recoveredStore reason clock store (recoveryCandidates store condition locked)) := by
  refine recoverEach_eq (selected_recoveryCandidates store condition locked) fun task h => ?_
  have hcandidate := (List.mem_filter.mp h).2
  simp only [Bool.and_eq_true] at hcandidate
  simpa using hcandidate.1.2

/-- Recovery blocks exactly the selected rows. -/
theorem getTask_recoveredStore (reason : String) (clock : Instant) {store : Store}
    {tasks : List Task} (hselected : Selected store tasks) (taskId : TaskId) :
    (recoveredStore reason clock store tasks).getTask taskId =
      (store.getTask taskId).map fun task =>
        if task ∈ tasks then task.moved (recoveryInput reason) clock else task := by
  induction tasks generalizing store with
  | nil => simp [recoveredStore]
  | cons task tasks ih =>
      have hrow := hselected.rows task List.mem_cons_self
      have hrest := ih (hselected.tail (recoveryInput reason) clock)
      change (recoveredStore reason clock (store.moved task (recoveryInput reason) clock)
        tasks).getTask taskId = _
      rw [hrest, getTask_moved _ _ hrow]
      -- The row of this turn is not selected again: the ids are distinct.
      split_ifs with hid
      · subst hid
        have hmoved : task.moved (recoveryInput reason) clock ∉ tasks := by
          intro hmem
          have hkey : (task.moved (recoveryInput reason) clock).id ∈ tasks.map Task.id :=
            List.mem_map_of_mem hmem
          exact (List.nodup_cons.mp hselected.nodup).1 hkey
        rw [hrow]
        simp [hmoved]
      · cases hother : store.getTask taskId with
        | none => rfl
        | some other =>
            have hne : other ≠ task := by
              rintro rfl
              exact hid (Store.getTask_eq_some_iff.mp hother).2.symm
            simp [hne]

/-! ## Operator actions -/

theorem retryTask_eq_ok {store store' : Store} {taskId : TaskId} {context : OperatorContext}
    {clock : Instant} {row : Task} (h : retryTask store taskId context clock = .ok (store', row)) :
    ∃ task, store.getTask taskId = some task ∧ task.leaseOwner = none ∧
      TransitionAllowed task.state queued none ∧
      row = task.moved (retryInput task context) clock ∧
      store' = (store.moved task (retryInput task context) clock).audit .retryTask context
        (some task.id) [("from", some task.state.text)] := by
  unfold retryTask withLockedTask at h
  cases htask : store.getTask taskId with
  | none => simp [htask] at h
  | some task =>
      have hrow := getTask_self htask
      cases howner : task.leaseOwner with
      | some owner => simp [htask, howner] at h
      | none =>
          simp only [htask, howner] at h
          split_ifs at h
          cases hmove : transitionLockedTask store task (retryInput task context) clock with
          | error failure =>
              rw [hmove] at h
              cases h
          | ok moved =>
              rw [hmove] at h
              obtain ⟨_, hallowed, hstore, hmoved⟩ :=
                (transitionLockedTask_eq_ok_iff hrow).mp hmove
              cases h
              exact ⟨task, rfl, howner, hallowed, hmoved, by rw [hstore]⟩

/-- A cancellation marks a leased row and cancels an unleased one. -/
theorem cancelTask_eq_ok {store store' : Store} {taskId : TaskId} {context : OperatorContext}
    {clock : Instant} {result : Task × Bool}
    (h : cancelTask store taskId context clock = .ok (store', result)) :
    ∃ task, store.getTask taskId = some task ∧ canTransition task.state cancelled = true ∧
      ((task.leaseOwner ≠ none ∧ result = (task.cancelRequested clock, true) ∧
        ∃ details, store' = (store.putTask (task.cancelRequested clock)).audit
          .requestCancelTask context (some task.id) details) ∨
      (task.leaseOwner = none ∧ result = (task.moved (cancelInput context) clock, false) ∧
        ∃ details, store' = (store.moved task (cancelInput context) clock).audit
          .cancelTask context (some task.id) details)) := by
  unfold cancelTask withLockedTask at h
  cases htask : store.getTask taskId with
  | none => simp [htask] at h
  | some task =>
      have hrow := getTask_self htask
      simp only [htask] at h
      split_ifs at h with hcan
      refine ⟨task, rfl, by simpa using hcan, ?_⟩
      cases howner : task.leaseOwner with
      | some owner =>
          rw [howner] at h
          have hupdate : store.updateTask (task.cancelRequested clock) =
              .ok (store.putTask (task.cancelRequested clock)) := Store.updateTask_eq_ok hrow
          simp only [hupdate] at h
          cases h
          exact Or.inl ⟨by simp, rfl, _, rfl⟩
      | none =>
          rw [howner] at h
          cases hmove : transitionLockedTask store task (cancelInput context) clock with
          | error failure =>
              simp only [hmove] at h
              cases h
          | ok moved =>
              simp only [hmove] at h
              obtain ⟨_, _, hstore, hmoved⟩ := (transitionLockedTask_eq_ok_iff hrow).mp hmove
              cases h
              exact Or.inr ⟨rfl, by rw [hmoved], _, by rw [hstore]⟩

/-- Manual intervention blocks an unleased row that can be blocked and flags any other. -/
theorem requireManualIntervention_eq_ok {store store' : Store} {taskId : TaskId}
    {context : OperatorContext} {clock : Instant} {row : Task}
    (h : requireManualIntervention store taskId context clock = .ok (store', row)) :
    ∃ task details, store.getTask taskId = some task ∧
      ((task.leaseOwner = none ∧ canTransition task.state blocked = true ∧
        row = task.moved (manualInput context) clock ∧
        store' = (store.moved task (manualInput context) clock).audit
          .requireManualIntervention context (some task.id) details) ∨
      (row = task.manualRequired (manualNote context) clock ∧
        store' = (store.putTask row).audit .requireManualIntervention context (some task.id)
          details)) := by
  unfold requireManualIntervention withLockedTask at h
  cases htask : store.getTask taskId with
  | none => simp [htask] at h
  | some task =>
      have hrow := getTask_self htask
      simp only [htask] at h
      split_ifs at h with _ hblock
      · cases hmove : transitionLockedTask store task (manualInput context) clock with
        | error failure =>
            rw [hmove] at h
            cases h
        | ok moved =>
            rw [hmove] at h
            obtain ⟨_, _, hstore, hmoved⟩ := (transitionLockedTask_eq_ok_iff hrow).mp hmove
            cases h
            exact ⟨task, _, rfl, Or.inl ⟨hblock.1, hblock.2, hmoved, by rw [hstore]⟩⟩
      · have hupdate : store.updateTask (task.manualRequired (manualNote context) clock) =
            .ok (store.putTask (task.manualRequired (manualNote context) clock)) :=
          Store.updateTask_eq_ok hrow
        simp only [hupdate] at h
        cases h
        exact ⟨task, _, rfl, Or.inr ⟨rfl, rfl⟩⟩

/-! ## Intake -/

theorem createTask_eq_ok {store store' : Store} {input : CreateTaskInput} {clock : Instant}
    {row : Task} (h : createTask store input clock = .ok (store', row)) :
    findByLinearIssue store input.linearIssueId = none ∧
      row = input.row store.freshTaskId clock ∧
      store'.tasks = store.tasks.insert row ∧
      store'.stateTransitions = store.stateTransitions ∧
      store'.taskWorkUnits = store.taskWorkUnits ++ input.workUnits.map (fun unit =>
        { taskId := row.id, repository := unit.repository, outcome := unit.outcome }) ∧
      store'.taskDependencies = store.taskDependencies ++
        input.blockerTaskIds.map fun blocker => ⟨row.id, blocker⟩ := by
  unfold createTask at h
  split_ifs at h
  cases hfind : findByLinearIssue store input.linearIssueId with
  | some existing => simp [hfind] at h
  | none =>
      rw [hfind] at h
      cases h
      exact ⟨rfl, rfl, rfl, rfl, rfl, rfl⟩

theorem replaceDependencies_eq_ok_iff {store store' : Store} {taskId : TaskId}
    {blockerTaskIds : List TaskId} :
    replaceDependencies store taskId blockerTaskIds = .ok store' ↔
      blockerTaskIds.Nodup ∧ store' = { store with
        taskDependencies := (store.taskDependencies.filter fun row => row.taskId ≠ taskId) ++
          blockerTaskIds.map fun blocker => ⟨taskId, blocker⟩ } := by
  unfold replaceDependencies
  cases hdup : hasDuplicates blockerTaskIds with
  | true =>
      have hnodup : ¬ blockerTaskIds.Nodup := by
        rw [← hasDuplicates_eq_false_iff, hdup]
        simp
      simp [hnodup]
  | false => simp [hasDuplicates_eq_false_iff.mp hdup, @eq_comm _ store']

end Orchestrator
