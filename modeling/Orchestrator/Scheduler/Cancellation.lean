import Orchestrator.Scheduler.Leases

/-! # Pending cancellations

An operator's request on a leased task is left for the lease owner. The owner
looks for it only at a stage boundary, and a claim skips tasks with a request, so
a call that releases the lease in between strands it. No request is stranded
throughout a run exactly if no such call, and no recovery, releases a row with a
pending request.
-/

namespace Orchestrator

open Kit TaskState

/-- A request that some worker will still apply, or that no longer matters. -/
def Attended (task : Task) : Prop :=
  task.state ∉ terminalStates → task.cancelRequestedAt ≠ none → task.leaseOwner ≠ none

instance : DecidablePred Attended := fun _ => inferInstanceAs (Decidable (_ → _))

/-- No cancellation request is stranded. -/
def NoStrandedRequest (s : System) : Prop := AllRows Attended s.store

/-- The call releases the lease of this row and does not end the task. -/
def ReleasesUnfinished (call : RepositoryCall) (task : Task) : Prop :=
  match call with
  | .transition input => input.releaseLease = true ∧ input.toState ∉ terminalStates ∧
      TransitionAllowed task.state input.toState input.resumeState
  | .release _ => task.state ∉ terminalStates
  | .defer _ _ => task.state ∉ terminalStates

/-- The lease owner makes a call that releases a row with a pending request. -/
def OwnerDropsRequest (config : SchedulerConfig) (s : System) (event : Event) : Prop :=
  ∃ id clock lost run call task, event = .perform id clock lost ∧
    s.runs.find? id = some run ∧ phaseCall config run = some call ∧
    s.store.getTask run.taskId = some task ∧ task.leaseOwner = some run.workerId ∧
    task.cancelRequestedAt ≠ none ∧ ReleasesUnfinished call task

/-- Recovery selects a row with a pending request. -/
def RecoveryDropsRequest (s : System) (event : Event) : Prop :=
  ∃ condition reason locked clock task, Recovers event condition reason locked clock ∧
    task ∈ recoveryCandidates s.store condition locked ∧ task.cancelRequestedAt ≠ none

def DropsRequest (config : SchedulerConfig) (s : System) (event : Event) : Prop :=
  OwnerDropsRequest config s event ∨ RecoveryDropsRequest s event

/-- An unleased row without a stranded request has none, unless it is finished. -/
theorem Attended.no_request {task : Task} (h : Attended task) (howner : task.leaseOwner = none)
    (hstate : task.state ∉ terminalStates) : task.cancelRequestedAt = none := by
  by_contra hrequest
  exact h hstate hrequest howner

theorem not_terminal_of_canTransition {source target : TaskState}
    (h : canTransition source target = true) : source ∉ terminalStates := by
  intro hterminal
  rw [canTransition_of_terminal hterminal] at h
  cases h

theorem attended_performed {config : SchedulerConfig} {s : System} {id : Nat} {run : RunEntry}
    {call : RepositoryCall} {clock : Instant} {lost : Option String} {task row : Task}
    (hattended : Attended task) (htask : task ∈ s.store.tasks.rows)
    (hrun : s.runs.find? id = some run) (hcall : phaseCall config run = some call)
    (heffect : CallEffect run clock call task row)
    (hdrops : ¬ DropsRequest config s (.perform id clock lost)) : Attended row := by
  -- The owner itself drops no request, by assumption.
  have howned : task.id = run.taskId → task.leaseOwner = some run.workerId →
      ReleasesUnfinished call task → task.cancelRequestedAt = none := by
    intro hid howner hrelease
    by_contra hrequest
    refine hdrops (Or.inl ⟨id, clock, lost, run, call, task, rfl, hrun, hcall, ?_, howner,
      hrequest, hrelease⟩)
    rw [← hid]
    exact Table.find?_of_mem htask
  cases heffect with
  | @transition input _ hid hlease hallowed =>
      obtain ⟨howner, htaskId, hrelease | ⟨stage, outcome, now, _, rfl⟩⟩ :=
        phaseCall_transition hcall
      · intro hstate hrequest
        have hsource := not_terminal_of_canTransition hallowed.1
        rcases hlease.1 with hnone | hsame | hexpired
        · -- The release also succeeds on a row nobody leases; it has no request.
          exact absurd (hattended.no_request hnone hsource) hrequest
        · exact absurd (howned (hid.trans htaskId) (hsame.symm.trans howner)
            ⟨hrelease, hstate, hallowed⟩) hrequest
        · cases hexpired
      · intro _ _
        simp [leasePermits_advance.mp hlease]
  | release hid howner =>
      intro hstate hrequest
      exact absurd (howned hid howner hstate) hrequest
  | defer hid howner =>
      intro hstate hrequest
      exact absurd (howned hid howner hstate) hrequest

theorem noStrandedRequest_step {config : SchedulerConfig} {s : System} {event : Event}
    (hinv : NoStrandedRequest s) (hdrops : ¬ DropsRequest config s event) :
    NoStrandedRequest (step config s event) := by
  refine allRows_step (fun row hnew _ hrequest => absurd hnew.unleased.2.2 hrequest) ?_ hinv
  intro task htask row hattended hchange
  -- By the kind of change: it keeps the lease, clears the request, finishes the task,
  -- or found no request.
  cases hchange with
  | kept => exact hattended
  | claimed hgrant _ =>
      intro _ _
      rw [claimedRow_lease.1]
      exact Option.some_ne_none _
  | renewed howner => exact hattended
  | modelSelected howner => exact hattended
  | performed hrun hcall heffect =>
      exact attended_performed hattended htask hrun hcall heffect hdrops
  | recovered hevent hcandidate =>
      intro _ hrequest
      exact absurd (Or.inr ⟨_, _, _, _, task, hevent, hcandidate, hrequest⟩) hdrops
  | retried howner hallowed => exact fun _ hrequest => absurd rfl hrequest
  | cancelRequested howner => exact fun _ _ => howner
  | cancelled howner hallowed =>
      exact fun hstate => absurd (show cancelled ∈ terminalStates by decide) hstate
  | manualBlocked howner hallowed =>
      have hnone := hattended.no_request howner (not_terminal_of_canTransition hallowed)
      exact fun _ hrequest => absurd hnone hrequest
  | manualFlagged => exact hattended

/-- A call that drops a request leaves it stranded. -/
theorem stranded_of_ownerDrops {config : SchedulerConfig} {s : System} {event : Event}
    (hdrops : OwnerDropsRequest config s event) :
    ¬ NoStrandedRequest (step config s event) := by
  obtain ⟨id, clock, lost, run, call, task, rfl, hrun, hcall, hfound, howner, hrequest,
    hrelease⟩ := hdrops
  -- Each kind of call succeeds, and leaves the row unleased with its request.
  have hput : ∃ store' row, call.perform s.store run.taskId run.workerId clock =
      .ok (store', row) ∧ store'.getTask task.id = some row ∧ row.state ∉ terminalStates ∧
        row.cancelRequestedAt ≠ none ∧ row.leaseOwner = none := by
    have hself := getTask_self hfound
    cases call with
    | transition input =>
        obtain ⟨hreleases, hstate, hallowed⟩ := hrelease
        obtain ⟨hinput, hid, _⟩ := phaseCall_transition hcall
        have hpermits : LeasePermits task input.locked :=
          ⟨Or.inr (Or.inl (hinput.trans howner.symm)), Or.inr (Or.inl (howner.trans hinput.symm))⟩
        refine ⟨_, _, transitionTask_eq_ok_iff.mpr
          ⟨task, hid ▸ hfound, hpermits, hallowed, rfl, rfl⟩, ?_, hstate, hrequest,
          moved_unleased hreleases⟩
        rw [getTask_moved _ _ hself, if_pos rfl]
    | release patch =>
        exact ⟨_, _, updateLeased_eq_ok_iff.mpr ⟨task, hfound, howner, rfl, rfl⟩,
          Store.getTask_putTask_self (task.released patch clock) hself, hrelease,
          hrequest, rfl⟩
    | defer untilTime lastError =>
        exact ⟨_, _, updateLeased_eq_ok_iff.mpr ⟨task, hfound, howner, rfl, rfl⟩,
          Store.getTask_putTask_self (task.deferred untilTime lastError clock) hself,
          hrelease, hrequest, rfl⟩
  obtain ⟨store', row, hresult, hrow, hstate, hpending, hunleased⟩ := hput
  intro hnone
  rw [NoStrandedRequest, step_perform_store hrun hcall hresult] at hnone
  exact hnone row (Store.getTask_eq_some_iff.mp hrow).1 hstate hpending hunleased

theorem stranded_of_recoveryDrops {config : SchedulerConfig} {s : System} {event : Event}
    (hdrops : RecoveryDropsRequest s event) :
    ¬ NoStrandedRequest (step config s event) := by
  obtain ⟨condition, reason, locked, clock, task, hevent, hcandidate, hrequest⟩ := hdrops
  have hstore : (step config s event).store = recoveredStore reason clock s.store
      (recoveryCandidates s.store condition locked) := by
    cases hevent with
    | expired => simp [effect, recoverExpiredLeases, recoverLeases_eq, System.adopt, Except.map]
    | owned => simp [effect, recoverLeasesOwnedBy, recoverLeases_eq, System.adopt, Except.map]
  have hselected := selected_recoveryCandidates s.store condition locked
  have hrow := getTask_recoveredStore reason clock hselected task.id
  rw [hselected.rows task hcandidate, Option.map_some, if_pos hcandidate] at hrow
  intro hnone
  rw [NoStrandedRequest, hstore] at hnone
  exact hnone _ (Store.getTask_eq_some_iff.mp hrow).1
    (show blocked ∉ terminalStates by decide) hrequest rfl

/-- From a store without stranded requests, none is stranded throughout a run exactly
if no step releases a lease with a pending request other than by cancelling. -/
theorem no_stranded_request_iff (config : SchedulerConfig) (store : Store)
    (hstore : AllRows Attended store) (events : List Event) :
    Throughout (step config) NoStrandedRequest (boot store) events ↔
      Along (step config) (fun s event => ¬ DropsRequest config s event) (boot store) events := by
  have hboot : NoStrandedRequest (boot store) := hstore
  refine throughout_iff_along (fun _ => True) (fun _ _ _ => trivial) ?_ trivial hboot events
  intro s event _ hinv
  refine ⟨fun h hdrops => ?_, noStrandedRequest_step hinv⟩
  rcases hdrops with howner | hrecovery
  · exact stranded_of_ownerDrops howner h
  · exact stranded_of_recoveryDrops hrecovery h

/-- A task waits for its checks. -/
def waitingStore : Store := sampleStore [sampleTask 1 waitingCi]

theorem waitingStore_attended : AllRows Attended waitingStore := by
  unfold AllRows
  decide

/-- The operator cancels while the handler runs; the handler then asks to wait. -/
def waitAfterCancelRun : List Event :=
  [sampleClaim "w1" .delivery 0, .readTask 0 false, .readControls 0 false false 0,
    .cancel 1 ⟨"operator", "obsolete"⟩ 0,
    .finish 0 (.wait { untilTime := 60000, reason := "checks are pending" }) 0, .perform 0 0 none]

theorem request_stranded :
    ¬ ∀ (config : SchedulerConfig) (store : Store), AllRows Attended store →
      ∀ events : List Event, NoStrandedRequest (run (step config) (boot store) events) := by
  intro h
  have hnone := h sampleConfig waitingStore waitingStore_attended waitAfterCancelRun
  revert hnone
  unfold NoStrandedRequest AllRows
  decide

theorem no_stranded_request_iff_run :
    Throughout (step sampleConfig) NoStrandedRequest (boot waitingStore) waitAfterCancelRun ↔
      Along (step sampleConfig) (fun s event => ¬ DropsRequest sampleConfig s event)
        (boot waitingStore) waitAfterCancelRun :=
  no_stranded_request_iff sampleConfig waitingStore waitingStore_attended waitAfterCancelRun

end Orchestrator
