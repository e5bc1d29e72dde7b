import Orchestrator.Kit.Run
import Orchestrator.Repositories.Ownership
import Orchestrator.Scheduler.Leases
import Orchestrator.Scheduler.Runs

/-! # Results and the claims they belong to

Every check of `runTask` compares worker ids, so a worker that claims a task again
satisfies them for the run of its earlier claim too, and the result of the earlier
handler is applied under the new lease. If no worker claims a task that one of its
runs may still apply an outcome to, and no usage-limit pause hits a row nobody
leases, every result is applied under the claim that started it.
-/

namespace Orchestrator

open Kit TaskState

/-- The run may still apply the outcome of a stage handler. -/
def RunEntry.mayApply (run : RunEntry) : Bool :=
  match run.phase with
  | .applying _ _ _ => true
  | .boundary => !run.leaseLost
  | .readingControls _ => !run.leaseLost
  | .running _ => !run.leaseLost
  | _ => false

/-- Performing its call now, the run applies an outcome and the call succeeds. -/
def RunEntry.applies (run : RunEntry) (config : SchedulerConfig) (store : Store)
    (clock : Instant) : Bool :=
  match run.phase, phaseCall config run with
  | .applying _ _ _, some call => (call.perform store run.taskId run.workerId clock).isOk
  | _, _ => false

/-- The run whose outcome the event applies. -/
def appliedRun (config : SchedulerConfig) (s : System) : Event → Option RunEntry
  | .perform id clock _ =>
      (s.runs.find? id).filter fun run => run.applies config s.store clock
  | _ => none

/-- An outcome is applied only while the lease of the claim that started its handler
has been held ever since. -/
def AppliedUnderClaim (config : SchedulerConfig) (s : System) (event : Event) : Prop :=
  ∀ run ∈ appliedRun config s event, (⟨run.taskId, run.id⟩ : Grant) ∈ s.inForce

instance (config : SchedulerConfig) (s : System) (event : Event) :
    Decidable (AppliedUnderClaim config s event) :=
  inferInstanceAs (Decidable (∀ run ∈ appliedRun config s event, _))

/-- A worker claims a task that one of its runs may still apply an outcome to. -/
def ReclaimsOwnTask (config : SchedulerConfig) (s : System) (event : Event) : Prop :=
  ∃ claim ∈ claimedBy config s event, ∃ run ∈ s.runs.rows,
    run.mayApply = true ∧ run.workerId = claim.1 ∧ run.taskId = claim.2.id

/-- The run whose call the event performs. -/
def performingRun (s : System) : Event → Option RunEntry
  | .perform id _ _ => s.runs.find? id
  | _ => none

def Phase.isPauseLimit : Phase → Bool
  | .applying _ (.pauseLimit _) _ => true
  | _ => false

/-- A run is about to apply a usage-limit pause to a row that nobody leases. -/
def PausesUnleased (s : System) (event : Event) : Prop :=
  ∃ run ∈ performingRun s event, run.phase.isPauseLimit = true ∧
    s.store.leased run.taskId = false

instance (config : SchedulerConfig) (s : System) (event : Event) :
    Decidable (ReclaimsOwnTask config s event) :=
  inferInstanceAs (Decidable (∃ claim ∈ claimedBy config s event, _))

instance (s : System) (event : Event) : Decidable (PausesUnleased s event) :=
  inferInstanceAs (Decidable (∃ run ∈ performingRun s event, _))

/-- The leases of a system: the lease columns, the runs, the claims in force. -/
def leaseState (s : System) : LeaseState TaskId WorkerId where
  holder taskId := (s.store.getTask taskId).bind Task.leaseOwner
  live := { handle | ∃ run ∈ s.runs.rows, run.mayApply = true ∧
    handle = ⟨run.taskId, run.workerId, run.id⟩ }
  inForce := { handle | (⟨handle.resource, handle.epoch⟩ : Grant) ∈ s.inForce }

/-! ## A step of the system is a step of its leases -/

section Step

variable {config : SchedulerConfig} {s : System} {event : Event}

theorem RunChange.mayApply {run run' : RunEntry} (h : RunChange config s event run run')
    (hrun' : run'.mayApply = true) : run.mayApply = true := by
  -- Every phase that may apply is reached from one that may.
  cases h with
  | kept => exact hrun'
  | flagged hlost =>
      revert hrun' hlost
      unfold RunEntry.mayApply
      cases run.phase <;> simp <;> grind
  | checked hphase _ _ =>
      simp only [RunEntry.mayApply, hphase]
      revert hrun'
      unfold RunEntry.mayApply boundaryPhase
      split_ifs <;> simp
  | gated hphase =>
      simp only [RunEntry.mayApply, hphase]
      revert hrun'
      unfold RunEntry.mayApply gatePhase
      dsimp only
      split_ifs <;> simp
  | finished _ hphase hlost => simp [RunEntry.mayApply, hphase, hlost]
  | interrupted hphase hlost => simp [RunEntry.mayApply, hphase, hlost]
  | advanced hphase =>
      revert hphase
      unfold Phase.isAdvance RunEntry.mayApply
      cases run.phase <;> simp
  | failed => simp [RunEntry.mayApply] at hrun'
  | handedBack hphase _ => simp [RunEntry.mayApply] at hrun'

/-! ### What stays in force -/

/-- No claim was made, and no grant given. -/
structure SameGrants (s s' : System) : Prop where
  inForce : s'.inForce = s.inForce
  claims : s'.claims = s.claims

theorem sameGrants_adopt {α : Type} {result : Except WorkflowError (Store × α)} :
    SameGrants s (s.adopt result) := by
  cases result <;> exact ⟨rfl, rfl⟩

theorem sameGrants_catchError {store : Store} {run : RunEntry} {leaseError : Bool}
    {message : String} :
    SameGrants s (({ s with store } : System).catchError run leaseError message) := by
  unfold System.catchError
  split <;> exact ⟨rfl, rfl⟩

theorem sameGrants_onRun {id : Nat} {act : RunEntry → System}
    (hact : ∀ run, SameGrants s (act run)) : SameGrants s (s.onRun id act) := by
  unfold System.onRun
  split
  · exact ⟨rfl, rfl⟩
  · exact hact _

/-- Only a claim gives a grant, one with a number of its own. -/
theorem effect_grants (config : SchedulerConfig) (s : System) (event : Event) :
    SameGrants s (effect config s event) ∨ ∃ taskId,
      (effect config s event).inForce = s.inForce ++ [⟨taskId, s.claims⟩] ∧
        (effect config s event).claims = s.claims + 1 := by
  cases event with
  | claim workerId lane override gated now locked clock =>
      -- Only a claim that selects a row numbers a new grant.
      rcases effect_claim config s workerId lane override gated now locked clock with
        heq | ⟨store', task, row, _, heq, _⟩
      · rw [heq]
        exact Or.inl ⟨rfl, rfl⟩
      · rw [heq]
        exact Or.inr ⟨row.id, rfl, rfl⟩
  | heartbeat id now =>
      refine Or.inl (sameGrants_onRun fun run => ?_)
      unfold stepHeartbeat
      split_ifs
      · exact ⟨rfl, rfl⟩
      · split <;> split_ifs <;> exact ⟨rfl, rfl⟩
  | heartbeatControls id forceKillSwitch now =>
      refine Or.inl (sameGrants_onRun fun run => ?_)
      unfold stepHeartbeatControls
      split
      · exact ⟨rfl, rfl⟩
      · dsimp only
        split_ifs <;> exact ⟨rfl, rfl⟩
  | readTask id stopping =>
      refine Or.inl (sameGrants_onRun fun run => ?_)
      unfold stepReadTask
      split <;> (try split) <;> exact ⟨rfl, rfl⟩
  | readControls id forceKillSwitch stopping now =>
      refine Or.inl (sameGrants_onRun fun run => ?_)
      unfold stepReadControls
      split <;> exact ⟨rfl, rfl⟩
  | recheck id =>
      refine Or.inl (sameGrants_onRun fun run => ?_)
      unfold stepRecheck
      split
      · dsimp only
        split_ifs
        · exact sameGrants_catchError
        · exact ⟨rfl, rfl⟩
      · exact ⟨rfl, rfl⟩
  | selectModel id selection clock =>
      refine Or.inl (sameGrants_onRun fun run => ?_)
      cases run.phase with
      | running task => exact sameGrants_adopt
      | _ => exact ⟨rfl, rfl⟩
  | finish id outcome now =>
      refine Or.inl (sameGrants_onRun fun run => ?_)
      unfold stepFinish
      split
      · split_ifs <;> exact ⟨rfl, rfl⟩
      · exact ⟨rfl, rfl⟩
  | perform id clock lost =>
      -- A call of a handler writes the store, whichever way it ends.
      refine Or.inl (sameGrants_onRun fun run => ?_)
      unfold stepPerform
      split
      · exact ⟨rfl, rfl⟩
      · split
        · split_ifs <;> exact ⟨rfl, rfl⟩
        · exact sameGrants_catchError
        · exact sameGrants_catchError
  | readFailed id =>
      refine Or.inl (sameGrants_onRun fun run => ?_)
      unfold stepReadFailed
      split <;> (try split) <;> exact ⟨rfl, rfl⟩
  | heartbeatFails id => exact Or.inl (sameGrants_onRun fun run => ⟨rfl, rfl⟩)
  | abort id reason => exact Or.inl (sameGrants_onRun fun run => ⟨rfl, rfl⟩)
  | throws id message => exact Or.inl (sameGrants_onRun fun run => sameGrants_catchError)
  | intake id clock =>
      simp only [effect]
      split
      · exact Or.inl ⟨rfl, rfl⟩
      · unfold stepIntake
        split <;> exact Or.inl ⟨rfl, rfl⟩
  | crash runs intakes => exact Or.inl ⟨rfl, rfl⟩
  | setPauseNewWork paused context clock => exact Or.inl ⟨rfl, rfl⟩
  | setKillSwitch engaged context clock => exact Or.inl ⟨rfl, rfl⟩
  | setScheduleOverride override context clock => exact Or.inl ⟨rfl, rfl⟩
  | startIntake report => exact Or.inl ⟨rfl, rfl⟩
  -- The calls from outside take the store their repository call leaves.
  | lateHeartbeat workerId taskId now => exact Or.inl sameGrants_adopt
  | recoverExpired now locked clock => exact Or.inl sameGrants_adopt
  | recoverOwned workerId locked clock => exact Or.inl sameGrants_adopt
  | retry taskId context clock => exact Or.inl sameGrants_adopt
  | cancel taskId context clock => exact Or.inl sameGrants_adopt
  | requireManual taskId context clock => exact Or.inl sameGrants_adopt

theorem mem_effect_inForce {grant : Grant} (h : grant ∈ s.inForce) :
    grant ∈ (effect config s event).inForce := by
  rcases effect_grants config s event with hsame | ⟨taskId, hadded, _⟩
  · rwa [hsame.inForce]
  · rw [hadded]
    exact List.mem_append_left _ h

theorem leased_iff {store : Store} {taskId : TaskId} :
    store.leased taskId = true ↔ (store.getTask taskId).bind Task.leaseOwner ≠ none := by
  unfold Store.leased
  cases store.getTask taskId <;> simp [Option.isSome_iff_ne_none]

/-- A grant in force stays in force while its row is leased. -/
theorem mem_step_inForce {grant : Grant} :
    grant ∈ (step config s event).inForce ↔ grant ∈ (effect config s event).inForce ∧
      (step config s event).store.leased grant.taskId = true := by
  simp [step, List.mem_filter]

/-- Every step of the system is a step of its leases, in which a task is acquired by
claiming it. -/
theorem leaseStep : LeaseStep
    (fun taskId workerId => ∃ claim ∈ claimedBy config s event,
      workerId = claim.1 ∧ taskId = claim.2.id)
    (leaseState s) (leaseState (step config s event)) := by
  have hkept : ∀ handle ∈ (leaseState s).inForce,
      (leaseState (step config s event)).holder handle.resource ≠ none →
      handle ∈ (leaseState (step config s event)).inForce :=
    fun handle hgrant hholder => mem_step_inForce.mpr
      ⟨mem_effect_inForce hgrant, leased_iff.mpr hholder⟩
  have hmoved : ∀ {run run'}, run ∈ s.runs.rows → RunChange config s event run run' →
      run'.mayApply = true → (⟨run'.taskId, run'.workerId, run'.id⟩ : Handle TaskId WorkerId) ∈
        (leaseState s).live := by
    intro run run' hrun hchange hmay
    obtain ⟨hid, hworker, htask⟩ := hchange.same
    exact ⟨run, hrun, hchange.mayApply hmay, by rw [hid, hworker, htask]⟩
  by_cases hclaim : ∃ workerId lane override gated now locked clock,
      event = .claim workerId lane override gated now locked clock
  · obtain ⟨workerId, lane, override, gated, now, locked, clock, rfl⟩ := hclaim
    rcases effect_claim config s workerId lane override gated now locked clock with
      heq | ⟨store', task, row, hclaimed, heq, hput, howner⟩
    · refine ⟨fun taskId owner hholder => Or.inl ?_, fun handle hlive => Or.inl ?_, hkept⟩
      · simpa [leaseState, heq] using hholder
      · simpa [leaseState, step, heq] using hlive
    · have hrow := hput.getTask
      refine ⟨fun taskId owner hholder => ?_, fun handle hlive => ?_, hkept⟩
      · -- The claimed row is acquired by the claiming worker, the others are kept.
        simp only [leaseState, step_store, heq, startTask_store, hrow] at hholder
        split_ifs at hholder with hid
        · refine Or.inr ⟨(workerId, row), hclaimed, ?_, hid⟩
          rw [Option.bind_some, howner] at hholder
          exact (Option.some.inj hholder).symm
        · exact Or.inl hholder
      · obtain ⟨run, hrun, hmay, rfl⟩ := hlive
        simp only [step, heq, System.startTask] at hrun
        rcases Table.mem_of_mem_insert hrun with hold | rfl
        · exact Or.inl ⟨run, hold, hmay, rfl⟩
        · refine Or.inr (mem_step_inForce.mpr ⟨?_, leased_iff.mpr ?_⟩)
          · rw [heq]
            exact List.mem_append_right _ List.mem_cons_self
          · rw [step_store, heq, startTask_store, hrow, if_pos rfl, Option.bind_some, howner]
            exact Option.some_ne_none _
  · refine ⟨fun taskId owner hholder => Or.inl ?_, fun handle hlive => Or.inl ?_, hkept⟩
    · obtain ⟨row, hrow, howner⟩ := Option.bind_eq_some_iff.mp hholder
      rcases step_rows hrow with ⟨task, htask, hchange⟩ | ⟨_, hnew⟩
      · refine Option.bind_eq_some_iff.mpr ⟨task, htask, ?_⟩
        cases hchange.held (by simp [howner]) with
        | claimed hevent _ _ => exact absurd ⟨_, _, _, _, _, _, _, hevent⟩ hclaim
        | kept hsame _ _ => rw [← hsame, howner]
        | advanced _ _ _ _ _ _ hmoved =>
            rw [hmoved] at howner
            exact howner
      · rw [hnew.unleased.1] at howner
        cases howner
    · obtain ⟨run', hrun', hmay, rfl⟩ := hlive
      rcases step_runs hrun' with ⟨run, hrun, hchange⟩ | ⟨task, hstarted⟩
      · exact hmoved hrun hchange hmay
      · obtain ⟨lane, override, gated, now, locked, clock, hevent, _⟩ := hstarted.event
        exact absurd ⟨_, _, _, _, _, _, _, hevent⟩ hclaim

theorem eq_ok_of_isOk {result : Except WorkflowError (Store × Task)} (h : result.isOk = true) :
    ∃ store' row, result = .ok (store', row) := by
  cases result with
  | error failure => cases h
  | ok value => exact ⟨value.1, value.2, rfl⟩

/-- A run that applies an outcome still may, and its worker holds the lease, unless it
pauses a row nobody leases. -/
theorem holder_of_applies {run : RunEntry} (hrun : run ∈ appliedRun config s event)
    (hpause : ¬ PausesUnleased s event) :
    run ∈ s.runs.rows ∧ run.mayApply = true ∧
      (leaseState s).holder run.taskId = some run.workerId := by
  cases event with
  | perform id clock lost =>
      obtain ⟨hfound, happlies⟩ := Option.mem_filter_iff.mp hrun
      have hholder : ∀ task, s.store.getTask run.taskId = some task →
          task.leaseOwner = some run.workerId →
          (leaseState s).holder run.taskId = some run.workerId :=
        fun task htask howner => Option.bind_eq_some_iff.mpr ⟨task, htask, howner⟩
      refine ⟨Table.mem_of_find? hfound, ?_⟩
      unfold RunEntry.applies at happlies
      cases hphase : run.phase with
      | applying stage outcome now =>
          refine ⟨by simp [RunEntry.mayApply, hphase], ?_⟩
          cases hcall : phaseCall config run with
          | none => simp [hphase, hcall] at happlies
          | some call =>
              simp only [hphase, hcall] at happlies
              obtain ⟨store', row, hok⟩ := eq_ok_of_isOk happlies
              simp only [phaseCall, hphase] at hcall
              -- Each outcome is applied by a call that checks the worker id in its own way.
              cases outcome with
              | advance outcome =>
                  cases hcall
                  obtain ⟨task, htask, hlease, _⟩ := transitionTask_eq_ok_iff.mp hok
                  exact hholder task htask (leasePermits_advance.mp hlease)
              | pauseLimit outcome =>
                  cases hcall
                  obtain ⟨task, htask, hlease, _⟩ := transitionTask_eq_ok_iff.mp hok
                  rcases (leasePermits_locked_iff _ rfl).mp hlease with howner | ⟨hnone, _⟩
                  · exact hholder task htask howner
                  · have htask : s.store.getTask run.taskId = some task := htask
                    refine absurd ⟨run, hfound, ?_, ?_⟩ hpause
                    · simp [Phase.isPauseLimit, hphase]
                    · simp [Store.leased, htask, hnone]
              | wait outcome =>
                  cases hcall
                  obtain ⟨task, htask, howner, _⟩ := updateLeased_eq_ok_iff.mp hok
                  exact hholder task htask howner
              | interrupted => cases hcall
      | _ => simp [hphase] at happlies
  | _ => simp [appliedRun] at hrun

/-- The check of the worker id is sound in a system where it is not mistaken. -/
theorem appliedUnderClaim_of_unmistaken (hinv : (leaseState s).Unmistaken)
    (hpause : ¬ PausesUnleased s event) : AppliedUnderClaim config s event := by
  intro run hrun
  obtain ⟨hmem, hmay, hholder⟩ := holder_of_applies hrun hpause
  exact hinv ⟨run.taskId, run.workerId, run.id⟩ ⟨run, hmem, hmay, rfl⟩ hholder

theorem unmistaken_step (hinv : (leaseState s).Unmistaken)
    (hreclaims : ¬ ReclaimsOwnTask config s event) :
    (leaseState (step config s event)).Unmistaken := by
  refine leaseStep.unmistaken ?_ hinv
  rintro handle ⟨run, hrun, hmay, rfl⟩ ⟨claim, hclaim, hworker, htask⟩
  exact hreclaims ⟨claim, hclaim, run, hrun, hmay, hworker, htask⟩

end Step

/-- Every result is applied under the claim that started it, in a run where no worker
claims a task that one of its runs may still apply an outcome to, and no usage-limit
pause hits a row nobody leases. -/
theorem results_applied_under_claim (config : SchedulerConfig) (store : Store)
    (events : List Event)
    (hruns : Along (step config)
      (fun s event => ¬ ReclaimsOwnTask config s event ∧ ¬ PausesUnleased s event)
      (boot store) events) :
    Along (step config) (AppliedUnderClaim config) (boot store) events := by
  refine along_of_invariant (fun s => (leaseState s).Unmistaken) ?_ ?_ ?_ hruns
  · exact fun s event hinv hcondition => unmistaken_step hinv hcondition.1
  · exact fun s event hinv hcondition => appliedUnderClaim_of_unmistaken hinv hcondition.2
  · rintro handle ⟨run, hrun, _⟩
    cases hrun

/-- Worker `w1` analyses the task past the end of its lease; the task is recovered,
retried by the operator and claimed by `w1` again before the first analysis returns. -/
def staleResultRun : List Event :=
  [sampleClaim "w1" .execution 0, .readTask 0 false, .readControls 0 false false 0,
    .recoverExpired 300001 [] 300001, .retry 1 ⟨"operator", "again"⟩ 300002,
    sampleClaim "w1" .execution 300003, .finish 0 (.advance { toState := ready }) 300004,
    .perform 0 300004 none]

theorem stale_result_applied :
    ¬ ∀ (config : SchedulerConfig) (store : Store) (events : List Event),
      Along (step config) (AppliedUnderClaim config) (boot store) events := by
  intro h
  have hrun := h sampleConfig (sampleStore [sampleTask 1 queued]) staleResultRun
  revert hrun
  decide

/-- The same with a second worker in place of `w1`: the late result is refused. -/
def refusedResultRun : List Event :=
  staleResultRun.set 5 (sampleClaim "w2" .execution 300003)

theorem results_applied_under_claim_run :
    Along (step sampleConfig) (AppliedUnderClaim sampleConfig)
      (boot (sampleStore [sampleTask 1 queued])) refusedResultRun :=
  results_applied_under_claim sampleConfig (sampleStore [sampleTask 1 queued]) refusedResultRun
    (by decide)

end Orchestrator
