import Mathlib.Logic.Relation
import Orchestrator.Delivery.Reconciliation

/-! # One pull request for each work unit

Executions of `ensurePullRequest` for one work unit, one after the other, each of which
may end at any step, while people act on its pull requests. A creation whose response was
lost is repeated only if its pull request was closed, merged or retargeted before a listing
shows it.
-/

namespace Orchestrator

open Kit Relation TaskState

/-! ## Executions -/

/-- What holds of GitHub during an execution that starts in a world, against a base branch. -/
abbrev Meanwhile := GitHubWorld → String → GitHubServer → Prop

/-- People leave a created pull request open against the base branch until a listing shows it
or its creation is recorded as succeeded. -/
def LeftOpen (unit : PullRequestUnit) : Meanwhile := fun w base server =>
  ¬ w.tables.Succeeded unit.key →
    ∀ number ∈ w.outside.created, number ∉ w.outside.listed → server.OpenAgainst base number

/-- An execution of `ensurePullRequest` with the record of its result. -/
structure Opens (meanwhile : Meanwhile) (unit : PullRequestUnit) (base : String) (w : GitHubWorld)
    (ending : Ending StageError GitHubPullRequest) (w' : GitHubWorld) : Prop where
  start : meanwhile w base w.outside
  run : ∃ (deps : DeliveryDependencies) (task : Task) (stage : TaskState) (loaded : LoadedUnit)
      (repository : RegisteredRepository), task.id = unit.taskId ∧
    loaded.repository = unit.repository ∧ loaded.branch = unit.branch ∧
    repository.github = unit.github ∧ repository.baseBranch = base ∧
    Exec (serves (githubServices.within (meanwhile w base)) ⟨task.id, stage⟩)
      (openPullRequest deps task loaded repository) w ending w'

/-- One execution at a time; in between people act, and the database serves other calls, which
record no pull request on the work unit. -/
inductive PullRequestStep (meanwhile : Meanwhile) (unit : PullRequestUnit) :
    GitHubWorld → GitHubWorld → Prop
  | executed {base w ending w'} (h : Opens meanwhile unit base w ending w') :
      PullRequestStep meanwhile unit w w'
  | peopled {w server} (h : w.outside.Peopled server) :
      PullRequestStep meanwhile unit w { w with outside := server }
  | database {w writer call answer w'}
      (hother : ∀ delivery, writer.taskId = unit.taskId →
        call = .recordWorkUnitDelivery unit.repository delivery → delivery.pullRequest = none)
      (h : serves githubServices writer w (.database call) answer w') :
      PullRequestStep meanwhile unit w w'

/-! ## One execution creates one pull request at most -/

section Creation

variable {unit : PullRequestUnit} {C : GitHubServer → Prop} {writer : StageWriter}
  {deps : DeliveryDependencies} {task : Task} {loaded : LoadedUnit}
  {repository : RegisteredRepository} {recorded : Option Nat} {w₀ w : GitHubWorld}

theorem keeps_reconcilePullRequest (hbranch : loaded.branch = unit.branch)
    (hgithub : repository.github = unit.github) (h : Reconciling unit C w₀ w) :
    (reconcilePullRequest loaded repository recorded).Keeps
      (serves (githubServices.within C) writer) (Reconciling unit C w₀)
      (fun found _ =>
        match found with
        | some pullRequest => Verified loaded repository recorded pullRequest
        | none => recorded = none ∧ ∀ number ∈ w₀.outside.created, number ∉ w₀.outside.listed)
      w := by
  unfold reconcilePullRequest
  -- An empty listing shows no pull request of the branch that a listing has to show.
  refine keeps_bind (R := fun pullRequests _ => pullRequests = [] →
    ∀ number ∈ w₀.outside.created, number ∉ w₀.outside.listed) ?_ ?_
  · refine keeps_service h ?_
    rintro answer server ⟨⟨hpeopled, hlists⟩, hC⟩
    refine ⟨h.asked hpeopled hC, ?_⟩
    rintro pullRequests rfl rfl number hnumber hlisted
    rw [← h.created] at hnumber
    rcases h.owned.ours number hnumber with ⟨pullRequest, hfound, hhead, hrepository⟩
    have hshown : pullRequest ∈ [] := by
      apply (hlists [] rfl).complete pullRequest (Table.mem_of_find? hfound)
      · rw [hhead, hbranch]
      · rw [hrepository, hgithub]
      · rw [Table.key_of_find? hfound]
        exact h.listed number hlisted
    cases hshown
  · intro pullRequests w' hkept hunlisted
    refine keeps_mono (fun _ hkept' => hkept') ?_ (keeps_returns
      (keeps_reconciling (only_reconcileListed pullRequests) hkept)
      (returns_reconcileListed pullRequests))
    rintro (_ | pullRequest) w'' _ ⟨_, hfound⟩
    · exact ⟨hfound.2, hunlisted hfound.1⟩
    · exact hfound

/-- A creation is accepted only if none was before: the first pull request would be open. -/
theorem keeps_createdPullRequest (hbranch : loaded.branch = unit.branch)
    (hgithub : repository.github = unit.github) (h : Owned unit w.outside)
    (hopen : ∀ number ∈ w.outside.created,
      w.outside.OpenAgainst repository.baseBranch number) :
    (createdPullRequest deps loaded repository).Keeps
      (serves (githubServices.within C) writer) (fun w' => Owned unit w'.outside)
      (fun _ _ => True) w := by
  unfold createdPullRequest
  refine keeps_bind (R := fun _ _ => True) (keeps_service h ?_) ?_
  · rintro answer server ⟨hserved, _⟩
    refine ⟨?_, fun _ _ => trivial⟩
    rcases hserved with ⟨pullRequest, haccepts, hpeopled, _⟩ | ⟨hpeopled, _⟩
    -- GitHub accepts no second open pull request of one head and base.
    · have hnone : w.outside.created = [] := by
        rw [List.eq_nil_iff_forall_not_mem]
        intro number hnumber
        rcases hopen number hnumber with ⟨first, hfirst, hstate, hbase⟩
        rcases h.ours number hnumber with ⟨same, hsame, hhead, hrepository⟩
        rw [hfirst] at hsame
        cases hsame
        have hother := haccepts.alone first (Table.mem_of_find? hfirst)
        apply hother
        · rw [hhead, hbranch]
        · rw [hrepository, hgithub]
        · exact hstate
        · exact hbase
      have howned : Owned unit (w.outside.opened pullRequest) := by
        constructor
        · simp [GitHubServer.opened, hnone]
        · intro number hnumber
          have hnumber' : number = pullRequest.number := by
            simpa [GitHubServer.opened, hnone] using hnumber
          subst hnumber'
          refine ⟨pullRequest, Table.find?_insert_self haccepts.new, ?_, ?_⟩
          · rw [haccepts.headRef, hbranch]
          · rw [haccepts.headRepository, hgithub]
      exact howned.peopled hpeopled
    · exact h.peopled hpeopled
  · intro created w' hkept _
    exact keeps_pure hkept trivial

theorem pullRequestKey_eq (htask : task.id = unit.taskId)
    (hrepository : loaded.repository = unit.repository) :
    pullRequestKey task loaded.repository = unit.key := by
  unfold pullRequestKey PullRequestUnit.key
  rw [htask, hrepository]

theorem keeps_createPullRequest (hbranch : loaded.branch = unit.branch)
    (hgithub : repository.github = unit.github) (htask : task.id = unit.taskId)
    (hrepository : loaded.repository = unit.repository) (hwriter : writer.taskId = task.id)
    (h : Reconciling unit (LeftOpen unit w₀ repository.baseBranch) w₀ w)
    (hunlisted : ∀ number ∈ w₀.outside.created, number ∉ w₀.outside.listed) :
    (createPullRequest deps task loaded repository recorded).Keeps
      (serves (githubServices.within (LeftOpen unit w₀ repository.baseBranch)) writer)
      (fun w' => Owned unit w'.outside) (fun _ _ => True) w := by
  unfold createPullRequest
  refine keeps_bind (R := fun _ _ => True) (keeps_tryCatch ?_ ?_) ?_
  · -- Where the operation has no response yet, what was created before is still open.
    have heffect : ∀ (operationId : Nat) (w' : GitHubWorld), w'.outside = w.outside →
        ¬ w₀.tables.Succeeded unit.key →
        (createdPullRequest deps loaded repository).Keeps
          (serves (githubServices.within (LeftOpen unit w₀ repository.baseBranch)) writer)
          (fun w' => Owned unit w'.outside)
          (Completes writer operationId (fun w' => Owned unit w'.outside) fun _ _ => True) w' := by
      intro operationId w' houtside hpending
      refine keeps_mono (fun _ howned => howned) ?_
        (keeps_createdPullRequest hbranch hgithub ?_ ?_)
      · intro response w'' howned _ holds tables _
        exact ⟨howned, trivial⟩
      · rw [houtside]
        exact h.owned
      · intro number hnumber
        rw [houtside] at hnumber ⊢
        rw [h.created] at hnumber
        exact h.meanwhile hpending number hnumber (hunlisted number hnumber)
    rw [pullRequestKey_eq htask hrepository]
    refine keeps_idempotentOperation hwriter h.owned ?_ ?_
    · intro row hrow
      refine ⟨h.owned, fun _ _ => trivial, ?_⟩
      intro _ hstatus
      refine heffect _ _ rfl ?_
      rintro ⟨found, hfound, hsucceeded⟩
      rw [h.tables] at hrow
      rw [hrow] at hfound
      cases hfound
      rw [hstatus] at hsucceeded
      cases hsucceeded
    · intro hnone
      refine ⟨h.owned, heffect _ _ rfl ?_⟩
      rintro ⟨found, hfound, _⟩
      rw [h.tables] at hnone
      rw [hnone] at hfound
      cases hfound
  · intro failure w' howned
    exact keeps_throw howned
  · intro operation w' howned _
    dsimp only
    split_ifs
    · exact keeps_throw howned
    · refine keeps_owned ?_ howned
      refine only_bind (only_service.mpr rfl) ?_
      intro created
      exact only_bind (only_verifyPullRequest created) fun _ => trivial

theorem keeps_ensurePullRequest (hbranch : loaded.branch = unit.branch)
    (hgithub : repository.github = unit.github) (htask : task.id = unit.taskId)
    (hrepository : loaded.repository = unit.repository) (hwriter : writer.taskId = task.id)
    (hstart : LeftOpen unit w repository.baseBranch w.outside) (h : Owned unit w.outside) :
    (ensurePullRequest deps task loaded repository).Keeps
      (serves (githubServices.within (LeftOpen unit w repository.baseBranch)) writer)
      (fun w' => Owned unit w'.outside) (fun _ _ => True) w := by
  unfold ensurePullRequest
  have hreconciling : ∀ w', w'.tables = w.tables → w'.outside = w.outside →
      Reconciling unit (LeftOpen unit w repository.baseBranch) w w' := by
    intro w' htables houtside
    constructor
    · rw [houtside]
      exact h
    · exact htables
    · rw [houtside]
      exact hstart
    · rw [houtside]
    · intro number hnumber
      rwa [houtside]
  refine keeps_bind (R := fun _ => Reconciling unit (LeftOpen unit w repository.baseBranch) w)
    (keeps_database h ?_) ?_
  · intro holds now tables value hperform
    cases hperform
    exact ⟨h, hreconciling _ rfl rfl⟩
  intro units w₁ _ hread
  refine keeps_bind (keeps_mono (fun _ hkept => hkept.owned)
    (fun _ _ hkept hfound => And.intro hkept hfound)
    (keeps_reconcilePullRequest hbranch hgithub hread)) ?_
  rintro (_ | pullRequest) w₂ howned ⟨hkept, hfound⟩
  · exact keeps_createPullRequest hbranch hgithub htask hrepository hwriter hkept hfound.2
  · refine keeps_owned ?_ howned
    refine only_bind ?_ fun _ => trivial
    exact only_idempotentOperation rfl (fun _ => trivial) fun _ _ => rfl

/-- An execution keeps the created pull request unique. -/
theorem Opens.owned {base : String} {ending : Ending StageError GitHubPullRequest}
    {w' : GitHubWorld} (h : Opens (LeftOpen unit) unit base w ending w')
    (howned : Owned unit w.outside) : Owned unit w'.outside := by
  rcases h.run with
    ⟨deps, task, stage, loaded, repository, htask, hrepository, hbranch, hgithub, rfl, hexec⟩
  have hkeeps : (openPullRequest deps task loaded repository).Keeps
      (serves (githubServices.within (LeftOpen unit w repository.baseBranch)) ⟨task.id, stage⟩)
      (fun w' => Owned unit w'.outside) (fun _ _ => True) w := by
    unfold openPullRequest
    refine keeps_bind
      (keeps_ensurePullRequest hbranch hgithub htask hrepository rfl h.start howned) ?_
    intro pullRequest w₁ howned₁ _
    exact keeps_owned (only_bind (only_database.mpr rfl) fun _ => trivial) howned₁
  exact (keeps_iff.mp hkeeps _ _ hexec).1

end Creation

/-! ## The recorded number -/

section Recorded

variable {unit : PullRequestUnit} {services : Services GitHubServer} {writer : StageWriter}
  {deps : DeliveryDependencies} {task : Task} {loaded : LoadedUnit}
  {repository : RegisteredRepository} {recorded : Option Nat} {w : GitHubWorld}

/-- A delivery that records a pull request. -/
def StageCall.recordsPullRequest : StageCall → Bool
  | .database (.recordWorkUnitDelivery _ delivery) => delivery.pullRequest.isSome
  | _ => false

theorem keeps_recorded {α : Type} {procedure : StageProc α} {number : Option Nat}
    (honly : procedure.Only fun call => call.recordsPullRequest = false)
    (h : unit.recorded w = number) :
    procedure.Keeps (serves services writer) (fun w' => unit.recorded w' = number)
      (fun _ _ => True) w := by
  refine keeps_of_only ?_ honly h
  intro w₁ call answer w₂ hcall hserves hnumber
  cases call with
  | database call =>
      rcases hserves with ⟨holds, now, tables, value, hperform, rfl, _⟩ | ⟨rfl, _⟩
      · refine Eq.trans ((committed hperform).pullRequestNumber ?_) hnumber
        rintro delivery _ rfl
        exact Option.isSome_eq_false_iff.mp hcall |> Option.isNone_iff_eq_none.mp
      · exact hnumber
  | service call =>
      rcases hserves with ⟨server, _, rfl⟩
      exact hnumber

theorem recordedNumber_getWorkUnits (tables : StageTables) (taskId : TaskId)
    (repository : String) :
    recordedNumber (tables.getWorkUnits taskId) repository =
      tables.pullRequestNumber taskId repository := by
  unfold recordedNumber StageTables.pullRequestNumber
  rw [StageTables.find?_getWorkUnits]

theorem only_reconcilePullRequest :
    (reconcilePullRequest loaded repository recorded).Only
      fun call => call.recordsPullRequest = false := by
  refine only_bind (only_service.mpr rfl) ?_
  intro pullRequests
  refine only_mono ?_ (only_reconcileListed pullRequests)
  rintro (call | call) hinspects
  · cases hinspects
  · rfl

theorem only_createPullRequest :
    (createPullRequest deps task loaded repository recorded).Only
      fun call => call.recordsPullRequest = false := by
  unfold createPullRequest
  refine only_bind (only_tryCatch ?_ fun _ => trivial) ?_
  · refine only_idempotentOperation rfl ?_ fun _ _ => rfl
    intro created
    exact only_bind (only_service.mpr rfl) fun _ => trivial
  · intro operation
    dsimp only
    split_ifs
    · exact trivial
    · refine only_bind (only_service.mpr rfl) ?_
      intro created
      exact only_bind (only_verifyPullRequest created) fun _ => trivial

theorem returns_createPullRequest :
    (createPullRequest deps task loaded repository recorded).Returns
      (Verified loaded repository recorded) := by
  unfold createPullRequest
  refine returns_rest ?_
  intro operation
  dsimp only
  split_ifs
  · exact trivial
  · refine returns_rest ?_
    intro created
    exact returns_bind (returns_verifyPullRequest created) fun _ hverified => hverified

/-- The pull request of an execution is verified against the number recorded at its start. -/
theorem keeps_ensurePullRequest_verified (htask : task.id = unit.taskId)
    (hrepository : loaded.repository = unit.repository) (hwriter : writer.taskId = task.id) :
    (ensurePullRequest deps task loaded repository).Keeps (serves services writer)
      (fun w' => unit.recorded w' = unit.recorded w)
      (fun pullRequest _ => Verified loaded repository (unit.recorded w) pullRequest) w := by
  unfold ensurePullRequest
  refine keeps_bind (R := fun units _ =>
    recordedNumber units loaded.repository = unit.recorded w)
    (keeps_database (I := fun w' => unit.recorded w' = unit.recorded w) rfl ?_) ?_
  · intro holds now tables value hperform
    cases hperform
    refine ⟨rfl, ?_⟩
    rw [recordedNumber_getWorkUnits, hwriter, htask, hrepository]
    rfl
  intro units w₁ hkept₁ hunits
  dsimp only
  rw [hunits]
  refine keeps_bind (keeps_returns (keeps_recorded only_reconcilePullRequest hkept₁)
    returns_reconcilePullRequest) ?_
  rintro (_ | pullRequest) w₂ hkept₂ ⟨_, hfound⟩
  · refine keeps_mono (fun _ hkept => hkept) (fun _ _ _ hends => hends.2)
      (keeps_returns (keeps_recorded only_createPullRequest hkept₂) returns_createPullRequest)
  · refine keeps_bind (keeps_recorded ?_ hkept₂) ?_
    · exact only_idempotentOperation rfl (fun _ => trivial) fun _ _ => rfl
    · intro operation w₃ hkept₃ _
      exact keeps_pure hkept₃ (hfound pullRequest rfl)

theorem Verified.number {pullRequest : GitHubPullRequest}
    (h : Verified loaded repository recorded pullRequest) {number : Nat}
    (hrecorded : recorded = some number) : pullRequest.number = number := by
  subst hrecorded
  by_contra hne
  have hfilter : (some number).filter (fun other => decide (other ≠ pullRequest.number)) =
      some number := by
    simp [Option.filter, Ne.symm hne]
  unfold Verified pullRequestProblem at h
  dsimp only at h
  rw [hfilter] at h
  cases h

/-- The pull request of an execution has the recorded number, and its number is recorded. -/
theorem keeps_openPullRequest (htask : task.id = unit.taskId)
    (hrepository : loaded.repository = unit.repository) (hwriter : writer.taskId = task.id) :
    (openPullRequest deps task loaded repository).Keeps (serves services writer)
      (fun w' => ∀ number, unit.recorded w = some number → unit.recorded w' = some number)
      (fun pullRequest w' => Verified loaded repository (unit.recorded w) pullRequest ∧
        unit.recorded w' = some pullRequest.number) w := by
  unfold openPullRequest
  refine keeps_bind (keeps_mono (fun _ hkept => ?_) (fun _ _ _ hverified => hverified)
    (keeps_ensurePullRequest_verified htask hrepository hwriter)) ?_
  · intro number hnumber
    rw [hkept, hnumber]
  intro pullRequest w₁ hkept hverified
  refine keeps_bind (R := fun _ w' => unit.recorded w' = some pullRequest.number)
    (keeps_database hkept ?_) ?_
  · intro holds now tables value hperform
    simp only [DatabaseCall.perform, StageTables.recordWorkUnitDelivery] at hperform
    rcases updateWorkUnit_eq_ok hperform with ⟨row, hrow, htables⟩
    have hunit : row.unit = (unit.taskId, unit.repository) := by
      rw [Table.key_of_find? hrow, hwriter, htask, hrepository]
    have hnumber : tables.pullRequestNumber unit.taskId unit.repository =
        some pullRequest.number := by
      have hput : w₁.tables.taskWorkUnits.find? (row.delivered (openedUpdate pullRequest)).unit =
          some row := by
        rwa [WorkUnitRow.delivered_unit, Table.key_of_find? hrow]
      rw [htables, pullRequestNumber_put hput, WorkUnitRow.delivered_unit, if_pos hunit]
      rfl
    refine ⟨?_, hnumber⟩
    intro number hrecorded
    rw [← hverified.number hrecorded]
    exact hnumber
  · intro _ w₂ hkept₂ hnumber
    exact keeps_pure hkept₂ ⟨hverified, hnumber⟩

end Recorded

/-! ## Every other situation -/

section Otherwise

variable {deps : DeliveryDependencies} {task : Task} {loaded : LoadedUnit}
  {repository : RegisteredRepository}

/-- The errors that the stage turns into an outcome. -/
def StageError.classified : StageError → Prop
  | .leaseOwnership _ => False
  | .other _ => False
  | _ => True

/-- The task waits, or stops for an operator. -/
def StageOutcome.stops : StageOutcome → Prop
  | .wait _ => True
  | .advance outcome =>
      outcome.toState = blocked ∧ outcome.requiresManualIntervention = some true
  | _ => False

theorem throws_noCandidate {recorded : Option Nat} (pullRequests : List GitHubPullRequest) :
    (noCandidate loaded recorded pullRequests).Throws StageError.classified := by
  unfold noCandidate
  split_ifs
  · exact trivial
  · cases pullRequests with
    | cons pullRequest pullRequests => exact trivial
    | nil =>
        cases recorded with
        | some number => exact trivial
        | none => exact trivial

theorem throws_verifyPullRequest {recorded : Option Nat} (pullRequest : GitHubPullRequest) :
    (verifyPullRequest loaded repository pullRequest recorded).Throws StageError.classified := by
  unfold verifyPullRequest
  cases pullRequestProblem loaded repository pullRequest recorded with
  | some problem => exact trivial
  | none => exact trivial

theorem throws_reconcilePullRequest {recorded : Option Nat} :
    (reconcilePullRequest loaded repository recorded).Throws StageError.classified := by
  refine throws_bind (throws_service _) ?_
  intro pullRequests
  unfold reconcileListed
  dsimp only
  generalize Option.or _ _ = candidate
  split_ifs
  · exact trivial
  · cases candidate with
    | none => exact throws_noCandidate pullRequests
    | some candidate =>
        refine throws_bind (throws_verifyPullRequest candidate) ?_
        intro _
        unfold verifyHead
        split_ifs
        · exact trivial
        · refine throws_bind (throws_service _) ?_
          intro relation
          split_ifs
          · exact trivial
          · exact trivial

theorem classified_retryExisting {failure : StageError} (h : failure.classified) :
    (retryExisting failure).classified := by
  unfold retryExisting
  split
  · split_ifs
    · exact trivial
    · exact h
  · exact h

theorem throws_createPullRequest {recorded : Option Nat} :
    (createPullRequest deps task loaded repository recorded).Throws StageError.classified := by
  unfold createPullRequest
  refine throws_bind (throws_tryCatch ?_ fun _ h => classified_retryExisting h) ?_
  · refine throws_idempotentOperation (fun _ => trivial) ?_
    intro created
    exact throws_bind (throws_service _) fun _ => trivial
  · intro operation
    dsimp only
    split_ifs
    · exact trivial
    · refine throws_bind (throws_service _) ?_
      intro created
      exact throws_bind (throws_verifyPullRequest created) fun _ => trivial

/-- Unless a call fails otherwise, what an execution throws is classified. -/
theorem throws_openPullRequest :
    (openPullRequest deps task loaded repository).Throws StageError.classified := by
  unfold openPullRequest ensurePullRequest
  refine throws_bind (throws_bind (throws_database _) ?_) ?_
  · intro units
    refine throws_bind throws_reconcilePullRequest ?_
    rintro (_ | pullRequest)
    · exact throws_createPullRequest
    · refine throws_bind ?_ fun _ => trivial
      exact throws_idempotentOperation (fun _ => trivial) fun _ => trivial
  · intro pullRequest
    exact throws_bind (throws_database _) fun _ => trivial

/-- A failed stage stops or waits, or fails with the error. -/
theorem returns_stops (attempt : Option Nat) (failure : StageError) :
    (deliveryFailed deps task attempt failure).Returns StageOutcome.stops :=
  returns_deliveryFailed (fun _ => trivial) (fun _ _ => ⟨rfl, rfl⟩) attempt failure

end Otherwise

/-! ## All executions -/

/-- `createPullRequest` succeeds once at most, and the recorded number never changes. An
execution that returns has verified and recorded its pull request; any other one ends in a
rejection or a wait. -/
structure OpenedOnce (meanwhile : Meanwhile) (unit : PullRequestUnit) : Prop where
  atMostOne : ∀ w w', w.outside.created = [] →
    ReflTransGen (PullRequestStep meanwhile unit) w w' → w'.outside.created.length ≤ 1
  recordedOnce : ∀ w w' number, ReflTransGen (PullRequestStep meanwhile unit) w w' →
    unit.recorded w = some number → unit.recorded w' = some number
  verified : ∀ base w w' pullRequest,
    Opens meanwhile unit base w (.returned pullRequest) w' →
      pullRequest.headRef = unit.branch ∧ pullRequest.headRepository = some unit.github ∧
        pullRequest.baseRef = base ∧ unit.recorded w' = some pullRequest.number
  otherwise : ∀ deps task loaded repository,
    (openPullRequest deps task loaded repository).Throws StageError.classified ∧
      ∀ attempt failure, (deliveryFailed deps task attempt failure).Returns StageOutcome.stops

section Runs

variable {unit : PullRequestUnit}

theorem PullRequestStep.owned {w w' : GitHubWorld}
    (h : PullRequestStep (LeftOpen unit) unit w w') (howned : Owned unit w.outside) :
    Owned unit w'.outside := by
  cases h with
  | executed hopens => exact hopens.owned howned
  | peopled hpeopled => exact howned.peopled hpeopled
  | database _ hserves =>
      rcases hserves with ⟨holds, now, tables, value, _, rfl, _⟩ | ⟨rfl, _⟩
      · exact howned
      · exact howned

theorem PullRequestStep.recorded {meanwhile : Meanwhile} {w w' : GitHubWorld} {number : Nat}
    (h : PullRequestStep meanwhile unit w w') (hnumber : unit.recorded w = some number) :
    unit.recorded w' = some number := by
  cases h with
  | executed hopens =>
      rcases hopens.run with
        ⟨deps, task, stage, loaded, repository, htask, hrepository, _, _, _, hexec⟩
      exact (keeps_iff.mp (keeps_openPullRequest htask hrepository rfl) _ _ hexec).1 number hnumber
  | peopled hpeopled => exact hnumber
  | database hother hserves =>
      rcases hserves with ⟨holds, now, tables, value, hperform, rfl, _⟩ | ⟨rfl, _⟩
      · exact ((committed hperform).pullRequestNumber hother).trans hnumber
      · exact hnumber

theorem Verified.from {loaded : LoadedUnit} {repository : RegisteredRepository}
    {recorded : Option Nat} {pullRequest : GitHubPullRequest}
    (h : Verified loaded repository recorded pullRequest) :
    pullRequest.headRepository = some repository.github ∧ pullRequest.headRef = loaded.branch ∧
      pullRequest.baseRef = repository.baseBranch := by
  unfold Verified pullRequestProblem at h
  dsimp only at h
  split at h
  · cases h
  · split_ifs at h with hhead hbase
    rw [not_or, not_not, not_not] at hhead
    exact ⟨hhead.1, hhead.2, not_not.mp hbase⟩

/-- While people leave an unlisted pull request open until its creation is on record, there is
one pull request for the work unit, however executions end. -/
theorem pull_request_created_once (unit : PullRequestUnit) : OpenedOnce (LeftOpen unit) unit where
  atMostOne w w' hnone hsteps := by
    have howned : Owned unit w'.outside := by
      induction hsteps with
      | refl =>
          constructor
          · rw [hnone]
            exact Nat.zero_le 1
          · rw [hnone]
            exact nofun
      | tail _ hstep ih => exact hstep.owned ih
    exact howned.once
  recordedOnce w w' number hsteps hnumber := by
    induction hsteps with
    | refl => exact hnumber
    | tail _ hstep ih => exact hstep.recorded ih
  verified base w w' pullRequest hopens := by
    rcases hopens.run with
      ⟨deps, task, stage, loaded, repository, htask, hrepository, hbranch, hgithub, rfl, hexec⟩
    have hends := (keeps_iff.mp (keeps_openPullRequest htask hrepository rfl) _ _ hexec).2 _ rfl
    rcases hends.1.from with ⟨hfrom, hhead, hbase⟩
    refine ⟨?_, ?_, hbase, hends.2⟩
    · rw [hhead, hbranch]
    · rw [hfrom, hgithub]
  otherwise deps task loaded repository :=
    ⟨throws_openPullRequest, fun attempt failure => returns_stops attempt failure⟩

/-- No number is recorded, and no response of the creation. -/
structure Unanswered (unit : PullRequestUnit) (w : GitHubWorld) : Prop where
  recorded : unit.recorded w = none
  pending : ∀ row, w.tables.externalOperations.find? unit.key = some row →
    row.taskId = unit.taskId ∧ row.status = .pending

section Unanswered

variable {deps : DeliveryDependencies} {task : Task} {stage : TaskState} {loaded : LoadedUnit}
  {repository : RegisteredRepository} {w : GitHubWorld} {pullRequest : GitHubPullRequest}

abbrev unconstrained : Services GitHubServer := githubServices.within fun _ => True

theorem exec_reconcilePullRequest (hlists : w.outside.Lists repository.github loaded.branch []) :
    Exec (serves unconstrained ⟨task.id, stage⟩) (reconcilePullRequest loaded repository none) w
      (.returned none)
      (w.asked (.findPullRequests repository.github loaded.branch) (.ok []) w.outside) := by
  have hlisted : Exec (serves unconstrained ⟨task.id, stage⟩)
      (service (.findPullRequests repository.github loaded.branch)) w (.returned [])
      (w.asked (.findPullRequests repository.github loaded.branch) (.ok []) w.outside) := by
    refine exec_service ⟨⟨w.outside.peopled_refl, ?_⟩, trivial⟩
    rintro pullRequests ⟨⟩
    exact hlists
  exact exec_bind hlisted .ret

theorem exec_createPullRequest {operation : ExternalOperation} {created : Bool}
    {tables : StageTables}
    (hperform : (DatabaseCall.beginExternalOperation .githubPullRequest unit.key).perform
      ⟨task.id, stage⟩ true 0 w.tables = .ok (tables, (operation, created)))
    (hid : operation.taskId = task.id) (hstatus : operation.status = .pending)
    (hkey : pullRequestKey task loaded.repository = unit.key)
    (haccepts : w.outside.Accepts repository.github
      ⟨loaded.branch, repository.baseBranch, deps.delivery.draftPullRequests⟩ pullRequest) :
    ∃ w', Exec (serves unconstrained ⟨task.id, stage⟩)
        (createPullRequest deps task loaded repository none) w .crashed w' ∧
      w'.outside = w.outside.opened pullRequest ∧ w'.tables = tables := by
  let begun : GitHubWorld :=
    w.wrote ⟨task.id, stage⟩ (.beginExternalOperation .githubPullRequest unit.key) tables
  let call : ServiceCall := .createPullRequest repository.github
    ⟨loaded.branch, repository.baseBranch, deps.delivery.draftPullRequests⟩
  have hcreates : Exec (serves unconstrained ⟨task.id, stage⟩) (service call) begun
      (.returned pullRequest)
      (begun.asked call (.ok pullRequest) (w.outside.opened pullRequest)) :=
    exec_service
      ⟨Or.inl ⟨pullRequest, haccepts, GitHubServer.peopled_refl _, Or.inl rfl⟩, trivial⟩
  refine ⟨begun.asked call (.ok pullRequest) (w.outside.opened pullRequest), ?_, rfl, rfl⟩
  unfold createPullRequest idempotentOperation
  rw [hkey]
  refine exec_bind_crashed (exec_tryCatch_crashed (exec_bind (exec_database hperform) ?_))
  dsimp only
  rw [if_neg (by simp [hid]), hstatus]
  exact exec_bind_crashed (exec_bind hcreates .crash)

/-- Where nothing is listed and nothing answered, an execution can create a pull request and
end before the answer is recorded. -/
theorem opens_unanswered (w : GitHubWorld) (pullRequest : GitHubPullRequest)
    (htask : task.id = unit.taskId)
    (hrepository : loaded.repository = unit.repository) (hbranch : loaded.branch = unit.branch)
    (hgithub : repository.github = unit.github) (h : Unanswered unit w)
    (hlists : w.outside.Lists unit.github unit.branch [])
    (haccepts : w.outside.Accepts unit.github
      ⟨unit.branch, repository.baseBranch, deps.delivery.draftPullRequests⟩ pullRequest) :
    ∃ w', Opens (fun _ _ _ => True) unit repository.baseBranch w .crashed w' ∧
      w'.outside = w.outside.opened pullRequest ∧ Unanswered unit w' := by
  let writer : StageWriter := ⟨task.id, .prCreated⟩
  -- The tables once the operation has begun, and its record.
  have hbegin : ∃ (tables : StageTables) (operation : ExternalOperation) (created : Bool),
      (DatabaseCall.beginExternalOperation .githubPullRequest unit.key).perform writer true 0
        w.tables = .ok (tables, (operation, created)) ∧
      operation.taskId = task.id ∧ operation.status = .pending ∧
        tables.externalOperations.find? unit.key = some operation ∧
          tables.taskWorkUnits = w.tables.taskWorkUnits := by
    simp only [DatabaseCall.perform, StageTables.beginExternalOperation]
    cases hrow : w.tables.externalOperations.find? unit.key with
    | some row =>
        rcases h.pending row hrow with ⟨hid, hstatus⟩
        refine ⟨_, row, false, rfl, ?_, hstatus, hrow, rfl⟩
        rw [hid, htask]
    | none => exact ⟨_, _, true, rfl, rfl, rfl, Table.find?_insert_self hrow, rfl⟩
  rcases hbegin with ⟨tables, operation, created, hperform, hid, hstatus, hfound, hunits⟩
  have hrecorded : recordedNumber (w.tables.getWorkUnits task.id) loaded.repository = none := by
    rw [recordedNumber_getWorkUnits, htask, hrepository]
    exact h.recorded
  rw [← hgithub, ← hbranch] at hlists haccepts
  let read : GitHubWorld := w.wrote writer .getWorkUnits w.tables
  have hread : Exec (serves unconstrained writer) (database .getWorkUnits) w
      (.returned (w.tables.getWorkUnits task.id)) read :=
    @exec_database _ _ _ _ .getWorkUnits true 0 _ _ rfl
  have hcreate : ∃ w', Exec (serves unconstrained writer)
        (createPullRequest deps task loaded repository none)
        (read.asked (.findPullRequests repository.github loaded.branch) (.ok []) w.outside)
        .crashed w' ∧
      w'.outside = w.outside.opened pullRequest ∧ w'.tables = tables :=
    exec_createPullRequest hperform hid hstatus (pullRequestKey_eq htask hrepository) haccepts
  rcases hcreate with ⟨w', hcreate, houtside, htables⟩
  have hensure : Exec (serves unconstrained writer) (ensurePullRequest deps task loaded repository)
      w .crashed w' := by
    refine exec_bind hread ?_
    dsimp only
    rw [hrecorded]
    exact exec_bind (exec_reconcilePullRequest hlists) hcreate
  refine ⟨w', ⟨trivial, deps, task, .prCreated, loaded, repository, htask, hrepository, hbranch,
    hgithub, rfl, exec_bind_crashed hensure⟩, houtside, ?_, ?_⟩
  · unfold PullRequestUnit.recorded StageTables.pullRequestNumber
    rw [htables, hunits]
    exact h.recorded
  · intro row hrow
    rw [htables, hfound] at hrow
    cases hrow
    exact ⟨hid.trans htask, hstatus⟩

end Unanswered

/-! ### A second creation -/

def samplePullRequest (number : Nat) (state : PullRequestState) : GitHubPullRequest where
  number := number
  url := ""
  state := state
  merged := false
  mergeCommitSha := none
  headSha := "c1"
  headRef := "task"
  headRepository := some "acme/web"
  baseRef := "main"

def firstUnit : PullRequestUnit := ⟨1, "web", "acme/web", "task"⟩

def firstLoaded : LoadedUnit where
  repository := "web"
  workspacePath := "/work/1"
  branch := "task"
  baseCommit := "c0"
  taskId := 1
  head := "c1"

def firstRepository : RegisteredRepository := ⟨"web", "acme/web", "origin", "main"⟩

def firstWorld : GitHubWorld := { tables := {}, outside := {} }

theorem lists_of_unlisted {server : GitHubServer} (h : server.listed = []) :
    server.Lists "acme/web" "task" [] := by
  constructor
  · exact nofun
  · intro pullRequest _ _ _ hnumber
    rw [h] at hnumber
    cases hnumber

/-- The first execution creates a pull request, and dies before the creation is recorded. -/
theorem opens_first : ∃ w', Opens (fun _ _ _ => True) firstUnit "main" firstWorld .crashed w' ∧
    w'.outside = firstWorld.outside.opened (samplePullRequest 1 .opened) ∧
      Unanswered firstUnit w' :=
  @opens_unanswered firstUnit sampleDelivery (sampleTask 1 prCreated) firstLoaded firstRepository
    firstWorld (samplePullRequest 1 .opened) rfl rfl rfl rfl ⟨rfl, nofun⟩ (lists_of_unlisted rfl)
    ⟨rfl, rfl, rfl, rfl, rfl, nofun⟩

theorem pull_request_created_once_first : ∃ w',
    Opens (LeftOpen firstUnit) firstUnit "main" firstWorld .crashed w' ∧
      w'.outside.created = [1] ∧ w'.outside.created.length ≤ 1 := by
  obtain ⟨w', hopens, houtside, _⟩ := opens_first
  -- Nothing was created before, so nothing has to stay open.
  have hsame : LeftOpen firstUnit firstWorld "main" = fun _ => True := by
    funext server
    refine eq_true ?_
    intro _ number hcreated
    cases hcreated
  have hmeets : Opens (LeftOpen firstUnit) firstUnit "main" firstWorld .crashed w' := by
    constructor
    · rw [hsame]
      trivial
    · rw [hsame]
      exact hopens.run
  refine ⟨w', hmeets, ?_, ?_⟩
  · rw [houtside]
    rfl
  · exact (pull_request_created_once firstUnit).atMostOne firstWorld w' rfl
      (.single (.executed hmeets))

/-- The first creation is not answered, its pull request is closed, and a listing does not
show it yet: a second one is created. -/
theorem pull_request_created_twice :
    ¬ ∀ unit, OpenedOnce (fun _ _ _ => True) unit := by
  intro h
  -- The first execution creates number 1.
  rcases opens_first with ⟨w₁, hopens₁, houtside₁, hunanswered₁⟩
  -- A person closes it.
  let closed : GitHubServer :=
    { pullRequests := Table.empty.insert (samplePullRequest 1 .closed), created := [1] }
  have hclosed : w₁.outside.Peopled closed := by
    rw [houtside₁]
    constructor
    · rfl
    · exact nofun
    · intro number pullRequest hfound
      have hmem : pullRequest ∈ [samplePullRequest 1 .opened] := Table.mem_of_find? hfound
      have hnumber := Table.key_of_find? hfound
      rw [List.mem_singleton.mp hmem] at hnumber ⊢
      subst hnumber
      exact ⟨samplePullRequest 1 .closed, rfl, rfl, rfl⟩
  -- The second one creates number 2.
  have halone : ∀ other ∈ closed.pullRequests.rows, other.headRef = "task" →
      other.headRepository = some "acme/web" → other.state = .opened →
        other.baseRef ≠ "main" := by
    intro other hother _ _ hstate
    have hsame : other = samplePullRequest 1 .closed := List.mem_singleton.mp hother
    rw [hsame] at hstate
    cases hstate
  have hsecond := @opens_unanswered firstUnit sampleDelivery (sampleTask 1 prCreated) firstLoaded
    firstRepository { w₁ with outside := closed } (samplePullRequest 2 .opened) rfl rfl rfl rfl
    ⟨hunanswered₁.recorded, hunanswered₁.pending⟩ (lists_of_unlisted rfl)
    ⟨rfl, rfl, rfl, rfl, rfl, halone⟩
  rcases hsecond with ⟨w₂, hopens₂, houtside₂, _⟩
  have hcreated := (h firstUnit).atMostOne firstWorld w₂ rfl
    (((ReflTransGen.single (.executed hopens₁)).tail (.peopled hclosed)).tail (.executed hopens₂))
  rw [houtside₂] at hcreated
  cases hcreated with
  | step hle => cases hle

end Runs

end Orchestrator
