import Mathlib.Data.List.TakeWhile
import Orchestrator.Delivery.ObservationStage

/-! # Merges that stay unreachable

A sequence of observations of one work unit, each with what GitHub and the clock answer
it, and the timestamp that the observations pass on: when a merge commit that is not on
the base branch blocks the task.
-/

namespace Orchestrator

open Kit TaskState

/-- One observation of a work unit: the row it reads and the answers it gets. The record of
its result may be lost. -/
structure Poll where
  unit : WorkUnitRow
  answers : (call : StageCall) → Except StageError call.Answer
  recorded : Bool := true

section Polls

variable (deps : DeliveryDependencies)

def Poll.outcome (poll : Poll) : Except StageError ObservedUnit :=
  (observe deps poll.unit).answered poll.answers

/-- The row after the observation and its record. -/
def Poll.after (poll : Poll) : WorkUnitRow :=
  match poll.recorded, poll.outcome deps with
  | true, .ok observed => poll.unit.delivered (observedUpdate observed)
  | _, _ => poll.unit

/-- The observations follow each other: each reads the `delivery_observation` that the one
before it left, `previous` at first. The other columns may change in between. -/
def Consecutive : Option DeliveryObservation → List Poll → Prop
  | _, [] => True
  | previous, poll :: polls =>
      poll.unit.deliveryObservation = previous ∧
        Consecutive (poll.after deps).deliveryObservation polls

/-- The head of the pull request that the observation reads, and when. -/
def Poll.sighting (poll : Poll) : Option (String × Instant) :=
  match deps.registry.find? fun repository => repository.name = poll.unit.repository,
      poll.unit.pushedCommit, poll.unit.pullRequest, poll.unit.branch with
  | some repository, some _, some recorded, some _ =>
      match poll.answers (.service (.getPullRequest repository.github recorded.number)),
          poll.answers (.service .clock) with
      | .ok pullRequest, .ok now => some (pullRequest.headSha, now)
      | _, _ => none
  | _, _, _, _ => none

/-- The observation came to a result, and the result was recorded. -/
def Poll.kept (poll : Poll) : Bool := poll.recorded && (poll.outcome deps).toBool

/-- When the unbroken stretch of recorded observations that saw this head began, up to an
observation at `now`. -/
def headSince (before : List Poll) (headSha : String) (now : Instant) : Instant :=
  let sightings := (before.filter (·.kept deps)).map (·.sighting deps)
  let stretch := sightings.reverse.takeWhile fun sighting => sighting.map (·.1) = some headSha
  ((stretch.getLast?.bind id).map (·.2)).getD now

/-- The observation finds the pull request merged, and its merge commit not on the base
branch. -/
structure UnreachableMerge (poll : Poll) where
  repository : RegisteredRepository
  recorded : RecordedPullRequest
  pushedCommit : String
  branch : String
  pullRequest : GitHubPullRequest
  mergeCommit : String
  relation : CommitComparison
  now : Instant
  registered : deps.registry.find? (fun repository => repository.name = poll.unit.repository) =
    some repository
  pushed : poll.unit.pushedCommit = some pushedCommit
  delivered : poll.unit.pullRequest = some recorded
  onBranch : poll.unit.branch = some branch
  read : poll.answers (.service (.getPullRequest repository.github recorded.number)) =
    .ok pullRequest
  clock : poll.answers (.service .clock) = .ok now
  identity : identityProblem branch repository pullRequest = none
  contains : pullRequest.headSha = pushedCommit ∨ ∃ relation : CommitComparison,
    poll.answers (.service
      (.compareCommits repository.github pushedCommit pullRequest.headSha)) = .ok relation ∧
        relation.contains = true
  merged : pullRequest.merged = true
  commit : pullRequest.mergeCommitSha = some mergeCommit
  compared : poll.answers (.service
    (.compareCommits repository.github mergeCommit repository.baseBranch)) = .ok relation
  unreachable : relation.contains = false

/-- The status of the work unit after the observation. -/
def Poll.status (poll : Poll) : Option UnitDelivery :=
  match poll.outcome deps with
  | .ok observed => some observed.delivery
  | .error _ => none

/-- An earlier observation found this merge commit unreachable, longer than the timeout
before this one. -/
def FoundLongBefore {poll : Poll} (before : List Poll) (merge : UnreachableMerge deps poll) :
    Prop :=
  ∃ earlier ∈ before, ∃ found : UnreachableMerge deps earlier,
    found.mergeCommit = merge.mergeCommit ∧ timedOut deps found.now merge.now = true

/-- The timeout of an unreachable merge commit runs from the first observation of it. -/
structure TimeoutFromMerge (polls : List Poll) : Prop where
  blocked : ∀ before poll after, polls = before ++ poll :: after →
    ∀ merge : UnreachableMerge deps poll,
      (∃ reason, poll.status deps = some (.blocked reason)) → FoundLongBefore deps before merge
  unverified : ∀ before poll after, polls = before ++ poll :: after →
    ∀ merge : UnreachableMerge deps poll,
      (∀ earlier ∈ before, ∀ found : UnreachableMerge deps earlier,
        found.mergeCommit ≠ merge.mergeCommit) →
      ∃ reason, poll.status deps = some (.mergeUnverified reason)

/-- No observation finds an unreachable merge commit longer than the timeout after its head
was first seen, unless the commit was found unreachable longer than the timeout before. -/
def HeadSeenInTime (polls : List Poll) : Prop :=
  ∀ before poll after, polls = before ++ poll :: after →
    ∀ merge : UnreachableMerge deps poll,
      timedOut deps (headSince deps before merge.pullRequest.headSha merge.now) merge.now = true →
        FoundLongBefore deps before merge

end Polls

variable {deps : DeliveryDependencies}

/-! ## One observation -/

@[simp] theorem answered_service {answers : (call : StageCall) → Except StageError call.Answer}
    (call : ServiceCall) : (service call).answered answers = answers (.service call) :=
  @answered_perform StageError StageCall StageCall.Answer answers (.service call)

/-- Whatever a read pull request comes to, its head and since when it was seen are kept. -/
theorem returns_observePullRequest (unit : WorkUnitRow) (branch pushedCommit : String)
    (repository : RegisteredRepository) (pullRequest : GitHubPullRequest) (now : Instant) :
    (observePullRequest deps unit branch pushedCommit repository pullRequest now).Returns
      fun observed => observed.observation =
        some ⟨pullRequest.headSha, headFirstObservedAt unit pullRequest.headSha now⟩ := by
  unfold observePullRequest
  dsimp only
  cases identityProblem branch repository pullRequest with
  | some problem => exact rfl
  | none =>
      refine returns_rest fun contains => ?_
      split_ifs
      · exact rfl
      · exact rfl
      · refine returns_rest fun delivery => ?_
        split_ifs
        · exact rfl
        · exact rfl
      · exact rfl
      · exact returns_rest fun _ => rfl

theorem answered_repository {answers : (call : StageCall) → Except StageError call.Answer}
    {name : String} {repository : RegisteredRepository}
    (h : deps.registry.find? (fun repository => repository.name = name) = some repository) :
    (deps.repository name).answered answers = .ok repository := by
  unfold StageDependencies.repository
  rw [h]
  rfl

theorem bind_eq_ok_iff {ε α β : Type} {first : Except ε α} {rest : α → Except ε β} {result : β} :
    first.bind rest = .ok result ↔ ∃ value, first = .ok value ∧ rest value = .ok result := by
  cases first with
  | error failure => simp [Except.bind]
  | ok value => simp [Except.bind]

/-- An observation keeps the head it read, and since when it was seen; one of a unit without
a delivered pull request keeps nothing. -/
theorem observation_of_outcome {poll : Poll} {observed : ObservedUnit}
    (h : poll.outcome deps = .ok observed) :
    observed.observation = (poll.sighting deps).map fun seen =>
      ⟨seen.1, headFirstObservedAt poll.unit seen.1 seen.2⟩ := by
  unfold Poll.outcome observe at h
  rw [answered_bind, bind_eq_ok_iff] at h
  rcases h with ⟨repository, hrepository, h⟩
  have hfound : deps.registry.find? (fun repository => repository.name = poll.unit.repository) =
      some repository := by
    unfold StageDependencies.repository at hrepository
    split at hrepository
    · rename_i found hfound
      rcases Except.ok.inj hrepository with rfl
      exact hfound
    · cases hrepository
  unfold Poll.sighting
  rw [hfound]
  -- A unit without a push, a pull request or a branch is not looked up.
  cases hpushed : poll.unit.pushedCommit with
  | none =>
      rw [hpushed] at h
      rcases Except.ok.inj h with rfl
      rfl
  | some pushedCommit =>
  cases hrecorded : poll.unit.pullRequest with
  | none =>
      rw [hpushed, hrecorded] at h
      rcases Except.ok.inj h with rfl
      rfl
  | some recorded =>
  cases hbranch : poll.unit.branch with
  | none =>
      rw [hpushed, hrecorded, hbranch] at h
      rcases Except.ok.inj h with rfl
      rfl
  | some branch =>
      rw [hpushed, hrecorded, hbranch] at h
      dsimp only at h
      rw [answered_bind, bind_eq_ok_iff] at h
      rcases h with ⟨pullRequest, hread, h⟩
      rw [answered_bind, bind_eq_ok_iff] at h
      rcases h with ⟨now, hclock, h⟩
      rw [answered_service] at hread hclock
      simp only [hread, hclock, Option.map_some]
      have hkept := returns_answered (returns_observePullRequest _ _ _ _ _ _) h
      exact hkept

theorem answered_containsPushed {poll : Poll} (merge : UnreachableMerge deps poll) :
    (containsPushed merge.repository merge.pushedCommit merge.pullRequest).answered poll.answers =
      .ok true := by
  unfold containsPushed
  rcases merge.contains with hsame | ⟨relation, hrelation, hahead⟩
  · rw [if_pos hsame]
    rfl
  · split_ifs
    · rfl
    · rw [answered_bind, answered_service, hrelation]
      exact congrArg Except.ok hahead

theorem answered_observeMerged {poll : Poll} (merge : UnreachableMerge deps poll) (late : Bool) :
    ∃ reason, (observeMerged merge.repository merge.pullRequest late).answered poll.answers =
      .ok (if late then .blocked reason else .mergeUnverified reason) := by
  unfold observeMerged
  rw [merge.commit]
  dsimp only
  rw [answered_bind, answered_service, merge.compared]
  simp only [Except.bind, merge.unreachable, Bool.false_eq_true, if_false]
  cases late with
  | true => exact ⟨_, rfl⟩
  | false => exact ⟨_, rfl⟩

/-- The status of an unreachable merge hangs on when its head was first seen. -/
theorem UnreachableMerge.status_eq {poll : Poll} (merge : UnreachableMerge deps poll) :
    ∃ reason, poll.status deps = some
      (if timedOut deps (headFirstObservedAt poll.unit merge.pullRequest.headSha merge.now)
        merge.now then .blocked reason else .mergeUnverified reason) := by
  rcases answered_observeMerged merge (timedOut deps
    (headFirstObservedAt poll.unit merge.pullRequest.headSha merge.now) merge.now) with
    ⟨reason, hmerged⟩
  have hobserved : ∃ observed, (observePullRequest deps poll.unit merge.branch merge.pushedCommit
      merge.repository merge.pullRequest merge.now).answered poll.answers = .ok observed ∧
      observed.delivery = if timedOut deps
        (headFirstObservedAt poll.unit merge.pullRequest.headSha merge.now) merge.now
        then .blocked reason else .mergeUnverified reason := by
    unfold observePullRequest
    simp only [merge.identity]
    rw [answered_bind, answered_containsPushed merge]
    simp only [Except.bind, Bool.not_true, Bool.false_eq_true, if_false, merge.merged, and_false,
      if_true]
    rw [answered_bind, hmerged]
    simp only [Except.bind, answered_pure]
    refine ⟨_, rfl, ?_⟩
    cases timedOut deps (headFirstObservedAt poll.unit merge.pullRequest.headSha merge.now)
      merge.now with
    | true => rfl
    | false => rfl
  rcases hobserved with ⟨observed, hanswered, hdelivery⟩
  have houtcome : poll.outcome deps = .ok observed := by
    unfold Poll.outcome observe
    rw [answered_bind, answered_repository merge.registered]
    simp only [Except.bind, merge.pushed, merge.delivered, merge.onBranch]
    rw [answered_bind, answered_service, merge.read]
    simp only [Except.bind]
    rw [answered_bind, answered_service, merge.clock]
    exact hanswered
  refine ⟨reason, ?_⟩
  unfold Poll.status
  rw [houtcome, ← hdelivery]

/-! ## The passed-on timestamp -/

/-- What an observation with this sighting leaves in the row. -/
def keepSighting (previous : Option DeliveryObservation) (sighting : Option (String × Instant)) :
    Option DeliveryObservation :=
  sighting.map fun seen => ⟨seen.1, match previous with
    | some kept => if kept.headSha = seen.1 then kept.headFirstObservedAt else seen.2
    | none => seen.2⟩

/-- Since when a head was seen, by what the row keeps. -/
def keptSince (kept : Option DeliveryObservation) (headSha : String) (now : Instant) : Instant :=
  match kept with
  | some kept => if kept.headSha = headSha then kept.headFirstObservedAt else now
  | none => now

theorem headFirstObservedAt_eq (unit : WorkUnitRow) (headSha : String) (now : Instant) :
    headFirstObservedAt unit headSha now = keptSince unit.deliveryObservation headSha now := rfl

theorem after_deliveryObservation (poll : Poll) :
    (poll.after deps).deliveryObservation =
      if poll.kept deps then keepSighting poll.unit.deliveryObservation (poll.sighting deps)
      else poll.unit.deliveryObservation := by
  unfold Poll.after Poll.kept
  cases hrecorded : poll.recorded with
  | false => rfl
  | true =>
      cases houtcome : poll.outcome deps with
      | error failure => rfl
      | ok observed => exact observation_of_outcome houtcome

/-- The timestamp kept after a list of sightings is that of the first one in the last
stretch with this head. -/
theorem keptSince_foldl (sightings : List (Option (String × Instant))) (headSha : String)
    (now : Instant) :
    keptSince (sightings.foldl keepSighting none) headSha now =
      (((sightings.reverse.takeWhile fun sighting =>
        sighting.map (·.1) = some headSha).getLast?.bind id).map (·.2)).getD now := by
  induction sightings using List.reverseRecOn generalizing now with
  | nil => rfl
  | append_singleton sightings last ih =>
      rw [List.foldl_append, List.reverse_append]
      cases last with
      | none => rfl
      | some seen =>
          by_cases hhead : seen.1 = headSha
          · subst hhead
            have hkept : keptSince ([some seen].foldl keepSighting
                (sightings.foldl keepSighting none)) seen.1 now =
                keptSince (sightings.foldl keepSighting none) seen.1 seen.2 := by
              simp [keepSighting, keptSince]
            rw [hkept, ih, List.reverse_singleton, List.singleton_append,
              List.takeWhile_cons_of_pos (by simp), List.getLast?_cons]
            cases hlast : (sightings.reverse.takeWhile fun sighting =>
              sighting.map (·.1) = some seen.1).getLast? with
            | none => rfl
            | some sighting =>
                -- Every sighting of the stretch is of this head.
                have hmem := List.mem_takeWhile_imp (List.mem_of_getLast? hlast)
                rcases sighting with _ | other
                · simp at hmem
                · rfl
          · rw [List.reverse_singleton, List.singleton_append,
              List.takeWhile_cons_of_neg (by simpa using hhead)]
            simp [keepSighting, keptSince, hhead]

theorem deliveryObservation_of_consecutive {previous : Option DeliveryObservation}
    {before after : List Poll} {poll : Poll}
    (hpolls : Consecutive deps previous (before ++ poll :: after)) :
    poll.unit.deliveryObservation =
      ((before.filter (·.kept deps)).map (·.sighting deps)).foldl keepSighting previous := by
  induction before generalizing previous with
  | nil => exact hpolls.1
  | cons first before ih =>
      rcases hpolls with ⟨hfirst, hrest⟩
      rw [ih hrest, after_deliveryObservation, hfirst]
      by_cases hkept : first.kept deps = true
      · rw [if_pos hkept, List.filter_cons_of_pos hkept]
        rfl
      · rw [if_neg hkept, List.filter_cons_of_neg hkept]

/-- In a sequence of observations the row's timestamp is that of the head's stretch. -/
theorem headFirstObservedAt_eq_headSince {before after : List Poll} {poll : Poll}
    (hpolls : Consecutive deps none (before ++ poll :: after)) (headSha : String) (now : Instant) :
    headFirstObservedAt poll.unit headSha now = headSince deps before headSha now := by
  rw [headFirstObservedAt_eq, deliveryObservation_of_consecutive hpolls]
  exact keptSince_foldl _ headSha now

/-- The timeout of unreachable merges runs from their own first observation exactly where the
head was seen in time. -/
theorem merge_timeout_iff (deps : DeliveryDependencies) (polls : List Poll)
    (hpolls : Consecutive deps none polls) :
    TimeoutFromMerge deps polls ↔ HeadSeenInTime deps polls := by
  have hstatus : ∀ before poll after, polls = before ++ poll :: after →
      ∀ merge : UnreachableMerge deps poll, ∃ reason, poll.status deps = some
        (if timedOut deps (headSince deps before merge.pullRequest.headSha merge.now) merge.now
          then .blocked reason else .mergeUnverified reason) := by
    intro before poll after heq merge
    rw [← headFirstObservedAt_eq_headSince (heq ▸ hpolls)]
    exact merge.status_eq
  constructor
  · intro htimeout before poll after heq merge hlate
    rcases hstatus before poll after heq merge with ⟨reason, hblocked⟩
    rw [if_pos hlate] at hblocked
    exact htimeout.blocked before poll after heq merge ⟨reason, hblocked⟩
  · intro hseen
    constructor
    · rintro before poll after heq merge ⟨reason, hblocked⟩
      rcases hstatus before poll after heq merge with ⟨_, hwhich⟩
      rw [hblocked] at hwhich
      apply hseen before poll after heq merge
      by_contra hearly
      rw [if_neg hearly] at hwhich
      cases hwhich
    · intro before poll after heq merge hfirst
      rcases hstatus before poll after heq merge with ⟨reason, hwhich⟩
      refine ⟨reason, ?_⟩
      have hearly : ¬ timedOut deps (headSince deps before merge.pullRequest.headSha merge.now)
          merge.now = true := by
        intro hlate
        rcases hseen before poll after heq merge hlate with ⟨earlier, hmem, found, hsame, -⟩
        exact hfirst earlier hmem found hsame
      rw [if_neg hearly] at hwhich
      exact hwhich

/-! ## A pull request that waits for review -/

def reviewedPullRequest : GitHubPullRequest where
  number := 7
  url := "pull/7"
  state := .opened
  merged := false
  mergeCommitSha := none
  headSha := "reviewed"
  headRef := "ai/1"
  headRepository := some "acme/web"
  baseRef := "main"

/-- The checks passed, and nobody merged yet. -/
def openAnswers (now : Instant) : (call : StageCall) → Except StageError call.Answer
  | .service .clock => .ok now
  | .service (.getPullRequest _ _) => .ok reviewedPullRequest
  | .service (.getBranchPolicy _ _) => .ok ⟨[⟨"ci", none, .branchProtection⟩], some 1⟩
  | .service (.listChecks _ _) => .ok [⟨"ci", .checkRun, "completed", some "success", none⟩]
  | .service (.listReviews _ _) => .ok []
  | _ => .error (.other "not asked")

/-- Merged a moment ago, and the base branch does not show the merge commit yet. -/
def mergedAnswers (now : Instant) : (call : StageCall) → Except StageError call.Answer
  | .service .clock => .ok now
  | .service (.getPullRequest _ _) => .ok { reviewedPullRequest with
      state := .closed, merged := true, mergeCommitSha := some "merge" }
  | .service (.compareCommits _ _ _) => .ok .diverged
  | _ => .error (.other "not asked")

def openPoll : Poll where
  unit := {
    taskId := 1, repository := "web", branch := some "ai/1", pushedCommit := some "reviewed"
    pullRequest := some ⟨7, "pull/7"⟩ }
  answers := openAnswers 0

def mergedPoll (now : Instant) : Poll where
  unit := openPoll.after sampleDelivery
  answers := mergedAnswers now

theorem consecutive_merged (now : Instant) :
    Consecutive sampleDelivery none [openPoll, mergedPoll now] := ⟨rfl, rfl, trivial⟩

/-- The pull request of the first observation is not merged. -/
theorem not_unreachable_open (found : UnreachableMerge sampleDelivery openPoll) : False := by
  have hread : reviewedPullRequest = found.pullRequest := Except.ok.inj found.read
  have hmerged := found.merged
  rw [← hread] at hmerged
  cases hmerged

/-- The merge that a second observation finds after 200 minutes. -/
def lateMerge : UnreachableMerge sampleDelivery (mergedPoll 12000000) where
  repository := ⟨"web", "acme/web", "origin", "main"⟩
  recorded := ⟨7, "pull/7"⟩
  pushedCommit := "reviewed"
  branch := "ai/1"
  pullRequest := { reviewedPullRequest with
    state := .closed, merged := true, mergeCommitSha := some "merge" }
  mergeCommit := "merge"
  relation := .diverged
  now := 12000000
  registered := by decide +kernel
  pushed := by decide +kernel
  delivered := by decide +kernel
  onBranch := by decide +kernel
  read := rfl
  clock := rfl
  identity := by decide +kernel
  contains := .inl rfl
  merged := rfl
  commit := rfl
  compared := rfl
  unreachable := rfl

/-- Merged 200 minutes after its head was first seen, the pull request blocks its task when
the merge is first observed. -/
theorem late_merge_blocked :
    ¬ ∀ (deps : DeliveryDependencies) (polls : List Poll), Consecutive deps none polls →
      TimeoutFromMerge deps polls := by
  intro h
  have htimeout := h sampleDelivery _ (consecutive_merged 12000000)
  have hfirst := htimeout.unverified [openPoll] (mergedPoll 12000000) [] rfl lateMerge (by
      intro earlier hmem found
      rcases List.mem_singleton.mp hmem with rfl
      exact (not_unreachable_open found).elim)
  rcases hfirst with ⟨reason, hstatus⟩
  have hblocked : ((mergedPoll 12000000).status sampleDelivery).map (·.isBlocked) =
      some true := by decide +kernel
  rw [hstatus] at hblocked
  cases hblocked

/-- Merged ten minutes after its head was first seen, it waits for the merge commit. -/
theorem merge_timeout_iff_prompt :
    TimeoutFromMerge sampleDelivery [openPoll, mergedPoll 600000] := by
  refine (merge_timeout_iff sampleDelivery _ (consecutive_merged 600000)).mpr ?_
  intro before poll after heq merge hlate
  rcases before with _ | ⟨first, _ | ⟨second, before⟩⟩
  · rcases List.cons_eq_cons.mp heq with ⟨rfl, -⟩
    exact (not_unreachable_open merge).elim
  · rcases List.cons_eq_cons.mp heq with ⟨rfl, hrest⟩
    rcases List.cons_eq_cons.mp hrest with ⟨rfl, -⟩
    have hnow : merge.now = 600000 := (Except.ok.inj merge.clock).symm
    have hread := Except.ok.inj merge.read
    rw [hnow, ← hread] at hlate
    exact absurd hlate (by decide +kernel)
  · simp at heq

end Orchestrator
