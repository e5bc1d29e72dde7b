import Orchestrator.Delivery.ObservationStage
import Orchestrator.Delivery.ReviewedPush

/-! # A task is complete when its pull requests are merged

Each round of an observation overwrites the row of one work unit, and the decision is made
from the results in memory. When it is made for `COMPLETED`, the rows of all work units are
those that this observation wrote, each with a merge commit that GitHub has compared with
the base branch in between.
-/

namespace Orchestrator

open Kit TaskState

/-! ## The evidence -/

/-- The entries that an execution from `w₀` has added. -/
def StageWorld.since {ω : Type} (w₀ w : StageWorld ω) : List JournalEntry :=
  w.journal.drop w₀.journal.length

/-- GitHub has answered that the base branch of the repository contains the commit. -/
def Contained (deps : DeliveryDependencies) (record : List JournalEntry)
    (repositoryName mergeCommit : String) : Prop :=
  ∃ repository ∈ deps.registry, repository.name = repositoryName ∧
    ∃ relation : CommitComparison, relation.contains = true ∧
      .asked (.compareCommits repository.github mergeCommit repository.baseBranch)
        (.ok relation) ∈ record

/-- The row says so, and the record has the evidence. -/
def MergedUnit (deps : DeliveryDependencies) (record : List JournalEntry) (row : WorkUnitRow) :
    Prop :=
  row.state = completed ∧
    ∃ mergeCommit, row.mergeCommit = some mergeCommit ∧
      Contained deps record row.repository mergeCommit

/-- The task has work units, and all of them are merged. -/
structure AllMerged (deps : DeliveryDependencies) (taskId : TaskId)
    (record : List JournalEntry) (tables : StageTables) : Prop where
  declared : tables.getWorkUnits taskId ≠ []
  merged : ∀ row ∈ tables.getWorkUnits taskId, MergedUnit deps record row

section Evidence

variable {ω : Type} {services : Services ω} {writer : StageWriter} {deps : DeliveryDependencies}
  {taskId : TaskId} {record record' : List JournalEntry} {w₀ w w' : StageWorld ω}
  {call : StageCall} {answer : Except StageError call.Answer}

theorem Contained.mono {name mergeCommit : String} (h : Contained deps record name mergeCommit)
    (hmore : ∀ entry ∈ record, entry ∈ record') : Contained deps record' name mergeCommit := by
  obtain ⟨repository, hregistered, hname, relation, hcontains, hasked⟩ := h
  exact ⟨repository, hregistered, hname, relation, hcontains, hmore _ hasked⟩

theorem MergedUnit.mono {row : WorkUnitRow} (h : MergedUnit deps record row)
    (hmore : ∀ entry ∈ record, entry ∈ record') : MergedUnit deps record' row := by
  obtain ⟨hstate, mergeCommit, hcommit, hcontained⟩ := h
  exact ⟨hstate, mergeCommit, hcommit, hcontained.mono hmore⟩

/-- The calls that leave the work units alone. -/
def StageCall.sparesUnits : StageCall → Bool
  | .database (.recordWorkUnitWorkspace _) => false
  | .database (.recordWorkUnitDelivery _ _) => false
  | _ => true

/-- Every answer of a call is journaled, and the journal is only added to. -/
theorem journal_serves (h : serves services writer w call answer w') :
    ∃ entries, w'.journal = w.journal ++ entries := by
  cases call with
  | database call =>
      rcases h with ⟨_, _, tables, _, _, rfl, _⟩ | ⟨rfl, _⟩
      · exact ⟨_, rfl⟩
      · exact ⟨[], (List.append_nil _).symm⟩
  | service call =>
      obtain ⟨outside, _, rfl⟩ := h
      exact ⟨_, rfl⟩

theorem mem_since_of_append {entries : List JournalEntry} {entry : JournalEntry}
    (h : w'.journal = w.journal ++ entries) (hentry : entry ∈ w₀.since w) :
    entry ∈ w₀.since w' := by
  unfold StageWorld.since at hentry ⊢
  rw [h, List.drop_append]
  exact List.mem_append_left _ hentry

/-- What was just asked belongs to the execution. -/
theorem mem_since_asked {call : ServiceCall} {answer : Except StageError call.Answer}
    {outside : ω} (h : w₀.journal.length ≤ w.journal.length) :
    .asked call answer ∈ w₀.since (w.asked call answer outside) := by
  unfold StageWorld.since
  rw [StageWorld.asked_journal, List.drop_append_of_le_length h]
  exact List.mem_append_right _ (List.mem_singleton_self _)

theorem taskWorkUnits_serves (hspares : call.sparesUnits = true)
    (h : serves services writer w call answer w') :
    w'.tables.taskWorkUnits = w.tables.taskWorkUnits := by
  cases call with
  | service call =>
      obtain ⟨outside, _, rfl⟩ := h
      rfl
  | database call =>
      rcases h with ⟨_, _, tables, _, hperform, rfl, _⟩ | ⟨rfl, _⟩
      · cases committed hperform with
        | prepared _ _ _ => cases hspares
        | delivered _ _ _ _ => cases hspares
        | _ => rfl
      · rfl

theorem AllMerged.serves (h : AllMerged deps taskId (w₀.since w) w.tables)
    (hspares : call.sparesUnits = true) (hserves : serves services writer w call answer w') :
    AllMerged deps taskId (w₀.since w') w'.tables := by
  have hunits : w'.tables.getWorkUnits taskId = w.tables.getWorkUnits taskId := by
    unfold StageTables.getWorkUnits
    rw [taskWorkUnits_serves hspares hserves]
  obtain ⟨entries, hentries⟩ := journal_serves hserves
  constructor
  · rw [hunits]
    exact h.declared
  · intro row hrow
    rw [hunits] at hrow
    exact (h.merged row hrow).mono fun entry hentry => mem_since_of_append hentries hentry

/-- A changed row of another task is no unit of this one. -/
theorem mem_getWorkUnits_put {tables : StageTables} {row changed unit : WorkUnitRow}
    (hsame : changed.unit = row.unit) (hother : row.taskId ≠ taskId) :
    unit ∈ { tables with taskWorkUnits := tables.taskWorkUnits.put changed }.getWorkUnits taskId ↔
      unit ∈ tables.getWorkUnits taskId := by
  have hchanged : changed.taskId ≠ taskId := by
    intro htask
    have hrow : changed.taskId = row.taskId := congrArg Prod.fst hsame
    exact hother (hrow ▸ htask)
  rw [StageTables.mem_getWorkUnits, StageTables.mem_getWorkUnits, Table.mem_put]
  constructor
  · rintro ⟨⟨rfl, _⟩ | ⟨hmem, _⟩, htask⟩
    · exact absurd htask hchanged
    · exact ⟨hmem, htask⟩
  · rintro ⟨hmem, htask⟩
    refine ⟨Or.inr ⟨hmem, ?_⟩, htask⟩
    intro hunit
    have hrow : unit.taskId = changed.taskId := congrArg Prod.fst hunit
    exact hchanged (hrow ▸ htask)

/-- A call for another task leaves the units of this one. -/
theorem mem_getWorkUnits_elsewhere (hother : writer.taskId ≠ taskId)
    (h : serves services writer w call answer w') (unit : WorkUnitRow) :
    unit ∈ w'.tables.getWorkUnits taskId ↔ unit ∈ w.tables.getWorkUnits taskId := by
  cases call with
  | service call =>
      obtain ⟨outside, _, rfl⟩ := h
      exact Iff.rfl
  | database call =>
      rcases h with ⟨_, _, tables, _, hperform, rfl, _⟩ | ⟨rfl, _⟩
      · have hrow : ∀ {row : WorkUnitRow} {repository : String},
            w.tables.taskWorkUnits.find? (writer.taskId, repository) = some row →
            row.taskId ≠ taskId := by
          intro row repository hfound
          have hkey : row.taskId = writer.taskId :=
            congrArg Prod.fst (Table.key_of_find? hfound)
          rw [hkey]
          exact hother
        cases committed hperform with
        | prepared row identity hfound =>
            exact mem_getWorkUnits_put (row.prepared_unit identity) (hrow hfound)
        | delivered row repository delivery hfound =>
            exact mem_getWorkUnits_put (row.delivered_unit delivery) (hrow hfound)
        | _ => exact Iff.rfl
      · exact Iff.rfl

end Evidence

/-! ## One observation -/

section Observe

variable {ω : Type} {services : Services ω} {writer : StageWriter} {deps : DeliveryDependencies}
  {w₀ w₁ w : StageWorld ω}

/-- An observation of one unit, since `w₁`, only asks. -/
structure Asking (w₀ w₁ w : StageWorld ω) : Prop where
  tables : w.tables = w₁.tables
  started : w₀.journal.length ≤ w.journal.length
  journal : ∀ entry ∈ w₀.since w₁, entry ∈ w₀.since w

/-- If the unit is merged, its merge commit was compared. -/
def ConfirmedBy (deps : DeliveryDependencies) (w₀ : StageWorld ω) (name : String)
    (delivery : UnitDelivery) (w : StageWorld ω) : Prop :=
  ∀ mergeCommit, delivery.mergeCommit? = some mergeCommit →
    Contained deps (w₀.since w) name mergeCommit

theorem Asking.asked {call : ServiceCall} {answer : Except StageError call.Answer} {outside : ω}
    (h : Asking w₀ w₁ w) : Asking w₀ w₁ (w.asked call answer outside) where
  tables := h.tables
  started := by
    have hstarted := h.started
    rw [StageWorld.asked_journal, List.length_append]
    omega
  journal := by
    intro entry hentry
    exact mem_since_of_append (w.asked_journal) (h.journal entry hentry)

theorem keeps_asks {call : ServiceCall} (h : Asking w₀ w₁ w) :
    (service call).Keeps (serves services writer) (Asking w₀ w₁)
      (fun value w' => .asked call (.ok value) ∈ w₀.since w') w := by
  refine keeps_service h ?_
  intro answer outside _
  refine ⟨h.asked, ?_⟩
  intro value hvalue
  subst hvalue
  exact mem_since_asked h.started

theorem keeps_containsPushed {repository : RegisteredRepository} {pushedCommit : String}
    {pullRequest : GitHubPullRequest} (h : Asking w₀ w₁ w) :
    (containsPushed repository pushedCommit pullRequest).Keeps (serves services writer)
      (Asking w₀ w₁) (fun _ _ => True) w := by
  unfold containsPushed
  split_ifs
  · exact keeps_pure h trivial
  · refine keeps_bind (keeps_asks h) ?_
    intro relation w₂ hw₂ _
    exact keeps_pure hw₂ trivial

theorem keeps_observeMerged {repository : RegisteredRepository} {pullRequest : GitHubPullRequest}
    {late : Bool} (hregistered : repository ∈ deps.registry) (h : Asking w₀ w₁ w) :
    (observeMerged repository pullRequest late).Keeps (serves services writer)
      (Asking w₀ w₁) (ConfirmedBy deps w₀ repository.name) w := by
  unfold observeMerged
  cases pullRequest.mergeCommitSha with
  | none => exact keeps_pure h nofun
  | some mergeCommit =>
      refine keeps_bind (keeps_asks h) ?_
      intro relation w₂ hw₂ hasked
      dsimp only
      split_ifs with hcontains
      · refine keeps_pure hw₂ ?_
        intro commit hcommit
        cases hcommit
        exact ⟨repository, hregistered, rfl, relation, hcontains, hasked⟩
      · exact keeps_pure hw₂ nofun
      · exact keeps_pure hw₂ nofun

theorem checksDelivery_open (repository : RegisteredRepository) (pullRequest : GitHubPullRequest)
    (late : Bool) (checks : RequiredChecksEvaluation) (reviews : ReviewSummary) :
    (checksDelivery deps repository pullRequest late checks reviews).mergeCommit? = none := by
  unfold checksDelivery
  dsimp only
  split
  · rfl
  · rfl
  · split_ifs <;> rfl
  · rfl

theorem keeps_observeOpen {repository : RegisteredRepository} {pullRequest : GitHubPullRequest}
    {late : Bool} (h : Asking w₀ w₁ w) :
    (observeOpen deps repository pullRequest late).Keeps (serves services writer)
      (Asking w₀ w₁) (fun result _ => result.1.mergeCommit? = none) w := by
  refine keeps_bind (keeps_asks h) ?_
  intro policy w₂ hw₂ _
  refine keeps_bind (keeps_asks hw₂) ?_
  intro reported w₃ hw₃ _
  refine keeps_bind (keeps_asks hw₃) ?_
  intro submitted w₄ hw₄ _
  exact keeps_pure hw₄ (checksDelivery_open _ _ _ _ _)

/-- A unit that an observation finds merged was found on its base branch. -/
theorem keeps_observePullRequest {unit : WorkUnitRow} {branch pushedCommit : String}
    {repository : RegisteredRepository} {pullRequest : GitHubPullRequest} {now : Instant}
    (hregistered : repository ∈ deps.registry) (hname : repository.name = unit.repository)
    (h : Asking w₀ w₁ w) :
    (observePullRequest deps unit branch pushedCommit repository pullRequest now).Keeps
      (serves services writer) (Asking w₀ w₁)
      (fun observed w' => observed.unit = unit ∧
        ConfirmedBy deps w₀ unit.repository observed.delivery w') w := by
  unfold observePullRequest
  dsimp only
  cases identityProblem branch repository pullRequest with
  | some problem => exact keeps_pure h ⟨rfl, nofun⟩
  | none =>
      refine keeps_bind (keeps_containsPushed h) ?_
      intro contains w₂ hw₂ _
      split_ifs
      · exact keeps_pure hw₂ ⟨rfl, nofun⟩
      · exact keeps_pure hw₂ ⟨rfl, nofun⟩
      · refine keeps_bind (keeps_observeMerged hregistered hw₂) ?_
        intro delivery w₃ hw₃ hconfirmed
        split_ifs
        · exact keeps_pure hw₃ ⟨rfl, nofun⟩
        · exact keeps_pure hw₃ ⟨rfl, hname ▸ hconfirmed⟩
      · exact keeps_pure hw₂ ⟨rfl, nofun⟩
      · refine keeps_bind (keeps_observeOpen hw₂) ?_
        intro result w₃ hw₃ hopen
        refine keeps_pure hw₃ ⟨rfl, ?_⟩
        intro mergeCommit hcommit
        rw [hopen] at hcommit
        cases hcommit

theorem returns_repository (deps : DeliveryDependencies) (name : String) :
    (deps.repository name).Returns fun repository =>
      repository ∈ deps.registry ∧ repository.name = name := by
  unfold StageDependencies.repository
  split
  · rename_i repository hfound
    exact ⟨List.mem_of_find?_eq_some hfound, by simpa using List.find?_some hfound⟩
  · exact trivial

theorem keeps_observe {unit : WorkUnitRow} (h : Asking w₀ w₁ w) :
    (observe deps unit).Keeps (serves services writer) (Asking w₀ w₁)
      (fun observed w' => observed.unit = unit ∧
        ConfirmedBy deps w₀ unit.repository observed.delivery w') w := by
  have hpure : (deps.repository unit.repository).Keeps (serves services writer) (Asking w₀ w₁)
      (fun _ _ => True) w := by
    unfold StageDependencies.repository
    split
    · exact keeps_pure h trivial
    · exact keeps_throw h
  refine keeps_bind (keeps_returns hpure (returns_repository deps unit.repository)) ?_
  rintro repository w₂ hw₂ ⟨_, hregistered, hname⟩
  split
  · refine keeps_bind (keeps_asks hw₂) ?_
    intro pullRequest w₃ hw₃ _
    refine keeps_bind (keeps_asks hw₃) ?_
    intro now w₄ hw₄ _
    exact keeps_observePullRequest hregistered hname hw₄
  · exact keeps_pure hw₂ ⟨rfl, nofun⟩

end Observe

/-! ## All observations -/

section Round

variable {ω : Type} {services : Services ω} {writer : StageWriter} {deps : DeliveryDependencies}
  {taskId : TaskId} {units done : List WorkUnitRow} {results : List ObservedUnit}
  {w₀ w₁ w : StageWorld ω}

theorem unitState_of_merged {delivery : UnitDelivery} (h : delivery.mergeCommit?.isSome) :
    delivery.unitState = completed := by
  cases delivery with
  | merged _ _ => rfl
  | _ => cases h

/-- If the result is that the unit is merged, its row says so. -/
def WrittenBy (deps : DeliveryDependencies) (taskId : TaskId) (w₀ w : StageWorld ω)
    (unit : WorkUnitRow) (observed : ObservedUnit) : Prop :=
  observed.delivery.mergeCommit?.isSome → ∃ row,
    w.tables.taskWorkUnits.find? (taskId, unit.repository) = some row ∧
      MergedUnit deps (w₀.since w) row

/-- The loop has observed the units `done`, of those that were read. -/
structure Observed (deps : DeliveryDependencies) (taskId : TaskId) (w₀ : StageWorld ω)
    (units done : List WorkUnitRow) (results : List ObservedUnit) (w : StageWorld ω) : Prop where
  started : w₀.journal.length ≤ w.journal.length
  /-- No unit has been added. -/
  known : ∀ row ∈ w.tables.getWorkUnits taskId, ∃ unit ∈ units, unit.repository = row.repository
  written : List.Forall₂ (WrittenBy deps taskId w₀ w) done results

theorem Observed.asking (h : Observed deps taskId w₀ units done results w₁)
    (hasking : Asking w₀ w₁ w) : Observed deps taskId w₀ units done results w where
  started := hasking.started
  known := by
    rw [hasking.tables]
    exact h.known
  written := by
    refine h.written.imp ?_
    intro unit observed hwritten hmerged
    obtain ⟨row, hrow, hunit⟩ := hwritten hmerged
    rw [hasking.tables]
    exact ⟨row, hrow, hunit.mono hasking.journal⟩

/-- The record of one observation: the row says what was observed, and the rows of the units
before it stay. -/
theorem Observed.recorded {unit row : WorkUnitRow} {observed : ObservedUnit}
    (h : Observed deps taskId w₀ units done results w) (hwriter : writer.taskId = taskId)
    (hnew : ∀ other ∈ done, other.repository ≠ unit.repository)
    (hconfirmed : ConfirmedBy deps w₀ unit.repository observed.delivery w)
    (hrow : w.tables.taskWorkUnits.find? (writer.taskId, unit.repository) = some row) :
    Observed deps taskId w₀ units (done ++ [unit]) (results ++ [observed])
      (w.wrote writer (.recordWorkUnitDelivery unit.repository (observedUpdate observed))
        { w.tables with
          taskWorkUnits := w.tables.taskWorkUnits.put (row.delivered (observedUpdate observed)) })
    where
  started := by
    have hstarted := h.started
    rw [StageWorld.wrote_journal, List.length_append]
    omega
  known := by
    intro found hfound
    rw [StageTables.mem_getWorkUnits, StageWorld.wrote_tables, Table.mem_put] at hfound
    obtain ⟨⟨rfl, before, hbefore, hkey⟩ | ⟨hold, _⟩, htask⟩ := hfound
    · -- The row was there before, under the same key.
      have hrowMem := Table.mem_of_find? hrow
      exact h.known row (StageTables.mem_getWorkUnits.mpr ⟨hrowMem, htask⟩)
    · exact h.known found (StageTables.mem_getWorkUnits.mpr ⟨hold, htask⟩)
  written := by
    have hkey : row.unit = (taskId, unit.repository) := by
      rw [← hwriter]
      exact Table.key_of_find? hrow
    have hfound := Table.find?_put_self (r := row.delivered (observedUpdate observed))
      (show w.tables.taskWorkUnits.find? row.unit = some row by rw [hkey, ← hwriter]; exact hrow)
    rw [row.delivered_unit, hkey] at hfound
    have hmore : ∀ entry ∈ w₀.since w, entry ∈ w₀.since (w.wrote writer
        (.recordWorkUnitDelivery unit.repository (observedUpdate observed))
        { w.tables with
          taskWorkUnits := w.tables.taskWorkUnits.put (row.delivered (observedUpdate observed)) }) :=
      fun entry hentry => mem_since_of_append (w.wrote_journal) hentry
    refine List.rel_append ?_ (.cons ?_ .nil)
    · refine ((List.forall₂_and_left _ _).mpr ⟨hnew, h.written⟩).imp ?_
      rintro other result ⟨hne, hwritten⟩ hmerged
      obtain ⟨before, hbefore, hunit⟩ := hwritten hmerged
      refine ⟨before, ?_, hunit.mono hmore⟩
      have hother : (taskId, other.repository) ≠
          (row.delivered (observedUpdate observed)).unit := by
        rw [row.delivered_unit, hkey]
        intro hsame
        exact hne (congrArg Prod.snd hsame)
      exact (Table.find?_put_of_ne hother).trans hbefore
    · intro hmerged
      refine ⟨_, hfound, ?_⟩
      obtain ⟨mergeCommit, hcommit⟩ := Option.isSome_iff_exists.mp hmerged
      refine ⟨unitState_of_merged hmerged, mergeCommit, hcommit, ?_⟩
      have hname : (row.delivered (observedUpdate observed)).repository = unit.repository :=
        congrArg Prod.snd hkey
      rw [hname]
      exact (hconfirmed mergeCommit hcommit).mono hmore

/-- The observations end early without an advance, or with a result. -/
def EndsWith {γ : Type} (Q : γ → Prop) : Except StageOutcome γ → Prop
  | .error early => ∀ outcome, early ≠ .advance outcome
  | .ok result => Q result

variable {task : Task}

/-- One round: the unit is observed, and its row is written. -/
theorem keeps_observeUnit {unit : WorkUnitRow} {rest : List WorkUnitRow}
    (hwriter : writer.taskId = taskId) (hunits : units = done ++ unit :: rest)
    (hdistinct : (units.map (·.repository)).Nodup)
    (h : Observed deps taskId w₀ units done results w) :
    (observeUnit deps unit).Keeps (serves services writer) (fun _ => True)
      (fun result w' => EndsWith (fun observed =>
        Observed deps taskId w₀ units (done ++ [unit]) (results ++ [observed]) w') result) w := by
  -- The rows of the rounds before are of other repositories and stay.
  have hnew : ∀ other ∈ done, other.repository ≠ unit.repository := by
    intro other hother hsame
    rw [hunits, List.map_append, List.map_cons] at hdistinct
    have hdisjoint := List.disjoint_of_nodup_append hdistinct
    apply hdisjoint (List.mem_map_of_mem hother)
    rw [hsame]
    exact List.mem_cons_self
  have hstart : Asking w₀ w w := ⟨rfl, h.started, fun _ hentry => hentry⟩
  unfold observeUnit
  refine keeps_bind (R := fun _ w' => Asking w₀ w w')
    (keeps_mono (fun _ _ => trivial) (fun _ _ hasking _ => hasking) (keeps_asks hstart)) ?_
  intro aborted w₂ _ hw₂
  split_ifs
  · exact keeps_pure trivial nofun
  · refine keeps_bind (R := fun observed w' => Asking w₀ w w' ∧
      ConfirmedBy deps w₀ unit.repository observed.delivery w')
      (keeps_mono (fun _ _ => trivial) (fun _ _ hasking hobserved => ⟨hasking, hobserved.2⟩)
        (keeps_observe hw₂)) ?_
    rintro observed w₃ _ ⟨hw₃, hconfirmed⟩
    refine keeps_bind (keeps_database (Q := fun _ w' =>
      Observed deps taskId w₀ units (done ++ [unit]) (results ++ [observed]) w') trivial ?_) ?_
    · intro holds now tables value hperform
      refine ⟨trivial, ?_⟩
      cases committed hperform with
      | kept hobserves => cases hobserves
      | delivered row _ _ hrow => exact (h.asking hw₃).recorded hwriter hnew hconfirmed hrow
    · intro _ w₄ _ hw₄
      exact keeps_pure trivial hw₄

theorem observed_of_mem {R : WorkUnitRow → ObservedUnit → Prop} {unit : WorkUnitRow}
    (h : List.Forall₂ R done results) (hunit : unit ∈ done) :
    ∃ observed ∈ results, R unit observed := by
  induction h with
  | nil => cases hunit
  | @cons other observed _ _ hfirst _ ih =>
      rcases List.mem_cons.mp hunit with rfl | hrest
      · exact ⟨observed, List.mem_cons_self, hfirst⟩
      · obtain ⟨found, hmem, hfound⟩ := ih hrest
        exact ⟨found, List.mem_cons_of_mem _ hmem, hfound⟩

/-- When every unit was found merged, all rows say so. -/
theorem Observed.allMerged (h : Observed deps taskId w₀ units units results w)
    (hsome : units ≠ []) (hmerged : ∀ observed ∈ results, observed.delivery.mergeCommit?.isSome) :
    AllMerged deps taskId (w₀.since w) w.tables := by
  have hrows : ∀ unit ∈ units, ∃ row,
      w.tables.taskWorkUnits.find? (taskId, unit.repository) = some row ∧
        MergedUnit deps (w₀.since w) row := by
    intro unit hunit
    obtain ⟨observed, hobserved, hwritten⟩ := observed_of_mem h.written hunit
    exact hwritten (hmerged observed hobserved)
  constructor
  · obtain ⟨unit, hunit⟩ := List.exists_mem_of_ne_nil _ hsome
    obtain ⟨row, hrow, _⟩ := hrows unit hunit
    have hmem : row ∈ w.tables.getWorkUnits taskId :=
      StageTables.mem_getWorkUnits.mpr
        ⟨Table.mem_of_find? hrow, congrArg Prod.fst (Table.key_of_find? hrow)⟩
    exact List.ne_nil_of_mem hmem
  · intro row hrow
    obtain ⟨unit, hunit, hname⟩ := h.known row hrow
    obtain ⟨found, hfound, hsays⟩ := hrows unit hunit
    obtain ⟨hmem, htask⟩ := StageTables.mem_getWorkUnits.mp hrow
    have hkey : row.unit = (taskId, unit.repository) := by
      unfold WorkUnitRow.unit
      rw [htask, hname]
    rw [← hkey, Table.find?_of_mem hmem] at hfound
    cases hfound
    exact hsays

end Round

/-! ## The decision -/

section Decision

variable {ω : Type} {services : Services ω} {writer : StageWriter} {deps : DeliveryDependencies}
  {task : Task} {taskId : TaskId} {w₀ w : StageWorld ω}

/-- A result of the stage, and what the rows say of it. -/
def Completing (deps : DeliveryDependencies) (taskId : TaskId) (w₀ : StageWorld ω)
    (outcome : StageOutcome) (w : StageWorld ω) : Prop :=
  ∀ advance, outcome = .advance advance → advance.toState = completed →
    AllMerged deps taskId (w₀.since w) w.tables

/-- The outcome leaves the task incomplete. -/
def StageOutcome.Incomplete (outcome : StageOutcome) : Prop :=
  ∀ advance, outcome = .advance advance → advance.toState ≠ completed

theorem incomplete_manualIntervention (message reason : String) :
    (manualIntervention message reason).Incomplete := by
  intro advance hadvance
  cases hadvance
  exact nofun

theorem keeps_incomplete {procedure : StageProc StageOutcome}
    (h : procedure.Returns StageOutcome.Incomplete) :
    procedure.Keeps (serves services writer) (fun _ => True) (Completing deps taskId w₀) w := by
  rw [keeps_iff]
  intro ending w' hexec
  refine ⟨trivial, ?_⟩
  intro outcome hreturned advance hadvance hcompleted
  subst hreturned
  exact absurd hcompleted (hexec.returns h advance hadvance)

theorem incomplete_advanceObserved {observed : List ObservedUnit} {toState : TaskState}
    {reason : String} (h : toState ≠ completed) :
    (advanceObserved observed toState reason).Returns StageOutcome.Incomplete := by
  refine returns_rest ?_
  intro _ advance hadvance
  cases hadvance
  exact h

theorem spares_syncLinearComment (input : LinearCommentInput) :
    (syncLinearComment deps task input).Only fun call => call.sparesUnits = true := by
  unfold syncLinearComment
  split_ifs
  · exact trivial
  · refine only_bind (only_idempotentOperation rfl ?_ fun _ _ => rfl) fun _ => trivial
    intro created
    refine only_tryCatch (only_bind ?_ ?_) fun _ => trivial
    · unfold existingComment
      split_ifs
      · exact trivial
      · exact only_bind (only_service.mpr rfl) fun _ => trivial
    · rintro (_ | comment)
      · exact only_bind (only_service.mpr rfl) fun _ => trivial
      · exact trivial

theorem spares_advanceObserved (observed : List ObservedUnit) (toState : TaskState)
    (reason : String) :
    (advanceObserved observed toState reason).Only fun call => call.sparesUnits = true := by
  refine only_bind (only_bind (only_database.mpr rfl) ?_) fun _ => trivial
  intro attempt
  exact only_database.mpr rfl

/-- What the calls after the observations leave is what the observations wrote. -/
theorem keeps_spares {α : Type} {procedure : StageProc α}
    (honly : procedure.Only fun call => call.sparesUnits = true)
    (h : AllMerged deps taskId (w₀.since w) w.tables) :
    procedure.Keeps (serves services writer)
      (fun w' => AllMerged deps taskId (w₀.since w') w'.tables) (fun _ _ => True) w := by
  refine keeps_of_only ?_ honly h
  intro w₁ call answer w₂ hspares hserves hmerged
  exact hmerged.serves hspares hserves

theorem keeps_decideMerged {observed : List ObservedUnit}
    (h : AllMerged deps taskId (w₀.since w) w.tables) :
    (decideMerged deps task observed).Keeps (serves services writer) (fun _ => True)
      (Completing deps taskId w₀) w := by
  unfold decideMerged
  split_ifs
  · exact keeps_incomplete (incomplete_advanceObserved (by decide))
  · have honly : ∀ (input : LinearCommentInput) (reason : String),
        (do
          let _ ← syncLinearComment deps task input
          advanceObserved observed completed reason).Only
            fun call : StageCall => call.sparesUnits = true := by
      intro input reason
      exact only_bind (spares_syncLinearComment input) fun _ => spares_advanceObserved _ _ _
    refine keeps_mono (fun _ _ => trivial) ?_ (keeps_spares (honly _ _) h)
    intro outcome w' hmerged _ _ _ _
    exact hmerged

theorem keeps_decideDelivery {observed : List ObservedUnit}
    (h : (∀ entry ∈ observed, entry.delivery.mergeCommit?.isSome) →
      AllMerged deps taskId (w₀.since w) w.tables) :
    (decideDelivery deps task observed).Keeps (serves services writer) (fun _ => True)
      (Completing deps taskId w₀) w := by
  unfold decideDelivery
  dsimp only
  split_ifs with _ hall
  · refine keeps_incomplete (returns_rest fun _ => returns_rest fun _ => ?_)
    exact incomplete_manualIntervention _ _
  · exact keeps_decideMerged (h (List.all_eq_true.mp hall))
  · refine keeps_incomplete ?_
    unfold decideReviewable
    split_ifs
    · exact returns_rest fun _ => nofun
    · exact returns_rest fun _ => incomplete_advanceObserved (by decide)
  · exact keeps_incomplete (incomplete_advanceObserved (by decide))
  · exact keeps_incomplete (returns_rest fun _ => nofun)

/-- A valid contract declares a repository. -/
theorem joinNul_declaredRepositories {contract : PlanningIssue}
    (h : planningIssueFindings contract = []) : joinNul (declaredRepositories contract) ≠ "" := by
  unfold planningIssueFindings at h
  simp only [List.append_eq_nil_iff, issueIf_eq_nil_iff, decide_eq_false_iff_not] at h
  have hsome : declaredRepositories contract ≠ [] := by
    intro hnone
    have hlength := congrArg List.length hnone
    rw [declaredRepositories, List.length_insertionSort, List.length_map, List.length_nil]
      at hlength
    omega
  obtain ⟨name, names, hnames⟩ := List.exists_cons_of_ne_nil hsome
  have hname : name ≠ "" := by
    have hmem : name ∈ declaredRepositories contract := hnames ▸ List.mem_cons_self
    rw [declaredRepositories, List.mem_insertionSort] at hmem
    obtain ⟨repository, _, rfl⟩ := List.mem_map.mp hmem
    cases repository <;> decide
  rw [hnames, joinNul]
  cases names with
  | nil => rwa [String.intercalate_singleton]
  | cons other names =>
      rw [String.intercalate_cons_cons]
      intro hempty
      have hfirst := (String.append_eq_empty_iff.mp hempty).1
      exact hname (String.append_eq_empty_iff.mp hfirst).1

/-- `COMPLETED` is decided in a world where the rows of all units are merged, each on the
evidence of this observation. -/
theorem keeps_observationStage (hwriter : writer.taskId = taskId) :
    (observationStage deps task).Keeps (serves services writer) (fun _ => True)
      (Completing deps taskId w) w := by
  refine keeps_tryCatch ?_ ?_
  · refine keeps_bind (R := fun contract w' => w' = w ∧ planningIssueFindings contract = []) ?_ ?_
    · unfold validatedContract
      split_ifs with hvalid
      · exact keeps_pure trivial ⟨rfl, hvalid⟩
      · exact keeps_throw trivial
    rintro contract w' _ ⟨hsame, hvalid⟩
    rw [hsame]
    refine keeps_bind (keeps_database (Q := fun units w' =>
      units = w'.tables.getWorkUnits taskId ∧ w.journal.length ≤ w'.journal.length) trivial ?_) ?_
    · intro holds now tables value hperform
      cases hperform
      refine ⟨trivial, ?_, ?_⟩
      · rw [hwriter]
        rfl
      · rw [StageWorld.wrote_journal, List.length_append]
        omega
    rintro units w₁ _ ⟨hunits, hstarted⟩
    split_ifs with hdeclared
    · exact keeps_incomplete (incomplete_manualIntervention _ _)
    -- A valid contract names a repository, so the units that agree with it are not empty.
    have hsome : units ≠ [] := by
      intro hnone
      rw [hnone] at hdeclared
      exact joinNul_declaredRepositories hvalid (by simpa [joinNul] using hdeclared)
    have hdistinct : (units.map (·.repository)).Nodup := by
      rw [hunits]
      exact nodup_getWorkUnits _ _
    refine keeps_bind (R := fun result w' =>
      EndsWith (fun results => Observed deps taskId w units units results w') result) ?_ ?_
    -- The loop over the units: each round adds the evidence of its unit.
    · refine keeps_collect (fun done results w' => Observed deps taskId w units done results w')
        ?_ ?_ trivial ?_
      · intro done unit rest results w₂ heq _ hobserved
        refine keeps_mono (fun _ _ => trivial) ?_
          (keeps_observeUnit hwriter heq hdistinct hobserved)
        rintro (early | observed) w₃ _ hround
        · exact hround
        · exact hround
      · intro results w₂ _ hobserved
        exact hobserved
      · refine ⟨hstarted, ?_, .nil⟩
        intro row hrow
        exact ⟨row, hunits ▸ hrow, rfl⟩
    · rintro (early | results) w₂ _ hends
      · refine keeps_pure trivial ?_
        intro advance hadvance
        exact absurd hadvance (hends advance)
      · refine keeps_decideDelivery ?_
        intro hmerged
        exact hends.allMerged hsome hmerged
  -- A failed call never completes the task.
  · intro failure w₁ _
    refine keeps_incomplete (returns_bind (returns_classifyDeliveryError
      (P := StageOutcome.Incomplete) (fun _ => nofun) incomplete_manualIntervention failure) ?_)
    rintro ⟨outcome, category⟩ hincomplete
    exact hincomplete

end Decision

end Orchestrator
