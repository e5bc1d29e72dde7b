import Orchestrator.Intake.DependencyOrder
import Orchestrator.Intake.LinearDiscovery

/-! # Discovering Linear issues

`discoverLinearIssues` (`intake/linear-discovery.ts`): which issues of a Linear poll
are eligible, and what becomes of them when one of them is finished. How a contract is
found in a description and which shape it has is a parameter.
-/

namespace Orchestrator

/-- `LinearIssue` of `providers/linear.ts`. -/
structure LinearIssue where
  id : String
  identifier : String
  description : String
  branchName : Option String
  createdAt : String
  stateType : String
  labels : List String
  blockedByIdentifiers : List String
  projectDescription : Option String
  deriving DecidableEq

/-- `extractContract`, the shapes of the two schemas and the text of a failed check. -/
structure ContractFormat where
  Contract : Type
  extractContract : (description heading : String) → Except String Contract
  /-- The shape of `{ ...contract, source }`. -/
  issueShape : Contract → IssueSource → Except String PlanningIssue
  projectShape : Contract → Except String PlanningProject
  message : List SchemaIssue → String

/-- The text, unless it is missing or empty. -/
def presentText (text : Option String) (otherwise : String) : Except String String :=
  match text with
  | none => .error otherwise
  | some text => if text = "" then .error otherwise else .ok text

/-- `planningIssueSchema.parse({ ...contract, source })`. -/
def parseIssue (format : ContractFormat) (contract : format.Contract) (source : IssueSource) :
    Except String PlanningIssue := do
  let issue ← format.issueShape contract source
  if planningIssueFindings issue = [] then .ok issue
  else .error (format.message (planningIssueFindings issue))

/-- The project contract of an issue that names a project. -/
def hydrateProject (format : ContractFormat) (issue : LinearIssue) (projectKey : String) :
    Except String PlanningProject := do
  let description ← presentText issue.projectDescription
    "Linear issue project has no description"
  let contract ← format.extractContract description "AI Orchestrator Project Contract"
  let project ← format.projectShape contract
  if project.key = projectKey then .ok project
  else .error "Project contract key does not match issue projectKey"

/-- The body of the `try` block: the hydrated issue and the project it sets. -/
def hydrateIssue (format : ContractFormat) (issue : LinearIssue) :
    Except String (PlanningIssue × Option PlanningProject) := do
  let branchName ← presentText issue.branchName "Linear issue has no branchName"
  let contract ← format.extractContract issue.description "AI Orchestrator Contract"
  let hydrated ← parseIssue format contract
    ⟨issue.id, issue.identifier, issue.createdAt, branchName, issue.blockedByIdentifiers⟩
  match hydrated.projectKey with
  | none => .ok (hydrated, none)
  | some projectKey => do
      let project ← hydrateProject format issue projectKey
      return (hydrated, some project)

/-- Why an issue is not looked at, if it is not. -/
def ignoredReason (requiredLabels excludedLabels : List String) (issue : LinearIssue) :
    Option String :=
  if issue.stateType = "completed" ∨ issue.stateType = "canceled" then
    some s!"Linear state is {issue.stateType}"
  else if !requiredLabels.all (issue.labels.contains ·) then some "Missing required label"
  else if excludedLabels.any (issue.labels.contains ·) then some "Has excluded label"
  else none

/-- The local lists and the `projects` map of `discoverLinearIssues`. -/
structure Discovery where
  report : IntakeReport := { eligible := [] }
  projects : List (String × PlanningProject) := []

/-- One turn of the loop over the issues. -/
def discoverIssue (format : ContractFormat) (requiredLabels excludedLabels : List String)
    (state : Discovery) (issue : LinearIssue) : Discovery :=
  let report := state.report
  match ignoredReason requiredLabels excludedLabels issue with
  | some reason =>
      { state with report := { report with
          ignored := report.ignored ++ [⟨issue.identifier, reason⟩] } }
  | none => match hydrateIssue format issue with
    | .ok (hydrated, none) =>
        { state with report := { report with eligible := report.eligible ++ [hydrated] } }
    | .ok (hydrated, some project) =>
        { report := { report with eligible := report.eligible ++ [hydrated] }
          projects := setEntry state.projects project.key project }
    | .error reason =>
        { state with report := { report with
            quarantined := report.quarantined ++ [⟨issue.id, issue.identifier, reason,
              .description issue.description issue.branchName⟩] } }

/-- An eligible issue of a backlog that failed its checks. -/
def quarantineEligible (reason : String) (issue : PlanningIssue) : QuarantineCandidate where
  id := (issue.source.map (·.linearIssueId)).getD issue.draftKey
  identifier := (issue.source.map (·.linearIdentifier)).getD issue.draftKey
  reason := reason
  payload := .contract issue

def discoverLinearIssues (format : ContractFormat) (issues : List LinearIssue)
    (requiredLabels excludedLabels : List String) : IntakeReport :=
  let found := issues.foldl (discoverIssue format requiredLabels excludedLabels) {}
  let backlog : PlanningBacklog := ⟨found.projects.map (·.2), found.report.eligible⟩
  let findings := planningBacklogFindings backlog
  if findings = [] then found.report
  else
    { eligible := []
      quarantined := found.report.quarantined ++
        found.report.eligible.map (quarantineEligible (format.message findings))
      ignored := found.report.ignored }

/-- The issue as Linear shows it once it is done. -/
def LinearIssue.finished (issue : LinearIssue) : LinearIssue :=
  { issue with stateType := "completed" }

/-! ## The loop over the issues -/

/-- The issue is looked at and hydrated, with the project it sets. -/
def eligibleAs (format : ContractFormat) (requiredLabels excludedLabels : List String)
    (issue : LinearIssue) : Option (PlanningIssue × Option PlanningProject) :=
  if (ignoredReason requiredLabels excludedLabels issue).isSome then none
  else (hydrateIssue format issue).toOption

theorem eligibleAs_finished (format : ContractFormat) (requiredLabels excludedLabels : List String)
    (issue : LinearIssue) :
    eligibleAs format requiredLabels excludedLabels issue.finished = none := by
  simp [eligibleAs, ignoredReason, LinearIssue.finished]

/-- What the loop has found, for the hydrated issues so far. -/
structure Discovered (state : Discovery)
    (found : List (PlanningIssue × Option PlanningProject)) : Prop where
  eligible : state.report.eligible = found.map (·.1)
  entries : ∀ entry ∈ state.projects, entry.2.key = entry.1
  nodup : (state.projects.map (·.1)).Nodup
  keys : ∀ key, key ∈ state.projects.map (·.1) ↔
    ∃ pair ∈ found, ∃ project ∈ pair.2, project.key = key

theorem Discovered.ignored {state : Discovery}
    {found : List (PlanningIssue × Option PlanningProject)} (h : Discovered state found)
    (quarantined : List QuarantineCandidate) (ignored : List IgnoredIssue) :
    Discovered { state with report := { state.report with quarantined, ignored } } found :=
  ⟨h.eligible, h.entries, h.nodup, h.keys⟩

theorem Discovered.withoutProject {state : Discovery}
    {found : List (PlanningIssue × Option PlanningProject)} (h : Discovered state found)
    (hydrated : PlanningIssue) :
    Discovered { state with report := { state.report with
      eligible := state.report.eligible ++ [hydrated] } } (found ++ [(hydrated, none)]) := by
  refine ⟨by simp [h.eligible], h.entries, h.nodup, fun key => ?_⟩
  rw [h.keys key]
  simp

theorem Discovered.withProject {state : Discovery}
    {found : List (PlanningIssue × Option PlanningProject)} (h : Discovered state found)
    (hydrated : PlanningIssue) (project : PlanningProject) :
    Discovered
      { report := { state.report with eligible := state.report.eligible ++ [hydrated] }
        projects := setEntry state.projects project.key project }
      (found ++ [(hydrated, some project)]) := by
  constructor
  · simp [h.eligible]
  · intro entry hentry
    rcases mem_setEntry hentry with hold | rfl
    · exact h.entries entry hold
    · rfl
  · show ((setEntry state.projects project.key project).map (·.1)).Nodup
    rw [map_fst_setEntry]
    split_ifs with hmem
    · exact h.nodup
    · exact List.nodup_append.mpr ⟨h.nodup, by simp, fun other hother _ hnew heq =>
        hmem (by simpa [heq, List.mem_singleton.mp hnew] using hother)⟩
  · intro key
    have hkeys : key ∈ (setEntry state.projects project.key project).map (·.1) ↔
        key ∈ state.projects.map (·.1) ∨ key = project.key := by
      rw [map_fst_setEntry]
      split_ifs with hmem
      · refine ⟨.inl, ?_⟩
        rintro (hold | rfl)
        · exact hold
        · exact hmem
      · rw [List.mem_append, List.mem_singleton]
    rw [show key ∈ _ ↔ _ from hkeys, h.keys key]
    simp [eq_comm]

theorem discovered_step {format : ContractFormat} {requiredLabels excludedLabels : List String}
    {state : Discovery} {found : List (PlanningIssue × Option PlanningProject)}
    (h : Discovered state found) (issue : LinearIssue) :
    Discovered (discoverIssue format requiredLabels excludedLabels state issue)
      (found ++ (eligibleAs format requiredLabels excludedLabels issue).toList) := by
  unfold discoverIssue eligibleAs
  cases ignoredReason requiredLabels excludedLabels issue with
  | some reason => simpa using h.ignored _ _
  | none =>
      rcases hydrateIssue format issue with reason | ⟨hydrated, _ | project⟩
      · simpa [Except.toOption] using h.ignored _ _
      · simpa [Except.toOption] using h.withoutProject hydrated
      · simpa [Except.toOption] using h.withProject hydrated project

theorem discovered_fold {format : ContractFormat} {requiredLabels excludedLabels : List String}
    (issues : List LinearIssue) {state : Discovery}
    {found : List (PlanningIssue × Option PlanningProject)} (h : Discovered state found) :
    Discovered (issues.foldl (discoverIssue format requiredLabels excludedLabels) state)
      (found ++ issues.filterMap (eligibleAs format requiredLabels excludedLabels)) := by
  induction issues generalizing state found with
  | nil => simpa using h
  | cons issue issues ih =>
      have hnext := ih (@discovered_step format requiredLabels excludedLabels _ _ h issue)
      rw [List.append_assoc] at hnext
      cases helig : eligibleAs format requiredLabels excludedLabels issue with
      | none => simpa [helig] using hnext
      | some pair => simpa [helig] using hnext

theorem discovered_start : Discovered {} [] where
  eligible := rfl
  entries := fun _ h => by cases h
  nodup := List.nodup_nil
  keys := by simp

theorem exists_of_bind_eq_ok {α β : Type} {first : Except String α} {rest : α → Except String β}
    {result : β} (h : (first >>= rest) = .ok result) :
    ∃ value, first = .ok value ∧ rest value = .ok result := by
  cases first with
  | error reason => cases h
  | ok value => exact ⟨value, rfl, h⟩

theorem key_of_hydrateProject {format : ContractFormat} {issue : LinearIssue}
    {projectKey : String} {project : PlanningProject}
    (h : hydrateProject format issue projectKey = .ok project) : project.key = projectKey := by
  rcases exists_of_bind_eq_ok h with ⟨description, -, h⟩
  rcases exists_of_bind_eq_ok h with ⟨contract, -, h⟩
  rcases exists_of_bind_eq_ok h with ⟨parsed, -, h⟩
  split_ifs at h with hkey
  rcases Except.ok.inj h with rfl
  exact hkey

/-- A hydrated issue names the project it sets. -/
theorem projectKey_of_hydrateIssue {format : ContractFormat} {issue : LinearIssue}
    {pair : PlanningIssue × Option PlanningProject}
    (h : hydrateIssue format issue = .ok pair) : pair.1.projectKey = pair.2.map (·.key) := by
  rcases exists_of_bind_eq_ok h with ⟨branchName, -, h⟩
  rcases exists_of_bind_eq_ok h with ⟨contract, -, h⟩
  rcases exists_of_bind_eq_ok h with ⟨hydrated, -, h⟩
  cases hproject : hydrated.projectKey with
  | none =>
      rw [hproject] at h
      rcases Except.ok.inj h with rfl
      exact hproject
  | some projectKey =>
      rw [hproject] at h
      rcases exists_of_bind_eq_ok h with ⟨project, hfound, h⟩
      rcases Except.ok.inj h with rfl
      rw [hproject, Option.map_some, key_of_hydrateProject hfound]

theorem projectKey_of_eligibleAs {format : ContractFormat}
    {requiredLabels excludedLabels : List String} {issue : LinearIssue}
    {pair : PlanningIssue × Option PlanningProject}
    (h : eligibleAs format requiredLabels excludedLabels issue = some pair) :
    pair.1.projectKey = pair.2.map (·.key) := by
  unfold eligibleAs at h
  split_ifs at h
  cases hhydrated : hydrateIssue format issue with
  | error reason =>
      rw [hhydrated] at h
      cases h
  | ok hydrated =>
      rw [hhydrated] at h
      rcases Option.some.inj h with rfl
      exact projectKey_of_hydrateIssue hhydrated

/-! ## Without one issue -/

theorem sortedText_relations {front back : List PlanningIssue} {finished issue : PlanningIssue}
    (h : RelationsMatch (front ++ finished :: back) issue)
    (hfree : finished.draftKey ∉ issue.blockedByDraftKeys) :
    RelationsMatch (front ++ back) issue := by
  have hsame : ∀ key ∈ issue.blockedByDraftKeys,
      identifierOfKey (front ++ back) key = identifierOfKey (front ++ finished :: back) key := by
    intro key hkey
    have hne : finished.draftKey ≠ key := fun h => hfree (h ▸ hkey)
    unfold identifierOfKey
    simp [List.find?_append, hne]
  intro source hsource
  rw [List.filterMap_congr hsame]
  exact h source hsource

theorem hasBlockedByCycle_mono {issues all : List PlanningIssue} (hsub : issues ⊆ all)
    (h : HasBlockedByCycle issues) : HasBlockedByCycle all := by
  rcases h with ⟨key, hcycle⟩
  have hblocks : ∀ blocker blocked, Blocks issues blocker blocked → Blocks all blocker blocked := by
    rintro blocker blocked ⟨issue, hmem, hkey, hblocker⟩
    exact ⟨issue, hsub hmem, hkey, hblocker⟩
  exact ⟨key, Relation.TransGen.mono hblocks _ _ hcycle⟩

/-- Without an issue that no other lists as a blocker, the checks still pass. -/
theorem BacklogChecks.without {projects projects' : List PlanningProject}
    {front back : List PlanningIssue} {finished : PlanningIssue}
    (h : BacklogChecks ⟨projects, front ++ finished :: back⟩) (hothers : front ++ back ≠ [])
    (hnodup : (projects'.map (·.key)).Nodup)
    (hprojects : ∀ issue ∈ front ++ back, ∀ key ∈ issue.projectKey, key ∈ projects'.map (·.key))
    (hfree : ∀ issue ∈ front ++ back, finished.draftKey ∉ issue.blockedByDraftKeys) :
    BacklogChecks ⟨projects', front ++ back⟩ := by
  have hsub : front ++ back ⊆ front ++ finished :: back := by
    intro issue hmem
    rcases List.mem_append.mp hmem with hmem | hmem
    · exact List.mem_append_left _ hmem
    · exact List.mem_append_right _ (List.mem_cons_of_mem _ hmem)
  have hkeys : ((front ++ back).map (·.draftKey)).Nodup := by
    have hsublist : (front ++ back).Sublist (front ++ finished :: back) :=
      List.Sublist.append_left (List.sublist_cons_self _ _) _
    exact (hsublist.map _).nodup h.keysNodup
  -- No blocker leaves: the one that goes is listed by none of the others.
  have hknown : ∀ issue ∈ front ++ back, ∀ key ∈ issue.blockedByDraftKeys,
      key ≠ issue.draftKey ∧ key ∈ (front ++ back).map (·.draftKey) := by
    intro issue hmem key hkey
    rcases h.blockersKnown issue (hsub hmem) key hkey with ⟨hself, hin⟩
    have hne : key ≠ finished.draftKey := fun heq => hfree issue hmem (heq ▸ hkey)
    refine ⟨hself, ?_⟩
    simp only [List.map_append, List.map_cons, List.mem_append, List.mem_cons] at hin ⊢
    rcases hin with hin | rfl | hin
    · exact .inl hin
    · exact absurd rfl hne
    · exact .inr hin
  exact {
    nonempty := hothers
    issues := fun issue hmem => h.issues issue (hsub hmem)
    projectsNodup := hnodup
    keysNodup := hkeys
    projectsKnown := hprojects
    hydrated := h.hydrated.imp (fun hnone issue hmem => hnone issue (hsub hmem))
      (fun hall issue hmem => hall issue (hsub hmem))
    blockersNodup := fun issue hmem => h.blockersNodup issue (hsub hmem)
    blockersKnown := hknown
    relations := fun issue hmem =>
      sortedText_relations (h.relations issue (hsub hmem)) (hfree issue hmem)
    acyclic := by
      -- A cycle among the rest is one among all.
      have hall : ¬ HasBlockedByCycle (front ++ finished :: back) := by
        rw [← hasCycle_iff ⟨h.keysNodup, h.blockersKnown⟩, h.acyclic]
        exact Bool.false_ne_true
      rw [← Bool.not_eq_true, hasCycle_iff ⟨hkeys, hknown⟩]
      exact fun hcycle => hall (hasBlockedByCycle_mono hsub hcycle) }

/-- The loop's finds and what the backlog check makes of them. -/
theorem discoverLinearIssues_eligible (format : ContractFormat) (issues : List LinearIssue)
    (requiredLabels excludedLabels : List String) :
    ∃ state, Discovered state
        (issues.filterMap (eligibleAs format requiredLabels excludedLabels)) ∧
      (discoverLinearIssues format issues requiredLabels excludedLabels).eligible =
        if ValidBacklog ⟨state.projects.map (·.2), state.report.eligible⟩ then
          state.report.eligible else [] := by
  have hfold := @discovered_fold format requiredLabels excludedLabels issues _ _ discovered_start
  refine ⟨_, hfold, ?_⟩
  by_cases hvalid : ValidBacklog
      ⟨(issues.foldl (discoverIssue format requiredLabels excludedLabels) {}).projects.map (·.2),
        (issues.foldl (discoverIssue format requiredLabels excludedLabels) {}).report.eligible⟩
  · rw [if_pos hvalid]
    exact congrArg IntakeReport.eligible (if_pos hvalid)
  · rw [if_neg hvalid]
    exact congrArg IntakeReport.eligible (if_neg hvalid)

theorem Discovered.project_keys {state : Discovery}
    {found : List (PlanningIssue × Option PlanningProject)} (h : Discovered state found) :
    (state.projects.map (·.2)).map (·.key) = state.projects.map (·.1) := by
  rw [List.map_map]
  exact List.map_congr_left fun entry hentry => h.entries entry hentry

/-- Every project that a found issue names is in the map. -/
theorem Discovered.projects_known {format : ContractFormat}
    {requiredLabels excludedLabels : List String} {issues : List LinearIssue} {state : Discovery}
    (h : Discovered state (issues.filterMap (eligibleAs format requiredLabels excludedLabels))) :
    ∀ issue ∈ state.report.eligible, ∀ key ∈ issue.projectKey,
      key ∈ (state.projects.map (·.2)).map (·.key) := by
  intro issue hmem key hkey
  rw [h.eligible] at hmem
  rcases List.mem_map.mp hmem with ⟨pair, hpair, rfl⟩
  rcases List.mem_filterMap.mp hpair with ⟨linear, -, heligible⟩
  rw [projectKey_of_eligibleAs heligible] at hkey
  rcases Option.map_eq_some_iff.mp hkey with ⟨project, hproject, rfl⟩
  rw [h.project_keys, h.keys]
  exact ⟨pair, hpair, project, hproject, rfl⟩

/-- The issue of the poll is eligible as this contract. -/
def EligibleAs (format : ContractFormat) (requiredLabels excludedLabels : List String)
    (issue : LinearIssue) (contract : PlanningIssue) : Prop :=
  ∃ project, eligibleAs format requiredLabels excludedLabels issue = some (contract, project)

/-- Finishing an eligible issue keeps every other one eligible exactly when none of them
lists it as a blocker. -/
theorem eligible_after_finish_iff (format : ContractFormat)
    (requiredLabels excludedLabels : List String) (before after : List LinearIssue)
    (issue : LinearIssue) (finished : PlanningIssue)
    (hissue : EligibleAs format requiredLabels excludedLabels issue finished)
    (heligible : finished ∈ (discoverLinearIssues format (before ++ issue :: after) requiredLabels
      excludedLabels).eligible) :
    (∀ other ∈ (discoverLinearIssues format (before ++ issue :: after) requiredLabels
        excludedLabels).eligible, other ≠ finished →
      other ∈ (discoverLinearIssues format (before ++ issue.finished :: after) requiredLabels
        excludedLabels).eligible) ↔
    ∀ other ∈ (discoverLinearIssues format (before ++ issue :: after) requiredLabels
      excludedLabels).eligible, finished.draftKey ∉ other.blockedByDraftKeys := by
  rcases hissue with ⟨project, hissue⟩
  rcases discoverLinearIssues_eligible format (before ++ issue :: after) requiredLabels
    excludedLabels with ⟨state, hstate, hreport⟩
  rcases discoverLinearIssues_eligible format (before ++ issue.finished :: after) requiredLabels
    excludedLabels with ⟨next, hnext, hnextReport⟩
  rw [hreport] at heligible ⊢
  rw [hnextReport]
  have hvalid : ValidBacklog ⟨state.projects.map (·.2), state.report.eligible⟩ := by
    by_contra hinvalid
    rw [if_neg hinvalid] at heligible
    cases heligible
  rw [if_pos hvalid] at heligible ⊢
  have hchecks := validBacklog_iff.mp hvalid
  have hknown := hnext.projects_known
  have hnodup : ((next.projects.map (·.2)).map (·.key)).Nodup := hnext.project_keys ▸ hnext.nodup
  -- The eligible contracts with and without the finished one.
  have hall := hstate.eligible
  have hrest := hnext.eligible
  rw [List.filterMap_append, List.filterMap_cons_some hissue, List.map_append, List.map_cons]
    at hall
  rw [List.filterMap_append, List.filterMap_cons_none
    (eligibleAs_finished format requiredLabels excludedLabels issue), List.map_append] at hrest
  generalize List.map _ (before.filterMap _) = front at hall hrest
  generalize List.map _ (after.filterMap _) = back at hall hrest
  rw [hall] at heligible hchecks ⊢
  rw [hrest] at hknown ⊢
  constructor
  · intro hkept other hother hlists
    have hne : other ≠ finished := by
      rintro rfl
      exact (hchecks.blockersKnown other hother _ hlists).1 rfl
    have hin := hkept other hother hne
    by_cases hnextValid : ValidBacklog ⟨next.projects.map (·.2), front ++ back⟩
    · rw [if_pos hnextValid] at hin
      have hblocker := ((validBacklog_iff.mp hnextValid).blockersKnown other hin _ hlists).2
      have hunique := hchecks.keysNodup
      simp only [List.map_append, List.map_cons, List.mem_append] at hunique hblocker
      rw [List.nodup_middle, List.nodup_cons, List.mem_append] at hunique
      exact hunique.1 hblocker
    · rw [if_neg hnextValid] at hin
      cases hin
  · intro hfree other hother hne
    have hin : other ∈ front ++ back := by
      simp only [List.mem_append, List.mem_cons] at hother ⊢
      rcases hother with hother | rfl | hother
      · exact .inl hother
      · exact absurd rfl hne
      · exact .inr hother
    have hsub : ∀ issue ∈ front ++ back, issue ∈ front ++ finished :: back := by
      intro issue hmem
      simp only [List.mem_append, List.mem_cons] at hmem ⊢
      exact hmem.imp_right .inr
    have hnextChecks := hchecks.without (List.ne_nil_of_mem hin) hnodup hknown
      fun issue hmem => hfree issue (hsub issue hmem)
    rw [if_pos (validBacklog_iff.mpr hnextChecks)]
    exact hin

/-- The description of a Linear issue with the contract `sampleIssue key blockers`. -/
def contractDescription (key blockers : String) : String :=
  "## AI Orchestrator Contract\n\n```json\n\x7b\"draftKey\":\"" ++ key ++
  "\",\"projectKey\":null,\"title\":\"Title\",\"type\":\"Feature\",\"priority\":\"Medium\"," ++
  "\"estimate\":\"S\",\"complexity\":\"medium\",\"labels\":[\"web\",\"ai-ready\"]," ++
  "\"repositories\":[\"web\"],\"blockedByDraftKeys\":[" ++ blockers ++
  "],\"externalDependencies\":[],\"body\":\x7b\"backgroundProblem\":\"Problem\"," ++
  "\"goal\":\"Goal\",\"requirements\":[\"Requirement\"],\"acceptanceCriteria\":[\"Criterion\"]," ++
  "\"technicalNotes\":\"Notes\",\"relevantAreas\":[\"Area\"],\"edgeCases\":[\"Edge\"]," ++
  "\"testingValidation\":[\"Test\"],\"outOfScope\":[\"Scope\"]\x7d\x7d\n```"

/-- What the parameters answer on the descriptions of the three sample issues. -/
def sampleFormat : ContractFormat where
  Contract := PlanningIssue
  extractContract := fun description heading =>
    if heading = "AI Orchestrator Contract" ∧ description = contractDescription "a" "" then
      .ok (sampleIssue "a" [])
    else if heading = "AI Orchestrator Contract" ∧
        description = contractDescription "b" "\"a\"" then
      .ok (sampleIssue "b" ["a"])
    else if heading = "AI Orchestrator Contract" ∧ description = contractDescription "c" "" then
      .ok (sampleIssue "c" [])
    else .error s!"Missing {heading} JSON contract"
  issueShape := fun contract source => .ok { contract with source := some source }
  projectShape := fun _ => .error "Required"
  message := fun findings => ", ".intercalate (findings.map (·.message))

def sampleLinearIssue (key blockers : String) (blockedByIdentifiers : List String) :
    LinearIssue where
  id := "linear-" ++ key
  identifier := "AI-" ++ key
  description := contractDescription key blockers
  branchName := some ("branch-" ++ key)
  createdAt := "2026-01-01T00:00:00Z"
  stateType := "unstarted"
  labels := ["web", "ai-ready"]
  blockedByIdentifiers := blockedByIdentifiers
  projectDescription := none

def issueA : LinearIssue := sampleLinearIssue "a" "" []

def issueB : LinearIssue := sampleLinearIssue "b" "\"a\"" ["AI-a"]

def issueC : LinearIssue := sampleLinearIssue "c" "" []

/-- Finishing the blocker `a` of `b` takes every issue out of the poll, also `c`. -/
theorem finished_blocker_quarantines :
    ¬ ∀ (format : ContractFormat) (requiredLabels excludedLabels : List String)
      (before after : List LinearIssue) (issue : LinearIssue) (finished : PlanningIssue),
      EligibleAs format requiredLabels excludedLabels issue finished →
      finished ∈ (discoverLinearIssues format (before ++ issue :: after) requiredLabels
        excludedLabels).eligible →
      ∀ other ∈ (discoverLinearIssues format (before ++ issue :: after) requiredLabels
          excludedLabels).eligible, other ≠ finished →
        other ∈ (discoverLinearIssues format (before ++ issue.finished :: after) requiredLabels
          excludedLabels).eligible := by
  intro h
  have hbefore : (discoverLinearIssues sampleFormat ([] ++ issueA :: [issueB, issueC]) ["ai-ready"]
      []).eligible = [sampleIssue "a" [], sampleIssue "b" ["a"], sampleIssue "c" []] := by
    decide +kernel
  have hafter : (discoverLinearIssues sampleFormat ([] ++ issueA.finished :: [issueB, issueC])
      ["ai-ready"] []).eligible = [] := by decide +kernel
  have heligible : eligibleAs sampleFormat ["ai-ready"] [] issueA =
      some (sampleIssue "a" [], none) := by decide +kernel
  have hkept := h sampleFormat ["ai-ready"] [] [] [issueB, issueC] issueA (sampleIssue "a" [])
    ⟨none, heligible⟩ (by rw [hbefore]; decide) (sampleIssue "c" []) (by rw [hbefore]; decide)
    (by decide)
  rw [hafter] at hkept
  cases hkept

/-- Finishing `c`, on which nothing depends, keeps `a` and `b`. -/
theorem eligible_after_finish_independent :
    sampleIssue "a" [] ∈ (discoverLinearIssues sampleFormat
        ([issueA, issueB] ++ issueC.finished :: []) ["ai-ready"] []).eligible ∧
      sampleIssue "b" ["a"] ∈ (discoverLinearIssues sampleFormat
        ([issueA, issueB] ++ issueC.finished :: []) ["ai-ready"] []).eligible := by
  have hbefore : (discoverLinearIssues sampleFormat ([issueA, issueB] ++ issueC :: []) ["ai-ready"]
      []).eligible = [sampleIssue "a" [], sampleIssue "b" ["a"], sampleIssue "c" []] := by
    decide +kernel
  have heligible : eligibleAs sampleFormat ["ai-ready"] [] issueC =
      some (sampleIssue "c" [], none) := by decide +kernel
  have hkept := (eligible_after_finish_iff sampleFormat ["ai-ready"] [] [issueA, issueB] [] issueC
    (sampleIssue "c" []) ⟨none, heligible⟩ (by rw [hbefore]; decide)).mpr
    (by rw [hbefore]; decide)
  rw [hbefore] at hkept
  exact ⟨hkept _ (by decide) (by decide), hkept _ (by decide) (by decide)⟩

end Orchestrator
