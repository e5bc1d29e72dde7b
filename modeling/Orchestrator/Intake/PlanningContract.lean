import Mathlib.Data.List.Dedup
import Mathlib.Data.List.Sort
import Mathlib.Data.String.Basic

/-! # The planning contract

The validated issue contract that intake persists as `contractSnapshot`, and the
cross-field checks of `planningIssueSchema` and `planningBacklogSchema`
(`intake/planning-contract.ts`). A check reports its findings as a list of
issues; a value is accepted when the list is empty. The shape checks that the
types below already express (enumerations, required fields) have no counterpart.
-/

namespace Orchestrator

inductive RepositoryName
  | web | apiGateway | academic | identity | billing | chat
  deriving DecidableEq, Repr

def RepositoryName.text : RepositoryName → String
  | .web => "web"
  | .apiGateway => "api-gateway"
  | .academic => "academic"
  | .identity => "identity"
  | .billing => "billing"
  | .chat => "chat"

/-- `labelSchema`: a repository name or `ai-ready`. -/
inductive Label
  | repository (name : RepositoryName)
  | aiReady
  deriving DecidableEq, Repr

inductive Complexity
  | veryLow | low | medium | high | veryHigh | critical
  deriving DecidableEq, Repr

def Complexity.text : Complexity → String
  | .veryLow => "very-low"
  | .low => "low"
  | .medium => "medium"
  | .high => "high"
  | .veryHigh => "very-high"
  | .critical => "critical"

inductive IssueType
  | feature | improvement | refactor
  deriving DecidableEq, Repr

inductive IssuePriority
  | urgent | high | medium | low
  deriving DecidableEq, Repr

inductive IssueEstimate
  | s | m | l
  deriving DecidableEq, Repr

structure ExternalDependency where
  key : String
  description : String
  verification : String
  deriving DecidableEq, Repr

structure IssueBody where
  backgroundProblem : String
  goal : String
  requirements : List String
  acceptanceCriteria : List String
  technicalNotes : String
  relevantAreas : List String
  edgeCases : List String
  testingValidation : List String
  outOfScope : List String
  deriving DecidableEq, Repr

/-- What Linear adds to a contract when it is hydrated. -/
structure IssueSource where
  linearIssueId : String
  linearIdentifier : String
  linearCreatedAt : String
  gitBranchName : String
  linearBlockedByIdentifiers : List String
  deriving DecidableEq, Repr

structure PlanningIssue where
  draftKey : String
  projectKey : Option String
  title : String
  type : IssueType
  priority : IssuePriority
  estimate : IssueEstimate
  complexity : Complexity
  labels : List Label
  repositories : List RepositoryName
  blockedByDraftKeys : List String
  externalDependencies : List ExternalDependency
  body : IssueBody
  source : Option IssueSource
  deriving DecidableEq, Repr

structure PlanningProject where
  key : String
  name : String
  outcome : String
  problem : String
  valueAndPriority : String
  scope : List String
  outOfScope : List String
  successMetrics : List String
  dependenciesAndRisks : List String
  deriving DecidableEq, Repr

structure PlanningBacklog where
  projects : List PlanningProject
  issues : List PlanningIssue
  deriving DecidableEq, Repr

inductive PathItem
  | field (name : String)
  | index (position : Nat)
  deriving DecidableEq, Repr

/-- One finding of a schema check. -/
structure SchemaIssue where
  path : List PathItem
  message : String
  deriving DecidableEq, Repr

/-- The finding `message` at `path`, when `failed`. -/
def issueIf (failed : Bool) (path : List PathItem) (message : String) : List SchemaIssue :=
  if failed then [⟨path, message⟩] else []

@[simp] theorem issueIf_eq_nil_iff {failed : Bool} {path : List PathItem} {message : String} :
    issueIf failed path message = [] ↔ failed = false := by
  cases failed <;> simp [issueIf]

/-- `new Set(values).size !== values.length`. -/
def hasDuplicates {α : Type*} [DecidableEq α] (values : List α) : Bool :=
  values.dedup.length ≠ values.length

@[simp] theorem hasDuplicates_eq_false_iff {α : Type*} [DecidableEq α] {values : List α} :
    hasDuplicates values = false ↔ values.Nodup := by
  constructor
  · intro h
    have hlength : values.dedup.length = values.length := by simpa [hasDuplicates] using h
    exact (List.dedup_sublist values).eq_of_length hlength ▸ List.nodup_dedup values
  · intro h
    simp [hasDuplicates, h.dedup]

/-- `[...values].sort().join('\u0000')`. -/
def sortedText (values : List String) : String :=
  "\x00".intercalate (values.insertionSort (· ≤ ·))

/-! ## One issue -/

/-- The `superRefine` of `planningIssueSchema`, preceded by its minimum lengths. -/
def planningIssueFindings (issue : PlanningIssue) : List SchemaIssue :=
  let repositoryLabels := issue.labels.filterMap fun
    | .repository name => some name.text
    | .aiReady => none
  issueIf (issue.labels.length < 2) [.field "labels"] "Array must contain at least 2 element(s)" ++
  issueIf (issue.repositories.length < 1) [.field "repositories"]
    "Array must contain at least 1 element(s)" ++
  issueIf (hasDuplicates issue.labels) [.field "labels"] "must not contain duplicates" ++
  issueIf (hasDuplicates issue.repositories) [.field "repositories"]
    "must not contain duplicates" ++
  issueIf (!issue.labels.contains .aiReady) [.field "labels"] "must include ai-ready" ++
  issueIf (sortedText (issue.repositories.map (·.text)) ≠ sortedText repositoryLabels)
    [.field "labels"] "repository labels must exactly match repositories"

/-! ## A backlog -/

/-- First loop: `projectKeys` holds the keys seen so far. -/
def projectFindings : List String → Nat → List PlanningProject → List SchemaIssue
  | _, _, [] => []
  | projectKeys, index, project :: projects =>
      issueIf (projectKeys.contains project.key) [.field "projects", .index index, .field "key"]
        "duplicate project key" ++
      projectFindings (project.key :: projectKeys) (index + 1) projects

/-- Second loop: `seen` holds the keys of `issueIndexes` so far. -/
def issueKeyFindings (projectKeys : List String) :
    List String → Nat → List PlanningIssue → List SchemaIssue
  | _, _, [] => []
  | seen, index, issue :: issues =>
      issueIf (seen.contains issue.draftKey) [.field "issues", .index index, .field "draftKey"]
        "duplicate issue key" ++
      issueIf (match issue.projectKey with
          | none => false
          | some key => !projectKeys.contains key)
        [.field "issues", .index index, .field "projectKey"] "unknown project key" ++
      issueKeyFindings projectKeys (issue.draftKey :: seen) (index + 1) issues

/-- The findings of one issue's dependency list; `seenBlockers` grows as it goes. -/
def blockerFindings (known : List String) (draftKey : String) (index : Nat) :
    List String → Nat → List String → List SchemaIssue
  | _, _, [] => []
  | seenBlockers, blockerIndex, blockerKey :: blockerKeys =>
      let path := [.field "issues", .index index, .field "blockedByDraftKeys", .index blockerIndex]
      issueIf (seenBlockers.contains blockerKey) path "duplicate dependency key" ++
      (if blockerKey = draftKey then [⟨path, "issue cannot block itself"⟩]
        else issueIf (!known.contains blockerKey) path "unknown dependency key") ++
      blockerFindings known draftKey index (blockerKey :: seenBlockers) (blockerIndex + 1)
        blockerKeys

/-- `identifiersByKey`: a later issue with the same key replaces an earlier one. -/
def identifierOfKey (issues : List PlanningIssue) (key : String) : Option String :=
  (issues.reverse.find? fun issue => issue.draftKey = key ∧ issue.source.isSome).bind
    fun issue => issue.source.map (·.linearIdentifier)

/-- Third loop: dependency keys, and the Linear relations they must match. -/
def dependencyFindings (all : List PlanningIssue) :
    Nat → List PlanningIssue → List SchemaIssue
  | _, [] => []
  | index, issue :: issues =>
      blockerFindings (all.map (·.draftKey)) issue.draftKey index [] 0 issue.blockedByDraftKeys ++
      (match issue.source with
        | none => []
        | some source =>
            issueIf (sortedText (issue.blockedByDraftKeys.filterMap (identifierOfKey all)) ≠
                sortedText source.linearBlockedByIdentifiers)
              [.field "issues", .index index, .field "source",
                .field "linearBlockedByIdentifiers"]
              "Linear blockedBy relations do not match the planning contract") ++
      dependencyFindings all (index + 1) issues

/-- `inDegree` and `dependentKeys` as the third loop leaves them. -/
structure DependencyGraph where
  inDegree : List (String × Int)
  dependentKeys : List (String × List String)

/-- `map.get(key) ?? fallback`. -/
def lookupD {α : Type*} (entries : List (String × α)) (key : String) (fallback : α) : α :=
  (entries.lookup key).getD fallback

/-- `map.set(key, value)`: an existing key keeps its place. -/
def setEntry {α : Type*} (entries : List (String × α)) (key : String) (value : α) :
    List (String × α) :=
  if entries.any (·.1 = key) then
    entries.map fun entry => if entry.1 = key then (key, value) else entry
  else entries ++ [(key, value)]

theorem lookup_setEntry {α : Type*} {entries : List (String × α)} {key other : String}
    {value : α} : (setEntry entries key value).lookup other =
      if other = key then some value else entries.lookup other := by
  unfold setEntry
  -- An existing key is replaced in place, a new one appended; look up that key or another.
  split_ifs with hany hother hother
  · subst hother
    induction entries with
    | nil => simp at hany
    | cons entry entries ih =>
        by_cases hentry : entry.1 = other
        · simp [hentry]
        · have hne : other ≠ entry.1 := fun h => hentry h.symm
          have hrest : (entries.any fun entry => decide (entry.1 = other)) = true := by
            simpa [hentry] using hany
          rw [List.map_cons, if_neg hentry, List.lookup_cons, beq_false_of_ne hne]
          exact ih hrest
  · clear hany
    induction entries with
    | nil => rfl
    | cons entry entries ih =>
        by_cases hentry : entry.1 = key
        · have hne : other ≠ entry.1 := fun h => hother (h.trans hentry)
          rw [List.map_cons, if_pos hentry, List.lookup_cons, beq_false_of_ne hother,
            List.lookup_cons, beq_false_of_ne hne]
          exact ih
        · rw [List.map_cons, if_neg hentry, List.lookup_cons, List.lookup_cons]
          cases other == entry.1 with
          | true => rfl
          | false => exact ih
  · subst hother
    rw [List.lookup_append]
    have hnone : entries.lookup other = none := by
      rw [List.lookup_eq_none_iff]
      intro entry hentry
      simp only [List.any_eq_true, decide_eq_true_eq, not_exists, not_and] at hany
      simpa using fun h => hany entry hentry h.symm
    simp [hnone]
  · rw [List.lookup_append]
    simp [List.lookup_cons, beq_false_of_ne hother]

theorem mem_setEntry {α : Type*} {entries : List (String × α)} {key : String} {value : α}
    {entry : String × α} (h : entry ∈ setEntry entries key value) :
    entry ∈ entries ∨ entry = (key, value) := by
  unfold setEntry at h
  split_ifs at h
  · rcases List.mem_map.mp h with ⟨old, hold, hentry⟩
    split_ifs at hentry
    · exact .inr hentry.symm
    · exact .inl (hentry ▸ hold)
  · rcases List.mem_append.mp h with hold | hnew
    · exact .inl hold
    · exact .inr (List.mem_singleton.mp hnew)

/-- The keys of a map after one entry was set. -/
theorem map_fst_setEntry {α : Type*} (entries : List (String × α)) (key : String) (value : α) :
    (setEntry entries key value).map (·.1) =
      if key ∈ entries.map (·.1) then entries.map (·.1) else entries.map (·.1) ++ [key] := by
  unfold setEntry
  by_cases hany : (entries.any fun entry => decide (entry.1 = key)) = true
  · have hmem : key ∈ entries.map (·.1) := by simpa using hany
    rw [if_pos hany, if_pos hmem, List.map_map]
    refine List.map_congr_left fun entry _ => ?_
    by_cases hkey : entry.1 = key
    · simp [hkey]
    · simp [hkey]
  · have hmem : key ∉ entries.map (·.1) := by simpa using hany
    rw [if_neg hany, if_neg hmem, List.map_append]
    rfl

def DependencyGraph.addBlocker (known : List String) (draftKey : String)
    (graph : DependencyGraph) (blockerKey : String) : DependencyGraph :=
  if blockerKey = draftKey ∨ ¬ known.contains blockerKey then graph
  else
    { inDegree := setEntry graph.inDegree draftKey (lookupD graph.inDegree draftKey 0 + 1)
      dependentKeys := setEntry graph.dependentKeys blockerKey
        (lookupD graph.dependentKeys blockerKey [] ++ [draftKey]) }

def dependencyGraph (issues : List PlanningIssue) : DependencyGraph :=
  issues.foldl (fun graph issue =>
      issue.blockedByDraftKeys.foldl
        (DependencyGraph.addBlocker (issues.map (·.draftKey)) issue.draftKey)
        { graph with inDegree := setEntry graph.inDegree issue.draftKey 0 })
    ⟨[], []⟩

/-- One turn of the inner loop over the dependents of a visited key. -/
def releaseDependent (state : List (String × Int) × List String) (dependentKey : String) :
    List (String × Int) × List String :=
  let nextDegree := lookupD state.1 dependentKey 0 - 1
  (setEntry state.1 dependentKey nextDegree,
    if nextDegree = 0 then state.2 ++ [dependentKey] else state.2)

/-- The queue loop: the number of keys visited. A key enters the queue at most
once, so `fuel` as large as the number of keys empties the queue. -/
def visitedCount (dependentKeys : List (String × List String)) :
    Nat → List (String × Int) → List String → Nat
  | 0, _, _ => 0
  | _ + 1, _, [] => 0
  | fuel + 1, inDegree, key :: queue =>
      let next := (lookupD dependentKeys key []).foldl releaseDependent (inDegree, queue)
      visitedCount dependentKeys fuel next.1 next.2 + 1

def hasCycle (issues : List PlanningIssue) : Bool :=
  let graph := dependencyGraph issues
  let queue := (graph.inDegree.filter (·.2 = 0)).map (·.1)
  visitedCount graph.dependentKeys issues.length graph.inDegree queue ≠ issues.length

/-- The checks of `planningBacklogSchema` over its projects and issues. -/
def planningBacklogFindings (backlog : PlanningBacklog) : List SchemaIssue :=
  let projectKeys := backlog.projects.map (·.key)
  let hydratedCount := backlog.issues.countP (·.source.isSome)
  issueIf (backlog.issues.length < 1) [.field "issues"]
    "Array must contain at least 1 element(s)" ++
  backlog.issues.flatMap planningIssueFindings ++
  projectFindings [] 0 backlog.projects ++
  issueKeyFindings projectKeys [] 0 backlog.issues ++
  issueIf (hydratedCount ≠ 0 ∧ hydratedCount ≠ backlog.issues.length) [.field "issues"]
    "source data must be present for either all issues or none" ++
  dependencyFindings backlog.issues 0 backlog.issues ++
  issueIf (hasCycle backlog.issues) [.field "issues"] "dependency graph contains a cycle"

/-- `planningBacklogSchema` accepts the backlog. -/
def ValidBacklog (backlog : PlanningBacklog) : Prop := planningBacklogFindings backlog = []

instance (backlog : PlanningBacklog) : Decidable (ValidBacklog backlog) :=
  inferInstanceAs (Decidable (_ = _))

/-! ## What an accepted backlog guarantees -/

theorem projectFindings_eq_nil_iff {projectKeys : List String} {index : Nat}
    {projects : List PlanningProject} :
    projectFindings projectKeys index projects = [] ↔
      (projects.map (·.key)).Nodup ∧ ∀ project ∈ projects, project.key ∉ projectKeys := by
  induction projects generalizing projectKeys index with
  | nil => simp [projectFindings]
  | cons project projects ih =>
      unfold projectFindings
      rw [List.append_eq_nil_iff, issueIf_eq_nil_iff, ih, List.map_cons, List.nodup_cons,
        List.forall_mem_cons]
      simp only [List.mem_cons, not_or, List.contains_eq_mem, decide_eq_false_iff_not,
        List.mem_map, not_exists, not_and]
      constructor
      · rintro ⟨hseen, hnodup, hfresh⟩
        exact ⟨⟨fun other hother => (hfresh other hother).1, hnodup⟩, hseen,
          fun other hother => (hfresh other hother).2⟩
      · rintro ⟨⟨hhead, hnodup⟩, hseen, hfresh⟩
        exact ⟨hseen, hnodup, fun other hother => ⟨hhead other hother, hfresh other hother⟩⟩

theorem unknownProject_eq_false_iff {projectKeys : List String} {projectKey : Option String} :
    (match projectKey with
      | none => false
      | some key => !projectKeys.contains key) = false ↔
        ∀ key ∈ projectKey, key ∈ projectKeys := by
  cases projectKey <;> simp

/-- The keys behind an issue avoid it, because it is in their `seen`. -/
theorem issueKeyFindings_eq_nil_iff {projectKeys seen : List String} {index : Nat}
    {issues : List PlanningIssue} :
    issueKeyFindings projectKeys seen index issues = [] ↔
      (issues.map (·.draftKey)).Nodup ∧
        ∀ issue ∈ issues, issue.draftKey ∉ seen ∧ ∀ key ∈ issue.projectKey, key ∈ projectKeys := by
  induction issues generalizing seen index with
  | nil => simp [issueKeyFindings]
  | cons issue issues ih =>
      unfold issueKeyFindings
      rw [List.append_eq_nil_iff, List.append_eq_nil_iff, issueIf_eq_nil_iff,
        issueIf_eq_nil_iff, ih, List.map_cons, List.nodup_cons, List.forall_mem_cons,
        unknownProject_eq_false_iff]
      simp only [List.mem_cons, not_or, List.contains_eq_mem, decide_eq_false_iff_not,
        List.mem_map, not_exists, not_and]
      constructor
      · rintro ⟨⟨hseen, hknown⟩, hnodup, hfresh⟩
        exact ⟨⟨fun other hother => (hfresh other hother).1.1, hnodup⟩, ⟨hseen, hknown⟩,
          fun other hother => ⟨(hfresh other hother).1.2, (hfresh other hother).2⟩⟩
      · rintro ⟨⟨hhead, hnodup⟩, ⟨hseen, hknown⟩, hfresh⟩
        exact ⟨⟨hseen, hknown⟩, hnodup, fun other hother =>
          ⟨⟨hhead other hother, (hfresh other hother).1⟩, (hfresh other hother).2⟩⟩

theorem unknownBlocker_eq_nil_iff {known : List String} {draftKey key : String}
    {path : List PathItem} :
    (if key = draftKey then [(⟨path, "issue cannot block itself"⟩ : SchemaIssue)]
      else issueIf (!known.contains key) path "unknown dependency key") = [] ↔
        key ≠ draftKey ∧ key ∈ known := by
  by_cases hself : key = draftKey
  · simp [hself]
  · simp [hself]

theorem blockerFindings_eq_nil_iff {known : List String} {draftKey : String} {index : Nat}
    {seen : List String} {position : Nat} {blockerKeys : List String} :
    blockerFindings known draftKey index seen position blockerKeys = [] ↔
      blockerKeys.Nodup ∧
        ∀ key ∈ blockerKeys, key ∉ seen ∧ key ≠ draftKey ∧ key ∈ known := by
  induction blockerKeys generalizing seen position with
  | nil => simp [blockerFindings]
  | cons key blockerKeys ih =>
      unfold blockerFindings
      dsimp only
      rw [List.append_eq_nil_iff, List.append_eq_nil_iff, issueIf_eq_nil_iff,
        unknownBlocker_eq_nil_iff, ih, List.nodup_cons, List.forall_mem_cons]
      simp only [List.mem_cons, not_or, List.contains_eq_mem, decide_eq_false_iff_not]
      constructor
      · rintro ⟨⟨hseen, hself, hmem⟩, hnodup, hkeys⟩
        exact ⟨⟨fun hin => (hkeys key hin).1.1 rfl, hnodup⟩, ⟨hseen, hself, hmem⟩,
          fun other hother => ⟨(hkeys other hother).1.2, (hkeys other hother).2⟩⟩
      · rintro ⟨⟨hhead, hnodup⟩, ⟨hseen, hself, hmem⟩, hkeys⟩
        refine ⟨⟨hseen, hself, hmem⟩, hnodup, fun other hother =>
          ⟨⟨?_, (hkeys other hother).1⟩, (hkeys other hother).2⟩⟩
        rintro rfl
        exact hhead hother

/-- The Linear relations of the issue are those of its contract. -/
def RelationsMatch (all : List PlanningIssue) (issue : PlanningIssue) : Prop :=
  ∀ source ∈ issue.source,
    sortedText (issue.blockedByDraftKeys.filterMap (identifierOfKey all)) =
      sortedText source.linearBlockedByIdentifiers

theorem dependencyFindings_eq_nil_iff {all issues : List PlanningIssue} {index : Nat} :
    dependencyFindings all index issues = [] ↔
      ∀ issue ∈ issues, issue.blockedByDraftKeys.Nodup ∧
        (∀ key ∈ issue.blockedByDraftKeys, key ≠ issue.draftKey ∧ key ∈ all.map (·.draftKey)) ∧
        RelationsMatch all issue := by
  induction issues generalizing index with
  | nil => simp [dependencyFindings]
  | cons issue issues ih =>
      have hsource : (match issue.source with
          | none => []
          | some source =>
              issueIf (sortedText (issue.blockedByDraftKeys.filterMap (identifierOfKey all)) ≠
                  sortedText source.linearBlockedByIdentifiers)
                [.field "issues", .index index, .field "source",
                  .field "linearBlockedByIdentifiers"]
                "Linear blockedBy relations do not match the planning contract") = [] ↔
            RelationsMatch all issue := by
        unfold RelationsMatch
        cases issue.source <;> simp
      simp only [dependencyFindings, List.append_eq_nil_iff, blockerFindings_eq_nil_iff, hsource,
        ih, List.forall_mem_cons, List.not_mem_nil, not_false_eq_true, true_and, and_assoc]

/-- The checks of an accepted backlog. -/
structure BacklogChecks (backlog : PlanningBacklog) : Prop where
  nonempty : backlog.issues ≠ []
  issues : ∀ issue ∈ backlog.issues, planningIssueFindings issue = []
  projectsNodup : (backlog.projects.map (·.key)).Nodup
  keysNodup : (backlog.issues.map (·.draftKey)).Nodup
  projectsKnown : ∀ issue ∈ backlog.issues, ∀ key ∈ issue.projectKey,
    key ∈ backlog.projects.map (·.key)
  hydrated : (∀ issue ∈ backlog.issues, issue.source = none) ∨
    ∀ issue ∈ backlog.issues, issue.source.isSome = true
  blockersNodup : ∀ issue ∈ backlog.issues, issue.blockedByDraftKeys.Nodup
  blockersKnown : ∀ issue ∈ backlog.issues, ∀ key ∈ issue.blockedByDraftKeys,
    key ≠ issue.draftKey ∧ key ∈ backlog.issues.map (·.draftKey)
  relations : ∀ issue ∈ backlog.issues, RelationsMatch backlog.issues issue
  acyclic : hasCycle backlog.issues = false

theorem hydratedCount_iff {issues : List PlanningIssue} :
    ¬ (issues.countP (·.source.isSome) ≠ 0 ∧ issues.countP (·.source.isSome) ≠ issues.length) ↔
      (∀ issue ∈ issues, issue.source = none) ∨ ∀ issue ∈ issues, issue.source.isSome = true := by
  rw [not_and_or, not_not, not_not, List.countP_eq_zero, List.countP_eq_length]
  simp

theorem validBacklog_iff {backlog : PlanningBacklog} :
    ValidBacklog backlog ↔ BacklogChecks backlog := by
  simp only [ValidBacklog, planningBacklogFindings, List.append_eq_nil_iff, issueIf_eq_nil_iff,
    List.flatMap_eq_nil_iff, projectFindings_eq_nil_iff, issueKeyFindings_eq_nil_iff,
    dependencyFindings_eq_nil_iff, decide_eq_false_iff_not, hydratedCount_iff, List.not_mem_nil,
    not_false_eq_true, true_and]
  constructor
  · rintro ⟨⟨⟨⟨⟨⟨hlength, hissues⟩, hprojects, -⟩, hkeys, hproject⟩, hhydrated⟩, hdeps⟩, hcycle⟩
    exact {
      nonempty := fun hnil => hlength (by simp [hnil])
      issues := hissues
      projectsNodup := hprojects
      keysNodup := hkeys
      projectsKnown := hproject
      hydrated := hhydrated
      blockersNodup := fun issue hmem => (hdeps issue hmem).1
      blockersKnown := fun issue hmem => (hdeps issue hmem).2.1
      relations := fun issue hmem => (hdeps issue hmem).2.2
      acyclic := hcycle }
  · intro h
    have hlength : ¬ backlog.issues.length < 1 := by
      have hpos := List.length_pos_iff.mpr h.nonempty
      omega
    exact ⟨⟨⟨⟨⟨⟨hlength, h.issues⟩, h.projectsNodup, fun _ _ => trivial⟩, h.keysNodup,
      h.projectsKnown⟩, h.hydrated⟩, fun issue hmem => ⟨h.blockersNodup issue hmem,
        h.blockersKnown issue hmem, h.relations issue hmem⟩⟩, h.acyclic⟩

/-- What intake relies on in a validated backlog: draft keys are unique, and every
dependency list is duplicate-free and names other issues of the backlog. -/
structure WellKeyed (issues : List PlanningIssue) : Prop where
  keysNodup : (issues.map (·.draftKey)).Nodup
  blockersNodup : ∀ issue ∈ issues, issue.blockedByDraftKeys.Nodup
  blockersKnown : ∀ issue ∈ issues, ∀ key ∈ issue.blockedByDraftKeys,
    key ≠ issue.draftKey ∧ key ∈ issues.map (·.draftKey)

theorem ValidBacklog.wellKeyed {backlog : PlanningBacklog} (h : ValidBacklog backlog) :
    WellKeyed backlog.issues := by
  have hchecks := validBacklog_iff.mp h
  exact ⟨hchecks.keysNodup, hchecks.blockersNodup, hchecks.blockersKnown⟩

/-- An issue of the witnesses: they differ in key and blockers only. -/
def sampleIssue (key : String) (blockedByDraftKeys : List String) : PlanningIssue where
  draftKey := key
  projectKey := none
  title := "Title"
  type := .feature
  priority := .medium
  estimate := .s
  complexity := .medium
  labels := [.repository .web, .aiReady]
  repositories := [.web]
  blockedByDraftKeys := blockedByDraftKeys
  externalDependencies := []
  body := ⟨"Problem", "Goal", ["Requirement"], ["Criterion"], "Notes", ["Area"], ["Edge"],
    ["Test"], ["Scope"]⟩
  source := some ⟨"linear-" ++ key, "AI-" ++ key, "2026-01-01T00:00:00Z", "branch-" ++ key,
    blockedByDraftKeys.map ("AI-" ++ ·)⟩

end Orchestrator
