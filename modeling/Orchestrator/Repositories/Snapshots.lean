import Orchestrator.Repositories.StableJson

/-! # What the canonical texts compare

The JSON values of contracts and of recorded heads, as `stableJson` gets them. Their keys are
identifiers or the names of repositories, so the comparisons of texts in
`upsertDiscoveredTask`, `sameHeads` and `contractDigest` are comparisons of the values.
-/

namespace Orchestrator

open Kit

/-! ## Values of the contract -/

def jsonText (text : String) : Json := .string (codePoints text)

def jsonTexts (texts : List String) : Json := .array (texts.map jsonText)

def Label.text : Label → String
  | .repository name => name.text
  | .aiReady => "ai-ready"

def IssueType.text : IssueType → String
  | .feature => "Feature"
  | .improvement => "Improvement"
  | .refactor => "Refactor"

def IssuePriority.text : IssuePriority → String
  | .urgent => "Urgent"
  | .high => "High"
  | .medium => "Medium"
  | .low => "Low"

def IssueEstimate.text : IssueEstimate → String
  | .s => "S"
  | .m => "M"
  | .l => "L"

def ExternalDependency.json (dependency : ExternalDependency) : Json :=
  .object [("key", jsonText dependency.key), ("description", jsonText dependency.description),
    ("verification", jsonText dependency.verification)]

def IssueBody.json (body : IssueBody) : Json :=
  .object [("backgroundProblem", jsonText body.backgroundProblem), ("goal", jsonText body.goal),
    ("requirements", jsonTexts body.requirements),
    ("acceptanceCriteria", jsonTexts body.acceptanceCriteria),
    ("technicalNotes", jsonText body.technicalNotes),
    ("relevantAreas", jsonTexts body.relevantAreas), ("edgeCases", jsonTexts body.edgeCases),
    ("testingValidation", jsonTexts body.testingValidation),
    ("outOfScope", jsonTexts body.outOfScope)]

def IssueSource.json (source : IssueSource) : Json :=
  .object [("linearIssueId", jsonText source.linearIssueId),
    ("linearIdentifier", jsonText source.linearIdentifier),
    ("linearCreatedAt", jsonText source.linearCreatedAt),
    ("gitBranchName", jsonText source.gitBranchName),
    ("linearBlockedByIdentifiers", jsonTexts source.linearBlockedByIdentifiers)]

/-- The contract as it is persisted: a missing source has no key. -/
def PlanningIssue.json (issue : PlanningIssue) : Json :=
  .object ([("draftKey", jsonText issue.draftKey),
    ("projectKey", match issue.projectKey with
      | some key => jsonText key
      | none => .null),
    ("title", jsonText issue.title), ("type", jsonText issue.type.text),
    ("priority", jsonText issue.priority.text), ("estimate", jsonText issue.estimate.text),
    ("complexity", jsonText issue.complexity.text),
    ("labels", jsonTexts (issue.labels.map Label.text)),
    ("repositories", jsonTexts (issue.repositories.map RepositoryName.text)),
    ("blockedByDraftKeys", jsonTexts issue.blockedByDraftKeys),
    ("externalDependencies", .array (issue.externalDependencies.map ExternalDependency.json)),
    ("body", issue.body.json)] ++
    match issue.source with
    | some source => [("source", source.json)]
    | none => [])

/-- Recorded heads: the commit of each repository. -/
def headsJson (heads : Heads) : Json :=
  .object (heads.map fun entry => (entry.1, jsonText entry.2))

/-! ## Equal values come from equal contracts -/

theorem jsonText_inj {left right : String} (h : SameValue (jsonText left) (jsonText right)) :
    left = right := by
  have hequal := h.of_scalar trivial
  exact (codePoints_injective (Json.string.inj hequal)).symm

/-- A list of values is determined by its items. -/
theorem jsonItems_inj {α : Type} {f : α → Json}
    (hf : ∀ left right, SameValue (f left) (f right) → left = right) {left right : List α}
    (h : SameValue (.array (left.map f)) (.array (right.map f))) : left = right := by
  obtain ⟨items, hitems, hsame⟩ := h.of_array
  obtain rfl := Json.array.inj hitems
  rw [List.forall₂_map_left_iff, List.forall₂_map_right_iff] at hsame
  exact List.forall₂_eq_eq_eq ▸ hsame.imp hf

theorem jsonTexts_inj {left right : List String}
    (h : SameValue (jsonTexts left) (jsonTexts right)) : left = right :=
  jsonItems_inj (fun _ _ => jsonText_inj) h

/-- Two objects that are the same have the same value at each key. -/
theorem sameField {entries entries' : List (String × Json)} {value value' : Json}
    (h : SameValue (.object entries) (.object entries')) (key : String)
    (hvalue : entries.lookup key = some value) (hvalue' : entries'.lookup key = some value') :
    SameValue value value' := by
  obtain ⟨found, hfound, hrel⟩ := h.of_object
  obtain rfl := Json.object.inj hfound
  have hkey := hrel key
  rw [hvalue, hvalue'] at hkey
  cases hkey with
  | some hsame => exact hsame

theorem RepositoryName.text_inj {left right : RepositoryName} (h : left.text = right.text) :
    left = right := by
  cases left <;> cases right <;> first | rfl | exact absurd h (by decide)

theorem Label.text_inj {left right : Label} (h : left.text = right.text) : left = right := by
  cases left with
  | aiReady =>
      cases right with
      | aiReady => rfl
      | repository name => cases name <;> exact absurd h (by decide)
  | repository name =>
      cases right with
      | aiReady => cases name <;> exact absurd h (by decide)
      | repository name' => rw [RepositoryName.text_inj h]

theorem IssueType.text_inj {left right : IssueType} (h : left.text = right.text) :
    left = right := by
  cases left <;> cases right <;> first | rfl | exact absurd h (by decide)

theorem IssuePriority.text_inj {left right : IssuePriority} (h : left.text = right.text) :
    left = right := by
  cases left <;> cases right <;> first | rfl | exact absurd h (by decide)

theorem IssueEstimate.text_inj {left right : IssueEstimate} (h : left.text = right.text) :
    left = right := by
  cases left <;> cases right <;> first | rfl | exact absurd h (by decide)

theorem Complexity.text_inj {left right : Complexity} (h : left.text = right.text) :
    left = right := by
  cases left <;> cases right <;> first | rfl | exact absurd h (by decide)

theorem ExternalDependency.json_inj {left right : ExternalDependency}
    (h : SameValue left.json right.json) : left = right := by
  have hkey := jsonText_inj (sameField h "key" rfl rfl)
  have hdescription := jsonText_inj (sameField h "description" rfl rfl)
  have hverification := jsonText_inj (sameField h "verification" rfl rfl)
  cases left
  cases right
  simp_all

theorem IssueBody.json_inj {left right : IssueBody} (h : SameValue left.json right.json) :
    left = right := by
  have hproblem := jsonText_inj (sameField h "backgroundProblem" rfl rfl)
  have hgoal := jsonText_inj (sameField h "goal" rfl rfl)
  have hrequirements := jsonTexts_inj (sameField h "requirements" rfl rfl)
  have hcriteria := jsonTexts_inj (sameField h "acceptanceCriteria" rfl rfl)
  have hnotes := jsonText_inj (sameField h "technicalNotes" rfl rfl)
  have hareas := jsonTexts_inj (sameField h "relevantAreas" rfl rfl)
  have hedges := jsonTexts_inj (sameField h "edgeCases" rfl rfl)
  have htesting := jsonTexts_inj (sameField h "testingValidation" rfl rfl)
  have hscope := jsonTexts_inj (sameField h "outOfScope" rfl rfl)
  cases left
  cases right
  simp_all

theorem IssueSource.json_inj {left right : IssueSource} (h : SameValue left.json right.json) :
    left = right := by
  have hid := jsonText_inj (sameField h "linearIssueId" rfl rfl)
  have hidentifier := jsonText_inj (sameField h "linearIdentifier" rfl rfl)
  have hcreated := jsonText_inj (sameField h "linearCreatedAt" rfl rfl)
  have hbranch := jsonText_inj (sameField h "gitBranchName" rfl rfl)
  have hblocked := jsonTexts_inj (sameField h "linearBlockedByIdentifiers" rfl rfl)
  cases left
  cases right
  simp_all

theorem jsonEnum_inj {α : Type} {text : α → String}
    (htext : ∀ left right, text left = text right → left = right) {left right : α}
    (h : SameValue (jsonText (text left)) (jsonText (text right))) : left = right :=
  htext left right (jsonText_inj h)

theorem jsonEnums_inj {α : Type} {text : α → String}
    (htext : ∀ left right, text left = text right → left = right) {left right : List α}
    (h : SameValue (jsonTexts (left.map text)) (jsonTexts (right.map text))) : left = right :=
  List.map_injective_iff.mpr htext (jsonTexts_inj h)

theorem projectKey_inj {left right : Option String}
    (h : SameValue (match left with | some key => jsonText key | none => .null)
      (match right with | some key => jsonText key | none => .null)) : left = right := by
  cases left with
  | none =>
      cases right with
      | none => rfl
      | some key => cases h.of_scalar trivial
  | some key =>
      cases right with
      | none => cases h.of_scalar trivial
      | some key' => rw [jsonText_inj h]

theorem PlanningIssue.source_inj {left right : PlanningIssue} (h : SameValue left.json right.json) :
    left.source = right.source := by
  obtain ⟨found, hfound, hrel⟩ := h.of_object
  obtain rfl := Json.object.inj hfound
  have hsource := hrel "source"
  rw [List.lookup_append, List.lookup_append] at hsource
  cases hleft : left.source with
  | none =>
      cases hright : right.source with
      | none => rfl
      | some source =>
          rw [hleft, hright] at hsource
          cases hsource
  | some source =>
      cases hright : right.source with
      | none =>
          rw [hleft, hright] at hsource
          cases hsource
      | some source' =>
          rw [hleft, hright] at hsource
          cases hsource with
          | some hsame => rw [IssueSource.json_inj hsame]

/-- Contracts with the same value are the same contract. -/
theorem PlanningIssue.json_inj {left right : PlanningIssue} (h : SameValue left.json right.json) :
    left = right := by
  have hkey := jsonText_inj (sameField h "draftKey" rfl rfl)
  have hproject := projectKey_inj (sameField h "projectKey" rfl rfl)
  have htitle := jsonText_inj (sameField h "title" rfl rfl)
  have htype := jsonEnum_inj (fun _ _ => IssueType.text_inj) (sameField h "type" rfl rfl)
  have hpriority := jsonEnum_inj (fun _ _ => IssuePriority.text_inj)
    (sameField h "priority" rfl rfl)
  have hestimate := jsonEnum_inj (fun _ _ => IssueEstimate.text_inj)
    (sameField h "estimate" rfl rfl)
  have hcomplexity := jsonEnum_inj (fun _ _ => Complexity.text_inj)
    (sameField h "complexity" rfl rfl)
  have hlabels := jsonEnums_inj (fun _ _ => Label.text_inj) (sameField h "labels" rfl rfl)
  have hrepositories := jsonEnums_inj (fun _ _ => RepositoryName.text_inj)
    (sameField h "repositories" rfl rfl)
  have hblocked := jsonTexts_inj (sameField h "blockedByDraftKeys" rfl rfl)
  have hexternal := jsonItems_inj (fun _ _ => ExternalDependency.json_inj)
    (sameField h "externalDependencies" rfl rfl)
  have hbody := IssueBody.json_inj (sameField h "body" rfl rfl)
  have hsource := PlanningIssue.source_inj h
  cases left
  cases right
  simp only [PlanningIssue.mk.injEq]
  exact ⟨hkey, hproject, htitle, htype, hpriority, hestimate, hcomplexity, hlabels, hrepositories,
    hblocked, hexternal, hbody, hsource⟩

/-! ## The keys are identifiers -/

/-- An ASCII identifier. -/
def isIdentifier (text : String) : Bool :=
  match text.toList with
  | [] => false
  | first :: rest =>
      (first.isAlpha || first = '_' || first = '$') &&
        rest.all fun character => character.isAlphanum || character = '_' || character = '$'

section WellKeyed

variable {IsKey : String → Prop}

theorem wellKeyed_text (text : String) : (jsonText text).WellKeyed IsKey := .string _

theorem wellKeyed_texts (texts : List String) : (jsonTexts texts).WellKeyed IsKey := by
  refine .array fun item hmem => ?_
  obtain ⟨text, _, rfl⟩ := List.mem_map.mp hmem
  exact wellKeyed_text text

/-- An object with these identifiers as its keys. -/
theorem wellKeyed_object (hidentifiers : ∀ key, isIdentifier key = true → IsKey key)
    {entries : List (String × Json)} (keys : List String) (hkeys : entries.map (·.1) = keys)
    (hall : keys.all isIdentifier = true) (different : keys.Nodup)
    (values : ∀ entry ∈ entries, entry.2.WellKeyed IsKey) :
    (Json.object entries).WellKeyed IsKey := by
  refine .object (fun entry hmem => hidentifiers entry.1 ?_) (hkeys ▸ different) values
  have hkey : entry.1 ∈ keys := hkeys ▸ List.mem_map.mpr ⟨entry, hmem, rfl⟩
  exact List.all_eq_true.mp hall entry.1 hkey

variable (hidentifiers : ∀ key, isIdentifier key = true → IsKey key)
include hidentifiers

theorem ExternalDependency.wellKeyed (dependency : ExternalDependency) :
    dependency.json.WellKeyed IsKey := by
  refine wellKeyed_object hidentifiers ["key", "description", "verification"] rfl (by decide)
    (by decide) ?_
  simp [wellKeyed_text]

theorem IssueBody.wellKeyed (body : IssueBody) : body.json.WellKeyed IsKey := by
  refine wellKeyed_object hidentifiers ["backgroundProblem", "goal", "requirements",
    "acceptanceCriteria", "technicalNotes", "relevantAreas", "edgeCases", "testingValidation",
    "outOfScope"] rfl (by decide) (by decide) ?_
  simp [wellKeyed_text, wellKeyed_texts]

theorem IssueSource.wellKeyed (source : IssueSource) : source.json.WellKeyed IsKey := by
  refine wellKeyed_object hidentifiers ["linearIssueId", "linearIdentifier", "linearCreatedAt",
    "gitBranchName", "linearBlockedByIdentifiers"] rfl (by decide) (by decide) ?_
  simp [wellKeyed_text, wellKeyed_texts]

theorem PlanningIssue.wellKeyed (issue : PlanningIssue) : issue.json.WellKeyed IsKey := by
  have hproject : Json.WellKeyed IsKey (match issue.projectKey with
      | some key => jsonText key
      | none => .null) := by
    cases issue.projectKey with
    | none => exact .null
    | some key => exact wellKeyed_text key
  have hexternal : Json.WellKeyed IsKey
      (.array (issue.externalDependencies.map ExternalDependency.json)) := by
    refine .array fun item hmem => ?_
    obtain ⟨dependency, _, rfl⟩ := List.mem_map.mp hmem
    exact dependency.wellKeyed hidentifiers
  have hbody := issue.body.wellKeyed hidentifiers
  unfold PlanningIssue.json
  cases issue.source with
  | none =>
      refine wellKeyed_object hidentifiers ["draftKey", "projectKey", "title", "type", "priority",
        "estimate", "complexity", "labels", "repositories", "blockedByDraftKeys",
        "externalDependencies", "body"] rfl (by decide) (by decide) ?_
      simp [wellKeyed_text, wellKeyed_texts, hproject, hexternal, hbody]
  | some source =>
      have hsource := source.wellKeyed hidentifiers
      refine wellKeyed_object hidentifiers ["draftKey", "projectKey", "title", "type", "priority",
        "estimate", "complexity", "labels", "repositories", "blockedByDraftKeys",
        "externalDependencies", "body", "source"] rfl (by decide) (by decide) ?_
      simp [wellKeyed_text, wellKeyed_texts, hproject, hexternal, hbody, hsource]

end WellKeyed

/-! ## Records of heads -/

theorem wellKeyed_heads {IsKey : String → Prop} {heads : Heads}
    (hkeys : ∀ entry ∈ heads, IsKey entry.1) (different : (heads.map (·.1)).Nodup) :
    (headsJson heads).WellKeyed IsKey := by
  refine .object (fun entry hmem => ?_) ?_ fun entry hmem => ?_
  · obtain ⟨head, hhead, rfl⟩ := List.mem_map.mp hmem
    exact hkeys head hhead
  · rw [List.map_map]
    exact different
  · obtain ⟨head, _, rfl⟩ := List.mem_map.mp hmem
    exact wellKeyed_text head.2

/-- Records with the same commit for each key have the same entries. -/
theorem perm_of_sameHeads {left right : Heads} (different : (left.map (·.1)).Nodup)
    (different' : (right.map (·.1)).Nodup) (h : sameHeads left right = true) :
    left.Perm right := by
  rw [List.perm_ext_iff_of_nodup (different.of_map _) (different'.of_map _)]
  rintro ⟨key, commit⟩
  have hlookup : key ∈ left.map (·.1) ++ right.map (·.1) →
      left.lookup key = right.lookup key := fun hmem =>
    of_decide_eq_true (List.all_eq_true.mp h key hmem)
  rw [← lookup_eq_some_iff_mem different, ← lookup_eq_some_iff_mem different']
  constructor
  · intro hleft
    have hmem := (lookup_eq_some_iff_mem different).mp hleft
    rw [← hlookup (List.mem_append_left _ (List.mem_map.mpr ⟨_, hmem, rfl⟩))]
    exact hleft
  · intro hright
    have hmem := (lookup_eq_some_iff_mem different').mp hright
    rw [hlookup (List.mem_append_right _ (List.mem_map.mpr ⟨_, hmem, rfl⟩))]
    exact hright

theorem sameHeads_of_sameValue {left right : Heads}
    (h : SameValue (headsJson left) (headsJson right)) : sameHeads left right = true := by
  obtain ⟨found, hfound, hrel⟩ := h.of_object
  obtain rfl := Json.object.inj hfound
  apply List.all_eq_true.mpr
  intro key _
  apply decide_eq_true
  have hkey := hrel key
  rw [lookup_mapValues, lookup_mapValues] at hkey
  revert hkey
  cases left.lookup key with
  | none =>
      cases right.lookup key with
      | none => exact fun _ => rfl
      | some commit => exact fun hkey => nomatch hkey
  | some commit =>
      cases right.lookup key with
      | none => exact fun hkey => nomatch hkey
      | some commit' =>
          intro hkey
          cases hkey with
          | some hsame => rw [jsonText_inj hsame]

theorem sameValue_of_perm {left right : Heads} (different : (left.map (·.1)).Nodup)
    (h : left.Perm right) : SameValue (headsJson left) (headsJson right) := by
  refine .reorder ?_ (h.map _)
  rw [List.map_map]
  exact different

/-! ## The comparisons -/

/-- `createHash('sha256').update(stableJson(task.contractSnapshot)).digest('hex')`. -/
def contractDigest (localeCompare : String → String → Int) (sha256 : List Char → String)
    (contractSnapshot : Json) : String := sha256 (stableJson localeCompare contractSnapshot)

theorem upsertDiscoveredTask_contractChanged_iff {store : Store} {input : CreateTaskInput}
    {clock : Instant} {existing : Task}
    (hexisting : findByLinearIssue store input.linearIssueId = some existing) :
    upsertDiscoveredTask store input clock = .error (.contractChanged input.linearIssueId) ↔
      existing.contractSnapshot ≠ input.contractSnapshot := by
  have hfound : discoveredTask store input =
      if existing.contractSnapshot ≠ input.contractSnapshot then
        .error (.contractChanged input.linearIssueId)
      else .ok (some existing) := by
    unfold discoveredTask
    rw [hexisting]
  unfold upsertDiscoveredTask
  rw [hfound]
  by_cases hsame : existing.contractSnapshot ≠ input.contractSnapshot
  · rw [if_pos hsame]
    exact ⟨fun _ => hsame, fun _ => rfl⟩
  · rw [if_neg hsame]
    constructor
    · intro h
      cases h
    · intro h
      exact absurd h hsame

/-- Contracts that a store gives back in another order of keys have one text exactly when they
are one contract. -/
theorem stableJson_contract_iff {localeCompare : String → String → Int} {IsKey : String → Prop}
    (horder : TotalOrderOn localeCompare IsKey)
    (hidentifiers : ∀ key, isIdentifier key = true → IsKey key) {issue issue' : PlanningIssue}
    {stored stored' : Json} (hstored : SameValue issue.json stored)
    (hstored' : SameValue issue'.json stored') :
    stableJson localeCompare stored = stableJson localeCompare stored' ↔ issue = issue' := by
  have hkeys := issue.wellKeyed hidentifiers
  have hkeys' := issue'.wellKeyed hidentifiers
  rw [stableJson_eq_iff horder (hstored.wellKeyed hkeys) (hstored'.wellKeyed hkeys')]
  constructor
  · intro hsame
    exact PlanningIssue.json_inj (hstored.trans (hsame.trans hstored'.symm))
  · rintro rfl
    exact hstored.symm.trans hstored'

/-- Equal texts are equal values up to the order of keys, and the contracts, heads and digests
that are compared by their texts are told apart exactly when they differ. -/
theorem stableJson_canonical {localeCompare : String → String → Int} {IsKey : String → Prop}
    (horder : TotalOrderOn localeCompare IsKey)
    (hidentifiers : ∀ key, isIdentifier key = true → IsKey key) :
    (∀ value value' : Json, value.WellKeyed IsKey → value'.WellKeyed IsKey →
      (stableJson localeCompare value = stableJson localeCompare value' ↔
        SameValue value value')) ∧
    (∀ (store : Store) (input : CreateTaskInput) (clock : Instant) (existing : Task)
      (stored : Json), findByLinearIssue store input.linearIssueId = some existing →
      SameValue existing.contractSnapshot.json stored →
      (upsertDiscoveredTask store input clock = .error (.contractChanged input.linearIssueId) ↔
        stableJson localeCompare stored ≠ stableJson localeCompare input.contractSnapshot.json) ∧
      (stableJson localeCompare stored ≠ stableJson localeCompare input.contractSnapshot.json ↔
        existing.contractSnapshot ≠ input.contractSnapshot)) ∧
    (∀ left right : Heads, (left.map (·.1)).Nodup → (right.map (·.1)).Nodup →
      (∀ entry ∈ left ++ right, IsKey entry.1) →
      (sameHeads left right = true ↔ stableJson localeCompare (headsJson left) =
        stableJson localeCompare (headsJson right)) ∧
      (sameHeads left right = true ↔ left.Perm right)) ∧
    ∀ (sha256 : List Char → String) (issue issue' : PlanningIssue) (stored stored' : Json),
      SameValue issue.json stored → SameValue issue'.json stored' →
      -- The two texts are no collision of the hash.
      (sha256 (stableJson localeCompare stored) = sha256 (stableJson localeCompare stored') →
        stableJson localeCompare stored = stableJson localeCompare stored') →
      (contractDigest localeCompare sha256 stored = contractDigest localeCompare sha256 stored' ↔
        issue = issue') := by
  refine ⟨fun value value' hkeys hkeys' => stableJson_eq_iff horder hkeys hkeys', ?_, ?_, ?_⟩
  · intro store input clock existing stored hexisting hstored
    have htext := stableJson_contract_iff horder hidentifiers hstored
      (SameValue.refl input.contractSnapshot.json)
    constructor
    · rw [upsertDiscoveredTask_contractChanged_iff hexisting]
      exact (not_congr htext).symm
    · exact not_congr htext
  · intro left right different different' hkeys
    have hleft := wellKeyed_heads (fun entry hmem => hkeys entry (List.mem_append_left _ hmem))
      different
    have hright := wellKeyed_heads (fun entry hmem => hkeys entry (List.mem_append_right _ hmem))
      different'
    have hperm : sameHeads left right = true ↔ left.Perm right := by
      constructor
      · exact perm_of_sameHeads different different'
      · intro h
        exact sameHeads_of_sameValue (sameValue_of_perm different h)
    refine ⟨?_, hperm⟩
    rw [stableJson_eq_iff horder hleft hright]
    constructor
    · intro h
      exact sameValue_of_perm different (hperm.mp h)
    · exact sameHeads_of_sameValue
  · intro sha256 issue issue' stored stored' hstored hstored' hcollision
    rw [← stableJson_contract_iff horder hidentifiers hstored hstored']
    exact ⟨hcollision, fun h => congrArg sha256 h⟩

/-- A comparison by code points. -/
def byCodePoint (left right : String) : Int :=
  if left = right then 0 else if left ≤ right then -1 else 1

theorem byCodePoint_le_zero {left right : String} :
    byCodePoint left right ≤ 0 ↔ left ≤ right := by
  unfold byCodePoint
  split_ifs with hequal hle
  · simp [hequal]
  · simp [hle]
  · simp [hle]

theorem byCodePoint_totalOrderOn (IsKey : String → Prop) : TotalOrderOn byCodePoint IsKey where
  total left right _ _ := by
    rw [byCodePoint_le_zero, byCodePoint_le_zero]
    exact le_total left right
  trans left middle right _ _ _ hleft hright :=
    byCodePoint_le_zero.mpr
      ((byCodePoint_le_zero.mp hleft).trans (byCodePoint_le_zero.mp hright))
  antisymm left right _ _ hle hge :=
    (byCodePoint_le_zero.mp hle).antisymm (byCodePoint_le_zero.mp hge)

/-- Two objects in two orders of their keys, a persisted contract and one with another key, two
records of heads, and the digest of one contract. -/
theorem stableJson_canonical_sample :
    stableJson byCodePoint (.object [("b", .null), ("a", .array [.bool true])]) =
      stableJson byCodePoint (.object [("a", .array [.bool true]), ("b", .null)]) ∧
    upsertDiscoveredTask (sampleStore [sampleTask 1 .queued])
        { linearIssueId := "linear-1", linearIdentifier := "AI-1",
          contractSnapshot := sampleIssue "other" [], complexity := .low, workUnits := [] } 0 =
      .error (.contractChanged "linear-1") ∧
    stableJson byCodePoint (headsJson [("web", "a"), ("academic", "b")]) =
      stableJson byCodePoint (headsJson [("academic", "b"), ("web", "a")]) ∧
    contractDigest byCodePoint String.ofList (sampleIssue "task" []).json ≠
      contractDigest byCodePoint String.ofList (sampleIssue "other" []).json := by
  have hcanonical := @stableJson_canonical byCodePoint (fun _ => True)
    (byCodePoint_totalOrderOn _) fun _ _ => trivial
  obtain ⟨hvalues, hcontracts, hheads, hdigests⟩ := hcanonical
  refine ⟨?_, ?_, ?_, ?_⟩
  · refine (hvalues _ _ ?_ ?_).mpr (.reorder (by decide) (.swap _ _ _))
    · exact .object (fun _ _ => trivial) (by decide)
        (by simp [Json.WellKeyed.null, Json.WellKeyed.array, Json.WellKeyed.bool])
    · exact .object (fun _ _ => trivial) (by decide)
        (by simp [Json.WellKeyed.null, Json.WellKeyed.array, Json.WellKeyed.bool])
  · obtain ⟨hreports, hdiffers⟩ := hcontracts (sampleStore [sampleTask 1 .queued])
      { linearIssueId := "linear-1", linearIdentifier := "AI-1",
        contractSnapshot := sampleIssue "other" [], complexity := .low, workUnits := [] } 0
      (sampleTask 1 .queued) (sampleIssue "task" []).json rfl (.refl _)
    exact hreports.mpr (hdiffers.mpr (by decide))
  · exact (hheads [("web", "a"), ("academic", "b")] [("academic", "b"), ("web", "a")] (by decide)
      (by decide) fun _ _ => trivial).1.mp (by decide)
  · have hdigest := hdigests String.ofList (sampleIssue "task" []) (sampleIssue "other" []) _ _
      (.refl _) (.refl _) fun h => String.ofList_injective h
    rw [ne_eq, hdigest]
    decide

end Orchestrator
