import Orchestrator.Intake.PlanningContract
import Orchestrator.Kit.Kahn

/-! # The order of a backlog

The third and fourth loop of `planningBacklogSchema` as the in-degree loop over the
blocked-by relation: what `hasCycle` decides, and the order that an accepted backlog
admits.
-/

namespace Orchestrator

open Kit

/-- The issue with key `blocked` lists `blocker` as one of its blockers. -/
def Blocks (issues : List PlanningIssue) (blocker blocked : String) : Prop :=
  ∃ issue ∈ issues, issue.draftKey = blocked ∧ blocker ∈ issue.blockedByDraftKeys

/-- The blocked-by relation has a cycle. -/
def HasBlockedByCycle (issues : List PlanningIssue) : Prop :=
  ∃ key, Relation.TransGen (Blocks issues) key key

/-- Draft keys are unique, and every listed blocker is another issue of the backlog. -/
structure KnownBlockers (issues : List PlanningIssue) : Prop where
  keysNodup : (issues.map (·.draftKey)).Nodup
  blockersKnown : ∀ issue ∈ issues, ∀ key ∈ issue.blockedByDraftKeys,
    key ≠ issue.draftKey ∧ key ∈ issues.map (·.draftKey)

theorem WellKeyed.knownBlockers {issues : List PlanningIssue} (h : WellKeyed issues) :
    KnownBlockers issues :=
  ⟨h.keysNodup, h.blockersKnown⟩

/-- `blockedByDraftKeys` of the issue with this key. -/
def blockersOf (issues : List PlanningIssue) (key : String) : List String :=
  match issues.find? fun issue => issue.draftKey = key with
  | none => []
  | some issue => issue.blockedByDraftKeys

/-- The queue loop's turn on `inDegree` and `queue`. -/
def queueTurn (dependentKeys : List (String × List String))
    (state : List (String × Int) × List String) : List (String × Int) × List String :=
  match state.2 with
  | [] => state
  | key :: queue => (lookupD dependentKeys key []).foldl releaseDependent (state.1, queue)

/-- `inDegree` and `queue` before the queue loop. -/
def queueStart (issues : List PlanningIssue) : List (String × Int) × List String :=
  let graph := dependencyGraph issues
  (graph.inDegree, (graph.inDegree.filter (·.2 = 0)).map (·.1))

/-! ## The maps of the third loop -/

theorem lookupD_setEntry {α : Type*} {entries : List (String × α)} {key other : String}
    {value fallback : α} : lookupD (setEntry entries key value) other fallback =
      if other = key then value else lookupD entries other fallback := by
  unfold lookupD
  rw [lookup_setEntry]
  split_ifs <;> rfl

theorem setEntry_new {α : Type*} {entries : List (String × α)} {key : String} {value : α}
    (hnew : key ∉ entries.map (·.1)) : setEntry entries key value = entries ++ [(key, value)] := by
  have hnone : (entries.any fun entry => decide (entry.1 = key)) = false := by
    rw [List.any_eq_false]
    intro entry hentry
    simpa using fun h => hnew (List.mem_map.mpr ⟨entry, hentry, h⟩)
  unfold setEntry
  rw [hnone]
  rfl

theorem setEntry_last {α : Type*} {entries : List (String × α)} {key : String} {old value : α}
    (hnew : key ∉ entries.map (·.1)) :
    setEntry (entries ++ [(key, old)]) key value = entries ++ [(key, value)] := by
  have hkept : entries.map (fun entry => if entry.1 = key then (key, value) else entry) =
      entries := by
    rw [List.map_congr_left (g := id), List.map_id]
    intro entry hentry
    exact if_neg fun h => hnew (List.mem_map.mpr ⟨entry, hentry, h⟩)
  simp [setEntry, hkept]

theorem lookupD_last {α : Type*} {entries : List (String × α)} {key : String} {value fallback : α}
    (hnew : key ∉ entries.map (·.1)) :
    lookupD (entries ++ [(key, value)]) key fallback = value := by
  have hnone : entries.lookup key = none := by
    rw [List.lookup_eq_none_iff]
    intro entry hentry
    simpa using fun h => hnew (List.mem_map.mpr ⟨entry, hentry, Eq.symm h⟩)
  simp [lookupD, List.lookup_append, hnone]

/-- The inner loop counts the blockers of its issue and lists the issue under each. -/
theorem foldl_addBlocker {known : List String} {key : String} {blockers : List String}
    (hknown : ∀ blocker ∈ blockers, blocker ≠ key ∧ blocker ∈ known)
    {entries : List (String × Int)} (hnew : key ∉ entries.map (·.1)) (degree : Int)
    (dependentKeys : List (String × List String)) :
    let graph := blockers.foldl (DependencyGraph.addBlocker known key)
      ⟨entries ++ [(key, degree)], dependentKeys⟩
    graph.inDegree = entries ++ [(key, degree + blockers.length)] ∧
      ∀ other, lookupD graph.dependentKeys other [] =
        lookupD dependentKeys other [] ++ List.replicate (blockers.count other) key := by
  induction blockers generalizing degree dependentKeys with
  | nil => simp
  | cons blocker blockers ih =>
      have hblocker := hknown blocker List.mem_cons_self
      -- The entry of the issue is the last one, so counting changes it alone.
      have hadd : DependencyGraph.addBlocker known key
          ⟨entries ++ [(key, degree)], dependentKeys⟩ blocker =
          ⟨entries ++ [(key, degree + 1)], setEntry dependentKeys blocker
            (lookupD dependentKeys blocker [] ++ [key])⟩ := by
        unfold DependencyGraph.addBlocker
        rw [if_neg (by simpa using hblocker)]
        rw [setEntry_last hnew, lookupD_last hnew]
      rw [List.foldl_cons, hadd]
      rcases ih (fun other hother => hknown other (List.mem_cons_of_mem _ hother)) (degree + 1)
        (setEntry dependentKeys blocker (lookupD dependentKeys blocker [] ++ [key])) with
        ⟨hdegree, hlookup⟩
      constructor
      · rw [hdegree, List.length_cons]
        push_cast
        rw [add_assoc, add_comm 1]
      · intro other
        rw [hlookup other, lookupD_setEntry]
        by_cases heq : other = blocker
        · subst heq
          rw [if_pos rfl, List.count_cons_self, List.append_assoc, List.singleton_append,
            List.replicate_succ]
        · rw [if_neg heq, List.count_cons_of_ne (fun h => heq h.symm)]

/-- The third loop over the issues `rest`. -/
theorem foldl_issues {known : List String} {rest : List PlanningIssue}
    (hnodup : (rest.map (·.draftKey)).Nodup)
    (hknown : ∀ issue ∈ rest, ∀ key ∈ issue.blockedByDraftKeys, key ≠ issue.draftKey ∧ key ∈ known)
    (start : DependencyGraph) (hnew : ∀ issue ∈ rest, issue.draftKey ∉ start.inDegree.map (·.1)) :
    let graph := rest.foldl (fun graph issue =>
      issue.blockedByDraftKeys.foldl (DependencyGraph.addBlocker known issue.draftKey)
        { graph with inDegree := setEntry graph.inDegree issue.draftKey 0 }) start
    graph.inDegree = start.inDegree ++
        rest.map (fun issue => (issue.draftKey, (issue.blockedByDraftKeys.length : Int))) ∧
      ∀ key, lookupD graph.dependentKeys key [] = lookupD start.dependentKeys key [] ++
        rest.flatMap fun issue =>
          List.replicate (issue.blockedByDraftKeys.count key) issue.draftKey := by
  induction rest generalizing start with
  | nil => simp
  | cons issue rest ih =>
      have hfresh := hnew issue List.mem_cons_self
      rcases foldl_addBlocker (hknown issue List.mem_cons_self) hfresh 0 start.dependentKeys with
        ⟨hdegree, hlookup⟩
      rw [List.foldl_cons, setEntry_new hfresh]
      rw [List.map_cons, List.nodup_cons] at hnodup
      rcases ih hnodup.2 (fun other hother => hknown other (List.mem_cons_of_mem _ hother)) _
        (by
          intro other hother
          rw [hdegree, List.map_append, List.mem_append, not_or]
          refine ⟨hnew other (List.mem_cons_of_mem _ hother), ?_⟩
          simp only [List.map_cons, List.map_nil, List.mem_singleton]
          exact fun h => hnodup.1 (List.mem_map.mpr ⟨other, hother, h⟩)) with ⟨hdegrees, hlookups⟩
      constructor
      · rw [hdegrees, hdegree, List.map_cons, List.append_assoc, List.singleton_append, zero_add]
      · intro key
        rw [hlookups key, hlookup key, List.flatMap_cons, List.append_assoc]

theorem dependencyGraph_inDegree {issues : List PlanningIssue} (h : KnownBlockers issues) :
    (dependencyGraph issues).inDegree =
      issues.map fun issue => (issue.draftKey, (issue.blockedByDraftKeys.length : Int)) := by
  have hgraph := foldl_issues h.keysNodup h.blockersKnown ⟨[], []⟩ (fun _ _ hmem => by cases hmem)
  exact hgraph.1

theorem dependencyGraph_dependentKeys {issues : List PlanningIssue} (h : KnownBlockers issues)
    (key : String) : lookupD (dependencyGraph issues).dependentKeys key [] =
      issues.flatMap fun issue =>
        List.replicate (issue.blockedByDraftKeys.count key) issue.draftKey := by
  have hgraph := foldl_issues h.keysNodup h.blockersKnown ⟨[], []⟩ (fun _ _ hmem => by cases hmem)
  exact hgraph.2 key

/-! ## The graph of a backlog -/

theorem blockersOf_of_mem {issues : List PlanningIssue} (hnodup : (issues.map (·.draftKey)).Nodup)
    {issue : PlanningIssue} (hmem : issue ∈ issues) :
    blockersOf issues issue.draftKey = issue.blockedByDraftKeys := by
  unfold blockersOf
  induction issues with
  | nil => cases hmem
  | cons first issues ih =>
      rw [List.map_cons, List.nodup_cons] at hnodup
      rcases List.mem_cons.mp hmem with rfl | hmem
      · rw [List.find?_cons_of_pos (by simp)]
      · have hne : first.draftKey ≠ issue.draftKey := fun h =>
          hnodup.1 (h ▸ List.mem_map_of_mem hmem)
        rw [List.find?_cons_of_neg (by simpa using hne)]
        exact ih hnodup.2 hmem

theorem mem_blockersOf_iff {issues : List PlanningIssue}
    (hnodup : (issues.map (·.draftKey)).Nodup) {blocker blocked : String} :
    blocker ∈ blockersOf issues blocked ↔ Blocks issues blocker blocked := by
  constructor
  · intro hmem
    unfold blockersOf at hmem
    cases hfound : issues.find? fun issue => issue.draftKey = blocked with
    | none =>
        rw [hfound] at hmem
        cases hmem
    | some issue =>
        rw [hfound] at hmem
        have hkey : issue.draftKey = blocked := by simpa using List.find?_some hfound
        exact ⟨issue, List.mem_of_find?_eq_some hfound, hkey, hmem⟩
  · rintro ⟨issue, hmem, rfl, hblocker⟩
    rw [blockersOf_of_mem hnodup hmem]
    exact hblocker

/-- A key outside the backlog is under no blocker. -/
theorem blockersOf_of_not_mem {issues : List PlanningIssue} {key : String}
    (hkey : key ∉ issues.map (·.draftKey)) : blockersOf issues key = [] := by
  have hnone : issues.find? (fun issue => issue.draftKey = key) = none := by
    rw [List.find?_eq_none]
    intro issue hmem
    simpa using fun h => hkey (List.mem_map.mpr ⟨issue, hmem, h⟩)
  unfold blockersOf
  rw [hnone]

/-- An issue stands under a blocker as often as it lists it. -/
theorem count_dependents {issues : List PlanningIssue} (hnodup : (issues.map (·.draftKey)).Nodup)
    (key blocked : String) :
    (issues.flatMap fun issue =>
      List.replicate (issue.blockedByDraftKeys.count key) issue.draftKey).count blocked =
      (blockersOf issues blocked).count key := by
  induction issues with
  | nil => simp [blockersOf]
  | cons first issues ih =>
      rw [List.map_cons, List.nodup_cons] at hnodup
      rw [List.flatMap_cons, List.count_append, ih hnodup.2, List.count_replicate]
      by_cases heq : first.draftKey = blocked
      · have hrest : blockersOf issues blocked = [] := blockersOf_of_not_mem (heq ▸ hnodup.1)
        have hfirst : blockersOf (first :: issues) blocked = first.blockedByDraftKeys := by
          unfold blockersOf
          rw [List.find?_cons_of_pos (by simpa using heq)]
        rw [hrest, hfirst]
        simp [heq]
      · have hrest : blockersOf (first :: issues) blocked = blockersOf issues blocked := by
          unfold blockersOf
          rw [List.find?_cons_of_neg (by simpa using heq)]
        rw [hrest, if_neg (by simpa using heq), zero_add]

/-- The graph that the third loop builds. -/
def dependencyMultigraph (issues : List PlanningIssue) (h : KnownBlockers issues) :
    Multigraph String where
  vertices := issues.map (·.draftKey)
  nodup := h.keysNodup
  before := blockersOf issues
  after := fun key => lookupD (dependencyGraph issues).dependentKeys key []
  count_after := by
    intro key blocked
    rw [dependencyGraph_dependentKeys h]
    exact count_dependents h.keysNodup key blocked
  mem_of_before := by
    intro blocker blocked hblocker
    rcases (mem_blockersOf_iff h.keysNodup).mp hblocker with ⟨issue, hmem, rfl, hlisted⟩
    exact ⟨(h.blockersKnown issue hmem blocker hlisted).2, List.mem_map_of_mem hmem⟩

theorem cyclic_iff {issues : List PlanningIssue} (h : KnownBlockers issues) :
    (dependencyMultigraph issues h).Cyclic ↔ HasBlockedByCycle issues := by
  have hedge : (dependencyMultigraph issues h).Edge = Blocks issues := by
    funext blocker blocked
    exact propext (mem_blockersOf_iff h.keysNodup)
  unfold Multigraph.Cyclic HasBlockedByCycle
  rw [hedge]

/-! ## The queue loop -/

/-- The maps of the code stand for a state of the loop over the graph. -/
structure Represents (state : List (String × Int) × List String) (s : Visit String) : Prop where
  degree : ∀ key, lookupD state.1 key 0 = s.degree key
  queue : state.2 = s.queue

theorem foldl_releaseDependent (edges : List String) {inDegree : List (String × Int)}
    {degree : String → Int} (queue : List String)
    (hdegree : ∀ key, lookupD inDegree key 0 = degree key) :
    (∀ key, lookupD (edges.foldl releaseDependent (inDegree, queue)).1 key 0 =
      (edges.foldl release (degree, queue)).1 key) ∧
    (edges.foldl releaseDependent (inDegree, queue)).2 =
      (edges.foldl release (degree, queue)).2 := by
  induction edges generalizing inDegree degree queue with
  | nil => exact ⟨hdegree, rfl⟩
  | cons first edges ih =>
      have hnext : ∀ key, lookupD (setEntry inDegree first (lookupD inDegree first 0 - 1)) key 0 =
          Function.update degree first (degree first - 1) key := by
        intro key
        rw [lookupD_setEntry, hdegree first, Function.update_apply, hdegree key]
      rw [List.foldl_cons, List.foldl_cons]
      unfold releaseDependent release at ih ⊢
      rw [hdegree first]
      rw [hdegree first] at hnext
      exact ih _ hnext

theorem Represents.turn {issues : List PlanningIssue} {h : KnownBlockers issues}
    {state : List (String × Int) × List String} {s : Visit String} (hstate : Represents state s) :
    Represents (queueTurn (dependencyGraph issues).dependentKeys state)
      ((dependencyMultigraph issues h).turn s) := by
  unfold queueTurn Multigraph.turn
  rw [← hstate.queue]
  cases hqueue : state.2 with
  | nil => exact ⟨hstate.degree, hstate.queue⟩
  | cons key queue =>
      rcases foldl_releaseDependent (lookupD (dependencyGraph issues).dependentKeys key [])
        queue hstate.degree with ⟨hdegree, hnext⟩
      exact ⟨hdegree, hnext⟩

theorem lookupD_degrees (issues : List PlanningIssue) (key : String) :
    lookupD (issues.map fun issue => (issue.draftKey, (issue.blockedByDraftKeys.length : Int))) key
      0 = ((blockersOf issues key).length : Int) := by
  unfold lookupD blockersOf
  induction issues with
  | nil => rfl
  | cons first issues ih =>
      by_cases heq : first.draftKey = key
      · rw [List.find?_cons_of_pos (by simpa using heq), List.map_cons, List.lookup_cons, heq]
        simp
      · rw [List.find?_cons_of_neg (by simpa using heq), List.map_cons, List.lookup_cons,
          beq_false_of_ne (fun h => heq h.symm)]
        exact ih

theorem represents_start {issues : List PlanningIssue} (h : KnownBlockers issues) :
    Represents (queueStart issues) (dependencyMultigraph issues h).start := by
  have hblockers : ∀ issue ∈ issues, blockersOf issues issue.draftKey = issue.blockedByDraftKeys :=
    fun issue hmem => blockersOf_of_mem h.keysNodup hmem
  constructor
  · intro key
    show lookupD (dependencyGraph issues).inDegree key 0 = ((blockersOf issues key).length : Int)
    rw [dependencyGraph_inDegree h]
    exact lookupD_degrees issues key
  · show ((dependencyGraph issues).inDegree.filter (·.2 = 0)).map (·.1) =
      (issues.map (·.draftKey)).filter fun key => ((blockersOf issues key).length : Int) = 0
    rw [dependencyGraph_inDegree h, List.filter_map, List.map_map, List.filter_map]
    refine congrArg (List.map _) (List.filter_congr fun issue hmem => ?_)
    simp [hblockers issue hmem]

theorem represents_iterate {issues : List PlanningIssue} (h : KnownBlockers issues)
    (turns : Nat) :
    Represents ((queueTurn (dependencyGraph issues).dependentKeys)^[turns] (queueStart issues))
      ((dependencyMultigraph issues h).turn^[turns] (dependencyMultigraph issues h).start) := by
  induction turns with
  | zero => exact represents_start h
  | succ turns ih =>
      rw [Function.iterate_succ_apply', Function.iterate_succ_apply']
      exact ih.turn

/-- The visited counter after the queue loop. -/
theorem visitedCount_eq {issues : List PlanningIssue} (h : KnownBlockers issues) (fuel : Nat)
    {state : List (String × Int) × List String} {s : Visit String} (hstate : Represents state s) :
    visitedCount (dependencyGraph issues).dependentKeys fuel state.1 state.2 + s.visited.length =
      ((dependencyMultigraph issues h).turn^[fuel] s).visited.length := by
  induction fuel generalizing state s with
  | zero => simp [visitedCount]
  | succ fuel ih =>
      have hturn := hstate.turn (h := h)
      rw [Function.iterate_succ_apply, ← ih hturn]
      have hsame := hstate.queue
      cases hqueue : state.2 with
      | nil =>
          rw [hqueue] at hsame
          rw [Multigraph.turn_of_queue_nil hsame.symm]
          unfold queueTurn
          simp only [hqueue]
          cases fuel <;> rfl
      | cons key queue =>
          have hnonempty : s.queue ≠ [] := by
            rw [← hsame, hqueue]
            exact List.cons_ne_nil _ _
          rw [Multigraph.turn_visited hnonempty]
          unfold queueTurn
          simp only [hqueue, visitedCount]
          omega

theorem hasCycle_iff {issues : List PlanningIssue} (h : KnownBlockers issues) :
    hasCycle issues = true ↔ HasBlockedByCycle issues := by
  have hcount := visitedCount_eq h issues.length (represents_start h)
  have hlength : (dependencyMultigraph issues h).vertices.length = issues.length :=
    List.length_map _
  have horder := (dependencyMultigraph issues h).length_order_iff
  unfold Multigraph.order at horder
  rw [hlength, ← hcount] at horder
  rw [← cyclic_iff h, ← not_iff_not, ← horder]
  simp [hasCycle, queueStart, Multigraph.start]

/-! ## What the check decides -/

def cycleFinding : SchemaIssue := ⟨[.field "issues"], "dependency graph contains a cycle"⟩

/-- The issues in an order in which each comes after all its blockers. -/
def BlockersFirst (order : List PlanningIssue) : Prop :=
  ∀ front issue back, order = front ++ issue :: back →
    ∀ key ∈ issue.blockedByDraftKeys, key ∈ front.map (·.draftKey)

theorem mem_issueIf {failed : Bool} {path : List PathItem} {message : String}
    {finding : SchemaIssue} :
    finding ∈ issueIf failed path message ↔ failed = true ∧ finding = ⟨path, message⟩ := by
  cases failed <;> simp [issueIf]

/-- No finding of the list has the cycle's message. -/
def WithoutCycleFinding (findings : List SchemaIssue) : Prop :=
  ∀ finding ∈ findings, finding.message ≠ cycleFinding.message

theorem WithoutCycleFinding.append {front back : List SchemaIssue}
    (hfront : WithoutCycleFinding front) (hback : WithoutCycleFinding back) :
    WithoutCycleFinding (front ++ back) := by
  intro finding hmem
  rcases List.mem_append.mp hmem with hmem | hmem
  · exact hfront finding hmem
  · exact hback finding hmem

theorem withoutCycleFinding_issueIf {failed : Bool} {path : List PathItem} {message : String}
    (hmessage : message ≠ cycleFinding.message) :
    WithoutCycleFinding (issueIf failed path message) := by
  intro finding hmem
  rcases mem_issueIf.mp hmem with ⟨-, rfl⟩
  exact hmessage

theorem withoutCycleFinding_nil : WithoutCycleFinding [] := fun _ hmem => by cases hmem

theorem withoutCycleFinding_issue (issue : PlanningIssue) :
    WithoutCycleFinding (planningIssueFindings issue) := by
  unfold planningIssueFindings
  dsimp only
  refine ((((WithoutCycleFinding.append ?_ ?_).append ?_).append ?_).append ?_).append ?_ <;>
    exact withoutCycleFinding_issueIf (by decide)

theorem withoutCycleFinding_projects (keys : List String) (index : Nat)
    (projects : List PlanningProject) :
    WithoutCycleFinding (projectFindings keys index projects) := by
  induction projects generalizing keys index with
  | nil => exact withoutCycleFinding_nil
  | cons project projects ih =>
      exact (withoutCycleFinding_issueIf (by decide)).append (ih _ _)

theorem withoutCycleFinding_issueKeys (projectKeys seen : List String) (index : Nat)
    (issues : List PlanningIssue) :
    WithoutCycleFinding (issueKeyFindings projectKeys seen index issues) := by
  induction issues generalizing seen index with
  | nil => exact withoutCycleFinding_nil
  | cons issue issues ih =>
      exact ((withoutCycleFinding_issueIf (by decide)).append
        (withoutCycleFinding_issueIf (by decide))).append (ih _ _)

theorem withoutCycleFinding_blockers (known : List String) (key : String) (index : Nat)
    (seen : List String) (position : Nat) (blockers : List String) :
    WithoutCycleFinding (blockerFindings known key index seen position blockers) := by
  induction blockers generalizing seen position with
  | nil => exact withoutCycleFinding_nil
  | cons blocker blockers ih =>
      unfold blockerFindings
      dsimp only
      refine ((withoutCycleFinding_issueIf (by decide)).append ?_).append (ih _ _)
      split_ifs
      · intro finding hmem
        rcases List.mem_singleton.mp hmem with rfl
        exact show "issue cannot block itself" ≠ _ by decide
      · exact withoutCycleFinding_issueIf (by decide)

theorem withoutCycleFinding_dependencies (all : List PlanningIssue) (index : Nat)
    (issues : List PlanningIssue) : WithoutCycleFinding (dependencyFindings all index issues) := by
  induction issues generalizing index with
  | nil => exact withoutCycleFinding_nil
  | cons issue issues ih =>
      unfold dependencyFindings
      refine ((withoutCycleFinding_blockers _ _ _ _ _ _).append ?_).append (ih _)
      cases issue.source with
      | none => exact withoutCycleFinding_nil
      | some source => exact withoutCycleFinding_issueIf (by decide)

/-- The finding comes from the queue loop alone. -/
theorem cycleFinding_mem_iff (backlog : PlanningBacklog) :
    cycleFinding ∈ planningBacklogFindings backlog ↔ hasCycle backlog.issues = true := by
  have hissues : WithoutCycleFinding (backlog.issues.flatMap planningIssueFindings) := by
    intro finding hmem
    rcases List.mem_flatMap.mp hmem with ⟨issue, -, hmem⟩
    exact withoutCycleFinding_issue issue finding hmem
  unfold planningBacklogFindings
  dsimp only
  rw [List.mem_append, mem_issueIf]
  constructor
  · rintro (hother | ⟨hcycle, -⟩)
    · refine absurd rfl (((((WithoutCycleFinding.append ?_ hissues).append
        (withoutCycleFinding_projects _ _ _)).append
        (withoutCycleFinding_issueKeys _ _ _ _)).append ?_).append
        (withoutCycleFinding_dependencies _ _ _) _ hother) <;>
        exact withoutCycleFinding_issueIf (by decide)
    · exact hcycle
  · intro hcycle
    exact .inr ⟨hcycle, rfl⟩

theorem queueLoop_ends {issues : List PlanningIssue} (h : KnownBlockers issues) :
    ((queueTurn (dependencyGraph issues).dependentKeys)^[issues.length] (queueStart issues)).2 =
      [] := by
  have hempty := (dependencyMultigraph issues h).queue_empties
  have hlength : (dependencyMultigraph issues h).vertices.length = issues.length :=
    List.length_map _
  rw [hlength] at hempty
  exact (represents_iterate h issues.length).queue.trans hempty

/-- Without a cycle the visited keys give an order of the issues. -/
theorem exists_blockersFirst {issues : List PlanningIssue} (h : KnownBlockers issues)
    (hacyclic : ¬ HasBlockedByCycle issues) :
    ∃ order : List PlanningIssue, order.Perm issues ∧ BlockersFirst order := by
  have hG := mt (cyclic_iff h).mp hacyclic
  have hkeys : (dependencyMultigraph issues h).order.Perm (issues.map (·.draftKey)) :=
    (List.perm_ext_iff_of_nodup (Multigraph.order_nodup _) h.keysNodup).mpr fun key =>
      ⟨(Multigraph.sound_iterate _ _).visited_subset, Multigraph.mem_order_of_acyclic hG⟩
  -- The issues in the order of their keys.
  have horder : Relation.Comp (· = List.map (fun issue : PlanningIssue => issue.draftKey) ·)
      (·.Perm ·) (dependencyMultigraph issues h).order issues := by
    rw [List.eq_map_comp_perm]
    exact hkeys
  rcases horder with ⟨order, hmap, hperm⟩
  refine ⟨order, hperm, ?_⟩
  intro front issue back hsplit key hkey
  have hmem : issue ∈ issues := hperm.subset (by simp [hsplit])
  apply (dependencyMultigraph issues h).order_ordered (front.map (·.draftKey)) issue.draftKey
    (back.map (·.draftKey))
  · rw [hmap, hsplit, List.map_append, List.map_cons]
  · exact (mem_blockersOf_iff h.keysNodup).mpr ⟨issue, hmem, rfl, hkey⟩

theorem ValidBacklog.not_cyclic {backlog : PlanningBacklog} (h : ValidBacklog backlog) :
    ¬ HasBlockedByCycle backlog.issues := by
  rw [← hasCycle_iff h.wellKeyed.knownBlockers, ← cycleFinding_mem_iff, h]
  exact List.not_mem_nil

/-- On unique keys with known blockers the queue loop ends and reports a cycle exactly when
the blocked-by relation has one; an accepted backlog can be worked off in order. -/
theorem cycle_check_exact :
    (∀ backlog : PlanningBacklog, KnownBlockers backlog.issues →
      ((queueTurn (dependencyGraph backlog.issues).dependentKeys)^[backlog.issues.length]
        (queueStart backlog.issues)).2 = [] ∧
      (cycleFinding ∈ planningBacklogFindings backlog ↔ HasBlockedByCycle backlog.issues)) ∧
    ∀ backlog : PlanningBacklog, ValidBacklog backlog →
      ∃ order : List PlanningIssue, order.Perm backlog.issues ∧ BlockersFirst order := by
  constructor
  · intro backlog h
    exact ⟨queueLoop_ends h, (cycleFinding_mem_iff backlog).trans (hasCycle_iff h)⟩
  · intro backlog h
    exact exists_blockersFirst h.wellKeyed.knownBlockers h.not_cyclic

def chainBacklog : PlanningBacklog := ⟨[], [sampleIssue "b" ["a"], sampleIssue "a" []]⟩

def loopBacklog : PlanningBacklog := ⟨[], [sampleIssue "a" ["b"], sampleIssue "b" ["a"]]⟩

theorem cycle_check_exact_sample :
    (cycleFinding ∈ planningBacklogFindings loopBacklog ↔
        HasBlockedByCycle loopBacklog.issues) ∧
      ∃ order : List PlanningIssue, order.Perm chainBacklog.issues ∧ BlockersFirst order :=
  ⟨(cycle_check_exact.1 loopBacklog ⟨by decide, by decide⟩).2,
    cycle_check_exact.2 chainBacklog (by decide +kernel)⟩

end Orchestrator
