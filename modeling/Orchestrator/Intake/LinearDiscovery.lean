import Orchestrator.Repositories.DiscoveredTasks

/-! # Persisting a Linear intake report

`persistLinearIntake` (`intake/linear-discovery.ts`), once as the function that
runs by itself and once as the sequence of transactions that other workers can
interleave with; `persistLinearIntake_eq_steps` connects the two.
-/

namespace Orchestrator

open Kit TaskState

structure QuarantineCandidate where
  id : String
  identifier : String
  reason : String
  payload : QuarantinePayload
  deriving DecidableEq

structure IgnoredIssue where
  identifier : String
  reason : String
  deriving DecidableEq

structure IntakeReport where
  eligible : List PlanningIssue
  quarantined : List QuarantineCandidate := []
  ignored : List IgnoredIssue := []
  deriving DecidableEq

/-- The local `taskIds` map and the report's growing quarantine list. -/
structure IntakeProgress where
  taskIds : List (String × TaskId) := []
  quarantined : List QuarantineCandidate := []
  deriving DecidableEq

/-- The argument of `upsertDiscoveredTask` for one issue. -/
def discoveredInput (issue : PlanningIssue) (source : IssueSource) : CreateTaskInput where
  linearIssueId := source.linearIssueId
  linearIdentifier := source.linearIdentifier
  contractSnapshot := issue
  complexity := issue.complexity
  workUnits := issue.repositories.map fun repositoryName => { repository := repositoryName.text }

def IntakeProgress.setTask (progress : IntakeProgress) (draftKey : String) (taskId : TaskId) :
    IntakeProgress :=
  { progress with taskIds := setEntry progress.taskIds draftKey taskId }

/-- A changed contract is reported; the issue gets no entry in `taskIds`. -/
def IntakeProgress.quarantineChanged (progress : IntakeProgress) (issue : PlanningIssue)
    (source : IssueSource) : IntakeProgress :=
  { progress with quarantined := progress.quarantined ++
      [⟨source.linearIssueId, source.linearIdentifier,
        (WorkflowError.contractChanged source.linearIssueId).message, .contract issue⟩] }

/-- The `catch` of the first loop. -/
def catchChanged (progress : IntakeProgress) (issue : PlanningIssue) (source : IssueSource) :
    WorkflowError → Except WorkflowError IntakeProgress
  | .contractChanged _ => .ok (progress.quarantineChanged issue source)
  | failure => .error failure

/-- The body of the first loop. -/
def persistIssue (store : Store) (progress : IntakeProgress) (issue : PlanningIssue)
    (clock : Instant) : Except WorkflowError (Store × IntakeProgress) :=
  match issue.source with
  | none => .ok (store, progress)
  | some source =>
      match upsertDiscoveredTask store (discoveredInput issue source) clock with
      | .ok (store, task, _) => .ok (store, progress.setTask issue.draftKey task.id)
      | .error failure => do
          let progress ← catchChanged progress issue source failure
          return (store, progress)

def persistIssues (clock : Instant) : Store → IntakeProgress → List PlanningIssue →
    Except WorkflowError (Store × IntakeProgress)
  | store, progress, [] => .ok (store, progress)
  | store, progress, issue :: issues => do
      let next ← persistIssue store progress issue clock
      persistIssues clock next.1 next.2 issues

/-- The blockers the map knows; the others are dropped. -/
def knownBlockers (progress : IntakeProgress) (issue : PlanningIssue) : List TaskId :=
  issue.blockedByDraftKeys.filterMap fun key => progress.taskIds.lookup key

/-- The body of the second loop. -/
def linkIssue (store : Store) (progress : IntakeProgress) (issue : PlanningIssue) :
    Except WorkflowError Store :=
  match progress.taskIds.lookup issue.draftKey with
  | none => .ok store
  | some taskId => replaceDependencies store taskId (knownBlockers progress issue)

def linkIssues (progress : IntakeProgress) : Store → List PlanningIssue →
    Except WorkflowError Store
  | store, [] => .ok store
  | store, issue :: issues => do
      let store ← linkIssue store progress issue
      linkIssues progress store issues

def quarantineCandidate (store : Store) (candidate : QuarantineCandidate) (clock : Instant) :
    Store :=
  quarantineIntake store
    ⟨candidate.id, candidate.identifier, candidate.reason, candidate.payload, clock⟩

def persistLinearIntake (store : Store) (report : IntakeReport) (clock : Instant) :
    Except WorkflowError Store := do
  let persisted ← persistIssues clock store { quarantined := report.quarantined } report.eligible
  let store ← linkIssues persisted.2 persisted.1 report.eligible
  return persisted.2.quarantined.foldl (fun store candidate =>
    quarantineCandidate store candidate clock) store

/-! ## One transaction at a time -/

/-- Where a pass stands; the list is what the current loop has still to do. -/
inductive IntakePhase
  | discovering (issues : List PlanningIssue)
  | creating (issue : PlanningIssue) (source : IssueSource) (issues : List PlanningIssue)
  | linking (issues : List PlanningIssue)
  | quarantining (candidates : List QuarantineCandidate)
  deriving DecidableEq

/-- A running `persistLinearIntake`. -/
structure IntakePass where
  eligible : List PlanningIssue
  progress : IntakeProgress
  phase : IntakePhase
  deriving DecidableEq

def startIntake (report : IntakeReport) : IntakePass :=
  ⟨report.eligible, { quarantined := report.quarantined }, .discovering report.eligible⟩

/-- Continue the first loop, or leave it for the second. -/
def IntakePass.discover (pass : IntakePass) (progress : IntakeProgress)
    (issues : List PlanningIssue) : IntakePass :=
  { pass with progress, phase := .discovering issues }

/-- The next transaction of a pass; `none` when `persistLinearIntake` has returned. -/
def intakeStep (store : Store) (pass : IntakePass) (clock : Instant) :
    Except WorkflowError (Store × Option IntakePass) :=
  match pass.phase with
  | .discovering [] => .ok (store, some { pass with phase := .linking pass.eligible })
  | .discovering (issue :: issues) =>
      match issue.source with
      | none => .ok (store, some (pass.discover pass.progress issues))
      | some source =>
          match discoveredTask store (discoveredInput issue source) with
          | .ok (some existing) =>
              .ok (store, some (pass.discover
                (pass.progress.setTask issue.draftKey existing.id) issues))
          -- Another pass may create the row before this one does.
          | .ok none => .ok (store, some { pass with phase := .creating issue source issues })
          | .error failure => do
              let progress ← catchChanged pass.progress issue source failure
              return (store, some (pass.discover progress issues))
  | .creating issue source issues =>
      match createTask store (discoveredInput issue source) clock with
      | .ok (store, task) =>
          .ok (store, some (pass.discover (pass.progress.setTask issue.draftKey task.id) issues))
      | .error failure => do
          let progress ← catchChanged pass.progress issue source failure
          return (store, some (pass.discover progress issues))
  | .linking [] =>
      .ok (store, some { pass with phase := .quarantining pass.progress.quarantined })
  | .linking (issue :: issues) => do
      let store ← linkIssue store pass.progress issue
      return (store, some { pass with phase := .linking issues })
  | .quarantining [] => .ok (store, none)
  | .quarantining (candidate :: candidates) =>
      .ok (quarantineCandidate store candidate clock,
        some { pass with phase := .quarantining candidates })

/-- Run a pass without interference; `none` when the fuel does not last. -/
def runIntake (clock : Instant) : Nat → Store → IntakePass → Option (Except WorkflowError Store)
  | 0, _, _ => none
  | fuel + 1, store, pass =>
      match intakeStep store pass clock with
      | .error failure => some (.error failure)
      | .ok (store, none) => some (.ok store)
      | .ok (store, some pass) => runIntake clock fuel store pass

/-! ## The two agree -/

section Agreement

variable (clock : Instant)

theorem runIntake_quarantining (store : Store) (pass : IntakePass)
    (candidates : List QuarantineCandidate) :
    ∃ fuel, runIntake clock fuel store { pass with phase := .quarantining candidates } =
      some (.ok (candidates.foldl (fun store candidate =>
        quarantineCandidate store candidate clock) store)) := by
  induction candidates generalizing store with
  | nil => exact ⟨1, rfl⟩
  | cons candidate candidates ih =>
      obtain ⟨fuel, hfuel⟩ := ih (quarantineCandidate store candidate clock)
      exact ⟨fuel + 1, hfuel⟩

theorem runIntake_linking (store : Store) (pass : IntakePass) (issues : List PlanningIssue) :
    ∃ fuel, runIntake clock fuel store { pass with phase := .linking issues } =
      some (do
        let store ← linkIssues pass.progress store issues
        return pass.progress.quarantined.foldl (fun store candidate =>
          quarantineCandidate store candidate clock) store) := by
  induction issues generalizing store with
  | nil =>
      obtain ⟨fuel, hfuel⟩ :=
        runIntake_quarantining clock store pass pass.progress.quarantined
      exact ⟨fuel + 1, hfuel⟩
  | cons issue issues ih =>
      cases hlink : linkIssue store pass.progress issue with
      | error failure =>
          refine ⟨1, ?_⟩
          simp [runIntake, intakeStep, linkIssues, hlink, bind, Except.bind]
      | ok next =>
          obtain ⟨fuel, hfuel⟩ := ih next
          refine ⟨fuel + 1, ?_⟩
          simp only [runIntake, intakeStep, linkIssues, hlink, bind, Except.bind, pure, Except.pure]
          exact hfuel

theorem runIntake_discovering (store : Store) (pass : IntakePass) (issues : List PlanningIssue) :
    ∃ fuel, runIntake clock fuel store { pass with phase := .discovering issues } =
      some (do
        let persisted ← persistIssues clock store pass.progress issues
        let store ← linkIssues persisted.2 persisted.1 pass.eligible
        return persisted.2.quarantined.foldl (fun store candidate =>
          quarantineCandidate store candidate clock) store) := by
  induction issues generalizing store pass with
  | nil =>
      obtain ⟨fuel, hfuel⟩ := runIntake_linking clock store pass pass.eligible
      exact ⟨fuel + 1, hfuel⟩
  | cons issue issues ih =>
      cases hsource : issue.source with
      | none =>
          obtain ⟨fuel, hfuel⟩ := ih store pass
          refine ⟨fuel + 1, ?_⟩
          simp only [runIntake, intakeStep, persistIssues, persistIssue, hsource,
            IntakePass.discover]
          exact hfuel
      | some source =>
          cases hfind : discoveredTask store (discoveredInput issue source) with
          | error failure =>
              cases hcatch : catchChanged pass.progress issue source failure with
              | error failure =>
                  refine ⟨1, ?_⟩
                  simp [runIntake, intakeStep, persistIssues, persistIssue, upsertDiscoveredTask,
                    hsource, hfind, hcatch, bind, Except.bind]
              | ok progress =>
                  obtain ⟨fuel, hfuel⟩ := ih store { pass with progress }
                  refine ⟨fuel + 1, ?_⟩
                  simp only [runIntake, intakeStep, persistIssues, persistIssue,
                    upsertDiscoveredTask, hsource, hfind, hcatch, bind, Except.bind, pure,
                    Except.pure, IntakePass.discover]
                  exact hfuel
          | ok found =>
              cases found with
              | some existing =>
                  obtain ⟨fuel, hfuel⟩ := ih store
                    { pass with progress := pass.progress.setTask issue.draftKey existing.id }
                  refine ⟨fuel + 1, ?_⟩
                  simp only [runIntake, intakeStep, persistIssues, persistIssue,
                    upsertDiscoveredTask, hsource, hfind, bind, Except.bind, pure, Except.pure,
                    IntakePass.discover]
                  exact hfuel
              | none =>
                  -- A new issue takes two transactions: the lookup, then the insertion.
                  cases hcreate : createTask store (discoveredInput issue source) clock with
                  | error failure =>
                      cases hcatch : catchChanged pass.progress issue source failure with
                      | error failure =>
                          refine ⟨2, ?_⟩
                          simp [runIntake, intakeStep, persistIssues, persistIssue,
                            upsertDiscoveredTask, hsource, hfind, hcreate, hcatch, bind,
                            Except.bind]
                      | ok progress =>
                          obtain ⟨fuel, hfuel⟩ := ih store { pass with progress }
                          refine ⟨fuel + 2, ?_⟩
                          simp only [runIntake, intakeStep, persistIssues, persistIssue,
                            upsertDiscoveredTask, hsource, hfind, hcreate, hcatch, bind,
                            Except.bind, pure, Except.pure, IntakePass.discover]
                          exact hfuel
                  | ok created =>
                      obtain ⟨fuel, hfuel⟩ := ih created.1
                        { pass with progress :=
                            pass.progress.setTask issue.draftKey created.2.id }
                      refine ⟨fuel + 2, ?_⟩
                      simp only [runIntake, intakeStep, persistIssues, persistIssue,
                        upsertDiscoveredTask, hsource, hfind, hcreate, bind, Except.bind, pure,
                        Except.pure, IntakePass.discover]
                      exact hfuel

/-- A pass that nothing interferes with computes `persistLinearIntake`. -/
theorem persistLinearIntake_eq_steps (store : Store) (report : IntakeReport) :
    ∃ fuel, runIntake clock fuel store (startIntake report) =
      some (persistLinearIntake store report clock) :=
  runIntake_discovering clock store (startIntake report) report.eligible

end Agreement

/-- A report in which `b` is blocked by `a`. -/
def dependentReport : IntakeReport :=
  { eligible := [sampleIssue "b" ["a"], sampleIssue "a" []] }

end Orchestrator
