import Orchestrator.Execution.BoundedProcess
import Orchestrator.Execution.Sandbox
import Orchestrator.Execution.Secrets
import Orchestrator.Execution.WorkspaceChanges

/-! # Quality gates

`QualityGateRunner.run` (`execution/quality-gates.ts`): the setup and check commands that an
operator configured for a repository, one after the other in the task's worktree. Every check
runs, so that a fixer sees all failures; a failed setup command skips the checks, and a command
that cannot start or is aborted ends the gate. What each process does is a parameter, by the
number of the processes started before it.
-/

namespace Orchestrator

open Kit

inductive QualityPhase
  | setup | check
  deriving DecidableEq, Repr

def QualityPhase.text : QualityPhase → String
  | .setup => "setup"
  | .check => "check"

/-- A configured command: its executable with its arguments. -/
structure QualityCommand where
  name : String
  executable : String
  arguments : List String
  network : Option Bool
  deriving DecidableEq, Repr

structure QualityCommands where
  setup : List QualityCommand
  checks : List QualityCommand

/-- The result of `runBoundedProcess` that the gate reads. -/
structure CommandExecution where
  outcome : BoundedProcessOutcome
  exitCode : Option Int
  spawnError : Option String
  stdoutTail : String
  stderrTail : String
  deriving DecidableEq, Repr

structure CommandResult where
  phase : QualityPhase
  name : String
  command : List String
  passed : Bool
  outcome : BoundedProcessOutcome
  exitCode : Option Int
  outputTail : String
  deriving DecidableEq, Repr

structure QualityReport where
  repository : String
  passed : Bool := true
  infrastructureError : Option String := none
  aborted : Bool := false
  results : List CommandResult := []
  deriving DecidableEq, Repr

/-- What the runner is given: the clone's Git directory is readable, and secrets are redacted. -/
structure QualityGateRunner where
  quality : String → QualityCommands
  readOnlyPaths : String → List String
  redactionRules : List RedactionRule
  knownSecrets : List String

def tailBytes : Nat := 8 * 1024

/-- The commands of a gate in their order. -/
def plannedCommands (quality : QualityCommands) (checks : Bool) :
    List (QualityPhase × QualityCommand) :=
  quality.setup.map (fun command => (.setup, command)) ++
    if checks then quality.checks.map (fun command => (.check, command)) else []

def CommandExecution.passed (execution : CommandExecution) : Bool :=
  execution.outcome = .exited && execution.exitCode = some 0

/-- The report so far, and the processes that were started. -/
structure GateRun where
  report : QualityReport
  started : List SandboxRequest

namespace QualityGateRunner

variable (runner : QualityGateRunner) (repository workspacePath : String)

/-- Dependency installs usually need the network; checks of agent-written code do not. -/
def sandboxRequest (planned : QualityPhase × QualityCommand) : SandboxRequest where
  executable := planned.2.executable
  args := planned.2.arguments
  cwd := workspacePath
  writablePaths := [workspacePath]
  readOnlyPaths := runner.readOnlyPaths repository
  network := planned.2.network.getD (planned.1 = .setup)

def commandResult (planned : QualityPhase × QualityCommand) (execution : CommandExecution) :
    CommandResult where
  phase := planned.1
  name := planned.2.name
  command := planned.2.executable :: planned.2.arguments
  passed := execution.passed
  outcome := execution.outcome
  exitCode := execution.exitCode
  outputTail :=
    let tails := [trimText execution.stdoutTail, trimText execution.stderrTail]
    redactSecrets runner.redactionRules
      (utf16Tail tailBytes ("\n".intercalate (tails.filter (· ≠ "")))) runner.knownSecrets

def setupFailed (report : QualityReport) : Bool :=
  report.results.any fun result => result.phase = .setup && !result.passed

/-- The loop over the planned commands. -/
def runPlanned (execute : Nat → CommandExecution) (gate : GateRun) :
    List (QualityPhase × QualityCommand) → GateRun
  | [] => gate
  | planned :: rest =>
      if planned.1 = .check ∧ setupFailed gate.report then gate
      else
        let execution := execute gate.started.length
        let started := gate.started ++ [runner.sandboxRequest repository workspacePath planned]
        if execution.outcome = .aborted then
          ⟨{ gate.report with aborted := true, passed := false }, started⟩
        else
          let result := runner.commandResult planned execution
          let report :=
            { gate.report with
              results := gate.report.results ++ [result]
              passed := gate.report.passed && result.passed }
          if execution.outcome = .spawnError then
            let detail := execution.spawnError.getD "unknown error"
            let text :=
              s!"{planned.1.text} command {planned.2.name} could not start: {detail}"
            ⟨{ report with infrastructureError := some text }, started⟩
          else runPlanned execute ⟨report, started⟩ rest

def run (execute : Nat → CommandExecution) (checks : Bool) : GateRun :=
  runner.runPlanned repository workspacePath execute ⟨{ repository }, []⟩
    (plannedCommands (runner.quality repository) checks)

/-- The results of commands that all run to their end, from the process number `index` on. -/
def resultsFrom (execute : Nat → CommandExecution) (index : Nat) :
    List (QualityPhase × QualityCommand) → List CommandResult
  | [] => []
  | planned :: rest =>
      runner.commandResult planned (execute index) :: resultsFrom execute (index + 1) rest

/-! ## What a gate reports -/

section Report

variable {runner} {repository workspacePath} {execute : Nat → CommandExecution}
  {gate : GateRun} {planned : QualityPhase × QualityCommand}
  {rest : List (QualityPhase × QualityCommand)}

/-- A command that ran to its end, whatever it returned. -/
def CommandEnded (execution : CommandExecution) : Prop :=
  execution.outcome ≠ .aborted ∧ execution.outcome ≠ .spawnError

theorem ended_of_passed {execution : CommandExecution} (h : execution.passed = true) :
    CommandEnded execution := by
  unfold CommandExecution.passed at h
  have hexited : execution.outcome = .exited := by
    simp only [Bool.and_eq_true, decide_eq_true_eq] at h
    exact h.1
  constructor
  · rw [hexited]
    decide
  · rw [hexited]
    decide

/-- The state of the loop after a command that ran to its end. -/
def after (runner : QualityGateRunner) (repository workspacePath : String)
    (execution : CommandExecution) (gate : GateRun) (planned : QualityPhase × QualityCommand) :
    GateRun where
  report :=
    { gate.report with
      results := gate.report.results ++ [runner.commandResult planned execution]
      passed := gate.report.passed && execution.passed }
  started := gate.started ++ [runner.sandboxRequest repository workspacePath planned]

theorem after_started {execution : CommandExecution} :
    (after runner repository workspacePath execution gate planned).started.length =
      gate.started.length + 1 := by
  unfold after
  rw [List.length_append, List.length_singleton]

theorem setupFailed_after {execution : CommandExecution} :
    setupFailed (after runner repository workspacePath execution gate planned).report =
      (setupFailed gate.report || (planned.1 = .setup && !execution.passed)) := by
  unfold setupFailed after
  rw [List.any_append, List.any_cons, List.any_nil, Bool.or_false]
  rfl

/-- One round of the loop with a command that runs to its end. -/
theorem runPlanned_cons (hskip : ¬ (planned.1 = .check ∧ setupFailed gate.report = true))
    (hended : CommandEnded (execute gate.started.length)) :
    runner.runPlanned repository workspacePath execute gate (planned :: rest) =
      runner.runPlanned repository workspacePath execute
        (after runner repository workspacePath (execute gate.started.length) gate planned)
        rest := by
  conv_lhs => unfold runPlanned
  rw [if_neg hskip]
  dsimp only
  rw [if_neg hended.1, if_neg hended.2]
  rfl

/-- The processes of a gate are planned ones, in their order. -/
theorem started_runPlanned (rest : List (QualityPhase × QualityCommand)) (gate : GateRun) :
    (runner.runPlanned repository workspacePath execute gate rest).started <+:
      gate.started ++ rest.map (runner.sandboxRequest repository workspacePath) := by
  induction rest generalizing gate with
  | nil => exact ⟨[], by simp [runPlanned]⟩
  | cons planned rest ih =>
      have hone : ∀ report : QualityReport,
          (⟨report, gate.started ++ [runner.sandboxRequest repository workspacePath planned]⟩ :
            GateRun).started <+: gate.started ++
              (planned :: rest).map (runner.sandboxRequest repository workspacePath) := by
        intro report
        exact ⟨rest.map (runner.sandboxRequest repository workspacePath), by simp⟩
      unfold runPlanned
      split_ifs
      · exact List.prefix_append _ _
      · dsimp only
        split_ifs
        · exact hone _
        · exact hone _
        · refine (ih _).trans ?_
          rw [List.map_cons, List.append_assoc]
          exact List.prefix_rfl

/-- A gate passes exactly if every command does. -/
theorem passed_runPlanned (rest : List (QualityPhase × QualityCommand)) (gate : GateRun)
    (hsetup : gate.report.passed = true → setupFailed gate.report = false) :
    (runner.runPlanned repository workspacePath execute gate rest).report.passed = true ↔
      gate.report.passed = true ∧
        ∀ i < rest.length, (execute (gate.started.length + i)).passed = true := by
  induction rest generalizing gate with
  | nil =>
      constructor
      · intro h
        refine ⟨h, ?_⟩
        intro i hi
        exact absurd hi (Nat.not_lt_zero i)
      · intro h
        exact h.1
  | cons planned rest ih =>
      by_cases hskip : planned.1 = .check ∧ setupFailed gate.report = true
      · -- The skipped checks do not pass, and neither has the gate.
        have hfailed : gate.report.passed ≠ true := by
          intro hpassed
          have hnot := hsetup hpassed
          rw [hskip.2] at hnot
          cases hnot
        have hsame : runner.runPlanned repository workspacePath execute gate (planned :: rest) =
            gate := by
          conv_lhs => unfold runPlanned
          exact if_pos hskip
        rw [hsame]
        constructor
        · intro h
          exact absurd h hfailed
        · intro h
          exact absurd h.1 hfailed
      by_cases hended : CommandEnded (execute gate.started.length)
      · rw [runPlanned_cons hskip hended, ih, after_started]
        · have hpassed : (after runner repository workspacePath (execute gate.started.length) gate
              planned).report.passed =
                (gate.report.passed && (execute gate.started.length).passed) := rfl
          rw [hpassed, Bool.and_eq_true]
          constructor
          · rintro ⟨⟨hgate, hfirst⟩, hrest⟩
            refine ⟨hgate, ?_⟩
            intro i hi
            cases i with
            | zero => exact hfirst
            | succ i =>
                have hlater := hrest i (Nat.lt_of_succ_lt_succ hi)
                rwa [Nat.add_assoc, Nat.add_comm 1 i] at hlater
          · rintro ⟨hgate, hall⟩
            refine ⟨⟨hgate, hall 0 (Nat.succ_pos _)⟩, ?_⟩
            intro i hi
            have hlater := hall (i + 1) (Nat.succ_lt_succ hi)
            rwa [Nat.add_assoc, Nat.add_comm 1 i]
        · intro hpassed
          have hboth : gate.report.passed = true ∧
              (execute gate.started.length).passed = true := by
            rw [← Bool.and_eq_true]
            exact hpassed
          rw [setupFailed_after, hsetup hboth.1, hboth.2]
          simp
      · -- The gate ends here without passing.
        have hfailed : (execute gate.started.length).passed ≠ true := by
          intro hpassed
          exact hended (ended_of_passed hpassed)
        have hfalse : (execute gate.started.length).passed = false := by simpa using hfailed
        have hends : (runner.runPlanned repository workspacePath execute gate
            (planned :: rest)).report.passed = false := by
          conv_lhs => unfold runPlanned
          rw [if_neg hskip]
          dsimp only
          split_ifs with haborted hspawn
          · rfl
          · change (gate.report.passed && (execute gate.started.length).passed) = false
            rw [hfalse, Bool.and_false]
          · exact absurd ⟨haborted, hspawn⟩ hended
        rw [hends]
        constructor
        · intro h
          cases h
        · intro h
          exact absurd (h.2 0 (Nat.succ_pos _)) hfailed

/-- Commands that all run to their end are all reported, unless a setup command fails before a
check. -/
theorem results_runPlanned (rest : List (QualityPhase × QualityCommand)) (gate : GateRun)
    (hended : ∀ i < rest.length, CommandEnded (execute (gate.started.length + i)))
    (hsetup : (∀ planned ∈ rest, planned.1 = .setup) ∨ (setupFailed gate.report = false ∧
      ∀ i planned, rest[i]? = some planned → planned.1 = .setup →
        (execute (gate.started.length + i)).passed = true)) :
    (runner.runPlanned repository workspacePath execute gate rest).report.results =
      gate.report.results ++ runner.resultsFrom execute gate.started.length rest := by
  induction rest generalizing gate with
  | nil => exact (List.append_nil _).symm
  | cons planned rest ih =>
      -- A check is skipped only after a setup command failed.
      have hskip : ¬ (planned.1 = .check ∧ setupFailed gate.report = true) := by
        rintro ⟨hcheck, hfailed⟩
        rcases hsetup with hall | ⟨hnone, _⟩
        · have hphase := hall planned List.mem_cons_self
          rw [hcheck] at hphase
          cases hphase
        · rw [hnone] at hfailed
          cases hfailed
      rw [runPlanned_cons hskip (hended 0 (Nat.succ_pos _)), ih, after_started]
      · unfold after
        rw [List.append_assoc]
        rfl
      · intro i hi
        have hlater := hended (i + 1) (Nat.succ_lt_succ hi)
        rwa [after_started, Nat.add_assoc, Nat.add_comm 1 i]
      · rcases hsetup with hall | ⟨hnone, hpassed⟩
        · refine Or.inl ?_
          intro other hother
          exact hall other (List.mem_cons_of_mem _ hother)
        · refine Or.inr ⟨?_, ?_⟩
          · rw [setupFailed_after, hnone, Bool.false_or]
            by_cases hphase : planned.1 = .setup
            · have hfirst := hpassed 0 planned rfl hphase
              rw [Nat.add_zero] at hfirst
              rw [hfirst]
              simp
            · simp [hphase]
          · intro i other hother hphase
            have hlater := hpassed (i + 1) other hother hphase
            rwa [after_started, Nat.add_assoc, Nat.add_comm 1 i]

/-- Setup commands that run to their end come before the rest. -/
theorem runPlanned_append {setups : List (QualityPhase × QualityCommand)}
    (hphase : ∀ planned ∈ setups, planned.1 = .setup)
    (hended : ∀ i < setups.length, CommandEnded (execute (gate.started.length + i))) :
    runner.runPlanned repository workspacePath execute gate (setups ++ rest) =
      runner.runPlanned repository workspacePath execute
        (runner.runPlanned repository workspacePath execute gate setups) rest := by
  induction setups generalizing gate with
  | nil => rfl
  | cons planned setups ih =>
      have hskip : ¬ (planned.1 = .check ∧ setupFailed gate.report = true) := by
        rintro ⟨hcheck, _⟩
        rw [hphase planned List.mem_cons_self] at hcheck
        cases hcheck
      have hfirst := hended 0 (Nat.succ_pos _)
      rw [List.cons_append, runPlanned_cons hskip hfirst, runPlanned_cons hskip hfirst]
      apply ih
      · intro other hother
        exact hphase other (List.mem_cons_of_mem _ hother)
      · intro i hi
        have hlater := hended (i + 1) (Nat.succ_lt_succ hi)
        rwa [after_started, Nat.add_assoc, Nat.add_comm 1 i]

/-- A setup command that fails is reported. -/
theorem any_resultsFrom {setups : List (QualityPhase × QualityCommand)} {index i : Nat}
    (hphase : ∀ planned ∈ setups, planned.1 = .setup) (hi : i < setups.length)
    (hfailed : (execute (index + i)).passed = false) :
    ((runner.resultsFrom execute index setups).any fun result =>
      result.phase = .setup && !result.passed) = true := by
  induction setups generalizing index i with
  | nil => exact absurd hi (Nat.not_lt_zero i)
  | cons planned setups ih =>
      unfold resultsFrom
      rw [List.any_cons, Bool.or_eq_true]
      cases i with
      | zero =>
          refine Or.inl ?_
          change (decide (planned.1 = .setup) && !(execute index).passed) = true
          rw [Nat.add_zero] at hfailed
          rw [hphase planned List.mem_cons_self, hfailed]
          rfl
      | succ i =>
          refine Or.inr (ih ?_ (Nat.lt_of_succ_lt_succ hi) ?_)
          · intro other hother
            exact hphase other (List.mem_cons_of_mem _ hother)
          · rwa [Nat.add_assoc, Nat.add_comm 1 i]

/-- The setup commands of a gate. -/
theorem setup_plannedCommands {quality : QualityCommands} {planned : QualityPhase × QualityCommand}
    (h : planned ∈ plannedCommands quality false) : planned.1 = .setup := by
  unfold plannedCommands at h
  rw [if_neg (by decide), List.append_nil] at h
  obtain ⟨command, _, rfl⟩ := List.mem_map.mp h
  rfl

theorem length_plannedCommands (quality : QualityCommands) :
    (plannedCommands quality false).length = quality.setup.length := by
  unfold plannedCommands
  rw [if_neg (by decide), List.append_nil, List.length_map]

/-- The checks stand behind the setup commands. -/
theorem plannedCommands_split (quality : QualityCommands) (checks : Bool) :
    plannedCommands quality checks = plannedCommands quality false ++
      (if checks then quality.checks.map (fun command => (QualityPhase.check, command))
        else []) := by
  unfold plannedCommands
  simp

/-- A setup command stands among the first ones. -/
theorem lt_of_getElem?_setup {quality : QualityCommands} {checks : Bool} {i : Nat}
    {planned : QualityPhase × QualityCommand}
    (hplanned : (plannedCommands quality checks)[i]? = some planned)
    (hphase : planned.1 = .setup) : i < quality.setup.length := by
  by_contra hi
  unfold plannedCommands at hplanned
  rw [List.getElem?_append_right (by rw [List.length_map]; omega)] at hplanned
  cases checks with
  | false => cases hplanned
  | true =>
      have hmem := List.mem_of_getElem? hplanned
      obtain ⟨command, _, rfl⟩ := List.mem_map.mp hmem
      cases hphase

/-- If every setup command passes, every planned command is reported. -/
theorem results_run_passed {checks : Bool}
    (hended : ∀ i < (plannedCommands (runner.quality repository) checks).length,
      CommandEnded (execute i))
    (hpassed : ∀ i < (runner.quality repository).setup.length, (execute i).passed = true) :
    (runner.run repository workspacePath execute checks).report.results =
      runner.resultsFrom execute 0 (plannedCommands (runner.quality repository) checks) := by
  refine (results_runPlanned _ _ ?_ (Or.inr ⟨rfl, ?_⟩)).trans (List.nil_append _)
  · intro i hi
    rw [List.length_nil, Nat.zero_add]
    exact hended i hi
  · intro i planned hplanned hphase
    rw [List.length_nil, Nat.zero_add]
    exact hpassed i (lt_of_getElem?_setup hplanned hphase)

/-- If a setup command fails, the setup commands are reported, and the first check ends the loop. -/
theorem results_run_failed {checks : Bool}
    (hended : ∀ i < (plannedCommands (runner.quality repository) checks).length,
      CommandEnded (execute i))
    (hfailed : ¬ ∀ i < (runner.quality repository).setup.length, (execute i).passed = true) :
    (runner.run repository workspacePath execute checks).report.results =
      runner.resultsFrom execute 0 (plannedCommands (runner.quality repository) false) := by
  have hsetups : ∀ planned ∈ plannedCommands (runner.quality repository) false,
      planned.1 = .setup := fun _ hplanned => setup_plannedCommands hplanned
  have hendedSetup : ∀ i < (plannedCommands (runner.quality repository) false).length,
      CommandEnded (execute (([] : List SandboxRequest).length + i)) := by
    intro i hi
    rw [List.length_nil, Nat.zero_add]
    apply hended
    rw [plannedCommands_split, List.length_append]
    omega
  have hresults : (runner.runPlanned repository workspacePath execute ⟨{ repository }, []⟩
      (plannedCommands (runner.quality repository) false)).report.results =
        [] ++ runner.resultsFrom execute 0 (plannedCommands (runner.quality repository) false) :=
    results_runPlanned _ _ hendedSetup (Or.inl hsetups)
  -- The failed setup command is among the results.
  have hstopped : setupFailed (runner.runPlanned repository workspacePath execute
      ⟨{ repository }, []⟩ (plannedCommands (runner.quality repository) false)).report = true := by
    simp only [not_forall] at hfailed
    obtain ⟨i, hi, hnot⟩ := hfailed
    rw [← length_plannedCommands] at hi
    unfold setupFailed
    rw [hresults, List.nil_append]
    refine any_resultsFrom hsetups hi ?_
    rw [Nat.zero_add]
    simpa using hnot
  unfold run
  rw [plannedCommands_split, runPlanned_append hsetups hendedSetup]
  generalize runner.runPlanned repository workspacePath execute ⟨{ repository }, []⟩
    (plannedCommands (runner.quality repository) false) = gate at hstopped hresults ⊢
  -- The first check finds it and breaks the loop.
  have hstops : ∀ commands : List QualityCommand,
      runner.runPlanned repository workspacePath execute gate
        (commands.map fun command => (QualityPhase.check, command)) = gate := by
    intro commands
    cases commands with
    | nil => rfl
    | cons command commands =>
        rw [List.map_cons]
        unfold runPlanned
        exact if_pos ⟨rfl, hstopped⟩
  cases checks with
  | false => exact hresults
  | true =>
      rw [if_pos rfl, hstops]
      exact hresults

end Report

/-- The verdict of a gate, for whatever its processes do. Only planned commands are started, in
their order; the gate passes exactly if each of them exits with 0; and when all of them can run
to their end, every command is reported with its own result, but without the checks if a setup
command failed. -/
theorem quality_gate_report (runner : QualityGateRunner) (repository workspacePath : String)
    (execute : Nat → CommandExecution) (checks : Bool) :
    (runner.run repository workspacePath execute checks).started <+:
        (plannedCommands (runner.quality repository) checks).map
          (runner.sandboxRequest repository workspacePath) ∧
      ((runner.run repository workspacePath execute checks).report.passed = true ↔
        ∀ i < (plannedCommands (runner.quality repository) checks).length,
          (execute i).passed = true) ∧
      ((∀ i < (plannedCommands (runner.quality repository) checks).length,
          CommandEnded (execute i)) →
        (runner.run repository workspacePath execute checks).report.results =
          runner.resultsFrom execute 0
            (if ∀ i < (runner.quality repository).setup.length, (execute i).passed = true then
              plannedCommands (runner.quality repository) checks
            else plannedCommands (runner.quality repository) false)) := by
  have hstart : setupFailed ({ repository } : QualityReport) = false := rfl
  refine ⟨started_runPlanned _ _, ?_, ?_⟩
  · refine (passed_runPlanned _ _ fun _ => hstart).trans ?_
    constructor
    · rintro ⟨_, hall⟩ i hi
      have hone := hall i hi
      rwa [List.length_nil, Nat.zero_add] at hone
    · intro hall
      refine ⟨rfl, ?_⟩
      intro i hi
      rw [List.length_nil, Nat.zero_add]
      exact hall i hi
  · intro hended
    split_ifs with hpassed
    · exact results_run_passed hended hpassed
    · exact results_run_failed hended hpassed

/-- One setup command and one check. -/
def sampleGates : QualityGateRunner where
  quality _ := ⟨[⟨"install", "npm", ["ci"], none⟩], [⟨"test", "npm", ["test"], none⟩]⟩
  readOnlyPaths _ := []
  redactionRules := []
  knownSecrets := []

/-- The first process ends with 0, the others with 1. -/
def failingChecks (number : Nat) : CommandExecution where
  outcome := .exited
  exitCode := some (if number = 0 then 0 else 1)
  spawnError := none
  stdoutTail := ""
  stderrTail := ""

/-- The check fails, and both commands are reported. -/
theorem quality_gate_report_failing :
    (sampleGates.run "web" "/work" failingChecks true).report.results =
      sampleGates.resultsFrom failingChecks 0
        (plannedCommands (sampleGates.quality "web") true) := by
  have hended : ∀ i < (plannedCommands (sampleGates.quality "web") true).length,
      CommandEnded (failingChecks i) := by
    intro i _
    constructor
    · intro haborted
      cases haborted
    · intro hspawn
      cases hspawn
  have hreport := (quality_gate_report sampleGates "web" "/work" failingChecks true).2.2 hended
  rwa [if_pos (by decide)] at hreport

end QualityGateRunner

end Orchestrator
