import Mathlib
import Orchestrator.Delivery.ObservationStage

/-! # What required checks decide

The evaluation of required checks in terms of the policy's entries and of the reports that match
them: a pull request passes only by completed successes, and neither the order of entries and
reports nor further reports can turn a failure into a success (`delivery/required-checks.ts`).
-/

namespace Orchestrator

open Kit

/-- A report counts for a requirement by its name, and for a pinned one only from that app. -/
def CountsFor (requirement : RequiredCheck) (report : CheckResult) : Prop :=
  report.name = requirement.context ∧
    (requirement.appId = none ∨ report.appId = requirement.appId)

/-- A check run that completed, or a commit status that is no longer pending, with success. -/
def CompletedSuccess (report : CheckResult) : Prop :=
  report.conclusion = some "success" ∧
    match report.kind with
    | .checkRun => report.status = "completed"
    | .status => report.status ≠ "pending"

/-- What GitHub lists is completed by its status, whatever kind it is. -/
theorem completedSuccess_listChecks {runs : List CheckRun} {statuses : List CommitStatus}
    {report : CheckResult} (h : report ∈ listChecks runs statuses) :
    CompletedSuccess report ↔ report.status = "completed" ∧ report.conclusion = some "success" := by
  unfold CompletedSuccess
  rcases List.mem_append.mp h with hrun | hstatus
  · rcases List.mem_map.mp hrun with ⟨run, _, rfl⟩
    exact And.comm
  · rcases List.mem_map.mp hstatus with ⟨status, _, rfl⟩
    by_cases hpending : status.state = .pending
    · simp [hpending]
    · simp [hpending]

/-! ## One requirement -/

theorem stateOf_ne_missing (report : CheckResult) : stateOf report ≠ .missing := by
  unfold stateOf
  cases report.kind with
  | checkRun =>
      by_cases hcompleted : report.status ≠ "completed"
      · simp [hcompleted]
      · by_cases hsuccess : report.conclusion = some "success"
        · simp [hcompleted, hsuccess]
        · simp [hcompleted, hsuccess]
  | status =>
      by_cases hpending : report.status = "pending"
      · simp [hpending]
      · by_cases hsuccess : report.conclusion = some "success"
        · simp [hpending, hsuccess]
        · simp [hpending, hsuccess]

theorem stateOf_success {report : CheckResult} :
    stateOf report = .success ↔ CompletedSuccess report := by
  unfold stateOf CompletedSuccess
  cases report.kind with
  | checkRun =>
      by_cases hcompleted : report.status = "completed"
      · simp [hcompleted]
      · simp [hcompleted]
  | status =>
      by_cases hpending : report.status = "pending"
      · simp [hpending]
      · simp [hpending]

theorem mem_matching {reported : List CheckResult} {requirement : RequiredCheck}
    {report : CheckResult} :
    report ∈ reported.filter (fun check => check.name = requirement.context &&
        (requirement.appId.isNone || check.appId = requirement.appId)) ↔
      report ∈ reported ∧ CountsFor requirement report := by
  rw [List.mem_filter]
  unfold CountsFor
  simp

theorem mem_states {reported : List CheckResult} {requirement : RequiredCheck}
    {state : RequiredCheckState} :
    state ∈ (reported.filter (fun check => check.name = requirement.context &&
        (requirement.appId.isNone || check.appId = requirement.appId))).map stateOf ↔
      ∃ report ∈ reported, CountsFor requirement report ∧ stateOf report = state := by
  rw [List.mem_map]
  constructor
  · rintro ⟨report, hmem, hstate⟩
    have hcounts := mem_matching.mp hmem
    exact ⟨report, hcounts.1, hcounts.2, hstate⟩
  · rintro ⟨report, hmem, hcounts, hstate⟩
    exact ⟨report, mem_matching.mpr ⟨hmem, hcounts⟩, hstate⟩

theorem observeRequirement_failed {reported : List CheckResult} {requirement : RequiredCheck} :
    (observeRequirement reported requirement).state = .failed ↔
      ∃ report ∈ reported, CountsFor requirement report ∧ stateOf report = .failed := by
  rw [← mem_states]
  unfold observeRequirement
  generalize reported.filter _ = matching
  simp only [List.contains_iff_mem]
  by_cases hnone : matching.isEmpty = true
  · rw [if_pos hnone, List.isEmpty_iff.mp hnone]
    simp
  · rw [if_neg hnone]
    by_cases hfailed : RequiredCheckState.failed ∈ matching.map stateOf
    · simp [hfailed]
    · rw [if_neg hfailed]
      by_cases hpending : RequiredCheckState.pending ∈ matching.map stateOf
      · simp [hpending, hfailed]
      · simp [hpending, hfailed]

theorem observeRequirement_success {reported : List CheckResult} {requirement : RequiredCheck} :
    (observeRequirement reported requirement).state = .success ↔
      (∃ report ∈ reported, CountsFor requirement report) ∧
        ∀ report ∈ reported, CountsFor requirement report → CompletedSuccess report := by
  have hstate : (observeRequirement reported requirement).state = .success ↔
      (∃ report ∈ reported, CountsFor requirement report) ∧
        (¬ ∃ report ∈ reported, CountsFor requirement report ∧ stateOf report = .failed) ∧
        ¬ ∃ report ∈ reported, CountsFor requirement report ∧ stateOf report = .pending := by
    have hsome : (∃ report ∈ reported, CountsFor requirement report) ↔
        ¬ (reported.filter (fun check => check.name = requirement.context &&
          (requirement.appId.isNone || check.appId = requirement.appId))).isEmpty = true := by
      rw [List.isEmpty_iff]
      constructor
      · rintro ⟨report, hmem, hcounts⟩ hnone
        have hin := mem_matching.mpr ⟨hmem, hcounts⟩
        rw [hnone] at hin
        exact List.not_mem_nil hin
      · intro hne
        rcases List.exists_mem_of_ne_nil _ hne with ⟨report, hmem⟩
        exact ⟨report, mem_matching.mp hmem⟩
    rw [← mem_states, ← mem_states, hsome]
    -- The tests in their order: none, failed, pending, else success.
    unfold observeRequirement
    generalize reported.filter _ = matching
    simp only [List.contains_iff_mem]
    by_cases hnone : matching.isEmpty = true
    · simp [hnone]
    · rw [if_neg hnone]
      by_cases hfailed : RequiredCheckState.failed ∈ matching.map stateOf
      · simp [hfailed]
      · by_cases hpending : RequiredCheckState.pending ∈ matching.map stateOf
        · simp [hpending, hfailed]
        · simp [hpending, hfailed, hnone]
  rw [hstate]
  constructor
  · rintro ⟨hsome, hfailed, hpending⟩
    refine ⟨hsome, ?_⟩
    intro report hmem hcounts
    -- Neither pending nor failed nor missing.
    rw [← stateOf_success]
    cases hreport : stateOf report with
    | success => rfl
    | pending => exact absurd ⟨report, hmem, hcounts, hreport⟩ hpending
    | missing => exact absurd hreport (stateOf_ne_missing report)
    | failed => exact absurd ⟨report, hmem, hcounts, hreport⟩ hfailed
  · rintro ⟨hsome, hall⟩
    refine ⟨hsome, ?_, ?_⟩
    · rintro ⟨report, hmem, hcounts, hreport⟩
      rw [stateOf_success.mpr (hall report hmem hcounts)] at hreport
      cases hreport
    · rintro ⟨report, hmem, hcounts, hreport⟩
      rw [stateOf_success.mpr (hall report hmem hcounts)] at hreport
      cases hreport

/-! ## The entries of the policy -/

/-- The key of a requirement: its name and, behind a separator, its app. -/
def requirementKey (check : RequiredCheck) : String :=
  s!"{check.context}\x00" ++ (check.appId.map toString).getD ""

/-- Entries of one key match the same reports. -/
def SameRequirement (check other : RequiredCheck) : Prop :=
  check.context = other.context ∧ check.appId = other.appId

theorem countsFor_congr {check other : RequiredCheck} (h : SameRequirement check other)
    (report : CheckResult) : CountsFor check report ↔ CountsFor other report := by
  unfold CountsFor
  rw [h.1, h.2]

def appText (appId : Option Int) : String := (appId.map toString).getD ""

theorem nul_not_mem_repr (number : Nat) : '\x00' ∉ number.repr.toList := by
  intro hmem
  rw [Nat.toList_repr] at hmem
  have hdigit : '\x00'.isDigit = true := Nat.isDigit_of_mem_toDigits (by decide) (by decide) hmem
  exact absurd hdigit (by decide)

theorem nul_not_mem_appText (appId : Option Int) : '\x00' ∉ (appText appId).toList := by
  cases appId with
  | none => decide
  | some number =>
      show '\x00' ∉ (Int.repr number).toList
      rw [Int.repr_eq_if]
      by_cases hsign : 0 ≤ number
      · rw [if_pos hsign]
        exact nul_not_mem_repr _
      · rw [if_neg hsign, String.toList_append, List.mem_append, not_or]
        exact ⟨by decide, nul_not_mem_repr _⟩

theorem appText_inj {appId other : Option Int} (h : appText appId = appText other) :
    appId = other := by
  have hsome : ∀ number : Int, appText (some number) ≠ appText none := by
    intro number hempty
    have htext : (Int.repr number).toList = [] := congrArg String.toList hempty
    rw [Int.repr_eq_if] at htext
    by_cases hsign : 0 ≤ number
    · rw [if_pos hsign] at htext
      exact Nat.repr_ne_empty (String.toList_eq_nil_iff.mp htext)
    · rw [if_neg hsign, String.toList_append] at htext
      exact absurd (List.append_eq_nil_iff.mp htext).1 (by decide)
  cases appId with
  | none =>
      cases other with
      | none => rfl
      | some number => exact absurd h.symm (hsome number)
  | some number =>
      cases other with
      | none => exact absurd h (hsome number)
      | some another => exact congrArg some (Int.repr_injective h)

/-- No two requirements that differ share a key, whatever their names contain. -/
theorem requirementKey_inj {check other : RequiredCheck}
    (h : requirementKey check = requirementKey other) : SameRequirement check other := by
  have hparts : ∀ check : RequiredCheck, (requirementKey check).toList.reverse =
      (appText check.appId).toList.reverse ++ '\x00' :: check.context.toList.reverse := by
    intro check
    have htext : requirementKey check = check.context ++ "\x00" ++ appText check.appId := rfl
    have hnul : "\x00".toList.reverse = ['\x00'] := rfl
    rw [htext, String.toList_append, String.toList_append, List.reverse_append,
      List.reverse_append, hnul, List.singleton_append]
  have hlist : (requirementKey check).toList.reverse = (requirementKey other).toList.reverse := by
    rw [h]
  rw [hparts, hparts] at hlist
  have hclean : ∀ appId, '\x00' ∉ (appText appId).toList.reverse :=
    fun appId hmem => nul_not_mem_appText appId (List.mem_reverse.mp hmem)
  have hsame := append_cons_inj (hclean _) (hclean _) hlist
  constructor
  · exact String.toList_inj.mp (List.reverse_injective hsame.2)
  · exact appText_inj (String.toList_inj.mp (List.reverse_injective hsame.1))

/-- What the map of requirements holds after the checks seen so far. -/
structure Deduplicated (entries : List (String × RequiredCheck)) (seen : List RequiredCheck) :
    Prop where
  sound : ∀ entry ∈ entries, entry.1 = requirementKey entry.2 ∧ entry.2 ∈ seen
  complete : ∀ check ∈ seen, requirementKey check ∈ entries.map (·.1)

theorem deduplicated_nil : Deduplicated [] [] :=
  ⟨fun _ h => absurd h List.not_mem_nil, fun _ h => absurd h List.not_mem_nil⟩

theorem deduplicated_setEntry {entries : List (String × RequiredCheck)} {seen : List RequiredCheck}
    (h : Deduplicated entries seen) (check : RequiredCheck) :
    Deduplicated (setEntry entries (requirementKey check) check) (seen ++ [check]) := by
  constructor
  · intro entry hmem
    rcases mem_setEntry hmem with hold | rfl
    · exact ⟨(h.sound entry hold).1, List.mem_append_left _ (h.sound entry hold).2⟩
    · exact ⟨rfl, List.mem_append_right _ List.mem_cons_self⟩
  · intro other hmem
    rw [map_fst_setEntry]
    rcases List.mem_append.mp hmem with hseen | hnew
    · have hkey := h.complete other hseen
      by_cases hknown : requirementKey check ∈ entries.map (·.1)
      · rwa [if_pos hknown]
      · rw [if_neg hknown]
        exact List.mem_append_left _ hkey
    · rw [List.mem_singleton.mp hnew]
      by_cases hknown : requirementKey check ∈ entries.map (·.1)
      · rwa [if_pos hknown]
      · rw [if_neg hknown]
        exact List.mem_append_right _ List.mem_cons_self

theorem deduplicated_foldl (checks : List RequiredCheck)
    {entries : List (String × RequiredCheck)} {seen : List RequiredCheck}
    (h : Deduplicated entries seen) :
    Deduplicated (checks.foldl (fun entries check =>
      setEntry entries (requirementKey check) check) entries) (seen ++ checks) := by
  induction checks generalizing entries seen with
  | nil => rwa [List.append_nil]
  | cons check checks ih =>
      have hnext := ih (deduplicated_setEntry h check)
      rwa [List.append_assoc, List.singleton_append] at hnext

/-- The requirements are the policy's entries, up to their sources. -/
theorem requirements_sound {policy : BranchPolicy} {check : RequiredCheck}
    (h : check ∈ requirements policy) : check ∈ policy.requiredChecks := by
  have hall := deduplicated_foldl policy.requiredChecks deduplicated_nil
  rcases List.mem_map.mp h with ⟨entry, hentry, rfl⟩
  have hseen := (hall.sound entry hentry).2
  rwa [List.nil_append] at hseen

theorem requirements_complete {policy : BranchPolicy} {check : RequiredCheck}
    (h : check ∈ policy.requiredChecks) :
    ∃ other ∈ requirements policy, SameRequirement other check := by
  have hall := deduplicated_foldl policy.requiredChecks deduplicated_nil
  rw [List.nil_append] at hall
  rcases List.mem_map.mp (hall.complete check h) with ⟨entry, hentry, hkey⟩
  refine ⟨entry.2, List.mem_map_of_mem hentry, ?_⟩
  rw [(hall.sound entry hentry).1] at hkey
  exact requirementKey_inj hkey

theorem requirements_eq_nil {policy : BranchPolicy} :
    requirements policy = [] ↔ policy.requiredChecks = [] := by
  constructor
  · intro hnone
    cases hchecks : policy.requiredChecks with
    | nil => rfl
    | cons check checks =>
        have hmem : check ∈ policy.requiredChecks := hchecks ▸ List.mem_cons_self
        rcases requirements_complete hmem with ⟨other, hother, _⟩
        rw [hnone] at hother
        exact absurd hother List.not_mem_nil
  · intro hnone
    unfold requirements
    rw [hnone]
    rfl

/-- A fact about matching reports holds of some requirement if it does of some entry. -/
theorem exists_requirements {policy : BranchPolicy} {P : RequiredCheck → Prop}
    (hsame : ∀ check other, SameRequirement check other → (P check ↔ P other)) :
    (∃ check ∈ requirements policy, P check) ↔ ∃ check ∈ policy.requiredChecks, P check := by
  constructor
  · rintro ⟨check, hmem, hcheck⟩
    exact ⟨check, requirements_sound hmem, hcheck⟩
  · rintro ⟨check, hmem, hcheck⟩
    rcases requirements_complete hmem with ⟨other, hother, hequal⟩
    exact ⟨other, hother, (hsame other check hequal).mpr hcheck⟩

theorem forall_requirements {policy : BranchPolicy} {P : RequiredCheck → Prop}
    (hsame : ∀ check other, SameRequirement check other → (P check ↔ P other)) :
    (∀ check ∈ requirements policy, P check) ↔ ∀ check ∈ policy.requiredChecks, P check := by
  constructor
  · intro hall check hmem
    rcases requirements_complete hmem with ⟨other, hother, hequal⟩
    exact (hsame other check hequal).mp (hall other hother)
  · intro hall check hmem
    exact hall check (requirements_sound hmem)

/-! ## The outcome -/

/-- A completed report of some requirement that is no success. -/
def SomeFailed (policy : BranchPolicy) (reported : List CheckResult) : Prop :=
  ∃ check ∈ policy.requiredChecks,
    ∃ report ∈ reported, CountsFor check report ∧ stateOf report = .failed

/-- Every requirement is reported, and by completed successes only. -/
def AllSucceeded (policy : BranchPolicy) (reported : List CheckResult) : Prop :=
  ∀ check ∈ policy.requiredChecks, (∃ report ∈ reported, CountsFor check report) ∧
    ∀ report ∈ reported, CountsFor check report → CompletedSuccess report

theorem any_failed {policy : BranchPolicy} {reported : List CheckResult} :
    ((requirements policy).map (observeRequirement reported)).any (·.state = .failed) = true ↔
      SomeFailed policy reported := by
  unfold SomeFailed
  rw [← exists_requirements (fun check other hequal => by simp only [countsFor_congr hequal])]
  simp [observeRequirement_failed]

theorem all_success {policy : BranchPolicy} {reported : List CheckResult} :
    ((requirements policy).map (observeRequirement reported)).all (·.state = .success) = true ↔
      AllSucceeded policy reported := by
  unfold AllSucceeded
  rw [← forall_requirements (fun check other hequal => by simp only [countsFor_congr hequal])]
  simp [observeRequirement_success]

theorem not_someFailed_of_allSucceeded {policy : BranchPolicy} {reported : List CheckResult}
    (h : AllSucceeded policy reported) : ¬ SomeFailed policy reported := by
  rintro ⟨check, hcheck, report, hreport, hcounts, hfailed⟩
  rw [stateOf_success.mpr ((h check hcheck).2 report hreport hcounts)] at hfailed
  cases hfailed

/-- The outcome, by what the entries and the reports say. -/
theorem outcome_eq (policy : BranchPolicy) (reported : List CheckResult)
    [Decidable (SomeFailed policy reported)] [Decidable (AllSucceeded policy reported)] :
    (evaluateRequiredChecks policy reported).outcome =
      if policy.requiredChecks = [] then .noPolicy
      else if SomeFailed policy reported then .failed
      else if AllSucceeded policy reported then .passed
      else .pending := by
  unfold evaluateRequiredChecks
  by_cases hnone : policy.requiredChecks = []
  · simp [hnone, requirements_eq_nil.mpr hnone]
  · have hsome : (requirements policy).isEmpty = false := by
      simpa [requirements_eq_nil] using hnone
    simp only [hnone, hsome, Bool.false_eq_true, if_false, any_failed, all_success]

theorem outcome_passed {policy : BranchPolicy} {reported : List CheckResult} :
    (evaluateRequiredChecks policy reported).outcome = .passed ↔
      policy.requiredChecks ≠ [] ∧ AllSucceeded policy reported := by
  classical
  rw [outcome_eq]
  by_cases hnone : policy.requiredChecks = []
  · simp [hnone]
  · by_cases hall : AllSucceeded policy reported
    · simp [hnone, hall, not_someFailed_of_allSucceeded hall]
    · by_cases hfailed : SomeFailed policy reported
      · simp [hnone, hall, hfailed]
      · simp [hnone, hall, hfailed]

theorem outcome_failed {policy : BranchPolicy} {reported : List CheckResult} :
    (evaluateRequiredChecks policy reported).outcome = .failed ↔ SomeFailed policy reported := by
  classical
  rw [outcome_eq]
  by_cases hnone : policy.requiredChecks = []
  · simp [hnone, SomeFailed]
  · by_cases hfailed : SomeFailed policy reported
    · simp [hnone, hfailed]
    · by_cases hall : AllSucceeded policy reported
      · simp [hnone, hall, hfailed]
      · simp [hnone, hall, hfailed]

/-- Only which entries and which reports there are counts. -/
theorem outcome_congr {policy other : BranchPolicy} {reported more : List CheckResult}
    (hchecks : ∀ check, check ∈ policy.requiredChecks ↔ check ∈ other.requiredChecks)
    (hreports : ∀ report, report ∈ reported ↔ report ∈ more) :
    (evaluateRequiredChecks policy reported).outcome =
      (evaluateRequiredChecks other more).outcome := by
  classical
  have hnone : policy.requiredChecks = [] ↔ other.requiredChecks = [] := by
    simp only [List.eq_nil_iff_forall_not_mem, hchecks]
  have hfailed : SomeFailed policy reported ↔ SomeFailed other more := by
    unfold SomeFailed
    simp only [hchecks, hreports]
  have hall : AllSucceeded policy reported ↔ AllSucceeded other more := by
    unfold AllSucceeded
    simp only [hchecks, hreports]
  rw [outcome_eq, outcome_eq]
  simp only [hnone, hfailed, hall]

/-- Further reports do not take back a failure. -/
theorem failed_of_subset {policy : BranchPolicy} {reported more : List CheckResult}
    (hmore : reported ⊆ more) (h : (evaluateRequiredChecks policy reported).outcome = .failed) :
    (evaluateRequiredChecks policy more).outcome = .failed := by
  rcases outcome_failed.mp h with ⟨check, hcheck, report, hreport, hcounts, hfailed⟩
  exact outcome_failed.mpr ⟨check, hcheck, report, hmore hreport, hcounts, hfailed⟩

/-- Required checks pass by completed successes only, in whatever order they are listed, and no
further report makes up for one that is no success. -/
theorem evaluateRequiredChecks_decides (policy : BranchPolicy) (reported : List CheckResult) :
    ((evaluateRequiredChecks policy reported).outcome = .passed ↔
      policy.requiredChecks ≠ [] ∧
        ∀ check ∈ policy.requiredChecks, (∃ report ∈ reported, CountsFor check report) ∧
          ∀ report ∈ reported, CountsFor check report → CompletedSuccess report) ∧
    (∀ (other : BranchPolicy) (reordered : List CheckResult),
      other.requiredChecks.Perm policy.requiredChecks → reordered.Perm reported →
        (evaluateRequiredChecks other reordered).outcome =
          (evaluateRequiredChecks policy reported).outcome) ∧
    (∀ more, reported ⊆ more → (evaluateRequiredChecks policy reported).outcome = .failed →
      (evaluateRequiredChecks policy more).outcome = .failed) ∧
    (∀ check ∈ policy.requiredChecks, ∀ report ∈ reported, CountsFor check report →
      ¬ CompletedSuccess report → ∀ more, reported ⊆ more →
        (evaluateRequiredChecks policy more).outcome ≠ .passed) := by
  refine ⟨outcome_passed, ?_, ?_, ?_⟩
  · intro other reordered hchecks hreports
    exact outcome_congr (fun _ => hchecks.mem_iff) (fun _ => hreports.mem_iff)
  · intro more hmore h
    exact failed_of_subset hmore h
  · intro check hcheck report hreport hcounts hfailure more hmore hpassed
    exact hfailure (((outcome_passed.mp hpassed).2 check hcheck).2 report (hmore hreport) hcounts)

/-- A skipped run of the pinned app keeps the check from passing, also beside a success. -/
theorem evaluateRequiredChecks_decides_skipped :
    (evaluateRequiredChecks ⟨[⟨"gate", some 7, .ruleset⟩, ⟨"gate", some 7, .branchProtection⟩], none⟩
      [⟨"gate", .checkRun, "completed", some "success", some 7⟩,
        ⟨"gate", .checkRun, "completed", some "skipped", some 7⟩]).outcome ≠ .passed :=
  (evaluateRequiredChecks_decides
    ⟨[⟨"gate", some 7, .ruleset⟩, ⟨"gate", some 7, .branchProtection⟩], none⟩
    [⟨"gate", .checkRun, "completed", some "skipped", some 7⟩]).2.2.2
    ⟨"gate", some 7, .ruleset⟩ List.mem_cons_self
    ⟨"gate", .checkRun, "completed", some "skipped", some 7⟩ List.mem_cons_self
    ⟨rfl, Or.inr rfl⟩ (by simp [CompletedSuccess]) _ (by simp)

/-! ## Policies from GitHub -/

theorem requiredChecks_foldl (rules : List BranchRule) (policy : BranchPolicy) :
    (rules.foldl applyRule policy).requiredChecks = policy.requiredChecks ++
      rules.flatMap fun rule => if rule.type = "required_status_checks" then
        (rule.requiredStatusChecks.getD []).map fun check =>
          ⟨check.context, check.appId, .ruleset⟩ else [] := by
  induction rules generalizing policy with
  | nil => simp
  | cons rule rules ih =>
      rw [List.foldl_cons, ih, List.flatMap_cons, ← List.append_assoc]
      congr 1
      unfold applyRule
      by_cases htype : rule.type = "required_status_checks"
      · simp [htype]
      · simp [htype]

/-- With GitHub's policy, a pull request passes only if what the branch protection and what each
ruleset requires succeeded. -/
theorem passed_of_getBranchPolicy {statusChecks : Option RequiredStatusChecks}
    {rules : List BranchRule} {reported : List CheckResult}
    (h : (evaluateRequiredChecks (getBranchPolicy statusChecks rules) reported).outcome = .passed) :
    (∀ check ∈ protectionChecks statusChecks,
      ∃ report ∈ reported, CountsFor check report ∧ CompletedSuccess report) ∧
    ∀ rule ∈ rules, rule.type = "required_status_checks" →
      ∀ check ∈ rule.requiredStatusChecks.getD [], ∃ report ∈ reported,
        CountsFor ⟨check.context, check.appId, .ruleset⟩ report ∧ CompletedSuccess report := by
  have hall := (outcome_passed.mp h).2
  have hsome : ∀ check ∈ (getBranchPolicy statusChecks rules).requiredChecks,
      ∃ report ∈ reported, CountsFor check report ∧ CompletedSuccess report := by
    intro check hmem
    rcases (hall check hmem).1 with ⟨report, hreport, hcounts⟩
    exact ⟨report, hreport, hcounts, (hall check hmem).2 report hreport hcounts⟩
  have hchecks := requiredChecks_foldl rules ⟨protectionChecks statusChecks, none⟩
  unfold getBranchPolicy at hsome
  rw [hchecks] at hsome
  constructor
  · intro check hmem
    exact hsome check (List.mem_append_left _ hmem)
  · intro rule hrule htype check hmem
    apply hsome
    apply List.mem_append_right
    refine List.mem_flatMap.mpr ⟨rule, hrule, ?_⟩
    rw [if_pos htype]
    exact List.mem_map_of_mem hmem

end Orchestrator
