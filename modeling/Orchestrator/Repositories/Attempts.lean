import Orchestrator.Repositories.StageWrites

/-! # Attempt numbers

What `startAttempt` and `completeAttempt` guarantee together: the attempts of a stage are
numbered from 1 without gaps, and only the last one may be incomplete.
-/

namespace Orchestrator

open Kit

namespace StageTables

variable (tables : StageTables)

/-- The attempt is there, and it has a completion time. -/
def Completed (taskId : TaskId) (stage : TaskState) (number : Nat) : Prop :=
  ∃ row, tables.taskAttempts.find? (taskId, stage, number) = some row ∧
    row.completedAt.isSome = true

/-- The attempts of the stage are 1 to `last`, and all but the last are complete. -/
structure Numbered (taskId : TaskId) (stage : TaskState) (last : Nat) : Prop where
  consecutive : ∀ number, (∃ row, tables.taskAttempts.find? (taskId, stage, number) = some row) ↔
    1 ≤ number ∧ number ≤ last
  completed : ∀ number, 1 ≤ number → number < last → tables.Completed taskId stage number

variable {tables} {taskId : TaskId} {stage : TaskState}

theorem mem_attemptsOf {row : TaskAttempt} : row ∈ tables.attemptsOf taskId stage ↔
    row ∈ tables.taskAttempts.rows ∧ row.taskId = taskId ∧ row.stage = stage := by
  simp [attemptsOf]

theorem number_of_mem_attemptsOf {row : TaskAttempt} (h : row ∈ tables.attemptsOf taskId stage) :
    tables.taskAttempts.find? (taskId, stage, row.attempt) = some row := by
  have hrow := mem_attemptsOf.mp h
  have hnumber : row.number = (taskId, stage, row.attempt) := by
    unfold TaskAttempt.number
    rw [hrow.2.1, hrow.2.2]
  rw [← hnumber]
  exact Table.find?_of_mem hrow.1

theorem mem_attemptsOf_of_find? {number : Nat} {row : TaskAttempt}
    (h : tables.taskAttempts.find? (taskId, stage, number) = some row) :
    row ∈ tables.attemptsOf taskId stage ∧ row.attempt = number := by
  have hnumber := Table.key_of_find? h
  unfold TaskAttempt.number at hnumber
  simp only [Prod.mk.injEq] at hnumber
  exact ⟨mem_attemptsOf.mpr ⟨Table.mem_of_find? h, hnumber.1, hnumber.2.1⟩, hnumber.2.2⟩

/-- The latest attempt is the one with the greatest number. -/
theorem latestAttempt_eq_some {row : TaskAttempt}
    (h : tables.latestAttempt taskId stage = some row) :
    row ∈ tables.attemptsOf taskId stage ∧
      ∀ other ∈ tables.attemptsOf taskId stage, other.attempt ≤ row.attempt := by
  have hmax : row ∈ (tables.attemptsOf taskId stage).argmax (·.attempt) := h
  exact ⟨List.argmax_mem hmax, fun other hother => List.le_of_mem_argmax hother hmax⟩

theorem latestAttempt_eq_none (h : tables.latestAttempt taskId stage = none) :
    tables.attemptsOf taskId stage = [] :=
  List.argmax_eq_none.mp h

/-- The number of the latest attempt is the last one. -/
theorem Numbered.latest {last : Nat} (h : tables.Numbered taskId stage last) {row : TaskAttempt}
    (hlatest : tables.latestAttempt taskId stage = some row) : row.attempt = last := by
  rcases latestAttempt_eq_some hlatest with ⟨hmem, hmax⟩
  have hrange := (h.consecutive row.attempt).mp ⟨row, number_of_mem_attemptsOf hmem⟩
  rcases (h.consecutive last).mpr ⟨by omega, le_refl last⟩ with ⟨other, hother⟩
  rcases mem_attemptsOf_of_find? hother with ⟨hmem', rfl⟩
  have hle := hmax other hmem'
  omega

theorem Numbered.none {last : Nat} (h : tables.Numbered taskId stage last)
    (hlatest : tables.latestAttempt taskId stage = none) : last = 0 := by
  by_contra hpos
  rcases (h.consecutive last).mpr ⟨by omega, le_refl last⟩ with ⟨row, hrow⟩
  have hmem := (mem_attemptsOf_of_find? hrow).1
  rw [latestAttempt_eq_none hlatest] at hmem
  cases hmem

/-- A task without attempts. -/
theorem numbered_new (h : ∀ row ∈ tables.taskAttempts.rows, row.taskId ≠ taskId) :
    tables.Numbered taskId stage 0 where
  consecutive number := by
    constructor
    · rintro ⟨row, hrow⟩
      exact absurd (mem_attemptsOf.mp (mem_attemptsOf_of_find? hrow).1).2.1
        (h row (Table.mem_of_find? hrow))
    · rintro ⟨hlow, hhigh⟩
      omega
  completed number hlow hhigh := by omega

/-! ## One write -/

section Put

variable {row row' : TaskAttempt}

theorem find?_putAttempt (hrow : tables.taskAttempts.find? row'.number = some row)
    (key : TaskId × TaskState × Nat) :
    (tables.putAttempt row').taskAttempts.find? key =
      if key = row'.number then some row' else tables.taskAttempts.find? key := by
  unfold putAttempt
  split_ifs with hkey
  · rw [hkey]
    exact Table.find?_put_self hrow
  · exact Table.find?_put_of_ne hkey

/-- A row that stays complete once it is. -/
theorem Completed.putAttempt (hrow : tables.taskAttempts.find? row'.number = some row)
    (hdone : row.completedAt.isSome = true → row'.completedAt.isSome = true) {number : Nat}
    (h : tables.Completed taskId stage number) :
    (tables.putAttempt row').Completed taskId stage number := by
  rcases h with ⟨found, hfound, hcompleted⟩
  unfold Completed
  rw [find?_putAttempt hrow]
  split_ifs with hkey
  · rw [hkey, hrow] at hfound
    cases hfound
    exact ⟨row', rfl, hdone hcompleted⟩
  · exact ⟨found, hfound, hcompleted⟩

theorem Numbered.putAttempt (hrow : tables.taskAttempts.find? row'.number = some row)
    (hdone : row.completedAt.isSome = true → row'.completedAt.isSome = true) {last : Nat}
    (h : tables.Numbered taskId stage last) : (tables.putAttempt row').Numbered taskId stage last where
  consecutive number := by
    rw [← h.consecutive number, find?_putAttempt hrow]
    split_ifs with hkey
    · rw [hkey, hrow]
      exact ⟨fun _ => ⟨row, rfl⟩, fun _ => ⟨row', rfl⟩⟩
    · rfl
  completed number hlow hhigh := (h.completed number hlow hhigh).putAttempt hrow hdone

end Put

section Add

variable {writer : StageWriter} {attempt : Nat} {now : Instant}

theorem find?_addAttempt
    (hnew : tables.taskAttempts.find? (writer.taskId, writer.stage, attempt) = none)
    (key : TaskId × TaskState × Nat) :
    (tables.addAttempt writer attempt now).taskAttempts.find? key =
      if key = (writer.taskId, writer.stage, attempt) then
        some { taskId := writer.taskId, stage := writer.stage, attempt, startedAt := now }
      else tables.taskAttempts.find? key := by
  unfold addAttempt
  split_ifs with hkey
  · rw [hkey]
    exact Table.find?_insert_self hnew
  · exact Table.find?_insert_of_ne hkey

theorem Completed.addAttempt {number : Nat} (h : tables.Completed taskId stage number) :
    (tables.addAttempt writer attempt now).Completed taskId stage number := by
  rcases h with ⟨found, hfound, hcompleted⟩
  refine ⟨found, ?_, hcompleted⟩
  have hmem := Table.mem_insert_of_mem (t := tables.taskAttempts)
    (r := { taskId := writer.taskId, stage := writer.stage, attempt, startedAt := now })
    (Table.mem_of_find? hfound)
  rw [← Table.key_of_find? hfound]
  exact Table.find?_of_mem hmem

end Add

end StageTables

/-! ## Every call -/

section Calls

open StageTables

variable {tables tables' : StageTables} {writer : StageWriter} {call : DatabaseCall}
  {value : call.Answer} {taskId : TaskId} {stage : TaskState}

/-- The number that `startAttempt` gives out is new or incomplete. -/
theorem Committed.notCompleted {attempt : Nat}
    (h : Committed tables writer .startAttempt attempt tables') :
    ¬ tables.Completed writer.taskId writer.stage attempt := by
  rintro ⟨found, hfound, hcompleted⟩
  rcases mem_attemptsOf_of_find? hfound with ⟨hmem, hattempt⟩
  cases h with
  | kept hobserves => cases hobserves
  | restarted row now hlatest hopen =>
      have hrow := number_of_mem_attemptsOf (latestAttempt_eq_some hlatest).1
      rw [hrow] at hfound
      cases hfound
      rw [hopen] at hcompleted
      cases hcompleted
  | started attempt now hnext =>
      cases hlatest : tables.latestAttempt writer.taskId writer.stage with
      | none =>
          rw [latestAttempt_eq_none hlatest] at hmem
          cases hmem
      | some row =>
          rw [hlatest] at hnext
          have hle := (latestAttempt_eq_some hlatest).2 found hmem
          have hsucc := hnext.2
          omega

/-- What a call does to the attempts: nothing, a later version of one, or a new one. -/
inductive AttemptChange (tables : StageTables) (writer : StageWriter) : StageTables → Prop
  | kept {tables' : StageTables} (h : tables'.taskAttempts = tables.taskAttempts) :
      AttemptChange tables writer tables'
  | put (row row' : TaskAttempt) (hrow : tables.taskAttempts.find? row'.number = some row)
      (hdone : row.completedAt.isSome = true → row'.completedAt.isSome = true) :
      AttemptChange tables writer (tables.putAttempt row')
  | added (attempt : Nat) (now : Instant)
      (hnext : match tables.latestAttempt writer.taskId writer.stage with
        | some row => row.completedAt ≠ none ∧ attempt = row.attempt + 1
        | none => attempt = 1) :
      AttemptChange tables writer (tables.addAttempt writer attempt now)

theorem Committed.attemptChange (h : Committed tables writer call value tables') :
    AttemptChange tables writer tables' := by
  cases h with
  | restarted row now hlatest hopen =>
      have hmem := (latestAttempt_eq_some hlatest).1
      exact .put row _ (Table.find?_of_mem (mem_attemptsOf.mp hmem).1) id
  | started attempt now hnext => exact .added attempt now hnext
  | concluded row attempt conclusion now hrow =>
      exact .put row _ (Table.find?_of_mem (Table.mem_of_find? hrow)) fun _ => rfl
  | _ => exact .kept rfl

theorem AttemptChange.completed (h : AttemptChange tables writer tables') {number : Nat}
    (hcompleted : tables.Completed taskId stage number) :
    tables'.Completed taskId stage number := by
  cases h with
  | kept hsame =>
      unfold Completed
      rw [hsame]
      exact hcompleted
  | put row row' hrow hdone => exact hcompleted.putAttempt hrow hdone
  | added attempt now hnext => exact hcompleted.addAttempt

theorem AttemptChange.numbered (h : AttemptChange tables writer tables') {last : Nat}
    (hnumbered : tables.Numbered taskId stage last) :
    ∃ last', tables'.Numbered taskId stage last' := by
  cases h with
  | kept hsame =>
      have hkept : AttemptChange tables writer tables' := .kept hsame
      refine ⟨last, ?_, fun number hlow hhigh =>
        hkept.completed (hnumbered.completed number hlow hhigh)⟩
      rw [hsame]
      exact hnumbered.consecutive
  | put row row' hrow hdone => exact ⟨last, hnumbered.putAttempt hrow hdone⟩
  | added attempt now hnext =>
      by_cases hself : taskId = writer.taskId ∧ stage = writer.stage
      · rcases hself with ⟨rfl, rfl⟩
        -- The new number follows the last one, which is complete.
        have hlast : attempt = last + 1 ∧
            (1 ≤ last → tables.Completed writer.taskId writer.stage last) := by
          cases hlatest : tables.latestAttempt writer.taskId writer.stage with
          | none =>
              rw [hlatest] at hnext
              have hzero := hnumbered.none hlatest
              exact ⟨by omega, by omega⟩
          | some row =>
              rw [hlatest] at hnext
              have hattempt := hnumbered.latest hlatest
              have hfound := number_of_mem_attemptsOf (latestAttempt_eq_some hlatest).1
              rw [hattempt] at hfound
              exact ⟨by omega, fun _ => ⟨row, hfound, Option.isSome_iff_ne_none.mpr hnext.1⟩⟩
        rcases hlast with ⟨rfl, hdone⟩
        have hnew : tables.taskAttempts.find? (writer.taskId, writer.stage, last + 1) = none := by
          cases hfound : tables.taskAttempts.find? (writer.taskId, writer.stage, last + 1) with
          | none => rfl
          | some row =>
              have hrange := (hnumbered.consecutive (last + 1)).mp ⟨row, hfound⟩
              omega
        refine ⟨last + 1, ?_, ?_⟩
        · intro number
          rw [find?_addAttempt hnew]
          simp only [Prod.mk.injEq, true_and]
          split_ifs with hnumber
          · constructor
            · intro _
              omega
            · intro _
              exact ⟨_, rfl⟩
          · rw [hnumbered.consecutive number]
            omega
        · intro number hlow hhigh
          apply Completed.addAttempt
          by_cases hnumber : number = last
          · subst hnumber
            exact hdone hlow
          · exact hnumbered.completed number hlow (by omega)
      · -- Another stage or task.
        refine ⟨last, ?_, fun number hlow hhigh =>
          (hnumbered.completed number hlow hhigh).addAttempt⟩
        intro number
        rw [← hnumbered.consecutive number]
        unfold addAttempt
        rw [Table.find?_insert_of_ne]
        intro hkey
        simp only [TaskAttempt.number, Prod.mk.injEq] at hkey
        exact hself ⟨hkey.1, hkey.2.1⟩

/-- A completed attempt has a completion time. -/
theorem completeAttempt_completed {holds : Bool} {now : Instant} {attempt : Nat}
    {conclusion : AttemptConclusion}
    (h : (DatabaseCall.completeAttempt attempt conclusion).perform writer holds now tables =
      .ok (tables', ())) : tables'.Completed writer.taskId writer.stage attempt := by
  simp only [DatabaseCall.perform, StageTables.completeAttempt] at h
  split at h
  · cases h
  · rename_i row hrow
    cases h
    unfold Completed
    have hsame : tables.taskAttempts.find? (row.concluded conclusion now).number = some row :=
      Table.find?_of_mem (Table.mem_of_find? hrow)
    rw [find?_putAttempt hsame]
    refine ⟨row.concluded conclusion now, ?_, rfl⟩
    rw [if_pos]
    exact (Table.key_of_find? hrow).symm

end Calls

end Orchestrator
