import Orchestrator.Repositories.StageTables

/-! # What a committed call does to the stage tables

A relation with a constructor for each way a committed call can change the tables, and
what lasts under all of them. The invariants of the stages are derived from it by cases,
and nothing else unfolds the repository functions.
-/

namespace Orchestrator

open Kit

namespace StageTables

/-- The record that the first execution of an operation inserts. -/
def newOperation (tables : StageTables) (writer : StageWriter)
    (operationType : ExternalOperationType) (idempotencyKey : String) : ExternalOperation :=
  { id := tables.freshOperationId, taskId := writer.taskId, operationType, idempotencyKey }

/-- The tables with that record. -/
def begun (tables : StageTables) (writer : StageWriter) (operationType : ExternalOperationType)
    (idempotencyKey : String) : StageTables :=
  { tables with
    externalOperations := tables.externalOperations.insert
      (tables.newOperation writer operationType idempotencyKey) }

/-- No two operations have the same id. -/
def DistinctIds (tables : StageTables) : Prop :=
  ∀ row ∈ tables.externalOperations.rows, ∀ other ∈ tables.externalOperations.rows,
    row.id = other.id → row = other

theorem distinctIds_empty : DistinctIds {} := by
  intro row hrow
  cases hrow

theorem id_lt_freshOperationId {tables : StageTables} {row : ExternalOperation}
    (hrow : row ∈ tables.externalOperations.rows) : row.id < tables.freshOperationId := by
  have hle := le_foldr_max (List.mem_map_of_mem (f := ExternalOperation.id) hrow)
  unfold freshOperationId
  omega

/-- The operation of the key has a response. -/
def Succeeded (tables : StageTables) (key : String) : Prop :=
  ∃ row, tables.externalOperations.find? key = some row ∧ row.status = .succeeded

/-- The pull request number recorded on a work unit. -/
def pullRequestNumber (tables : StageTables) (taskId : TaskId) (repository : String) :
    Option Nat :=
  ((tables.taskWorkUnits.find? (taskId, repository)).bind (·.pullRequest)).map (·.number)

theorem mem_getWorkUnits {tables : StageTables} {taskId : TaskId} {row : WorkUnitRow} :
    row ∈ tables.getWorkUnits taskId ↔ row ∈ tables.taskWorkUnits.rows ∧ row.taskId = taskId := by
  simp [getWorkUnits]

/-- The work unit of a repository, among those of its task. -/
theorem find?_getWorkUnits (tables : StageTables) (taskId : TaskId) (repository : String) :
    ((tables.getWorkUnits taskId).find? fun row => row.repository = repository) =
      tables.taskWorkUnits.find? (taskId, repository) := by
  cases hrow : tables.taskWorkUnits.find? (taskId, repository) with
  | none =>
      rw [List.find?_eq_none]
      intro row hmem hrepository
      have hunit := mem_getWorkUnits.mp hmem
      apply Table.find?_eq_none_iff.mp hrow row hunit.1
      unfold WorkUnitRow.unit
      rw [hunit.2, of_decide_eq_true hrepository]
  | some row =>
      have hunit : row.unit = (taskId, repository) := Table.key_of_find? hrow
      unfold WorkUnitRow.unit at hunit
      cases hfound : (tables.getWorkUnits taskId).find? fun row => row.repository = repository with
      | none =>
          have hmem : row ∈ tables.getWorkUnits taskId :=
            mem_getWorkUnits.mpr ⟨Table.mem_of_find? hrow, congrArg Prod.fst hunit⟩
          have hother := List.find?_eq_none.mp hfound row hmem
          exact absurd (decide_eq_true (congrArg Prod.snd hunit)) hother
      | some found =>
          have hmem := mem_getWorkUnits.mp (List.mem_of_find?_eq_some hfound)
          have hrepository : found.repository = repository := by
            simpa using List.find?_some hfound
          have hkey : found.unit = (taskId, repository) := by
            unfold WorkUnitRow.unit
            rw [hmem.2, hrepository]
          rw [← hrow, ← hkey]
          exact (Table.find?_of_mem hmem.1).symm

end StageTables

/-! ## Committed calls -/

/-- The calls that may leave the tables as they are. -/
def DatabaseCall.observes : DatabaseCall → Bool
  | .getWorkUnits => true
  | .getCheckpoint _ => true
  | .recordModelSelection _ => true
  | .beginExternalOperation _ _ => true
  | _ => false

/-- What a committed call did and answered: at most one row is written. -/
inductive Committed (tables : StageTables) (writer : StageWriter) :
    (call : DatabaseCall) → call.Answer → StageTables → Prop
  /-- A read, and a call that finds its row already there. -/
  | kept {call : DatabaseCall} {value : call.Answer} (hobserves : call.observes = true) :
      Committed tables writer call value tables
  | checkpointed (payload : CheckpointPayload) (now : Instant) :
      Committed tables writer (.recordCheckpoint payload) ()
        (tables.recordCheckpoint writer payload now)
  | restarted (row : TaskAttempt) (now : Instant)
      (hlatest : tables.latestAttempt writer.taskId writer.stage = some row)
      (hopen : row.completedAt = none) :
      Committed tables writer .startAttempt row.attempt (tables.putAttempt (row.restarted now))
  | started (attempt : Nat) (now : Instant)
      (hnext : match tables.latestAttempt writer.taskId writer.stage with
        | some row => row.completedAt ≠ none ∧ attempt = row.attempt + 1
        | none => attempt = 1) :
      Committed tables writer .startAttempt attempt (tables.addAttempt writer attempt now)
  | concluded (row : TaskAttempt) (attempt : Nat) (conclusion : AttemptConclusion)
      (now : Instant)
      (hrow : tables.taskAttempts.find? (writer.taskId, writer.stage, attempt) = some row) :
      Committed tables writer (.completeAttempt attempt conclusion) ()
        (tables.putAttempt (row.concluded conclusion now))
  | begun (operationType : ExternalOperationType) (idempotencyKey : String)
      (hnew : tables.externalOperations.find? idempotencyKey = none) :
      Committed tables writer (.beginExternalOperation operationType idempotencyKey)
        (tables.newOperation writer operationType idempotencyKey, true)
        (tables.begun writer operationType idempotencyKey)
  | responded (row : ExternalOperation) (response : OperationResponse)
      (hrow : row ∈ tables.externalOperations.rows) (htask : row.taskId = writer.taskId) :
      Committed tables writer (.completeExternalOperation row.id response) ()
        { tables with
          externalOperations := tables.externalOperations.put (row.succeededWith response) }
  | prepared (row : WorkUnitRow) (identity : WorkspaceIdentity)
      (hrow : tables.taskWorkUnits.find? (writer.taskId, identity.repository) = some row) :
      Committed tables writer (.recordWorkUnitWorkspace identity) ()
        { tables with taskWorkUnits := tables.taskWorkUnits.put (row.prepared identity) }
  | delivered (row : WorkUnitRow) (repository : String) (delivery : WorkUnitDeliveryUpdate)
      (hrow : tables.taskWorkUnits.find? (writer.taskId, repository) = some row) :
      Committed tables writer (.recordWorkUnitDelivery repository delivery) ()
        { tables with taskWorkUnits := tables.taskWorkUnits.put (row.delivered delivery) }

section Committed

variable {tables tables' : StageTables} {writer : StageWriter} {holds : Bool} {now : Instant}

theorem updateWorkUnit_eq_ok {repository : String} {change : WorkUnitRow → WorkUnitRow}
    {clashes : WorkUnitRow → WorkUnitRow → Bool} {conflict : StageError}
    (h : tables.updateWorkUnit writer holds repository change clashes conflict =
      .ok (tables', ())) :
    ∃ row, tables.taskWorkUnits.find? (writer.taskId, repository) = some row ∧
      tables' = { tables with taskWorkUnits := tables.taskWorkUnits.put (change row) } := by
  unfold StageTables.updateWorkUnit at h
  split at h
  · cases h
  · rename_i row hrow
    split_ifs at h
    cases h
    exact ⟨row, hrow, rfl⟩

theorem startAttempt_committed {attempt : Nat}
    (h : tables.startAttempt writer holds now = .ok (tables', attempt)) :
    Committed tables writer .startAttempt attempt tables' := by
  unfold StageTables.startAttempt at h
  split_ifs at h
  cases hlatest : tables.latestAttempt writer.taskId writer.stage with
  | none =>
      rw [hlatest] at h
      cases h
      refine .started 1 now ?_
      rw [hlatest]
  | some row =>
      rw [hlatest] at h
      dsimp only at h
      split_ifs at h with hopen
      · cases h
        exact .restarted row now hlatest hopen
      · cases h
        refine .started (row.attempt + 1) now ?_
        rw [hlatest]
        exact ⟨hopen, rfl⟩

/-- The inversion of a committed transaction. -/
theorem committed {call : DatabaseCall} {value : call.Answer}
    (h : call.perform writer holds now tables = .ok (tables', value)) :
    Committed tables writer call value tables' := by
  cases call with
  | getWorkUnits =>
      cases h
      exact .kept rfl
  | getCheckpoint key =>
      cases h
      exact .kept rfl
  | recordCheckpoint payload =>
      cases h
      exact .checkpointed payload now
  | startAttempt => exact startAttempt_committed h
  | completeAttempt attempt conclusion =>
      simp only [DatabaseCall.perform, StageTables.completeAttempt] at h
      split at h
      · cases h
      · rename_i row hrow
        cases h
        exact .concluded row attempt conclusion now hrow
  | recordModelSelection selection =>
      simp only [DatabaseCall.perform] at h
      split_ifs at h
      cases h
      exact .kept rfl
  | beginExternalOperation operationType idempotencyKey =>
      simp only [DatabaseCall.perform, StageTables.beginExternalOperation] at h
      cases hrow : tables.externalOperations.find? idempotencyKey with
      | some row =>
          rw [hrow] at h
          cases h
          exact .kept rfl
      | none =>
          rw [hrow] at h
          cases h
          exact .begun operationType idempotencyKey hrow
  | completeExternalOperation operationId response =>
      simp only [DatabaseCall.perform, StageTables.completeExternalOperation] at h
      split at h
      · cases h
      · rename_i row hrow
        cases h
        -- The row found is the one with the number asked for.
        have hfound := List.find?_some hrow
        simp only [Bool.and_eq_true, decide_eq_true_eq] at hfound
        rcases hfound with ⟨⟨rfl, htask⟩, _⟩
        exact .responded row response (List.mem_of_find?_eq_some hrow) htask
  | recordWorkUnitWorkspace identity =>
      simp only [DatabaseCall.perform, StageTables.recordWorkUnitWorkspace] at h
      rcases updateWorkUnit_eq_ok h with ⟨row, hrow, rfl⟩
      exact .prepared row identity hrow
  | recordWorkUnitDelivery repository delivery =>
      simp only [DatabaseCall.perform, StageTables.recordWorkUnitDelivery] at h
      rcases updateWorkUnit_eq_ok h with ⟨row, hrow, rfl⟩
      exact .delivered row repository delivery hrow

end Committed

/-! ## Work units -/

@[simp] theorem WorkUnitRow.prepared_unit (row : WorkUnitRow) (identity : WorkspaceIdentity) :
    (row.prepared identity).unit = row.unit := rfl

@[simp] theorem WorkUnitRow.delivered_unit (row : WorkUnitRow)
    (delivery : WorkUnitDeliveryUpdate) : (row.delivered delivery).unit = row.unit := rfl

section WorkUnits

variable {tables tables' : StageTables} {writer : StageWriter} {call : DatabaseCall}
  {value : call.Answer} {taskId : TaskId} {repository : String}

theorem pullRequestNumber_put {row row' : WorkUnitRow}
    (hrow : tables.taskWorkUnits.find? row'.unit = some row) :
    { tables with taskWorkUnits := tables.taskWorkUnits.put row' }.pullRequestNumber
        taskId repository =
      if row'.unit = (taskId, repository) then row'.pullRequest.map (·.number)
      else tables.pullRequestNumber taskId repository := by
  unfold StageTables.pullRequestNumber
  split_ifs with hunit
  · have hfound := Table.find?_put_self (r := row') hrow
    rw [hunit] at hfound
    rw [hfound]
    rfl
  · rw [Table.find?_put_of_ne (Ne.symm hunit)]

/-- Only a delivery with a pull request changes the recorded number. -/
theorem Committed.pullRequestNumber (h : Committed tables writer call value tables')
    (hother : ∀ delivery, writer.taskId = taskId →
      call = .recordWorkUnitDelivery repository delivery → delivery.pullRequest = none) :
    tables'.pullRequestNumber taskId repository =
      tables.pullRequestNumber taskId repository := by
  -- A row that keeps its pull request keeps the number.
  have hput : ∀ (row row' : WorkUnitRow), tables.taskWorkUnits.find? row'.unit = some row →
      (row'.unit = (taskId, repository) → row'.pullRequest = row.pullRequest) →
      { tables with taskWorkUnits := tables.taskWorkUnits.put row' }.pullRequestNumber
        taskId repository = tables.pullRequestNumber taskId repository := by
    intro row row' hrow hsame
    rw [pullRequestNumber_put hrow]
    split_ifs with hunit
    · rw [hsame hunit]
      unfold StageTables.pullRequestNumber
      rw [← hunit, hrow]
      rfl
    · rfl
  cases h with
  | prepared row identity hrow =>
      have hunit : row.unit = (writer.taskId, identity.repository) := Table.key_of_find? hrow
      apply hput row
      · rwa [WorkUnitRow.prepared_unit, hunit]
      · intro _
        rfl
  | delivered row repository' delivery hrow =>
      have hunit : row.unit = (writer.taskId, repository') := Table.key_of_find? hrow
      apply hput row
      · rwa [WorkUnitRow.delivered_unit, hunit]
      · intro hsame
        rw [WorkUnitRow.delivered_unit, hunit] at hsame
        cases hsame
        have hnone := hother delivery rfl rfl
        unfold WorkUnitRow.delivered
        rw [hnone]
        rfl
  | _ => rfl

end WorkUnits

/-! ## Checkpoints -/

section Checkpoints

variable {tables tables' : StageTables} {writer : StageWriter} {call : DatabaseCall}
  {value : call.Answer} {taskId : TaskId} {key : CheckpointKey}

theorem getCheckpoint_recordCheckpoint {payload : CheckpointPayload} {now : Instant} :
    (tables.recordCheckpoint writer payload now).getCheckpoint writer.taskId payload.key =
      some payload := by
  have hrow : (tables.taskCheckpoints.upsert ⟨writer.taskId, writer.stage, payload, now⟩).find?
      (writer.taskId, payload.key) = some ⟨writer.taskId, writer.stage, payload, now⟩ :=
    Table.find?_upsert_self
  unfold StageTables.getCheckpoint StageTables.recordCheckpoint
  rw [hrow]
  rfl

/-- Only a checkpoint of the task in the slot changes what the slot has. -/
theorem Committed.getCheckpoint (h : Committed tables writer call value tables')
    (hother : ∀ payload, writer.taskId = taskId → call = .recordCheckpoint payload →
      payload.key ≠ key) :
    tables'.getCheckpoint taskId key = tables.getCheckpoint taskId key := by
  cases h with
  | checkpointed payload now =>
      have hne : (taskId, key) ≠ TaskCheckpoint.slot ⟨writer.taskId, writer.stage, payload, now⟩ := by
        intro hslot
        have htask : taskId = writer.taskId := congrArg Prod.fst hslot
        have hkey : key = payload.key := congrArg Prod.snd hslot
        exact hother payload htask.symm rfl hkey.symm
      unfold StageTables.getCheckpoint StageTables.recordCheckpoint
      rw [Table.find?_upsert_of_ne hne]
  | _ => rfl

end Checkpoints

/-! ## External operations -/

/-- What a committed call can do to the table of external operations. -/
inductive OperationChange (tables : StageTables) (writer : StageWriter) :
    Table ExternalOperation.idempotencyKey → Prop
  | kept : OperationChange tables writer tables.externalOperations
  | begun (operationType : ExternalOperationType) (idempotencyKey : String)
      (hnew : tables.externalOperations.find? idempotencyKey = none) :
      OperationChange tables writer
        (tables.begun writer operationType idempotencyKey).externalOperations
  | completed (row : ExternalOperation) (response : OperationResponse)
      (hrow : row ∈ tables.externalOperations.rows) (htask : row.taskId = writer.taskId) :
      OperationChange tables writer
        (tables.externalOperations.put (row.succeededWith response))

theorem operationChange {tables tables' : StageTables} {writer : StageWriter} {holds : Bool}
    {now : Instant} {call : DatabaseCall} {value : call.Answer}
    (h : call.perform writer holds now tables = .ok (tables', value)) :
    OperationChange tables writer tables'.externalOperations := by
  cases committed h with
  | begun operationType idempotencyKey hnew => exact .begun operationType idempotencyKey hnew
  | responded row response hrow htask => exact .completed row response hrow htask
  | _ => exact .kept

/-- The later record of the key: the same operation, with its response once it has one. -/
structure Continues (row row' : ExternalOperation) : Prop where
  id : row'.id = row.id
  taskId : row'.taskId = row.taskId
  response : row.status = .succeeded → row'.status = .succeeded

theorem OperationChange.continues {tables : StageTables} {writer : StageWriter}
    {operations : Table ExternalOperation.idempotencyKey}
    (h : OperationChange tables writer operations) {key : String} {row : ExternalOperation}
    (hrow : tables.externalOperations.find? key = some row) :
    ∃ row', operations.find? key = some row' ∧ Continues row row' := by
  cases h with
  | kept => exact ⟨row, hrow, rfl, rfl, id⟩
  | begun operationType idempotencyKey hnew =>
      have hne : key ≠ idempotencyKey := by
        rintro rfl
        rw [hrow] at hnew
        cases hnew
      refine ⟨row, ?_, rfl, rfl, id⟩
      exact (Table.find?_insert_of_ne hne).trans hrow
  | completed other response hother htask =>
      by_cases hkey : key = other.idempotencyKey
      · subst hkey
        have hsame : row = other := by
          have hfound := Table.find?_of_mem hother
          rw [hrow] at hfound
          exact Option.some.inj hfound
        subst hsame
        exact ⟨row.succeededWith response,
          Table.find?_put_self (r := row.succeededWith response) hrow, rfl, rfl, fun _ => rfl⟩
      · have hfound := Table.find?_put_of_ne (t := tables.externalOperations)
          (r := other.succeededWith response) hkey
        exact ⟨row, hfound.trans hrow, rfl, rfl, id⟩

theorem OperationChange.distinctIds {tables tables' : StageTables} {writer : StageWriter}
    (h : OperationChange tables writer tables'.externalOperations)
    (hids : tables.DistinctIds) : tables'.DistinctIds := by
  unfold StageTables.DistinctIds
  generalize tables'.externalOperations = operations at h
  cases h with
  | kept => exact hids
  | begun operationType idempotencyKey hnew =>
      have hfresh : ∀ row ∈ tables.externalOperations.rows,
          row.id ≠ (tables.newOperation writer operationType idempotencyKey).id := by
        intro row hrow
        exact (StageTables.id_lt_freshOperationId hrow).ne
      intro row hrow other hother hid
      rcases (Table.mem_insert hnew).mp hrow with hrow | rfl <;>
        rcases (Table.mem_insert hnew).mp hother with hother | rfl
      · exact hids row hrow other hother hid
      · exact absurd hid (hfresh row hrow)
      · exact absurd hid.symm (hfresh other hother)
      · rfl
  | completed done response hdone htask =>
      -- The completed record keeps the id and the key it had.
      have hback : ∀ row ∈ (tables.externalOperations.put (done.succeededWith response)).rows,
          ∃ before ∈ tables.externalOperations.rows, before.id = row.id ∧
            row = if before = done then done.succeededWith response else before := by
        intro row hrow
        rcases Table.mem_put.mp hrow with ⟨rfl, _⟩ | ⟨hold, hkey⟩
        · exact ⟨done, hdone, rfl, by simp⟩
        · have hne : row ≠ done := by
            rintro rfl
            exact hkey rfl
          exact ⟨row, hold, rfl, by simp [hne]⟩
      intro row hrow other hother hid
      obtain ⟨left, hleft, hleftId, hleftRow⟩ := hback row hrow
      obtain ⟨right, hright, hrightId, hrightRow⟩ := hback other hother
      have hsame : left = right := by
        apply hids left hleft right hright
        rw [hleftId, hrightId, hid]
      rw [hleftRow, hrightRow, hsame]

/-- Completing the operation of a key stores the response in its record. -/
theorem completeExternalOperation_eq_ok {tables tables' : StageTables} {writer : StageWriter}
    {holds : Bool} {row : ExternalOperation} {response : OperationResponse} {key : String}
    (hids : tables.DistinctIds) (hrow : tables.externalOperations.find? key = some row)
    (h : tables.completeExternalOperation writer holds row.id response = .ok (tables', ())) :
    tables'.externalOperations.find? key = some (row.succeededWith response) := by
  unfold StageTables.completeExternalOperation at h
  split at h
  · cases h
  · rename_i found hfound
    cases h
    have hid := List.find?_some hfound
    simp only [Bool.and_eq_true, decide_eq_true_eq] at hid
    have hsame : found = row :=
      hids found (List.mem_of_find?_eq_some hfound) row (Table.mem_of_find? hrow) hid.1.1
    subst hsame
    have hkey : key = (found.succeededWith response).idempotencyKey :=
      (Table.key_of_find? hrow).symm
    rw [hkey] at hrow ⊢
    exact Table.find?_put_self hrow

end Orchestrator
