import Orchestrator.Delivery.DeliverySupport
import Orchestrator.Repositories.StageWrites

/-! # The rule of an intent record

An operation that runs under its record: what the effect may rely on, whether the record
is new or left over from an execution that did not come to an end.
-/

namespace Orchestrator

open Kit

theorem only_idempotentOperation {allowed : StageCall → Prop} {task : Task}
    {operationType : ExternalOperationType} {key : String}
    {effect : Bool → StageProc OperationResponse}
    (hbegin : allowed (.database (.beginExternalOperation operationType key)))
    (heffect : ∀ created, (effect created).Only allowed)
    (hcomplete : ∀ operationId response,
      allowed (.database (.completeExternalOperation operationId response))) :
    (idempotentOperation task operationType key effect).Only allowed := by
  unfold idempotentOperation
  refine only_bind (only_database.mpr hbegin) ?_
  rintro ⟨before, created⟩
  dsimp only
  split_ifs
  · exact trivial
  · cases before.status with
    | succeeded => exact trivial
    | pending =>
        refine only_bind (heffect created) ?_
        intro response
        exact only_bind (only_database.mpr (hcomplete _ _)) fun _ => trivial

theorem throws_idempotentOperation {R : StageError → Prop} {task : Task}
    {operationType : ExternalOperationType} {key : String}
    {effect : Bool → StageProc OperationResponse} (hblocked : ∀ message, R (.workspaceBlocked message))
    (heffect : ∀ created, (effect created).Throws R) :
    (idempotentOperation task operationType key effect).Throws R := by
  unfold idempotentOperation
  refine throws_bind (throws_database _) ?_
  rintro ⟨before, created⟩
  dsimp only
  split_ifs
  · exact hblocked _
  · cases before.status with
    | succeeded => exact trivial
    | pending =>
        refine throws_bind (heffect created) ?_
        intro response
        exact throws_bind (throws_database _) fun _ => trivial

section Rule

variable {ω : Type} {services : Services ω} {writer : StageWriter} {I : StageWorld ω → Prop}
  {task : Task} {operationType : ExternalOperationType} {key : String}
  {effect : Bool → StageProc OperationResponse}
  {Q : Option OperationResponse × Bool → StageWorld ω → Prop} {w : StageWorld ω}

/-- Recording the response keeps `I` and ends in `Q`. -/
def Completes (writer : StageWriter) (operationId : Nat) (I : StageWorld ω → Prop)
    (Q : Option OperationResponse × Bool → StageWorld ω → Prop) (response : OperationResponse)
    (w : StageWorld ω) : Prop :=
  ∀ holds tables, w.tables.completeExternalOperation writer holds operationId response =
      .ok (tables, ()) →
    I (w.wrote writer (.completeExternalOperation operationId response) tables) ∧
      Q (some response, false)
        (w.wrote writer (.completeExternalOperation operationId response) tables)

theorem keeps_idempotentOperation (hwriter : writer.taskId = task.id) (hI : I w)
    (hleft : ∀ row, w.tables.externalOperations.find? key = some row →
      I (w.wrote writer (.beginExternalOperation operationType key) w.tables) ∧
        (row.taskId = task.id → row.status = .succeeded →
          Q (row.response, true)
            (w.wrote writer (.beginExternalOperation operationType key) w.tables)) ∧
        (row.taskId = task.id → row.status = .pending →
          (effect false).Keeps (serves services writer) I (Completes writer row.id I Q)
            (w.wrote writer (.beginExternalOperation operationType key) w.tables)))
    (hnew : w.tables.externalOperations.find? key = none →
      I (w.wrote writer (.beginExternalOperation operationType key)
          (w.tables.begun writer operationType key)) ∧
        (effect true).Keeps (serves services writer) I
          (Completes writer (w.tables.newOperation writer operationType key).id I Q)
          (w.wrote writer (.beginExternalOperation operationType key)
            (w.tables.begun writer operationType key))) :
    (idempotentOperation task operationType key effect).Keeps (serves services writer) I Q w := by
  -- The effect, and the record of its response.
  have hrun : ∀ created operationId w', I w' →
      (effect created).Keeps (serves services writer) I (Completes writer operationId I Q) w' →
      (do
        let response ← effect created
        let _ ← database (.completeExternalOperation operationId response)
        pure (some response, false)).Keeps (serves services writer) I Q w' := by
    intro created operationId w' hkept heffect
    refine keeps_bind heffect ?_
    intro response w₁ hkept₁ hcompletes
    refine keeps_bind (keeps_database hkept₁ (Q := fun _ => Q (some response, false)) ?_) ?_
    · intro holds now tables value hperform
      exact hcompletes holds tables hperform
    · intro value w₂ hkept₂ hends
      exact keeps_pure hkept₂ hends
  unfold idempotentOperation
  refine keeps_bind_rest (keeps_database hI ?_)
  intro holds now tables value hperform
  simp only [DatabaseCall.perform, StageTables.beginExternalOperation] at hperform
  cases hrow : w.tables.externalOperations.find? key with
  | some row =>
      rw [hrow] at hperform
      cases hperform
      obtain ⟨hkept, hsucceeded, hpending⟩ := hleft row hrow
      refine ⟨hkept, ?_⟩
      show Proc.Keeps _ _ _ (if row.taskId ≠ task.id then _ else _) _
      by_cases htask : row.taskId = task.id
      · rw [if_neg (by simp [htask])]
        cases hstatus : row.status with
        | succeeded => exact keeps_pure hkept (hsucceeded htask hstatus)
        | pending => exact hrun false row.id _ hkept (hpending htask hstatus)
      · rw [if_pos htask]
        exact keeps_throw hkept
  | none =>
      rw [hrow] at hperform
      cases hperform
      obtain ⟨hkept, heffect⟩ := hnew hrow
      refine ⟨hkept, ?_⟩
      show Proc.Keeps _ _ _ (if writer.taskId ≠ task.id then _ else _) _
      rw [if_neg (by simp [hwriter])]
      exact hrun true _ _ hkept heffect

end Rule

end Orchestrator
