import Orchestrator.Types.Domain

/-! # The task state machine

`canTransition` and the validation every state change goes through
(`orchestrator/state-machine.ts`), with the errors the workflow raises.
-/

namespace Orchestrator

open TaskState

inductive OperatorErrorCode
  | notFound | conflict
  deriving DecidableEq, Repr

/-- The errors the workflow functions throw. -/
inductive WorkflowError
  | invalidTransition (source target : TaskState)
  | leaseOwnership (taskId : TaskId)
  | contractChanged (linearIssueId : String)
  | operatorAction (message : String) (code : OperatorErrorCode)
  | error (message : String)
  deriving DecidableEq, Repr

/-- The `message` of each error class. -/
def WorkflowError.message : WorkflowError → String
  | .invalidTransition source target =>
      s!"Invalid task transition: {source.text} -> {target.text}"
  | .leaseOwnership taskId => s!"Task {taskId} is leased by another worker"
  | .contractChanged linearIssueId =>
      s!"Persisted contract changed for Linear issue: {linearIssueId}"
  | .operatorAction message _ => message
  | .error message => message

/-- `taskId` of a row that a `SELECT` or `UPDATE` did not find. -/
def taskNotFound (taskId : TaskId) : WorkflowError := .error s!"Task not found: {taskId}"

/-- A validated state change. -/
structure StateTransition where
  source : TaskState
  target : TaskState
  reason : Option String
  resumeState : Option TaskState
  pauseReason : Option PauseReason
  deriving DecidableEq, Repr

/-- `StateTransition` without its end points. -/
structure TransitionDetails where
  reason : Option String := none
  resumeState : Option TaskState := none
  pauseReason : Option PauseReason := none
  deriving DecidableEq, Repr

def canTransition (source target : TaskState) : Bool :=
  (transitionMap source).contains target || (target = cancelled && canCancel source)

/-- `transitionTask` of the state machine: validate one transition. -/
def validateTransition (current next : TaskState) (details : TransitionDetails) :
    Except WorkflowError StateTransition :=
  if canTransition current next = false then
    .error (.invalidTransition current next)
  else if next = pausedSchedule ∧ details.resumeState = none then
    .error (.error "PAUSED_SCHEDULE transitions require resumeState")
  else if next = pausedLimit ∧ details.resumeState = none then
    .error (.error "PAUSED_LIMIT transitions require resumeState")
  else match details.resumeState with
    | some resumeState =>
        if next ∈ pauseStates ∧ canTransition next resumeState = false then
          .error (.error s!"{next.text} cannot resume to {resumeState.text}")
        else
          .ok ⟨current, next, details.reason, details.resumeState, details.pauseReason⟩
    | none => .ok ⟨current, next, details.reason, details.resumeState, details.pauseReason⟩

/-! ## What validation guarantees -/

/-- The condition under which a transition with these details is accepted. -/
def TransitionAllowed (current next : TaskState) (resumeState : Option TaskState) : Prop :=
  canTransition current next = true ∧
    (next ∈ pauseStates → ∃ resume, resumeState = some resume ∧ canTransition next resume = true)

/-- Validation succeeds exactly on the allowed transitions, and then returns the
requested one. -/
theorem validateTransition_eq_ok_iff {current next : TaskState} {details : TransitionDetails}
    {transition : StateTransition} :
    validateTransition current next details = .ok transition ↔
      TransitionAllowed current next details.resumeState ∧
        transition = ⟨current, next, details.reason, details.resumeState, details.pauseReason⟩ := by
  unfold validateTransition TransitionAllowed
  -- Only a pause needs a resume state; elsewhere it is recorded unchecked.
  by_cases hcan : canTransition current next = true
  · by_cases hpause : next ∈ pauseStates
    · rcases hresume : details.resumeState with _ | resume
      · have hnext : next = pausedSchedule ∨ next = pausedLimit := by
          simpa [pauseStates] using hpause
        rcases hnext with rfl | rfl <;> simp [hcan, pauseStates]
      · by_cases hback : canTransition next resume = true
        · simp [hcan, hback, @eq_comm _ transition]
        · simp [hcan, hback, hpause]
    · have hnext : next ≠ pausedSchedule ∧ next ≠ pausedLimit := by
        simpa [pauseStates] using hpause
      rcases hresume : details.resumeState with _ | resume <;>
        simp [hcan, hnext, hpause, @eq_comm _ transition]
  · simp [hcan]

/-- A terminal state has no way out. -/
theorem canTransition_of_terminal {source target : TaskState} (h : source ∈ terminalStates) :
    canTransition source target = false := by
  have hsource : source = completed ∨ source = cancelled := by simpa [terminalStates] using h
  rcases hsource with rfl | rfl <;> cases target <;> rfl

/-- The map never leads to `CANCELLED`; only the cancellation rule does. -/
theorem canTransition_cancelled_iff {source : TaskState} :
    canTransition source cancelled = true ↔ source ∉ terminalStates := by
  cases source <;> decide

/-- Every state that still has work to do, `BLOCKED` apart, can be blocked. -/
theorem canTransition_blocked_iff {source : TaskState} :
    canTransition source blocked = true ↔ source ∉ [blocked, completed, cancelled] := by
  cases source <;> decide

/-- Only `BLOCKED` and `FAILED` tasks can be queued again. -/
theorem canTransition_queued_iff {source : TaskState} :
    canTransition source queued = true ↔ source = blocked ∨ source = failed := by
  cases source <;> decide

end Orchestrator
