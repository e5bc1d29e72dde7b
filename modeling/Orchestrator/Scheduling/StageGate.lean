import Orchestrator.Scheduling.OperatingHours

/-! # Stage gates

Whether the scheduler may start a stage now, and whether it must interrupt a
running one (`scheduling/stage-gate.ts`).
-/

namespace Orchestrator

open TaskState

/-- The executable stages and the schedule category each one consumes. -/
def executableStageOperations : TaskState → Option OperationType
  | analyzing => some .analysis
  | ready => some .implementation
  | implementing => some .implementation
  | testing => some .qualityGate
  | fixing => some .fix
  | reviewing => some .review
  | prCreated => some .delivery
  | waitingCi => some .ciCheck
  | readyForHumanReview => some .ciCheck
  | _ => none

def mechanicalOperations : List OperationType := [.qualityGate, .delivery, .ciCheck]

def isMechanicalOperation (operation : OperationType) : Bool :=
  mechanicalOperations.contains operation

inductive GateReason
  | overrideEnabled | overrideDisabled | mechanicalOutsideHours | hours (reason : HoursReason)
  deriving DecidableEq

def GateReason.text : GateReason → String
  | .overrideEnabled => "OVERRIDE_ENABLED"
  | .overrideDisabled => "OVERRIDE_DISABLED"
  | .mechanicalOutsideHours => "MECHANICAL_OUTSIDE_HOURS"
  | .hours .scheduleDisabled => "SCHEDULE_DISABLED"
  | .hours .outsideWindow => "OUTSIDE_WINDOW"
  | .hours .insufficientRemainingTime => "INSUFFICIENT_REMAINING_TIME"
  | .hours .opened => "OPEN"

structure StageGateDecision where
  permitted : Bool
  operation : OperationType
  mechanical : Bool
  reason : GateReason
  minutesRemaining : Minutes

/-- Whether a new unit of work may start now. -/
def operationGate (schedule : ScheduleConfig) (operation : OperationType)
    (override : ScheduleOverride) (now : LocalTime) : StageGateDecision :=
  let mechanical := isMechanicalOperation operation
  let hours := operatingHoursFor schedule operation now
  let mechanicalAllowed := mechanical && schedule.allowMechanicalOperationsOutsideHours
  let decide (permitted : Bool) (reason : GateReason) : StageGateDecision :=
    ⟨permitted, operation, mechanical, reason, hours.minutesRemaining⟩
  match override with
  | .enabled => ⟨true, operation, mechanical, .overrideEnabled, ⊤⟩
  | .disabled =>
      if mechanicalAllowed then decide true .mechanicalOutsideHours
      else decide false .overrideDisabled
  | .normal =>
      if hours.canStart then
        -- A new AI step also needs the generic step guard.
        if !mechanical &&
            hours.minutesRemaining < (schedule.startNewStepIfRemainingMinutesAtLeast : Minutes) then
          decide false (.hours .insufficientRemainingTime)
        else decide true (.hours hours.reason)
      else if mechanicalAllowed then decide true .mechanicalOutsideHours
      else decide false (.hours hours.reason)

def stageGate (schedule : ScheduleConfig) (stage : TaskState) (override : ScheduleOverride)
    (now : LocalTime) : Option StageGateDecision :=
  (executableStageOperations stage).map fun operation =>
    operationGate schedule operation override now

/-- `stageGate(...)?.permitted === true`. -/
def stagePermitted (schedule : ScheduleConfig) (stage : TaskState) (override : ScheduleOverride)
    (now : LocalTime) : Bool :=
  match stageGate schedule stage override now with
  | none => false
  | some gate => gate.permitted

/-- The schedule closed and the configuration does not let the stage finish. -/
def shouldInterruptRunningStage (schedule : ScheduleConfig) (stage : TaskState)
    (override : ScheduleOverride) (now : LocalTime) : Bool :=
  if schedule.finishCurrentStep then false
  else match executableStageOperations stage with
    | none => false
    | some operation =>
        if override = .enabled then false
        else if isMechanicalOperation operation &&
            schedule.allowMechanicalOperationsOutsideHours then false
        else if override = .disabled then true
        else !(operatingHoursFor schedule operation now).isOpen

/-- A stage the scheduler can run is one of the executable ones. -/
def ExecutableStage (state : TaskState) : Prop := (executableStageOperations state).isSome

instance : DecidablePred ExecutableStage := fun _ => inferInstanceAs (Decidable (_ = true))

theorem executableStage_of_permitted {schedule : ScheduleConfig} {stage : TaskState}
    {override : ScheduleOverride} {now : LocalTime}
    (h : stagePermitted schedule stage override now = true) : ExecutableStage stage := by
  unfold ExecutableStage
  cases hoperation : executableStageOperations stage with
  | none => simp [stagePermitted, stageGate, hoperation] at h
  | some operation => rfl

end Orchestrator
