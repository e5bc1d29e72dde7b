import Mathlib.Algebra.Order.Field.Rat
import Mathlib.Order.WithBot
import Orchestrator.Types.Domain

/-! # Operating hours

Whether work may start at a local time of the weekly schedule
(`scheduling/operating-hours.ts`). Minutes are exact rationals; `⊤` is the
`Infinity` of a disabled schedule.
-/

namespace Orchestrator

abbrev Minutes := WithTop ℚ

/-- A time in the `HH:mm` format of the configuration. -/
structure TimeOfDay where
  hours : Fin 24
  minutes : Fin 60
  deriving DecidableEq

def minutesSinceMidnight (value : TimeOfDay) : ℚ := (value.hours.val * 60 + value.minutes.val : Nat)

structure ScheduleWindow where
  start : TimeOfDay
  finish : TimeOfDay
  deriving DecidableEq

structure DaySchedule where
  enabled : Bool := false
  windows : List ScheduleWindow := []
  deriving DecidableEq

/-- The days of a week, from Monday. -/
abbrev ScheduleDay := Fin 7

def previousDay (weekday : ScheduleDay) : ScheduleDay := weekday - 1

structure ScheduleConfig where
  enabled : Bool := true
  allowMechanicalOperationsOutsideHours : Bool := true
  finishCurrentStep : Bool := true
  startNewStepIfRemainingMinutesAtLeast : ℚ := 20
  minimumRemainingMinutesForNewTask : ℚ := 45
  minimumRemainingMinutesForAnalysis : ℚ := 20
  minimumRemainingMinutesForImplementation : ℚ := 45
  minimumRemainingMinutesForReview : ℚ := 20
  days : ScheduleDay → DaySchedule := fun _ => {}

/-- A wall-clock time in the configured time zone, to the second. -/
structure LocalTime where
  weekday : ScheduleDay
  hour : Fin 24
  minute : Fin 60
  second : Fin 60
  deriving DecidableEq

inductive HoursReason
  | scheduleDisabled | outsideWindow | insufficientRemainingTime | opened
  deriving DecidableEq

structure OperatingHours where
  isOpen : Bool
  minutesRemaining : Minutes
  canStart : Bool
  reason : HoursReason

def LocalTime.currentMinutes (now : LocalTime) : ℚ :=
  (now.hour.val * 60 + now.minute.val : Nat) + (now.second.val : ℚ) / 60

def dayMinutes : ℚ := 24 * 60

def windowMinutesRemaining (currentMinutes : ℚ) (finish : TimeOfDay) : ℚ :=
  let endMinutes := minutesSinceMidnight finish
  if currentMinutes < endMinutes then endMinutes - currentMinutes
  else dayMinutes - currentMinutes + endMinutes

/-- The end is on the next day. -/
def ScheduleWindow.overnight (window : ScheduleWindow) : Bool :=
  minutesSinceMidnight window.finish ≤ minutesSinceMidnight window.start

/-- The window of the current day is active. -/
def ScheduleWindow.activeToday (window : ScheduleWindow) (currentMinutes : ℚ) : Bool :=
  if window.overnight then minutesSinceMidnight window.start ≤ currentMinutes
  else minutesSinceMidnight window.start ≤ currentMinutes &&
    currentMinutes < minutesSinceMidnight window.finish

/-- The window started the day before and still runs. -/
def ScheduleWindow.activeFromYesterday (window : ScheduleWindow) (currentMinutes : ℚ) : Bool :=
  window.overnight && currentMinutes < minutesSinceMidnight window.finish

/-- `isOpen` and `minutesRemaining` after a loop over the active windows. -/
def openFor (active : List ScheduleWindow) (remaining : ScheduleWindow → ℚ) : Option ℚ :=
  if active = [] then none
  else some (active.foldl (fun longest window => max longest (remaining window)) 0)

/-- The two window loops: yesterday's windows count only when none of today's does. -/
def openMinutes (schedule : ScheduleConfig) (now : LocalTime) : Option ℚ :=
  let currentMinutes := now.currentMinutes
  let currentDay := schedule.days now.weekday
  let previousDay := schedule.days (now.weekday - 1)
  let today := if currentDay.enabled then
    openFor (currentDay.windows.filter (·.activeToday currentMinutes))
      fun window => windowMinutesRemaining currentMinutes window.finish
    else none
  -- Overnight windows of the day before.
  today.orElse fun _ => if previousDay.enabled then
    openFor (previousDay.windows.filter (·.activeFromYesterday currentMinutes))
      fun window =>
        if currentMinutes = 0 then minutesSinceMidnight window.finish
        else minutesSinceMidnight window.finish - currentMinutes
    else none

def minimumMinutesFor (schedule : ScheduleConfig) : OperationType → ℚ
  | .taskDiscovery => schedule.minimumRemainingMinutesForNewTask
  | .analysis => schedule.minimumRemainingMinutesForAnalysis
  | .implementation => schedule.minimumRemainingMinutesForImplementation
  | .fix => schedule.minimumRemainingMinutesForImplementation
  | .review => schedule.minimumRemainingMinutesForReview
  | .qualityGate => 0
  | .delivery => 0
  | .ciCheck => 0

def operatingHoursFor (schedule : ScheduleConfig) (operation : OperationType) (now : LocalTime) :
    OperatingHours :=
  if schedule.enabled = false then ⟨true, ⊤, true, .scheduleDisabled⟩
  else match openMinutes schedule now with
    | none => ⟨false, 0, false, .outsideWindow⟩
    | some minutesRemaining =>
        if minutesRemaining < minimumMinutesFor schedule operation then
          ⟨true, minutesRemaining, false, .insufficientRemainingTime⟩
        else ⟨true, minutesRemaining, true, .opened⟩

end Orchestrator
