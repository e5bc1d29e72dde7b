import Mathlib.Data.List.Basic

/-! # Task states and the transition map

The workflow vocabulary shared by the repositories and the scheduler
(`types/domain.ts`).
-/

namespace Orchestrator

/-- A point in time, in milliseconds since the epoch. -/
abbrev Instant := Int

/-- The identity of a worker; leases carry nothing else. -/
abbrev WorkerId := String

abbrev TaskId := Nat

inductive TaskState
  | queued | analyzing | ready | implementing | testing | fixing | reviewing
  | prCreated | waitingCi | readyForHumanReview
  | pausedSchedule | pausedLimit | blocked | failed | completed | cancelled
  deriving DecidableEq, Repr

namespace TaskState

/-- The text stored in the database and used in messages. -/
def text : TaskState → String
  | queued => "QUEUED"
  | analyzing => "ANALYZING"
  | ready => "READY"
  | implementing => "IMPLEMENTING"
  | testing => "TESTING"
  | fixing => "FIXING"
  | reviewing => "REVIEWING"
  | prCreated => "PR_CREATED"
  | waitingCi => "WAITING_CI"
  | readyForHumanReview => "READY_FOR_HUMAN_REVIEW"
  | pausedSchedule => "PAUSED_SCHEDULE"
  | pausedLimit => "PAUSED_LIMIT"
  | blocked => "BLOCKED"
  | failed => "FAILED"
  | completed => "COMPLETED"
  | cancelled => "CANCELLED"

end TaskState

open TaskState

/-- `taskStates`, in the order of the database enumeration. -/
def taskStates : List TaskState :=
  [queued, analyzing, ready, implementing, testing, fixing, reviewing, prCreated, waitingCi,
    readyForHumanReview, pausedSchedule, pausedLimit, blocked, failed, completed, cancelled]

/-- Why a task is parked. `codexUsageLimit` is the value written before the
provider registry existed and is still read. -/
inductive PauseReason
  | operatingHoursEnded | usageLimit | codexUsageLimit | rateLimit | remoteUnavailable
  deriving DecidableEq, Repr

def PauseReason.text : PauseReason → String
  | .operatingHoursEnded => "OPERATING_HOURS_ENDED"
  | .usageLimit => "USAGE_LIMIT"
  | .codexUsageLimit => "CODEX_USAGE_LIMIT"
  | .rateLimit => "RATE_LIMIT"
  | .remoteUnavailable => "REMOTE_UNAVAILABLE"

inductive OperationType
  | taskDiscovery | analysis | implementation | fix | review | qualityGate | delivery | ciCheck
  deriving DecidableEq, Repr

inductive ScheduleOverride
  | normal | enabled | disabled
  deriving DecidableEq, Repr

/-- Per-task bounded retry counters. -/
inductive AttemptCounter
  | implementationAttempts | qualityFixAttempts | reviewAttempts
  deriving DecidableEq, Repr

/-- Delivery states observe external systems and run in their own claim lane. -/
def deliveryStates : List TaskState := [prCreated, waitingCi, readyForHumanReview]

inductive ClaimLane
  | execution | delivery
  deriving DecidableEq, Repr

def claimLaneOf (state : TaskState) : ClaimLane :=
  if state ∈ deliveryStates then .delivery else .execution

/-- States that carry no further work. -/
def terminalStates : List TaskState := [completed, cancelled]

def transitionMap : TaskState → List TaskState
  | queued => [analyzing, blocked]
  | analyzing => [ready, blocked, pausedLimit, pausedSchedule]
  | ready => [implementing, blocked, pausedSchedule]
  | implementing => [testing, ready, fixing, pausedLimit, pausedSchedule, blocked, failed]
  | testing => [reviewing, fixing, pausedSchedule, blocked, failed]
  | fixing => [testing, pausedLimit, pausedSchedule, blocked, failed]
  | reviewing => [prCreated, fixing, pausedLimit, pausedSchedule, blocked, failed]
  | prCreated => [waitingCi, blocked]
  | waitingCi => [readyForHumanReview, blocked]
  | readyForHumanReview => [completed, waitingCi, blocked]
  | pausedSchedule => [analyzing, ready, implementing, testing, fixing, reviewing, blocked]
  | pausedLimit => [analyzing, implementing, fixing, reviewing, blocked]
  | blocked => [queued]
  | failed => [queued, blocked]
  | completed => []
  | cancelled => []

/-- Operator cancellation is permitted from every non-terminal state. -/
def canCancel (state : TaskState) : Bool := !terminalStates.contains state

/-- Transitions into these two states park the task for a later resumption. -/
def pauseStates : List TaskState := [pausedSchedule, pausedLimit]

end Orchestrator
