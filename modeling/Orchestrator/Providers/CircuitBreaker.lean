import Orchestrator.Kit.Run
import Orchestrator.Kit.Table
import Orchestrator.Types.Domain

/-! # The circuit breaker of a provider

`CircuitBreaker` (`providers/circuit-breaker.ts`). `execute` is suspended while its
operation is awaited, so it is two functions here: up to the call of the operation, and
from its result on. In between, other calls of the same breaker run.
-/

namespace Orchestrator

open Kit

structure CircuitBreakerConfig where
  failureThreshold : Nat := 5
  openSeconds : Nat := 300

inductive CircuitState
  | closed | opened | halfOpen
  deriving DecidableEq

structure CircuitBreaker where
  failures : Nat := 0
  state : CircuitState := .closed
  openUntil : Option Instant := none
  probeInFlight : Bool := false
  deriving DecidableEq

/-- What `classify` says about the error of an operation. -/
structure ErrorClass where
  counted : Bool
  retryAfter : Option Instant := none

namespace CircuitBreaker

def transition (breaker : CircuitBreaker) (state : CircuitState) (openUntil : Option Instant) :
    CircuitBreaker :=
  { breaker with state, openUntil }

def refresh (breaker : CircuitBreaker) (now : Instant) : CircuitBreaker :=
  match breaker.state, breaker.openUntil with
  | .opened, some openUntil =>
      if openUntil ≤ now then breaker.transition .halfOpen none else breaker
  | _, _ => breaker

def rejects (breaker : CircuitBreaker) : Bool :=
  breaker.state = .opened || (breaker.state = .halfOpen && breaker.probeInFlight)

/-- `execute` up to the call of the operation: whether that call is the probe, or nothing
for a rejected call. -/
def enter (breaker : CircuitBreaker) (now : Instant) : CircuitBreaker × Option Bool :=
  let breaker := breaker.refresh now
  if breaker.rejects then (breaker, none)
  else
    let probe : Bool := breaker.state = .halfOpen
    ({ breaker with probeInFlight := breaker.probeInFlight || probe }, some probe)

/-- The `finally` block. -/
def leave (breaker : CircuitBreaker) (probe : Bool) : CircuitBreaker :=
  if probe then { breaker with probeInFlight := false } else breaker

/-- The operation resolved. -/
def succeed (breaker : CircuitBreaker) (probe : Bool) : CircuitBreaker :=
  let reset := { breaker with failures := 0 }
  (if reset.state ≠ .closed then reset.transition .closed none else reset).leave probe

/-- The time until which an error opens the circuit, if it does. The clock is read once
for the provider's hint and again for the cooldown. -/
def opensUntil (config : CircuitBreakerConfig) (breaker : CircuitBreaker) (probe : Bool)
    (error : ErrorClass) (checked now : Instant) : Option Instant :=
  let hinted := error.retryAfter.filter (checked < ·)
  if error.counted &&
      (probe || hinted.isSome || config.failureThreshold ≤ breaker.failures + 1) then
    -- A hint is taken whether it is before or after the end of the cooldown.
    some (hinted.getD (now + config.openSeconds * 1000))
  else none

/-- The operation was rejected with an error of this class. -/
def fail (config : CircuitBreakerConfig) (breaker : CircuitBreaker) (probe : Bool)
    (error : ErrorClass) (checked now : Instant) : CircuitBreaker :=
  let settled :=
    if error.counted then
      let failed := { breaker with failures := breaker.failures + 1 }
      match breaker.opensUntil config probe error checked now with
      | some openUntil => failed.transition .opened (some openUntil)
      | none => failed
    else if probe then { breaker with failures := 0 }.transition .closed none
    else breaker
  settled.leave probe

/-! ## When an operation is invoked -/

variable {breaker : CircuitBreaker} {now : Instant}

@[simp] theorem refresh_probeInFlight :
    (breaker.refresh now).probeInFlight = breaker.probeInFlight := by
  unfold refresh transition
  split
  · split_ifs <;> rfl
  · rfl

theorem refresh_of_closed (h : breaker.state = .closed) : breaker.refresh now = breaker := by
  unfold refresh
  simp [h]

theorem refresh_closed_iff : (breaker.refresh now).state = .closed ↔ breaker.state = .closed := by
  unfold refresh transition
  split
  · next hopened _ =>
      split_ifs <;> simp [hopened]
  · exact Iff.rfl

theorem refresh_halfOpen_iff :
    (breaker.refresh now).state = .halfOpen ↔
      breaker.state = .halfOpen ∨
        (breaker.state = .opened ∧ ∃ openUntil, breaker.openUntil = some openUntil ∧
          openUntil ≤ now) := by
  unfold refresh transition
  split
  · next openUntil hopened huntil =>
      split_ifs with hpassed <;> simp [hopened, huntil, hpassed]
  · next hother =>
      constructor
      · exact Or.inl
      · rintro (hhalf | ⟨hopened, openUntil, huntil, -⟩)
        · exact hhalf
        · exact absurd huntil (hother openUntil hopened)

/-- An operation is invoked on a closed circuit, and as the probe of one that has been open
long enough. -/
def Invokes (breaker : CircuitBreaker) (now : Instant) : Prop :=
  breaker.state = .closed ∨
    (breaker.probeInFlight = false ∧ (breaker.refresh now).state = .halfOpen)

theorem enter_closed (h : breaker.state = .closed) :
    breaker.enter now = (breaker, some false) := by
  have hopen : breaker.rejects = false := by simp [rejects, h]
  unfold enter
  rw [refresh_of_closed h]
  cases breaker
  cases h
  simpa using hopen

theorem enter_probe (hfree : breaker.probeInFlight = false)
    (hhalf : (breaker.refresh now).state = .halfOpen) :
    breaker.enter now = ({ breaker.refresh now with probeInFlight := true }, some true) := by
  simp [enter, rejects, hfree, hhalf]

theorem enter_rejected (h : ¬ breaker.Invokes now) :
    breaker.enter now = (breaker.refresh now, none) := by
  have hrejects : (breaker.refresh now).rejects = true := by
    unfold Invokes at h
    rw [← @refresh_closed_iff breaker now] at h
    unfold rejects
    cases hstate : (breaker.refresh now).state with
    | closed => exact absurd (Or.inl hstate) h
    | opened => rfl
    | halfOpen =>
        cases hflag : breaker.probeInFlight with
        | true => simp [hflag]
        | false => exact absurd (Or.inr ⟨hflag, hstate⟩) h
  simp [enter, hrejects]

theorem enter_isSome_iff : (breaker.enter now).2.isSome ↔ breaker.Invokes now := by
  constructor
  · intro hsome
    by_contra hnot
    simp [enter_rejected hnot] at hsome
  · rintro (hclosed | ⟨hfree, hhalf⟩)
    · simp [enter_closed hclosed]
    · simp [enter_probe hfree hhalf]

/-- A refresh does not change which later calls are invoked. -/
theorem invokes_refresh_iff {later : Instant} (h : now ≤ later) :
    (breaker.refresh now).Invokes later ↔ breaker.Invokes later := by
  have hrefresh : (breaker.refresh now).refresh later = breaker.refresh later := by
    unfold refresh
    cases hstate : breaker.state with
    | closed => simp [hstate]
    | halfOpen => simp [hstate]
    | opened =>
        cases huntil : breaker.openUntil with
        | none => simp [hstate, huntil]
        | some openUntil =>
            by_cases hpassed : openUntil ≤ now
            · have hlater : openUntil ≤ later := Int.le_trans hpassed h
              simp [transition, hpassed, hlater]
            · simp [hstate, huntil, hpassed]
  unfold Invokes
  rw [refresh_closed_iff, refresh_probeInFlight, hrefresh]

/-! ## What a settled operation leaves -/

variable {config : CircuitBreakerConfig} {probe : Bool} {error : ErrorClass}
  {checked openUntil : Instant}

theorem leave_probeInFlight :
    (breaker.leave probe).probeInFlight = (!probe && breaker.probeInFlight) := by
  cases probe <;> rfl

@[simp] theorem leave_state : (breaker.leave probe).state = breaker.state := by
  cases probe <;> rfl

@[simp] theorem leave_openUntil : (breaker.leave probe).openUntil = breaker.openUntil := by
  cases probe <;> rfl

theorem succeed_probeInFlight :
    (breaker.succeed probe).probeInFlight = (!probe && breaker.probeInFlight) := by
  rw [succeed, leave_probeInFlight]
  dsimp only
  split_ifs <;> rfl

theorem succeed_closed : (breaker.succeed probe).state = .closed := by
  rw [succeed, leave_state]
  dsimp only
  split_ifs with hopen
  · rfl
  · simpa using hopen

theorem fail_probeInFlight :
    (breaker.fail config probe error checked now).probeInFlight =
      (!probe && breaker.probeInFlight) := by
  rw [fail, leave_probeInFlight]
  dsimp only
  split_ifs
  · split <;> rfl
  · rfl
  · rfl

/-- Only a counted error opens the circuit. -/
theorem counted_of_opens
    (h : breaker.opensUntil config probe error checked now = some openUntil) :
    error.counted = true := by
  by_contra hnot
  simp [opensUntil, Bool.of_not_eq_true hnot] at h

theorem fail_of_opens (h : breaker.opensUntil config probe error checked now = some openUntil) :
    (breaker.fail config probe error checked now).state = .opened ∧
      (breaker.fail config probe error checked now).openUntil = some openUntil := by
  simp [fail, counted_of_opens h, h, transition]

/-- An error that does not open the circuit changes nothing but the count, or closes the
circuit when the probe was answered. -/
theorem fail_of_none (h : breaker.opensUntil config probe error checked now = none) :
    (probe = false ∧ (breaker.fail config probe error checked now).state = breaker.state ∧
      (breaker.fail config probe error checked now).openUntil = breaker.openUntil) ∨
    (probe = true ∧ error.counted = false ∧
      (breaker.fail config probe error checked now).state = .closed) := by
  cases hcounted : error.counted with
  | true =>
      left
      have hprobe : probe = false := by
        by_contra hset
        simp [opensUntil, hcounted, Bool.of_not_eq_false hset] at h
      refine ⟨hprobe, ?_⟩
      simp [fail, hcounted, h]
  | false =>
      cases probe with
      | true => simp [fail, hcounted, transition]
      | false => simp [fail, hcounted]

end CircuitBreaker

end Orchestrator
