import Orchestrator.Providers.CircuitBreaker

/-! # Overlapping calls of a circuit breaker

A breaker with the operations it has in flight. A call that began before the circuit
opened settles at any time after, and what it reports then may close the circuit or shorten
its cooldown; `circuit_promise_iff` says exactly which settlements do no harm.
-/

namespace Orchestrator

open Kit

/-- What an open circuit promises, in terms of the operations that are invoked. -/
structure CircuitPromise where
  /-- The times until which failures opened the circuit. -/
  untils : List Instant := []
  /-- No operation was invoked since a failure opened the circuit. -/
  probeDue : Bool := false
  /-- The first operation invoked after the circuit opened, until it settles. -/
  probe : Option Nat := none
  deriving DecidableEq

namespace CircuitPromise

def opened (promise : CircuitPromise) (openUntil : Instant) : CircuitPromise :=
  { promise with untils := openUntil :: promise.untils, probeDue := true }

def invoked (promise : CircuitPromise) (call : Nat) : CircuitPromise :=
  { promise with
    probeDue := false
    probe := if promise.probeDue then some call else promise.probe }

def settled (promise : CircuitPromise) (call : Nat) : CircuitPromise :=
  { promise with probe := if promise.probe = some call then none else promise.probe }

/-- An operation may be invoked: no cooldown runs, and no probe is out. -/
def Allows (promise : CircuitPromise) (now : Instant) : Prop :=
  (∀ openUntil ∈ promise.untils, openUntil ≤ now) ∧ promise.probe = none

instance (promise : CircuitPromise) (now : Instant) : Decidable (promise.Allows now) :=
  inferInstanceAs (Decidable (_ ∧ _))

end CircuitPromise

/-- An operation in flight. -/
structure ProviderCall where
  id : Nat
  probe : Bool
  /-- How often the circuit had opened when the operation was invoked. -/
  openings : Nat
  deriving DecidableEq

structure Circuit where
  breaker : CircuitBreaker := {}
  calls : Table ProviderCall.id := Table.empty
  started : Nat := 0
  clock : Instant
  /-- History variables: no definition of the code reads them. -/
  openings : Nat := 0
  promise : CircuitPromise := {}

/-- What happens at a breaker. Only `wait` and the time between two reads of the clock in
one event move the clock. -/
inductive CircuitEvent
  | wait (elapsed : Nat)
  | execute
  | status
  | resolves (call : Nat)
  | rejects (call : Nat) (error : ErrorClass) (between : Nat)

/-- More calls come in, at any times. -/
def CircuitEvent.joins : CircuitEvent → Bool
  | .wait _ => true
  | .execute => true
  | _ => false

namespace Circuit

def tick (s : Circuit) (elapsed : Nat) : Circuit := { s with clock := s.clock + elapsed }

/-- The operation of a call is invoked. -/
def invoke (s : Circuit) (breaker : CircuitBreaker) (probe : Bool) : Circuit :=
  { s with
    breaker
    calls := s.calls.insert ⟨s.started, probe, s.openings⟩
    started := s.started + 1
    promise := s.promise.invoked s.started }

def stepExecute (s : Circuit) : Circuit :=
  match s.breaker.enter s.clock with
  | (breaker, none) => { s with breaker }
  | (breaker, some probe) => s.invoke breaker probe

def stepResolves (s : Circuit) (call : ProviderCall) : Circuit :=
  { s with
    breaker := s.breaker.succeed call.probe
    calls := s.calls.erase call.id
    promise := s.promise.settled call.id }

/-- The operation of `call` failed; `now` is the second read of the clock. -/
def stepRejects (config : CircuitBreakerConfig) (s : Circuit) (call : ProviderCall)
    (error : ErrorClass) (now : Instant) : Circuit :=
  let settled : Circuit :=
    { s with
      breaker := s.breaker.fail config call.probe error s.clock now
      calls := s.calls.erase call.id
      clock := now
      promise := s.promise.settled call.id }
  match s.breaker.opensUntil config call.probe error s.clock now with
  | some openUntil =>
      { settled with
        openings := s.openings + 1
        promise := settled.promise.opened openUntil }
  | none => settled

def step (config : CircuitBreakerConfig) (s : Circuit) : CircuitEvent → Circuit
  | .wait elapsed => s.tick elapsed
  | .execute => s.stepExecute
  | .status => { s with breaker := s.breaker.refresh s.clock }
  | .resolves id =>
      match s.calls.find? id with
      | some call => s.stepResolves call
      | none => s
  | .rejects id error between =>
      match s.calls.find? id with
      | some call => s.stepRejects config call error (s.clock + between)
      | none => s

/-- A breaker that no call has used. -/
def boot (clock : Instant) : Circuit := { clock }

/-- An operation that this event invokes is one that the open circuit's promise allows. -/
def KeepsPromise (s : Circuit) : CircuitEvent → Prop
  | .execute => (s.breaker.enter s.clock).2.isSome → s.promise.Allows s.clock
  | _ => True

instance (s : Circuit) : ∀ event, Decidable (s.KeepsPromise event)
  | .execute => inferInstanceAs (Decidable (_ → _))
  | .wait _ => isTrue trivial
  | .status => isTrue trivial
  | .resolves _ => isTrue trivial
  | .rejects _ _ _ => isTrue trivial

/-- The promise holds along the run, and along every burst of calls that joins it at any
point. -/
def RespectsPromise (config : CircuitBreakerConfig) (s : Circuit) (events : List CircuitEvent) :
    Prop :=
  AlongJoined (step config) (fun event => event.joins = true) KeepsPromise s events

/-- A settlement that leaves the promise of an open circuit alone. -/
def Harmless (config : CircuitBreakerConfig) (s : Circuit) : CircuitEvent → Prop
  -- A call that began before the circuit last opened does not close it.
  | .resolves id => ∀ call, s.calls.find? id = some call →
      s.breaker.state = .closed ∨ call.openings = s.openings
  | .rejects id error between => ∀ call, s.calls.find? id = some call →
      if error.counted then
        -- A failure that opens the circuit again does not end an earlier cooldown early.
        ∀ openUntil,
          s.breaker.opensUntil config call.probe error s.clock (s.clock + between) =
            some openUntil →
          (∃ other ∈ s.calls.rows, other.id ≠ id ∧ other.probe = true) ∨
            ∀ earlier ∈ s.promise.untils, earlier ≤ s.clock + between ∨ earlier ≤ openUntil
      else call.probe = true → call.openings = s.openings
  | _ => True

/-! ## Bursts of calls -/

/-- A call that comes in now or later is invoked only if the promise allows it, and on a
closed circuit no probe is due. -/
structure Calm (s : Circuit) : Prop where
  keeps : ∀ now, s.clock ≤ now → s.breaker.Invokes now → s.promise.Allows now
  closed : s.breaker.state = .closed → s.promise.probeDue = false

theorem Calm.keepsPromise {s : Circuit} (h : s.Calm) (event : CircuitEvent) :
    s.KeepsPromise event := by
  cases event with
  | execute =>
      intro hsome
      exact h.keeps s.clock (Int.le_refl _) (CircuitBreaker.enter_isSome_iff.mp hsome)
  | _ => trivial

theorem calm_tick {s : Circuit} (h : s.Calm) (elapsed : Nat) : (s.tick elapsed).Calm := by
  refine ⟨fun now hnow hinvokes => h.keeps now ?_ hinvokes, h.closed⟩
  exact Int.le_trans (Int.le_add_of_nonneg_right (Int.natCast_nonneg elapsed)) hnow

/-- What a call does when it comes in. -/
theorem stepExecute_cases (s : Circuit) :
    (¬ s.breaker.Invokes s.clock ∧
      s.stepExecute = { s with breaker := s.breaker.refresh s.clock }) ∨
    (s.breaker.state = .closed ∧ s.stepExecute = s.invoke s.breaker false) ∨
    (s.breaker.probeInFlight = false ∧ (s.breaker.refresh s.clock).state = .halfOpen ∧
      s.stepExecute =
        s.invoke { s.breaker.refresh s.clock with probeInFlight := true } true) := by
  by_cases hinvokes : s.breaker.Invokes s.clock
  · rcases hinvokes with hclosed | ⟨hfree, hhalf⟩
    · exact Or.inr (Or.inl ⟨hclosed, by simp [stepExecute, CircuitBreaker.enter_closed hclosed]⟩)
    · exact Or.inr (Or.inr ⟨hfree, hhalf,
        by simp [stepExecute, CircuitBreaker.enter_probe hfree hhalf]⟩)
  · exact Or.inl ⟨hinvokes, by simp [stepExecute, CircuitBreaker.enter_rejected hinvokes]⟩

theorem invoked_of_not_due {promise : CircuitPromise} (h : promise.probeDue = false)
    (call : Nat) : promise.invoked call = promise := by
  cases promise
  cases h
  rfl

theorem calm_refresh {s : Circuit} (h : s.Calm) :
    ({ s with breaker := s.breaker.refresh s.clock } : Circuit).Calm := by
  constructor
  · intro now hnow hinvokes
    exact h.keeps now hnow ((CircuitBreaker.invokes_refresh_iff hnow).mp hinvokes)
  · intro hclosed
    exact h.closed (CircuitBreaker.refresh_closed_iff.mp hclosed)

theorem calm_execute {s : Circuit} (h : s.Calm) : s.stepExecute.Calm := by
  rcases stepExecute_cases s with
    ⟨-, hstep⟩ | ⟨hclosed, hstep⟩ | ⟨-, hhalf, hstep⟩
  · rw [hstep]
    exact calm_refresh h
  · -- The circuit stays closed, and no probe was due.
    rw [hstep]
    have hsame := invoked_of_not_due (h.closed hclosed) s.started
    constructor
    · simpa only [invoke, hsame] using h.keeps
    · intro _
      simp only [invoke, hsame, h.closed hclosed]
  · -- The probe is in flight, and every other call is rejected.
    have hnotClosed : s.stepExecute.breaker.state ≠ .closed := by
      rw [hstep]
      show (s.breaker.refresh s.clock).state ≠ .closed
      simp [hhalf]
    refine ⟨?_, fun hclosed => absurd hclosed hnotClosed⟩
    rintro now _ (hclosed | ⟨hfree, -⟩)
    · exact absurd hclosed hnotClosed
    · rw [hstep] at hfree
      cases hfree

theorem calm_joined {config : CircuitBreakerConfig} {s : Circuit} {event : CircuitEvent}
    (h : s.Calm) (hjoins : event.joins = true) : (step config s event).Calm := by
  cases event with
  | wait elapsed => exact calm_tick h elapsed
  | execute => exact calm_execute h
  | _ => cases hjoins

/-- What a burst of calls finds: a call that comes in later than the last. -/
theorem calm_of_bursts {config : CircuitBreakerConfig} {s : Circuit}
    (h : ∀ burst : List CircuitEvent, (∀ event ∈ burst, event.joins) →
      Along (step config) KeepsPromise s burst) : s.Calm := by
  constructor
  · intro now hnow hinvokes
    have hsum : s.clock + ((now - s.clock).toNat : Int) = now := by
      rw [Int.toNat_of_nonneg (Int.sub_nonneg_of_le hnow), Int.add_comm, Int.sub_add_cancel]
    have hjoin := h [.wait (now - s.clock).toNat, .execute] (by simp [CircuitEvent.joins])
    have hkeeps : (s.breaker.enter (s.clock + ((now - s.clock).toNat : Int))).2.isSome →
        s.promise.Allows (s.clock + ((now - s.clock).toNat : Int)) := hjoin.2.1
    rw [hsum] at hkeeps
    exact hkeeps (CircuitBreaker.enter_isSome_iff.mpr hinvokes)
  · -- The second of two calls would find the first still in flight.
    intro hclosed
    by_contra hdue
    have hjoin := h [.execute, .execute] (by simp [CircuitEvent.joins])
    have hsecond : (s.stepExecute.breaker.enter s.stepExecute.clock).2.isSome →
        s.stepExecute.promise.Allows s.stepExecute.clock := hjoin.2.1
    rw [show s.stepExecute = s.invoke s.breaker false by
      simp [stepExecute, CircuitBreaker.enter_closed hclosed]] at hsecond
    have hallows : (s.promise.invoked s.started).Allows s.clock :=
      hsecond (CircuitBreaker.enter_isSome_iff.mpr (Or.inl hclosed))
    have hnone := hallows.2
    simp [CircuitPromise.invoked, Bool.of_not_eq_false hdue] at hnone

/-- A run keeps the promise, joined by any bursts, exactly if it is calm throughout. -/
theorem respectsPromise_iff {config : CircuitBreakerConfig} {s : Circuit}
    {events : List CircuitEvent} :
    RespectsPromise config s events ↔ Throughout (step config) Calm s events := by
  have hkept : ∀ (s : Circuit) (event : CircuitEvent), True → s.Calm → event.joins = true →
      (step config s event).Calm := fun _ _ _ h hjoins => calm_joined h hjoins
  have hgood : ∀ (s : Circuit) (event : CircuitEvent), True → s.Calm → s.KeepsPromise event :=
    fun _ event _ h => h.keepsPromise event
  exact alongJoined_iff (fun _ _ _ => trivial) hkept hgood (fun _ _ => calm_of_bursts) trivial
    events

/-! ## The operations in flight -/

/-- The operations in flight, the flag of the breaker and the probe of the promise agree. -/
structure InFlight (s : Circuit) : Prop where
  fresh : ∀ call ∈ s.calls.rows, call.id < s.started
  bounded : ∀ call ∈ s.calls.rows, call.openings ≤ s.openings
  flag : s.breaker.probeInFlight = true ↔ ∃ call ∈ s.calls.rows, call.probe = true
  unique : ∀ call ∈ s.calls.rows, ∀ other ∈ s.calls.rows, call.probe = true →
    other.probe = true → call = other
  awaited : ∀ id, s.promise.probe = some id ↔
    ∃ call ∈ s.calls.rows, call.id = id ∧ call.probe = true

/-- What the operations in flight say about the circuit, in a run that was calm so far. -/
structure Tracked (s : Circuit) : Prop extends InFlight s where
  due : s.breaker.state ≠ .closed → s.breaker.probeInFlight = false → s.promise.probeDue = true
  /-- Since an ordinary call began, the circuit opened again or stayed closed. -/
  ordinary : ∀ call ∈ s.calls.rows, call.probe = false → call.openings = s.openings →
    s.breaker.state = .closed
  /-- Since the probe began, the circuit opened again or no cooldown runs. -/
  probing : ∀ call ∈ s.calls.rows, call.probe = true → call.openings = s.openings →
    s.promise.probeDue = false ∧ ∀ openUntil ∈ s.promise.untils, openUntil ≤ s.clock
  reopened : ∀ call ∈ s.calls.rows, call.probe = true → call.openings ≠ s.openings →
    s.promise.probeDue = true

theorem tracked_boot (clock : Instant) : Tracked (boot clock) where
  fresh _ hcall := nomatch hcall
  bounded _ hcall := nomatch hcall
  flag := by simp [boot]
  unique _ hcall := nomatch hcall
  awaited := by simp [boot]
  due hopen := absurd rfl hopen
  ordinary _ hcall := nomatch hcall
  probing _ hcall := nomatch hcall
  reopened _ hcall := nomatch hcall

theorem Tracked.tick {s : Circuit} (h : Tracked s) (elapsed : Nat) : Tracked (s.tick elapsed) where
  toInFlight := ⟨h.fresh, h.bounded, h.flag, h.unique, h.awaited⟩
  due := h.due
  ordinary := h.ordinary
  probing call hcall hprobe hsame := by
    rcases h.probing call hcall hprobe hsame with ⟨hdue, huntils⟩
    refine ⟨hdue, fun openUntil hmem => ?_⟩
    exact Int.le_trans (huntils openUntil hmem)
      (Int.le_add_of_nonneg_right (Int.natCast_nonneg elapsed))
  reopened := h.reopened

theorem Tracked.refresh {s : Circuit} (h : Tracked s) :
    Tracked { s with breaker := s.breaker.refresh s.clock } where
  toInFlight := ⟨h.fresh, h.bounded, by simpa using h.flag, h.unique, h.awaited⟩
  due hopen hfree := h.due (fun hclosed => hopen (CircuitBreaker.refresh_closed_iff.mpr hclosed))
    (by simpa using hfree)
  ordinary call hcall hprobe hsame :=
    CircuitBreaker.refresh_closed_iff.mpr (h.ordinary call hcall hprobe hsame)
  probing := h.probing
  reopened := h.reopened

theorem InFlight.mem_invoke {s : Circuit} (h : InFlight s) {breaker : CircuitBreaker}
    {probe : Bool} {call : ProviderCall} :
    call ∈ (s.invoke breaker probe).calls.rows ↔
      call ∈ s.calls.rows ∨ call = ⟨s.started, probe, s.openings⟩ := by
  refine Table.mem_insert (Table.find?_eq_none_iff.mpr fun other hother heq => ?_)
  have hless := h.fresh other hother
  exact absurd heq (Nat.ne_of_lt hless)

/-- An ordinary call begins on a closed circuit, on which no probe is due. -/
theorem Tracked.invoke_closed {s : Circuit} (h : Tracked s) (hclosed : s.breaker.state = .closed)
    (hdue : s.promise.probeDue = false) : Tracked (s.invoke s.breaker false) := by
  have hpromise : (s.invoke s.breaker false).promise = s.promise := invoked_of_not_due hdue _
  -- The new call is no probe, so the probes are those of before.
  have hmem : ∀ call, call ∈ (s.invoke s.breaker false).calls.rows → call.probe = true →
      call ∈ s.calls.rows := by
    intro call hcall hprobe
    rcases h.mem_invoke.mp hcall with hold | rfl
    · exact hold
    · cases hprobe
  refine ⟨⟨?_, ?_, ?_, ?_, ?_⟩, ?_, ?_, ?_, ?_⟩
  · intro call hcall
    rcases h.mem_invoke.mp hcall with hold | rfl
    · exact Nat.lt_succ_of_lt (h.fresh call hold)
    · exact Nat.lt_succ_self _
  · intro call hcall
    rcases h.mem_invoke.mp hcall with hold | rfl
    · exact h.bounded call hold
    · exact Nat.le_refl _
  · show s.breaker.probeInFlight = true ↔ _
    rw [h.flag]
    constructor
    · rintro ⟨call, hcall, hprobe⟩
      exact ⟨call, h.mem_invoke.mpr (Or.inl hcall), hprobe⟩
    · rintro ⟨call, hcall, hprobe⟩
      exact ⟨call, hmem call hcall hprobe, hprobe⟩
  · intro call hcall other hother hprobe hprobe'
    exact h.unique call (hmem call hcall hprobe) other (hmem other hother hprobe') hprobe hprobe'
  · intro id
    rw [hpromise, h.awaited id]
    constructor
    · rintro ⟨call, hcall, hid, hprobe⟩
      exact ⟨call, h.mem_invoke.mpr (Or.inl hcall), hid, hprobe⟩
    · rintro ⟨call, hcall, hid, hprobe⟩
      exact ⟨call, hmem call hcall hprobe, hid, hprobe⟩
  · exact fun hopen => absurd hclosed hopen
  · exact fun _ _ _ _ => hclosed
  · intro call hcall hprobe hsame
    rw [hpromise]
    exact h.probing call (hmem call hcall hprobe) hprobe hsame
  · intro call hcall hprobe hother
    rw [hpromise]
    exact h.reopened call (hmem call hcall hprobe) hprobe hother

/-- The probe begins alone. -/
theorem Tracked.invoke_probe {s : Circuit} (h : Tracked s) {breaker : CircuitBreaker}
    (hopen : s.breaker.state ≠ .closed) (hfree : s.breaker.probeInFlight = false)
    (hallows : s.promise.Allows s.clock) (hflag : breaker.probeInFlight = true) :
    Tracked (s.invoke breaker true) := by
  have hdue := h.due hopen hfree
  -- The slot was free, so no call under way is a probe.
  have hnone : ∀ call ∈ s.calls.rows, call.probe = false := by
    intro call hcall
    by_contra hprobe
    have hset := h.flag.mpr ⟨call, hcall, Bool.of_not_eq_false hprobe⟩
    rw [hfree] at hset
    cases hset
  have hmem : ∀ call, call ∈ (s.invoke breaker true).calls.rows → call.probe = true →
      call = ⟨s.started, true, s.openings⟩ := by
    intro call hcall hprobe
    rcases h.mem_invoke.mp hcall with hold | hnew
    · rw [hnone call hold] at hprobe
      cases hprobe
    · exact hnew
  have hself : ⟨s.started, true, s.openings⟩ ∈ (s.invoke breaker true).calls.rows :=
    h.mem_invoke.mpr (Or.inr rfl)
  have hpromise : (s.invoke breaker true).promise.probe = some s.started := by
    simp [invoke, CircuitPromise.invoked, hdue]
  refine ⟨⟨?_, ?_, ?_, ?_, ?_⟩, ?_, ?_, ?_, ?_⟩
  · intro call hcall
    rcases h.mem_invoke.mp hcall with hold | rfl
    · exact Nat.lt_succ_of_lt (h.fresh call hold)
    · exact Nat.lt_succ_self _
  · intro call hcall
    rcases h.mem_invoke.mp hcall with hold | rfl
    · exact h.bounded call hold
    · exact Nat.le_refl _
  · exact ⟨fun _ => ⟨_, hself, rfl⟩, fun _ => hflag⟩
  · intro call hcall other hother hprobe hprobe'
    rw [hmem call hcall hprobe, hmem other hother hprobe']
  · intro id
    rw [hpromise]
    constructor
    · intro hid
      exact ⟨_, hself, Option.some.inj hid, rfl⟩
    · rintro ⟨call, hcall, rfl, hprobe⟩
      rw [hmem call hcall hprobe]
  · intro _ hclear
    rw [show (s.invoke breaker true).breaker = breaker from rfl, hflag] at hclear
    cases hclear
  · intro call hcall hprobe hsame
    rcases h.mem_invoke.mp hcall with hold | rfl
    · exact absurd (h.ordinary call hold hprobe hsame) hopen
    · cases hprobe
  · exact fun _ _ _ _ => ⟨rfl, hallows.1⟩
  · intro call hcall hprobe hother
    rw [hmem call hcall hprobe] at hother
    exact absurd rfl hother

/-- One operation less is in flight. -/
theorem InFlight.settled {s s' : Circuit} (h : InFlight s) {call : ProviderCall}
    (hcall : s.calls.find? call.id = some call) (hcalls : s'.calls = s.calls.erase call.id)
    (hstarted : s'.started = s.started) (hopenings : s.openings ≤ s'.openings)
    (hflag : s'.breaker.probeInFlight = (!call.probe && s.breaker.probeInFlight))
    (hprobe : s'.promise.probe = (s.promise.settled call.id).probe) : InFlight s' := by
  have hin : call ∈ s.calls.rows := Table.mem_of_find? hcall
  have hmem : ∀ other, other ∈ s'.calls.rows ↔ other ∈ s.calls.rows ∧ other.id ≠ call.id := by
    intro other
    rw [hcalls, Table.erase, Table.mem_filter, decide_eq_true_iff]
  -- The probe in flight is another operation exactly if the settled one is ordinary.
  have hother : ∀ other ∈ s.calls.rows, other.probe = true →
      (other.id ≠ call.id ↔ call.probe = false) := by
    intro other hold hother
    constructor
    · intro hne
      by_contra hcallProbe
      exact hne (congrArg _ (h.unique other hold call hin hother (Bool.of_not_eq_false hcallProbe)))
    · intro hordinary heq
      rw [s.calls.eq_of_key hold hin heq, hordinary] at hother
      cases hother
  refine ⟨?_, ?_, ?_, ?_, ?_⟩
  · intro other hleft
    rw [hstarted]
    exact h.fresh other ((hmem other).mp hleft).1
  · intro other hleft
    exact Nat.le_trans (h.bounded other ((hmem other).mp hleft).1) hopenings
  · rw [hflag, Bool.and_eq_true, h.flag]
    constructor
    · rintro ⟨hordinary, other, hold, hprobing⟩
      have hne : other.id ≠ call.id :=
        (hother other hold hprobing).mpr (by simpa using hordinary)
      exact ⟨other, (hmem other).mpr ⟨hold, hne⟩, hprobing⟩
    · rintro ⟨other, hleft, hprobing⟩
      rcases (hmem other).mp hleft with ⟨hold, hne⟩
      exact ⟨by simpa using (hother other hold hprobing).mp hne, other, hold, hprobing⟩
  · intro other hleft third hthird hprobing hprobing'
    exact h.unique other ((hmem other).mp hleft).1 third ((hmem third).mp hthird).1 hprobing
      hprobing'
  · intro id
    rw [hprobe, CircuitPromise.settled]
    dsimp only
    split_ifs with hsettled
    · -- The probe itself settled.
      rcases (h.awaited call.id).mp hsettled with ⟨other, hold, hid, hprobing⟩
      constructor
      · exact nofun
      · rintro ⟨third, hleft, -, hprobing'⟩
        rcases (hmem third).mp hleft with ⟨hthird, hne⟩
        rw [h.unique third hthird other hold hprobing' hprobing] at hne
        exact absurd hid hne
    · rw [h.awaited id]
      constructor
      · rintro ⟨other, hold, hid, hprobing⟩
        refine ⟨other, (hmem other).mpr ⟨hold, fun heq => hsettled ?_⟩, hid, hprobing⟩
        exact (h.awaited call.id).mpr ⟨other, hold, heq, hprobing⟩
      · rintro ⟨other, hleft, hid, hprobing⟩
        exact ⟨other, ((hmem other).mp hleft).1, hid, hprobing⟩

/-- An operation settles, and the circuit does not open. -/
theorem Tracked.settled {s s' : Circuit} (h : Tracked s) {call : ProviderCall}
    (hcall : s.calls.find? call.id = some call) (hcalls : s'.calls = s.calls.erase call.id)
    (hstarted : s'.started = s.started) (hopenings : s'.openings = s.openings)
    (hflag : s'.breaker.probeInFlight = (!call.probe && s.breaker.probeInFlight))
    (hpromise : s'.promise = s.promise.settled call.id) (hclock : s.clock ≤ s'.clock)
    (hclosed : s.breaker.state = .closed → s'.breaker.state = .closed)
    (hdue : s'.breaker.state ≠ .closed → s'.breaker.probeInFlight = false →
      s.promise.probeDue = true) : Tracked s' := by
  have hold : ∀ other ∈ s'.calls.rows, other ∈ s.calls.rows := by
    intro other hother
    rw [hcalls, Table.erase, Table.mem_filter] at hother
    exact hother.1
  refine ⟨h.toInFlight.settled hcall hcalls hstarted (Nat.le_of_eq hopenings.symm) hflag
    (congrArg _ hpromise), ?_, ?_, ?_, ?_⟩
  · intro hopen hfree
    rw [hpromise]
    exact hdue hopen hfree
  · intro other hother hprobe hsame
    exact hclosed (h.ordinary other (hold other hother) hprobe (hsame.trans hopenings))
  · intro other hother hprobe hsame
    rcases h.probing other (hold other hother) hprobe (hsame.trans hopenings) with ⟨hnot, huntils⟩
    rw [hpromise]
    exact ⟨hnot, fun openUntil hmem => Int.le_trans (huntils openUntil hmem) hclock⟩
  · intro other hother hprobe hne
    rw [hpromise]
    exact h.reopened other (hold other hother) hprobe fun hsame => hne (hsame.trans hopenings.symm)

/-- An operation settles and opens the circuit. -/
theorem Tracked.opens {s s' : Circuit} (h : Tracked s) {call : ProviderCall}
    (hcall : s.calls.find? call.id = some call) (hcalls : s'.calls = s.calls.erase call.id)
    (hstarted : s'.started = s.started) (hopenings : s'.openings = s.openings + 1)
    (hflag : s'.breaker.probeInFlight = (!call.probe && s.breaker.probeInFlight))
    {openUntil : Instant} (hpromise : s'.promise = (s.promise.settled call.id).opened openUntil) :
    Tracked s' := by
  have hearlier : ∀ other ∈ s'.calls.rows, other.openings ≠ s'.openings := by
    intro other hother
    rw [hcalls, Table.erase, Table.mem_filter] at hother
    have hbounded := h.bounded other hother.1
    omega
  have hprobe : s'.promise.probe = (s.promise.settled call.id).probe := by
    rw [hpromise]
    rfl
  have hinFlight := h.toInFlight.settled hcall hcalls hstarted (by omega) hflag hprobe
  refine ⟨hinFlight, ?_, ?_, ?_, ?_⟩
  · intro _ _
    rw [hpromise]
    rfl
  · exact fun other hother _ hsame => absurd hsame (hearlier other hother)
  · exact fun other hother _ hsame => absurd hsame (hearlier other hother)
  · intro _ _ _ _
    rw [hpromise]
    rfl

theorem stepRejects_of_opens {config : CircuitBreakerConfig} {s : Circuit} {call : ProviderCall}
    {error : ErrorClass} {now openUntil : Instant}
    (h : s.breaker.opensUntil config call.probe error s.clock now = some openUntil) :
    s.stepRejects config call error now =
      { s with
        breaker := s.breaker.fail config call.probe error s.clock now
        calls := s.calls.erase call.id
        clock := now
        openings := s.openings + 1
        promise := (s.promise.settled call.id).opened openUntil } := by
  simp only [stepRejects, h]

theorem stepRejects_of_none {config : CircuitBreakerConfig} {s : Circuit} {call : ProviderCall}
    {error : ErrorClass} {now : Instant}
    (h : s.breaker.opensUntil config call.probe error s.clock now = none) :
    s.stepRejects config call error now =
      { s with
        breaker := s.breaker.fail config call.probe error s.clock now
        calls := s.calls.erase call.id
        clock := now
        promise := s.promise.settled call.id } := by
  simp only [stepRejects, h]

theorem Tracked.execute {s : Circuit} (h : Tracked s) (hcalm : s.Calm) :
    Tracked s.stepExecute := by
  rcases stepExecute_cases s with
    ⟨-, hstep⟩ | ⟨hclosed, hstep⟩ | ⟨hfree, hhalf, hstep⟩
  · rw [hstep]
    exact h.refresh
  · rw [hstep]
    exact h.invoke_closed hclosed (hcalm.closed hclosed)
  · rw [hstep]
    have hopen : s.breaker.state ≠ .closed := by
      rw [ne_eq, ← @CircuitBreaker.refresh_closed_iff _ s.clock]
      simp [hhalf]
    exact h.invoke_probe hopen hfree
      (hcalm.keeps s.clock (Int.le_refl _) (Or.inr ⟨hfree, hhalf⟩)) rfl

theorem Tracked.resolves {s : Circuit} (h : Tracked s) {call : ProviderCall}
    (hcall : s.calls.find? call.id = some call) : Tracked (s.stepResolves call) :=
  h.settled hcall rfl rfl rfl CircuitBreaker.succeed_probeInFlight rfl (Int.le_refl _)
    (fun _ => CircuitBreaker.succeed_closed)
    (fun hopen => absurd CircuitBreaker.succeed_closed hopen)

theorem Tracked.rejects {config : CircuitBreakerConfig} {s : Circuit} (h : Tracked s)
    {call : ProviderCall} (hcall : s.calls.find? call.id = some call) {error : ErrorClass}
    {now : Instant} (hnow : s.clock ≤ now) : Tracked (s.stepRejects config call error now) := by
  have hflag := @CircuitBreaker.fail_probeInFlight s.breaker now config call.probe error s.clock
  cases hopens : s.breaker.opensUntil config call.probe error s.clock now with
  | some openUntil =>
      rw [stepRejects_of_opens hopens]
      exact h.opens hcall rfl rfl rfl hflag rfl
  | none =>
      rw [stepRejects_of_none hopens]
      rcases CircuitBreaker.fail_of_none hopens with ⟨hprobe, hstate, -⟩ | ⟨-, -, hclosed⟩
      · refine h.settled hcall rfl rfl rfl hflag rfl hnow (fun hclosed => hstate.trans hclosed) ?_
        intro hopen hfree
        refine h.due (fun hclosed => hopen (hstate.trans hclosed)) ?_
        simpa [CircuitBreaker.fail_probeInFlight, hprobe] using hfree
      · exact h.settled hcall rfl rfl rfl hflag rfl hnow (fun _ => hclosed)
          (fun hopen => absurd hclosed hopen)

theorem find?_self {s : Circuit} {id : Nat} {call : ProviderCall}
    (h : s.calls.find? id = some call) : s.calls.find? call.id = some call := by
  rwa [Table.key_of_find? h]

theorem tracked_step {config : CircuitBreakerConfig} (s : Circuit) (event : CircuitEvent)
    (h : Tracked s) (hcalm : s.Calm) : Tracked (step config s event) := by
  cases event with
  | wait elapsed => exact h.tick elapsed
  | execute => exact h.execute hcalm
  | status => exact h.refresh
  | resolves id =>
      cases hcall : s.calls.find? id with
      | none => simpa only [step, hcall] using h
      | some call => simpa only [step, hcall] using h.resolves (find?_self hcall)
  | rejects id error between =>
      cases hcall : s.calls.find? id with
      | none => simpa only [step, hcall] using h
      | some call =>
          have hlater : s.clock ≤ s.clock + between :=
            Int.le_add_of_nonneg_right (Int.natCast_nonneg between)
          simpa only [step, hcall] using h.rejects (find?_self hcall) hlater

/-! ## Which steps stay calm -/

theorem allows_later {promise : CircuitPromise} {now later : Instant}
    (h : promise.Allows now) (hlater : now ≤ later) : promise.Allows later :=
  ⟨fun openUntil hmem => Int.le_trans (h.1 openUntil hmem) hlater, h.2⟩

theorem calm_closed_iff {s : Circuit} (hclosed : s.breaker.state = .closed) :
    s.Calm ↔ s.promise.Allows s.clock ∧ s.promise.probeDue = false := by
  constructor
  · intro h
    exact ⟨h.keeps s.clock (Int.le_refl _) (Or.inl hclosed), h.closed hclosed⟩
  · rintro ⟨hallows, hdue⟩
    exact ⟨fun now hnow _ => allows_later hallows hnow, fun _ => hdue⟩

theorem calm_opened_iff {s : Circuit} {openUntil : Instant} (hopened : s.breaker.state = .opened)
    (huntil : s.breaker.openUntil = some openUntil) :
    s.Calm ↔ s.breaker.probeInFlight = true ∨
      (∀ earlier ∈ s.promise.untils, earlier ≤ s.clock ∨ earlier ≤ openUntil) ∧
        s.promise.probe = none := by
  have hinvokes : ∀ now, s.breaker.Invokes now ↔
      s.breaker.probeInFlight = false ∧ openUntil ≤ now := by
    intro now
    simp [CircuitBreaker.Invokes, CircuitBreaker.refresh_halfOpen_iff, hopened, huntil]
  constructor
  · intro h
    cases hflag : s.breaker.probeInFlight with
    | true => exact Or.inl rfl
    | false =>
        right
        -- The first call after the cooldown comes in at the later of the two times.
        rcases Int.le_total s.clock openUntil with hlate | hpassed
        · have hallows := h.keeps openUntil hlate ((hinvokes _).mpr ⟨hflag, Int.le_refl _⟩)
          exact ⟨fun earlier hmem => Or.inr (hallows.1 earlier hmem), hallows.2⟩
        · have hallows := h.keeps s.clock (Int.le_refl _) ((hinvokes _).mpr ⟨hflag, hpassed⟩)
          exact ⟨fun earlier hmem => Or.inl (hallows.1 earlier hmem), hallows.2⟩
  · intro h
    refine ⟨fun now hnow hinvoked => ?_, fun hclosed => ?_⟩
    · rcases (hinvokes now).mp hinvoked with ⟨hfree, hpassed⟩
      rcases h with hflag | ⟨huntils, hnone⟩
      · rw [hfree] at hflag
        cases hflag
      · refine ⟨fun earlier hmem => ?_, hnone⟩
        rcases huntils earlier hmem with hbefore | hbefore
        · exact Int.le_trans hbefore hnow
        · exact Int.le_trans hbefore hpassed
    · rw [hopened] at hclosed
      cases hclosed

/-- Closing the circuit is calm exactly when the call that closes it began after the circuit
last opened. -/
theorem calm_closing_iff {s s' : Circuit} (h : Tracked s) {call : ProviderCall}
    (hcall : s.calls.find? call.id = some call)
    (hopen : s.breaker.state ≠ .closed ∨ call.probe = true)
    (hclosed : s'.breaker.state = .closed) (hpromise : s'.promise = s.promise.settled call.id)
    (hclock : s.clock ≤ s'.clock) : s'.Calm ↔ call.openings = s.openings := by
  have hin : call ∈ s.calls.rows := Table.mem_of_find? hcall
  rw [calm_closed_iff hclosed, hpromise]
  constructor
  · rintro ⟨⟨-, hnone⟩, hdue⟩
    by_contra hother
    cases hprobe : call.probe with
    | true =>
        have hdue' : s.promise.probeDue = false := hdue
        rw [h.reopened call hin hprobe hother] at hdue'
        cases hdue'
    | false =>
        have hstate : s.breaker.state ≠ .closed := by
          rcases hopen with hstate | hset
          · exact hstate
          · rw [hprobe] at hset
            cases hset
        cases hflag : s.breaker.probeInFlight with
        | false =>
            have hdue' : s.promise.probeDue = false := hdue
            rw [h.due hstate hflag] at hdue'
            cases hdue'
        | true =>
            -- The probe in flight is not the call that settled.
            rcases h.flag.mp hflag with ⟨other, hold, hprobing⟩
            have hawaited := (h.awaited other.id).mpr ⟨other, hold, rfl, hprobing⟩
            have hne : other.id ≠ call.id := by
              intro heq
              rw [s.calls.eq_of_key hold hin heq, hprobe] at hprobing
              cases hprobing
            simp [CircuitPromise.settled, hawaited, hne] at hnone
  · intro hsame
    have hprobe : call.probe = true := by
      by_contra hordinary
      have hstate := h.ordinary call hin (Bool.of_not_eq_true hordinary) hsame
      rcases hopen with hnot | hset
      · exact hnot hstate
      · exact hordinary hset
    rcases h.probing call hin hprobe hsame with ⟨hdue, huntils⟩
    have hawaited := (h.awaited call.id).mpr ⟨call, hin, rfl, hprobe⟩
    refine ⟨⟨fun openUntil hmem => ?_, ?_⟩, hdue⟩
    · exact Int.le_trans (huntils openUntil hmem) hclock
    · simp [CircuitPromise.settled, hawaited]

/-- A settled ordinary call that leaves the circuit as it is. -/
theorem calm_kept {s s' : Circuit} (h : Tracked s) (hcalm : s.Calm) {call : ProviderCall}
    (hcall : s.calls.find? call.id = some call) (hprobe : call.probe = false)
    (hstate : s'.breaker.state = s.breaker.state)
    (huntil : s'.breaker.openUntil = s.breaker.openUntil)
    (hflag : s'.breaker.probeInFlight = s.breaker.probeInFlight)
    (hpromise : s'.promise = s.promise.settled call.id) (hclock : s.clock ≤ s'.clock) :
    s'.Calm := by
  have hin : call ∈ s.calls.rows := Table.mem_of_find? hcall
  have hsame : s.promise.settled call.id = s.promise := by
    have hother : s.promise.probe ≠ some call.id := by
      intro hawaited
      rcases (h.awaited call.id).mp hawaited with ⟨other, hold, hid, hprobing⟩
      rw [s.calls.eq_of_key hold hin hid, hprobe] at hprobing
      cases hprobing
    simp [CircuitPromise.settled, hother]
  have hinvokes : ∀ now, s'.breaker.Invokes now ↔ s.breaker.Invokes now := by
    intro now
    simp only [CircuitBreaker.Invokes, CircuitBreaker.refresh_halfOpen_iff, hstate, huntil, hflag]
  rw [hsame] at hpromise
  refine ⟨fun now hnow hinvoked => ?_, fun hclosed => ?_⟩
  · rw [hpromise]
    exact hcalm.keeps now (Int.le_trans hclock hnow) ((hinvokes now).mp hinvoked)
  · rw [hpromise]
    exact hcalm.closed (hstate ▸ hclosed)

theorem calm_resolves_iff {s : Circuit} (h : Tracked s) (hcalm : s.Calm) {call : ProviderCall}
    (hcall : s.calls.find? call.id = some call) :
    (s.stepResolves call).Calm ↔ s.breaker.state = .closed ∨ call.openings = s.openings := by
  have hclosed : (s.stepResolves call).breaker.state = .closed := CircuitBreaker.succeed_closed
  by_cases hstate : s.breaker.state = .closed
  · -- No probe is in flight on a closed circuit.
    have hin : call ∈ s.calls.rows := Table.mem_of_find? hcall
    rcases (calm_closed_iff hstate).mp hcalm with ⟨hallows, hdue⟩
    have hpromise : (s.promise.settled call.id).Allows s.clock := by
      refine ⟨hallows.1, ?_⟩
      simp [CircuitPromise.settled, hallows.2]
    exact iff_of_true ((calm_closed_iff hclosed).mpr ⟨hpromise, hdue⟩) (Or.inl hstate)
  · rw [calm_closing_iff h hcall (Or.inl hstate) hclosed rfl (Int.le_refl _), or_iff_right hstate]

/-- Another operation than this call is the probe in flight. -/
theorem other_probe_iff {s : Circuit} (h : Tracked s) {call : ProviderCall}
    (hcall : s.calls.find? call.id = some call) :
    (!call.probe && s.breaker.probeInFlight) = true ↔
      ∃ other ∈ s.calls.rows, other.id ≠ call.id ∧ other.probe = true := by
  have hin : call ∈ s.calls.rows := Table.mem_of_find? hcall
  rw [Bool.and_eq_true, h.flag]
  constructor
  · rintro ⟨hordinary, other, hold, hprobing⟩
    refine ⟨other, hold, fun heq => ?_, hprobing⟩
    rw [s.calls.eq_of_key hold hin heq] at hprobing
    simp [hprobing] at hordinary
  · rintro ⟨other, hold, hne, hprobing⟩
    refine ⟨?_, other, hold, hprobing⟩
    by_contra hset
    exact hne (congrArg _ (h.unique other hold call hin hprobing (by simpa using hset)))

/-- With no probe in flight, the promise awaits none. -/
theorem settled_probe_none {s : Circuit} (h : Tracked s) {call : ProviderCall}
    (hnone : ¬ ∃ other ∈ s.calls.rows, other.id ≠ call.id ∧ other.probe = true) :
    (s.promise.settled call.id).probe = none := by
  cases hprobe : s.promise.probe with
  | none => simp [CircuitPromise.settled, hprobe]
  | some id =>
      rcases (h.awaited id).mp hprobe with ⟨other, hold, rfl, hprobing⟩
      have hsame : other.id = call.id := by
        by_contra hne
        exact hnone ⟨other, hold, hne, hprobing⟩
      simp [CircuitPromise.settled, hprobe, hsame]

theorem calm_opens_iff {config : CircuitBreakerConfig} {s : Circuit} (h : Tracked s)
    {call : ProviderCall} (hcall : s.calls.find? call.id = some call) {error : ErrorClass}
    {now openUntil : Instant}
    (hopens : s.breaker.opensUntil config call.probe error s.clock now = some openUntil) :
    (s.stepRejects config call error now).Calm ↔
      (∃ other ∈ s.calls.rows, other.id ≠ call.id ∧ other.probe = true) ∨
        ∀ earlier ∈ s.promise.untils, earlier ≤ now ∨ earlier ≤ openUntil := by
  rcases CircuitBreaker.fail_of_opens hopens with ⟨hopened, huntil⟩
  rw [stepRejects_of_opens hopens, calm_opened_iff hopened huntil,
    CircuitBreaker.fail_probeInFlight, other_probe_iff h hcall]
  refine or_congr_right' fun hnone => ?_
  refine (and_iff_left (settled_probe_none h hnone)).trans ?_
  simp [CircuitPromise.opened, CircuitPromise.settled]

/-- A step from a calm state stays calm exactly if it is harmless. -/
theorem calm_step_iff {config : CircuitBreakerConfig} (s : Circuit) (event : CircuitEvent)
    (h : Tracked s) (hcalm : s.Calm) : (step config s event).Calm ↔ Harmless config s event := by
  cases event with
  | wait elapsed => exact iff_of_true (calm_tick hcalm elapsed) trivial
  | execute => exact iff_of_true (calm_execute hcalm) trivial
  | status => exact iff_of_true (calm_refresh hcalm) trivial
  | resolves id =>
      cases hcall : s.calls.find? id with
      | none => simpa [step, Harmless, hcall] using hcalm
      | some call =>
          have hstep := calm_resolves_iff h hcalm (find?_self hcall)
          simpa [step, Harmless, hcall] using hstep
  | rejects id error between =>
      cases hcall : s.calls.find? id with
      | none => simpa [step, Harmless, hcall] using hcalm
      | some call =>
          have hself := find?_self hcall
          have hlater : s.clock ≤ s.clock + between :=
            Int.le_add_of_nonneg_right (Int.natCast_nonneg between)
          have hharmless : Harmless config s (.rejects id error between) ↔ _ :=
            ⟨fun hevent => hevent call hcall, fun hcase other hother => by
              rw [hcall] at hother
              cases hother
              exact hcase⟩
          rw [hharmless]
          simp only [step, hcall]
          -- A rejection opens the circuit, leaves it as it is, or closes it after a probe.
          cases hopens : s.breaker.opensUntil config call.probe error s.clock
              (s.clock + between) with
          | some openUntil =>
              have hcounted := CircuitBreaker.counted_of_opens hopens
              simp only [hcounted, if_true, Option.some.injEq, forall_eq']
              rw [calm_opens_iff h hself hopens, Table.key_of_find? hcall]
          | none =>
              rw [stepRejects_of_none hopens]
              rcases CircuitBreaker.fail_of_none hopens with
                ⟨hprobe, hstate, huntil⟩ | ⟨hprobe, hcounted, hclosed⟩
              · refine iff_of_true (calm_kept h hcalm hself hprobe hstate huntil ?_ rfl hlater) ?_
                · simp [CircuitBreaker.fail_probeInFlight, hprobe]
                · split_ifs
                  · intro openUntil hnone
                    cases hnone
                  · simp [hprobe]
              · rw [calm_closing_iff h hself (Or.inr hprobe) hclosed rfl hlater]
                simp [hcounted, hprobe]

/-- The promise of an open circuit holds along a run, and along every burst of calls that
joins it, exactly if no settlement of the run does harm. -/
theorem circuit_promise_iff (config : CircuitBreakerConfig) (clock : Instant)
    (events : List CircuitEvent) :
    RespectsPromise config (boot clock) events ↔
      Along (step config) (Harmless config) (boot clock) events := by
  have hcalm : (boot clock).Calm := by
    rw [calm_closed_iff rfl]
    exact ⟨⟨fun _ hmem => (nomatch hmem), rfl⟩, rfl⟩
  rw [respectsPromise_iff]
  exact throughout_iff_along_of_good Tracked tracked_step calm_step_iff (tracked_boot clock) hcalm
    events

/-- Two calls overlap; the first opens the circuit, and the second resolves. -/
def lateSuccess : List CircuitEvent :=
  [.execute, .execute, .rejects 0 { counted := true } 0, .resolves 1]

/-- A call that comes in next is invoked before the cooldown is over. -/
theorem late_success_closes :
    ¬ Along (step { failureThreshold := 1, openSeconds := 60 }) KeepsPromise (boot 0)
      (lateSuccess ++ [.execute]) := by
  decide

end Circuit

end Orchestrator
