import Mathlib.Data.List.Basic
import Mathlib.Data.Set.Basic

/-! # Runs of a deterministic step function

A component is given by `step : σ → ε → σ`; a disabled event leaves the state as
it is, so every list of events is a run. Safety properties are stated over the
states a run visits (`Throughout`), assumptions about the schedule over the steps
it takes (`Along`).
-/

namespace Kit

variable {σ ε : Type*} (step : σ → ε → σ)

/-- The state reached by taking `events` from `s`. -/
def run (s : σ) (events : List ε) : σ := events.foldl step s

/-- `P` holds in every state the run visits, both ends included. -/
def Throughout (P : σ → Prop) : σ → List ε → Prop
  | s, [] => P s
  | s, e :: events => P s ∧ Throughout P (step s e) events

/-- `C` holds of every step the run takes. -/
def Along (C : σ → ε → Prop) : σ → List ε → Prop
  | _, [] => True
  | s, e :: events => C s e ∧ Along C (step s e) events

instance decidableThroughout (P : σ → Prop) [DecidablePred P] :
    ∀ s events, Decidable (Throughout step P s events)
  | s, [] => inferInstanceAs (Decidable (P s))
  | s, e :: events =>
      have := decidableThroughout P (step s e) events
      inferInstanceAs (Decidable (_ ∧ _))

instance decidableAlong (C : σ → ε → Prop) [∀ s e, Decidable (C s e)] :
    ∀ s events, Decidable (Along step C s events)
  | _, [] => inferInstanceAs (Decidable True)
  | s, e :: events =>
      have := decidableAlong C (step s e) events
      inferInstanceAs (Decidable (_ ∧ _))

theorem run_append (s : σ) (before after : List ε) :
    run step s (before ++ after) = run step (run step s before) after := by
  simp [run, List.foldl_append]

/-! ## Invariant rules -/

section Invariant

variable {P : σ → Prop} {C D : σ → ε → Prop} {step}

/-- Invariant induction over a run. -/
theorem run_invariant (I : σ → Prop) (hstep : ∀ s e, I s → I (step s e)) {s : σ} (hinit : I s)
    (events : List ε) : I (run step s events) := by
  induction events generalizing s with
  | nil => exact hinit
  | cons e events ih => exact ih (hstep s e hinit)

/-- An invariant holds in every visited state. -/
theorem throughout_of_along (I : σ → Prop) (hstep : ∀ s e, I s → C s e → I (step s e)) {s : σ}
    (hinit : I s) {events : List ε} (halong : Along step C s events) :
    Throughout step I s events := by
  induction events generalizing s with
  | nil => exact hinit
  | cons e events ih => exact ⟨hinit, ih (hstep s e hinit halong.1) halong.2⟩

theorem throughout_mono {I : σ → Prop} (h : ∀ s, I s → P s) {s : σ} {events : List ε}
    (hI : Throughout step I s events) : Throughout step P s events := by
  induction events generalizing s with
  | nil => exact h s hI
  | cons e events ih => exact ⟨h s hI.1, ih hI.2⟩

/-- A consequence of the invariant holds of every step taken. -/
theorem along_of_invariant (I : σ → Prop) (hstep : ∀ s e, I s → C s e → I (step s e))
    (h : ∀ s e, I s → C s e → D s e) {s : σ} (hinit : I s)
    {events : List ε} (halong : Along step C s events) : Along step D s events := by
  induction events generalizing s with
  | nil => trivial
  | cons e events ih =>
      exact ⟨h s e hinit halong.1, ih (hstep s e hinit halong.1) halong.2⟩

/-- A condition on the events alone. -/
theorem along_of_forall {E : ε → Prop} {s : σ} {events : List ε} (h : ∀ e ∈ events, E e) :
    Along step (fun _ e => E e) s events := by
  induction events generalizing s with
  | nil => trivial
  | cons e events ih =>
      exact ⟨h e List.mem_cons_self, ih fun other hother => h other (List.mem_cons_of_mem e hother)⟩

/-- A condition along a run holds along its parts. -/
theorem along_append {s : σ} {before after : List ε} :
    Along step C s (before ++ after) ↔
      Along step C s before ∧ Along step C (run step s before) after := by
  induction before generalizing s with
  | nil => exact (and_iff_right trivial).symm
  | cons e before ih =>
      show C s e ∧ Along step C (step s e) (before ++ after) ↔ _
      rw [ih]
      exact and_assoc.symm

/-- Two conditions that agree on every step hold along the same runs. -/
theorem along_congr (h : ∀ s e, C s e ↔ D s e) {s : σ} {events : List ε} :
    Along step C s events ↔ Along step D s events := by
  induction events generalizing s with
  | nil => exact Iff.rfl
  | cons e events ih => exact and_congr (h s e) ih

/-- When, under an invariant of good states, a step from a good state stays good exactly
if it meets `C`, a run stays good throughout exactly if all its steps meet `C`. -/
theorem throughout_iff_along_of_good (I : σ → Prop) (hinv : ∀ s e, I s → P s → I (step s e))
    (hstep : ∀ s e, I s → P s → (P (step s e) ↔ C s e)) {s : σ} (hinit : I s) (hgood : P s)
    (events : List ε) : Throughout step P s events ↔ Along step C s events := by
  -- The state is generalized: the rest of the run starts from a good state again.
  induction events generalizing s with
  | nil => simpa [Throughout, Along] using hgood
  | cons e events ih =>
      constructor
      · intro h
        have hnext : P (step s e) := by
          cases events with
          | nil => exact h.2
          | cons _ _ => exact h.2.1
        exact ⟨(hstep s e hinit hgood).mp hnext, (ih (hinv s e hinit hgood) hnext).mp h.2⟩
      · intro h
        have hnext : P (step s e) := (hstep s e hinit hgood).mpr h.1
        exact ⟨hgood, (ih (hinv s e hinit hgood) hnext).mpr h.2⟩

/-- The same under an invariant of all states. -/
theorem throughout_iff_along (I : σ → Prop) (hinv : ∀ s e, I s → I (step s e))
    (hstep : ∀ s e, I s → P s → (P (step s e) ↔ C s e)) {s : σ} (hinit : I s) (hgood : P s)
    (events : List ε) : Throughout step P s events ↔ Along step C s events :=
  throughout_iff_along_of_good I (fun s e h _ => hinv s e h) hstep hinit hgood events

end Invariant

/-! ## Runs joined by further events -/

/-- `C` holds along the run, and along every burst of `joins` events that comes in at any
point of it. -/
def AlongJoined (joins : ε → Prop) (C : σ → ε → Prop) (s : σ) (events : List ε) : Prop :=
  ∀ before burst, before <+: events → (∀ e ∈ burst, joins e) → Along step C s (before ++ burst)

section Joined

variable {P I : σ → Prop} {joins : ε → Prop} {C : σ → ε → Prop} {step}

theorem along_burst (hinv : ∀ s e, I s → I (step s e))
    (hkept : ∀ s e, I s → P s → joins e → P (step s e)) (hgood : ∀ s e, I s → P s → C s e)
    {burst : List ε} (hburst : ∀ e ∈ burst, joins e) {s : σ} (hs : I s) (h : P s) :
    Along step C s burst := by
  induction burst generalizing s with
  | nil => trivial
  | cons e burst ih =>
      have hrest : ∀ e ∈ burst, joins e := fun other hother =>
        hburst other (List.mem_cons_of_mem e hother)
      exact ⟨hgood s e hs h,
        ih hrest (hinv s e hs) (hkept s e hs h (hburst e List.mem_cons_self))⟩

/-- When the bursts keep `P` and tell when it fails, `C` holds along a run and every burst
that joins it exactly if the run keeps `P` throughout. -/
theorem alongJoined_iff (hinv : ∀ s e, I s → I (step s e))
    (hkept : ∀ s e, I s → P s → joins e → P (step s e)) (hgood : ∀ s e, I s → P s → C s e)
    (htells : ∀ s, I s → (∀ burst, (∀ e ∈ burst, joins e) → Along step C s burst) → P s)
    {s : σ} (hs : I s) (events : List ε) :
    AlongJoined step joins C s events ↔ Throughout step P s events := by
  induction events generalizing s with
  | nil =>
      constructor
      · intro h
        exact htells s hs fun burst hburst => h [] burst List.prefix_rfl hburst
      · intro h before burst hbefore hburst
        rw [List.prefix_nil.mp hbefore]
        exact along_burst hinv hkept hgood hburst hs h
  | cons e events ih =>
      constructor
      · intro h
        refine ⟨htells s hs fun burst hburst => h [] burst List.nil_prefix hburst,
          (ih (hinv s e hs)).mp fun before burst hbefore hburst => ?_⟩
        exact (h (e :: before) burst (List.cons_prefix_cons.mpr ⟨rfl, hbefore⟩) hburst).2
      · intro h before burst hbefore hburst
        cases before with
        | nil => exact along_burst hinv hkept hgood hburst hs h.1
        | cons head before =>
            rcases List.cons_prefix_cons.mp hbefore with ⟨rfl, hrest⟩
            exact ⟨hgood s head hs h.1,
              (ih (hinv s head hs)).mpr h.2 before burst hrest hburst⟩

end Joined

/-! ## Trails

A trail is a recorded path: every edge starts where the one before it ended. It relates a log of
state changes to the current state.
-/

section Trails

variable {R : σ → σ → Prop}

/-- `edges` is a path of `R`-steps from the first state to the last. -/
def Trail (R : σ → σ → Prop) : σ → List (σ × σ) → σ → Prop
  | source, [], target => source = target
  | source, edge :: edges, target =>
      edge.1 = source ∧ R edge.1 edge.2 ∧ Trail R edge.2 edges target

namespace Trail

@[simp] theorem nil_iff {source target : σ} : Trail R source [] target ↔ source = target := Iff.rfl

theorem append {source middle target : σ} {before after : List (σ × σ)}
    (hbefore : Trail R source before middle) (hafter : Trail R middle after target) :
    Trail R source (before ++ after) target := by
  induction before generalizing source with
  | nil =>
      obtain rfl : source = middle := hbefore
      exact hafter
  | cons edge before ih => exact ⟨hbefore.1, hbefore.2.1, ih hbefore.2.2⟩

/-- A log grows by the step just taken. -/
theorem snoc {source middle target : σ} {edges : List (σ × σ)}
    (htrail : Trail R source edges middle) (hstep : R middle target) :
    Trail R source (edges ++ [(middle, target)]) target :=
  htrail.append ⟨rfl, hstep, rfl⟩

end Trail

end Trails

/-! ## Leases that name only their holder

An acquisition gives its owner a handle to act on the resource with. The lease records who holds
the resource, not by which acquisition, so an owner that lost a lease and took it again passes
every check with the handle of the first one. The rule below excludes this for owners that never
acquire a resource they have a live handle on.
-/

/-- What one acquisition gives its owner. -/
structure Handle (α ω : Type*) where
  resource : α
  owner : ω
  epoch : Nat

/-- Who holds each resource, the handles that may still act, and those whose
lease has been held ever since their acquisition. -/
structure LeaseState (α ω : Type*) where
  holder : α → Option ω
  live : Set (Handle α ω)
  inForce : Set (Handle α ω)

variable {α ω : Type*}

/-- Every live handle that passes the owner check is in force. -/
def LeaseState.Unmistaken (s : LeaseState α ω) : Prop :=
  ∀ handle ∈ s.live, s.holder handle.resource = some handle.owner → handle ∈ s.inForce

/-- One step, in which `acquired` says who newly took which resource. -/
structure LeaseStep (acquired : α → ω → Prop) (s s' : LeaseState α ω) : Prop where
  holder : ∀ resource owner, s'.holder resource = some owner →
    s.holder resource = some owner ∨ acquired resource owner
  live : ∀ handle ∈ s'.live, handle ∈ s.live ∨ handle ∈ s'.inForce
  inForce : ∀ handle ∈ s.inForce, s'.holder handle.resource ≠ none → handle ∈ s'.inForce

/-- A step keeps the owner check sound if nobody acquires a resource it still has
a live handle on. -/
theorem LeaseStep.unmistaken {acquired : α → ω → Prop} {s s' : LeaseState α ω}
    (hstep : LeaseStep acquired s s')
    (halone : ∀ handle ∈ s.live, ¬ acquired handle.resource handle.owner)
    (hinv : s.Unmistaken) : s'.Unmistaken := by
  intro handle hlive hholder
  -- A handle that was live before passes the check by a lease kept, not by a new one.
  rcases hstep.live handle hlive with hold | hfresh
  · rcases hstep.holder _ _ hholder with hkept | hacquired
    · refine hstep.inForce handle (hinv handle hold hkept) ?_
      simp [hholder]
    · exact absurd hacquired (halone handle hold)
  · exact hfresh

end Kit
