import Mathlib.Data.List.Basic

/-! # Adapter capabilities

What the adapter of each provider kind guarantees about the commands a model issues
(`execution/adapters/capabilities.ts`), with the model vocabulary of
`types/model.ts`.
-/

namespace Orchestrator

inductive Effort
  | low | medium | high | max
  deriving DecidableEq, Repr

def Effort.text : Effort → String
  | .low => "low"
  | .medium => "medium"
  | .high => "high"
  | .max => "max"

inductive AgentRole
  | analyzer | implementer | fixer | reviewer
  deriving DecidableEq, Repr

def AgentRole.text : AgentRole → String
  | .analyzer => "analyzer"
  | .implementer => "implementer"
  | .fixer => "fixer"
  | .reviewer => "reviewer"

/-- Roles that write to worktrees. -/
def writeRoles : List AgentRole := [.implementer, .fixer]

inductive CommandConfinement
  | providerSandbox | bwrap | none
  deriving DecidableEq, Repr

inductive SandboxKind
  | none | bubblewrap
  deriving DecidableEq, Repr

inductive OwnConfinement
  | providerSandbox | none
  deriving DecidableEq, Repr

structure AdapterCapabilities where
  ownConfinement : OwnConfinement
  wrappable : Bool
  effortMap : List (Effort × String)
  deriving DecidableEq, Repr

def adapterCapabilities : List (String × AdapterCapabilities) :=
  [("codex-cli", ⟨.providerSandbox, false, [(.max, "xhigh")]⟩), ("cli", ⟨.none, true, []⟩)]

def adapterKinds : List String := adapterCapabilities.map (·.1)

def isAdapterKind (kind : String) : Bool := adapterKinds.contains kind

def adapterCapabilitiesOf (kind : String) : Except String AdapterCapabilities :=
  match adapterCapabilities.lookup kind with
  | none =>
      let known := ", ".intercalate adapterKinds
      .error s!"Unknown agent runner kind: {kind}. Known kinds: {known}"
  | some capabilities => .ok capabilities

/-- The confinement a provider kind effectively gives. -/
def effectiveConfinement (capabilities : AdapterCapabilities) (sandboxKind : SandboxKind) :
    CommandConfinement :=
  if capabilities.ownConfinement = .providerSandbox then .providerSandbox
  else if sandboxKind = .bubblewrap ∧ capabilities.wrappable then .bwrap
  else .none

/-- The canonical efforts under the names one provider accepts. -/
def resolveEffortMap (capabilities : AdapterCapabilities) (overrides : List (Effort × String)) :
    List (Effort × String) :=
  [Effort.low, .medium, .high, .max].map fun effort =>
    (effort, (overrides.lookup effort).getD
      ((capabilities.effortMap.lookup effort).getD effort.text))

theorem isAdapterKind_iff {kind : String} :
    isAdapterKind kind = true ↔ kind = "codex-cli" ∨ kind = "cli" := by
  simp [isAdapterKind, adapterKinds, adapterCapabilities]

/-- A known kind has capabilities; only an unwrapped `cli` leaves commands unconfined. -/
theorem confinement_of_kind {kind : String} (h : isAdapterKind kind = true)
    (sandboxKind : SandboxKind) : ∃ capabilities, adapterCapabilitiesOf kind = .ok capabilities ∧
      (effectiveConfinement capabilities sandboxKind ≠ .none ↔
        sandboxKind = .bubblewrap ∨ kind ≠ "cli") := by
  rcases isAdapterKind_iff.mp h with rfl | rfl
  · exact ⟨_, rfl, by simp [effectiveConfinement]⟩
  · refine ⟨_, rfl, ?_⟩
    cases sandboxKind <;> simp [effectiveConfinement]

end Orchestrator
