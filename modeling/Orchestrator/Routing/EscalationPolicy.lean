import Mathlib.Data.Rat.Defs
import Orchestrator.Config.Providers

/-! # Model routing

The built-in routes and escalation ladders, and the selection of a model for one
attempt (`routing/defaults.ts`, `routing/model-router.ts`,
`routing/escalation-policy.ts`).
-/

namespace Orchestrator

def complexityValues : List Complexity :=
  [.veryLow, .low, .medium, .high, .veryHigh, .critical]

theorem mem_complexityValues (complexity : Complexity) : complexity ∈ complexityValues := by
  cases complexity <;> decide

def defaultRouting : Complexity → TierRoute
  | .veryLow => ⟨"luna", .medium⟩
  | .low => ⟨"luna", .high⟩
  | .medium => ⟨"terra", .medium⟩
  | .high => ⟨"terra", .high⟩
  | .veryHigh => ⟨"sol", .medium⟩
  | .critical => ⟨"sol", .high⟩

def defaultEscalation : Complexity → List TierRoute
  | .veryLow => [⟨"luna", .medium⟩, ⟨"luna", .high⟩, ⟨"terra", .high⟩, ⟨"sol", .high⟩]
  | .low => [⟨"luna", .high⟩, ⟨"terra", .high⟩, ⟨"sol", .high⟩]
  | .medium => [⟨"terra", .medium⟩, ⟨"terra", .high⟩, ⟨"sol", .high⟩]
  | .high => [⟨"terra", .high⟩, ⟨"sol", .high⟩, ⟨"sol", .max⟩]
  | .veryHigh => [⟨"sol", .medium⟩, ⟨"sol", .high⟩, ⟨"sol", .max⟩]
  | .critical => [⟨"sol", .high⟩, ⟨"sol", .max⟩]

def routingFor (config : OrchestratorConfig) (complexity : Complexity) : TierRoute :=
  (config.models.routes.lookup complexity).getD (defaultRouting complexity)

/-- A configured ladder replaces the built-in one as a whole. -/
def escalationLadder (config : OrchestratorConfig) (complexity : Complexity) : List TierRoute :=
  (config.models.escalation.lookup complexity).getD (defaultEscalation complexity)

/-- One routed model choice. An inherited tier has no model. -/
structure ModelSelection where
  provider : String
  tier : String
  model : Option String
  effort : Effort
  deriving DecidableEq, Repr

def resolveRoute (config : OrchestratorConfig) (route : TierRoute) :
    Except String ModelSelection :=
  match config.models.tier route.tier with
  | none => .error s!"No model configured for tier: {route.tier}"
  | some tier =>
      match providerAliasForTier config route.tier with
      | none => .error
          s!"Tier {route.tier} must name a provider when several providers are configured"
      | some provider => .ok ⟨provider, route.tier, tier.model, route.effort⟩

def selectModel (config : OrchestratorConfig) (complexity : Complexity) :
    Except String ModelSelection :=
  resolveRoute config (routingFor config complexity)

/-- The rung of an attempt number; a number that is no integer has none. -/
def escalationRung (config : OrchestratorConfig) (complexity : Complexity) (attempt : ℚ) :
    Option TierRoute :=
  if ¬ attempt.isInt ∨ attempt.num < 1 ∨ config.maxImplementationAttempts < attempt.num then none
  else (escalationLadder config complexity)[(attempt.num - 1).toNat]?

def escalationStep (config : OrchestratorConfig) (complexity : Complexity) (attempt : ℚ) :
    Except String (Option ModelSelection) :=
  match escalationRung config complexity attempt with
  | none => .ok none
  | some route => (resolveRoute config route).map some

/-- The tier, model and effort columns that a task row has for the fixer. -/
structure SelectedColumns where
  selectedModelTier : Option String := none
  reasoningEffort : Option String := none
  deriving DecidableEq, Repr

def effortOfText (text : String) : Option Effort :=
  [Effort.low, .medium, .high, .max].find? fun effort => effort.text = text

/-- `FixingStage.model`: the recorded tier and effort, re-read from the configuration. -/
def fixingModel (config : OrchestratorConfig) (complexity : Complexity)
    (implementationAttempts : Nat) (task : SelectedColumns) :
    Except String (Option ModelSelection) :=
  match task.selectedModelTier, task.reasoningEffort.bind effortOfText with
  | some tier, some effort =>
      if (config.models.tier tier).isSome then
        (resolveRoute config ⟨tier, effort⟩).map some
      else escalationStep config complexity (max 1 implementationAttempts : Nat)
  | _, _ => escalationStep config complexity (max 1 implementationAttempts : Nat)

/-- The rungs that some attempt reaches: rung `index` belongs to attempt `index + 1`. -/
theorem mem_take_escalationLadder_iff {config : OrchestratorConfig} {complexity : Complexity}
    {route : TierRoute} :
    route ∈ (escalationLadder config complexity).take config.maxImplementationAttempts ↔
      ∃ attempt, escalationRung config complexity attempt = some route := by
  rw [List.mem_take_iff_getElem]
  constructor
  · rintro ⟨index, hindex, rfl⟩
    refine ⟨((index + 1 : Nat) : ℚ), ?_⟩
    have hint : ((index + 1 : Nat) : ℚ).isInt = true := rfl
    rw [escalationRung, Rat.num_natCast, if_neg]
    · rw [show ((index + 1 : Nat) - 1 : Int).toNat = index by omega]
      exact List.getElem?_eq_getElem _
    · simp only [hint, not_true, false_or, not_or]
      omega
  · rintro ⟨attempt, hrung⟩
    unfold escalationRung at hrung
    split_ifs at hrung with hnone
    simp only [not_or, not_not] at hnone
    obtain ⟨_, hlow, hhigh⟩ := hnone
    obtain ⟨hlength, hroute⟩ := List.getElem?_eq_some_iff.mp hrung
    exact ⟨(attempt.num - 1).toNat, by omega, hroute⟩

theorem resolveRoute_eq_ok {config : OrchestratorConfig} {route : TierRoute}
    {selection : ModelSelection} (h : resolveRoute config route = .ok selection) :
    providerAliasForTier config route.tier = some selection.provider ∧
      selection.tier = route.tier ∧ selection.effort = route.effort ∧
      (config.models.tier route.tier).isSome := by
  unfold resolveRoute at h
  split at h
  · cases h
  · next htier =>
      split at h
      · cases h
      · next hprovider =>
          cases h
          exact ⟨hprovider, rfl, rfl, by rw [htier]; rfl⟩

theorem escalationStep_eq_some {config : OrchestratorConfig} {complexity : Complexity}
    {attempt : ℚ} {selection : ModelSelection}
    (h : escalationStep config complexity attempt = .ok (some selection)) :
    ∃ route, escalationRung config complexity attempt = some route ∧
      resolveRoute config route = .ok selection := by
  unfold escalationStep at h
  cases hrung : escalationRung config complexity attempt with
  | none =>
      rw [hrung] at h
      cases h
  | some route =>
      rw [hrung] at h
      dsimp only at h
      cases hresolved : resolveRoute config route with
      | error failure =>
          rw [hresolved] at h
          cases h
      | ok resolved =>
          rw [hresolved] at h
          cases h
          exact ⟨route, rfl, hresolved⟩

theorem effortOfText_text (effort : Effort) : effortOfText effort.text = some effort := by
  cases effort <;> decide

/-- The fixer reuses the selection that the implementer recorded. -/
theorem fixingModel_of_recorded {config : OrchestratorConfig} {complexity : Complexity}
    {attempt : ℚ} {selection : ModelSelection}
    (h : escalationStep config complexity attempt = .ok (some selection)) (attempts : Nat) :
    fixingModel config complexity attempts ⟨some selection.tier, some selection.effort.text⟩ =
      .ok (some selection) := by
  obtain ⟨route, _, hresolved⟩ := escalationStep_eq_some h
  obtain ⟨_, htier, heffort, hconfigured⟩ := resolveRoute_eq_ok hresolved
  have hroute : (⟨selection.tier, selection.effort⟩ : TierRoute) = route := by
    rw [htier, heffort]
  simp only [fixingModel, Option.bind_some, effortOfText_text]
  rw [htier, if_pos hconfigured, ← htier, hroute, hresolved]
  rfl

end Orchestrator
