import Orchestrator.Execution.Capabilities
import Orchestrator.Intake.PlanningContract

/-! # Configured providers

The part of the configuration that decides which model runs where, and the lookups
of `config/providers.ts`. A record of the source is a list of its entries in order.
-/

namespace Orchestrator

inductive PromptDelivery
  | stdin | argument
  deriving DecidableEq, Repr

inductive ResultSource
  | stdout | file
  deriving DecidableEq, Repr

/-- The command line of a `cli` provider. -/
structure CliTransport where
  args : List String
  prompt : PromptDelivery := .stdin
  resultSource : ResultSource := .stdout
  deriving DecidableEq, Repr

/-- An entry of `models.providers`. -/
structure ModelProvider where
  kind : String
  executable : String
  environment : List String := []
  effort : List (Effort × String) := []
  cli : Option CliTransport := none
  deriving DecidableEq, Repr

/-- An entry of `models.tiers`. -/
structure ModelTier where
  model : String
  provider : Option String := none
  deriving DecidableEq, Repr

/-- A route, a rung of an escalation ladder or the assignment of a role. -/
structure TierRoute where
  tier : String
  effort : Effort
  deriving DecidableEq, Repr

/-- What reading `tiers[name]` gives, with the two fields that are read of it. -/
structure TierFields where
  model : Option String := none
  provider : Option String := none
  deriving DecidableEq, Repr

/-- The names that a plain object has without an entry of its own. None of their values has a
`model` or a `provider`. -/
def inheritedNames : List String :=
  ["constructor", "hasOwnProperty", "isPrototypeOf", "propertyIsEnumerable", "toLocaleString",
    "toString", "valueOf", "__proto__", "__defineGetter__", "__defineSetter__",
    "__lookupGetter__", "__lookupSetter__"]

structure ModelsConfig where
  providers : List (String × ModelProvider) := []
  tiers : List (String × ModelTier)
  routes : List (Complexity × TierRoute) := []
  escalation : List (Complexity × List TierRoute) := []
  roles : List (AgentRole × TierRoute) := []
  analyzer : TierRoute
  reviewer : TierRoute
  deriving DecidableEq, Repr

/-- `models.tiers[name]`: the entry of this name, or what every object inherits. -/
def ModelsConfig.tier (models : ModelsConfig) (name : String) : Option TierFields :=
  match models.tiers.lookup name with
  | some entry => some ⟨some entry.model, entry.provider⟩
  | none => if inheritedNames.contains name then some {} else none

/-- Only an entry names a provider. -/
theorem ModelsConfig.tier_provider (models : ModelsConfig) (name : String) :
    (models.tier name).bind (·.provider) = (models.tiers.lookup name).bind (·.provider) := by
  unfold ModelsConfig.tier
  cases models.tiers.lookup name with
  | some entry => rfl
  | none =>
      dsimp only
      split <;> rfl

/-- `agents.runner.kind`, an enumeration over the known adapter kinds. -/
inductive RunnerKind
  | codexCli | cli
  deriving DecidableEq, Repr

def RunnerKind.text : RunnerKind → String
  | .codexCli => "codex-cli"
  | .cli => "cli"

structure RunnerTimeouts where
  analysis : Nat := 20
  implementation : Nat := 60
  fix : Nat := 45
  review : Nat := 20
  deriving DecidableEq, Repr

structure RunnerConfig where
  kind : RunnerKind := .codexCli
  executable : Option String := none
  environment : List String := []
  timeoutMinutes : RunnerTimeouts := {}
  deriving DecidableEq, Repr

structure AgentsConfig where
  runner : RunnerConfig
  documentationRoot : Option String := none
  deriving DecidableEq, Repr

structure QualityConfig where
  checks : List String := []
  environment : List String := []
  documentation : List String := []
  deriving DecidableEq, Repr

structure ExecutionConfig where
  prepareWorkspaces : Bool := false
  runAgents : Bool := false
  deliver : Bool := false
  deriving DecidableEq, Repr

structure SandboxConfig where
  kind : SandboxKind := .none
  executable : String := "/usr/bin/bwrap"
  readOnlyPaths : List String := ["/usr", "/etc", "/opt", "/run/systemd/resolve"]
  writablePaths : List String := []
  maskedPaths : List String := ["/etc/ai-orchestrator"]
  deriving DecidableEq, Repr

/-- The fields that `configSchema` relates to each other, and those that routing reads;
of `workspace` and `delivery`, whether the block is there. -/
structure OrchestratorConfig where
  timezone : String
  leaseDurationSeconds : Nat := 300
  heartbeatIntervalSeconds : Nat := 60
  execution : ExecutionConfig := {}
  hasWorkspace : Bool := false
  repositories : List (RepositoryName × QualityConfig) := []
  agents : Option AgentsConfig := none
  hasDelivery : Bool := false
  sandbox : SandboxConfig := {}
  runnerScratchHours : Nat := 24
  models : ModelsConfig
  maxImplementationAttempts : Nat := 4
  deriving DecidableEq, Repr

structure ResolvedProvider where
  aliasName : String
  kind : String
  executable : String
  environment : List String
  effort : List (Effort × String)
  cli : Option CliTransport := none
  legacy : Bool
  deriving DecidableEq, Repr

def ModelProvider.resolved (aliasName : String) (provider : ModelProvider) : ResolvedProvider :=
  { aliasName, kind := provider.kind, executable := provider.executable,
    environment := provider.environment, effort := provider.effort, cli := provider.cli,
    legacy := false }

/-- The provider that the `agents.runner` block stands for. -/
def RunnerConfig.provider (runner : RunnerConfig) (executable : String) : ResolvedProvider :=
  { aliasName := runner.kind.text, kind := runner.kind.text, executable,
    environment := runner.environment, effort := [], legacy := true }

def legacyProviders (config : OrchestratorConfig) : List ResolvedProvider :=
  match config.agents with
  | none => []
  | some agents =>
      match agents.runner.executable with
      | none => []
      | some executable => [agents.runner.provider executable]

/-- The providers in force: the declared ones, or the one of `agents.runner`. -/
def effectiveProviders (config : OrchestratorConfig) : List ResolvedProvider :=
  if config.models.providers.length > 0 then
    config.models.providers.map fun entry => entry.2.resolved entry.1
  else legacyProviders config

def unconfiguredProvider : String := "unconfigured"

/-- The alias that serves a tier; `none` when several providers could. -/
def providerAliasForTier (config : OrchestratorConfig) (tier : String) : Option String :=
  match (config.models.tier tier).bind (·.provider) with
  | some declared => some declared
  | none =>
      match effectiveProviders config with
      | [] => some unconfiguredProvider
      | [provider] => some provider.aliasName
      | _ => none

def providerForTier (config : OrchestratorConfig) (tier : String) : Option ResolvedProvider :=
  (providerAliasForTier config tier).bind fun aliasName =>
    (effectiveProviders config).find? fun provider => provider.aliasName = aliasName

theorem legacyProviders_length (config : OrchestratorConfig) :
    (legacyProviders config).length ≤ 1 := by
  unfold legacyProviders
  split
  · simp
  · split <;> simp

end Orchestrator
