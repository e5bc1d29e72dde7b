import Mathlib.Data.List.Forall2
import Orchestrator.Config.Schema

/-! # Provider registry

The adapters that a configuration needs (`execution/provider-registry.ts`), and how
the roles that write code are served by them.
-/

namespace Orchestrator

/-- Variables every runner process needs. -/
def baseRunnerEnvironment : List String :=
  ["PATH", "HOME", "USER", "LOGNAME", "TMPDIR", "XDG_CONFIG_HOME"]

structure RunnerProcess where
  executable : String
  extraEnvironment : List String
  baseEnvironment : List String
  deriving DecidableEq, Repr

/-- An adapter with its settings. -/
inductive AgentRunner
  | codexCli (process : RunnerProcess)
  | cli (process : RunnerProcess) (effort : List (Effort × String)) (transport : CliTransport)
  deriving DecidableEq, Repr

def createAdapter (provider : ResolvedProvider) : Except String AgentRunner :=
  let shared := ⟨provider.executable, provider.environment, baseRunnerEnvironment⟩
  if provider.kind = "codex-cli" then .ok (.codexCli shared)
  else if provider.kind = "cli" then
    match provider.cli with
    | none => .error
        s!"Provider {provider.aliasName} uses kind cli but declares no command line"
    | some transport => do
        let capabilities ← adapterCapabilitiesOf "cli"
        .ok (.cli shared (resolveEffortMap capabilities provider.effort) transport)
  else .error s!"No adapter implementation for agent runner kind: {provider.kind}"

structure ProviderHandle where
  aliasName : String
  kind : String
  executable : String
  confinement : CommandConfinement
  runner : AgentRunner
  deriving DecidableEq, Repr

def toHandle (config : OrchestratorConfig) (provider : ResolvedProvider) :
    Except String ProviderHandle := do
  let capabilities ← adapterCapabilitiesOf provider.kind
  let runner ← createAdapter provider
  .ok ⟨provider.aliasName, provider.kind, provider.executable,
    effectiveConfinement capabilities config.sandbox.kind, runner⟩

/-- The handles of the registry; an adapter that cannot be built fails it as a whole. -/
def createProviderRegistry (config : OrchestratorConfig) : Except String (List ProviderHandle) := do
  let handles ← (effectiveProviders config).mapM (toHandle config)
  -- The `agents.runner` block, once more.
  if handles.isEmpty then (legacyProviders config).mapM (toHandle config) else .ok handles

/-- The provider that serves a selection: the one it names, else the only one. -/
def forSelection (handles : List ProviderHandle) (selection : ModelSelection) :
    Option ProviderHandle :=
  match handles.find? fun handle => handle.aliasName = selection.provider with
  | some handle => some handle
  | none =>
      match handles with
      | [handle] => some handle
      | _ => none

/-! ## Handles of accepted providers -/

/-- The handle is the one of the provider. -/
structure ProviderHandle.Serves (config : OrchestratorConfig) (provider : ResolvedProvider)
    (handle : ProviderHandle) : Prop where
  aliasName : handle.aliasName = provider.aliasName
  confined : handle.confinement ≠ .none ↔
    config.sandbox.kind = .bubblewrap ∨ provider.kind ≠ "cli"

/-- What `createAdapter` needs of a provider. -/
def ResolvedProvider.Adaptable (provider : ResolvedProvider) : Prop :=
  isAdapterKind provider.kind = true ∧ (provider.kind = "cli" → provider.cli.isSome)

theorem RunsAgents.adaptable {config : OrchestratorConfig} (h : RunsAgents config) :
    ∀ provider ∈ effectiveProviders config, provider.Adaptable := by
  intro provider hprovider
  unfold effectiveProviders at hprovider
  split_ifs at hprovider with hdeclared
  · obtain ⟨entry, hentry, rfl⟩ := List.mem_map.mp hprovider
    exact ⟨h.kindsKnown entry hentry, h.hasTransport entry hentry⟩
  · have hnone : config.models.providers = [] :=
      List.eq_nil_of_length_eq_zero (Nat.eq_zero_of_not_pos hdeclared)
    unfold legacyProviders at hprovider
    split at hprovider
    · cases hprovider
    · next agents hagents =>
        split at hprovider
        · cases hprovider
        · obtain rfl := List.mem_singleton.mp hprovider
          have hkind := h.legacyKind hnone agents hagents
          cases hrunner : agents.runner.kind with
          | cli => exact absurd hrunner hkind
          | codexCli => simp [ResolvedProvider.Adaptable, RunnerConfig.provider, hrunner,
              RunnerKind.text, isAdapterKind_iff]

theorem createAdapter_of_adaptable {provider : ResolvedProvider} (h : provider.Adaptable) :
    ∃ runner, createAdapter provider = .ok runner := by
  obtain ⟨hkind, htransport⟩ := h
  unfold createAdapter
  rcases isAdapterKind_iff.mp hkind with hcodex | hcli
  · exact ⟨_, if_pos hcodex⟩
  · obtain ⟨transport, htransport⟩ := Option.isSome_iff_exists.mp (htransport hcli)
    rw [if_neg (by rw [hcli]; decide), if_pos hcli, htransport]
    exact ⟨_, rfl⟩

theorem toHandle_of_adaptable (config : OrchestratorConfig) {provider : ResolvedProvider}
    (h : provider.Adaptable) :
    ∃ handle, toHandle config provider = .ok handle ∧ handle.Serves config provider := by
  obtain ⟨capabilities, hcapabilities, hconfined⟩ :=
    confinement_of_kind h.1 config.sandbox.kind
  obtain ⟨runner, hrunner⟩ := createAdapter_of_adaptable h
  refine ⟨⟨provider.aliasName, provider.kind, provider.executable,
    effectiveConfinement capabilities config.sandbox.kind, runner⟩, ?_, rfl, hconfined⟩
  rw [toHandle, hcapabilities, hrunner]
  rfl

/-- A map whose every step succeeds, succeeds pointwise. -/
theorem mapM_forall₂ {α β ε : Type} {f : α → Except ε β} {R : α → β → Prop} {items : List α}
    (h : ∀ item ∈ items, ∃ result, f item = .ok result ∧ R item result) :
    ∃ results, items.mapM f = .ok results ∧ List.Forall₂ R items results := by
  induction items with
  | nil => exact ⟨[], rfl, .nil⟩
  | cons item items ih =>
      obtain ⟨result, hresult, hrelated⟩ := h item List.mem_cons_self
      obtain ⟨results, hresults, hall⟩ :=
        ih fun other hother => h other (List.mem_cons_of_mem _ hother)
      refine ⟨result :: results, ?_, .cons hrelated hall⟩
      rw [List.mapM_cons, hresult, hresults]
      rfl

theorem createProviderRegistry_of_runsAgents {config : OrchestratorConfig}
    (h : RunsAgents config) : ∃ handles, createProviderRegistry config = .ok handles ∧
      List.Forall₂ (ProviderHandle.Serves config) (effectiveProviders config) handles := by
  obtain ⟨handles, hhandles, hserve⟩ := mapM_forall₂ fun provider hprovider =>
    toHandle_of_adaptable config (h.adaptable provider hprovider)
  refine ⟨handles, ?_, hserve⟩
  have hsome : handles.isEmpty = false := by
    rw [List.isEmpty_eq_false_iff, ← List.length_pos_iff, ← hserve.length_eq, List.length_pos_iff]
    exact h.hasProvider
  rw [createProviderRegistry, hhandles]
  simp [Bind.bind, Except.bind, hsome]

/-- The first handle with an alias is the one of the first provider with it. -/
theorem find_serves {config : OrchestratorConfig} {providers : List ResolvedProvider}
    {handles : List ProviderHandle}
    (h : List.Forall₂ (ProviderHandle.Serves config) providers handles)
    {aliasName : String} {provider : ResolvedProvider}
    (hprovider : providers.find? (fun provider => provider.aliasName = aliasName) =
      some provider) :
    ∃ handle, handles.find? (fun handle => handle.aliasName = aliasName) = some handle ∧
      handle.Serves config provider := by
  -- Along both lists at once: a handle has the alias of its provider.
  induction h with
  | nil => cases hprovider
  | @cons first handle providers handles hserves _ ih =>
      by_cases halias : first.aliasName = aliasName
      · rw [List.find?_cons_of_pos (by simpa using halias)] at hprovider
        cases hprovider
        refine ⟨handle, List.find?_cons_of_pos ?_, hserves⟩
        simpa [hserves.aliasName] using halias
      · rw [List.find?_cons_of_neg (by simpa using halias)] at hprovider
        obtain ⟨found, hfound, hfoundServes⟩ := ih hprovider
        refine ⟨found, ?_, hfoundServes⟩
        rw [List.find?_cons_of_neg (by simpa [hserves.aliasName] using halias), hfound]

theorem forSelection_serves {config : OrchestratorConfig} {handles : List ProviderHandle}
    (h : List.Forall₂ (ProviderHandle.Serves config) (effectiveProviders config) handles)
    (selection : ModelSelection) {tier : String} {provider : ResolvedProvider}
    (hprovider : providerForTier config tier = some provider)
    (halias : providerAliasForTier config tier = some selection.provider) :
    ∃ handle, forSelection handles selection = some handle ∧ handle.Serves config provider := by
  rw [providerForTier, halias, Option.bind_some] at hprovider
  obtain ⟨handle, hhandle, hserves⟩ := find_serves h hprovider
  exact ⟨handle, by simp only [forSelection, hhandle], hserves⟩

/-! ## Roles that write code -/

def ServedConfined (handles : List ProviderHandle) (selection : ModelSelection) : Prop :=
  ∃ handle, forSelection handles selection = some handle ∧ handle.confinement ≠ .none

/-- Every selection of the implementer, and its reuse by the fixer, is served by a provider
that confines commands. -/
def WriteRolesConfined (config : OrchestratorConfig) : Prop :=
  ∃ handles, createProviderRegistry config = .ok handles ∧
    ∀ complexity (attempt : ℚ) selection,
      escalationStep config complexity attempt = .ok (some selection) →
        ServedConfined handles selection ∧
        ∀ attempts fixing, fixingModel config complexity attempts
            ⟨some selection.tier, some selection.effort.text⟩ = .ok (some fixing) →
          ServedConfined handles fixing

/-- The rungs that the attempts of a task can reach. -/
def attemptedRungs (config : OrchestratorConfig) (complexity : Complexity) : List TierRoute :=
  (escalationLadder config complexity).take config.maxImplementationAttempts

theorem attemptedRungs_reachable {config : OrchestratorConfig} {complexity : Complexity}
    {rung : TierRoute} (h : rung ∈ attemptedRungs config complexity) :
    rung.tier ∈ reachableTiers config :=
  ladder_reachable (List.mem_of_mem_take h)

/-- An attempted rung is selected by its attempt. -/
theorem RunsAgents.selects {config : OrchestratorConfig} (h : RunsAgents config)
    {complexity : Complexity} {rung : TierRoute} (hrung : rung ∈ attemptedRungs config complexity) :
    ∃ attempt selection, escalationStep config complexity attempt =
      .ok (some selection) ∧ providerAliasForTier config rung.tier = some selection.provider := by
  have htier := attemptedRungs_reachable hrung
  obtain ⟨provider, -, halias⟩ := h.provider htier
  obtain ⟨tier, hlookup⟩ := Option.isSome_iff_exists.mp (h.tiersConfigured _ htier)
  obtain ⟨attempt, hattempt⟩ := mem_take_escalationLadder_iff.mp hrung
  refine ⟨attempt, ⟨provider.aliasName, rung.tier, tier.model, rung.effort⟩, ?_, halias⟩
  rw [escalationStep, hattempt]
  simp only [resolveRoute, hlookup, halias]
  rfl

/-- A selection is served by the provider of an attempted rung. -/
theorem servedConfined_iff {config : OrchestratorConfig} {handles : List ProviderHandle}
    (hserve : List.Forall₂ (ProviderHandle.Serves config) (effectiveProviders config) handles)
    {selection : ModelSelection} {tier : String} {provider : ResolvedProvider}
    (hprovider : providerForTier config tier = some provider)
    (halias : providerAliasForTier config tier = some selection.provider) :
    ServedConfined handles selection ↔
      config.sandbox.kind = .bubblewrap ∨ provider.kind ≠ "cli" := by
  obtain ⟨handle, hhandle, hserves⟩ := forSelection_serves hserve _ hprovider halias
  rw [← hserves.confined]
  constructor
  · rintro ⟨other, hother, hconfined⟩
    obtain rfl : handle = other := Option.some.inj (hhandle.symm.trans hother)
    exact hconfined
  · exact fun hconfined => ⟨handle, hhandle, hconfined⟩

/-- The schema checks the providers of named roles only, so what keeps the implementer and
the fixer confined is that no attempted rung is served by an unwrapped `cli` provider. -/
theorem write_roles_confined_iff (validZone : String → Bool) (config : OrchestratorConfig)
    (haccept : AcceptedConfig validZone config) (hrun : config.execution.runAgents = true) :
    WriteRolesConfined config ↔
      config.sandbox.kind = .bubblewrap ∨
        ∀ complexity, ∀ rung ∈ attemptedRungs config complexity,
          ∀ provider ∈ providerForTier config rung.tier, provider.kind ≠ "cli" := by
  have h := haccept.runsAgents hrun
  obtain ⟨handles, hhandles, hserve⟩ := createProviderRegistry_of_runsAgents h
  constructor
  · rintro ⟨handles', hhandles', hconfined⟩
    obtain rfl : handles = handles' := Except.ok.inj (hhandles.symm.trans hhandles')
    refine or_iff_not_imp_left.mpr fun hwrap complexity rung hrung provider hprovider => ?_
    -- Every attempted rung is selected by some attempt, so it is confined.
    obtain ⟨attempt, selection, hselection, halias⟩ := h.selects hrung
    have hserved := (hconfined complexity attempt selection hselection).1
    exact ((servedConfined_iff hserve hprovider halias).mp hserved).resolve_left hwrap
  · intro hcondition
    refine ⟨handles, hhandles, fun complexity attempt selection hselection => ?_⟩
    have hserved : ServedConfined handles selection := by
      obtain ⟨rung, hattempt, hresolved⟩ := escalationStep_eq_some hselection
      have hrung : rung ∈ attemptedRungs config complexity :=
        mem_take_escalationLadder_iff.mpr ⟨attempt, hattempt⟩
      obtain ⟨provider, hprovider, -⟩ := h.provider (attemptedRungs_reachable hrung)
      rw [servedConfined_iff hserve hprovider (resolveRoute_eq_ok hresolved).1]
      exact hcondition.imp_right fun hkinds => hkinds complexity rung hrung provider hprovider
    -- The fixer gets the same selection, hence the same handle.
    refine ⟨hserved, fun attempts fixing hfixing => ?_⟩
    rw [fixingModel_of_recorded hselection] at hfixing
    cases hfixing
    exact hserved

/-- Agents run, on a single unwrapped `cli` client, and no role is pinned to a tier. -/
def clientConfig (sandbox : SandboxKind) : OrchestratorConfig :=
  { timezone := "UTC"
    execution := { prepareWorkspaces := true, runAgents := true }
    hasWorkspace := true
    repositories := [(.academic, { checks := ["test"] })]
    agents := some { runner := {} }
    sandbox := { kind := sandbox }
    models :=
      { providers := [("client",
          { kind := "cli", executable := "/usr/bin/client",
            cli := some { args := ["--schema", "\x7bschema\x7d"] } })]
        tiers := [("luna", ⟨"small", none⟩), ("terra", ⟨"medium", none⟩), ("sol", ⟨"large", none⟩)]
        analyzer := ⟨"terra", .high⟩
        reviewer := ⟨"sol", .high⟩ } }

/-- The first attempt at a medium task runs on the unconfined client. -/
theorem write_role_unconfined :
    AcceptedConfig (fun _ => true) (clientConfig .none) ∧
      (clientConfig .none).execution.runAgents = true ∧
      ¬ WriteRolesConfined (clientConfig .none) := by
  refine ⟨by decide +kernel, rfl, ?_⟩
  rintro ⟨handles, hhandles, hconfined⟩
  have hselection : escalationStep (clientConfig .none) .medium 1 =
      .ok (some ⟨"client", "terra", some "medium", .medium⟩) := rfl
  obtain ⟨handle, hhandle, hsafe⟩ := (hconfined _ _ _ hselection).1
  cases hhandles
  cases hhandle
  exact hsafe rfl

/-- Wrapped in the command sandbox, the same client is confined. -/
theorem write_roles_confined_iff_wrapped :
    AcceptedConfig (fun _ => true) (clientConfig .bubblewrap) ∧
      WriteRolesConfined (clientConfig .bubblewrap) := by
  have haccept : AcceptedConfig (fun _ => true) (clientConfig .bubblewrap) := by decide +kernel
  exact ⟨haccept, (write_roles_confined_iff _ _ haccept rfl).mpr (Or.inl rfl)⟩

end Orchestrator
