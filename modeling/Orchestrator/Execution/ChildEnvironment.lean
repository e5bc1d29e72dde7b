import Orchestrator.Execution.ProviderRegistry

/-! # Environments of child processes

What a model client and a repository command are started with: the allowlists of
`execution/bounded-process.ts`, `execution/adapters/codex-cli.ts`,
`execution/adapters/cli.ts` and `execution/quality-gates.ts`, and the variables that
the command sandbox of `execution/sandbox.ts` overrides.
-/

namespace Orchestrator

/-- `NodeJS.ProcessEnv`: the value of each variable that is set. -/
abbrev ProcessEnv := String → Option String

def emptyEnvironment : ProcessEnv := fun _ => none

/-- Assignment to one variable. -/
def ProcessEnv.set (environment : ProcessEnv) (name value : String) : ProcessEnv :=
  fun other => if other = name then some value else environment other

/-- `{ ...environment, ...entries }`. -/
def ProcessEnv.spread (environment : ProcessEnv) (entries : List (String × String)) : ProcessEnv :=
  entries.foldl (fun environment entry => environment.set entry.1 entry.2) environment

def allowlistedEnvironment (source : ProcessEnv) (names : List String)
    (fixed : List (String × String)) : ProcessEnv :=
  let environment := names.foldl (fun environment name =>
    match source name with
    | none => environment
    | some value => environment.set name value) emptyEnvironment
  environment.spread fixed

def sandboxHome : String := "/sandbox/home"

/-- The variables that `wrap` of the configured sandbox overrides. -/
def SandboxKind.environment : SandboxKind → List (String × String)
  | .none => []
  | .bubblewrap => [("HOME", sandboxHome), ("TMPDIR", "/tmp")]

/-- Variables of the Codex client besides the base ones. -/
def codexEnvironment : List String := ["CODEX_HOME"]

/-- What both adapters set, whatever the orchestrator has. -/
def runnerFixed : List (String × String) := [("LANG", "C.UTF-8"), ("NO_COLOR", "1")]

/-- The environment of one run; `temporary` is the private directory of the run. -/
def AgentRunner.processEnvironment (sandboxKind : SandboxKind) (source : ProcessEnv)
    (temporary : String) : AgentRunner → ProcessEnv
  | .codexCli process =>
      (allowlistedEnvironment source
        (process.baseEnvironment ++ codexEnvironment ++ process.extraEnvironment)
        runnerFixed).spread [("TMPDIR", temporary)]
  | .cli process _ _ =>
      (allowlistedEnvironment source (process.baseEnvironment ++ process.extraEnvironment)
        runnerFixed).spread sandboxKind.environment

def baseCommandEnvironment : List String := ["PATH", "HOME", "USER", "LOGNAME", "TMPDIR", "LANG"]

/-- What `QualityGateRunner` starts every setup and check command of a repository with. -/
def qualityCommandEnvironment (sandboxKind : SandboxKind) (source : ProcessEnv)
    (quality : QualityConfig) : ProcessEnv :=
  (allowlistedEnvironment source (baseCommandEnvironment ++ quality.environment)
    [("CI", "true"), ("NO_COLOR", "1")]).spread sandboxKind.environment

/-! ## What an allowlist lets through -/

theorem ProcessEnv.spread_of_notMem {entries : List (String × String)} {name : String}
    (h : name ∉ entries.map (·.1)) (environment : ProcessEnv) :
    environment.spread entries name = environment name := by
  induction entries generalizing environment with
  | nil => rfl
  | cons entry entries ih =>
      rw [List.map_cons, List.mem_cons, not_or] at h
      obtain ⟨hentry, hrest⟩ := h
      show (environment.set entry.1 entry.2).spread entries name = environment name
      rw [ih hrest]
      exact if_neg hentry

/-- The loop over the allowed names copies exactly these. -/
theorem copied_apply (source : ProcessEnv) (names : List String) (environment : ProcessEnv)
    (name : String) :
    names.foldl (fun environment name =>
      match source name with
      | none => environment
      | some value => environment.set name value) environment name =
    if name ∈ names then source name <|> environment name else environment name := by
  induction names generalizing environment with
  | nil => rfl
  | cons first names ih =>
      rw [List.foldl_cons, ih]
      by_cases heq : name = first
      · subst heq
        cases hvalue : source name with
        | none => simp
        | some value => simp [ProcessEnv.set]
      · cases hvalue : source first with
        | none => simp [heq]
        | some value => simp [heq, ProcessEnv.set]

theorem allowlistedEnvironment_apply {fixed : List (String × String)} {name : String}
    (h : name ∉ fixed.map (·.1)) (source : ProcessEnv) (names : List String) :
    allowlistedEnvironment source names fixed name =
      if name ∈ names then source name else none := by
  rw [allowlistedEnvironment, ProcessEnv.spread_of_notMem h, copied_apply]
  simp [emptyEnvironment]

def credentialEnvironment : List String := withheldEnvironment ++ providerCredentialEnvironment

/-- The orchestrator itself neither sets a credential nor allows one. -/
theorem credential_not_own : ∀ name ∈ credentialEnvironment,
    name ∉ baseRunnerEnvironment ++ codexEnvironment ++ baseCommandEnvironment ∧
      name ∉ ["LANG", "NO_COLOR", "CI", "HOME", "TMPDIR"] := by
  decide

def AgentRunner.process : AgentRunner → RunnerProcess
  | .codexCli process => process
  | .cli process _ _ => process

/-- Of the credentials, a run gets those that its provider names. -/
theorem processEnvironment_credential {runner : AgentRunner} {name : String}
    (hbase : runner.process.baseEnvironment = baseRunnerEnvironment)
    (hname : name ∈ credentialEnvironment) (sandboxKind : SandboxKind) (source : ProcessEnv)
    (temporary : String) :
    runner.processEnvironment sandboxKind source temporary name =
      if name ∈ runner.process.extraEnvironment then source name else none := by
  obtain ⟨hallowed, hfixed⟩ := credential_not_own name hname
  simp only [List.mem_append, List.mem_cons, not_or] at hallowed hfixed
  cases runner with
  | codexCli process =>
      have hdirectory : name ∉ [("TMPDIR", temporary)].map (·.1) := by simp [hfixed]
      have hclient : name ∉ runnerFixed.map (·.1) := by simp [runnerFixed, hfixed]
      rw [AgentRunner.processEnvironment, ProcessEnv.spread_of_notMem hdirectory,
        allowlistedEnvironment_apply hclient, show process.baseEnvironment = _ from hbase]
      by_cases hextra : name ∈ process.extraEnvironment
      · simp [hextra, AgentRunner.process]
      · simp [hallowed, hextra, AgentRunner.process]
  | cli process effort transport =>
      have hsandbox : name ∉ sandboxKind.environment.map (·.1) := by
        cases sandboxKind <;> simp [SandboxKind.environment, hfixed]
      have hclient : name ∉ runnerFixed.map (·.1) := by simp [runnerFixed, hfixed]
      rw [AgentRunner.processEnvironment, ProcessEnv.spread_of_notMem hsandbox,
        allowlistedEnvironment_apply hclient, show process.baseEnvironment = _ from hbase]
      by_cases hextra : name ∈ process.extraEnvironment
      · simp [hextra, AgentRunner.process]
      · simp [hallowed, hextra, AgentRunner.process]

/-- Of the credentials, a command gets those that its repository names. -/
theorem qualityCommandEnvironment_credential {name : String}
    (hname : name ∈ credentialEnvironment) (sandboxKind : SandboxKind) (source : ProcessEnv)
    (quality : QualityConfig) :
    qualityCommandEnvironment sandboxKind source quality name =
      if name ∈ quality.environment then source name else none := by
  obtain ⟨hallowed, hfixed⟩ := credential_not_own name hname
  simp only [List.mem_append, List.mem_cons, not_or] at hallowed hfixed
  have hsandbox : name ∉ sandboxKind.environment.map (·.1) := by
    cases sandboxKind <;> simp [SandboxKind.environment, hfixed]
  have hcommand : name ∉ [("CI", "true"), ("NO_COLOR", "1")].map (·.1) := by simp [hfixed]
  rw [qualityCommandEnvironment, ProcessEnv.spread_of_notMem hsandbox,
    allowlistedEnvironment_apply hcommand]
  simp [hallowed]

/-! ## The adapters of a configuration -/

theorem createAdapter_process {provider : ResolvedProvider} {runner : AgentRunner}
    (h : createAdapter provider = .ok runner) :
    runner.process = ⟨provider.executable, provider.environment, baseRunnerEnvironment⟩ := by
  unfold createAdapter at h
  dsimp only at h
  split_ifs at h with hcodex hcli
  · cases h
    rfl
  · cases htransport : provider.cli with
    | none =>
        rw [htransport] at h
        cases h
    | some transport =>
        rw [htransport] at h
        cases h
        rfl

theorem toHandle_process {config : OrchestratorConfig} {provider : ResolvedProvider}
    {handle : ProviderHandle} (h : toHandle config provider = .ok handle) :
    handle.runner.process =
      ⟨provider.executable, provider.environment, baseRunnerEnvironment⟩ := by
  unfold toHandle at h
  cases hcapabilities : adapterCapabilitiesOf provider.kind with
  | error failure =>
      rw [hcapabilities] at h
      cases h
  | ok capabilities =>
      cases hrunner : createAdapter provider with
      | error failure =>
          rw [hcapabilities, hrunner] at h
          cases h
      | ok runner =>
          rw [hcapabilities, hrunner] at h
          cases h
          exact createAdapter_process hrunner

/-- A map that succeeds has succeeded at every step. -/
theorem forall₂_of_mapM {α β ε : Type} {f : α → Except ε β} {items : List α} {results : List β}
    (h : items.mapM f = .ok results) :
    List.Forall₂ (fun item result => f item = .ok result) items results := by
  induction items generalizing results with
  | nil =>
      cases h
      exact .nil
  | cons item items ih =>
      rw [List.mapM_cons] at h
      cases hitem : f item with
      | error failure =>
          rw [hitem] at h
          cases h
      | ok result =>
          cases hitems : items.mapM f with
          | error failure =>
              rw [hitem, hitems] at h
              cases h
          | ok rest =>
              rw [hitem, hitems] at h
              cases h
              exact .cons hitem (ih hitems)

theorem exists_right_of_forall₂ {α β : Type} {R : α → β → Prop} {items : List α} {results : List β}
    (h : List.Forall₂ R items results) {item : α} (hitem : item ∈ items) :
    ∃ result ∈ results, R item result := by
  induction h with
  | nil => cases hitem
  | @cons first result items results hrelated _ ih =>
      rcases List.mem_cons.mp hitem with rfl | hrest
      · exact ⟨result, List.mem_cons_self, hrelated⟩
      · obtain ⟨other, hother, hrelated⟩ := ih hrest
        exact ⟨other, List.mem_cons_of_mem _ hother, hrelated⟩

theorem createProviderRegistry_handles {config : OrchestratorConfig}
    {handles : List ProviderHandle} (h : createProviderRegistry config = .ok handles) :
    List.Forall₂ (fun provider handle => toHandle config provider = .ok handle)
      (effectiveProviders config) handles := by
  unfold createProviderRegistry at h
  cases hbuilt : (effectiveProviders config).mapM (toHandle config) with
  | error failure =>
      rw [hbuilt] at h
      cases h
  | ok built =>
      rw [hbuilt] at h
      have hall := forall₂_of_mapM hbuilt
      cases built with
      | cons first built =>
          cases h
          exact hall
      | nil =>
          -- No provider is in force, so the `agents.runner` block is none either.
          have hnone : effectiveProviders config = [] := List.forall₂_nil_right_iff.mp hall
          have hlegacy : legacyProviders config = [] := by
            unfold effectiveProviders at hnone
            split_ifs at hnone with hdeclared
            · rw [List.map_eq_nil_iff] at hnone
              simp [hnone] at hdeclared
            · exact hnone
          simp only [Bind.bind, Except.bind, List.isEmpty_nil, if_true, hlegacy] at h
          cases h
          exact hall

theorem mem_effectiveProviders_of_declared {config : OrchestratorConfig}
    {entry : String × ModelProvider} (h : entry ∈ config.models.providers) :
    entry.2.resolved entry.1 ∈ effectiveProviders config := by
  rw [effectiveProviders, if_pos (List.length_pos_of_mem h)]
  exact List.mem_map_of_mem h

/-- A provider in force is declared, or the one of the `agents.runner` block. -/
theorem environment_of_effectiveProvider {config : OrchestratorConfig}
    {provider : ResolvedProvider} (h : provider ∈ effectiveProviders config) :
    (∃ entry ∈ config.models.providers, provider.environment = entry.2.environment) ∨
      ∃ agents, config.agents = some agents ∧
        provider.environment = agents.runner.environment := by
  unfold effectiveProviders at h
  split_ifs at h with hdeclared
  · obtain ⟨entry, hentry, rfl⟩ := List.mem_map.mp h
    exact Or.inl ⟨entry, hentry, rfl⟩
  · unfold legacyProviders at h
    split at h
    · cases h
    · next agents hagents =>
        split at h
        · cases h
        · obtain rfl := List.mem_singleton.mp h
          exact Or.inr ⟨agents, hagents, rfl⟩

/-! ## Accepted configurations -/

theorem exposureFindings_eq_nil_iff {path : List PathItem} {names withheld : List String} :
    exposureFindings path names withheld = [] ↔ ∀ name ∈ withheld, name ∉ names := by
  rw [exposureFindings, List.map_eq_nil_iff, List.filter_eq_nil_iff]
  constructor
  · intro h name hwithheld hname
    exact h name hname (by simpa using hwithheld)
  · intro h name hname hwithheld
    exact h name (by simpa using hwithheld) hname

/-- What the exposure checks cover: the legacy block and the repositories. -/
structure ExposuresChecked (config : OrchestratorConfig) : Prop where
  legacy : ∀ agents ∈ config.agents, ∀ name ∈ withheldEnvironment,
    name ∉ agents.runner.environment
  repositories : ∀ entry ∈ config.repositories, ∀ name ∈ credentialEnvironment,
    name ∉ entry.2.environment

theorem AcceptedConfig.exposuresChecked {validZone : String → Bool} {config : OrchestratorConfig}
    (h : AcceptedConfig validZone config) : ExposuresChecked config := by
  simp only [AcceptedConfig, configFindings, List.append_eq_nil_iff] at h
  obtain ⟨⟨_, henvironment⟩, _⟩ := h
  rw [environmentFindings, List.append_eq_nil_iff, List.flatMap_eq_nil_iff] at henvironment
  obtain ⟨hlegacy, hrepositories⟩ := henvironment
  constructor
  · intro agents hagents
    rw [Option.mem_def.mp hagents] at hlegacy
    exact exposureFindings_eq_nil_iff.mp hlegacy
  · intro entry hentry
    exact exposureFindings_eq_nil_iff.mp (hrepositories entry hentry)

/-- A declared provider has its adapter, whether agents run or not. -/
theorem AcceptedConfig.declaredAdaptable {validZone : String → Bool} {config : OrchestratorConfig}
    (h : AcceptedConfig validZone config) {entry : String × ModelProvider}
    (hentry : entry ∈ config.models.providers) : (entry.2.resolved entry.1).Adaptable := by
  simp only [AcceptedConfig, configFindings, List.append_eq_nil_iff] at h
  obtain ⟨⟨⟨⟨⟨_, hproviders⟩, _⟩, _⟩, _⟩, _⟩ := h
  rw [List.flatMap_eq_nil_iff] at hproviders
  exact providerFindings_eq_nil (hproviders entry hentry)

/-- Declared providers are all built. -/
theorem AcceptedConfig.registryBuilt {validZone : String → Bool} {config : OrchestratorConfig}
    (h : AcceptedConfig validZone config) {entry : String × ModelProvider}
    (hentry : entry ∈ config.models.providers) :
    ∃ handles, createProviderRegistry config = .ok handles ∧
      ∃ handle ∈ handles, toHandle config (entry.2.resolved entry.1) = .ok handle := by
  have hdeclared : effectiveProviders config =
      config.models.providers.map fun entry => entry.2.resolved entry.1 := by
    rw [effectiveProviders, if_pos (List.length_pos_of_mem hentry)]
  have hbuild : ∀ provider ∈ effectiveProviders config, ∃ handle,
      toHandle config provider = .ok handle ∧ handle.Serves config provider := by
    intro provider hprovider
    rw [hdeclared] at hprovider
    obtain ⟨other, hother, rfl⟩ := List.mem_map.mp hprovider
    exact toHandle_of_adaptable config (h.declaredAdaptable hother)
  obtain ⟨handles, hhandles, _⟩ := mapM_forall₂ hbuild
  obtain ⟨handle, hhandle, hbuilt⟩ := exists_right_of_forall₂ (forall₂_of_mapM hhandles)
    (mem_effectiveProviders_of_declared hentry)
  refine ⟨handles, ?_, handle, hhandle, hbuilt⟩
  rw [createProviderRegistry, hhandles]
  have hsome : handles.isEmpty = false := by
    rw [List.isEmpty_eq_false_iff]
    exact List.ne_nil_of_mem hhandle
  simp [Bind.bind, Except.bind, hsome]

/-- Agents get no credential of the orchestrator, and repository commands no credential at
all. -/
structure CredentialsWithheld (config : OrchestratorConfig) (source : ProcessEnv) : Prop where
  agents : ∀ handles, createProviderRegistry config = .ok handles → ∀ handle ∈ handles,
    ∀ temporary, ∀ name ∈ withheldEnvironment,
      handle.runner.processEnvironment config.sandbox.kind source temporary name = none
  commands : ∀ entry ∈ config.repositories, ∀ name ∈ credentialEnvironment,
    qualityCommandEnvironment config.sandbox.kind source entry.2 name = none

/-- The allowlists of declared providers are the one place that no check covers, so what
keeps agents from the credentials is that no such list names one that is set. -/
theorem credentials_withheld_iff (validZone : String → Bool) (config : OrchestratorConfig)
    (haccept : AcceptedConfig validZone config) (source : ProcessEnv) :
    CredentialsWithheld config source ↔
      ∀ entry ∈ config.models.providers, ∀ name ∈ entry.2.environment,
        name ∈ withheldEnvironment → source name = none := by
  have hchecked := haccept.exposuresChecked
  have hcredential : ∀ name ∈ withheldEnvironment, name ∈ credentialEnvironment := by
    intro name hname
    exact List.mem_append_left _ hname
  constructor
  -- The handle of the provider hands on what its list names.
  · intro h entry hentry name hlisted hname
    obtain ⟨handles, hhandles, handle, hhandle, hbuilt⟩ := haccept.registryBuilt hentry
    have hprocess := toHandle_process hbuilt
    have hnone := h.agents handles hhandles handle hhandle "" name hname
    rw [processEnvironment_credential (by rw [hprocess]) (hcredential name hname), hprocess,
      if_pos (show name ∈ (entry.2.resolved entry.1).environment from hlisted)] at hnone
    exact hnone
  · intro hcondition
    constructor
    · intro handles hhandles handle hhandle temporary name hname
      obtain ⟨provider, hprovider, hbuilt⟩ := exists_right_of_forall₂
        (createProviderRegistry_handles hhandles).flip hhandle
      have hprocess := toHandle_process hbuilt
      rw [processEnvironment_credential (by rw [hprocess]) (hcredential name hname), hprocess]
      show (if name ∈ provider.environment then source name else none) = none
      -- A declared list is the condition; the other lists were checked.
      rcases environment_of_effectiveProvider hprovider with
        ⟨entry, hentry, hequal⟩ | ⟨agents, hagents, hequal⟩
      · by_cases hlisted : name ∈ entry.2.environment
        · rw [hequal, if_pos hlisted]
          exact hcondition entry hentry name hlisted hname
        · rw [hequal, if_neg hlisted]
      · rw [hequal, if_neg (hchecked.legacy agents hagents name hname)]
    · intro entry hentry name hname
      rw [qualityCommandEnvironment_credential hname,
        if_neg (hchecked.repositories entry hentry name hname)]

/-- The client of `clientConfig` with one variable allowed. -/
def exposingConfig (allowed : String) : OrchestratorConfig :=
  let config := clientConfig .bubblewrap
  { config with models := { config.models with
      providers := config.models.providers.map fun entry =>
        (entry.1, { entry.2 with environment := [allowed] }) } }

def databaseEnvironment : ProcessEnv := emptyEnvironment.set "DATABASE_URL" "postgres://db"

/-- A declared client may be given the database URL. -/
theorem credentials_not_withheld :
    AcceptedConfig (fun _ => true) (exposingConfig "DATABASE_URL") ∧
      ¬ CredentialsWithheld (exposingConfig "DATABASE_URL") databaseEnvironment := by
  refine ⟨by decide +kernel, ?_⟩
  intro h
  have hnone := h.agents _ rfl _ List.mem_cons_self "/tmp" "DATABASE_URL" (by decide)
  have hset : ¬ (some "postgres://db" : Option String) = none := by simp
  exact hset hnone

/-- A client that is allowed its own key gets no credential of the orchestrator. -/
theorem credentials_withheld_iff_own_key :
    CredentialsWithheld (exposingConfig "ANTHROPIC_API_KEY") databaseEnvironment :=
  (credentials_withheld_iff (fun _ => true) _ (by decide +kernel) _).mpr (by decide +kernel)

end Orchestrator
