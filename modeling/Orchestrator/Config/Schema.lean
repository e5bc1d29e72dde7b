import Mathlib.Data.List.Infix
import Orchestrator.Routing.EscalationPolicy

/-! # Accepted configurations

The cross-field checks of `configSchema` (`config/schema.ts`), in their order, with
the placeholder rules of `execution/adapters/cli-contract.ts`. The checks of single
fields (name patterns, number ranges, absolute paths) have no counterpart: nothing
below reads them again.
-/

namespace Orchestrator

/-! ## Command lines of `cli` providers -/

def cliPlaceholders : List String :=
  ["\x7bmodel\x7d", "\x7beffort\x7d", "\x7bschema\x7d", "\x7bschemaFile\x7d",
    "\x7bresultFile\x7d", "\x7btaskDirectory\x7d", "\x7bprompt\x7d"]

def isAsciiLetter (char : Char) : Bool :=
  ('a' ≤ char && char ≤ 'z') || ('A' ≤ char && char ≤ 'Z')

def isAsciiAlphanumeric (char : Char) : Bool := isAsciiLetter char || ('0' ≤ char && char ≤ '9')

/-- The placeholder that starts behind an opening brace. -/
def placeholderAfterBrace (rest : List Char) : Option String :=
  let name := rest.takeWhile isAsciiAlphanumeric
  match name, rest.drop name.length with
  | first :: _, '\x7d' :: _ =>
      if isAsciiLetter first then some (String.ofList ('\x7b' :: name ++ ['\x7d'])) else none
  | _, _ => none

/-- A placeholder holds no further brace, so the search may go on inside of it. -/
def placeholdersIn : List Char → List String
  | [] => []
  | char :: rest =>
      (if char = '\x7b' then (placeholderAfterBrace rest).toList else []) ++ placeholdersIn rest

def cliPlaceholdersIn (argument : String) : List String := placeholdersIn argument.toList

/-- `text.includes(part)`. -/
def includes (text part : String) : Bool := text.toList.tails.any part.toList.isPrefixOf

theorem includes_iff {text part : String} :
    includes text part = true ↔ part.toList <:+: text.toList := by
  unfold includes
  simp only [List.any_eq_true, List.mem_tails, List.isPrefixOf_iff_prefix]
  constructor
  · rintro ⟨tail, hsuffix, hprefix⟩
    exact hprefix.isInfix.trans hsuffix.isInfix
  · rintro ⟨before, afterwards, heq⟩
    refine ⟨part.toList ++ afterwards, ⟨before, ?_⟩, List.prefix_append _ _⟩
    rw [← heq, List.append_assoc]

theorem includes_eq_false_iff {text part : String} :
    includes text part = false ↔ ¬ part.toList <:+: text.toList := by
  rw [← includes_iff, Bool.not_eq_true]

def argumentFindings (path : List PathItem) : Nat → List String → List SchemaIssue
  | _, [] => []
  | index, argument :: arguments =>
      ((cliPlaceholdersIn argument).filter (!cliPlaceholders.contains ·)).map (fun placeholder =>
        ⟨path ++ [.field "args", .index index],
          s!"uses unknown placeholder {placeholder}; supported placeholders are " ++
            ", ".intercalate cliPlaceholders⟩) ++
      argumentFindings path (index + 1) arguments

def transportFindings (path : List PathItem) (cli : CliTransport) : List SchemaIssue :=
  let args := " ".intercalate cli.args
  argumentFindings path 0 cli.args ++
  issueIf (cli.prompt = .argument && !includes args "\x7bprompt\x7d") (path ++ [.field "prompt"])
    "is argument, so one args entry must contain the \x7bprompt\x7d placeholder" ++
  issueIf (cli.prompt = .stdin && includes args "\x7bprompt\x7d") (path ++ [.field "prompt"])
    "is stdin, so no args entry may contain the \x7bprompt\x7d placeholder" ++
  issueIf (cli.resultSource = .file && !includes args "\x7bresultFile\x7d")
    (path ++ [.field "result", .field "source"])
    ("is file, so one args entry must contain the \x7bresultFile\x7d placeholder to tell the " ++
      "client where to write it") ++
  issueIf (!includes args "\x7bschema\x7d" && !includes args "\x7bschemaFile\x7d")
    (path ++ [.field "args"])
    ("must pass the result schema to the client, through the \x7bschema\x7d or " ++
      "\x7bschemaFile\x7d placeholder")

def providerFindings (entry : String × ModelProvider) : List SchemaIssue :=
  let path := [.field "models", .field "providers", .field entry.1]
  let provider := entry.2
  if !isAdapterKind provider.kind then
    let known := ", ".intercalate adapterKinds
    [⟨path ++ [.field "kind"], s!"must be a known agent runner kind: {known}"⟩]
  else if provider.kind ≠ "cli" then
    issueIf provider.cli.isSome (path ++ [.field "cli"])
      (s!"is only used by the cli transport, and this provider uses kind {provider.kind}, " ++
        "whose command line is fixed by its adapter")
  else match provider.cli with
    | none => [⟨path ++ [.field "cli"],
        "is required for kind cli, because only the operator knows how to invoke this model " ++
          "client"⟩]
    | some cli => transportFindings (path ++ [.field "cli"]) cli

/-! ## Routing -/

/-- Every tier that routing can reach. -/
def reachableTiers (config : OrchestratorConfig) : List String :=
  (complexityValues.flatMap (fun complexity =>
      (routingFor config complexity).tier :: (escalationLadder config complexity).map (·.tier)) ++
    [config.models.analyzer.tier, config.models.reviewer.tier] ++
    config.models.roles.map (·.2.tier)).eraseDups

def tierConfigured (config : OrchestratorConfig) (tier : String) : Bool :=
  (config.models.tier tier).isSome

def ambiguityFindings (config : OrchestratorConfig) : List SchemaIssue :=
  if config.models.providers.length > 1 then
    ((reachableTiers config).filter fun tier =>
        tierConfigured config tier &&
          ((config.models.tier tier).bind (·.provider)).isNone).map fun tier =>
      ⟨[.field "models", .field "tiers", .field tier, .field "provider"],
        "must name a provider because more than one provider is configured (" ++
          ", ".intercalate (config.models.providers.map (·.1)) ++ ")"⟩
  else []

structure RoleAssignment where
  path : List PathItem
  role : AgentRole
  tier : String

/-- The roles whose tiers the configuration names. -/
def roleAssignments (config : OrchestratorConfig) : List RoleAssignment :=
  [⟨[.field "models", .field "analyzer", .field "tier"], .analyzer, config.models.analyzer.tier⟩,
    ⟨[.field "models", .field "reviewer", .field "tier"], .reviewer,
      config.models.reviewer.tier⟩] ++
  config.models.roles.map fun entry =>
    ⟨[.field "models", .field "roles", .field entry.1.text, .field "tier"], entry.1, entry.2.tier⟩

def declaredConfinement (config : OrchestratorConfig) (kind : String) : CommandConfinement :=
  match adapterCapabilitiesOf kind with
  | .ok capabilities => effectiveConfinement capabilities config.sandbox.kind
  | .error _ => .none

/-- The capability contract of one assignment. -/
def capabilityFindings (config : OrchestratorConfig) (assignment : RoleAssignment) :
    List SchemaIssue :=
  -- The implementer and the fixer write code; they are assigned only when pinned.
  if !tierConfigured config assignment.tier || !writeRoles.contains assignment.role then []
  else match providerAliasForTier config assignment.tier with
    | none => []
    | some aliasName =>
        match (effectiveProviders config).find? fun provider => provider.aliasName = aliasName with
        | none => [⟨assignment.path, s!"must reference a configured provider alias: {aliasName}"⟩]
        | some provider =>
            issueIf (declaredConfinement config provider.kind = .none) assignment.path
              (s!"stage {assignment.role.text} writes code, so provider {provider.aliasName} " ++
                s!"(kind {provider.kind}) must confine commands: use a provider with a command " ++
                "sandbox, or one the bubblewrap command sandbox can wrap")

/-- The tiers that the fixed roles, the pinned roles and the tiers themselves refer to. -/
def referenceFindings (config : OrchestratorConfig) : List SchemaIssue :=
  let unknownTier := fun tier => s!"must reference a configured model tier: {tier}"
  issueIf (!tierConfigured config config.models.analyzer.tier)
    [.field "models", .field "analyzer", .field "tier"]
    (unknownTier config.models.analyzer.tier) ++
  issueIf (!tierConfigured config config.models.reviewer.tier)
    [.field "models", .field "reviewer", .field "tier"]
    (unknownTier config.models.reviewer.tier) ++
  config.models.roles.flatMap (fun entry =>
    issueIf (!tierConfigured config entry.2.tier)
      [.field "models", .field "roles", .field entry.1.text, .field "tier"]
      (unknownTier entry.2.tier)) ++
  config.models.tiers.flatMap fun entry =>
    match entry.2.provider with
    | none => []
    | some aliasName =>
        issueIf (!(config.models.providers.map (·.1)).contains aliasName)
          [.field "models", .field "tiers", .field entry.1, .field "provider"]
          s!"must reference a configured provider alias: {aliasName}"

/-! ## Stages, agents and hosts -/

def workspaceFindings (config : OrchestratorConfig) : List SchemaIssue :=
  if config.execution.prepareWorkspaces then
    issueIf (!config.hasWorkspace) [.field "workspace"]
      "is required when orchestrator.execution.prepareWorkspaces is true" ++
    issueIf config.repositories.isEmpty [.field "repositories"]
      ("must register at least one repository when orchestrator.execution.prepareWorkspaces " ++
        "is true")
  else []

def runnerExecutable (config : OrchestratorConfig) : Option String :=
  config.agents.bind (·.runner.executable)

def agentFindings (config : OrchestratorConfig) : List SchemaIssue :=
  if config.execution.runAgents then
    issueIf (!config.execution.prepareWorkspaces)
      [.field "orchestrator", .field "execution", .field "prepareWorkspaces"]
      "must be true when orchestrator.execution.runAgents is true" ++
    issueIf config.agents.isNone [.field "agents"]
      "is required when orchestrator.execution.runAgents is true" ++
    issueIf ((runnerExecutable config).isNone && (effectiveProviders config).isEmpty)
      [.field "agents", .field "runner", .field "executable"]
      "is required when orchestrator.execution.runAgents is true and models.providers is empty" ++
    issueIf (config.models.providers.isEmpty &&
        config.agents.any fun agents => agents.runner.kind = .cli)
      [.field "agents", .field "runner", .field "kind"]
      ("cannot be cli, because this block has no command line: declare the client under " ++
        "models.providers with a cli block instead") ++
    ((reachableTiers config).filter (!tierConfigured config ·)).map (fun tier =>
      ⟨[.field "models", .field "tiers"],
        s!"must configure routed model tier {tier} when orchestrator.execution.runAgents is " ++
          "true"⟩) ++
    config.repositories.flatMap fun entry =>
      let path := [.field "repositories", .field entry.1.text, .field "quality"]
      issueIf entry.2.checks.isEmpty (path ++ [.field "checks"])
        "must define at least one check when orchestrator.execution.runAgents is true" ++
      issueIf (!entry.2.documentation.isEmpty &&
          (config.agents.bind (·.documentationRoot)).isNone)
        (path ++ [.field "documentation"]) "requires agents.documentation.root"
  else []

def deliveryFindings (config : OrchestratorConfig) : List SchemaIssue :=
  if config.execution.deliver then
    issueIf (!config.execution.runAgents)
      [.field "orchestrator", .field "execution", .field "runAgents"]
      "must be true when orchestrator.execution.deliver is true" ++
    issueIf (!config.hasDelivery) [.field "delivery"]
      "is required when orchestrator.execution.deliver is true"
  else []

def longestRunnerMinutes (config : OrchestratorConfig) : Nat :=
  match config.agents with
  | none => 0
  | some agents =>
      let minutes := agents.runner.timeoutMinutes
      max (max minutes.analysis minutes.implementation) (max minutes.fix minutes.review)

def isLineTerminator (char : Char) : Bool :=
  char = '\n' || char = '\r' || char = '\u2028' || char = '\u2029'

/-- A directory, or any one-line path below it. -/
def isOrIsBelow (directory path : List Char) : Bool :=
  path = directory ||
    ((directory ++ ['/']).isPrefixOf path &&
      !(path.drop (directory.length + 1)).any isLineTerminator)

/-- The alternatives of the pattern, between its leading and its trailing slash. -/
def isHostDirectory (path : List Char) : Bool :=
  path.isEmpty || path = "home".toList ||
  ("home/".toList.isPrefixOf path && path.length > 5 && !(path.drop 5).contains '/') ||
  path = "root".toList || isOrIsBelow "proc".toList path ||
  isOrIsBelow "run/credentials".toList path

/-- The entry matches the pattern of paths that hold credentials. -/
def exposesHost (entry : String) : Bool :=
  match entry.toList with
  | '/' :: path =>
      isHostDirectory path || (path.getLast? = some '/' && isHostDirectory path.dropLast)
  | _ => false

def sandboxFindings (config : OrchestratorConfig) : List SchemaIssue :=
  [("writablePaths", config.sandbox.writablePaths),
    ("readOnlyPaths", config.sandbox.readOnlyPaths)].flatMap fun entry =>
      issueIf (entry.2.any exposesHost) [.field "sandbox", .field entry.1]
        "must not expose /, a whole home directory, /proc, or systemd credentials"

def withheldEnvironment : List String :=
  ["DATABASE_URL", "LINEAR_API_KEY", "ORCHESTRATOR_OPERATOR_TOKEN", "GITHUB_TOKEN", "GH_TOKEN"]

def providerCredentialEnvironment : List String :=
  ["OPENAI_API_KEY", "CODEX_API_KEY", "ANTHROPIC_API_KEY", "CLAUDE_CODE_OAUTH_TOKEN",
    "GEMINI_API_KEY", "GOOGLE_API_KEY", "GROQ_API_KEY", "MISTRAL_API_KEY", "OPENROUTER_API_KEY",
    "DEEPSEEK_API_KEY", "XAI_API_KEY", "AZURE_OPENAI_API_KEY", "AWS_BEARER_TOKEN_BEDROCK",
    "TOGETHER_API_KEY", "PERPLEXITY_API_KEY"]

def exposureFindings (path : List PathItem) (names withheld : List String) : List SchemaIssue :=
  (names.filter withheld.contains).map fun name =>
    ⟨path, s!"must not expose orchestrator credential {name}"⟩

def environmentFindings (config : OrchestratorConfig) : List SchemaIssue :=
  (match config.agents with
    | none => []
    | some agents => exposureFindings [.field "agents", .field "runner", .field "environment"]
        agents.runner.environment withheldEnvironment) ++
  config.repositories.flatMap fun entry =>
    exposureFindings
      [.field "repositories", .field entry.1.text, .field "quality", .field "environment"]
      entry.2.environment (withheldEnvironment ++ providerCredentialEnvironment)

/-! ## The whole schema -/

/-- The `superRefine` of `configSchema`. `validZone` says which names are IANA zones. -/
def configFindings (validZone : String → Bool) (config : OrchestratorConfig) : List SchemaIssue :=
  issueIf (!validZone config.timezone) [.field "timezone"] "must be a valid IANA timezone" ++
  issueIf (config.leaseDurationSeconds < config.heartbeatIntervalSeconds * 2)
    [.field "orchestrator", .field "heartbeatIntervalSeconds"]
    ("must be at most half of leaseDurationSeconds so one missed heartbeat does not expire " ++
      "a lease") ++
  workspaceFindings config ++
  agentFindings config ++
  deliveryFindings config ++
  issueIf (config.runnerScratchHours * 60 ≤ longestRunnerMinutes config)
    [.field "retention", .field "runnerScratchHours"]
    ("must exceed the longest agents.runner.timeoutMinutes so a running agent keeps its scratch " ++
      "directory") ++
  sandboxFindings config ++
  config.models.providers.flatMap providerFindings ++
  ambiguityFindings config ++
  (roleAssignments config).flatMap (capabilityFindings config) ++
  environmentFindings config ++
  referenceFindings config

/-- `validateConfig` accepts the configuration. -/
def AcceptedConfig (validZone : String → Bool) (config : OrchestratorConfig) : Prop :=
  configFindings validZone config = []

instance (validZone : String → Bool) (config : OrchestratorConfig) :
    Decidable (AcceptedConfig validZone config) :=
  inferInstanceAs (Decidable (_ = _))

/-! ## What an accepted configuration guarantees -/

theorem ladder_reachable {config : OrchestratorConfig} {complexity : Complexity}
    {route : TierRoute} (h : route ∈ escalationLadder config complexity) :
    route.tier ∈ reachableTiers config := by
  rw [reachableTiers, List.mem_eraseDups]
  refine List.mem_append_left _ (List.mem_append_left _ (List.mem_flatMap.mpr
    ⟨complexity, mem_complexityValues complexity, List.mem_cons_of_mem _ ?_⟩))
  exact List.mem_map_of_mem h

/-- What running agents relies on. -/
structure RunsAgents (config : OrchestratorConfig) : Prop where
  /-- Some provider is in force. -/
  hasProvider : effectiveProviders config ≠ []
  /-- The `agents.runner` block never stands for a `cli` provider. -/
  legacyKind : config.models.providers = [] → ∀ agents ∈ config.agents, agents.runner.kind ≠ .cli
  tiersConfigured : ∀ tier ∈ reachableTiers config, tierConfigured config tier = true
  kindsKnown : ∀ entry ∈ config.models.providers, isAdapterKind entry.2.kind = true
  hasTransport : ∀ entry ∈ config.models.providers, entry.2.kind = "cli" → entry.2.cli.isSome
  unambiguous : config.models.providers.length > 1 → ∀ tier ∈ reachableTiers config,
    ((config.models.tier tier).bind (·.provider)).isSome
  aliasesKnown : ∀ entry ∈ config.models.tiers, ∀ aliasName ∈ entry.2.provider,
    aliasName ∈ config.models.providers.map (·.1)

theorem providerFindings_eq_nil {entry : String × ModelProvider}
    (h : providerFindings entry = []) :
    isAdapterKind entry.2.kind = true ∧ (entry.2.kind = "cli" → entry.2.cli.isSome) := by
  unfold providerFindings at h
  dsimp only at h
  split_ifs at h with hkind hcli
  · exact ⟨by simpa using hkind, fun heq => absurd heq hcli⟩
  · refine ⟨by simpa using hkind, fun _ => ?_⟩
    cases htransport : entry.2.cli with
    | none => simp [htransport] at h
    | some cli => rfl

theorem agentFindings_eq_nil {config : OrchestratorConfig} (h : agentFindings config = [])
    (hrun : config.execution.runAgents = true) :
    effectiveProviders config ≠ [] ∧
      (config.models.providers = [] → ∀ agents ∈ config.agents, agents.runner.kind ≠ .cli) ∧
      ∀ tier ∈ reachableTiers config, tierConfigured config tier = true := by
  unfold agentFindings at h
  rw [if_pos hrun] at h
  simp only [List.append_eq_nil_iff, issueIf_eq_nil_iff, List.map_eq_nil_iff,
    List.filter_eq_nil_iff] at h
  obtain ⟨⟨⟨⟨⟨_, _⟩, hexecutable⟩, hkind⟩, htiers⟩, _⟩ := h
  refine ⟨?_, ?_, fun tier htier => by simpa using htiers tier htier⟩
  · intro hnone
    simp only [hnone, List.isEmpty_nil, Bool.and_true, Option.isNone_eq_false_iff] at hexecutable
    obtain ⟨executable, hexecutable⟩ := Option.isSome_iff_exists.mp hexecutable
    -- An executable makes the legacy block a provider when none is declared.
    obtain ⟨agents, hagents, hexecutable⟩ := Option.bind_eq_some_iff.mp hexecutable
    have hlegacy : legacyProviders config = [agents.runner.provider executable] := by
      simp [legacyProviders, hagents, hexecutable]
    unfold effectiveProviders at hnone
    split_ifs at hnone with hdeclared
    · rw [List.map_eq_nil_iff] at hnone
      simp [hnone] at hdeclared
    · rw [hlegacy] at hnone
      cases hnone
  · intro hnone agents hagents hcli
    rw [Option.mem_def] at hagents
    simp [hnone, hagents, hcli] at hkind

theorem AcceptedConfig.runsAgents {validZone : String → Bool} {config : OrchestratorConfig}
    (h : AcceptedConfig validZone config) (hrun : config.execution.runAgents = true) :
    RunsAgents config := by
  simp only [AcceptedConfig, configFindings, List.append_eq_nil_iff] at h
  -- Four of the checks matter here; the capability contract is not among them.
  obtain ⟨⟨⟨⟨⟨⟨⟨⟨⟨_, hagents⟩, _⟩, _⟩, _⟩, hproviders⟩, hambiguity⟩, _⟩, _⟩, hreferences⟩ := h
  obtain ⟨hprovider, hlegacy, htiers⟩ := agentFindings_eq_nil hagents hrun
  rw [List.flatMap_eq_nil_iff] at hproviders
  refine ⟨hprovider, hlegacy, htiers,
    fun entry hentry => (providerFindings_eq_nil (hproviders entry hentry)).1,
    fun entry hentry => (providerFindings_eq_nil (hproviders entry hentry)).2, ?_, ?_⟩
  · intro hmany tier htier
    rw [ambiguityFindings, if_pos hmany, List.map_eq_nil_iff, List.filter_eq_nil_iff] at hambiguity
    have hnamed := hambiguity tier htier
    rw [htiers tier htier, Bool.true_and, Option.isNone_iff_eq_none] at hnamed
    exact Option.isSome_iff_ne_none.mpr hnamed
  · intro entry hentry aliasName halias
    simp only [referenceFindings, List.append_eq_nil_iff, List.flatMap_eq_nil_iff] at hreferences
    have hknown := hreferences.2 entry hentry
    rw [Option.mem_def.mp halias] at hknown
    simpa using hknown

/-- An alias of `models.providers` is the alias of a provider in force. -/
theorem mem_aliases_effectiveProviders {config : OrchestratorConfig} {aliasName : String}
    (h : aliasName ∈ config.models.providers.map (·.1)) :
    ∃ provider ∈ effectiveProviders config, provider.aliasName = aliasName := by
  obtain ⟨entry, hentry, rfl⟩ := List.mem_map.mp h
  refine ⟨entry.2.resolved entry.1, ?_, rfl⟩
  rw [effectiveProviders, if_pos (List.length_pos_of_mem hentry)]
  exact List.mem_map_of_mem hentry

/-- With at most one declared provider, the provider in force is the only one. -/
theorem effectiveProviders_length {config : OrchestratorConfig}
    (h : ¬ config.models.providers.length > 1) : (effectiveProviders config).length ≤ 1 := by
  unfold effectiveProviders
  split_ifs
  · rw [List.length_map]
    omega
  · exact legacyProviders_length config

/-- An alias in force resolves to a provider that bears it. -/
theorem providerForTier_of_alias {config : OrchestratorConfig} {tier aliasName : String}
    (halias : providerAliasForTier config tier = some aliasName)
    (hknown : ∃ provider ∈ effectiveProviders config, provider.aliasName = aliasName) :
    ∃ provider, providerForTier config tier = some provider ∧ provider.aliasName = aliasName := by
  obtain ⟨provider, hprovider, heq⟩ := hknown
  have hfound : ((effectiveProviders config).find? fun provider =>
      provider.aliasName = aliasName).isSome := by
    rw [List.find?_isSome]
    exact ⟨provider, hprovider, by simpa using heq⟩
  obtain ⟨found, hfound⟩ := Option.isSome_iff_exists.mp hfound
  refine ⟨found, ?_, by simpa using List.find?_some hfound⟩
  rw [providerForTier, halias, Option.bind_some, hfound]

/-- Every reachable tier is served by a provider in force. -/
theorem RunsAgents.provider {config : OrchestratorConfig} (h : RunsAgents config) {tier : String}
    (htier : tier ∈ reachableTiers config) :
    ∃ provider, providerForTier config tier = some provider ∧
      providerAliasForTier config tier = some provider.aliasName := by
  cases hdeclared : (config.models.tier tier).bind (·.provider) with
  | some aliasName =>
      have halias : providerAliasForTier config tier = some aliasName := by
        rw [providerAliasForTier, hdeclared]
      rw [config.models.tier_provider] at hdeclared
      obtain ⟨entry, hlookup, hentry⟩ := Option.bind_eq_some_iff.mp hdeclared
      obtain ⟨before, after, htiers, _⟩ := List.lookup_eq_some_iff.mp hlookup
      have hmem : (tier, entry) ∈ config.models.tiers := by simp [htiers]
      obtain ⟨provider, hprovider, heq⟩ := providerForTier_of_alias halias
        (mem_aliases_effectiveProviders (h.aliasesKnown _ hmem aliasName hentry))
      exact ⟨provider, hprovider, heq ▸ halias⟩
  | none =>
      -- The tier names no provider, so there is only one to name.
      have hsingle : ¬ config.models.providers.length > 1 := fun hmany => by
        simpa [hdeclared] using h.unambiguous hmany tier htier
      obtain ⟨provider, hprovider⟩ := List.length_eq_one_iff.mp (le_antisymm
        (effectiveProviders_length hsingle) (List.length_pos_iff.mpr h.hasProvider))
      have halias : providerAliasForTier config tier = some provider.aliasName := by
        rw [providerAliasForTier, hdeclared, hprovider]
      refine ⟨provider, ?_, halias⟩
      rw [providerForTier, halias, Option.bind_some, hprovider]
      simp

end Orchestrator
