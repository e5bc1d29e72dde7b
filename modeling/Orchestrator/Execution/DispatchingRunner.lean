import Orchestrator.Execution.ProviderRegistry

/-! # Dispatching runner

The models of the roles that only read (`roleModel` of `stage-support.ts`), and the
dispatch of a run to the adapter that the routing selected
(`execution/dispatching-runner.ts`).
-/

namespace Orchestrator

/-- The roles that `roleModel` serves. -/
inductive ReadOnlyRole
  | analyzer | reviewer
  deriving DecidableEq, Repr

def ReadOnlyRole.role : ReadOnlyRole → AgentRole
  | .analyzer => .analyzer
  | .reviewer => .reviewer

/-- `config.models[role]`. -/
def ModelsConfig.fixedRoute (models : ModelsConfig) : ReadOnlyRole → TierRoute
  | .analyzer => models.analyzer
  | .reviewer => models.reviewer

def roleModel (config : OrchestratorConfig) (role : ReadOnlyRole) : Except String ModelSelection :=
  let pinned := (config.models.roles.lookup role.role).getD (config.models.fixedRoute role)
  resolveRoute config pinned

/-- `DispatchingAgentRunner.run`: the adapter that gets the request, or the failure that the
stage gets instead. -/
def dispatch (handles : List ProviderHandle) (selection : ModelSelection) :
    Except String AgentRunner :=
  match forSelection handles selection with
  | none =>
      let model := selection.model.getD "undefined"
      .error (s!"No provider serves model selection {selection.provider}/{selection.tier} " ++
        s!"({model})")
  | some handle => .ok handle.runner

/-! ## Routes of an accepted configuration -/

theorem role_reachable (config : OrchestratorConfig) (role : ReadOnlyRole) :
    ((config.models.roles.lookup role.role).getD (config.models.fixedRoute role)).tier ∈
      reachableTiers config := by
  rw [reachableTiers, List.mem_eraseDups]
  cases hpinned : config.models.roles.lookup role.role with
  | none =>
      refine List.mem_append_left _ (List.mem_append_right _ ?_)
      cases role with
      | analyzer => exact List.mem_cons_self
      | reviewer => exact List.mem_cons_of_mem _ List.mem_cons_self
  | some route =>
      apply List.mem_append_right
      obtain ⟨before, after, hroles, _⟩ := List.lookup_eq_some_iff.mp hpinned
      rw [hroles]
      simp

/-- The selection names a provider in force, and the registry finds that very provider. -/
structure Dispatched (config : OrchestratorConfig) (handles : List ProviderHandle)
    (selection : ModelSelection) : Prop where
  inForce : ∃ provider ∈ effectiveProviders config, provider.aliasName = selection.provider
  found : ∃ handle, forSelection handles selection = some handle ∧
    handle.aliasName = selection.provider ∧ dispatch handles selection = .ok handle.runner

/-- A reachable tier resolves, to a selection that is dispatched. -/
theorem RunsAgents.resolves {config : OrchestratorConfig} (h : RunsAgents config)
    {handles : List ProviderHandle}
    (hserve : List.Forall₂ (ProviderHandle.Serves config) (effectiveProviders config) handles)
    {route : TierRoute} (hroute : route.tier ∈ reachableTiers config) :
    ∃ selection, resolveRoute config route = .ok selection ∧
      Dispatched config handles selection := by
  obtain ⟨provider, hprovider, halias⟩ := h.provider hroute
  obtain ⟨tier, htier⟩ := Option.isSome_iff_exists.mp (h.tiersConfigured _ hroute)
  refine ⟨⟨provider.aliasName, route.tier, tier.model, route.effort⟩, ?_, ?_, ?_⟩
  · simp only [resolveRoute, htier, halias]
  · rw [providerForTier, halias, Option.bind_some] at hprovider
    exact ⟨provider, List.mem_of_find?_eq_some hprovider, rfl⟩
  · obtain ⟨handle, hhandle, hserves⟩ := forSelection_serves hserve
      ⟨provider.aliasName, route.tier, tier.model, route.effort⟩ hprovider halias
    refine ⟨handle, hhandle, hserves.aliasName, ?_⟩
    rw [dispatch, hhandle]

/-- Routing never throws, and a run reaches the provider that its selection names. -/
structure RoutingExact (config : OrchestratorConfig) (handles : List ProviderHandle) : Prop where
  escalation : ∀ complexity (attempt : ℚ), ∃ step, escalationStep config complexity attempt =
    .ok step ∧ ∀ selection ∈ step, Dispatched config handles selection
  roles : ∀ role, ∃ selection, roleModel config role = .ok selection ∧
    Dispatched config handles selection

theorem routing_exact (validZone : String → Bool) (config : OrchestratorConfig)
    (haccept : AcceptedConfig validZone config) (hrun : config.execution.runAgents = true) :
    ∃ handles, createProviderRegistry config = .ok handles ∧ RoutingExact config handles := by
  have h := haccept.runsAgents hrun
  obtain ⟨handles, hhandles, hserve⟩ := createProviderRegistry_of_runsAgents h
  refine ⟨handles, hhandles, ?_, ?_⟩
  · intro complexity attempt
    unfold escalationStep
    cases hrung : escalationRung config complexity attempt with
    | none =>
        refine ⟨none, rfl, ?_⟩
        intro selection hselection
        cases hselection
    | some route =>
        -- A rung of the ladder is reachable, whichever attempt it belongs to.
        have hroute : route.tier ∈ reachableTiers config :=
          ladder_reachable (List.mem_of_mem_take
            (mem_take_escalationLadder_iff.mpr ⟨attempt, hrung⟩))
        obtain ⟨selection, hselection, hdispatched⟩ := h.resolves hserve hroute
        refine ⟨some selection, ?_, ?_⟩
        · show (resolveRoute config route).map some = _
          rw [hselection]
          rfl
        · intro other hother
          cases hother
          exact hdispatched
  · intro role
    exact h.resolves hserve (role_reachable config role)

theorem routing_exact_wrapped : ∃ handles,
    createProviderRegistry (clientConfig .bubblewrap) = .ok handles ∧
      RoutingExact (clientConfig .bubblewrap) handles :=
  routing_exact (fun _ => true) (clientConfig .bubblewrap) (by decide +kernel) rfl

/-- The reviewer is sent to a tier that only the prototype of the record knows. -/
def inheritedTierConfig : OrchestratorConfig :=
  { clientConfig .bubblewrap with
    models := { (clientConfig .bubblewrap).models with reviewer := ⟨"constructor", .high⟩ } }

example : AcceptedConfig (fun _ => true) inheritedTierConfig ∧
    roleModel inheritedTierConfig .reviewer =
      .ok ⟨"client", "constructor", none, .high⟩ := by
  decide +kernel

end Orchestrator
