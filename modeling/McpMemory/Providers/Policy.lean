import McpMemory.Tasks.Record

/-! `provider_policy.py`: the failover between the routes of an agentic task, and the selection of the
provider that a task gets. A provider is any object; what it answers may differ from one call to the next. -/
namespace McpMemory.Providers.Policy

structure ProviderAdmissionDecision where
  allowed : Bool
  reason : Option String
  reasonCategory : Option String
  retryDelaySeconds : Option Int
  errorText : Option String
  callsLastDay : Option Nat
  dailyCallLimit : Option Nat
  callsInWindow : Option Nat
  burstCallLimit : Option Nat
  burstWindowSeconds : Option Int
  deriving DecidableEq, Repr

def plainDecision (allowed : Bool) : ProviderAdmissionDecision :=
  ⟨allowed,none,none,none,none,none,none,none,none,none⟩

structure ProviderSelectionRequest where
  taskName : String
  taskId : Option String
  executionEpoch : Option Int
  workspaceId : Option String
  deriving DecidableEq, Repr

/- What the policy reads of an exception; a delay that is no number is as good as none. -/
structure ProviderError where
  sameRunFailoverEligible : Bool
  retryDelaySeconds : Option Int
  text : String
  deriving DecidableEq, Repr

/- How `run_agent` of a provider ends. What is no `Exception`, a cancellation above all, is not caught. -/
inductive Outcome (ρ : Type) where
  | returned (result : ρ)
  | raised (error : ProviderError)
  | cancelled
  deriving DecidableEq, Repr

/- The attributes that the policy looks for, each `none` where the provider has none to call. The number
is how many such calls came before, so that the answers may change. -/
structure ProviderApi (π ρ : Type) where
  providerKey : π → Option String
  providerName : π → Option String
  modelName : π → Option String
  admissionDecision : π → Option (Nat → Option ProviderAdmissionDecision)
  budgetAvailable : π → Option (Nat → Bool)
  recordsAdmissionSkip : π → Bool
  withUsageContext : π → Option (ProviderSelectionRequest → π)
  withRouteContext : π → Option (String → Bool → π)
  supportsAgentic : π → Option Bool
  runAgent : π → Option (Nat → String → Outcome ρ)

structure AgenticRouteFailoverProvider (π : Type) where
  providers : List π
  routeKeys : List String
  taskName : String
  paired : routeKeys.length = providers.length

variable {π ρ : Type} (api : ProviderApi π ρ)

/- `_is_same_run_failover_eligible_error` -/
def isSameRunFailoverEligibleError (error : ProviderError) : Bool :=
  error.sameRunFailoverEligible || error.retryDelaySeconds.isNone

inductive Ended (ρ : Type) where
  | outcome (outcome : Outcome ρ)
  | indexError
  | agenticProviderNotConfigured
  deriving DecidableEq, Repr

structure Warning where
  taskName : String
  failedRouteKey : String
  nextRouteKey : String
  error : String
  deriving DecidableEq, Repr

structure AgentRun (ρ : Type) where
  calls : List Nat
  warnings : List Warning
  ended : Ended ρ
  deriving DecidableEq, Repr

def AgentRun.after (index : Nat) (warning : Warning) (run : AgentRun ρ) : AgentRun ρ :=
  ⟨index::run.calls,warning::run.warnings,run.ended⟩

section
variable (f : AgenticRouteFailoverProvider π) (prompt : String)

/- The loop of `run_agent`, over the providers from this index on. -/
def runAgentFrom : List π → Nat → Option ProviderError → AgentRun ρ
  | [],_,none => ⟨[],[],.agenticProviderNotConfigured⟩
  | [],_,some lastError => ⟨[],[],.outcome (.raised lastError)⟩
  | provider::rest,index,lastError => match api.runAgent provider with
    | none => runAgentFrom rest (index + 1) lastError
    | some runAgent => match runAgent index prompt with
      | .raised error =>
        if !isSameRunFailoverEligibleError error || decide (f.providers.length - 1 ≤ index) then
          ⟨[index],[],.outcome (.raised error)⟩
        else match f.routeKeys[index]?,f.routeKeys[index + 1]? with
          | some failedRouteKey,some nextRouteKey =>
            (runAgentFrom rest (index + 1) (some error)).after index ⟨f.taskName,failedRouteKey,nextRouteKey,error.text⟩
          | _,_ => ⟨[index],[],.indexError⟩
      | outcome => ⟨[index],[],.outcome outcome⟩

def runAgent : AgentRun ρ := runAgentFrom api f prompt f.providers 0 none

/- The calls that a list of providers can take, with how each would end. -/
def callable : List π → Nat → List (Nat × Outcome ρ)
  | [],_ => []
  | provider::rest,index => match api.runAgent provider with
    | none => callable rest (index + 1)
    | some runAgent => (index,runAgent index prompt)::callable rest (index + 1)

end

/- The next route is tried after this outcome. -/
def FailsOver : Outcome ρ → Prop
  | .raised error => isSameRunFailoverEligibleError error = true
  | _ => False

/- The calls are made in order up to one that decides; only the last of all may have failed over. -/
inductive Decided (run : AgentRun ρ) : List (Nat × Outcome ρ) → Prop where
  | unconfigured (calls : run.calls = []) (ended : run.ended = .agenticProviderNotConfigured) : Decided run []
  | decides (before : List (Nat × Outcome ρ)) (index : Nat) (outcome : Outcome ρ) (after : List (Nat × Outcome ρ))
      (failed : ∀ call ∈ before, FailsOver call.2) (last : FailsOver outcome → after = [])
      (calls : run.calls = (before ++ [(index,outcome)]).map Prod.fst) (ended : run.ended = .outcome outcome) :
      Decided run (before ++ (index,outcome)::after)

variable {api}

theorem callableFrom {prompt : String} {providers : List π} {index : Nat} :
    ∀ call ∈ callable api prompt providers index, index ≤ call.1 := by
  induction providers generalizing index with
  | nil => exact fun _ member => absurd member List.not_mem_nil
  | cons provider rest ih =>
    intro call member
    simp only [callable] at member
    cases found : api.runAgent provider with
    | none =>
      rw [found] at member
      exact Nat.le_of_succ_le (ih call member)
    | some runAgent =>
      rw [found] at member
      rcases List.mem_cons.mp member with rfl | later
      · exact Nat.le_refl index
      · exact Nat.le_of_succ_le (ih call later)

/- No position is called twice. -/
theorem callableOrdered {prompt : String} {providers : List π} {index : Nat} :
    ((callable api prompt providers index).map Prod.fst).Pairwise (· < ·) := by
  induction providers generalizing index with
  | nil => exact List.Pairwise.nil
  | cons provider rest ih =>
    simp only [callable]
    cases api.runAgent provider with
    | none => exact ih
    | some runAgent =>
      refine List.pairwise_cons.mpr ⟨fun later member => ?_,ih⟩
      obtain ⟨call,listed,rfl⟩ := List.mem_map.mp member
      exact callableFrom call listed

theorem decidedLater {run : AgentRun ρ} {calls : List (Nat × Outcome ρ)} {index : Nat} {error : ProviderError} {warning : Warning}
    (eligible : isSameRunFailoverEligibleError error = true) (decided : Decided run calls) (some : calls ≠ []) :
    Decided (run.after index warning) ((index,.raised error)::calls) := by
  cases decided with
  | unconfigured => exact absurd rfl some
  | decides before last outcome after failed final called ended =>
    refine .decides ((index,.raised error)::before) last outcome after (fun call member => ?_) final ?_ ended
    · rcases List.mem_cons.mp member with rfl | old
      · exact eligible
      · exact failed call old
    · simp [AgentRun.after,called]

variable {f : AgenticRouteFailoverProvider π} {prompt : String}

def lastEnded : Option ProviderError → Ended ρ
  | none => .agenticProviderNotConfigured
  | some lastError => .outcome (.raised lastError)

theorem noneCallable {providers : List π} {index : Nat} {lastError : Option ProviderError}
    (none : callable api prompt providers index = []) :
    runAgentFrom api f prompt providers index lastError = ⟨[],[],lastEnded lastError⟩ := by
  induction providers generalizing index with
  | nil => cases lastError <;> rfl
  | cons provider rest ih =>
    simp only [callable] at none
    simp only [runAgentFrom]
    cases found : api.runAgent provider with
    | none =>
      rw [found] at none
      exact ih none
    | some runAgent =>
      rw [found] at none
      cases none

theorem runFromDecided {providers : List π} {index : Nat} {lastError : Option ProviderError}
    (here : index + providers.length = f.providers.length) (some : callable api prompt providers index ≠ []) :
    Decided (runAgentFrom api f prompt providers index lastError) (callable api prompt providers index) := by
  induction providers generalizing index lastError with
  | nil => exact absurd rfl some
  | cons provider rest ih =>
    rw [List.length_cons] at here
    simp only [callable] at some ⊢
    simp only [runAgentFrom]
    cases found : api.runAgent provider with
    | none =>
      rw [found] at some
      exact ih (by omega) some
    | some runAgent =>
      simp only
      cases ended : runAgent index prompt with
      | returned result => exact .decides [] index _ _ (fun _ member => absurd member List.not_mem_nil) False.elim rfl rfl
      | cancelled => exact .decides [] index _ _ (fun _ member => absurd member List.not_mem_nil) False.elim rfl rfl
      | raised error =>
        simp only
        by_cases eligible : isSameRunFailoverEligibleError error = true
        · by_cases final : f.providers.length - 1 ≤ index
          · have empty : rest = [] := List.eq_nil_of_length_eq_zero (by omega)
            rw [if_pos (by simp [final]),empty]
            exact .decides [] index _ _ (fun _ member => absurd member List.not_mem_nil) (fun _ => rfl) rfl rfl
          · have failedKey : index < f.routeKeys.length := by
              rw [f.paired]
              omega
            have nextKey : index + 1 < f.routeKeys.length := by
              rw [f.paired]
              omega
            rw [if_neg (by simp [final,eligible]),List.getElem?_eq_getElem failedKey,List.getElem?_eq_getElem nextKey]
            by_cases later : callable api prompt rest (index + 1) = []
            · rw [later,noneCallable later]
              exact .decides [] index _ _ (fun _ member => absurd member List.not_mem_nil) (fun _ => rfl) rfl rfl
            · exact decidedLater eligible (ih (by omega) later) later
        · rw [if_pos (by simp [eligible])]
          exact .decides [] index _ _ (fun _ member => absurd member List.not_mem_nil) (fun failed => absurd failed eligible) rfl rfl

theorem runDecided : Decided (runAgent api f prompt) (callable api prompt f.providers 0) := by
  by_cases none : callable api prompt f.providers 0 = []
  · rw [runAgent,noneCallable none,none]
    exact .unconfigured rfl rfl
  · exact runFromDecided (Nat.zero_add _) none

theorem callsOrdered : (runAgent api f prompt).calls.Pairwise (· < ·) := by
  have ordered := @callableOrdered _ _ api prompt f.providers 0
  have decided := @runDecided _ _ api f prompt
  generalize callable api prompt f.providers 0 = could at ordered decided
  cases decided with
  | unconfigured calls => exact calls ▸ List.Pairwise.nil
  | decides before index outcome after _ _ calls =>
    rw [calls]
    refine ordered.sublist (List.Sublist.map _ ?_)
    exact (List.Sublist.refl before).append (List.singleton_sublist.mpr List.mem_cons_self)

/- `ProviderRoutingConfig`, what the selection reads of it. -/
structure Routing where
  taskRoutes : List (String × List String)
  taskClasses : List (String × String)
  defaultJsonRoute : List String
  defaultAgenticRoute : List String
  deriving DecidableEq, Repr

structure Bundle (π : Type) where
  agentic : Option π
  json : Option π
  deriving DecidableEq, Repr

structure PolicyEvent where
  taskName : String
  taskId : Option String
  eventKind : String
  warningKind : Option String
  providerKey : Option String
  providerName : Option String
  modelName : Option String
  routeKey : Option String
  candidateRoutes : List String
  reasonCategory : Option String
  reasonCode : Option String
  retryDelaySeconds : Option Int
  warningSuppressed : Bool
  deriving DecidableEq, Repr

structure WarningKey where
  warningKind : String
  taskName : String
  routeKeys : List String
  reason : Option String
  deriving DecidableEq, Repr

/- `ProviderSelectionInputs`, with the warnings that were logged and the clock. -/
structure ProviderSelectionInputs (π : Type) where
  routing : Option Routing
  aiProviderRegistry : List (String × Bundle π)
  providerPolicyEvents : Bool
  warningState : List (WarningKey × Int)
  now : Int

/- One admission check: the provider, the object that is returned if it is admitted, and the decision. -/
structure Check (π : Type) where
  provider : π
  bound : π
  decision : ProviderAdmissionDecision
  deriving DecidableEq, Repr

inductive Note (π : Type) where
  | admissionSkip (provider : π) (decision : ProviderAdmissionDecision)
  | event (event : PolicyEvent)
  | warned (key : WarningKey)
  | noProvider (taskName : String) (preferAgentic : Bool)
  deriving DecidableEq, Repr

inductive Selected (π : Type) where
  | none
  | one (provider : π)
  | failover (provider : AgenticRouteFailoverProvider π)

def Selected.providers : Selected π → List π
  | .none => []
  | .one provider => [provider]
  | .failover provider => provider.providers

structure Selection (π : Type) where
  selected : Selected π
  checks : List (Check π)
  notes : List (Note π)
  warningState : List (WarningKey × Int)

def taskClassDeterministic := "deterministic"
def taskClassCheapJson := "cheap_json"
def taskClassCheapAgentic := "cheap_agentic"
def taskClassPremiumAgentic := "premium_agentic"

def defaultTaskClassByName : List (String × String) :=
  [("ingest-system1",taskClassCheapAgentic),(Tasks.curator,taskClassPremiumAgentic),(Tasks.graphLinker,taskClassCheapJson),
    (Tasks.defragmenter,taskClassCheapJson),(Tasks.factChecker,taskClassDeterministic),(Tasks.projectManager,taskClassDeterministic),
    ("summarize-memory",taskClassDeterministic),(Tasks.sweeper,taskClassDeterministic),(Tasks.conflictDetector,taskClassDeterministic),
    (Tasks.deduplicator,taskClassDeterministic),(Tasks.taxonomist,taskClassCheapJson)]

def runtimeProviderlessTaskNames : List String := [Tasks.conflictDetector,Tasks.deduplicator]

def taskClassForTask (routing : Option Routing) (taskName : String) : String :=
  if runtimeProviderlessTaskNames.contains taskName then taskClassDeterministic
  else ((routing.bind fun routing => routing.taskClasses.lookup taskName).or
    (defaultTaskClassByName.lookup taskName)).getD taskClassCheapJson

def isDeterministicTask (routing : Option Routing) (taskName : String) : Bool :=
  taskClassForTask routing taskName == taskClassDeterministic

def candidateRouteKeysForTask (routing : Option Routing) (registry : List (String × Bundle π)) (taskName : String)
    (preferAgentic : Bool) : List String := match routing with
  | none => []
  | some routing => match routing.taskRoutes.lookup taskName with
    | some route => route
    | none =>
      if preferAgentic && !routing.defaultAgenticRoute.isEmpty then routing.defaultAgenticRoute
      else if !preferAgentic && !routing.defaultJsonRoute.isEmpty then routing.defaultJsonRoute
      else if !preferAgentic && taskName == Tasks.taxonomist then ["copilot-mini"].filter fun key => (registry.lookup key).isSome
      else []

def selectProviderFromBundle (bundle : Bundle π) (preferAgentic : Bool) : Option π :=
  if preferAgentic && bundle.agentic.isSome then bundle.agentic else bundle.json.or bundle.agentic

/- `_has_later_route` -/
def hasLaterRoute (candidateRouteKeys : List String) (routeKey : String) (registry : List (String × Bundle π))
    (preferAgentic : Bool) : Bool :=
  (candidateRouteKeys.dropWhile (· != routeKey)).tail.any fun key =>
    ((registry.lookup key).bind fun bundle => selectProviderFromBundle bundle preferAgentic).isSome

variable (api)

def supportsAgenticExecution (provider : π) : Bool :=
  (api.runAgent provider).isSome && (api.supportsAgentic provider).getD true

def bindProviderContext (request : ProviderSelectionRequest) (provider : π) : π := match api.withUsageContext provider with
  | none => provider
  | some binder => binder request

def bindRouteContext (providerProfile : String) (routeAvailable : Bool) (provider : π) : π := match api.withRouteContext provider with
  | none => provider
  | some binder => binder providerProfile routeAvailable

def budgetAvailable (provider : π) (moment : Nat) : Bool := match api.budgetAvailable provider with
  | none => true
  | some answer => answer moment

def providerAdmissionDecision (provider : π) (moment : Nat) : ProviderAdmissionDecision :=
  ((api.admissionDecision provider).bind fun answer => answer moment).getD (plainDecision (budgetAvailable api provider moment))

def recordAdmissionSkip (recordAdmissionSkips : Bool) (provider : π) (admission : ProviderAdmissionDecision) : List (Note π) :=
  if recordAdmissionSkips && api.recordsAdmissionSkip provider then [.admissionSkip provider admission] else []

def providerWarningMinIntervalSeconds : Int := 600

/- `_log_provider_warning_once`: whether the warning is suppressed, and the state after it. -/
def logProviderWarningOnce (inputs : ProviderSelectionInputs π) (key : WarningKey) : Bool × List (WarningKey × Int) :=
  match inputs.warningState.lookup key with
  | some previousLoggedAt =>
    if inputs.now - previousLoggedAt < providerWarningMinIntervalSeconds then (true,inputs.warningState)
    else (false,(key,inputs.now)::inputs.warningState)
  | none => (false,(key,inputs.now)::inputs.warningState)

/- `_record_provider_policy_event` -/
def recordProviderPolicyEvent (inputs : ProviderSelectionInputs π) (request : ProviderSelectionRequest) (eventKind : String)
    (warningKind : Option String) (provider : Option π) (routeKey : Option String) (candidateRoutes : List String)
    (reason : Option ProviderAdmissionDecision) (warningSuppressed : Bool) : List (Note π) :=
  if inputs.providerPolicyEvents then
    [.event ⟨request.taskName,request.taskId,eventKind,warningKind,provider.bind api.providerKey,provider.bind api.providerName,
      provider.bind api.modelName,routeKey,candidateRoutes,reason.bind (·.reasonCategory),reason.bind (·.reason),
      reason.bind (·.retryDelaySeconds),warningSuppressed⟩]
  else []

/- The variables of the loop over the routes. -/
structure Routes (π : Type) where
  foundRoutedProvider : Bool
  firstRoutedProvider : Option π
  routedAgenticProviders : List (String × π)
  checks : List (Check π)
  notes : List (Note π)

inductive Visited (π : Type) where
  | goOn (routes : Routes π)
  | back (provider : π) (routes : Routes π)

section
variable (inputs : ProviderSelectionInputs π) (request : ProviderSelectionRequest) (preferAgentic recordAdmissionSkips : Bool)
  (candidateRouteKeys : List String)

def boundProvider (routeKey : String) (provider : π) : π :=
  bindRouteContext api routeKey (hasLaterRoute candidateRouteKeys routeKey inputs.aiProviderRegistry preferAgentic)
    (bindProviderContext api request provider)

def visitRoute (routes : Routes π) (routeKey : String) : Visited π :=
  match (inputs.aiProviderRegistry.lookup routeKey).bind fun bundle => selectProviderFromBundle bundle preferAgentic with
  | none => .goOn routes
  | some provider =>
    let bound := boundProvider api inputs request preferAgentic candidateRouteKeys routeKey provider
    let admission := providerAdmissionDecision api provider routes.checks.length
    let found := { routes with foundRoutedProvider := true, checks := routes.checks ++ [⟨provider,bound,admission⟩] }
    let skipped := recordProviderPolicyEvent api inputs request "route_skipped" none (some provider) (some routeKey)
      candidateRouteKeys (some admission) false
    if !admission.allowed then
      .goOn { found with notes := routes.notes ++ recordAdmissionSkip api recordAdmissionSkips bound admission ++ skipped }
    else if routes.firstRoutedProvider.isNone then
      if !preferAgentic || !supportsAgenticExecution api bound then .back bound { found with firstRoutedProvider := some bound }
      else .goOn { found with
        firstRoutedProvider := some bound, routedAgenticProviders := routes.routedAgenticProviders ++ [(routeKey,bound)] }
    else if preferAgentic && supportsAgenticExecution api bound then
      .goOn { found with routedAgenticProviders := routes.routedAgenticProviders ++ [(routeKey,bound)] }
    else .goOn found

def visitRoutes : List String → Routes π → Visited π
  | [],routes => .goOn routes
  | routeKey::rest,routes =>
    match visitRoute api inputs request preferAgentic recordAdmissionSkips candidateRouteKeys routes routeKey with
    | .goOn routes => visitRoutes rest routes
    | .back provider routes => .back provider routes

/- The provider of the task itself, where no route has one. -/
def legacyFallback (provider agenticProvider : Option π) : Selection π :=
  match if preferAgentic then agenticProvider.or provider else provider with
  | none => ⟨.none,[],[.noProvider request.taskName preferAgentic],inputs.warningState⟩
  | some selected =>
    let admission := providerAdmissionDecision api selected 0
    let bound := bindRouteContext api ((api.providerKey selected).getD "legacy") false (bindProviderContext api request selected)
    if !admission.allowed then
      let key : WarningKey := ⟨"legacy_fallback_denied",request.taskName,[],admission.reason⟩
      let logged := logProviderWarningOnce inputs key
      ⟨.none,[⟨selected,bound,admission⟩],
        recordAdmissionSkip api recordAdmissionSkips (bindProviderContext api request selected) admission ++
          (if logged.1 then [] else [.warned key]) ++
          recordProviderPolicyEvent api inputs request "legacy_fallback_denied" (some "legacy_fallback_denied") (some selected) none []
            (some admission) logged.1,logged.2⟩
    else ⟨.one bound,[⟨selected,bound,admission⟩],[],inputs.warningState⟩

/- `AgenticRouteFailoverProvider` of the routes that were found. -/
def failoverProvider (routed : List (String × π)) : AgenticRouteFailoverProvider π :=
  ⟨routed.map Prod.snd,routed.map Prod.fst,request.taskName,by rw [List.length_map,List.length_map]⟩

def selectProviderForRequest (provider agenticProvider : Option π) (agenticTaskNames : List String) : Selection π :=
  let preferAgentic := agenticTaskNames.contains request.taskName
  let candidateRouteKeys := candidateRouteKeysForTask inputs.routing inputs.aiProviderRegistry request.taskName preferAgentic
  if isDeterministicTask inputs.routing request.taskName then ⟨.none,[],[],inputs.warningState⟩
  else match visitRoutes api inputs request preferAgentic recordAdmissionSkips candidateRouteKeys candidateRouteKeys ⟨false,none,[],[],[]⟩ with
  | .back provider routes => ⟨.one provider,routes.checks,routes.notes,inputs.warningState⟩
  | .goOn routes => match routes.firstRoutedProvider with
    | some first =>
      if 1 < routes.routedAgenticProviders.length then
        ⟨.failover (failoverProvider request routes.routedAgenticProviders),routes.checks,routes.notes,inputs.warningState⟩
      else ⟨.one first,routes.checks,routes.notes,inputs.warningState⟩
    | none =>
      if routes.foundRoutedProvider then
        let key : WarningKey := ⟨"routes_exhausted",request.taskName,candidateRouteKeys,none⟩
        let logged := logProviderWarningOnce inputs key
        ⟨.none,routes.checks,routes.notes ++ (if logged.1 then [] else [.warned key]) ++
          recordProviderPolicyEvent api inputs request "route_exhausted" (some "routes_exhausted") none none candidateRouteKeys none logged.1,
          logged.2⟩
      else legacyFallback api inputs request preferAgentic recordAdmissionSkips provider agenticProvider

end

/- The objects of the checks that admitted their provider, in order. -/
def admitted (checks : List (Check π)) : List π := (checks.filter (·.decision.allowed)).map (·.bound)

/- Each check holds the decision of its own moment. -/
def Faithful (checks : List (Check π)) : Prop := ∀ moment check, checks[moment]? = some check →
  check.decision = providerAdmissionDecision api check.provider moment

/- What is selected comes from checks of its own that admitted it, one for each place. -/
structure Admitted (selection : Selection π) : Prop where
  faithful : Faithful api selection.checks
  selected : selection.selected.providers.Sublist (admitted selection.checks)

structure RoutesAdmitted (routes : Routes π) : Prop where
  faithful : Faithful api routes.checks
  first : ∀ provider, routes.firstRoutedProvider = some provider → provider ∈ admitted routes.checks
  routed : (routes.routedAgenticProviders.map Prod.snd).Sublist (admitted routes.checks)

def VisitedAdmitted : Visited π → Prop
  | .goOn routes => RoutesAdmitted api routes
  | .back provider routes => RoutesAdmitted api routes ∧ provider ∈ admitted routes.checks

variable {api}

theorem admittedAppend {checks : List (Check π)} {check : Check π} :
    admitted (checks ++ [check]) = admitted checks ++ if check.decision.allowed then [check.bound] else [] := by
  simp only [admitted,List.filter_append,List.map_append,List.filter_cons,List.filter_nil]
  cases check.decision.allowed <;> rfl

theorem faithfulAppend {checks : List (Check π)} (faithful : Faithful api checks) (provider bound : π) :
    Faithful api (checks ++ [⟨provider,bound,providerAdmissionDecision api provider checks.length⟩]) := by
  intro moment check found
  rcases Nat.lt_trichotomy moment checks.length with before | same | beyond
  · rw [List.getElem?_append_left before] at found
    exact faithful moment check found
  · subst same
    rw [List.getElem?_concat_length] at found
    cases found
    rfl
  · rw [List.getElem?_eq_none (by rw [List.length_append,List.length_singleton]; omega)] at found
    cases found

section
variable {inputs : ProviderSelectionInputs π} {request : ProviderSelectionRequest} {preferAgentic recordAdmissionSkips : Bool}
  {candidateRouteKeys : List String}

theorem visitAdmitted {routes : Routes π} (kept : RoutesAdmitted api routes) (routeKey : String) :
    VisitedAdmitted api (visitRoute api inputs request preferAgentic recordAdmissionSkips candidateRouteKeys routes routeKey) := by
  unfold visitRoute
  cases (inputs.aiProviderRegistry.lookup routeKey).bind fun bundle => selectProviderFromBundle bundle preferAgentic with
  | none => exact kept
  | some provider =>
    simp only
    generalize boundProvider api inputs request preferAgentic candidateRouteKeys routeKey provider = bound
    have faithful := faithfulAppend kept.faithful provider bound
    generalize providerAdmissionDecision api provider routes.checks.length = admission at faithful
    cases allowed : admission.allowed with
    | false =>
      have same : admitted (routes.checks ++ [⟨provider,bound,admission⟩]) = admitted routes.checks := by
        rw [admittedAppend,allowed]
        exact List.append_nil _
      exact ⟨faithful,same ▸ kept.first,same ▸ kept.routed⟩
    | true =>
      have grown : admitted (routes.checks ++ [⟨provider,bound,admission⟩]) = admitted routes.checks ++ [bound] := by
        rw [admittedAppend,allowed]
        rfl
      have own : bound ∈ admitted (routes.checks ++ [⟨provider,bound,admission⟩]) := grown ▸ List.mem_concat_self
      have firsts (other : π) (first : routes.firstRoutedProvider = some other) :
          other ∈ admitted (routes.checks ++ [⟨provider,bound,admission⟩]) :=
        grown ▸ List.mem_append_left _ (kept.first other first)
      have routed : (routes.routedAgenticProviders.map Prod.snd).Sublist (admitted (routes.checks ++ [⟨provider,bound,admission⟩])) :=
        grown ▸ kept.routed.trans (List.sublist_append_left _ _)
      have more : ((routes.routedAgenticProviders ++ [(routeKey,bound)]).map Prod.snd).Sublist
          (admitted (routes.checks ++ [⟨provider,bound,admission⟩])) := by
        rw [grown,List.map_append]
        exact kept.routed.append (List.Sublist.refl _)
      have news (other : π) (first : some bound = some other) : other ∈ admitted (routes.checks ++ [⟨provider,bound,admission⟩]) :=
        Option.some.inj first ▸ own
      simp only [Bool.not_true,Bool.false_eq_true,↓reduceIte]
      cases routes.firstRoutedProvider.isNone with
      | true =>
        cases !preferAgentic || !supportsAgenticExecution api bound with
        | true => exact ⟨⟨faithful,news,routed⟩,own⟩
        | false => exact ⟨faithful,news,more⟩
      | false =>
        cases preferAgentic && supportsAgenticExecution api bound with
        | true => exact ⟨faithful,firsts,more⟩
        | false => exact ⟨faithful,firsts,routed⟩

theorem visitsAdmitted {routeKeys : List String} {routes : Routes π} (kept : RoutesAdmitted api routes) :
    VisitedAdmitted api (visitRoutes api inputs request preferAgentic recordAdmissionSkips candidateRouteKeys routeKeys routes) := by
  induction routeKeys generalizing routes with
  | nil => exact kept
  | cons routeKey rest ih =>
    have visited := @visitAdmitted _ _ api inputs request preferAgentic recordAdmissionSkips candidateRouteKeys routes kept routeKey
    rw [visitRoutes]
    cases visit : visitRoute api inputs request preferAgentic recordAdmissionSkips candidateRouteKeys routes routeKey with
    | goOn after =>
      rw [visit] at visited
      exact ih visited
    | back provider after =>
      rw [visit] at visited
      exact visited

theorem faithfulNone : Faithful api [] := fun _ _ found => absurd found (by simp)

theorem faithfulSingle (provider bound : π) : Faithful api [⟨provider,bound,providerAdmissionDecision api provider 0⟩] :=
  faithfulAppend faithfulNone provider bound

theorem legacyAdmitted (provider agenticProvider : Option π) :
    Admitted api (legacyFallback api inputs request preferAgentic recordAdmissionSkips provider agenticProvider) := by
  unfold legacyFallback
  cases if preferAgentic then agenticProvider.or provider else provider with
  | none => exact ⟨faithfulNone,List.Sublist.refl _⟩
  | some selected =>
    have faithful := @faithfulSingle _ _ api selected
      (bindRouteContext api ((api.providerKey selected).getD "legacy") false (bindProviderContext api request selected))
    simp only
    cases allowed : (providerAdmissionDecision api selected 0).allowed with
    | false => exact ⟨faithful,List.nil_sublist _⟩
    | true =>
      refine ⟨faithful,List.singleton_sublist.mpr ?_⟩
      simp [admitted,allowed]

theorem selectAdmitted (provider agenticProvider : Option π) (agenticTaskNames : List String) :
    Admitted api (selectProviderForRequest api inputs request recordAdmissionSkips provider agenticProvider agenticTaskNames) := by
  unfold selectProviderForRequest
  cases isDeterministicTask inputs.routing request.taskName with
  | true => exact ⟨faithfulNone,List.Sublist.refl _⟩
  | false =>
    simp only [Bool.false_eq_true,↓reduceIte]
    generalize agenticTaskNames.contains request.taskName = preferAgentic
    generalize candidateRouteKeysForTask inputs.routing inputs.aiProviderRegistry request.taskName preferAgentic = candidateRouteKeys
    have visited := @visitsAdmitted _ _ api inputs request preferAgentic recordAdmissionSkips candidateRouteKeys candidateRouteKeys
      ⟨false,none,[],[],[]⟩ ⟨faithfulNone,nofun,List.Sublist.refl _⟩
    cases visits : visitRoutes api inputs request preferAgentic recordAdmissionSkips candidateRouteKeys candidateRouteKeys
        ⟨false,none,[],[],[]⟩ with
    | back provider routes =>
      rw [visits] at visited
      exact ⟨visited.1.faithful,List.singleton_sublist.mpr visited.2⟩
    | goOn routes =>
      rw [visits] at visited
      have kept : RoutesAdmitted api routes := visited
      simp only
      cases first : routes.firstRoutedProvider with
      | some provider =>
        simp only
        split
        · exact ⟨kept.faithful,kept.routed⟩
        · exact ⟨kept.faithful,List.singleton_sublist.mpr (kept.first provider first)⟩
      | none =>
        simp only
        cases routes.foundRoutedProvider with
        | true => exact ⟨kept.faithful,List.nil_sublist _⟩
        | false => exact legacyAdmitted provider agenticProvider

end

/- The calls of a failover go in order through what its providers can be called for and end with the call
that decides; a provider that is selected was admitted by a check of its own. -/
theorem failoverLaw (api : ProviderApi π ρ) :
    (∀ (f : AgenticRouteFailoverProvider π) (prompt : String), Decided (runAgent api f prompt) (callable api prompt f.providers 0) ∧
      (runAgent api f prompt).calls.Pairwise (· < ·)) ∧
    ∀ (inputs : ProviderSelectionInputs π) (request : ProviderSelectionRequest) (recordAdmissionSkips : Bool)
      (provider agenticProvider : Option π) (agenticTaskNames : List String),
      Admitted api (selectProviderForRequest api inputs request recordAdmissionSkips provider agenticProvider agenticTaskNames) :=
  ⟨fun _ _ => ⟨runDecided,callsOrdered⟩,fun _ _ _ provider agenticProvider agenticTaskNames =>
    selectAdmitted provider agenticProvider agenticTaskNames⟩

end McpMemory.Providers.Policy
