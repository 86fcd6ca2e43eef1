import Dander.GraphStore
import Dander.RunTransitions
import Mathlib.Data.List.MinMax
import Mathlib.Data.List.Sort
import Mathlib.Data.Prod.Lex
import Mathlib.Data.String.Basic

/-!
# Choosing the execution plan of a run

A resolver turns a request for a graph into the submission of one registered plan: of each
environment it takes the plan whose size class fits, and of these the one that the request or the
configuration names, or the best placed one within the budget.
-/
namespace Dander.Orchestration

section Decisions

def requireOptionalPortableId (value : Option String) (label : String) :
    Except ContractError Unit :=
  match value with
  | none => .ok ()
  | some value => requirePortableId value label

def PlacementDecision.postInit (decision : PlacementDecision) : Except ContractError Unit := do
  requirePortableId decision.selectedEnvironment "selected environment"
  requireOptionalPortableId decision.selectedLocality "selected locality"
  requireOptionalPortableId decision.preferredLocality "preferred locality"
  if decision.estimatedCostMicrousd.any (fun cost => maxResultInteger < cost) then
    throw (.orchestrationContract
      "placement estimated cost must be bounded non-negative micro-USD")
  if decision.maxCostMicrousd.any (fun cost => maxResultInteger < cost) then
    throw (.orchestrationContract
      "placement maximum cost must be bounded non-negative micro-USD")
  if decision.selectedLocality.isNone != decision.estimatedCostMicrousd.isNone then
    throw (.orchestrationContract
      "placement selection locality and cost must be supplied together")
  if decision.eligiblePlanCount < 1 ∨ 100 < decision.eligiblePlanCount then
    throw (.orchestrationContract "placement eligible plan count is invalid")
  if decision.mode = .automatic then
    match decision.selectedLocality, decision.preferredLocality, decision.maxCostMicrousd with
    | some _, some _, some maxCost =>
      if decision.estimatedCostMicrousd.any (fun cost => maxCost < cost) then
        throw (.orchestrationContract "automatic placement exceeds its maximum estimated cost")
    | _, _, _ => throw (.orchestrationContract
        "automatic placement requires locality, cost, and budget evidence")

def SizeClassDecision.postInit (decision : SizeClassDecision) : Except ContractError Unit := do
  requirePortableId decision.selectedSizeClass "selected size class"
  if decision.estimatedInputBytes.any (fun bytes => maxResultInteger < bytes) then
    throw (.orchestrationContract "estimated input must be bounded non-negative bytes")
  if decision.estimateSource.isNone != decision.estimateObservedAt.isNone then
    throw (.orchestrationContract
      "size-class estimate source and observation time must be supplied together")
  requireOptionalPortableId decision.estimateSource "size-class estimate source"
  if decision.estimateSource.isSome && decision.estimatedInputBytes.isNone then
    throw (.orchestrationContract
      "size-class estimate provenance requires estimated input bytes")
  if maxResultInteger < decision.maxInputBytes then
    throw (.orchestrationContract "size-class maximum input must be bounded non-negative bytes")
  if decision.estimatedInputBytes.any (fun bytes => decision.maxInputBytes < bytes) then
    throw (.orchestrationContract "selected size class cannot fit estimated input")
  if decision.cpuMillis < 1 then
    throw (.orchestrationContract "size-class cpu must be a positive integer")
  if decision.memoryMib < 1 then
    throw (.orchestrationContract "size-class memory must be a positive integer")
  if decision.ephemeralStorageMib.any (fun storage => storage < 1) then
    throw (.orchestrationContract "size-class ephemeral storage must be a positive integer")
  if decision.eligiblePlanCount < 1 ∨ 100 < decision.eligiblePlanCount then
    throw (.orchestrationContract "size-class eligible plan count is invalid")

def RunSubmission.postInit (submission : RunSubmission) : Except ContractError Unit := do
  requirePortableId submission.environment "environment"
  requirePortableId submission.project "project"
  requirePortableId submission.planId "plan"
  if submission.graph.project ≠ submission.project then
    throw (.orchestrationContract "submission project does not match its graph")
  if !isSha256 submission.planRevision then
    throw (.orchestrationContract "submission plan revision must be a lowercase SHA-256")
  if submission.placementDecision.any
      (fun decision => decision.selectedEnvironment ≠ submission.environment) then
    throw (.orchestrationContract
      "submission placement decision selects a different environment")
  if !GraphStore.isIdempotencyKey submission.idempotencyKey then
    throw (.orchestrationContract "submission idempotency key is malformed")
  if submission.requestedDeadlineSeconds.any (fun seconds => seconds < 1) then
    throw (.orchestrationContract "requested deadline must be a positive integer")

end Decisions

end Dander.Orchestration

namespace Dander.PlanResolver

open Orchestration

def maxBoundedInteger : ℕ := 9223372036854775807

section Registry

/-- A registered plan, with the resources of its container and the contents that its revision is
the digest of. -/
structure Plan extends ExecutionPlan where
  portable : isPortableId environment = true
  contents : String
  cpuMillis : ℕ
  memoryMib : ℕ
  ephemeralStorageMib : Option ℕ
  deriving Repr, DecidableEq

/-- The registered plans in the order of their revisions. -/
structure ExecutionPlanRegistry where
  plans : List Plan
  deriving Repr, DecidableEq

/-- A revision is registered once, and has one content. -/
def register (registered : List Plan) (plan : Plan) : Except ContractError (List Plan) :=
  match registered.find? (fun other => other.revision = plan.revision) with
  | none => .ok (registered ++ [plan])
  | some existing =>
    if existing = plan then .ok registered
    else .error (.orchestrationContract
      "an execution-plan revision contains conflicting contents")

def byRevision (first second : Plan) : Prop := first.revision ≤ second.revision

instance : DecidableRel byRevision := fun first second =>
  inferInstanceAs (Decidable (first.revision ≤ second.revision))

def ExecutionPlanRegistry.create (plans : List Plan) :
    Except ContractError ExecutionPlanRegistry := do
  let registered ← plans.foldlM register []
  if registered = [] then
    throw (.orchestrationContract "at least one execution plan is required")
  if 100 < registered.length then
    throw (.orchestrationContract "the execution-plan registry exceeds its bound")
  return ⟨registered.insertionSort byRevision⟩

inductive ResolveError where
  | contract (e : ContractError)
  | conflict (message : String)
  | unavailable (message : String)
  | estimator (message : String)
  deriving Repr, DecidableEq

def ofGraph (record : GraphReference) (plan : Plan) : Bool :=
  plan.project = record.project && plan.graph = record.graph

def isCurrent (record : GraphReference) (plan : Plan) : Bool :=
  plan.graphRevision = record.revision && plan.graphContentSha256 = record.contentSha256

/-- The plans of a graph that match its current revision. -/
def ExecutionPlanRegistry.currentForGraph (registry : ExecutionPlanRegistry)
    (record : GraphReference) : Except ResolveError (List Plan) := do
  let registered := registry.plans.filter (ofGraph record)
  if registered = [] then
    throw (.unavailable "No hosted execution plan is configured for this graph.")
  let current := registered.filter (isCurrent record)
  if current = [] then
    throw (.conflict "The hosted execution plans do not match the current graph revision.")
  return current

end Registry

section Configuration

structure PlacementCandidate where
  planRevision : String
  locality : String
  estimatedCostMicrousd : ℕ
  deriving Repr, DecidableEq

structure SizeClassCandidate where
  planRevision : String
  sizeClass : String
  maxInputBytes : ℕ
  deriving Repr, DecidableEq

structure InputSizeEstimate where
  estimatedInputBytes : ℕ
  source : String
  observedAt : ℤ
  deriving Repr, DecidableEq

/-- What an estimator raises; only the first is handled. -/
inductive EstimatorError where
  | inputSizeEstimation
  | other (message : String)
  deriving Repr, DecidableEq

abbrev InputSizeEstimator := GraphReference → Except EstimatorError InputSizeEstimate

structure PlanRunSubmissionResolver where
  plans : ExecutionPlanRegistry
  environment : String
  placementCandidates : List PlacementCandidate
  preferredLocality : Option String
  maxCostMicrousd : Option ℕ
  sizeClassCandidates : List SizeClassCandidate
  defaultSizeClass : Option String
  inputSizeEstimators : List (String × InputSizeEstimator)

variable (resolver : PlanRunSubmissionResolver)

def PlanRunSubmissionResolver.placementOf (plan : Plan) : Option PlacementCandidate :=
  resolver.placementCandidates.find? (fun candidate => candidate.planRevision = plan.revision)

def PlanRunSubmissionResolver.sizeOf (plan : Plan) : Option SizeClassCandidate :=
  resolver.sizeClassCandidates.find? (fun candidate => candidate.planRevision = plan.revision)

def PlanRunSubmissionResolver.estimatorOf (environment : String) : Option InputSizeEstimator :=
  (resolver.inputSizeEstimators.find? (fun entry => entry.1 = environment)).map Prod.snd

/-- The revisions that are not registered, the first one in their order first. -/
def unknownRevisions (registry : ExecutionPlanRegistry) (revisions : List String) : List String :=
  (revisions.filter fun revision =>
    registry.plans.all fun plan => plan.revision ≠ revision).insertionSort (· ≤ ·)

def checkRevisions (registry : ExecutionPlanRegistry) (revisions : List String)
    (twice unregistered : String) : Except ContractError Unit :=
  if ¬ revisions.Nodup then .error (.orchestrationContract twice)
  else match unknownRevisions registry revisions with
    | [] => .ok ()
    | unknown :: _ => .error (.orchestrationContract (unregistered ++ unknown))

def PlanRunSubmissionResolver.checkAutomatic : Except ContractError Unit := do
  if resolver.environment = "auto" then
    if resolver.plans.plans.any (fun plan => plan.environment = "auto") then
      throw (.orchestrationContract "automatic placement reserves the auto environment name")
    if resolver.placementCandidates = [] ∨ resolver.preferredLocality = none ∨
        resolver.maxCostMicrousd = none then
      throw (.orchestrationContract
        "automatic placement requires candidates, preferred locality, and max cost")

def route (plan : Plan) : String × String × String := (plan.environment, plan.project, plan.graph)

/-- A route with several plans has a size class for each, and no class twice. -/
def PlanRunSubmissionResolver.checkRoute (routed : String × String × String) :
    Except ContractError Unit := do
  let routePlans := resolver.plans.plans.filter fun plan => route plan = routed
  if 1 < routePlans.length ∧ routePlans.any (fun plan => (resolver.sizeOf plan).isNone) then
    throw (.orchestrationContract
      "multi-plan execution routes require a size candidate for every revision")
  if ¬ (routePlans.filterMap fun plan =>
      (resolver.sizeOf plan).map SizeClassCandidate.sizeClass).Nodup then
    throw (.orchestrationContract "an execution route contains duplicate size classes")

def PlanRunSubmissionResolver.checkDefaultSizeClass : Except ContractError Unit :=
  match resolver.defaultSizeClass with
  | none => .ok ()
  | some sizeClass =>
    if !isPortableId sizeClass then
      .error (.orchestrationContract "default size class is invalid")
    else if resolver.sizeClassCandidates = [] then
      .error (.orchestrationContract
        "a default size class requires configured size candidates")
    else .ok ()

def PlanRunSubmissionResolver.checkEstimator (environment : String) : Except ContractError Unit :=
  if isPortableId environment ∧ resolver.plans.plans.any (fun plan =>
      plan.environment = environment ∧ (resolver.sizeOf plan).isSome) then .ok ()
  else .error (.orchestrationContract
    "an input-size estimator selects an invalid execution environment")

def PlanRunSubmissionResolver.postInit : Except ContractError Unit := do
  checkRevisions resolver.plans
    (resolver.placementCandidates.map PlacementCandidate.planRevision)
    "placement candidates must use unique plan revisions"
    "placement candidate selects unregistered plan revision "
  resolver.checkAutomatic
  if resolver.preferredLocality.any (fun locality => !isPortableId locality) then
    throw (.orchestrationContract "preferred locality is invalid")
  if resolver.maxCostMicrousd.any (fun cost => maxBoundedInteger < cost) then
    throw (.orchestrationContract "placement maximum cost must be non-negative micro-USD")
  checkRevisions resolver.plans (resolver.sizeClassCandidates.map SizeClassCandidate.planRevision)
    "size-class candidates must use unique revisions"
    "size-class candidate selects unregistered plan revision "
  (resolver.plans.plans.map route).dedup.forM resolver.checkRoute
  resolver.checkDefaultSizeClass
  if ¬ (resolver.inputSizeEstimators.map Prod.fst).Nodup then
    throw (.orchestrationContract "input-size estimators must use unique environments")
  (resolver.inputSizeEstimators.map Prod.fst).forM resolver.checkEstimator

end Configuration

section Sizing

/-- Where the size of an input comes from. -/
structure SizeSelectionEvidence where
  estimatedInputBytes : ℕ
  source : String
  observedAt : ℤ
  deriving Repr, DecidableEq

/-- What sizing selects of one environment. -/
structure RouteSelection where
  environment : String
  plans : List Plan
  mode : Option SizeClassMode
  evidence : Option SizeSelectionEvidence
  deriving Repr, DecidableEq

/-- The plans to choose from, with how each environment was sized. -/
structure Selection where
  plans : List Plan
  routes : List RouteSelection
  deriving Repr, DecidableEq

def Selection.mode (selection : Selection) (environment : String) : Option SizeClassMode :=
  (selection.routes.find? fun route => route.environment = environment).bind RouteSelection.mode

def Selection.evidence (selection : Selection) (environment : String) :
    Option SizeSelectionEvidence :=
  (selection.routes.find? fun route => route.environment = environment).bind
    RouteSelection.evidence

/-- A request for a size: none, a class, or the size of the input. -/
structure Sizing where
  sizeClass : Option String
  estimatedInputBytes : Option ℕ
  requestedAt : ℤ
  deriving Repr, DecidableEq

def Sizing.isExplicit (sizing : Sizing) : Bool :=
  sizing.sizeClass.isSome || sizing.estimatedInputBytes.isSome

variable (resolver : PlanRunSubmissionResolver) (record : GraphReference) (sizing : Sizing)

def PlanRunSubmissionResolver.defaultMode : Option SizeClassMode :=
  resolver.defaultSizeClass.map fun _ => .configuredDefault

def PlanRunSubmissionResolver.sizingMode : Option SizeClassMode :=
  if sizing.sizeClass.isSome then some .manualOverride
  else if sizing.estimatedInputBytes.isSome then some .automaticInput
  else resolver.defaultMode

/-- The size of the input for one environment, and the mode it is taken in. -/
def PlanRunSubmissionResolver.routeEstimate (environment : String) :
    Except ResolveError (Option SizeSelectionEvidence × Option SizeClassMode) :=
  match sizing.estimatedInputBytes with
  | some bytes =>
    .ok (some ⟨bytes, "api_request", sizing.requestedAt⟩, resolver.sizingMode sizing)
  | none =>
    if sizing.sizeClass.isSome then .ok (none, resolver.sizingMode sizing)
    else match resolver.estimatorOf environment with
      | none => .ok (none, resolver.sizingMode sizing)
      | some estimator =>
        match estimator record with
        | .ok estimate =>
          .ok (some ⟨estimate.estimatedInputBytes, estimate.source, estimate.observedAt⟩,
            some .automaticInput)
        | .error .inputSizeEstimation => .ok (none, resolver.defaultMode)
        | .error (.other message) => .error (.estimator message)

def sizeKey (choice : Plan × SizeClassCandidate) : ℕ ×ₗ String ×ₗ String :=
  toLex (choice.2.maxInputBytes, toLex (choice.2.sizeClass, choice.1.revision))

/-- The plan that fits the estimate best, or else has the requested or the default class. -/
def PlanRunSubmissionResolver.choose (choices : List (Plan × SizeClassCandidate)) :
    Option SizeSelectionEvidence → Option (Plan × SizeClassCandidate)
  | some evidence => (choices.filter fun choice =>
      evidence.estimatedInputBytes ≤ choice.2.maxInputBytes).argmin sizeKey
  | none => choices.find? fun choice =>
      (sizing.sizeClass <|> resolver.defaultSizeClass) = some choice.2.sizeClass

def PlanRunSubmissionResolver.choices (plans : List Plan) : List (Plan × SizeClassCandidate) :=
  plans.filterMap fun plan => (resolver.sizeOf plan).map fun candidate => (plan, candidate)

def PlanRunSubmissionResolver.selectRoute (current : List Plan) (environment : String) :
    Except ResolveError RouteSelection :=
  let routePlans := current.filter fun plan => plan.environment = environment
  if resolver.choices routePlans = [] then
    .ok ⟨environment, if sizing.isExplicit then [] else routePlans, none, none⟩
  else match resolver.routeEstimate record sizing environment with
    | .error e => .error e
    | .ok (evidence, mode) =>
      match resolver.choose sizing (resolver.choices routePlans) evidence with
      | none => .ok ⟨environment, [], none, evidence⟩
      | some choice => .ok ⟨environment, [choice.1], mode, evidence⟩

def validateSizing : Except ResolveError Unit :=
  if sizing.sizeClass.isSome && sizing.estimatedInputBytes.isSome then
    .error (.conflict "Choose either a size class or estimated input bytes, not both.")
  else if sizing.sizeClass.any (fun sizeClass => !isPortableId sizeClass) then
    .error (.contract (.orchestrationContract "requested size class is invalid"))
  else if sizing.estimatedInputBytes.any (fun bytes => maxBoundedInteger < bytes) then
    .error (.contract (.orchestrationContract "estimated input bytes are invalid"))
  else .ok ()

/-- The environments to select from, in their order. -/
def routeEnvironments (current : List Plan) (environment : String) : List String :=
  ((current.map fun plan => plan.environment).dedup.insertionSort (· ≤ ·)).filter
    fun routeEnvironment => environment = "auto" || routeEnvironment = environment

def PlanRunSubmissionResolver.selectSizeCandidates (environment : String) :
    Except ResolveError Selection := do
  validateSizing sizing
  let current ← resolver.plans.currentForGraph record
  if resolver.sizeClassCandidates = [] then
    if sizing.isExplicit then
      throw (.unavailable "No hosted size classes are configured for this graph.")
    return ⟨current, []⟩
  let routes ← (routeEnvironments current environment).mapM
    (resolver.selectRoute record sizing current)
  if routes.flatMap RouteSelection.plans = [] then
    throw (.unavailable "No hosted execution plan satisfies the requested size class.")
  return ⟨routes.flatMap RouteSelection.plans, routes⟩

end Sizing

section Placement

variable (resolver : PlanRunSubmissionResolver)

def contract {α : Type} : Except ContractError α → Except ResolveError α
  | .ok value => .ok value
  | .error e => .error (.contract e)

def selectEnvironment (plans : List Plan) (environment : String) : Except ResolveError Plan :=
  match plans.filter fun plan => plan.environment = environment with
  | [plan] => .ok plan
  | _ => .error (.unavailable
      "No hosted execution plan satisfies the selected environment and size class.")

def PlanRunSubmissionResolver.exactDecision (plan : Plan) (mode : PlacementMode) :
    PlacementDecision where
  mode := mode
  selectedEnvironment := plan.environment
  selectedLocality := (resolver.placementOf plan).map PlacementCandidate.locality
  estimatedCostMicrousd := (resolver.placementOf plan).map PlacementCandidate.estimatedCostMicrousd
  preferredLocality := none
  maxCostMicrousd := none
  eligiblePlanCount := 1

def placementKey (preferred : String) (option : Plan × PlacementCandidate) :
    Bool ×ₗ ℕ ×ₗ String ×ₗ String ×ₗ String :=
  toLex (decide (option.2.locality ≠ preferred), toLex (option.2.estimatedCostMicrousd,
    toLex (option.1.environment, toLex (option.1.planId, option.1.revision))))

/-- The plans with a placement estimate within the budget. -/
def PlanRunSubmissionResolver.eligible (maxCost : ℕ) (plans : List Plan) :
    List (Plan × PlacementCandidate) :=
  (plans.filterMap fun plan => (resolver.placementOf plan).map fun candidate =>
    (plan, candidate)).filter fun option => option.2.estimatedCostMicrousd ≤ maxCost

def PlanRunSubmissionResolver.automaticallySelect (preferred : String) (maxCost : ℕ)
    (plans : List Plan) : Except ResolveError (Plan × PlacementDecision) :=
  match (resolver.eligible maxCost plans).argmin (placementKey preferred) with
  | none => .error (.unavailable
      "No hosted execution plan satisfies the configured placement budget.")
  | some (plan, candidate) => .ok (plan,
      { mode := .automatic
        selectedEnvironment := plan.environment
        selectedLocality := some candidate.locality
        estimatedCostMicrousd := some candidate.estimatedCostMicrousd
        preferredLocality := some preferred
        maxCostMicrousd := some maxCost
        eligiblePlanCount := (resolver.eligible maxCost plans).length })

/-- The plan of a request: the one of the environment it names, or of the configured one, or the
best placed one. An automatic resolver has a locality and a budget. -/
def PlanRunSubmissionResolver.place (plans : List Plan) (environment : Option String) :
    Except ResolveError (Plan × PlacementDecision) :=
  match environment with
  | some environment => (selectEnvironment plans environment).map fun plan =>
      (plan, resolver.exactDecision plan .manualOverride)
  | none =>
    if resolver.environment = "auto" then
      resolver.automaticallySelect (resolver.preferredLocality.getD "")
        (resolver.maxCostMicrousd.getD 0) plans
    else (selectEnvironment plans resolver.environment).map fun plan =>
      (plan, resolver.exactDecision plan .configuredDefault)

def PlanRunSubmissionResolver.sizeDecision (plan : Plan) (selection : Selection) :
    Option SizeClassDecision :=
  match selection.mode plan.environment, resolver.sizeOf plan with
  | some mode, some candidate => some
    { mode := mode
      selectedSizeClass := candidate.sizeClass
      estimatedInputBytes := (selection.evidence plan.environment).map
        SizeSelectionEvidence.estimatedInputBytes
      maxInputBytes := candidate.maxInputBytes
      cpuMillis := plan.cpuMillis
      memoryMib := plan.memoryMib
      ephemeralStorageMib := plan.ephemeralStorageMib
      eligiblePlanCount := selection.plans.length
      estimateSource := (selection.evidence plan.environment).map SizeSelectionEvidence.source
      estimateObservedAt := (selection.evidence plan.environment).map
        SizeSelectionEvidence.observedAt }
  | _, _ => none

def apiTrigger : RunTrigger := ⟨.api, "control-api", none, none, none⟩

/-- The submission of a plan, before its constructor checks it. -/
def submissionOf (record : GraphReference) (idempotencyKey : String) (requestedAt : ℤ) (plan : Plan)
    (placement : PlacementDecision) (size : Option SizeClassDecision) : RunSubmission where
  environment := plan.environment
  project := record.project
  graph := record
  planId := plan.planId
  planRevision := plan.revision
  trigger := apiTrigger
  idempotencyKey := idempotencyKey
  requestedAt := requestedAt
  requestedDeadlineSeconds := none
  placementDecision := some placement
  sizeClassDecision := size

def checkOptional {α : Type} (check : α → Except ContractError Unit) :
    Option α → Except ContractError Unit
  | none => .ok ()
  | some value => check value

def PlanRunSubmissionResolver.resolve (record : GraphReference) (idempotencyKey : String)
    (requestedAt : ℤ) (environment sizeClass : Option String) (estimatedInputBytes : Option ℕ) :
    Except ResolveError RunSubmission := do
  let selection ← resolver.selectSizeCandidates record
    ⟨sizeClass, estimatedInputBytes, requestedAt⟩ (environment.getD resolver.environment)
  let (plan, placement) ← resolver.place selection.plans environment
  contract placement.postInit
  contract (checkOptional SizeClassDecision.postInit (resolver.sizeDecision plan selection))
  let submission := submissionOf record idempotencyKey requestedAt plan placement
    (resolver.sizeDecision plan selection)
  contract submission.postInit
  return submission

end Placement

section Lookup

variable (resolver : PlanRunSubmissionResolver)

/-- The environments a key is looked up in, and how a run that is found there was placed. -/
def PlanRunSubmissionResolver.idempotencyLookup (record : GraphReference)
    (environment : Option String) : Except ResolveError (List String × PlacementMode) :=
  match environment with
  | some environment => .ok ([environment], .manualOverride)
  | none =>
    if resolver.environment ≠ "auto" then .ok ([resolver.environment], .configuredDefault)
    else
      match ((resolver.plans.plans.filter (ofGraph record)).map
          fun plan => plan.environment).dedup.insertionSort (· ≤ ·) with
      | [] => .error (.unavailable "No hosted execution plan is configured for this graph.")
      | environments => .ok (environments, .automatic)

end Lookup

end Dander.PlanResolver
