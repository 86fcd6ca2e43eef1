import Dander.CallTraces
import Dander.PlanResolution
import Dander.RunOrigins

/-!
# Finding the run of a repeated start

Before a start that asks for no size is sized anew, the run of its key is looked up. The lookup
compares what a stored run keeps of its request, without the submission that it came from.
-/
namespace Dander.Lifecycle

open Execution Interleaving ObjectStore Orchestration PlanResolver
open Relation (ReflTransGen)
open RunStore (Scope)

section Lookup

/-- A start that asks for no size, as it is looked up. -/
structure ApiStart where
  record : GraphReference
  environments : List String
  placementMode : PlacementMode
  idempotencyKey : String
  repairWindow : Option GraphRepairWindow
  deriving Repr, DecidableEq

variable (sha256 : String → String) (request : ApiStart)

def ApiStart.isValid : Bool :=
  !request.environments.isEmpty && decide (request.environments.length ≤ 100) &&
    decide (request.environments.dedup.insertionSort (· ≤ ·) = request.environments) &&
    request.environments.all isPortableId &&
    decide (request.placementMode ∈
      [PlacementMode.automatic, .configuredDefault, .manualOverride]) &&
    GraphStore.isIdempotencyKey request.idempotencyKey

/-- A run without a placement decision comes from before there were any. -/
def placementMatches (mode : PlacementMode) : Option PlacementDecision → Bool
  | none => decide (mode = .configuredDefault)
  | some decision => decide (decision.mode = mode)

/-- The size was not asked for. -/
def sizeMatches : Option SizeClassDecision → Bool
  | none => true
  | some decision => decide (decision.mode = .configuredDefault) ||
      (decide (decision.mode = .automaticInput) && decision.estimateSource.isSome &&
        decide (decision.estimateSource ≠ some "api_request"))

def ApiStart.sameRequest (durable : RunRecord) : Bool :=
  decide (durable.environment ∈ request.environments) &&
    decide (durable.project = request.record.project) &&
    decide (durable.graph = request.record.graph) &&
    decide (durable.graphRevision = request.record.revision) &&
    decide (durable.graphContentSha256 = request.record.contentSha256) &&
    decide (durable.trigger.kind = .api) && decide (durable.trigger.triggerId = "control-api") &&
    decide (durable.trigger.repairWindow = request.repairWindow) &&
    placementMatches request.placementMode durable.placementDecision &&
    sizeMatches durable.sizeClassDecision

abbrev Lookup (α : Type) :=
  Prog Scope (fun _ => Except RunStoreError (Option StoredRun)) LifecycleError α

/-- The runs of a key in the given environments. -/
def findStored (project keySha256 : String) : List String → Lookup (List StoredRun)
  | [] => .ret []
  | environment :: rest =>
    .call ⟨environment, project, keySha256⟩
      fun (found : Except RunStoreError (Option StoredRun)) =>
        match found with
        | .error _ => .raise (.dependency "Durable run state is temporarily unavailable.")
        | .ok none => findStored project keySha256 rest
        | .ok (some stored) =>
          findStored project keySha256 rest >>= fun others => .ret (stored :: others)

/-- The status response of a run. -/
def statusOf (stored : StoredRun) : Except LifecycleError (Option (StoredRun × RunState)) :=
  match runStateOf stored.record with
  | .ok state => .ok (some (stored, state))
  | .error e => .error (.contract e)

def ApiStart.select : List StoredRun → Except LifecycleError (Option (StoredRun × RunState))
  | [] => .ok none
  | [stored] =>
    if request.sameRequest stored.record then statusOf stored
    else .error (.idempotencyConflict
      "The idempotency key belongs to a different run submission.")
  | _ => .error (.idempotencyConflict
      "The idempotency key belongs to multiple run submissions.")

def liftLookup {α : Type} : Except LifecycleError α → Lookup α
  | .ok value => .ret value
  | .error e => .raise e

def ApiStart.scope (environment : String) : Scope :=
  ⟨environment, request.record.project, sha256 request.idempotencyKey⟩

def findApiStart : Lookup (Option (StoredRun × RunState)) :=
  if request.isValid then
    findStored request.record.project (sha256 request.idempotencyKey) request.environments >>=
      fun found => liftLookup (request.select found)
  else .raise (.contract (.orchestrationContract "run idempotency lookup is invalid"))

/-- A store that answers lookups. -/
def lookups : Machine Scope (fun _ => Except RunStoreError (Option StoredRun)) ControlConfig where
  step scope cfg answer cfg' := cfg' = cfg ∧ answer = .ok (cfg.state.findIdempotency scope)

end Lookup

section Finding

variable {sha256 : String → String} {project keySha256 : String} {environments : List String}
  {cfg cfg' : ControlConfig}

/-- What a lookup finds, while runs are started and go on. -/
structure Found (sha256 : String → String) (project keySha256 : String)
    (environments : List String) (cfg cfg' : ControlConfig) (found : List StoredRun) : Prop where
  kept : OriginsKept sha256 cfg'
  later : cfg.state.snapshots <:+ cfg'.state.snapshots
  stored : ∀ stored ∈ found, Genuine cfg'.state stored ∧ stored.record.project = project ∧
    stored.record.idempotencyKeySha256 = keySha256
  inOrder : (found.map fun stored => stored.record.environment).Sublist environments
  complete : ∀ environment ∈ environments, ∀ run,
    cfg.state.findIdempotency ⟨environment, project, keySha256⟩ = some run →
    ∃ stored ∈ found, Unchanged run.record stored.record

theorem findStored_found (hkept : OriginsKept sha256 cfg)
    {out : Except LifecycleError (List StoredRun)}
    (h : Among lookups (ControlMoves sha256) (findStored project keySha256 environments) cfg out
      cfg') :
    ∃ found, out = .ok found ∧ Found sha256 project keySha256 environments cfg cfg' found := by
  induction environments generalizing cfg out with
  | nil =>
    cases h with
    | ret =>
      exact ⟨[], rfl, hkept, List.suffix_refl _, by simp, by simp, by simp⟩
  | cons environment rest ih =>
    cases h with
    | @perform _ _ _ mid mid' _ answer _ waited done later =>
      obtain ⟨rfl, rfl⟩ := done
      obtain ⟨hmid, hle⟩ := hkept.moves waited
      have hcomplete : ∀ others : List StoredRun,
          Found sha256 project keySha256 rest mid' cfg' others →
          ∀ name ∈ rest, ∀ run, cfg.state.findIdempotency ⟨name, project, keySha256⟩ = some run →
          ∃ stored ∈ others, Unchanged run.record stored.record := by
        intro others hothers name hname run hrun
        obtain ⟨run', hrun', hunchanged⟩ := hkept.1.find_later hmid.1 hle hrun
        obtain ⟨stored, hmem, hstored⟩ := hothers.complete name hname run' hrun'
        exact ⟨stored, hmem, hunchanged.trans hstored⟩
      cases hfind : mid'.state.findIdempotency ⟨environment, project, keySha256⟩ with
      | none =>
        rw [hfind] at later
        obtain ⟨found, hout, hfound⟩ := ih hmid later
        refine ⟨found, hout, hfound.kept, hle.trans hfound.later, hfound.stored,
          hfound.inOrder.trans (List.sublist_cons_self _ _), ?_⟩
        intro name hname run hrun
        rcases List.mem_cons.mp hname with rfl | hname
        · obtain ⟨run', hrun', _⟩ := hkept.1.find_later hmid.1 hle hrun
          rw [hfind] at hrun'
          cases hrun'
        · exact hcomplete found hfound name hname run hrun
      | some stored =>
        rw [hfind] at later
        rcases later.of_bind with ⟨e, _, hfailed⟩ | ⟨others, u, hothers, hrest⟩
        · obtain ⟨found, hout, _⟩ := ih hmid hfailed
          cases hout
        · cases hrest with
          | ret =>
            obtain ⟨found, hout, hfound⟩ := ih hmid hothers
            obtain rfl := Except.ok.inj hout
            obtain ⟨hgenuine, hscope⟩ := hmid.1.found hfind
            simp only [RunStore.RunRecord.scope, Scope.mk.injEq] at hscope
            refine ⟨stored :: others, rfl, hfound.kept, hle.trans hfound.later, ?_, ?_, ?_⟩
            · intro other hother
              rcases List.mem_cons.mp hother with rfl | hother
              · exact ⟨hgenuine.mono hfound.later, hscope.2.1, hscope.2.2⟩
              · exact hfound.stored other hother
            · rw [List.map_cons, hscope.1]
              exact hfound.inOrder.cons_cons environment
            · intro name hname run hrun
              rcases List.mem_cons.mp hname with rfl | hname
              · obtain ⟨run', hrun', hunchanged⟩ := hkept.1.find_later hmid.1 hle hrun
                rw [hfind] at hrun'
                obtain rfl := Option.some.inj hrun'
                exact ⟨stored, List.mem_cons_self, hunchanged⟩
              · obtain ⟨other, hother, hunchanged⟩ := hcomplete others hfound name hname run hrun
                exact ⟨other, List.mem_cons_of_mem _ hother, hunchanged⟩

/-- How a lookup ends: with what is selected from what it found. -/
theorem findApiStart_found {request : ApiStart} (hvalid : request.isValid = true)
    (hkept : OriginsKept sha256 cfg)
    {out : Except LifecycleError (Option (StoredRun × RunState))}
    (h : Among lookups (ControlMoves sha256) (findApiStart sha256 request) cfg out cfg') :
    ∃ found, out = request.select found ∧
      Found sha256 request.record.project (sha256 request.idempotencyKey) request.environments
        cfg cfg' found := by
  unfold findApiStart at h
  rw [if_pos hvalid] at h
  rcases h.of_bind with ⟨e, _, hfailed⟩ | ⟨found, u, hstored, hselect⟩
  · obtain ⟨found, hout, _⟩ := findStored_found hkept hfailed
    cases hout
  · obtain ⟨found', hout, hfound⟩ := findStored_found hkept hstored
    obtain rfl := Except.ok.inj hout
    cases hselected : request.select found with
    | ok result =>
      rw [hselected] at hselect
      cases hselect with
      | ret => exact ⟨found, hselected.symm, hfound⟩
    | error e =>
      rw [hselected] at hselect
      cases hselect with
      | raise => exact ⟨found, hselected.symm, hfound⟩

end Finding

section Comparing

variable {request : ApiStart} {durable later : RunRecord}

/-- The size was asked for, or its estimate does not tell where it is from. -/
def ExplicitlySized (decision : SizeClassDecision) : Prop :=
  decision.mode = .manualOverride ∨ (decision.mode = .automaticInput ∧
    (decision.estimateSource = none ∨ decision.estimateSource = some "api_request"))

/-- The run comes from another request than the lookup's. -/
inductive DifferentRequest (request : ApiStart) (durable : RunRecord) : Prop
  | schedule (h : durable.trigger.kind = .schedule)
  | replay (decision : PlacementDecision) (hplaced : durable.placementDecision = some decision)
      (h : decision.mode = .replay)
  | sized (decision : SizeClassDecision) (hsized : durable.sizeClassDecision = some decision)
      (h : ExplicitlySized decision)
  | window (h : durable.trigger.repairWindow ≠ request.repairWindow)
  | revision (h : durable.graphRevision ≠ request.record.revision ∨
      durable.graphContentSha256 ≠ request.record.contentSha256)

theorem DifferentRequest.not_same (hvalid : request.isValid = true)
    (h : DifferentRequest request durable) : request.sameRequest durable = false := by
  rw [Bool.eq_false_iff]
  intro hsame
  simp only [ApiStart.sameRequest, Bool.and_eq_true, decide_eq_true_eq] at hsame
  obtain ⟨⟨⟨⟨⟨⟨⟨_, hrevision⟩, hcontent⟩, hkind⟩, _⟩, hwindow⟩, hplacement⟩, hsize⟩ := hsame
  cases h with
  | schedule h =>
    rw [hkind] at h
    cases h
  | replay decision hplaced h =>
    simp only [ApiStart.isValid, Bool.and_eq_true, decide_eq_true_eq] at hvalid
    rw [hplaced, placementMatches, decide_eq_true_eq, h] at hplacement
    rw [← hplacement] at hvalid
    simp at hvalid
  | sized decision hsized h =>
    rw [hsized] at hsize
    rcases h with h | ⟨h, hsource | hsource⟩
    · simp [sizeMatches, h] at hsize
    · simp [sizeMatches, h, hsource] at hsize
    · simp [sizeMatches, h, hsource] at hsize
  | window h => exact h hwindow
  | revision h => exact h.elim (fun h => h hrevision) (fun h => h hcontent)

theorem Unchanged.fields (h : Unchanged durable later) :
    later.environment = durable.environment ∧ later.project = durable.project ∧
      later.graph = durable.graph ∧ later.graphRevision = durable.graphRevision ∧
      later.graphContentSha256 = durable.graphContentSha256 ∧ later.trigger = durable.trigger := by
  have hidentity := h.identity
  simp only [RunRecord.identity, RunIdentity.mk.injEq] at hidentity
  tauto

theorem sameRequest_unchanged (h : Unchanged durable later) :
    request.sameRequest later = request.sameRequest durable := by
  obtain ⟨henvironment, hproject, hgraph, hrevision, hcontent, htrigger⟩ := h.fields
  unfold ApiStart.sameRequest
  rw [henvironment, hproject, hgraph, hrevision, hcontent, htrigger, h.placementDecision,
    h.sizeClassDecision]

theorem DifferentRequest.unchanged (h : DifferentRequest request durable)
    (hunchanged : Unchanged durable later) : DifferentRequest request later := by
  obtain ⟨_, _, _, hrevision, hcontent, htrigger⟩ := hunchanged.fields
  cases h with
  | schedule h => exact .schedule (by rw [htrigger]; exact h)
  | replay decision hplaced h =>
    exact .replay decision (hunchanged.placementDecision.trans hplaced) h
  | sized decision hsized h =>
    exact .sized decision (hunchanged.sizeClassDecision.trans hsized) h
  | window h => exact .window (by rw [htrigger]; exact h)
  | revision h => exact .revision (by rw [hrevision, hcontent]; exact h)

/-- More than one run, or one of another request, is a conflict. -/
theorem select_conflict {found : List StoredRun} {stored : StoredRun} (hmem : stored ∈ found)
    (h : 1 < found.length ∨ request.sameRequest stored.record = false) :
    ∃ message, request.select found = .error (.idempotencyConflict message) := by
  match found, hmem with
  | [only], hmem =>
    obtain rfl := List.mem_singleton.mp hmem
    rcases h with hlong | hdifferent
    · simp at hlong
    · have hnot : ¬ request.sameRequest stored.record = true := by simp [hdifferent]
      exact ⟨_, if_neg hnot⟩
  | _ :: _ :: _, _ => exact ⟨_, rfl⟩

theorem select_returns {found : List StoredRun} {stored : StoredRun} {state : RunState}
    (h : request.select found = .ok (some (stored, state))) :
    found = [stored] ∧ request.sameRequest stored.record = true ∧
      runStateOf stored.record = .ok state := by
  match found with
  | [] => cases h
  | [only] =>
    rw [ApiStart.select] at h
    split at h
    next hsame =>
      unfold statusOf at h
      split at h
      next found hstate =>
        obtain ⟨rfl, rfl⟩ := Prod.mk.inj (Option.some.inj (Except.ok.inj h))
        exact ⟨rfl, hsame, hstate⟩
      next => cases h
    next => cases h
  | _ :: _ :: _ => cases h

end Comparing

section Resolved

variable {resolver : PlanRunSubmissionResolver} {record : GraphReference} {idempotencyKey : String}
  {requestedAt : ℤ} {requested : Option String} {submission : RunSubmission} {plan : Plan}
  {environment : String}

/-- Estimators tell where an estimate is from, and none says that it was asked for. -/
def EstimatesOwn (resolver : PlanRunSubmissionResolver) : Prop :=
  ∀ entry ∈ resolver.inputSizeEstimators, ∀ record estimate, entry.2 record = .ok estimate →
    estimate.source ≠ "api_request"

/-- How an environment was sized for a request that asks for no size. -/
inductive SizedFor (resolver : PlanRunSubmissionResolver) (record : GraphReference) :
    Option SizeClassMode → Option SizeSelectionEvidence → Prop
  | unsized (evidence) : SizedFor resolver record none evidence
  | default (evidence) : SizedFor resolver record (some .configuredDefault) evidence
  | estimated (entry : String × InputSizeEstimator) (estimate : InputSizeEstimate)
      (hentry : entry ∈ resolver.inputSizeEstimators) (h : entry.2 record = .ok estimate) :
      SizedFor resolver record (some .automaticInput)
        (some ⟨estimate.estimatedInputBytes, estimate.source, estimate.observedAt⟩)

theorem sizedFor_defaultMode (evidence : Option SizeSelectionEvidence) :
    SizedFor resolver record resolver.defaultMode evidence := by
  unfold PlanRunSubmissionResolver.defaultMode
  cases resolver.defaultSizeClass with
  | none => exact .unsized evidence
  | some sizeClass => exact .default evidence

theorem routeEstimate_sizedFor {evidence : Option SizeSelectionEvidence}
    {mode : Option SizeClassMode}
    (h : resolver.routeEstimate record ⟨none, none, requestedAt⟩ environment =
      .ok (evidence, mode)) : SizedFor resolver record mode evidence := by
  have hmode : resolver.sizingMode ⟨none, none, requestedAt⟩ = resolver.defaultMode := rfl
  unfold PlanRunSubmissionResolver.routeEstimate at h
  dsimp only at h
  rw [if_neg (by simp), hmode] at h
  split at h
  next =>
    obtain ⟨rfl, rfl⟩ := Prod.mk.inj (Except.ok.inj h)
    exact sizedFor_defaultMode none
  next estimator hestimator =>
    split at h
    next estimate hestimate =>
      obtain ⟨rfl, rfl⟩ := Prod.mk.inj (Except.ok.inj h)
      obtain ⟨entry, hentry, rfl⟩ := Option.map_eq_some_iff.mp hestimator
      exact .estimated entry estimate (List.mem_of_find?_eq_some hentry) hestimate
    next =>
      obtain ⟨rfl, rfl⟩ := Prod.mk.inj (Except.ok.inj h)
      exact sizedFor_defaultMode none
    next => cases h

theorem selectRoute_sizedFor {current : List Plan} {route : RouteSelection}
    (h : resolver.selectRoute record ⟨none, none, requestedAt⟩ current environment = .ok route) :
    SizedFor resolver record route.mode route.evidence := by
  unfold PlanRunSubmissionResolver.selectRoute at h
  dsimp only at h
  split at h
  next =>
    obtain rfl := Except.ok.inj h
    exact .unsized none
  next =>
    split at h
    next => cases h
    next evidence mode hestimate =>
      split at h
      next =>
        obtain rfl := Except.ok.inj h
        exact .unsized evidence
      next =>
        obtain rfl := Except.ok.inj h
        exact routeEstimate_sizedFor hestimate

theorem selectSizeCandidates_sizedFor {selection : Selection} {name : String}
    (h : resolver.selectSizeCandidates record ⟨none, none, requestedAt⟩ name = .ok selection)
    (environment : String) :
    SizedFor resolver record (selection.mode environment) (selection.evidence environment) := by
  have hroutes : ∀ route ∈ selection.routes,
      SizedFor resolver record route.mode route.evidence := by
    unfold PlanRunSubmissionResolver.selectSizeCandidates at h
    obtain ⟨_, _, h⟩ := bind_eq_ok h
    obtain ⟨current, _, h⟩ := bind_eq_ok h
    split at h
    next =>
      obtain ⟨_, h⟩ := guard_eq_ok h
      obtain rfl := Except.ok.inj h
      simp
    next =>
      obtain ⟨routes, hmapped, h⟩ := bind_eq_ok h
      obtain ⟨_, h⟩ := guard_eq_ok h
      obtain rfl := Except.ok.inj h
      intro route hroute
      obtain ⟨name, _, hselected⟩ := exists_of_mem_mapM hmapped hroute
      exact selectRoute_sizedFor hselected
  unfold Selection.mode Selection.evidence
  cases hfind : selection.routes.find? fun route => decide (route.environment = environment) with
  | none => exact .unsized none
  | some route => exact hroutes route (List.mem_of_find?_eq_some hfind)

theorem sizeMatches_sizeDecision (hown : EstimatesOwn resolver) {selection : Selection}
    (h : SizedFor resolver record (selection.mode plan.environment)
      (selection.evidence plan.environment)) :
    sizeMatches (resolver.sizeDecision plan selection) = true := by
  unfold PlanRunSubmissionResolver.sizeDecision
  generalize selection.mode plan.environment = mode at h
  generalize selection.evidence plan.environment = evidence at h
  cases h with
  | unsized => rfl
  | default =>
    cases resolver.sizeOf plan with
    | none => rfl
    | some candidate => simp [sizeMatches]
  | estimated entry estimate hentry h =>
    cases resolver.sizeOf plan with
    | none => rfl
    | some candidate => simp [sizeMatches, hown entry hentry record estimate h]

/-- How a resolver places a request. -/
def placementModeOf (resolver : PlanRunSubmissionResolver) (requested : Option String) :
    PlacementMode :=
  if requested.isSome then .manualOverride
  else if resolver.environment = "auto" then .automatic else .configuredDefault

theorem place_mode {plans : List Plan} {placement : PlacementDecision}
    (h : resolver.place plans requested = .ok (plan, placement)) :
    placement.mode = placementModeOf resolver requested := by
  have hexact : ∀ environment mode, ((selectEnvironment plans environment).map fun plan =>
      (plan, resolver.exactDecision plan mode)) = .ok (plan, placement) →
      placement.mode = mode := by
    intro environment mode hmap
    cases hselected : selectEnvironment plans environment with
    | error e =>
      rw [hselected] at hmap
      cases hmap
    | ok found =>
      rw [hselected] at hmap
      obtain ⟨_, rfl⟩ := Prod.mk.inj (Except.ok.inj hmap)
      rfl
  unfold PlanRunSubmissionResolver.place at h
  cases requested with
  | some environment => exact hexact environment _ h
  | none =>
    dsimp only at h
    split at h
    next hauto =>
      unfold PlanRunSubmissionResolver.automaticallySelect at h
      split at h
      next => cases h
      next =>
        obtain ⟨_, rfl⟩ := Prod.mk.inj (Except.ok.inj h)
        simp [placementModeOf, hauto]
    next hexactly =>
      rw [hexact resolver.environment _ h]
      simp [placementModeOf, hexactly]

/-- What a resolved submission that asks for no size is made of. -/
theorem resolve_unsized (hregistered : Registered resolver)
    (hdistinguished : Distinguished resolver) (hown : EstimatesOwn resolver)
    (h : resolver.resolve record idempotencyKey requestedAt requested none none = .ok submission) :
    ∃ plan placement size, Current resolver record plan ∧
      submission = submissionOf record idempotencyKey requestedAt plan placement size ∧
      placement.mode = placementModeOf resolver requested ∧ sizeMatches size = true ∧
      ((requested = none ∧ resolver.environment = "auto") ∨
        plan.environment = requested.getD resolver.environment) ∧
      submission.postInit = .ok () := by
  unfold PlanRunSubmissionResolver.resolve at h
  obtain ⟨selection, hselection, h⟩ := bind_eq_ok h
  obtain ⟨⟨plan, placement⟩, hplace, h⟩ := bind_eq_ok h
  dsimp only at h
  obtain ⟨_, _, h⟩ := bind_eq_ok h
  obtain ⟨_, _, h⟩ := bind_eq_ok h
  obtain ⟨_, hchecked, h⟩ := bind_eq_ok h
  obtain rfl := Except.ok.inj h
  obtain ⟨hplan, henvironment, _⟩ := place_eq_ok hplace
  refine ⟨plan, placement, _, ((mem_selectSizeCandidates hregistered hdistinguished hselection).1
    hplan).1, rfl, place_mode hplace, ?_, henvironment, ?_⟩
  · exact sizeMatches_sizeDecision hown (selectSizeCandidates_sizedFor hselection _)
  · generalize (submissionOf record idempotencyKey requestedAt plan placement
      (resolver.sizeDecision plan selection)).postInit = checked at hchecked
    cases checked with
    | error e => cases hchecked
    | ok => rfl

theorem submission_postInit (h : submission.postInit = .ok ()) :
    isPortableId submission.environment = true ∧
      GraphStore.isIdempotencyKey submission.idempotencyKey = true := by
  unfold RunSubmission.postInit at h
  obtain ⟨_, hportable, h⟩ := bind_eq_ok h
  obtain ⟨_, _, h⟩ := bind_eq_ok h
  obtain ⟨_, _, h⟩ := bind_eq_ok h
  obtain ⟨_, h⟩ := guard_eq_ok h
  obtain ⟨_, h⟩ := guard_eq_ok h
  obtain ⟨_, h⟩ := guard_eq_ok h
  obtain ⟨hkey, _⟩ := guard_eq_ok h
  rw [Bool.not_eq_true', Bool.not_eq_false] at hkey
  refine ⟨?_, hkey⟩
  unfold requirePortableId at hportable
  split at hportable
  next hid => exact hid
  next => cases hportable

theorem isValid_of_parts {request : ApiStart} (hnonempty : request.environments ≠ [])
    (hlength : request.environments.length ≤ 100) (hnodup : request.environments.Nodup)
    (hsorted : request.environments.Pairwise (· ≤ ·))
    (hportable : ∀ environment ∈ request.environments, isPortableId environment = true)
    (hmode : request.placementMode ∈ [PlacementMode.automatic, .configuredDefault, .manualOverride])
    (hkey : GraphStore.isIdempotencyKey request.idempotencyKey = true) :
    request.isValid = true := by
  have hsame : request.environments.dedup.insertionSort (· ≤ ·) = request.environments := by
    rw [hnodup.dedup]
    exact hsorted.insertionSort_eq
  simp only [ApiStart.isValid, Bool.and_eq_true, decide_eq_true_eq, Bool.not_eq_true',
    List.isEmpty_eq_false_iff, List.all_eq_true]
  exact ⟨⟨⟨⟨⟨hnonempty, hlength⟩, hsame⟩, hportable⟩, hmode⟩, hkey⟩

theorem placementModeOf_mem (resolver : PlanRunSubmissionResolver) (requested : Option String) :
    placementModeOf resolver requested ∈
      [PlacementMode.automatic, .configuredDefault, .manualOverride] := by
  unfold placementModeOf
  split
  · simp
  · split <;> simp

/-- The lookup of a request covers the environment that the request was resolved to. -/
theorem idempotencyLookup_covers (hbounded : resolver.plans.plans.length ≤ 100)
    (hplan : Current resolver record plan)
    (henvironment : (requested = none ∧ resolver.environment = "auto") ∨
      plan.environment = requested.getD resolver.environment)
    (hkey : GraphStore.isIdempotencyKey idempotencyKey = true) :
    ∃ environments, resolver.idempotencyLookup record requested =
        .ok (environments, placementModeOf resolver requested) ∧
      plan.environment ∈ environments ∧ environments.Nodup ∧
      ∀ window, ApiStart.isValid ⟨record, environments, placementModeOf resolver requested,
        idempotencyKey, window⟩ = true := by
  have hsingle : ∀ environment, plan.environment = environment →
      plan.environment ∈ [environment] ∧ [environment].Nodup ∧
      ∀ window, ApiStart.isValid ⟨record, [environment], placementModeOf resolver requested,
        idempotencyKey, window⟩ = true := by
    intro environment hsame
    refine ⟨by simp [hsame], by simp, ?_⟩
    intro window
    apply isValid_of_parts (by simp) (by simp) (by simp) (by simp) _ (placementModeOf_mem _ _) hkey
    intro name hname
    obtain rfl := List.mem_singleton.mp hname
    rw [← hsame]
    exact plan.portable
  cases requested with
  | some environment =>
    have hsame : plan.environment = environment := by simpa using henvironment
    exact ⟨[environment], rfl, hsingle environment hsame⟩
  | none =>
    by_cases hauto : resolver.environment = "auto"
    · have hmem : plan.environment ∈ ((resolver.plans.plans.filter (ofGraph record)).map
          fun plan => plan.environment).dedup.insertionSort (· ≤ ·) := by
        rw [List.mem_insertionSort, List.mem_dedup]
        exact List.mem_map_of_mem (List.mem_filter.mpr ⟨hplan.1, hplan.2.1⟩)
      have hnodup := ((List.perm_insertionSort (· ≤ ·) ((resolver.plans.plans.filter
        (ofGraph record)).map fun plan => plan.environment).dedup).nodup_iff).mpr
          (List.nodup_dedup _)
      refine ⟨_, ?_, hmem, hnodup, ?_⟩
      · unfold PlanRunSubmissionResolver.idempotencyLookup
        dsimp only
        rw [if_neg (not_not.mpr hauto)]
        split
        next hempty =>
          rw [hempty] at hmem
          cases hmem
        next => simp [placementModeOf, hauto]
      · intro window
        apply isValid_of_parts (List.ne_nil_of_mem hmem) _ hnodup
          (List.pairwise_insertionSort _ _) _ (placementModeOf_mem resolver none) hkey
        · dsimp only
          rw [List.length_insertionSort]
          have hdedup := (List.dedup_sublist ((resolver.plans.plans.filter (ofGraph record)).map
            fun plan => plan.environment)).length_le
          have hfilter := List.length_filter_le (ofGraph record) resolver.plans.plans
          rw [List.length_map] at hdedup
          omega
        · intro name hname
          rw [List.mem_insertionSort, List.mem_dedup] at hname
          obtain ⟨other, _, rfl⟩ := List.mem_map.mp hname
          exact other.portable
    · have hsame : plan.environment = resolver.environment := by simpa [hauto] using henvironment
      refine ⟨[resolver.environment], ?_, hsingle _ hsame⟩
      unfold PlanRunSubmissionResolver.idempotencyLookup
      simp [placementModeOf, hauto]

/-- The run of a resolved submission is one of the same request. -/
theorem sameRequest_resolved {sha256 : String → String} {size : Option SizeClassDecision}
    {placement : PlacementDecision} {environments : List String}
    (hmem : plan.environment ∈ environments)
    (hmode : placement.mode = placementModeOf resolver requested)
    (hsize : sizeMatches size = true) :
    ApiStart.sameRequest ⟨record, environments, placementModeOf resolver requested, idempotencyKey,
      none⟩ (createRunRecord sha256
        (submissionOf record idempotencyKey requestedAt plan placement size)) = true := by
  simp [ApiStart.sameRequest, createRunRecord, submissionOf, apiTrigger, placementMatches, hmem,
    hmode, hsize]

end Resolved

section Explicit

variable {resolver : PlanRunSubmissionResolver} {record : GraphReference} {sizing : Sizing}
  {idempotencyKey : String} {requestedAt : ℤ} {requested : Option String}
  {submission : RunSubmission} {environment : String}

/-- An environment that was sized as the request asks. -/
def SizedAsAsked (resolver : PlanRunSubmissionResolver) (route : RouteSelection) : Prop :=
  ∀ plan ∈ route.plans, (resolver.sizeOf plan).isSome ∧
    (route.mode = some .manualOverride ∨ (route.mode = some .automaticInput ∧
      route.evidence.map SizeSelectionEvidence.source = some "api_request"))

theorem mem_of_choose {choices : List (Plan × SizeClassCandidate)}
    {evidence : Option SizeSelectionEvidence} {choice : Plan × SizeClassCandidate}
    (h : resolver.choose sizing choices evidence = some choice) : choice ∈ choices := by
  cases evidence with
  | some evidence => exact (choose_some h).1
  | none => exact List.mem_of_find?_eq_some h

theorem selectRoute_sizedAsAsked {current : List Plan} {route : RouteSelection}
    (hexplicit : sizing.isExplicit = true)
    (h : resolver.selectRoute record sizing current environment = .ok route) :
    route.environment = environment ∧ SizedAsAsked resolver route := by
  unfold PlanRunSubmissionResolver.selectRoute at h
  dsimp only at h
  split at h
  next =>
    obtain rfl := Except.ok.inj h
    exact ⟨rfl, by simp [SizedAsAsked]⟩
  next =>
    split at h
    next => cases h
    next evidence mode hestimate =>
      split at h
      next =>
        obtain rfl := Except.ok.inj h
        exact ⟨rfl, by simp [SizedAsAsked]⟩
      next choice hchoice =>
        obtain rfl := Except.ok.inj h
        refine ⟨rfl, ?_⟩
        intro plan hplan
        obtain rfl := List.mem_singleton.mp hplan
        have hchosen := mem_of_choose hchoice
        constructor
        · obtain ⟨found, _, hfound⟩ := List.mem_filterMap.mp hchosen
          obtain ⟨candidate, hsize, rfl⟩ := Option.map_eq_some_iff.mp hfound
          rw [hsize]
          rfl
        · unfold PlanRunSubmissionResolver.routeEstimate at hestimate
          simp only [Sizing.isExplicit, Bool.or_eq_true] at hexplicit
          cases hbytes : sizing.estimatedInputBytes with
          | some bytes =>
            rw [hbytes] at hestimate
            obtain ⟨rfl, rfl⟩ := Prod.mk.inj (Except.ok.inj hestimate)
            unfold PlanRunSubmissionResolver.sizingMode
            rw [hbytes]
            split
            · exact .inl rfl
            · exact .inr ⟨rfl, rfl⟩
          | none =>
            rw [hbytes] at hestimate hexplicit
            have hclass : sizing.sizeClass.isSome = true := by simpa using hexplicit
            dsimp only at hestimate
            rw [if_pos hclass] at hestimate
            obtain ⟨rfl, rfl⟩ := Prod.mk.inj (Except.ok.inj hestimate)
            unfold PlanRunSubmissionResolver.sizingMode
            rw [if_pos hclass]
            exact .inl rfl

theorem plan_environment_of_selectRoute {current : List Plan} {route : RouteSelection}
    {plan : Plan} (h : resolver.selectRoute record sizing current environment = .ok route)
    (hplan : plan ∈ route.plans) : plan.environment = environment := by
  have hroute : ∀ other ∈ current.filter fun plan => plan.environment = environment,
      other.environment = environment := by
    intro other hother
    simpa using (List.mem_filter.mp hother).2
  unfold PlanRunSubmissionResolver.selectRoute at h
  dsimp only at h
  split at h
  next =>
    obtain rfl := Except.ok.inj h
    dsimp only at hplan
    split at hplan
    · cases hplan
    · exact hroute plan hplan
  next =>
    split at h
    next => cases h
    next evidence mode hestimate =>
      split at h
      next =>
        obtain rfl := Except.ok.inj h
        cases hplan
      next choice hchoice =>
        obtain rfl := Except.ok.inj h
        obtain rfl := List.mem_singleton.mp hplan
        have hchosen := mem_of_choose hchoice
        obtain ⟨found, hfound, hcandidate⟩ := List.mem_filterMap.mp hchosen
        obtain ⟨candidate, _, rfl⟩ := Option.map_eq_some_iff.mp hcandidate
        exact hroute found hfound

/-- A request that asks for a size is resolved to an explicitly sized run. -/
theorem resolve_explicitlySized {sizeClass : Option String} {estimatedInputBytes : Option ℕ}
    (hexplicit : sizeClass.isSome ∨ estimatedInputBytes.isSome)
    (h : resolver.resolve record idempotencyKey requestedAt requested sizeClass
      estimatedInputBytes = .ok submission) :
    ∃ decision, submission.sizeClassDecision = some decision ∧ ExplicitlySized decision := by
  have hexplicit : Sizing.isExplicit ⟨sizeClass, estimatedInputBytes, requestedAt⟩ = true := by
    simpa [Sizing.isExplicit] using hexplicit
  unfold PlanRunSubmissionResolver.resolve at h
  obtain ⟨selection, hselection, h⟩ := bind_eq_ok h
  obtain ⟨⟨plan, placement⟩, hplace, h⟩ := bind_eq_ok h
  dsimp only at h
  obtain ⟨_, _, h⟩ := bind_eq_ok h
  obtain ⟨_, _, h⟩ := bind_eq_ok h
  obtain ⟨_, _, h⟩ := bind_eq_ok h
  obtain rfl := Except.ok.inj h
  have hplan := (place_eq_ok hplace).1
  unfold PlanRunSubmissionResolver.selectSizeCandidates at hselection
  obtain ⟨_, _, hselection⟩ := bind_eq_ok hselection
  obtain ⟨current, hcurrent, hselection⟩ := bind_eq_ok hselection
  split at hselection
  next => cases hselection
  next =>
    obtain ⟨routes, hroutes, hselection⟩ := bind_eq_ok hselection
    obtain ⟨_, hselection⟩ := guard_eq_ok hselection
    obtain rfl := Except.ok.inj hselection
    obtain ⟨route, hroute, hplanRoute⟩ := List.mem_flatMap.mp hplan
    obtain ⟨name, _, hselected⟩ := exists_of_mem_mapM hroutes hroute
    obtain ⟨hname, hsized⟩ := selectRoute_sizedAsAsked hexplicit hselected
    have hplaced : plan.environment = name := plan_environment_of_selectRoute hselected hplanRoute
    have hnodup : (routes.map RouteSelection.environment).Nodup := by
      have hnames : routes.map RouteSelection.environment =
          (routeEnvironments current (requested.getD resolver.environment)).map id :=
        map_of_mapM (fun name route hroute => (selectRoute_sizedAsAsked hexplicit hroute).1) hroutes
      rw [hnames, List.map_id]
      exact (((List.perm_insertionSort _ _).nodup_iff).mpr (List.nodup_dedup _)).filter _
    have hfind : routes.find? (fun route => route.environment = plan.environment) = some route := by
      rw [hplaced, ← hname]
      exact Tables.select_of_mem hnodup hroute
    obtain ⟨hcandidate, hmode⟩ := hsized plan hplanRoute
    obtain ⟨candidate, hcandidate⟩ := Option.isSome_iff_exists.mp hcandidate
    show ∃ decision, resolver.sizeDecision plan ⟨_, routes⟩ = some decision ∧ _
    unfold PlanRunSubmissionResolver.sizeDecision Selection.mode Selection.evidence
    dsimp only
    rw [hfind, hcandidate, Option.bind_some, Option.bind_some]
    rcases hmode with hmode | ⟨hmode, hsource⟩
    · rw [hmode]
      exact ⟨_, rfl, .inl rfl⟩
    · rw [hmode]
      exact ⟨_, rfl, .inr ⟨rfl, .inr hsource⟩⟩

end Explicit

section Agreement

variable (sha256 : String → String)

/-- The submission of a replay. -/
def replaySubmission (source : RunRecord) (graph : GraphReference) (plan : ExecutionPlan)
    (idempotencyKey : String) (now : ℤ) : RunSubmission where
  environment := source.environment
  project := source.project
  graph := graph
  planId := plan.planId
  planRevision := plan.revision
  trigger := ⟨.api, "control-api", none, some source.runId, source.trigger.repairWindow⟩
  idempotencyKey := idempotencyKey
  requestedAt := now
  requestedDeadlineSeconds := source.requestedDeadlineSeconds
  placementDecision := some
    { mode := .replay
      selectedEnvironment := source.environment
      selectedLocality := source.placementDecision.bind PlacementDecision.selectedLocality
      estimatedCostMicrousd := source.placementDecision.bind PlacementDecision.estimatedCostMicrousd
      preferredLocality := none
      maxCostMicrousd := none
      eligiblePlanCount := 1 }
  sizeClassDecision := source.sizeClassDecision.map fun decision =>
    { decision with
      mode := .replay
      eligiblePlanCount := 1
      estimateSource := none
      estimateObservedAt := none }

/-- Whatever was in the store, Control has brought it here. -/
def Arrived (cfg : ControlConfig) : Prop :=
  ∃ w, RunsKept sha256 w.snapshots ∧ ReflTransGen (ControlMoves sha256) (.start w) cfg

/-- A lookup, while Control goes on. -/
abbrev LookedUp (request : ApiStart) (cfg : ControlConfig)
    (out : Except LifecycleError (Option (StoredRun × RunState))) (cfg' : ControlConfig) : Prop :=
  Among lookups (ControlMoves sha256) (findApiStart sha256 request) cfg out cfg'

/-- The run of the submission is there. -/
def Started (submission : RunSubmission) (cfg : ControlConfig) : Prop :=
  Saved cfg.state.snapshots (createRunRecord sha256 submission)

/-- The lookup of the key ends with the status of the run, or, if its key belongs to a run in
another environment too, with a conflict. -/
structure FindsRun (request : ApiStart) (submission : RunSubmission) (cfg : ControlConfig)
    (out : Except LifecycleError (Option (StoredRun × RunState))) (cfg' : ControlConfig) :
    Prop where
  alone : (∀ environment ∈ request.environments, environment ≠ submission.environment →
      cfg'.state.findIdempotency (request.scope sha256 environment) = none) →
    ∃ stored, Genuine cfg'.state stored ∧
      stored.record.runId = logicalRunIdentity sha256 submission ∧ out = statusOf stored
  shared : (∃ environment ∈ request.environments, environment ≠ submission.environment ∧
      (cfg.state.findIdempotency (request.scope sha256 environment)).isSome) →
    ∃ message, out = .error (.idempotencyConflict message)

structure LookupAgrees : Prop where
  /-- A start that asked for no size is found again, whatever has become of estimates and costs. -/
  finds : ∀ (c : Configuration) resolver, c.configure = .ok resolver → EstimatesOwn resolver →
    ∀ record idempotencyKey requestedAt requested submission,
    resolver.resolve record idempotencyKey requestedAt requested none none = .ok submission →
    ∀ resolver' : PlanRunSubmissionResolver, resolver'.plans = resolver.plans →
      resolver'.environment = resolver.environment →
    ∃ environments mode, resolver'.idempotencyLookup record requested = .ok (environments, mode) ∧
      ∀ cfg, Arrived sha256 cfg → Started sha256 submission cfg → ∀ out cfg',
        LookedUp sha256 ⟨record, environments, mode, idempotencyKey, none⟩ cfg out cfg' →
        FindsRun sha256 ⟨record, environments, mode, idempotencyKey, none⟩ submission cfg out cfg'
  /-- A run of another request under the key is a conflict. -/
  refuses : ∀ request, request.isValid = true → ∀ cfg, Arrived sha256 cfg →
    ∀ environment ∈ request.environments, ∀ run,
    cfg.state.findIdempotency (request.scope sha256 environment) = some run →
    DifferentRequest request run.record → ∀ out cfg', LookedUp sha256 request cfg out cfg' →
    ∃ message, out = .error (.idempotencyConflict message)
  /-- Nor is one returned that was started in the meantime. -/
  returns : ∀ request, request.isValid = true → ∀ cfg, Arrived sha256 cfg →
    ∀ stored state cfg', LookedUp sha256 request cfg (.ok (some (stored, state))) cfg' →
    ¬ DifferentRequest request stored.record
  /-- Runs of requests that ask for a size, and replays, are of other requests. -/
  sized : ∀ (resolver : PlanRunSubmissionResolver) record idempotencyKey requestedAt requested
    (sizeClass : Option String) (estimatedInputBytes : Option ℕ) submission,
    sizeClass.isSome ∨ estimatedInputBytes.isSome →
    resolver.resolve record idempotencyKey requestedAt requested sizeClass estimatedInputBytes =
      .ok submission →
    ∀ request, DifferentRequest request (createRunRecord sha256 submission)
  replayed : ∀ source graph plan idempotencyKey now request,
    DifferentRequest request
      (createRunRecord sha256 (replaySubmission source graph plan idempotencyKey now))

variable {sha256} {request : ApiStart} {cfg cfg' : ControlConfig}
  {out : Except LifecycleError (Option (StoredRun × RunState))}

theorem Arrived.kept (h : Arrived sha256 cfg) : OriginsKept sha256 cfg := by
  obtain ⟨w, hkept, hmoves⟩ := h
  exact ((OriginsKept.start hkept).moves hmoves).1

theorem eq_singleton_of_nodup {α : Type} {items : List α} {a : α} (hnodup : items.Nodup)
    (hmem : a ∈ items) (h : ∀ b ∈ items, b = a) : items = [a] := by
  cases items with
  | nil => cases hmem
  | cons first rest =>
    have hfirst := h first List.mem_cons_self
    have hrest : rest = [] := by
      apply List.eq_nil_iff_forall_not_mem.mpr
      intro b hb
      rw [hfirst, ← h b (List.mem_cons_of_mem _ hb)] at hnodup
      exact (List.nodup_cons.mp hnodup).1 hb
    rw [hfirst, hrest]

/-- A run of the lookup's request, alone under its key, is what is found. -/
theorem finds_run {submission : RunSubmission} (hvalid : request.isValid = true)
    (hnodup : request.environments.Nodup) (hmem : submission.environment ∈ request.environments)
    (hproject : submission.project = request.record.project)
    (hkey : submission.idempotencyKey = request.idempotencyKey)
    (hsame : request.sameRequest (createRunRecord sha256 submission) = true)
    (harrived : Arrived sha256 cfg) (hstarted : Started sha256 submission cfg)
    (h : LookedUp sha256 request cfg out cfg') :
    FindsRun sha256 request submission cfg out cfg' := by
  obtain ⟨found, rfl, hfound⟩ := findApiStart_found hvalid harrived.kept h
  obtain ⟨run, hrun, _, hunchanged⟩ := harrived.kept.1.find hstarted
  have hscope : RunStore.RunRecord.scope (createRunRecord sha256 submission) =
      request.scope sha256 submission.environment := by
    unfold RunStore.RunRecord.scope ApiStart.scope
    rw [← hproject, ← hkey]
    rfl
  rw [hscope] at hrun
  obtain ⟨stored, hstored, hunchanged'⟩ := hfound.complete _ hmem run hrun
  have horigin := hunchanged.trans hunchanged'
  have henvironment : stored.record.environment = submission.environment := horigin.fields.1
  have hdistinct : (found.map fun stored => stored.record.environment).Nodup :=
    hfound.inOrder.nodup hnodup
  constructor
  · intro halone
    have hothers : ∀ other ∈ found, other = stored := by
      intro other hother
      have hnamed : other.record.environment = stored.record.environment := by
        rw [henvironment]
        by_contra hne
        obtain ⟨hgenuine, hotherProject, hotherKey⟩ := hfound.stored other hother
        have hlisted := hfound.inOrder.subset (List.mem_map_of_mem hother)
        obtain ⟨again, hagain, _⟩ := hfound.kept.1.find (saved_of_genuine hgenuine)
        have hotherScope : RunStore.RunRecord.scope other.record =
            request.scope sha256 other.record.environment := by
          unfold RunStore.RunRecord.scope ApiStart.scope
          rw [hotherProject, hotherKey]
        rw [hotherScope, halone _ hlisted hne] at hagain
        cases hagain
      exact List.inj_on_of_nodup_map hdistinct hother hstored hnamed
    have hsingle : found = [stored] := eq_singleton_of_nodup hdistinct.of_map hstored hothers
    refine ⟨stored, (hfound.stored stored hstored).1, horigin.runId, ?_⟩
    rw [hsingle, ApiStart.select, if_pos]
    rw [sameRequest_unchanged horigin]
    exact hsame
  · intro hshared
    obtain ⟨environment, henvironments, hne, hisSome⟩ := hshared
    obtain ⟨run', hrun'⟩ := Option.isSome_iff_exists.mp hisSome
    obtain ⟨other, hother, hotherUnchanged⟩ := hfound.complete environment henvironments run' hrun'
    apply select_conflict hstored (.inl _)
    have hscope' := (harrived.kept.1.found hrun').2
    have hotherEnvironment : other.record.environment = environment := by
      rw [hotherUnchanged.fields.1]
      exact congrArg Scope.environment hscope'
    have hdiffers : other ≠ stored := by
      intro hequal
      rw [hequal, henvironment] at hotherEnvironment
      exact hne hotherEnvironment.symm
    have hpair : [other, stored].Subperm found :=
      List.subperm_of_subset (by simp [hdiffers]) (by simp [hother, hstored])
    have hlength : [other, stored].length ≤ found.length := hpair.length_le
    simp only [List.length_cons, List.length_nil] at hlength
    omega

theorem refuses_different (hvalid : request.isValid = true) (harrived : Arrived sha256 cfg)
    {environment : String} (hmem : environment ∈ request.environments) {run : StoredRun}
    (hrun : cfg.state.findIdempotency (request.scope sha256 environment) = some run)
    (hdifferent : DifferentRequest request run.record) (h : LookedUp sha256 request cfg out cfg') :
    ∃ message, out = .error (.idempotencyConflict message) := by
  obtain ⟨found, rfl, hfound⟩ := findApiStart_found hvalid harrived.kept h
  obtain ⟨stored, hstored, hunchanged⟩ := hfound.complete environment hmem run hrun
  exact select_conflict hstored (.inr ((hdifferent.unchanged hunchanged).not_same hvalid))

theorem returns_same (hvalid : request.isValid = true) (harrived : Arrived sha256 cfg)
    {stored : StoredRun} {state : RunState}
    (h : LookedUp sha256 request cfg (.ok (some (stored, state))) cfg') :
    ¬ DifferentRequest request stored.record := by
  obtain ⟨found, hselected, _⟩ := findApiStart_found hvalid harrived.kept h
  obtain ⟨_, hsame, _⟩ := select_returns hselected.symm
  intro hdifferent
  rw [hdifferent.not_same hvalid] at hsame
  cases hsame

/-- A start that asks for no size is found again by its key, and no run of another request is. -/
theorem starts_are_found_again (sha256 : String → String) : LookupAgrees sha256 := by
  constructor
  · intro c resolver hconfigured hown record idempotencyKey requestedAt requested submission
      hresolved resolver' hplans henvironment
    obtain ⟨registry, hregistry, rfl, hchecked⟩ := configure_eq_ok hconfigured
    obtain ⟨hnodup, _, _, hbounded, _⟩ := create_eq_ok hregistry
    have hregistered : Registered (c.resolver registry) := hnodup
    obtain ⟨_, _, _, hdistinguished, _⟩ := postInit_eq_ok hchecked
    obtain ⟨plan, placement, size, hplan, rfl, hmode, hsize, hplaced, hpostInit⟩ :=
      resolve_unsized hregistered hdistinguished hown hresolved
    obtain ⟨_, hkey⟩ := submission_postInit hpostInit
    have hplan' : Current resolver' record plan := by
      unfold Current
      rw [hplans]
      exact hplan
    have hmode' : placement.mode = placementModeOf resolver' requested := by
      unfold placementModeOf
      rw [henvironment]
      exact hmode
    rw [← henvironment] at hplaced
    obtain ⟨environments, hlookup, hmem, hnodup, hvalid⟩ :=
      idempotencyLookup_covers (by rw [hplans]; exact hbounded) hplan' hplaced hkey
    refine ⟨environments, _, hlookup, ?_⟩
    intro cfg harrived hstarted out cfg' hlooked
    exact finds_run (hvalid none) hnodup hmem rfl rfl (sameRequest_resolved hmem hmode' hsize)
      harrived hstarted hlooked
  · intro request hvalid cfg harrived environment hmem run hrun hdifferent out cfg' hlooked
    exact refuses_different hvalid harrived hmem hrun hdifferent hlooked
  · intro request hvalid cfg harrived stored state cfg' hlooked
    exact returns_same hvalid harrived hlooked
  · intro resolver record idempotencyKey requestedAt requested sizeClass estimatedInputBytes
      submission hexplicit hresolved request
    obtain ⟨decision, hdecision, hsized⟩ := resolve_explicitlySized hexplicit hresolved
    exact .sized decision hdecision hsized
  · intro source graph plan idempotencyKey now request
    exact .replay _ rfl rfl

end Agreement

section Shared

variable {sha256 : String → String} {cfg : ControlConfig} {project keySha256 : String}

/-- What a lookup finds in a store that nobody changes meanwhile. -/
theorem findStored_quiet (environments : List String) :
    Among lookups (ControlMoves sha256) (findStored project keySha256 environments) cfg
      (.ok (environments.filterMap fun environment =>
        cfg.state.findIdempotency ⟨environment, project, keySha256⟩)) cfg := by
  induction environments with
  | nil => exact .ret [] cfg
  | cons environment rest ih =>
    refine .perform .refl ⟨rfl, rfl⟩ ?_
    cases hfind : cfg.state.findIdempotency ⟨environment, project, keySha256⟩ with
    | none =>
      rw [List.filterMap_cons]
      simp only [hfind]
      exact ih
    | some stored =>
      rw [List.filterMap_cons]
      simp only [hfind]
      exact ih.bind (.ret _ cfg)

theorem findApiStart_quiet {request : ApiStart} (hvalid : request.isValid = true) :
    LookedUp sha256 request cfg (request.select (request.environments.filterMap fun environment =>
      cfg.state.findIdempotency (request.scope sha256 environment))) cfg := by
  unfold LookedUp findApiStart
  rw [if_pos hvalid]
  apply (findStored_quiet request.environments).bind
  unfold ApiStart.scope
  cases request.select _ with
  | ok result => exact .ret result cfg
  | error e => exact .raise e cfg

theorem moves_of_run {start cfg : ControlConfig} {events : List ControlEvent}
    (run : Run services (take sha256) FromStore start events cfg) :
    ReflTransGen (ControlMoves sha256) start cfg := by
  induction run with
  | refl => exact .refl
  | snoc before admitted next ih => exact ih.tail ⟨_, admitted, next⟩

/-- A plan for each of two environments. -/
def awsPlan : Plan :=
  { PlanResolver.examplePlan 'a' 1000 with environment := "aws", portable := by decide +kernel }

def gcpPlan : Plan :=
  { PlanResolver.examplePlan 'b' 1000 with environment := "gcp", portable := by decide +kernel }

def sharedConfiguration : Configuration where
  plans := [awsPlan, gcpPlan]
  environment := "auto"
  placementCandidates := [⟨awsPlan.revision, "europe", 10⟩, ⟨gcpPlan.revision, "europe", 20⟩]
  preferredLocality := some "europe"
  maxCostMicrousd := some 50
  sizeClassCandidates := []
  defaultSizeClass := none
  inputSizeEstimators := []

def sharedResolver : PlanRunSubmissionResolver :=
  sharedConfiguration.resolver ⟨[awsPlan, gcpPlan]⟩

theorem sharedConfiguration_configure : sharedConfiguration.configure = .ok sharedResolver := by
  have hregistry : ExecutionPlanRegistry.create sharedConfiguration.plans =
      .ok ⟨[awsPlan, gcpPlan]⟩ := by decide +kernel
  have hchecked : sharedResolver.postInit = .ok () := by decide +kernel
  unfold Configuration.configure
  exact bind_ok hregistry (bind_ok hchecked rfl)

def sharedKey : String := "nightly-0001"

/-- The digests of the key and of its two scopes. -/
def sharedDigest (text : String) : String :=
  if text = "nightly-0001" then
    "65d30e3b4c9430574469ad18c2f835ca070310331110a2d8e4e41f35fcedac2a"
  else if text = "aws:sales:65d30e3b4c9430574469ad18c2f835ca070310331110a2d8e4e41f35fcedac2a" then
    "212b637d16c515fcc56e94147af69959d7a4b96645b4fccc0066d077ce22ecc0"
  else if text = "gcp:sales:65d30e3b4c9430574469ad18c2f835ca070310331110a2d8e4e41f35fcedac2a" then
    "d5f6637aa986f6a98a9fcdd03a3a57a60e881d9d0a43452e5132797fcf9c2c37"
  else digest text

/-- The run that automatic placement starts, and the one that is started in another environment
by name. -/
def placedSubmission : RunSubmission :=
  submissionOf exampleGraph sharedKey 0 awsPlan
    ⟨.automatic, "aws", some "europe", some 10, some "europe", some 50, 2⟩ none

def namedSubmission : RunSubmission :=
  submissionOf exampleGraph sharedKey 0 gcpPlan
    ⟨.manualOverride, "gcp", some "europe", some 20, none, none, 1⟩ none

theorem resolve_placedSubmission :
    sharedResolver.resolve exampleGraph sharedKey 0 none none none = .ok placedSubmission := by
  decide +kernel

theorem resolve_namedSubmission :
    sharedResolver.resolve exampleGraph sharedKey 0 (some "gcp") none none =
      .ok namedSubmission := by
  decide +kernel

def sharedRegistry : Registry := ⟨[awsPlan.toExecutionPlan, gcpPlan.toExecutionPlan], ["cloud_run"]⟩

def sharedStart : ApiStart := ⟨exampleGraph, ["aws", "gcp"], .automatic, sharedKey, none⟩

def isStart (_ : ControlConfig) (call : ControlCall) : Bool :=
  match call.step with
  | .start _ => true
  | _ => false

/-- A key that was used in two environments is not found again by automatic placement. -/
theorem shared_key_is_refused : ∃ cfg message,
    sharedConfiguration.configure = .ok sharedResolver ∧
      sharedResolver.resolve exampleGraph sharedKey 0 none none none = .ok placedSubmission ∧
      sharedResolver.resolve exampleGraph sharedKey 0 (some "gcp") none none =
        .ok namedSubmission ∧
      sharedResolver.idempotencyLookup exampleGraph none = .ok (["aws", "gcp"], .automatic) ∧
      ReflTransGen (ControlMoves sharedDigest) (.start World.empty) cfg ∧
      Started sharedDigest placedSubmission cfg ∧ Started sharedDigest namedSubmission cfg ∧
      LookedUp sharedDigest sharedStart cfg (.error (.idempotencyConflict message)) cfg := by
  have hplay : (play (fun o w => some (serve canceledOracle o w)) (take sharedDigest) isStart
      (Config.start World.empty)
      [.issue 0 ⟨sharedRegistry, .start placedSubmission⟩, .exec 0, .exec 0,
        .issue 1 ⟨sharedRegistry, .start namedSubmission⟩, .exec 1, .exec 1]).any
      (fun last => decide (last.state.snapshots.map Write.value =
          [some (createRunRecord sharedDigest namedSubmission),
            some (createRunRecord sharedDigest placedSubmission)] ∧
        (sharedStart.environments.filterMap fun environment =>
          last.state.findIdempotency (sharedStart.scope sharedDigest environment)).length = 2)) =
      true := by
    decide +kernel
  obtain ⟨cfg, hcfg, hfacts⟩ := (Option.any_eq_true _ _).mp hplay
  obtain ⟨hsnapshots, hlength⟩ := of_decide_eq_true hfacts
  have hserved : ∀ o w answer w', some (serve canceledOracle o w) = some (answer, w') →
      services.step o w answer w' := by
    intro o w answer w' hexec
    exact .inl ⟨canceledOracle, Option.some.inj hexec⟩
  have hadmitted : ∀ (cfg : ControlConfig) (event : ControlEvent),
      (∀ i call, event = .issued i call → isStart cfg call = true) → FromStore cfg event := by
    intro cfg event h
    cases event with
    | issued i call =>
      have hstart := h i call rfl
      intro stored hstored
      unfold isStart at hstart
      rw [hstored] at hstart
      cases hstart
    | performed => trivial
    | finished => trivial
    | crashed => trivial
  obtain ⟨events, hrun⟩ := play_run hserved hadmitted hcfg
  have hsaved : ∀ record, some record ∈ cfg.state.snapshots.map Write.value →
      Saved cfg.state.snapshots record := by
    intro record hrecord
    obtain ⟨write, hwrite, hvalue⟩ := List.mem_map.mp hrecord
    exact ⟨write, hwrite, hvalue⟩
  obtain ⟨first, second, htwo⟩ := List.length_eq_two.mp hlength
  have hlooked : LookedUp sharedDigest sharedStart cfg _ cfg :=
    findApiStart_quiet (by decide +kernel)
  rw [htwo] at hlooked
  refine ⟨cfg, _, sharedConfiguration_configure, resolve_placedSubmission,
    resolve_namedSubmission, by decide +kernel, moves_of_run hrun, ?_, ?_, hlooked⟩
  · apply hsaved
    rw [hsnapshots]
    simp
  · apply hsaved
    rw [hsnapshots]
    simp

end Shared

end Dander.Lifecycle
