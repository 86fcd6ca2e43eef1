import Dander.PlanResolver
import Dander.Tables
import Mathlib.Data.List.Pairwise

/-!
# The plan a request resolves to

Of each environment one plan is a candidate, and of the candidates the one that is asked for, or
the best placed one, is taken. Neither depends on the order in which anything is configured.
-/
namespace Dander.PlanResolver

open Execution Orchestration

section Statement

/-- What a resolver is built from. -/
structure Configuration where
  plans : List Plan
  environment : String
  placementCandidates : List PlacementCandidate
  preferredLocality : Option String
  maxCostMicrousd : Option ℕ
  sizeClassCandidates : List SizeClassCandidate
  defaultSizeClass : Option String
  inputSizeEstimators : List (String × InputSizeEstimator)

def Configuration.resolver (c : Configuration) (registry : ExecutionPlanRegistry) :
    PlanRunSubmissionResolver :=
  ⟨registry, c.environment, c.placementCandidates, c.preferredLocality, c.maxCostMicrousd,
    c.sizeClassCandidates, c.defaultSizeClass, c.inputSizeEstimators⟩

def Configuration.configure (c : Configuration) :
    Except ContractError PlanRunSubmissionResolver := do
  let registry ← ExecutionPlanRegistry.create c.plans
  (c.resolver registry).postInit
  return c.resolver registry

/-- The same configuration, listed in another order. -/
structure Reordered (c c' : Configuration) : Prop where
  plans : c.plans.Perm c'.plans
  environment : c'.environment = c.environment
  placementCandidates : c.placementCandidates.Perm c'.placementCandidates
  preferredLocality : c'.preferredLocality = c.preferredLocality
  maxCostMicrousd : c'.maxCostMicrousd = c.maxCostMicrousd
  sizeClassCandidates : c.sizeClassCandidates.Perm c'.sizeClassCandidates
  defaultSizeClass : c'.defaultSizeClass = c.defaultSizeClass
  inputSizeEstimators : c.inputSizeEstimators.Perm c'.inputSizeEstimators

variable (resolver : PlanRunSubmissionResolver) (record : GraphReference) (sizing : Sizing)

/-- A registered plan of the graph's current revision. -/
def Current (plan : Plan) : Prop :=
  plan ∈ resolver.plans.plans ∧ ofGraph record plan = true ∧ isCurrent record plan = true

/-- A current plan of an environment that has a size class. -/
structure Sized (environment : String) (plan : Plan) (candidate : SizeClassCandidate) : Prop where
  current : Current resolver record plan
  environment : plan.environment = environment
  sizeOf : resolver.sizeOf plan = some candidate

/-- The size of the input in an environment: that of the request, or, if the request asks for no
size class, what the estimator of the environment tells. -/
def estimateFor (environment : String) : Option ℕ :=
  sizing.estimatedInputBytes <|>
    if sizing.sizeClass.isSome then none
    else (resolver.estimatorOf environment).bind fun estimator =>
      (estimator record).toOption.map InputSizeEstimate.estimatedInputBytes

/-- The plan's size class is the smallest of its environment that takes the input, or, if its size
is not known, the class that is asked for or the default one. -/
def FitsBest (plan : Plan) (candidate : SizeClassCandidate) : Prop :=
  match estimateFor resolver record sizing plan.environment with
  | some bytes => bytes ≤ candidate.maxInputBytes ∧
      ∀ other otherCandidate, Sized resolver record plan.environment other otherCandidate →
        bytes ≤ otherCandidate.maxInputBytes →
        sizeKey (plan, candidate) ≤ sizeKey (other, otherCandidate)
  | none => (sizing.sizeClass <|> resolver.defaultSizeClass) = some candidate.sizeClass

/-- The candidate of an environment. An environment without size classes has all its plans, but
only for a request that asks for no size. -/
def PerEnvironment (plan : Plan) : Prop :=
  Current resolver record plan ∧
    ((∃ candidate, resolver.sizeOf plan = some candidate ∧
        FitsBest resolver record sizing plan candidate) ∨
      ((∀ other candidate, ¬ Sized resolver record plan.environment other candidate) ∧
        sizing.isExplicit = false))

/-- The best placed plan within the budget. -/
structure BestPlaced (plan : Plan) (preferred : String) (maxCost : ℕ)
    (candidate : PlacementCandidate) : Prop where
  preferredLocality : resolver.preferredLocality = some preferred
  maxCostMicrousd : resolver.maxCostMicrousd = some maxCost
  placementOf : resolver.placementOf plan = some candidate
  affordable : candidate.estimatedCostMicrousd ≤ maxCost
  minimal : ∀ other otherCandidate, PerEnvironment resolver record sizing other →
    resolver.placementOf other = some otherCandidate →
    otherCandidate.estimatedCostMicrousd ≤ maxCost →
    placementKey preferred (plan, candidate) ≤ placementKey preferred (other, otherCandidate)

/-- What holds of the plan that a submission selects. -/
structure ResolvedTo (requested : Option String) (submission : RunSubmission) (plan : Plan) :
    Prop where
  selects : submission.planSelection = plan.selection
  candidate : PerEnvironment resolver record sizing plan
  environment : (requested = none ∧ resolver.environment = "auto") ∨
    plan.environment = requested.getD resolver.environment
  fits : ∀ bytes, estimateFor resolver record sizing plan.environment = some bytes →
    (sizing.estimatedInputBytes.isSome ∨
      ∃ other otherCandidate, Sized resolver record plan.environment other otherCandidate) →
    ∃ candidate, resolver.sizeOf plan = some candidate ∧ bytes ≤ candidate.maxInputBytes ∧
      ∀ other otherCandidate, Sized resolver record plan.environment other otherCandidate →
        bytes ≤ otherCandidate.maxInputBytes →
        candidate.maxInputBytes ≤ otherCandidate.maxInputBytes
  placed : requested = none → resolver.environment = "auto" → ∃ preferred maxCost candidate,
    BestPlaced resolver record sizing plan preferred maxCost candidate
  accepted : validateSubmissionPlan submission plan.toExecutionPlan = .ok ()

end Statement

section Registry

variable {registered after : List Plan} {plans plans' : List Plan}

/-- What registering plans leaves: each plan once, and no revision twice. -/
theorem register_eq_ok (h : plans.foldlM register registered = .ok after)
    (hnodup : (registered.map fun plan => plan.revision).Nodup) :
    (after.map fun plan => plan.revision).Nodup ∧
      ∀ plan, plan ∈ after ↔ plan ∈ registered ∨ plan ∈ plans := by
  induction plans generalizing registered with
  | nil =>
    obtain rfl := Except.ok.inj h
    exact ⟨hnodup, by simp⟩
  | cons first rest ih =>
    rw [List.foldlM_cons] at h
    obtain ⟨next, hnext, h⟩ := bind_eq_ok h
    unfold register at hnext
    split at hnext
    next hnone =>
      obtain rfl := Except.ok.inj hnext
      have hfree : Tables.select (fun plan : Plan => plan.revision) registered first.revision =
          none := hnone
      obtain ⟨hafter, hmem⟩ := ih h (Tables.nodup_append_new hnodup hfree)
      refine ⟨hafter, ?_⟩
      intro plan
      rw [hmem plan]
      simp only [List.mem_append, List.mem_cons, List.not_mem_nil, or_false]
      tauto
    next existing hsome =>
      split at hnext
      next heq =>
        obtain rfl := Except.ok.inj hnext
        obtain ⟨hafter, hmem⟩ := ih h hnodup
        refine ⟨hafter, ?_⟩
        intro plan
        have hold : existing ∈ registered := List.mem_of_find?_eq_some hsome
        rw [heq] at hold
        rw [hmem plan, List.mem_cons]
        constructor
        · rintro (hplan | hplan)
          · exact .inl hplan
          · exact .inr (.inr hplan)
        · rintro (hplan | rfl | hplan)
          · exact .inl hplan
          · exact .inl hold
          · exact .inr hplan
      next => cases hnext

/-- Plans that agree on their revisions can be registered. -/
theorem register_ok
    (hagree : ∀ first second, first ∈ registered ∨ first ∈ plans →
      second ∈ registered ∨ second ∈ plans → first.revision = second.revision → first = second) :
    ∃ after, plans.foldlM register registered = .ok after := by
  induction plans generalizing registered with
  | nil => exact ⟨registered, rfl⟩
  | cons first rest ih =>
    rw [List.foldlM_cons]
    unfold register
    split
    next hnone =>
      rw [ok_bind]
      apply ih
      intro a b ha hb hrevision
      apply hagree a b _ _ hrevision
      · simp only [List.mem_append, List.mem_cons, List.not_mem_nil, or_false] at ha ⊢
        tauto
      · simp only [List.mem_append, List.mem_cons, List.not_mem_nil, or_false] at hb ⊢
        tauto
    next existing hsome =>
      have hold : existing ∈ registered := List.mem_of_find?_eq_some hsome
      have hrevision : existing.revision = first.revision := by
        simpa using List.find?_some hsome
      have heq := hagree existing first (.inl hold) (.inr List.mem_cons_self) hrevision
      rw [if_pos heq, ok_bind]
      apply ih
      intro a b ha hb
      apply hagree a b
      · simp only [List.mem_cons]
        tauto
      · simp only [List.mem_cons]
        tauto

end Registry

section Selecting

variable {resolver : PlanRunSubmissionResolver} {record : GraphReference} {sizing : Sizing}
  {current : List Plan} {environment : String} {plan other : Plan}
  {candidate otherCandidate : SizeClassCandidate}

/-- No revision of the registry has two plans. -/
def Registered (resolver : PlanRunSubmissionResolver) : Prop :=
  (resolver.plans.plans.map fun plan => plan.revision).Nodup

theorem Registered.plan_eq (hregistered : Registered resolver)
    (hplan : plan ∈ resolver.plans.plans) (hother : other ∈ resolver.plans.plans)
    (hrevision : plan.revision = other.revision) : plan = other :=
  List.inj_on_of_nodup_map hregistered hplan hother hrevision

theorem mem_currentForGraph (h : resolver.plans.currentForGraph record = .ok current) :
    plan ∈ current ↔ Current resolver record plan := by
  unfold ExecutionPlanRegistry.currentForGraph at h
  dsimp only at h
  obtain ⟨_, h⟩ := guard_eq_ok h
  obtain ⟨_, h⟩ := guard_eq_ok h
  obtain rfl := Except.ok.inj h
  simp only [Current, List.mem_filter]
  tauto

theorem mem_choices (hcurrent : ∀ plan, plan ∈ current ↔ Current resolver record plan) :
    (plan, candidate) ∈ resolver.choices (current.filter fun plan =>
      plan.environment = environment) ↔ Sized resolver record environment plan candidate := by
  unfold PlanRunSubmissionResolver.choices
  simp only [List.mem_filterMap, List.mem_filter, decide_eq_true_eq, Option.map_eq_some_iff,
    Prod.mk.injEq]
  constructor
  · intro h
    obtain ⟨found, ⟨hmem, henvironment⟩, _, hsize, rfl, rfl⟩ := h
    exact ⟨(hcurrent found).mp hmem, henvironment, hsize⟩
  · intro h
    exact ⟨plan, ⟨(hcurrent plan).mpr h.current, h.environment⟩, candidate, h.sizeOf, rfl, rfl⟩

/-- The estimate that a route is sized by. -/
theorem routeEstimate_bytes {evidence : Option SizeSelectionEvidence} {mode : Option SizeClassMode}
    (h : resolver.routeEstimate record sizing environment = .ok (evidence, mode)) :
    evidence.map SizeSelectionEvidence.estimatedInputBytes =
      estimateFor resolver record sizing environment := by
  unfold PlanRunSubmissionResolver.routeEstimate at h
  unfold estimateFor
  cases hbytes : sizing.estimatedInputBytes with
  | some bytes =>
    rw [hbytes] at h
    obtain ⟨rfl, rfl⟩ := Prod.mk.inj (Except.ok.inj h)
    rfl
  | none =>
    rw [hbytes] at h
    dsimp only at h
    by_cases hclass : sizing.sizeClass.isSome = true
    · rw [if_pos hclass] at h
      obtain ⟨rfl, rfl⟩ := Prod.mk.inj (Except.ok.inj h)
      simp [hclass]
    · rw [if_neg hclass] at h
      cases hestimator : resolver.estimatorOf environment with
      | none =>
        rw [hestimator] at h
        obtain ⟨rfl, rfl⟩ := Prod.mk.inj (Except.ok.inj h)
        simp
      | some estimator =>
        rw [hestimator] at h
        dsimp only at h
        cases hestimate : estimator record with
        | ok estimate =>
          rw [hestimate] at h
          obtain ⟨rfl, rfl⟩ := Prod.mk.inj (Except.ok.inj h)
          simp [hclass, hestimate, Except.toOption]
        | error e =>
          rw [hestimate] at h
          cases e with
          | inputSizeEstimation =>
            obtain ⟨rfl, rfl⟩ := Prod.mk.inj (Except.ok.inj h)
            simp [hestimate, Except.toOption]
          | other message => cases h

theorem inj_of_nodup_filterMap {α β : Type} {f : α → Option β} {items : List α}
    (hnodup : (items.filterMap f).Nodup) {a b : α} {c : β} (ha : a ∈ items) (hb : b ∈ items)
    (hfa : f a = some c) (hfb : f b = some c) : a = b := by
  have hsymm : Std.Symm fun a a' => ∀ b, f a = some b → ∀ b', f a' = some b' → b ≠ b' :=
    ⟨fun a a' h b hb b' hb' hsame => h b' hb' b hb hsame.symm⟩
  by_contra hne
  exact (List.pairwise_filterMap.mp hnodup).forall ha hb hne c hfa c hfb rfl

/-- A route has no size class twice. -/
def Distinguished (resolver : PlanRunSubmissionResolver) : Prop :=
  ∀ routed ∈ resolver.plans.plans.map route, resolver.checkRoute routed = .ok ()

theorem Distinguished.plan_eq (hdistinguished : Distinguished resolver)
    (hplan : Sized resolver record environment plan candidate)
    (hother : Sized resolver record environment other otherCandidate)
    (hclass : candidate.sizeClass = otherCandidate.sizeClass) : plan = other := by
  have hgraph := hplan.current.2.1
  have hotherGraph := hother.current.2.1
  simp only [ofGraph, Bool.and_eq_true, decide_eq_true_eq] at hgraph hotherGraph
  have hroute : route other = route plan := by
    simp only [route, hplan.environment, hother.environment, hgraph, hotherGraph]
  have hcheck := hdistinguished (route plan) (List.mem_map_of_mem hplan.current.1)
  unfold PlanRunSubmissionResolver.checkRoute at hcheck
  dsimp only at hcheck
  obtain ⟨_, hcheck⟩ := guard_eq_ok hcheck
  obtain ⟨hnodup, _⟩ := guard_eq_ok hcheck
  apply inj_of_nodup_filterMap (not_not.mp hnodup) (List.mem_filter.mpr ⟨hplan.current.1, _⟩)
    (List.mem_filter.mpr ⟨hother.current.1, _⟩)
  · show (resolver.sizeOf plan).map SizeClassCandidate.sizeClass = some candidate.sizeClass
    rw [hplan.sizeOf]
    rfl
  · show (resolver.sizeOf other).map SizeClassCandidate.sizeClass = some candidate.sizeClass
    rw [hother.sizeOf, hclass]
    rfl
  · simp
  · simp [hroute]

/-- With a known size, what is chosen fits best and nothing else does. -/
theorem choose_some {choices : List (Plan × SizeClassCandidate)} {evidence : SizeSelectionEvidence}
    {choice : Plan × SizeClassCandidate}
    (h : resolver.choose sizing choices (some evidence) = some choice) :
    choice ∈ choices ∧ evidence.estimatedInputBytes ≤ choice.2.maxInputBytes ∧
      ∀ other ∈ choices, evidence.estimatedInputBytes ≤ other.2.maxInputBytes →
        sizeKey choice ≤ sizeKey other := by
  unfold PlanRunSubmissionResolver.choose at h
  have hmem := List.argmin_mem h
  simp only [List.mem_filter, decide_eq_true_eq] at hmem
  refine ⟨hmem.1, hmem.2, ?_⟩
  intro other hother hfits
  apply List.le_of_mem_argmin _ h
  simp [hother, hfits]

theorem maxInputBytes_le_of_sizeKey
    (h : sizeKey (plan, candidate) ≤ sizeKey (other, otherCandidate)) :
    candidate.maxInputBytes ≤ otherCandidate.maxInputBytes := by
  rcases Prod.Lex.le_iff.mp h with hlt | ⟨heq, _⟩
  · exact le_of_lt hlt
  · exact le_of_eq heq

theorem revision_of_sizeKey (h : sizeKey (plan, candidate) = sizeKey (other, otherCandidate)) :
    plan.revision = other.revision := by
  simp only [sizeKey, EmbeddingLike.apply_eq_iff_eq, Prod.mk.injEq] at h
  exact h.2.2

theorem fitsBest_some {bytes : ℕ} (h : estimateFor resolver record sizing plan.environment =
      some bytes) : FitsBest resolver record sizing plan candidate ↔
    bytes ≤ candidate.maxInputBytes ∧
      ∀ other otherCandidate, Sized resolver record plan.environment other otherCandidate →
        bytes ≤ otherCandidate.maxInputBytes →
        sizeKey (plan, candidate) ≤ sizeKey (other, otherCandidate) := by
  unfold FitsBest
  rw [h]

theorem fitsBest_none (h : estimateFor resolver record sizing plan.environment = none) :
    FitsBest resolver record sizing plan candidate ↔
      (sizing.sizeClass <|> resolver.defaultSizeClass) = some candidate.sizeClass := by
  unfold FitsBest
  rw [h]

/-- What is chosen of the sizes of an environment. -/
theorem choose_eq_some (hcurrent : ∀ plan, plan ∈ current ↔ Current resolver record plan)
    {evidence : Option SizeSelectionEvidence}
    (hevidence : evidence.map SizeSelectionEvidence.estimatedInputBytes =
      estimateFor resolver record sizing environment)
    (h : resolver.choose sizing (resolver.choices (current.filter fun plan =>
      plan.environment = environment)) evidence = some (plan, candidate)) :
    Sized resolver record environment plan candidate ∧
      FitsBest resolver record sizing plan candidate := by
  cases evidence with
  | some evidence =>
    obtain ⟨hmem, hfits, hminimal⟩ := choose_some h
    have hsized := (mem_choices hcurrent).mp hmem
    refine ⟨hsized, ?_⟩
    rw [← hsized.environment] at hevidence
    rw [fitsBest_some hevidence.symm]
    refine ⟨hfits, ?_⟩
    intro other otherCandidate hother hotherFits
    rw [hsized.environment] at hother
    exact hminimal (other, otherCandidate) ((mem_choices hcurrent).mpr hother) hotherFits
  | none =>
    have hmem := List.mem_of_find?_eq_some h
    have hclass := List.find?_some h
    rw [decide_eq_true_eq] at hclass
    have hsized := (mem_choices hcurrent).mp hmem
    refine ⟨hsized, ?_⟩
    rw [← hsized.environment] at hevidence
    rw [fitsBest_none hevidence.symm]
    exact hclass

/-- A plan that fits best is there to be chosen. -/
theorem exists_choose (hcurrent : ∀ plan, plan ∈ current ↔ Current resolver record plan)
    {evidence : Option SizeSelectionEvidence}
    (hevidence : evidence.map SizeSelectionEvidence.estimatedInputBytes =
      estimateFor resolver record sizing environment)
    (hsized : Sized resolver record environment plan candidate)
    (hfits : FitsBest resolver record sizing plan candidate) :
    ∃ choice, resolver.choose sizing (resolver.choices (current.filter fun plan =>
      plan.environment = environment)) evidence = some choice := by
  have hmem := (mem_choices hcurrent).mpr hsized
  rw [← hsized.environment] at hevidence
  apply Option.ne_none_iff_exists'.mp
  intro hnone
  cases evidence with
  | some evidence =>
    rw [fitsBest_some hevidence.symm] at hfits
    have hempty := List.argmin_eq_none.mp hnone
    have hin : (plan, candidate) ∈ (resolver.choices (current.filter fun plan =>
        plan.environment = environment)).filter fun choice =>
        evidence.estimatedInputBytes ≤ choice.2.maxInputBytes := by
      simp [hmem, hfits.1]
    rw [hempty] at hin
    cases hin
  | none =>
    rw [fitsBest_none hevidence.symm] at hfits
    have habsent := List.find?_eq_none.mp hnone (plan, candidate) hmem
    rw [decide_eq_true_eq] at habsent
    exact habsent hfits

/-- One plan of an environment fits best. -/
theorem FitsBest.plan_eq (hregistered : Registered resolver)
    (hdistinguished : Distinguished resolver)
    (hplan : Sized resolver record environment plan candidate)
    (hplanFits : FitsBest resolver record sizing plan candidate)
    (hother : Sized resolver record environment other otherCandidate)
    (hotherFits : FitsBest resolver record sizing other otherCandidate) : plan = other := by
  have hsame : plan.environment = other.environment := by
    rw [hplan.environment, hother.environment]
  cases hestimate : estimateFor resolver record sizing plan.environment with
  | some bytes =>
    rw [fitsBest_some hestimate] at hplanFits
    rw [hsame] at hestimate
    rw [fitsBest_some hestimate] at hotherFits
    rw [hplan.environment] at hplanFits
    rw [hother.environment] at hotherFits
    have hkeys := le_antisymm (hplanFits.2 _ _ hother hotherFits.1)
      (hotherFits.2 _ _ hplan hplanFits.1)
    exact hregistered.plan_eq hplan.current.1 hother.current.1 (revision_of_sizeKey hkeys)
  | none =>
    rw [fitsBest_none hestimate] at hplanFits
    rw [hsame] at hestimate
    rw [fitsBest_none hestimate] at hotherFits
    have hclass : candidate.sizeClass = otherCandidate.sizeClass :=
      Option.some.inj (hplanFits.symm.trans hotherFits)
    exact hdistinguished.plan_eq hplan hother hclass

/-- The candidates of an environment. -/
theorem mem_selectRoute (hregistered : Registered resolver)
    (hdistinguished : Distinguished resolver)
    (hcurrent : ∀ plan, plan ∈ current ↔ Current resolver record plan) {route : RouteSelection}
    (h : resolver.selectRoute record sizing current environment = .ok route) :
    plan ∈ route.plans ↔
      plan.environment = environment ∧ PerEnvironment resolver record sizing plan := by
  unfold PlanRunSubmissionResolver.selectRoute at h
  dsimp only at h
  split at h
  next hempty =>
    have hunsized : ∀ other candidate, ¬ Sized resolver record environment other candidate := by
      intro other candidate hsized
      have hmem := (mem_choices hcurrent).mpr hsized
      rw [hempty] at hmem
      cases hmem
    obtain rfl := Except.ok.inj h
    cases hexplicit : sizing.isExplicit with
    | true =>
      simp only [if_true, List.not_mem_nil, false_iff, not_and]
      intro henvironment hper
      rcases hper.2 with ⟨candidate, hsize, _⟩ | ⟨_, hfalse⟩
      · exact hunsized plan candidate ⟨hper.1, henvironment, hsize⟩
      · rw [hexplicit] at hfalse
        cases hfalse
    | false =>
      simp only [Bool.false_eq_true, if_false, List.mem_filter, decide_eq_true_eq]
      constructor
      · intro hmem
        refine ⟨hmem.2, (hcurrent plan).mp hmem.1, .inr ⟨?_, hexplicit⟩⟩
        rw [hmem.2]
        exact hunsized
      · intro hper
        exact ⟨(hcurrent plan).mpr hper.2.1, hper.1⟩
  next hnonempty =>
    obtain ⟨first, hfirst⟩ := List.exists_mem_of_ne_nil _ hnonempty
    have hfirstSized := (mem_choices hcurrent).mp hfirst
    have hper : plan.environment = environment → PerEnvironment resolver record sizing plan →
        ∃ candidate, Sized resolver record environment plan candidate ∧
          FitsBest resolver record sizing plan candidate := by
      intro henvironment hper
      rcases hper.2 with ⟨candidate, hsize, hfits⟩ | ⟨hunsized, _⟩
      · exact ⟨candidate, ⟨hper.1, henvironment, hsize⟩, hfits⟩
      · rw [henvironment] at hunsized
        exact absurd hfirstSized (hunsized _ _)
    split at h
    next => cases h
    next evidence mode hestimate =>
      have hbytes := routeEstimate_bytes hestimate
      split at h
      next hnone =>
        obtain rfl := Except.ok.inj h
        simp only [List.not_mem_nil, false_iff, not_and]
        intro henvironment hplan
        obtain ⟨candidate, hsized, hfits⟩ := hper henvironment hplan
        obtain ⟨choice, hchoice⟩ := exists_choose hcurrent hbytes hsized hfits
        rw [hnone] at hchoice
        cases hchoice
      next choice hchoice =>
        obtain rfl := Except.ok.inj h
        have hchosen : Sized resolver record environment choice.1 choice.2 ∧
            FitsBest resolver record sizing choice.1 choice.2 :=
          choose_eq_some hcurrent hbytes hchoice
        obtain ⟨hsized, hfits⟩ := hchosen
        simp only [List.mem_singleton]
        constructor
        · intro hplan
          rw [hplan]
          exact ⟨hsized.environment, hsized.current, .inl ⟨choice.2, hsized.sizeOf, hfits⟩⟩
        · intro hplan
          obtain ⟨candidate, hplanSized, hplanFits⟩ := hper hplan.1 hplan.2
          exact FitsBest.plan_eq hregistered hdistinguished hplanSized hplanFits hsized hfits

end Selecting

section Resolving

variable {resolver : PlanRunSubmissionResolver} {record : GraphReference} {sizing : Sizing}
  {current : List Plan} {plan : Plan} {selection : Selection}

theorem mem_routeEnvironments {name environment : String} :
    name ∈ routeEnvironments current environment ↔
    (∃ plan ∈ current, plan.environment = name) ∧ (environment = "auto" ∨ name = environment) := by
  simp [routeEnvironments, List.mem_filter, List.mem_insertionSort]

/-- The candidates of a request. -/
theorem mem_selectSizeCandidates (hregistered : Registered resolver)
    (hdistinguished : Distinguished resolver) {environment : String}
    (h : resolver.selectSizeCandidates record sizing environment = .ok selection) :
    (plan ∈ selection.plans → PerEnvironment resolver record sizing plan) ∧
      (environment = "auto" ∨ plan.environment = environment →
        PerEnvironment resolver record sizing plan → plan ∈ selection.plans) := by
  unfold PlanRunSubmissionResolver.selectSizeCandidates at h
  obtain ⟨_, _, h⟩ := bind_eq_ok h
  obtain ⟨current, hcurrent, h⟩ := bind_eq_ok h
  have hmem : ∀ plan, plan ∈ current ↔ Current resolver record plan :=
    fun plan => mem_currentForGraph hcurrent
  split at h
  next hunsized =>
    obtain ⟨hexplicit, h⟩ := guard_eq_ok h
    obtain rfl := Except.ok.inj h
    rw [Bool.not_eq_true] at hexplicit
    have hnone : ∀ plan, resolver.sizeOf plan = none := by
      intro plan
      simp [PlanRunSubmissionResolver.sizeOf, hunsized]
    constructor
    · intro hplan
      refine ⟨(hmem plan).mp hplan, .inr ⟨?_, hexplicit⟩⟩
      intro other candidate hsized
      have hsize := hsized.sizeOf
      rw [hnone] at hsize
      cases hsize
    · intro _ hper
      exact (hmem plan).mpr hper.1
  next =>
    obtain ⟨routes, hroutes, h⟩ := bind_eq_ok h
    obtain ⟨_, h⟩ := guard_eq_ok h
    obtain rfl := Except.ok.inj h
    constructor
    · intro hplan
      obtain ⟨route, hroute, hplan⟩ := List.mem_flatMap.mp hplan
      obtain ⟨name, _, hselected⟩ := exists_of_mem_mapM hroutes hroute
      exact ((mem_selectRoute hregistered hdistinguished hmem hselected).mp hplan).2
    · intro henvironment hper
      have hname : plan.environment ∈ routeEnvironments current environment :=
        mem_routeEnvironments.mpr ⟨⟨plan, (hmem plan).mpr hper.1, rfl⟩, henvironment⟩
      obtain ⟨route, hroute, hselected⟩ := exists_of_mem_mapM_left hroutes hname
      refine List.mem_flatMap.mpr ⟨route, hroute, ?_⟩
      exact (mem_selectRoute hregistered hdistinguished hmem hselected).mpr ⟨rfl, hper⟩

theorem selectEnvironment_eq_ok {plans : List Plan} {environment : String}
    (h : selectEnvironment plans environment = .ok plan) :
    plan ∈ plans ∧ plan.environment = environment := by
  unfold selectEnvironment at h
  split at h
  next found hfound =>
    obtain rfl := Except.ok.inj h
    have hmem : found ∈ plans.filter fun plan => plan.environment = environment := by
      rw [hfound]
      exact List.mem_singleton_self found
    simpa using List.mem_filter.mp hmem
  next => cases h

/-- The best placed of the candidates. -/
theorem automaticallySelect_eq_ok {plans : List Plan} {preferred : String} {maxCost : ℕ}
    {decision : PlacementDecision}
    (h : resolver.automaticallySelect preferred maxCost plans = .ok (plan, decision)) :
    ∃ candidate, plan ∈ plans ∧ resolver.placementOf plan = some candidate ∧
      candidate.estimatedCostMicrousd ≤ maxCost ∧
      ∀ other ∈ plans, ∀ otherCandidate, resolver.placementOf other = some otherCandidate →
        otherCandidate.estimatedCostMicrousd ≤ maxCost →
        placementKey preferred (plan, candidate) ≤
          placementKey preferred (other, otherCandidate) := by
  have hmem : ∀ other candidate, (other, candidate) ∈ resolver.eligible maxCost plans ↔
      other ∈ plans ∧ resolver.placementOf other = some candidate ∧
        candidate.estimatedCostMicrousd ≤ maxCost := by
    intro other candidate
    simp only [PlanRunSubmissionResolver.eligible, List.mem_filter, List.mem_filterMap,
      Option.map_eq_some_iff, Prod.mk.injEq, decide_eq_true_eq]
    constructor
    · intro hin
      obtain ⟨⟨_, hother, _, hplacement, rfl, rfl⟩, hcost⟩ := hin
      exact ⟨hother, hplacement, hcost⟩
    · intro hin
      exact ⟨⟨other, hin.1, candidate, hin.2.1, rfl, rfl⟩, hin.2.2⟩
  unfold PlanRunSubmissionResolver.automaticallySelect at h
  split at h
  next => cases h
  next found candidate hbest =>
    obtain ⟨rfl, _⟩ := Prod.mk.inj (Except.ok.inj h)
    obtain ⟨hplan, hplacement, hcost⟩ := (hmem _ _).mp (List.argmin_mem hbest)
    refine ⟨candidate, hplan, hplacement, hcost, ?_⟩
    intro other hother otherCandidate hotherPlacement hotherCost
    exact List.le_of_mem_argmin ((hmem _ _).mpr ⟨hother, hotherPlacement, hotherCost⟩) hbest

/-- How a request places the plan that it takes. -/
theorem place_eq_ok {plans : List Plan} {requested : Option String} {decision : PlacementDecision}
    (h : resolver.place plans requested = .ok (plan, decision)) :
    plan ∈ plans ∧
      ((requested = none ∧ resolver.environment = "auto") ∨
        plan.environment = requested.getD resolver.environment) ∧
      (requested = none → resolver.environment = "auto" → ∃ candidate,
        resolver.placementOf plan = some candidate ∧
        candidate.estimatedCostMicrousd ≤ resolver.maxCostMicrousd.getD 0 ∧
        ∀ other ∈ plans, ∀ otherCandidate, resolver.placementOf other = some otherCandidate →
          otherCandidate.estimatedCostMicrousd ≤ resolver.maxCostMicrousd.getD 0 →
          placementKey (resolver.preferredLocality.getD "") (plan, candidate) ≤
            placementKey (resolver.preferredLocality.getD "") (other, otherCandidate)) := by
  have hexact : ∀ environment mode,
      ((selectEnvironment plans environment).map fun plan =>
        (plan, resolver.exactDecision plan mode)) = .ok (plan, decision) →
      plan ∈ plans ∧ plan.environment = environment := by
    intro environment mode hmap
    cases hselected : selectEnvironment plans environment with
    | error e =>
      rw [hselected] at hmap
      cases hmap
    | ok found =>
      rw [hselected] at hmap
      obtain ⟨rfl, _⟩ := Prod.mk.inj (Except.ok.inj hmap)
      exact selectEnvironment_eq_ok hselected
  unfold PlanRunSubmissionResolver.place at h
  cases requested with
  | some environment =>
    obtain ⟨hplan, henvironment⟩ := hexact environment _ h
    refine ⟨hplan, .inr henvironment, ?_⟩
    intro hnone
    cases hnone
  | none =>
    dsimp only at h
    split at h
    next hauto =>
      obtain ⟨candidate, hplan, hplacement, hcost, hminimal⟩ := automaticallySelect_eq_ok h
      exact ⟨hplan, .inl ⟨rfl, hauto⟩, fun _ _ => ⟨candidate, hplacement, hcost, hminimal⟩⟩
    next hexactly =>
      obtain ⟨hplan, henvironment⟩ := hexact resolver.environment _ h
      refine ⟨hplan, .inr henvironment, ?_⟩
      intro _ hauto
      exact absurd hauto hexactly

theorem selection_submissionOf (hplan : Current resolver record plan) (idempotencyKey : String)
    (requestedAt : ℤ) (placement : PlacementDecision) (size : Option SizeClassDecision) :
    (submissionOf record idempotencyKey requestedAt plan placement size).planSelection =
      plan.selection := by
  obtain ⟨_, hgraph, hrevision⟩ := hplan
  simp only [ofGraph, isCurrent, Bool.and_eq_true, decide_eq_true_eq] at hgraph hrevision
  simp only [RunSubmission.planSelection, submissionOf, ExecutionPlan.selection, hgraph, hrevision]

theorem validateSubmissionPlan_submissionOf (hplan : Current resolver record plan)
    (idempotencyKey : String) (requestedAt : ℤ) (placement : PlacementDecision)
    (size : Option SizeClassDecision) :
    validateSubmissionPlan (submissionOf record idempotencyKey requestedAt plan placement size)
      plan.toExecutionPlan = .ok () := by
  unfold validateSubmissionPlan
  rw [selection_submissionOf hplan]
  simp [submissionOf, apiTrigger]
  rfl

/-- An automatic resolver has a locality and a budget. -/
def Budgeted (resolver : PlanRunSubmissionResolver) : Prop :=
  resolver.environment = "auto" → ∃ preferred maxCost,
    resolver.preferredLocality = some preferred ∧ resolver.maxCostMicrousd = some maxCost

/-- The plan of a submission that was resolved. -/
theorem resolve_eq_ok (hregistered : Registered resolver) (hdistinguished : Distinguished resolver)
    (hbudgeted : Budgeted resolver) {idempotencyKey : String} {requestedAt : ℤ}
    {requested sizeClass : Option String} {estimatedInputBytes : Option ℕ}
    {submission : RunSubmission}
    (h : resolver.resolve record idempotencyKey requestedAt requested sizeClass
      estimatedInputBytes = .ok submission) :
    ∃ plan, ResolvedTo resolver record ⟨sizeClass, estimatedInputBytes, requestedAt⟩ requested
      submission plan := by
  unfold PlanRunSubmissionResolver.resolve at h
  obtain ⟨selection, hselection, h⟩ := bind_eq_ok h
  obtain ⟨⟨plan, placement⟩, hplace, h⟩ := bind_eq_ok h
  dsimp only at h
  obtain ⟨_, _, h⟩ := bind_eq_ok h
  obtain ⟨_, _, h⟩ := bind_eq_ok h
  obtain ⟨_, _, h⟩ := bind_eq_ok h
  obtain rfl := Except.ok.inj h
  obtain ⟨hplan, henvironment, hplaced⟩ := place_eq_ok hplace
  have hcandidate :=
    (mem_selectSizeCandidates hregistered hdistinguished hselection).1 hplan
  refine ⟨plan, selection_submissionOf hcandidate.1 _ _ _ _, hcandidate, henvironment, ?_, ?_,
    validateSubmissionPlan_submissionOf hcandidate.1 _ _ _ _⟩
  · intro bytes hbytes happlies
    rcases hcandidate.2 with ⟨candidate, hsize, hfits⟩ | ⟨hunsized, hexplicit⟩
    · rw [fitsBest_some hbytes] at hfits
      refine ⟨candidate, hsize, hfits.1, ?_⟩
      intro other otherCandidate hother hotherFits
      exact maxInputBytes_le_of_sizeKey (hfits.2 other otherCandidate hother hotherFits)
    · rcases happlies with hrequested | ⟨other, otherCandidate, hother⟩
      · simp [Sizing.isExplicit, hrequested] at hexplicit
      · exact absurd hother (hunsized other otherCandidate)
  · intro hnone hauto
    obtain ⟨preferred, maxCost, hpreferred, hmaxCost⟩ := hbudgeted hauto
    obtain ⟨candidate, hplacement, hcost, hminimal⟩ := hplaced hnone hauto
    rw [hmaxCost, Option.getD_some] at hcost hminimal
    rw [hpreferred, Option.getD_some] at hminimal
    refine ⟨preferred, maxCost, candidate, hpreferred, hmaxCost, hplacement, hcost, ?_⟩
    intro other otherCandidate hother hotherPlacement hotherCost
    have hmem : other ∈ selection.plans := by
      apply (mem_selectSizeCandidates hregistered hdistinguished hselection).2 _ hother
      left
      rw [hnone, Option.getD_none, hauto]
    exact hminimal other hmem otherCandidate hotherPlacement hotherCost

end Resolving

section Reordering

variable {resolver resolver' : PlanRunSubmissionResolver} {record : GraphReference}
  {sizing : Sizing}

/-- Two resolvers with the same answers to everything that resolving asks them. -/
structure Agrees (resolver resolver' : PlanRunSubmissionResolver) : Prop where
  plans : resolver'.plans = resolver.plans
  environment : resolver'.environment = resolver.environment
  placementOf : resolver'.placementOf = resolver.placementOf
  preferredLocality : resolver'.preferredLocality = resolver.preferredLocality
  maxCostMicrousd : resolver'.maxCostMicrousd = resolver.maxCostMicrousd
  unsized : resolver'.sizeClassCandidates = [] ↔ resolver.sizeClassCandidates = []
  sizeOf : resolver'.sizeOf = resolver.sizeOf
  defaultSizeClass : resolver'.defaultSizeClass = resolver.defaultSizeClass
  estimatorOf : resolver'.estimatorOf = resolver.estimatorOf

theorem Agrees.selectRoute (hagrees : Agrees resolver resolver') :
    resolver'.selectRoute = resolver.selectRoute := by
  funext record sizing current environment
  unfold PlanRunSubmissionResolver.selectRoute PlanRunSubmissionResolver.choices
    PlanRunSubmissionResolver.routeEstimate PlanRunSubmissionResolver.sizingMode
    PlanRunSubmissionResolver.defaultMode PlanRunSubmissionResolver.choose
  rw [hagrees.sizeOf, hagrees.defaultSizeClass, hagrees.estimatorOf]

theorem Agrees.selectSizeCandidates (hagrees : Agrees resolver resolver') :
    resolver'.selectSizeCandidates = resolver.selectSizeCandidates := by
  funext record sizing environment
  unfold PlanRunSubmissionResolver.selectSizeCandidates
  rw [hagrees.selectRoute, hagrees.plans]
  simp only [hagrees.unsized]

theorem Agrees.place (hagrees : Agrees resolver resolver') : resolver'.place = resolver.place := by
  funext plans environment
  unfold PlanRunSubmissionResolver.place PlanRunSubmissionResolver.automaticallySelect
    PlanRunSubmissionResolver.eligible PlanRunSubmissionResolver.exactDecision
  rw [hagrees.placementOf, hagrees.environment, hagrees.preferredLocality, hagrees.maxCostMicrousd]

theorem Agrees.resolve (hagrees : Agrees resolver resolver') :
    resolver'.resolve = resolver.resolve := by
  funext record idempotencyKey requestedAt environment sizeClass estimatedInputBytes
  unfold PlanRunSubmissionResolver.resolve PlanRunSubmissionResolver.sizeDecision
  rw [hagrees.selectSizeCandidates, hagrees.place, hagrees.environment, hagrees.sizeOf]

end Reordering

section Configuring

variable {plans plans' : List Plan} {registry : ExecutionPlanRegistry} {c c' : Configuration}
  {resolver : PlanRunSubmissionResolver}

instance : IsTrans Plan byRevision := ⟨fun _ _ _ => le_trans⟩
instance : Std.Total byRevision := ⟨fun first second => le_total first.revision second.revision⟩

/-- The registry of plans holds each once, whatever their order. -/
theorem create_eq_ok (h : ExecutionPlanRegistry.create plans = .ok registry) :
    (registry.plans.map fun plan => plan.revision).Nodup ∧ registry.plans.Pairwise byRevision ∧
      registry.plans ≠ [] ∧ registry.plans.length ≤ 100 ∧
      ∀ plan, plan ∈ registry.plans ↔ plan ∈ plans := by
  unfold ExecutionPlanRegistry.create at h
  obtain ⟨registered, hregistered, h⟩ := bind_eq_ok h
  obtain ⟨hnonempty, h⟩ := guard_eq_ok h
  obtain ⟨hlength, h⟩ := guard_eq_ok h
  obtain rfl := Except.ok.inj h
  obtain ⟨hnodup, hmem⟩ := register_eq_ok hregistered (by simp)
  have hperm := List.perm_insertionSort byRevision registered
  refine ⟨((hperm.map _).nodup_iff).mpr hnodup, List.pairwise_insertionSort _ _, ?_, ?_, ?_⟩
  · intro hempty
    have hempty : registered.insertionSort byRevision = [] := hempty
    rw [hempty] at hperm
    exact hnonempty hperm.symm.eq_nil
  · show (registered.insertionSort byRevision).length ≤ 100
    rw [hperm.length_eq]
    omega
  · intro plan
    show plan ∈ registered.insertionSort byRevision ↔ plan ∈ plans
    rw [hperm.mem_iff, hmem plan]
    simp

theorem create_perm (hperm : plans.Perm plans')
    (h : ExecutionPlanRegistry.create plans = .ok registry) :
    ExecutionPlanRegistry.create plans' = .ok registry := by
  obtain ⟨hnodup, hsorted, hnonempty, hlength, hmem⟩ := create_eq_ok h
  have hagree : ∀ first second, first ∈ [] ∨ first ∈ plans' → second ∈ [] ∨ second ∈ plans' →
      first.revision = second.revision → first = second := by
    intro first second hfirst hsecond hrevision
    simp only [List.not_mem_nil, false_or] at hfirst hsecond
    exact List.inj_on_of_nodup_map hnodup ((hmem first).mpr (hperm.mem_iff.mpr hfirst))
      ((hmem second).mpr (hperm.mem_iff.mpr hsecond)) hrevision
  obtain ⟨registered, hregistered⟩ := register_ok hagree
  obtain ⟨hnodup', hmem'⟩ := register_eq_ok hregistered (by simp)
  have hsame : registered.Perm registry.plans := by
    apply (List.perm_ext_iff_of_nodup hnodup'.of_map hnodup.of_map).mpr
    intro plan
    rw [hmem' plan, hmem plan, hperm.mem_iff]
    simp
  have hequal : registered.insertionSort byRevision = registry.plans := by
    refine List.Perm.eq_of_pairwise ?_ (List.pairwise_insertionSort byRevision registered) hsorted
      ((List.perm_insertionSort byRevision registered).trans hsame)
    intro first second hfirst hsecond hle hge
    rw [List.mem_insertionSort, hsame.mem_iff] at hfirst
    exact List.inj_on_of_nodup_map hnodup hfirst hsecond (le_antisymm hle hge)
  unfold ExecutionPlanRegistry.create
  rw [hregistered, ok_bind, hequal]
  have hne : registered ≠ [] := by
    intro hempty
    rw [hempty] at hsame
    exact hnonempty hsame.symm.eq_nil
  have hshort : ¬ 100 < registered.length := by
    rw [hsame.length_eq]
    omega
  rw [if_neg hne, if_neg hshort]
  rfl

theorem checkRevisions_eq_ok {revisions : List String} {twice unregistered : String} :
    checkRevisions registry revisions twice unregistered = .ok () ↔
      revisions.Nodup ∧
        ∀ revision ∈ revisions, ∃ plan ∈ registry.plans, plan.revision = revision := by
  have hunknown : unknownRevisions registry revisions = [] ↔
      ∀ revision ∈ revisions, ∃ plan ∈ registry.plans, plan.revision = revision := by
    rw [unknownRevisions, ← List.length_eq_zero_iff, List.length_insertionSort,
      List.length_eq_zero_iff, List.filter_eq_nil_iff]
    simp
  unfold checkRevisions
  by_cases hnodup : revisions.Nodup
  · rw [if_neg (not_not.mpr hnodup), ← hunknown]
    cases unknownRevisions registry revisions with
    | nil => simp [hnodup]
    | cons unknown rest => simp
  · rw [if_pos hnodup]
    simp [hnodup]

/-- What a constructed resolver keeps. -/
theorem postInit_eq_ok (h : resolver.postInit = .ok ()) :
    (resolver.placementCandidates.map PlacementCandidate.planRevision).Nodup ∧
      (resolver.sizeClassCandidates.map SizeClassCandidate.planRevision).Nodup ∧
      (resolver.inputSizeEstimators.map Prod.fst).Nodup ∧
      Distinguished resolver ∧ Budgeted resolver := by
  unfold PlanRunSubmissionResolver.postInit at h
  obtain ⟨_, hplacements, h⟩ := bind_eq_ok h
  obtain ⟨_, hautomatic, h⟩ := bind_eq_ok h
  obtain ⟨_, h⟩ := guard_eq_ok h
  obtain ⟨_, h⟩ := guard_eq_ok h
  obtain ⟨_, hsizes, h⟩ := bind_eq_ok h
  obtain ⟨_, hroutes, h⟩ := bind_eq_ok h
  obtain ⟨_, _, h⟩ := bind_eq_ok h
  obtain ⟨hestimators, _⟩ := guard_eq_ok h
  refine ⟨(checkRevisions_eq_ok.mp hplacements).1, (checkRevisions_eq_ok.mp hsizes).1,
    not_not.mp hestimators, ?_, ?_⟩
  · intro routed hrouted
    exact forM_eq_ok.mp hroutes routed (List.mem_dedup.mpr hrouted)
  · intro hauto
    unfold PlanRunSubmissionResolver.checkAutomatic at hautomatic
    rw [if_pos hauto] at hautomatic
    obtain ⟨_, hautomatic⟩ := guard_eq_ok hautomatic
    obtain ⟨hconfigured, _⟩ := guard_eq_ok hautomatic
    simp only [not_or] at hconfigured
    obtain ⟨preferred, hpreferred⟩ := Option.ne_none_iff_exists'.mp hconfigured.2.1
    obtain ⟨maxCost, hmaxCost⟩ := Option.ne_none_iff_exists'.mp hconfigured.2.2
    exact ⟨preferred, maxCost, hpreferred, hmaxCost⟩

theorem Reordered.agrees (hreordered : Reordered c c')
    (h : (c.resolver registry).postInit = .ok ()) :
    Agrees (c.resolver registry) (c'.resolver registry) := by
  obtain ⟨hplacements, hsizes, hestimators, _, _⟩ := postInit_eq_ok h
  refine ⟨rfl, hreordered.environment, ?_, hreordered.preferredLocality,
    hreordered.maxCostMicrousd, ?_, ?_, hreordered.defaultSizeClass, ?_⟩
  · funext plan
    exact (Tables.select_perm hreordered.placementCandidates hplacements).symm
  · show c'.sizeClassCandidates = [] ↔ c.sizeClassCandidates = []
    constructor
    · intro hempty
      have hperm := hreordered.sizeClassCandidates
      rw [hempty] at hperm
      exact hperm.eq_nil
    · intro hempty
      have hperm := hreordered.sizeClassCandidates
      rw [hempty] at hperm
      exact hperm.symm.eq_nil
  · funext plan
    exact (Tables.select_perm hreordered.sizeClassCandidates hsizes).symm
  · funext environment
    exact congrArg (Option.map Prod.snd)
      (Tables.select_perm hreordered.inputSizeEstimators hestimators).symm

theorem checkRevisions_perm {revisions revisions' : List String} {twice unregistered : String}
    (hperm : revisions.Perm revisions')
    (h : checkRevisions registry revisions twice unregistered = .ok ()) :
    checkRevisions registry revisions' twice unregistered = .ok () := by
  rw [checkRevisions_eq_ok] at h ⊢
  refine ⟨hperm.nodup_iff.mp h.1, ?_⟩
  intro revision hrevision
  exact h.2 revision (hperm.mem_iff.mpr hrevision)

/-- A configuration that is accepted is accepted in any order. -/
theorem postInit_reordered (hreordered : Reordered c c')
    (h : (c.resolver registry).postInit = .ok ()) : (c'.resolver registry).postInit = .ok () := by
  have hagrees := hreordered.agrees h
  have hplacementsEmpty : c'.placementCandidates = [] ↔ c.placementCandidates = [] := by
    rw [← List.length_eq_zero_iff, ← List.length_eq_zero_iff,
      hreordered.placementCandidates.length_eq]
  unfold PlanRunSubmissionResolver.postInit at h ⊢
  obtain ⟨_, hplacements, h⟩ := bind_eq_ok h
  obtain ⟨_, hautomatic, h⟩ := bind_eq_ok h
  obtain ⟨hlocality, h⟩ := guard_eq_ok h
  obtain ⟨hcost, h⟩ := guard_eq_ok h
  obtain ⟨_, hsizes, h⟩ := bind_eq_ok h
  obtain ⟨_, hroutes, h⟩ := bind_eq_ok h
  obtain ⟨_, hdefault, h⟩ := bind_eq_ok h
  obtain ⟨hnodup, hchecks⟩ := guard_eq_ok h
  have hplacements' := checkRevisions_perm (hreordered.placementCandidates.map _) hplacements
  have hsizes' := checkRevisions_perm (hreordered.sizeClassCandidates.map _) hsizes
  have hautomatic' : (c'.resolver registry).checkAutomatic = .ok () := by
    unfold PlanRunSubmissionResolver.checkAutomatic at hautomatic ⊢
    rw [hagrees.environment]
    by_cases hauto : (c.resolver registry).environment = "auto"
    · rw [if_pos hauto] at hautomatic ⊢
      obtain ⟨hreserved, hautomatic⟩ := guard_eq_ok hautomatic
      obtain ⟨hconfigured, _⟩ := guard_eq_ok hautomatic
      have hconfigured' : ¬ ((c'.resolver registry).placementCandidates = [] ∨
          (c'.resolver registry).preferredLocality = none ∨
          (c'.resolver registry).maxCostMicrousd = none) := by
        rw [hagrees.preferredLocality, hagrees.maxCostMicrousd]
        intro hmissing
        exact hconfigured (hmissing.imp_left hplacementsEmpty.mp)
      rw [hagrees.plans, if_neg hreserved, if_neg hconfigured']
      rfl
    · rw [if_neg hauto]
      rfl
  have hroutes' : ((c'.resolver registry).plans.plans.map route).dedup.forM
      (c'.resolver registry).checkRoute = .ok () := by
    rw [← hroutes, hagrees.plans]
    congr 1
    funext routed
    unfold PlanRunSubmissionResolver.checkRoute
    rw [hagrees.sizeOf, hagrees.plans]
  have hdefault' : (c'.resolver registry).checkDefaultSizeClass = .ok () := by
    rw [← hdefault]
    unfold PlanRunSubmissionResolver.checkDefaultSizeClass
    rw [hagrees.defaultSizeClass]
    simp only [hagrees.unsized]
  have hperm := hreordered.inputSizeEstimators.map Prod.fst
  have hchecks' : ((c'.resolver registry).inputSizeEstimators.map Prod.fst).forM
      (c'.resolver registry).checkEstimator = .ok () := by
    rw [forM_eq_ok] at hchecks ⊢
    intro environment henvironment
    rw [← hchecks environment (hperm.mem_iff.mpr henvironment)]
    unfold PlanRunSubmissionResolver.checkEstimator
    rw [hagrees.sizeOf, hagrees.plans]
  rw [← hagrees.preferredLocality] at hlocality
  rw [← hagrees.maxCostMicrousd] at hcost
  refine bind_ok hplacements' (bind_ok hautomatic' ?_)
  rw [if_neg hlocality, if_neg hcost]
  refine bind_ok hsizes' (bind_ok hroutes' (bind_ok hdefault' ?_))
  have hnodup' : ((c'.resolver registry).inputSizeEstimators.map Prod.fst).Nodup :=
    hperm.nodup_iff.mp (not_not.mp hnodup)
  rw [if_neg (not_not.mpr hnodup')]
  exact hchecks'

theorem configure_eq_ok (h : c.configure = .ok resolver) : ∃ registry,
    ExecutionPlanRegistry.create c.plans = .ok registry ∧ resolver = c.resolver registry ∧
      (c.resolver registry).postInit = .ok () := by
  unfold Configuration.configure at h
  obtain ⟨registry, hregistry, h⟩ := bind_eq_ok h
  obtain ⟨_, hchecked, h⟩ := bind_eq_ok h
  obtain rfl := Except.ok.inj h
  exact ⟨registry, hregistry, rfl, hchecked⟩

/-- A resolver takes the best plan of those that a request may take, and the same one however its
configuration is listed. -/
theorem resolves_best_in_any_order (c : Configuration) (resolver : PlanRunSubmissionResolver)
    (h : c.configure = .ok resolver) :
    (∀ record idempotencyKey requestedAt requested sizeClass estimatedInputBytes submission,
      resolver.resolve record idempotencyKey requestedAt requested sizeClass estimatedInputBytes =
        .ok submission →
      ∃ plan, ResolvedTo resolver record ⟨sizeClass, estimatedInputBytes, requestedAt⟩ requested
        submission plan) ∧
    ∀ c', Reordered c c' → ∃ resolver', c'.configure = .ok resolver' ∧
      ∀ record idempotencyKey requestedAt requested sizeClass estimatedInputBytes,
        resolver'.resolve record idempotencyKey requestedAt requested sizeClass
            estimatedInputBytes =
          resolver.resolve record idempotencyKey requestedAt requested sizeClass
            estimatedInputBytes := by
  obtain ⟨registry, hregistry, rfl, hchecked⟩ := configure_eq_ok h
  have hregistered : Registered (c.resolver registry) := (create_eq_ok hregistry).1
  obtain ⟨_, _, _, hdistinguished, hbudgeted⟩ := postInit_eq_ok hchecked
  constructor
  · intro record idempotencyKey requestedAt requested sizeClass estimatedInputBytes submission
      hresolved
    exact resolve_eq_ok hregistered hdistinguished hbudgeted hresolved
  · intro c' hreordered
    refine ⟨c'.resolver registry, ?_, ?_⟩
    · unfold Configuration.configure
      exact bind_ok (create_perm hreordered.plans hregistry)
        (bind_ok (postInit_reordered hreordered hchecked) rfl)
    · intro record idempotencyKey requestedAt requested sizeClass estimatedInputBytes
      rw [(hreordered.agrees hchecked).resolve]

end Configuring

section Example

def exampleRevision (letter : Char) : String := String.ofList (List.replicate 64 letter)

/-- A small and a large plan of one environment. -/
def examplePlan (letter : Char) (cpuMillis : ℕ) : Plan where
  planId := "orders"
  environment := "cloud"
  project := "sales"
  graph := "orders"
  graphRevision := "r1"
  graphContentSha256 := "c1"
  backendId := "cloud_run"
  deadlineSeconds := 3600
  maxAttempts := 1
  taskCount := 1
  revision := exampleRevision letter
  portable := by decide +kernel
  contents := ""
  cpuMillis := cpuMillis
  memoryMib := 512
  ephemeralStorageMib := none

def exampleConfiguration : Configuration where
  plans := [examplePlan 'b' 4000, examplePlan 'a' 1000]
  environment := "auto"
  placementCandidates := [⟨exampleRevision 'a', "europe", 10⟩, ⟨exampleRevision 'b', "europe", 40⟩]
  preferredLocality := some "europe"
  maxCostMicrousd := some 50
  sizeClassCandidates := [⟨exampleRevision 'b', "large", 1000⟩, ⟨exampleRevision 'a', "small", 100⟩]
  defaultSizeClass := some "small"
  inputSizeEstimators := [("cloud", fun _ => .error .inputSizeEstimation)]

def exampleGraph : GraphReference := ⟨"sales", "orders", "r1", "c1"⟩

def exampleResolved : Option RunSubmission :=
  exampleConfiguration.configure.toOption.bind fun resolver =>
    (resolver.resolve exampleGraph "nightly-0001" 0 none none (some 500)).toOption

example : exampleResolved.map RunSubmission.planRevision = some (exampleRevision 'b') := by
  decide +kernel

theorem exampleConfiguration_resolves : ∃ resolver submission plan,
    exampleConfiguration.configure = .ok resolver ∧
      resolver.resolve exampleGraph "nightly-0001" 0 none none (some 500) = .ok submission ∧
      ResolvedTo resolver exampleGraph ⟨none, some 500, 0⟩ none submission plan := by
  have hsome : exampleResolved.isSome = true := by decide +kernel
  obtain ⟨submission, hsubmission⟩ := Option.isSome_iff_exists.mp hsome
  obtain ⟨resolver, hconfigured, hresolved⟩ := Option.bind_eq_some_iff.mp hsubmission
  have hconfigured := eq_ok_of_toOption hconfigured
  have hresolved := eq_ok_of_toOption hresolved
  obtain ⟨plan, hplan⟩ :=
    (resolves_best_in_any_order _ resolver hconfigured).1 _ _ _ _ _ _ _ hresolved
  exact ⟨resolver, submission, plan, hconfigured, hresolved, hplan⟩

end Example

end Dander.PlanResolver
