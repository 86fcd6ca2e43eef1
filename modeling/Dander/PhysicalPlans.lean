import Dander.DepthFirst
import Dander.Execution
import Dander.Identifiers
import Dander.JsonText

/-!
# Physical plans

A physical plan is a static graph of stages with one exchange for each
dependency. Its construction checks are part of its type, so that the facts the
checks establish hold of every plan.
-/
namespace Dander.PhysicalPlan

inductive PhysicalExecutionMode
  | fusedContainer
  | distributed
  deriving DecidableEq, Repr

inductive PartitioningStrategy
  | single
  | hash
  | roundRobin
  deriving DecidableEq, Repr

inductive ExchangeTransport
  | memory
  | objectStore
  deriving DecidableEq, Repr

def PhysicalExecutionMode.value : PhysicalExecutionMode → String
  | .fusedContainer => "fused_container"
  | .distributed => "distributed"

def PartitioningStrategy.value : PartitioningStrategy → String
  | .single => "single"
  | .hash => "hash"
  | .roundRobin => "round_robin"

def ExchangeTransport.value : ExchangeTransport → String
  | .memory => "memory"
  | .objectStore => "object_store"

structure PhysicalPlanError where
  message : String
  deriving DecidableEq, Repr

def physicalPlanSchema : String := "io.dander.physical-plan/v1"
def maxStages : ℕ := 100
def maxExchanges : ℕ := 200
def maxPartitions : ℤ := 10000
def maxOperators : ℕ := 10000

/-- `tuple(sorted(set(items)))`. -/
def sortedSet (items : List String) : List String := items.dedup.insertionSort (· ≤ ·)

def requirePortableId (value label : String) : Except PhysicalPlanError Unit :=
  if isPortableId value then .ok () else .error ⟨label ++ " id is invalid"⟩

structure StageFields where
  stageId : String
  operators : List String
  partitionCount : ℤ
  dependsOn : List String
  deriving DecidableEq, Repr

def StageFields.postInit (stage : StageFields) : Except PhysicalPlanError Unit := do
  requirePortableId stage.stageId "stage"
  if stage.operators = [] ∨ maxOperators < stage.operators.length ∨
      sortedSet stage.operators ≠ stage.operators ∨
      ∃ item ∈ stage.operators, isOpaqueId item = false then
    throw ⟨"stage operators must be unique canonical identifiers"⟩
  if ¬ (1 ≤ stage.partitionCount ∧ stage.partitionCount ≤ maxPartitions) then
    throw ⟨"stage partition count is invalid"⟩
  if sortedSet stage.dependsOn ≠ stage.dependsOn ∨
      (∃ item ∈ stage.dependsOn, isPortableId item = false) ∨
      stage.stageId ∈ stage.dependsOn then
    throw ⟨"stage dependencies must be unique canonical stage ids"⟩

structure PhysicalStage extends StageFields where
  valid : toStageFields.postInit = .ok ()
  deriving DecidableEq, Repr

def StageFields.create (fields : StageFields) : Except PhysicalPlanError PhysicalStage :=
  match h : fields.postInit with
  | .ok () => .ok ⟨fields, h⟩
  | .error e => .error e

structure ExchangeFields where
  exchangeId : String
  producerStageId : String
  consumerStageId : String
  transport : ExchangeTransport
  partitioning : PartitioningStrategy
  partitionCount : ℤ
  partitionKeys : List String
  deriving DecidableEq, Repr

def ExchangeFields.postInit (exchange : ExchangeFields) : Except PhysicalPlanError Unit := do
  requirePortableId exchange.exchangeId "exchange"
  requirePortableId exchange.producerStageId "producer stage"
  requirePortableId exchange.consumerStageId "consumer stage"
  if exchange.producerStageId = exchange.consumerStageId then
    throw ⟨"an exchange cannot connect a stage to itself"⟩
  if ¬ (1 ≤ exchange.partitionCount ∧ exchange.partitionCount ≤ maxPartitions) then
    throw ⟨"exchange partition count is invalid"⟩
  if sortedSet exchange.partitionKeys ≠ exchange.partitionKeys ∨
      ∃ item ∈ exchange.partitionKeys, isOpaqueId item = false then
    throw ⟨"exchange partition keys must be unique canonical identifiers"⟩
  match exchange.partitioning with
  | .single =>
    if exchange.partitionCount ≠ 1 ∨ exchange.partitionKeys ≠ [] then
      throw ⟨"single partitioning requires one partition and no keys"⟩
  | .hash =>
    if exchange.partitionKeys = [] then
      throw ⟨"hash partitioning requires at least one key"⟩
  | .roundRobin =>
    if exchange.partitionKeys ≠ [] then
      throw ⟨"round-robin partitioning cannot declare keys"⟩

structure PhysicalExchange extends ExchangeFields where
  valid : toExchangeFields.postInit = .ok ()
  deriving DecidableEq, Repr

def ExchangeFields.create (fields : ExchangeFields) : Except PhysicalPlanError PhysicalExchange :=
  match h : fields.postInit with
  | .ok () => .ok ⟨fields, h⟩
  | .error e => .error e

structure PlanFields where
  pipelineId : String
  executionMode : PhysicalExecutionMode
  stages : List PhysicalStage
  exchanges : List PhysicalExchange
  maximumParallelism : ℤ
  deriving DecidableEq, Repr

section Checks

variable (plan : PlanFields)

def PlanFields.stageIds : List String := plan.stages.map (·.stageId)

def PlanFields.operators : List String := plan.stages.flatMap (·.operators)

def PlanFields.partitionCount : ℤ := (plan.stages.map (·.partitionCount)).sum

/-- The pairs of a dependency and the stage that declares it. -/
def PlanFields.dependencyEdges : List (String × String) :=
  plan.stages.flatMap fun stage => stage.dependsOn.map fun dependency => (dependency, stage.stageId)

def PlanFields.exchangeEdges : List (String × String) :=
  plan.exchanges.map fun exchange => (exchange.producerStageId, exchange.consumerStageId)

def PlanFields.stageById (stageId : String) : Option PhysicalStage :=
  plan.stages.find? fun stage => stage.stageId = stageId

def PlanFields.dependenciesOf (stageId : String) : List String :=
  ((plan.stageById stageId).map (·.dependsOn)).getD []

/-- The search raises when it meets a stage that is still active. -/
def PlanFields.requireAcyclic : Except PhysicalPlanError Unit :=
  match plan.stageIds.foldlM
      (DepthFirst.reach (DepthFirst.visit plan.dependenciesOf plan.stages.length))
      DepthFirst.Search.start with
  | .ok _ => .ok ()
  | .error _ => .error ⟨"physical-plan stage dependencies contain a cycle"⟩

def PlanFields.checkExchange (exchange : PhysicalExchange) : Except PhysicalPlanError Unit :=
  match plan.stageById exchange.consumerStageId with
  | none => .error ⟨"physical-plan exchange references an unknown stage"⟩
  | some consumer =>
    if exchange.producerStageId ∉ plan.stageIds then
      .error ⟨"physical-plan exchange references an unknown stage"⟩
    else if exchange.partitionCount ≠ consumer.partitionCount then
      .error ⟨"exchange partition count must match its consumer stage"⟩
    else .ok ()

def PlanFields.checkFused : Except PhysicalPlanError Unit := do
  if plan.executionMode = .fusedContainer then
    if plan.maximumParallelism ≠ 1 ∨ ∃ stage ∈ plan.stages, stage.partitionCount ≠ 1 then
      throw ⟨"fused-container plans require one partition per stage and parallelism one"⟩
    if ∃ exchange ∈ plan.exchanges,
        exchange.transport ≠ .memory ∨ exchange.partitioning ≠ .single then
      throw ⟨"fused-container exchanges must use single in-memory handoffs"⟩

def PlanFields.postInit : Except PhysicalPlanError Unit := do
  if isOpaqueId plan.pipelineId = false then
    throw ⟨"physical-plan pipeline id is invalid"⟩
  if plan.stages = [] ∨ maxStages < plan.stages.length ∨
      plan.stages.insertionSort (fun a b => a.stageId ≤ b.stageId) ≠ plan.stages ∨
      ¬ plan.stageIds.Nodup then
    throw ⟨"physical-plan stages must be unique and canonically ordered"⟩
  if maxExchanges < plan.exchanges.length ∨
      plan.exchanges.insertionSort (fun a b => a.exchangeId ≤ b.exchangeId) ≠ plan.exchanges ∨
      ¬ (plan.exchanges.map (·.exchangeId)).Nodup then
    throw ⟨"physical-plan exchanges must be unique and canonically ordered"⟩
  if maxPartitions < plan.partitionCount then
    throw ⟨"physical-plan stage partitions exceed the static bound"⟩
  if ¬ (1 ≤ plan.maximumParallelism ∧ plan.maximumParallelism ≤ plan.partitionCount) then
    throw ⟨"physical-plan maximum parallelism is invalid"⟩
  if ¬ plan.operators.Nodup ∨ maxOperators < plan.operators.length then
    throw ⟨"physical-plan operators must belong to exactly one stage"⟩
  if ∃ edge ∈ plan.dependencyEdges, edge.1 ∉ plan.stageIds then
    throw ⟨"physical-plan stage dependency is unknown"⟩
  if ¬ plan.exchangeEdges.Nodup ∨
      plan.exchangeEdges.toFinset ≠ plan.dependencyEdges.toFinset then
    throw ⟨"each stage dependency requires exactly one exchange"⟩
  plan.exchanges.forM plan.checkExchange
  plan.requireAcyclic
  plan.checkFused

end Checks

structure Plan extends PlanFields where
  valid : toPlanFields.postInit = .ok ()
  deriving DecidableEq, Repr

def PlanFields.create (fields : PlanFields) : Except PhysicalPlanError Plan :=
  match h : fields.postInit with
  | .ok () => .ok ⟨fields, h⟩
  | .error e => .error e

section Serialization

def style : JsonText.Style := ⟨false, false⟩

def canonicalJson (value : JsonText.Json) : String :=
  String.ofList (JsonText.text style (JsonText.sortKeys value))

def texts (items : List String) : JsonText.Json := .arr (items.map .str)

def PhysicalStage.payload (stage : PhysicalStage) : JsonText.Json :=
  .obj [("stage_id", .str stage.stageId), ("operators", texts stage.operators),
    ("partition_count", .int stage.partitionCount), ("depends_on", texts stage.dependsOn)]

def PhysicalExchange.payload (exchange : PhysicalExchange) : JsonText.Json :=
  .obj [("exchange_id", .str exchange.exchangeId),
    ("producer_stage_id", .str exchange.producerStageId),
    ("consumer_stage_id", .str exchange.consumerStageId),
    ("transport", .str exchange.transport.value),
    ("partitioning", .str exchange.partitioning.value),
    ("partition_count", .int exchange.partitionCount),
    ("partition_keys", texts exchange.partitionKeys)]

def Plan.payload (plan : Plan) : JsonText.Json :=
  .obj [("pipeline_id", .str plan.pipelineId),
    ("execution_mode", .str plan.executionMode.value),
    ("stages", .arr (plan.stages.map (·.payload))),
    ("exchanges", .arr (plan.exchanges.map (·.payload))),
    ("maximum_parallelism", .int plan.maximumParallelism)]

def canonicalPhysicalPlanContents (plan : Plan) : String :=
  canonicalJson (.obj [("schema", .str physicalPlanSchema), ("plan", plan.payload)])

variable (sha256 : String → String)

def Plan.revision (plan : Plan) : String := sha256 (canonicalPhysicalPlanContents plan)

def serializePhysicalPlan (plan : Plan) : String :=
  canonicalJson (.obj [("schema", .str physicalPlanSchema),
    ("revision", .str (plan.revision sha256)), ("plan", plan.payload)])

/-- A serialized plan is an object, never a command-line flag. -/
theorem head_serializePhysicalPlan (plan : Plan) :
    (serializePhysicalPlan sha256 plan).toList.head? = some '{' := by
  simp [serializePhysicalPlan, canonicalJson, JsonText.sortKeys, JsonText.text]

end Serialization

section Facts

/-- What the construction checks of a plan establish about its stages. -/
structure PlanFields.Checked (plan : PlanFields) : Prop where
  unique : plan.stageIds.Nodup
  operators : plan.operators.Nodup
  known : ∀ edge ∈ plan.dependencyEdges, edge.1 ∈ plan.stageIds
  handoffs : plan.exchangeEdges.Nodup
  matched : plan.exchangeEdges.toFinset = plan.dependencyEdges.toFinset
  ordered : plan.requireAcyclic = .ok ()

theorem PlanFields.checked {plan : PlanFields} (h : plan.postInit = .ok ()) : plan.Checked := by
  unfold PlanFields.postInit at h
  obtain ⟨_, h⟩ := Execution.guard_eq_ok h
  obtain ⟨hstages, h⟩ := Execution.guard_eq_ok h
  obtain ⟨_, h⟩ := Execution.guard_eq_ok h
  obtain ⟨_, h⟩ := Execution.guard_eq_ok h
  obtain ⟨_, h⟩ := Execution.guard_eq_ok h
  obtain ⟨hoperators, h⟩ := Execution.guard_eq_ok h
  obtain ⟨hknown, h⟩ := Execution.guard_eq_ok h
  obtain ⟨hexchanges, h⟩ := Execution.guard_eq_ok h
  obtain ⟨_, _, h⟩ := Execution.bind_eq_ok h
  obtain ⟨_, hordered, _⟩ := Execution.bind_eq_ok h
  push Not at hstages hoperators hknown hexchanges
  exact ⟨hstages.2.2.2, hoperators.1, hknown, hexchanges.1, hexchanges.2, hordered⟩

variable (plan : Plan)

theorem Plan.checked : plan.toPlanFields.Checked := PlanFields.checked plan.valid

theorem PlanFields.mem_dependencyEdges {plan : PlanFields} {dependency stageId : String} :
    (dependency, stageId) ∈ plan.dependencyEdges ↔
      ∃ stage ∈ plan.stages, stage.stageId = stageId ∧ dependency ∈ stage.dependsOn := by
  simp only [PlanFields.dependencyEdges, List.mem_flatMap, List.mem_map, Prod.mk.injEq]
  constructor
  · rintro ⟨stage, hstage, _, hin, rfl, rfl⟩
    exact ⟨stage, hstage, rfl, hin⟩
  · rintro ⟨stage, hstage, rfl, hin⟩
    exact ⟨stage, hstage, dependency, hin, rfl, rfl⟩

/-- The exchanges are one to one with the declared dependencies. -/
theorem Plan.mem_exchangeEdges {dependency stageId : String} :
    (dependency, stageId) ∈ plan.exchangeEdges ↔
      ∃ stage ∈ plan.stages, stage.stageId = stageId ∧ dependency ∈ stage.dependsOn := by
  rw [← PlanFields.mem_dependencyEdges, ← List.mem_toFinset, plan.checked.matched,
    List.mem_toFinset]

theorem Plan.stage_eq {a b : PhysicalStage} (ha : a ∈ plan.stages) (hb : b ∈ plan.stages)
    (h : a.stageId = b.stageId) : a = b :=
  List.inj_on_of_nodup_map plan.checked.unique ha hb h

theorem Plan.stageById {stage : PhysicalStage} (h : stage ∈ plan.stages) :
    plan.toPlanFields.stageById stage.stageId = some stage := by
  unfold PlanFields.stageById
  cases hfound : plan.stages.find? fun other => decide (other.stageId = stage.stageId) with
  | none =>
    have := List.find?_eq_none.mp hfound stage h
    simp at this
  | some other =>
    have hid := List.find?_some hfound
    simp only [decide_eq_true_eq] at hid
    rw [plan.stage_eq (List.mem_of_find?_eq_some hfound) h hid]

theorem Plan.mem_dependenciesOf {dependency stageId : String} :
    dependency ∈ plan.dependenciesOf stageId ↔
      ∃ stage ∈ plan.stages, stage.stageId = stageId ∧ dependency ∈ stage.dependsOn := by
  constructor
  · intro h
    unfold PlanFields.dependenciesOf at h
    cases hfound : plan.toPlanFields.stageById stageId with
    | none => simp [hfound] at h
    | some stage =>
      have hid := List.find?_some hfound
      simp only [decide_eq_true_eq] at hid
      exact ⟨stage, List.mem_of_find?_eq_some hfound, hid, by simpa [hfound] using h⟩
  · rintro ⟨stage, hstage, rfl, hin⟩
    unfold PlanFields.dependenciesOf
    rw [plan.stageById hstage]
    exact hin

/-- No stage waits for itself, however many handoffs away. -/
theorem Plan.acyclic (stageId : String) :
    ¬ Relation.TransGen (fun a b => (b, a) ∈ plan.dependencyEdges) stageId stageId := by
  have hsame : (fun a b => (b, a) ∈ plan.dependencyEdges) =
      fun a b => b ∈ plan.dependenciesOf a := by
    ext a b
    rw [PlanFields.mem_dependencyEdges, plan.mem_dependenciesOf]
  have hsearch : DepthFirst.Outcome plan.dependenciesOf (· ∈ plan.stageIds) .start plan.stageIds
      (plan.stageIds.foldlM
        (DepthFirst.reach (DepthFirst.visit plan.dependenciesOf plan.stages.length)) .start) := by
    have hclosed : ∀ a ∈ plan.stageIds, ∀ b ∈ plan.dependenciesOf a, b ∈ plan.stageIds := by
      intro a _ b hb
      have hedge := PlanFields.mem_dependencyEdges.mpr (plan.mem_dependenciesOf.mp hb)
      exact plan.checked.known _ hedge
    exact DepthFirst.search_spec hclosed (fun _ h => h) (fun _ h => h)
      (by simp [PlanFields.stageIds])
  have hordered := plan.checked.ordered
  unfold PlanFields.requireAcyclic at hordered
  rcases hsearch with ⟨s, _, hs, hall⟩ | ⟨walk, herror, _⟩
  · rw [hsame]
    intro hloop
    obtain ⟨next, hnext, _⟩ := Relation.TransGen.head'_iff.mp hloop
    obtain ⟨stage, hstage, rfl, _⟩ := plan.mem_dependenciesOf.mp hnext
    exact hs.sound.acyclic (hall _ (List.mem_map_of_mem hstage)) hloop
  · rw [herror] at hordered
    cases hordered

end Facts

end Dander.PhysicalPlan
