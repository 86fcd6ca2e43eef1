import Dander.PhysicalPlans
import Dander.PipelineGraphs

/-!
# The static physical planner

The planner compiles a graph to one fused stage, to a chain of stages or to a
keyed join, and refuses every other distributed shape. The stages of a plan it
returns correspond to the graph: they place each node once, and they depend on
each other exactly as the edges that cross them say.
-/
namespace Dander.PhysicalPlan

open Pipeline (PipelineGraph Node NodeField Edge GraphValidationError Leads)

structure PhysicalPlanningError where
  message : String
  deriving DecidableEq, Repr

section Planner

def knownNodeTypes : List String := ["source", "transform", "target"]
def defaultDistributedPartitions : ℤ := 2
def maxDistributedPartitions : ℤ := 2000

/-- A plan that cannot be constructed is reported as a planning error. -/
def represented {α : Type} : Except PhysicalPlanError α → Except PhysicalPlanningError α
  | .ok a => .ok a
  | .error _ => .error ⟨"The pipeline identifiers cannot be represented in a physical plan."⟩

def edgePairs (graph : PipelineGraph) : List (String × String) :=
  graph.edges.map fun edge => (edge.source, edge.target)

/-- The order of `sorted` on pairs. -/
def pairLe (a b : String × String) : Prop := a.1 < b.1 ∨ a.1 = b.1 ∧ a.2 ≤ b.2

instance : DecidableRel pairLe := fun a b =>
  inferInstanceAs (Decidable (a.1 < b.1 ∨ a.1 = b.1 ∧ a.2 ≤ b.2))

def byType (graph : PipelineGraph) (nodeType : String) : List Node :=
  (graph.nodes.filter (·.type = nodeType)).insertionSort fun a b => a.id ≤ b.id

def fusedPlan (graph : PipelineGraph) (pipelineId : String) : Except PhysicalPlanError Plan := do
  let pipeline ← StageFields.create
    ⟨"pipeline", graph.nodeIds.insertionSort (· ≤ ·), 1, []⟩
  PlanFields.create ⟨pipelineId, .fusedContainer, [pipeline], [], 1⟩

def linearPlan (graph : PipelineGraph) (pipelineId : String) (partitionCount : ℤ)
    (source transform target : Node) : Except PhysicalPlanningError Plan := do
  let expected := [(source.id, transform.id), (transform.id, target.id)]
  if (edgePairs graph).insertionSort pairLe ≠ expected.insertionSort pairLe then
    throw ⟨"Distributed planning supports only a source-to-transform-to-target chain."⟩
  match transform.config with
  | .transform config =>
    if (∃ edge ∈ graph.edges, edge.join.isSome) ∨ config.join.isSome then
      throw ⟨"Distributed planning does not support joins yet."⟩
    represented do
      let extract ← StageFields.create ⟨"extract", [source.id], partitionCount, []⟩
      let work ← StageFields.create
        ⟨"transform", [transform.id, target.id].insertionSort (· ≤ ·), partitionCount, ["extract"]⟩
      let handoff ← ExchangeFields.create
        ⟨"extract-transform", "extract", "transform", .objectStore, .roundRobin,
          partitionCount, []⟩
      PlanFields.create
        ⟨pipelineId, .distributed, [extract, work], [handoff], partitionCount⟩
  | _ => throw ⟨"Distributed planning does not support joins yet."⟩

/-- The two transforms in the order in which the edges chain them. -/
def chained (graph : PipelineGraph) (source : Node) (transforms : List Node) (target : Node) :
    Option (Node × Node) :=
  transforms.findSome? fun first =>
    (transforms.find? (·.id ≠ first.id)).bind fun second =>
      if (edgePairs graph).toFinset =
          {(source.id, first.id), (first.id, second.id), (second.id, target.id)} then
        some (first, second)
      else none

def multistageLinearPlan (graph : PipelineGraph) (pipelineId : String) (partitionCount : ℤ)
    (source : Node) (transforms : List Node) (target : Node) :
    Except PhysicalPlanningError Plan :=
  match chained graph source transforms target with
  | none => .error
      ⟨"Distributed multistage planning supports only a two-transform linear chain."⟩
  | some (first, second) =>
    match first.config, second.config with
    | .transform firstConfig, .transform secondConfig => do
      if (∃ edge ∈ graph.edges, edge.join.isSome) ∨ firstConfig.join.isSome ∨
          secondConfig.join.isSome then
        throw ⟨"Distributed multistage planning does not support joins."⟩
      represented do
        let extract ← StageFields.create ⟨"extract", [source.id], partitionCount, []⟩
        let transformA ← StageFields.create
          ⟨"transform-a", [first.id], partitionCount, ["extract"]⟩
        let transformB ← StageFields.create
          ⟨"transform-b", [second.id, target.id].insertionSort (· ≤ ·), partitionCount,
            ["transform-a"]⟩
        let toA ← ExchangeFields.create
          ⟨"extract-transform-a", "extract", "transform-a", .objectStore, .roundRobin,
            partitionCount, []⟩
        let toB ← ExchangeFields.create
          ⟨"transform-a-transform-b", "transform-a", "transform-b", .objectStore, .roundRobin,
            partitionCount, []⟩
        PlanFields.create
          ⟨pipelineId, .distributed, [extract, transformA, transformB], [toA, toB],
            partitionCount⟩
    | _, _ => .error ⟨"Distributed multistage planning does not support joins."⟩

variable (upper : String → String)

/-- The last field of a name is the one a dictionary of the fields keeps. -/
def fieldType (fields : List NodeField) (name : String) : Option String :=
  (fields.reverse.find? (·.name = name)).map fun field => upper field.type

def sourceById (sources : List Node) (id : String) : Option Node := sources.find? (·.id = id)

def keyedJoinPlan (graph : PipelineGraph) (pipelineId : String) (partitionCount : ℤ)
    (sources : List Node) (transform target : Node) : Except PhysicalPlanningError Plan :=
  match transform.config with
  | .transform ⟨some join, operations⟩ =>
    match join.keys with
    | [key] => do
      if join.type ≠ .inner ∨ operations ≠ [] ∨ ∃ edge ∈ graph.edges, edge.join.isSome then
        throw ⟨"Distributed join planning supports one inner equality key without operations."⟩
      if (sources.map (·.id)).toFinset ≠ {join.leftInput, join.rightInput} then
        throw ⟨"Distributed join inputs must match the graph's two source nodes."⟩
      if (edgePairs graph).toFinset ≠ {(join.leftInput, transform.id),
          (join.rightInput, transform.id), (transform.id, target.id)} then
        throw ⟨"Distributed join planning supports only two sources feeding one join target."⟩
      let leftType := (sourceById sources join.leftInput).bind fun source =>
        fieldType upper source.fields key.left
      let rightType := (sourceById sources join.rightInput).bind fun source =>
        fieldType upper source.fields key.right
      if leftType = none ∨ rightType = none ∨ leftType ≠ rightType then
        throw ⟨"Distributed join keys must exist and have the same declared type."⟩
      represented do
        let extractLeft ← StageFields.create
          ⟨"extract-left", [join.leftInput], partitionCount, []⟩
        let extractRight ← StageFields.create
          ⟨"extract-right", [join.rightInput], partitionCount, []⟩
        let joined ← StageFields.create
          ⟨"join", [transform.id, target.id].insertionSort (· ≤ ·), partitionCount,
            ["extract-left", "extract-right"]⟩
        let left ← ExchangeFields.create
          ⟨"left-join", "extract-left", "join", .objectStore, .hash, partitionCount, [key.left]⟩
        let right ← ExchangeFields.create
          ⟨"right-join", "extract-right", "join", .objectStore, .hash, partitionCount,
            [key.right]⟩
        PlanFields.create
          ⟨pipelineId, .distributed, [extractLeft, extractRight, joined], [left, right],
            partitionCount⟩
    | _ => .error
        ⟨"Distributed join planning supports one inner equality key without operations."⟩
  | _ => .error ⟨"Distributed join planning requires one explicit transform join."⟩

def distributedPlan (graph : PipelineGraph) (pipelineId : String) (partitionCount : ℤ) :
    Except PhysicalPlanningError Plan :=
  match byType graph "source", byType graph "transform", byType graph "target" with
  | [left, right], [transform], [target] =>
    keyedJoinPlan upper graph pipelineId partitionCount [left, right] transform target
  | [source], [first, second], [target] =>
    multistageLinearPlan graph pipelineId partitionCount source [first, second] target
  | [source], [transform], [target] =>
    linearPlan graph pipelineId partitionCount source transform target
  | _, _, _ => .error ⟨"Distributed planning supports exactly one source and target, " ++
      "with one or two transform nodes."⟩

variable (checkFields : PipelineGraph → Except GraphValidationError Unit)

/-- The domain graph of a document: its structure and its field wiring are validated. -/
def toDomain (graph : PipelineGraph) : Except GraphValidationError PipelineGraph := do
  Pipeline.validate graph
  checkFields graph
  return graph

def plan (document : PipelineGraph) (pipelineId : String) (executionMode : PhysicalExecutionMode)
    (distributedPartitions : Option ℤ) : Except PhysicalPlanningError Plan :=
  match toDomain checkFields document with
  | .error _ => .error ⟨"The pipeline graph is not valid for physical planning."⟩
  | .ok graph => do
    if graph.nodes = [] then
      throw ⟨"Physical planning requires at least one graph node."⟩
    if ∃ node ∈ graph.nodes, node.type ∉ knownNodeTypes then
      throw ⟨"Physical planning does not support this graph node type."⟩
    if ∃ count ∈ distributedPartitions, ¬ (2 ≤ count ∧ count ≤ maxDistributedPartitions) then
      throw ⟨"Distributed partition count is outside its static bound."⟩
    match executionMode with
    | .fusedContainer =>
      if distributedPartitions.isSome then
        throw ⟨"Fused planning does not accept a distributed partition count."⟩
      represented (fusedPlan graph pipelineId)
    | .distributed =>
      distributedPlan upper graph pipelineId
        (distributedPartitions.getD defaultDistributedPartitions)

end Planner

section Correspondence

/-- An edge of the graph leads from one stage's operators to another's. -/
def Crosses (graph : PipelineGraph) (producer consumer : PhysicalStage) : Prop :=
  ∃ a ∈ producer.operators, ∃ b ∈ consumer.operators, Leads graph a b

/-- The stages of a plan and the nodes and edges of its graph, one to one. -/
structure Corresponds (graph : PipelineGraph) (physical : Plan) : Prop where
  placed : ∀ id ∈ graph.nodeIds, ∃! stage, stage ∈ physical.stages ∧ id ∈ stage.operators
  nodes : ∀ stage ∈ physical.stages, ∀ id ∈ stage.operators, id ∈ graph.nodeIds
  known : ∀ stage ∈ physical.stages, ∀ dependency ∈ stage.dependsOn,
    ∃ producer ∈ physical.stages, producer.stageId = dependency
  induced : ∀ producer ∈ physical.stages, ∀ consumer ∈ physical.stages,
    producer.stageId ∈ consumer.dependsOn ↔ producer ≠ consumer ∧ Crosses graph producer consumer
  handoffs : physical.exchangeEdges.Nodup
  exchanged : ∀ dependency stageId, (dependency, stageId) ∈ physical.exchangeEdges ↔
    ∃ stage ∈ physical.stages, stage.stageId = stageId ∧ dependency ∈ stage.dependsOn
  acyclic : ∀ stageId, ¬ Relation.TransGen (fun a b => (b, a) ∈ physical.dependencyEdges)
    stageId stageId

theorem StageFields.create_eq_ok {fields : StageFields} {stage : PhysicalStage}
    (h : fields.create = .ok stage) : stage.toStageFields = fields := by
  unfold StageFields.create at h
  split at h
  · cases h
    rfl
  · cases h

theorem PlanFields.create_eq_ok {fields : PlanFields} {physical : Plan}
    (h : fields.create = .ok physical) : physical.toPlanFields = fields := by
  unfold PlanFields.create at h
  split at h
  · cases h
    rfl
  · cases h

theorem represented_eq_ok {α : Type} {x : Except PhysicalPlanError α} {a : α}
    (h : represented x = .ok a) : x = .ok a := by
  cases x with
  | error e => cases h
  | ok b => rw [represented] at h; cases h; rfl

variable {graph : PipelineGraph} {physical : Plan}

/-- What has to be shown of a plan: the rest its construction checks establish. -/
theorem corresponds (hnodes : ∀ id, id ∈ physical.operators ↔ id ∈ graph.nodeIds)
    (hinduced : ∀ producer ∈ physical.stages, ∀ consumer ∈ physical.stages,
      producer.stageId ∈ consumer.dependsOn ↔
        producer.stageId ≠ consumer.stageId ∧ Crosses graph producer consumer) :
    Corresponds graph physical where
  placed id hid := by
    obtain ⟨stage, hstage, hin⟩ := List.mem_flatMap.mp ((hnodes id).mpr hid)
    refine ⟨stage, ⟨hstage, hin⟩, ?_⟩
    rintro other ⟨hother, hin'⟩
    by_contra hne
    have hdisjoint := (List.nodup_flatMap.mp physical.checked.operators).2
    have : Std.Symm (Function.onFun List.Disjoint fun stage : PhysicalStage => stage.operators) :=
      ⟨fun _ _ h => List.Disjoint.symm h⟩
    exact hdisjoint.forall hother hstage hne hin' hin
  nodes stage hstage id hid := (hnodes id).mp (List.mem_flatMap.mpr ⟨stage, hstage, hid⟩)
  known stage hstage dependency hdependency := by
    have hedge := PlanFields.mem_dependencyEdges.mpr ⟨stage, hstage, rfl, hdependency⟩
    exact List.mem_map.mp (physical.checked.known _ hedge)
  induced producer hproducer consumer hconsumer := by
    rw [hinduced producer hproducer consumer hconsumer]
    have : producer.stageId ≠ consumer.stageId ↔ producer ≠ consumer :=
      not_congr ⟨physical.stage_eq hproducer hconsumer, fun h => by rw [h]⟩
    rw [this]
  handoffs := physical.checked.handoffs
  exchanged _ _ := physical.mem_exchangeEdges
  acyclic := physical.acyclic

theorem fusedPlan_corresponds {pipelineId : String}
    (h : fusedPlan graph pipelineId = .ok physical) :
    Corresponds graph physical ∧ physical.pipelineId = pipelineId := by
  obtain ⟨pipeline, hpipeline, h⟩ := Execution.bind_eq_ok h
  have hstage := StageFields.create_eq_ok hpipeline
  have hplan := PlanFields.create_eq_ok h
  have hid : physical.pipelineId = pipelineId := by rw [hplan]
  refine ⟨corresponds ?_ ?_, hid⟩
  · intro id
    simp [PlanFields.operators, hplan, hstage]
  · intro producer hproducer consumer hconsumer
    simp only [hplan, List.mem_singleton] at hproducer hconsumer
    subst hproducer hconsumer
    simp [hstage]

theorem mem_edgePairs {a b : String} : (a, b) ∈ edgePairs graph ↔ Leads graph a b := by
  simp [edgePairs, Leads]

/-- The nodes of the three types are the nodes of the graph. -/
theorem perm_byType (hknown : ∀ node ∈ graph.nodes, node.type ∈ knownNodeTypes) :
    (byType graph "source" ++ byType graph "transform" ++ byType graph "target").Perm
      graph.nodes := by
  have hsplit : ∀ nodes : List Node, (∀ node ∈ nodes, node.type ∈ knownNodeTypes) →
      (nodes.filter (·.type = "source") ++ nodes.filter (·.type = "transform") ++
        nodes.filter (·.type = "target")).Perm nodes := by
    intro nodes hnodes
    induction nodes with
    | nil => simp
    | cons node rest ih =>
      have hrest := ih fun other hother => hnodes other (List.mem_cons_of_mem _ hother)
      have htype : node.type = "source" ∨ node.type = "transform" ∨ node.type = "target" := by
        simpa [knownNodeTypes] using hnodes node (by simp)
      rcases htype with htype | htype | htype
      · simpa [List.filter_cons, htype] using hrest
      · refine List.Perm.trans ?_ (hrest.cons node)
        simp [htype]
      · refine List.Perm.trans ?_ (hrest.cons node)
        simp only [List.filter_cons, htype]
        exact List.perm_middle
  refine List.Perm.trans ?_ (hsplit graph.nodes hknown)
  unfold byType
  exact ((List.perm_insertionSort _ _).append (List.perm_insertionSort _ _)).append
    (List.perm_insertionSort _ _)

/-- The ids of the nodes, type by type. -/
theorem ids_byType (hgraph : Pipeline.WellFormed graph)
    (hknown : ∀ node ∈ graph.nodes, node.type ∈ knownNodeTypes)
    {sources transforms targets : List Node}
    (hsources : byType graph "source" = sources)
    (htransforms : byType graph "transform" = transforms)
    (htargets : byType graph "target" = targets) :
    ((sources ++ transforms ++ targets).map (·.id)).Nodup ∧
      ∀ id, id ∈ graph.nodeIds ↔ id ∈ (sources ++ transforms ++ targets).map (·.id) := by
  subst hsources htransforms htargets
  have hperm := (perm_byType hknown).map (·.id)
  exact ⟨hperm.nodup_iff.mpr hgraph.unique, fun id => hperm.mem_iff.symm⟩

variable {pipelineId : String} {partitionCount : ℤ}

theorem crosses_iff {edges : List (String × String)}
    (hleads : ∀ a b, Leads graph a b ↔ (a, b) ∈ edges) {producer consumer : PhysicalStage} :
    Crosses graph producer consumer ↔
      ∃ edge ∈ edges, edge.1 ∈ producer.operators ∧ edge.2 ∈ consumer.operators := by
  constructor
  · rintro ⟨a, ha, b, hb, h⟩
    exact ⟨(a, b), (hleads a b).mp h, ha, hb⟩
  · rintro ⟨⟨a, b⟩, h, ha, hb⟩
    exact ⟨a, ha, b, hb, (hleads a b).mpr h⟩

theorem mem_sortedPair {a b id : String} :
    id ∈ [a, b].insertionSort (· ≤ ·) ↔ id = a ∨ id = b := by
  rw [List.mem_insertionSort]
  simp

/-- A source stage before the stage of the transform and the target. -/
theorem chain_corresponds {extract work : PhysicalStage} {source transform target : String}
    (hstages : physical.stages = [extract, work])
    (hextract : extract.toStageFields = ⟨"extract", [source], partitionCount, []⟩)
    (hwork : work.toStageFields = ⟨"transform", [transform, target].insertionSort (· ≤ ·),
      partitionCount, ["extract"]⟩)
    (hids : [source, transform, target].Nodup)
    (hnodes : ∀ id, id ∈ graph.nodeIds ↔ id ∈ [source, transform, target])
    (hleads : ∀ a b, Leads graph a b ↔ (a, b) ∈ [(source, transform), (transform, target)]) :
    Corresponds graph physical := by
  have hlast : ∀ id, id ∈ work.operators ↔ id = transform ∨ id = target := by
    intro id
    rw [hwork]
    exact mem_sortedPair
  simp only [List.nodup_cons, List.mem_cons, not_or] at hids
  apply corresponds
  · intro id
    simp [PlanFields.operators, hstages, hextract, hnodes, hlast]
  · intro producer hproducer consumer hconsumer
    simp only [hstages, List.mem_cons, List.not_mem_nil, or_false] at hproducer hconsumer
    simp only [crosses_iff hleads]
    rcases hproducer with rfl | rfl <;> rcases hconsumer with rfl | rfl <;>
      simp [hextract, hwork] <;> grind

/-- A stage for the source, one for the first transform, and one for the rest. -/
theorem multistage_corresponds {extract transformA transformB : PhysicalStage}
    {source first second target : String}
    (hstages : physical.stages = [extract, transformA, transformB])
    (hextract : extract.toStageFields = ⟨"extract", [source], partitionCount, []⟩)
    (hfirst : transformA.toStageFields = ⟨"transform-a", [first], partitionCount, ["extract"]⟩)
    (hsecond : transformB.toStageFields = ⟨"transform-b",
      [second, target].insertionSort (· ≤ ·), partitionCount, ["transform-a"]⟩)
    (hids : [source, first, second, target].Nodup)
    (hnodes : ∀ id, id ∈ graph.nodeIds ↔ id ∈ [source, first, second, target])
    (hleads : ∀ a b, Leads graph a b ↔
      (a, b) ∈ [(source, first), (first, second), (second, target)]) :
    Corresponds graph physical := by
  have hlast : ∀ id, id ∈ transformB.operators ↔ id = second ∨ id = target := by
    intro id
    rw [hsecond]
    exact mem_sortedPair
  simp only [List.nodup_cons, List.mem_cons, not_or] at hids
  apply corresponds
  · intro id
    simp [PlanFields.operators, hstages, hextract, hfirst, hnodes, hlast]
  · intro producer hproducer consumer hconsumer
    simp only [hstages, List.mem_cons, List.not_mem_nil, or_false] at hproducer hconsumer
    simp only [crosses_iff hleads]
    rcases hproducer with rfl | rfl | rfl <;> rcases hconsumer with rfl | rfl | rfl <;>
      simp [hextract, hfirst, hsecond] <;> grind

/-- A stage for each source, and one for the join and its target. -/
theorem join_corresponds {extractLeft extractRight joined : PhysicalStage}
    {left right transform target : String}
    (hstages : physical.stages = [extractLeft, extractRight, joined])
    (hleft : extractLeft.toStageFields = ⟨"extract-left", [left], partitionCount, []⟩)
    (hright : extractRight.toStageFields = ⟨"extract-right", [right], partitionCount, []⟩)
    (hjoined : joined.toStageFields = ⟨"join", [transform, target].insertionSort (· ≤ ·),
      partitionCount, ["extract-left", "extract-right"]⟩)
    (hids : [left, right, transform, target].Nodup)
    (hnodes : ∀ id, id ∈ graph.nodeIds ↔ id ∈ [left, right, transform, target])
    (hleads : ∀ a b, Leads graph a b ↔
      (a, b) ∈ [(left, transform), (right, transform), (transform, target)]) :
    Corresponds graph physical := by
  have hlast : ∀ id, id ∈ joined.operators ↔ id = transform ∨ id = target := by
    intro id
    rw [hjoined]
    exact mem_sortedPair
  simp only [List.nodup_cons, List.mem_cons, not_or] at hids
  apply corresponds
  · intro id
    simp [PlanFields.operators, hstages, hleft, hright, hnodes, hlast]
  · intro producer hproducer consumer hconsumer
    simp only [hstages, List.mem_cons, List.not_mem_nil, or_false] at hproducer hconsumer
    simp only [crosses_iff hleads]
    rcases hproducer with rfl | rfl | rfl <;> rcases hconsumer with rfl | rfl | rfl <;>
      simp [hleft, hright, hjoined] <;> grind

variable {pipelineId : String}

theorem linearPlan_corresponds {source transform target : Node}
    (hids : [source.id, transform.id, target.id].Nodup)
    (hnodes : ∀ id, id ∈ graph.nodeIds ↔ id ∈ [source.id, transform.id, target.id])
    (h : linearPlan graph pipelineId partitionCount source transform target = .ok physical) :
    Corresponds graph physical ∧ physical.pipelineId = pipelineId := by
  unfold linearPlan at h
  obtain ⟨hedges, h⟩ := Execution.guard_eq_ok h
  have hleads : ∀ a b, Leads graph a b ↔
      (a, b) ∈ [(source.id, transform.id), (transform.id, target.id)] := by
    intro a b
    rw [← mem_edgePairs, ← List.mem_insertionSort pairLe, not_not.mp hedges,
      List.mem_insertionSort]
  cases hconfig : transform.config with
  | transform config =>
    simp only [hconfig] at h
    obtain ⟨_, h⟩ := Execution.guard_eq_ok h
    obtain ⟨extract, hextract, h⟩ := Execution.bind_eq_ok (represented_eq_ok h)
    obtain ⟨work, hwork, h⟩ := Execution.bind_eq_ok h
    obtain ⟨handoff, _, h⟩ := Execution.bind_eq_ok h
    have hplan := PlanFields.create_eq_ok h
    exact ⟨chain_corresponds (by rw [hplan]) (StageFields.create_eq_ok hextract)
      (StageFields.create_eq_ok hwork) hids hnodes hleads, by rw [hplan]⟩
  | source => simp [hconfig] at h
  | target => simp [hconfig] at h
  | free => simp [hconfig] at h

theorem chained_eq_some {source target first second : Node} {transforms : List Node}
    (h : chained graph source transforms target = some (first, second)) :
    first ∈ transforms ∧ second ∈ transforms ∧ second.id ≠ first.id ∧
      ∀ a b, Leads graph a b ↔
        (a, b) ∈ [(source.id, first.id), (first.id, second.id), (second.id, target.id)] := by
  obtain ⟨one, hone, h⟩ := List.exists_of_findSome?_eq_some h
  obtain ⟨other, hother, h⟩ := Option.bind_eq_some_iff.mp h
  by_cases hedges : (edgePairs graph).toFinset =
      {(source.id, one.id), (one.id, other.id), (other.id, target.id)}
  · rw [if_pos hedges] at h
    cases h
    have hne := List.find?_some hother
    refine ⟨hone, List.mem_of_find?_eq_some hother, by simpa using hne, ?_⟩
    intro a b
    rw [← mem_edgePairs, ← List.mem_toFinset, hedges]
    simp
  · rw [if_neg hedges] at h
    cases h

/-- Two different members of a list of two are the list, in one of its orders. -/
theorem perm_pair {first second one other : Node} (hfirst : first ∈ [one, other])
    (hsecond : second ∈ [one, other]) (hne : second.id ≠ first.id) :
    [first, second].Perm [one, other] := by
  simp only [List.mem_cons, List.not_mem_nil, or_false] at hfirst hsecond
  rcases hfirst with rfl | rfl <;> rcases hsecond with rfl | rfl
  · exact absurd rfl hne
  · exact List.Perm.refl _
  · exact List.Perm.swap _ _ _
  · exact absurd rfl hne

theorem multistageLinearPlan_corresponds {source one other target : Node}
    (hids : [source.id, one.id, other.id, target.id].Nodup)
    (hnodes : ∀ id, id ∈ graph.nodeIds ↔ id ∈ [source.id, one.id, other.id, target.id])
    (h : multistageLinearPlan graph pipelineId partitionCount source [one, other] target =
      .ok physical) :
    Corresponds graph physical ∧ physical.pipelineId = pipelineId := by
  unfold multistageLinearPlan at h
  cases hchained : chained graph source [one, other] target with
  | none => simp [hchained] at h
  | some ordered =>
    obtain ⟨first, second⟩ := ordered
    obtain ⟨hfirst, hsecond, hne, hleads⟩ := chained_eq_some hchained
    have hperm : [source.id, first.id, second.id, target.id].Perm
        [source.id, one.id, other.id, target.id] :=
      (((perm_pair hfirst hsecond hne).map Node.id).append_right [target.id]).cons source.id
    have hids' := hperm.nodup_iff.mpr hids
    have hnodes' : ∀ id, id ∈ graph.nodeIds ↔
        id ∈ [source.id, first.id, second.id, target.id] := fun id => by
      rw [hnodes, hperm.mem_iff]
    simp only [hchained] at h
    split at h
    · obtain ⟨_, h⟩ := Execution.guard_eq_ok h
      obtain ⟨extract, hextract, h⟩ := Execution.bind_eq_ok (represented_eq_ok h)
      obtain ⟨transformA, hA, h⟩ := Execution.bind_eq_ok h
      obtain ⟨transformB, hB, h⟩ := Execution.bind_eq_ok h
      obtain ⟨toA, _, h⟩ := Execution.bind_eq_ok h
      obtain ⟨toB, _, h⟩ := Execution.bind_eq_ok h
      have hplan := PlanFields.create_eq_ok h
      exact ⟨multistage_corresponds (by rw [hplan]) (StageFields.create_eq_ok hextract)
        (StageFields.create_eq_ok hA) (StageFields.create_eq_ok hB) hids' hnodes' hleads,
        by rw [hplan]⟩
    · cases h

/-- The inputs of a join are its two sources, in one of their orders. -/
theorem perm_inputs {left right leftInput rightInput : String}
    (h : ([left, right].toFinset : Finset String) = {leftInput, rightInput})
    (hne : leftInput ≠ rightInput) : [leftInput, rightInput].Perm [left, right] := by
  have hleft : leftInput ∈ [left, right] := by
    rw [← List.mem_toFinset, h]
    simp
  have hright : rightInput ∈ [left, right] := by
    rw [← List.mem_toFinset, h]
    simp
  simp only [List.mem_cons, List.not_mem_nil, or_false] at hleft hright
  rcases hleft with rfl | rfl <;> rcases hright with rfl | rfl
  · exact absurd rfl hne
  · exact List.Perm.refl _
  · exact List.Perm.swap _ _ _
  · exact absurd rfl hne

theorem keyedJoinPlan_corresponds {upper : String → String} {left right transform target : Node}
    (hids : [left.id, right.id, transform.id, target.id].Nodup)
    (hnodes : ∀ id, id ∈ graph.nodeIds ↔ id ∈ [left.id, right.id, transform.id, target.id])
    (h : keyedJoinPlan upper graph pipelineId partitionCount [left, right] transform target =
      .ok physical) :
    Corresponds graph physical ∧ physical.pipelineId = pipelineId := by
  unfold keyedJoinPlan at h
  split at h
  next join operations hconfig =>
    split at h
    next key hkeys =>
      obtain ⟨_, h⟩ := Execution.guard_eq_ok h
      obtain ⟨hinputs, h⟩ := Execution.guard_eq_ok h
      obtain ⟨hedges, h⟩ := Execution.guard_eq_ok h
      obtain ⟨_, h⟩ := Execution.guard_eq_ok h
      have hperm : [join.leftInput, join.rightInput, transform.id, target.id].Perm
          [left.id, right.id, transform.id, target.id] :=
        (perm_inputs (not_not.mp hinputs) join.distinct).append_right [transform.id, target.id]
      have hids' := hperm.nodup_iff.mpr hids
      have hnodes' : ∀ id, id ∈ graph.nodeIds ↔
          id ∈ [join.leftInput, join.rightInput, transform.id, target.id] := fun id => by
        rw [hnodes, hperm.mem_iff]
      have hleads : ∀ a b, Leads graph a b ↔ (a, b) ∈ [(join.leftInput, transform.id),
          (join.rightInput, transform.id), (transform.id, target.id)] := by
        intro a b
        rw [← mem_edgePairs, ← List.mem_toFinset, not_not.mp hedges]
        simp
      obtain ⟨extractLeft, hleft, h⟩ := Execution.bind_eq_ok (represented_eq_ok h)
      obtain ⟨extractRight, hright, h⟩ := Execution.bind_eq_ok h
      obtain ⟨joined, hjoined, h⟩ := Execution.bind_eq_ok h
      obtain ⟨toLeft, _, h⟩ := Execution.bind_eq_ok h
      obtain ⟨toRight, _, h⟩ := Execution.bind_eq_ok h
      have hplan := PlanFields.create_eq_ok h
      exact ⟨join_corresponds (by rw [hplan]) (StageFields.create_eq_ok hleft)
        (StageFields.create_eq_ok hright) (StageFields.create_eq_ok hjoined) hids' hnodes' hleads,
        by rw [hplan]⟩
    next => cases h
  next => cases h

theorem distributedPlan_corresponds {upper : String → String}
    (hgraph : Pipeline.WellFormed graph)
    (hknown : ∀ node ∈ graph.nodes, node.type ∈ knownNodeTypes)
    (h : distributedPlan upper graph pipelineId partitionCount = .ok physical) :
    Corresponds graph physical ∧ physical.pipelineId = pipelineId := by
  unfold distributedPlan at h
  split at h
  next left right transform target hsources htransforms htargets =>
    obtain ⟨hids, hnodes⟩ := ids_byType hgraph hknown hsources htransforms htargets
    exact keyedJoinPlan_corresponds hids hnodes h
  next source one other target hsources htransforms htargets =>
    obtain ⟨hids, hnodes⟩ := ids_byType hgraph hknown hsources htransforms htargets
    exact multistageLinearPlan_corresponds hids hnodes h
  next source transform target hsources htransforms htargets =>
    obtain ⟨hids, hnodes⟩ := ids_byType hgraph hknown hsources htransforms htargets
    exact linearPlan_corresponds hids hnodes h
  next => cases h

theorem plan_eq_ok {upper : String → String}
    {checkFields : PipelineGraph → Except GraphValidationError Unit}
    {mode : PhysicalExecutionMode} {partitions : Option ℤ}
    (h : plan upper checkFields graph pipelineId mode partitions = .ok physical) :
    Corresponds graph physical ∧ physical.pipelineId = pipelineId := by
  unfold plan at h
  cases hdomain : toDomain checkFields graph with
  | error e => simp [hdomain] at h
  | ok domain =>
    obtain ⟨_, hvalid, hrest⟩ := Execution.bind_eq_ok hdomain
    obtain ⟨_, _, hrest⟩ := Execution.bind_eq_ok hrest
    obtain rfl : graph = domain := by cases hrest; rfl
    simp only [hdomain] at h
    obtain ⟨_, h⟩ := Execution.guard_eq_ok h
    obtain ⟨hknown, h⟩ := Execution.guard_eq_ok h
    obtain ⟨_, h⟩ := Execution.guard_eq_ok h
    push Not at hknown
    cases mode with
    | fusedContainer =>
      obtain ⟨_, h⟩ := Execution.guard_eq_ok h
      exact fusedPlan_corresponds (represented_eq_ok h)
    | distributed =>
      exact distributedPlan_corresponds (Pipeline.wellFormed_of_validate hvalid) hknown h

end Correspondence

section Binding

/-- The parts of an execution template that binding a physical plan reads. -/
structure ExecutionTemplate where
  pipelineId : String
  launcher : String
  command : List String
  maximumParallelism : ℤ
  deriving DecidableEq, Repr

def physicalPlanArgument : String := "--physical-plan"

variable (sha256 : String → String)

def bindPhysicalPlan (template : ExecutionTemplate) (physical : Plan) :
    Except PhysicalPlanningError ExecutionTemplate := do
  if template.pipelineId ≠ physical.pipelineId then
    throw ⟨"The physical plan pipeline does not match the execution template."⟩
  if physicalPlanArgument ∈ template.command then
    throw ⟨"The execution template already contains a physical plan."⟩
  if template.maximumParallelism < physical.maximumParallelism then
    throw ⟨"The execution template cannot satisfy the planned maximum parallelism."⟩
  return { template with
    command := template.command ++ [physicalPlanArgument, serializePhysicalPlan sha256 physical] }

structure OrchestrationContractError where
  message : String
  deriving DecidableEq, Repr

/-- The backends that run one fused container. -/
def containerBackends : List String := ["fargate", "cloud_run"]

/-- What an execution plan checks of its template and its physical plan. -/
def checkPhysicalPlan (template : ExecutionTemplate) (physical : Plan) :
    Except OrchestrationContractError Unit := do
  if physical.pipelineId ≠ template.pipelineId then
    throw ⟨"physical plan pipeline does not match its execution template"⟩
  if template.launcher ∈ containerBackends ∧ physical.executionMode ≠ .fusedContainer then
    throw ⟨"existing container backends require fused physical execution"⟩
  if template.command.findIdxs (· = physicalPlanArgument) ≠ [template.command.length - 2] ∨
      template.command.getLast? ≠ some (serializePhysicalPlan sha256 physical) then
    throw ⟨"execution command must end with the exact canonical physical plan"⟩
  if template.launcher = "dataproc_serverless" ∧ physical.executionMode ≠ .distributed then
    throw ⟨"Managed Spark execution requires distributed physical execution"⟩

/-- The backend runs plans of this mode. -/
def Admits (launcher : String) (mode : PhysicalExecutionMode) : Prop :=
  (launcher ∈ containerBackends → mode = .fusedContainer) ∧
    (launcher = "dataproc_serverless" → mode = .distributed)

theorem serializePhysicalPlan_ne (physical : Plan) :
    serializePhysicalPlan sha256 physical ≠ physicalPlanArgument := by
  intro h
  have := head_serializePhysicalPlan sha256 physical
  rw [h] at this
  simp [physicalPlanArgument] at this

variable {sha256}

theorem findIdxs_bound {command : List String} {value : String}
    (hcommand : physicalPlanArgument ∉ command) (hvalue : value ≠ physicalPlanArgument) :
    (command ++ [physicalPlanArgument, value]).findIdxs (· = physicalPlanArgument) =
      [command.length] := by
  have hbefore : command.findIdxs (· = physicalPlanArgument) = [] := by
    rw [List.findIdxs_eq_nil_iff]
    intro part hpart
    have : part ≠ physicalPlanArgument := fun h => hcommand (h ▸ hpart)
    simpa using this
  simp [List.findIdxs_append, hbefore, hvalue]

/-- A plan binds to a template of its pipeline that leaves room for it, and the
bound template passes the checks of the execution plan it becomes part of. -/
theorem bindPhysicalPlan_ok {template : ExecutionTemplate} {physical : Plan}
    (hpipeline : template.pipelineId = physical.pipelineId)
    (hcommand : physicalPlanArgument ∉ template.command)
    (hparallelism : physical.maximumParallelism ≤ template.maximumParallelism)
    (hadmits : Admits template.launcher physical.executionMode) :
    ∃ bound, bindPhysicalPlan sha256 template physical = .ok bound ∧
      checkPhysicalPlan sha256 bound physical = .ok () := by
  refine ⟨{ template with command :=
    template.command ++ [physicalPlanArgument, serializePhysicalPlan sha256 physical] }, ?_, ?_⟩
  · have hfits : ¬ template.maximumParallelism < physical.maximumParallelism := by omega
    simp [bindPhysicalPlan, hpipeline, hcommand, hfits, pure, Except.pure]
  · have hindexes := findIdxs_bound hcommand (serializePhysicalPlan_ne sha256 physical)
    have hcontainer : ¬ (template.launcher ∈ containerBackends ∧
        physical.executionMode ≠ .fusedContainer) := fun h => h.2 (hadmits.1 h.1)
    have hspark : ¬ (template.launcher = "dataproc_serverless" ∧
        physical.executionMode ≠ .distributed) := fun h => h.2 (hadmits.2 h.1)
    simp [checkPhysicalPlan, hpipeline, hindexes, hcontainer, hspark, pure, Except.pure]

/-- Every plan the planner returns for a graph corresponds to it, passes its own
construction checks and binds to the execution plans of its pipeline. -/
theorem plan_corresponds_and_binds {upper : String → String}
    {checkFields : PipelineGraph → Except GraphValidationError Unit} {graph : PipelineGraph}
    {pipelineId : String} {mode : PhysicalExecutionMode} {partitions : Option ℤ} {physical : Plan}
    (h : plan upper checkFields graph pipelineId mode partitions = .ok physical) :
    Corresponds graph physical ∧ physical.toPlanFields.postInit = .ok () ∧
      ∀ template : ExecutionTemplate, template.pipelineId = pipelineId →
        physicalPlanArgument ∉ template.command →
        physical.maximumParallelism ≤ template.maximumParallelism →
        Admits template.launcher physical.executionMode →
        ∃ bound, bindPhysicalPlan sha256 template physical = .ok bound ∧
          checkPhysicalPlan sha256 bound physical = .ok () := by
  obtain ⟨hcorresponds, hpipeline⟩ := plan_eq_ok h
  refine ⟨hcorresponds, physical.valid, ?_⟩
  intro template htemplate hcommand hparallelism hadmits
  exact bindPhysicalPlan_ok (htemplate.trans hpipeline.symm) hcommand hparallelism hadmits

def exampleChain : PipelineGraph where
  nodes := [⟨"orders", "source", .source, []⟩, ⟨"cleaned", "transform", .transform ⟨none, []⟩, []⟩,
    ⟨"warehouse", "target", .target, []⟩]
  edges := [⟨"cleaned", "warehouse", none⟩, ⟨"orders", "cleaned", none⟩]

/-- A chain that is planned in two stages of two partitions. -/
theorem exampleChain_plan : ∃ physical,
    plan id (fun _ => .ok ()) exampleChain "daily" .distributed none = .ok physical ∧
      Corresponds exampleChain physical ∧ physical.toPlanFields.postInit = .ok () ∧
        ∀ template : ExecutionTemplate, template.pipelineId = "daily" →
          physicalPlanArgument ∉ template.command →
          physical.maximumParallelism ≤ template.maximumParallelism →
          Admits template.launcher physical.executionMode →
          ∃ bound, bindPhysicalPlan id template physical = .ok bound ∧
            checkPhysicalPlan id bound physical = .ok () := by
  have hsome : (plan id (fun _ => .ok ()) exampleChain "daily" .distributed none).toOption.isSome :=
    by decide +kernel
  obtain ⟨physical, h⟩ := Option.isSome_iff_exists.mp hsome
  have h := Execution.eq_ok_of_toOption h
  exact ⟨physical, h, plan_corresponds_and_binds h⟩

end Binding

end Dander.PhysicalPlan
