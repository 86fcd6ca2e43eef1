import Mathlib.Data.List.Perm.Subperm
import Dander.DepthFirst
import Dander.Execution

/-!
# Pipeline graphs and their execution order

The structural checks of a graph, its adjacency index and the execution order,
which a depth-first search with three colours computes. A graph without repeated
ids, dangling edges and self-loops is ordered with every edge going forward, or a
genuine cycle of it is reported.
-/
namespace Dander.Pipeline

inductive JoinType
  | inner
  | left
  | right
  | full
  deriving DecidableEq, Repr

structure JoinKeyPair where
  left : String
  right : String
  deriving DecidableEq, Repr

structure JoinSpec where
  type : JoinType
  keys : List JoinKeyPair
  deriving DecidableEq, Repr

/-- An executable join names two different inputs. -/
structure TransformJoinConfig where
  leftInput : String
  rightInput : String
  type : JoinType
  keys : List JoinKeyPair
  distinct : leftInput ≠ rightInput
  deriving DecidableEq, Repr

inductive OperationKind
  | truncateString
  | trimWhitespace
  | defaultValue
  | filterRows
  deriving DecidableEq, Repr

structure TransformNodeConfig where
  join : Option TransformJoinConfig
  operations : List OperationKind
  deriving DecidableEq, Repr

inductive NodeConfig
  | source
  | transform (config : TransformNodeConfig)
  | target
  | free
  deriving DecidableEq, Repr

structure NodeField where
  name : String
  type : String
  deriving DecidableEq, Repr

structure Node where
  id : String
  type : String
  config : NodeConfig
  fields : List NodeField
  deriving DecidableEq, Repr

structure Edge where
  source : String
  target : String
  join : Option JoinSpec
  deriving DecidableEq, Repr

structure PipelineGraph where
  nodes : List Node
  edges : List Edge
  deriving DecidableEq, Repr

def PipelineGraph.nodeIds (graph : PipelineGraph) : List String := graph.nodes.map (·.id)

inductive GraphValidationError
  | duplicateNodeId (nodeId : String)
  | danglingEdge (source target missingId : String)
  | selfLoop (nodeId : String)
  | graphCycle (cycle : List String)
  | recursionDepth
  deriving DecidableEq, Repr

structure AdjacencyIndex where
  successorLists : String → Option (List String)
  predecessorLists : String → Option (List String)

/-- `lists.setdefault(key, []).append(item)`. -/
def appendAt (lists : String → Option (List String)) (key item : String) :
    String → Option (List String) :=
  Function.update lists key (some ((lists key).getD [] ++ [item]))

def AdjacencyIndex.fromGraph (graph : PipelineGraph) : AdjacencyIndex :=
  let empty : String → Option (List String) :=
    fun id => if id ∈ graph.nodeIds then some [] else none
  graph.edges.foldl (fun index edge =>
    ⟨appendAt index.successorLists edge.source edge.target,
      appendAt index.predecessorLists edge.target edge.source⟩) ⟨empty, empty⟩

def AdjacencyIndex.successors (index : AdjacencyIndex) (nodeId : String) : List String :=
  (index.successorLists nodeId).getD []

def AdjacencyIndex.predecessors (index : AdjacencyIndex) (nodeId : String) : List String :=
  (index.predecessorLists nodeId).getD []

def checkDuplicateNodeIds : List String → List String → Except GraphValidationError Unit
  | _, [] => .ok ()
  | seen, id :: rest =>
    if id ∈ seen then .error (.duplicateNodeId id) else checkDuplicateNodeIds (id :: seen) rest

def checkDanglingEdges (graph : PipelineGraph) : Except GraphValidationError Unit :=
  graph.edges.forM fun edge =>
    if edge.source ∉ graph.nodeIds then
      .error (.danglingEdge edge.source edge.target edge.source)
    else if edge.target ∉ graph.nodeIds then
      .error (.danglingEdge edge.source edge.target edge.target)
    else .ok ()

def checkSelfLoops (graph : PipelineGraph) : Except GraphValidationError Unit :=
  graph.edges.forM fun edge =>
    if edge.source = edge.target then .error (.selfLoop edge.source) else .ok ()

open DepthFirst (Search Failure)

def raiseCycle : Failure String → GraphValidationError
  | .cycle walk => .graphCycle walk
  | .outOfDepth => .recursionDepth

/-- The main loop visits what is still white; the recursion is never deeper than
the graph has nodes. -/
def dfsTopologicalOrder (nodeIds : List String) (adjacency : AdjacencyIndex) :
    Except GraphValidationError (List String) :=
  let visitWhite (s : Search String) (id : String) : Except (Failure String) (Search String) :=
    if s.mark id = .white then DepthFirst.visit adjacency.successors nodeIds.length id s
    else .ok s
  match nodeIds.foldlM visitWhite .start with
  | .ok s => .ok s.order.reverse
  | .error failure => .error (raiseCycle failure)

def checkAcyclic (graph : PipelineGraph) : Except GraphValidationError Unit := do
  let _ ← dfsTopologicalOrder graph.nodeIds (.fromGraph graph)

def validate (graph : PipelineGraph) : Except GraphValidationError Unit := do
  checkDuplicateNodeIds [] graph.nodeIds
  checkDanglingEdges graph
  checkSelfLoops graph
  checkAcyclic graph

def topologicalOrder (graph : PipelineGraph) : Except GraphValidationError (List String) := do
  validate graph
  dfsTopologicalOrder graph.nodeIds (.fromGraph graph)

/-! ## What the structural checks establish -/

structure WellFormed (graph : PipelineGraph) : Prop where
  unique : graph.nodeIds.Nodup
  resolved : ∀ edge ∈ graph.edges, edge.source ∈ graph.nodeIds ∧ edge.target ∈ graph.nodeIds
  loopless : ∀ edge ∈ graph.edges, edge.source ≠ edge.target

/-- One node leads directly to another. -/
def Leads (graph : PipelineGraph) (a b : String) : Prop :=
  ∃ edge ∈ graph.edges, edge.source = a ∧ edge.target = b

def Cyclic (graph : PipelineGraph) : Prop := ∃ a, Relation.TransGen (Leads graph) a a

theorem checkDuplicateNodeIds_eq_ok {seen ids : List String} :
    checkDuplicateNodeIds seen ids = .ok () ↔ ids.Nodup ∧ ∀ id ∈ ids, id ∉ seen := by
  induction ids generalizing seen with
  | nil => simp [checkDuplicateNodeIds]
  | cons id rest ih =>
    unfold checkDuplicateNodeIds
    by_cases h : id ∈ seen
    · simp [h]
    · rw [if_neg h, ih, List.nodup_cons]
      simp only [List.mem_cons, not_or, forall_eq_or_imp]
      constructor
      · rintro ⟨hnodup, hrest⟩
        refine ⟨⟨fun hin => (hrest id hin).1 rfl, hnodup⟩, h, fun x hx => (hrest x hx).2⟩
      · rintro ⟨⟨hid, hnodup⟩, _, hrest⟩
        exact ⟨hnodup, fun x hx => ⟨fun hxid => hid (hxid ▸ hx), hrest x hx⟩⟩

theorem checkDanglingEdges_eq_ok {graph : PipelineGraph} :
    checkDanglingEdges graph = .ok () ↔
      ∀ edge ∈ graph.edges, edge.source ∈ graph.nodeIds ∧ edge.target ∈ graph.nodeIds := by
  rw [checkDanglingEdges, Execution.forM_eq_ok]
  apply forall₂_congr
  intro edge _
  by_cases hsource : edge.source ∈ graph.nodeIds
  · by_cases htarget : edge.target ∈ graph.nodeIds <;> simp [hsource, htarget]
  · simp [hsource]

theorem checkSelfLoops_eq_ok {graph : PipelineGraph} :
    checkSelfLoops graph = .ok () ↔ ∀ edge ∈ graph.edges, edge.source ≠ edge.target := by
  rw [checkSelfLoops, Execution.forM_eq_ok]
  apply forall₂_congr
  intro edge _
  by_cases h : edge.source = edge.target <;> simp [h]

/-! ## The adjacency index -/

theorem successors_foldl (edges : List Edge) (index : AdjacencyIndex) (id : String) :
    (edges.foldl (fun index edge =>
      (⟨appendAt index.successorLists edge.source edge.target,
        appendAt index.predecessorLists edge.target edge.source⟩ : AdjacencyIndex))
          index).successors id =
      index.successors id ++ (edges.filter (·.source = id)).map (·.target) := by
  induction edges generalizing index with
  | nil => simp
  | cons edge rest ih =>
    rw [List.foldl_cons, ih]
    by_cases h : edge.source = id
    · subst h
      simp [AdjacencyIndex.successors, appendAt]
    · simp [AdjacencyIndex.successors, appendAt, h, Function.update_of_ne (Ne.symm h)]

theorem successors_fromGraph (graph : PipelineGraph) (id : String) :
    (AdjacencyIndex.fromGraph graph).successors id =
      (graph.edges.filter (·.source = id)).map (·.target) := by
  rw [AdjacencyIndex.fromGraph, successors_foldl]
  by_cases h : id ∈ graph.nodeIds <;> simp [AdjacencyIndex.successors, h]

theorem mem_successors {graph : PipelineGraph} {a b : String} :
    b ∈ (AdjacencyIndex.fromGraph graph).successors a ↔ Leads graph a b := by
  rw [successors_fromGraph]
  simp [Leads, and_assoc]

/-! ## The search from all nodes -/

section Order

variable {graph : PipelineGraph}

def edgesOf (graph : PipelineGraph) : String → List String :=
  (AdjacencyIndex.fromGraph graph).successors

theorem edgesOf_within (hresolved : ∀ edge ∈ graph.edges,
    edge.source ∈ graph.nodeIds ∧ edge.target ∈ graph.nodeIds) (a : String)
    (_ : a ∈ graph.nodeIds) (b : String) (hb : b ∈ edgesOf graph a) : b ∈ graph.nodeIds := by
  obtain ⟨edge, hedge, _, rfl⟩ := mem_successors.mp hb
  exact (hresolved edge hedge).2

theorem transGen_leads {a b : String} :
    Relation.TransGen (fun a b => b ∈ edgesOf graph a) a b ↔
      Relation.TransGen (Leads graph) a b := by
  have h : (fun a b => b ∈ edgesOf graph a) = Leads graph := by
    ext a b
    exact mem_successors
  rw [h]

/-- What the search reports of a graph whose edges resolve. -/
theorem dfsTopologicalOrder_spec (hresolved : ∀ edge ∈ graph.edges,
    edge.source ∈ graph.nodeIds ∧ edge.target ∈ graph.nodeIds) :
    (∃ s : Search String,
      dfsTopologicalOrder graph.nodeIds (.fromGraph graph) = .ok s.order.reverse ∧
        s.Sound (edgesOf graph) (· ∈ graph.nodeIds) ∧ ∀ id ∈ graph.nodeIds, id ∈ s.order) ∨
      ∃ walk, dfsTopologicalOrder graph.nodeIds (.fromGraph graph) = .error (.graphCycle walk) ∧
        DepthFirst.ClosedWalk (edgesOf graph) walk := by
  have hsearch : DepthFirst.Outcome (edgesOf graph) (· ∈ graph.nodeIds) .start graph.nodeIds
      (graph.nodeIds.foldlM (fun s id =>
        if s.mark id = .white then DepthFirst.visit (edgesOf graph) graph.nodeIds.length id s
        else .ok s) Search.start) := by
    apply DepthFirst.explore_spec graph.nodeIds [] graph.nodeIds.length ?_ .start rfl
      List.countP_le_length
    intro s hs hpath hbound id hid
    have hlink : ∀ x ∈ s.path.getLast?, id ∈ edgesOf graph x := by simp [hpath]
    by_cases hmark : s.mark id = .white
    · rw [if_pos hmark]
      exact DepthFirst.visit_spec (edgesOf_within hresolved) (fun _ h => h) _ id s hs hmark hid
        hlink hbound
    · rw [if_neg hmark]
      have hnotgrey : s.mark id ≠ .grey := fun h => by
        have := (hs.grey id).mp h
        simp [hpath] at this
      have hblack : s.mark id = .black := by
        cases h : s.mark id <;> simp_all
      have hin := (hs.black id).mp hblack
      exact .inl ⟨s, rfl, .refl hs, by simpa using hin⟩
  unfold dfsTopologicalOrder
  rcases hsearch with ⟨s, hok, hs, hall⟩ | ⟨walk, herror, hwalk, _⟩
  · refine .inl ⟨s, ?_, hs.sound, hall⟩
    simp only [edgesOf] at hok
    simp only [hok]
  · refine .inr ⟨walk, ?_, hwalk⟩
    simp only [edgesOf] at herror
    simp only [herror, raiseCycle]

/-- A node order in which every edge goes forward. -/
structure Sorted (graph : PipelineGraph) (order : List String) : Prop where
  perm : order.Perm graph.nodeIds
  forward : ∀ edge ∈ graph.edges, order.idxOf edge.source < order.idxOf edge.target

/-- A walk along edges of the graph that ends where it began and repeats no other node. -/
structure Cycle (graph : PipelineGraph) (walk : List String) : Prop where
  edges : walk.IsChain (Leads graph)
  closed : ∃ a rest, walk = a :: rest ++ [a] ∧ (a :: rest).Nodup

theorem idxOf_reverse_lt {order : List String} (hnodup : order.Nodup) {a b : String}
    (ha : a ∈ order) (h : order.idxOf b < order.idxOf a) :
    order.reverse.idxOf a < order.reverse.idxOf b := by
  have hla := List.idxOf_lt_length_of_mem ha
  have hrev : ∀ c, order.idxOf c < order.length →
      order.reverse.idxOf c = order.length - 1 - order.idxOf c := by
    intro c hc
    have hlt : order.length - 1 - order.idxOf c < order.reverse.length := by
      rw [List.length_reverse]
      omega
    have hget : order.reverse[order.length - 1 - order.idxOf c] = c := by
      rw [List.getElem_reverse]
      have : order.length - 1 - (order.length - 1 - order.idxOf c) = order.idxOf c := by omega
      simp only [this, List.getElem_idxOf]
    have := List.Nodup.idxOf_getElem (List.nodup_reverse.mpr hnodup) _ hlt
    rwa [hget] at this
  rw [hrev a hla, hrev b (by omega)]
  omega

theorem sorted_of_sound (hgraph : WellFormed graph) {s : Search String}
    (hs : s.Sound (edgesOf graph) (· ∈ graph.nodeIds))
    (hall : ∀ id ∈ graph.nodeIds, id ∈ s.order) :
    Sorted graph s.order.reverse := by
  constructor
  · refine (List.reverse_perm s.order).trans ?_
    apply (List.perm_ext_iff_of_nodup hs.nodup_order hgraph.unique).mpr
    intro id
    exact ⟨hs.order_within id, hall id⟩
  · intro edge hedge
    have hsource := hall _ (hgraph.resolved edge hedge).1
    have hlt := hs.idxOf_lt hsource (mem_successors.mpr ⟨edge, hedge, rfl, rfl⟩)
    exact idxOf_reverse_lt hs.nodup_order hsource hlt

theorem not_cyclic_of_sound (hgraph : WellFormed graph) {s : Search String}
    (hs : s.Sound (edgesOf graph) (· ∈ graph.nodeIds)) (hall : ∀ id ∈ graph.nodeIds, id ∈ s.order) :
    ¬ Cyclic graph := by
  rintro ⟨a, ha⟩
  have hin : a ∈ graph.nodeIds := by
    obtain ⟨b, ⟨edge, hedge, rfl, _⟩, _⟩ := Relation.TransGen.head'_iff.mp ha
    exact (hgraph.resolved edge hedge).1
  exact hs.acyclic (hall a hin) (transGen_leads.mpr ha)

theorem cycle_of_closedWalk {walk : List String} (h : DepthFirst.ClosedWalk (edgesOf graph) walk) :
    Cycle graph walk :=
  ⟨h.chain.imp fun _ _ => mem_successors.mp, h.returns⟩

theorem cyclic_of_closedWalk {walk : List String} (h : DepthFirst.ClosedWalk (edgesOf graph) walk) :
    Cyclic graph := by
  obtain ⟨a, _, ha⟩ := h.returns_to
  exact ⟨a, transGen_leads.mp ha⟩

theorem validate_of_wellFormed (hgraph : WellFormed graph) :
    validate graph = checkAcyclic graph := by
  have hids : checkDuplicateNodeIds [] graph.nodeIds = .ok () :=
    checkDuplicateNodeIds_eq_ok.mpr ⟨hgraph.unique, by simp⟩
  have hedges := checkDanglingEdges_eq_ok.mpr hgraph.resolved
  have hloops := checkSelfLoops_eq_ok.mpr hgraph.loopless
  simp [validate, hids, hedges, hloops, Execution.ok_bind]

/-- A structurally sound graph is put in an order in which every edge goes
forward, or one of its cycles is reported; the latter exactly when it has one. -/
theorem topologicalOrder_sorts_or_reports_cycle (hgraph : WellFormed graph) :
    (¬ Cyclic graph ∧ ∃ order, topologicalOrder graph = .ok order ∧ Sorted graph order) ∨
      (Cyclic graph ∧
        ∃ walk, topologicalOrder graph = .error (.graphCycle walk) ∧ Cycle graph walk) := by
  rw [topologicalOrder, validate_of_wellFormed hgraph, checkAcyclic]
  rcases dfsTopologicalOrder_spec hgraph.resolved with ⟨s, hok, hs, hall⟩ | ⟨walk, herror, hwalk⟩
  · left
    refine ⟨not_cyclic_of_sound hgraph hs hall, _, ?_, sorted_of_sound hgraph hs hall⟩
    rw [hok]
    rfl
  · right
    refine ⟨cyclic_of_closedWalk hwalk, walk, ?_, cycle_of_closedWalk hwalk⟩
    rw [herror]
    rfl

theorem wellFormed_of_validate (h : validate graph = .ok ()) : WellFormed graph := by
  obtain ⟨_, hids, h⟩ := Execution.bind_eq_ok h
  obtain ⟨_, hedges, h⟩ := Execution.bind_eq_ok h
  obtain ⟨_, hloops, _⟩ := Execution.bind_eq_ok h
  exact ⟨(checkDuplicateNodeIds_eq_ok.mp hids).1, checkDanglingEdges_eq_ok.mp hedges,
    checkSelfLoops_eq_ok.mp hloops⟩

end Order

def exampleGraph : PipelineGraph where
  nodes := [⟨"orders", "source", .source, []⟩, ⟨"joined", "transform", .transform ⟨none, []⟩, []⟩,
    ⟨"warehouse", "target", .target, []⟩]
  edges := [⟨"joined", "warehouse", none⟩, ⟨"orders", "joined", none⟩, ⟨"orders", "joined", none⟩]

theorem exampleGraph_wellFormed : WellFormed exampleGraph where
  unique := by decide
  resolved := by decide
  loopless := by decide

/-- The graph repeats one of its edges. -/
theorem exampleGraph_sorts :
    (¬ Cyclic exampleGraph ∧
        ∃ order, topologicalOrder exampleGraph = .ok order ∧ Sorted exampleGraph order) ∨
      (Cyclic exampleGraph ∧ ∃ walk,
        topologicalOrder exampleGraph = .error (.graphCycle walk) ∧ Cycle exampleGraph walk) :=
  topologicalOrder_sorts_or_reports_cycle exampleGraph_wellFormed

example : topologicalOrder exampleGraph = .ok ["orders", "joined", "warehouse"] := by decide

end Dander.Pipeline
