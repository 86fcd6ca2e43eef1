import Dander.Worklists
import Mathlib.Data.List.Dedup
import Mathlib.Data.String.Basic

/-!
# Previews of graph changes

A saved and an edited graph are compared node by node and connection by connection. What differs
is touched, and what either graph leads to from there is affected. An output is left out of the
preview exactly where all that its rows are computed from is the same in both graphs.
-/
namespace Dander.ChangePreview

open Relation (ReflTransGen)
open Worklist (path_of_agree)

section Definitions

variable {V : Type}

/-- A node and the properties it is dumped to, unless they are null. -/
structure GraphNode (V : Type) where
  id : String
  name : String
  isTarget : Bool
  payload : List (String × V)

structure GraphEdge where
  source : String
  target : String
  text : String

structure GraphDocument (V : Type) where
  name : String
  trigger : V
  nodes : List (GraphNode V)
  edges : List GraphEdge

inductive Change
  | added
  | removed
  | modified
  | layoutOnly
  deriving DecidableEq

structure GraphNodeChange where
  nodeId : String
  name : String
  change : Change
  changedProperties : List String
  affectsData : Bool

structure GraphConnectionChange where
  source : String
  target : String
  change : Change

def GraphDocument.node? (document : GraphDocument V) (id : String) : Option (GraphNode V) :=
  document.nodes.reverse.find? fun node => node.id = id

/-- The dumped edges between two nodes, of which there is none for most pairs. -/
def connections (document : GraphDocument V) (pair : String × String) : List String :=
  ((document.edges.filter fun edge => (edge.source, edge.target) = pair).map
    GraphEdge.text).mergeSort

variable [BEq V] (before after : GraphDocument V)

/-- Values are compared as the host language compares them. -/
def changedProperties (before after : GraphNode V) : List String :=
  ((before.payload ++ after.payload).map Prod.fst).dedup.mergeSort.filter fun key =>
    before.payload.lookup key != after.payload.lookup key

def nodeChange (nodeId : String) :
    Option (GraphNode V) → Option (GraphNode V) → Option GraphNodeChange
  | none, none => none
  | none, some after => some ⟨nodeId, after.name, .added, [], true⟩
  | some before, none => some ⟨nodeId, before.name, .removed, [], true⟩
  | some before, some after =>
    let properties := changedProperties before after
    if properties = [] then none
    else if properties = ["visual"] then
      some ⟨nodeId, after.name, .layoutOnly, properties, false⟩
    else some ⟨nodeId, after.name, .modified, properties, true⟩

def nodeIds : List String := ((before.nodes ++ after.nodes).map GraphNode.id).dedup.mergeSort

def nodeChanges : List GraphNodeChange :=
  (nodeIds before after).filterMap fun id => nodeChange id (before.node? id) (after.node? id)

def pairs : List (String × String) :=
  ((before.edges ++ after.edges).map fun edge => (edge.source, edge.target)).dedup.mergeSort
    fun a b => a.1 < b.1 || a.1 = b.1 && a.2 ≤ b.2

def connectionChanges : List GraphConnectionChange :=
  (pairs before after).filterMap fun pair =>
    if connections before pair = connections after pair then none
    else some ⟨pair.1, pair.2, if connections before pair = [] then .added
      else if connections after pair = [] then .removed else .modified⟩

def graphPropertiesChanged : List String :=
  (if before.name ≠ after.name then ["name"] else []) ++
    if before.trigger != after.trigger then ["trigger"] else []

/-- Where the changes touch the data. -/
def touched : List String :=
  (((nodeChanges before after).filter GraphNodeChange.affectsData).map GraphNodeChange.nodeId ++
    (connectionChanges before after).map GraphConnectionChange.target ++
    if "trigger" ∈ graphPropertiesChanged before after then nodeIds before after else []).dedup

def affected : List String :=
  Worklist.spread (pairs before after) (touched before after) (touched before after)

def outputs : List String :=
  (nodeIds before after).filter fun id =>
    (before.node? id).any GraphNode.isTarget || (after.node? id).any GraphNode.isTarget

def affectedOutputs : List String :=
  (outputs before after).filter fun id => id ∈ affected before after

end Definitions

section Property

variable {V : Type} [BEq V]

/-- Two nodes differ in their layout at most. -/
def SameNode : Option (GraphNode V) → Option (GraphNode V) → Prop
  | none, none => True
  | some before, some after =>
    ∀ key, key ≠ "visual" → (before.payload.lookup key == after.payload.lookup key) = true
  | _, _ => False

structure SameAt (before after : GraphDocument V) (id : String) : Prop where
  node : SameNode (before.node? id) (after.node? id)
  connections : ∀ source, connections before (source, id) = connections after (source, id)

def Leads (document : GraphDocument V) (a b : String) : Prop := connections document (a, b) ≠ []

/-- All that the rows of a node are computed from is the same in both documents. -/
structure SameUpstream (before after : GraphDocument V) (id : String) : Prop where
  trigger : (before.trigger == after.trigger) = true
  upstream : ∀ a, ReflTransGen (Leads before) a id ↔ ReflTransGen (Leads after) a id
  nodes : ∀ a, ReflTransGen (Leads before) a id → SameAt before after a

end Property

section Preview

variable {V : Type} {before after : GraphDocument V} {id a b : String}

theorem nodeIds_of_node? (h : before.node? id ≠ none ∨ after.node? id ≠ none) :
    id ∈ nodeIds before after := by
  have hfind : ∀ {document : GraphDocument V}, document.node? id ≠ none →
      id ∈ document.nodes.map GraphNode.id := by
    intro document hsome
    simpa [GraphDocument.node?] using hsome
  rw [nodeIds, List.mem_mergeSort, List.mem_dedup, List.map_append, List.mem_append]
  exact h.imp hfind hfind

theorem leads_iff {document : GraphDocument V} :
    Leads document a b ↔ (a, b) ∈ document.edges.map fun edge => (edge.source, edge.target) := by
  rw [Leads, connections, ← List.length_pos_iff, List.length_mergeSort, List.length_map,
    List.length_pos_iff_exists_mem]
  simp [List.mem_filter]

theorem mem_pairs : (a, b) ∈ pairs before after ↔ Leads before a b ∨ Leads after a b := by
  rw [leads_iff, leads_iff, pairs, List.mem_mergeSort, List.mem_dedup, List.map_append,
    List.mem_append]

theorem lookup_of_not_mem {payload : List (String × V)} {key : String}
    (h : key ∉ payload.map Prod.fst) : payload.lookup key = none := by
  rw [List.lookup_eq_none_iff]
  grind

theorem layout_iff {properties : List String} (hnodup : properties.Nodup) :
    (properties = [] ∨ properties = ["visual"]) ↔ ∀ key ∈ properties, key = "visual" := by
  rcases properties with _ | ⟨x, _ | ⟨y, rest⟩⟩ <;> simp at hnodup ⊢
  grind

theorem changed_connection_iff : (∃ change ∈ connectionChanges before after, change.target = a) ↔
    ∃ source, connections before (source, a) ≠ connections after (source, a) := by
  simp only [connectionChanges, List.mem_filterMap]
  constructor
  · rintro ⟨change, ⟨⟨source, target⟩, -, hchange⟩, rfl⟩
    split at hchange
    · cases hchange
    next hdiffers =>
      obtain rfl := Option.some.inj hchange
      exact ⟨source, hdiffers⟩
  · rintro ⟨source, hdiffers⟩
    refine ⟨_, ⟨(source, a), mem_pairs.mpr ?_, if_neg hdiffers⟩, rfl⟩
    by_contra hnone
    simp only [Leads, not_or, not_not] at hnone
    exact hdiffers (hnone.1.trans hnone.2.symm)

variable [BEq V]

/-- A node is touched unless its properties differ in the layout at most. -/
theorem sameNode_iff (id : String) {node node' : Option (GraphNode V)} :
    SameNode node node' ↔ ∀ change ∈ nodeChange id node node', change.affectsData = false := by
  match node, node' with
  | none, none | none, some _ | some _, none => simp [SameNode, nodeChange]
  | some node, some node' =>
    have hnodup : (changedProperties node node').Nodup :=
      ((List.mergeSort_perm _ _).nodup_iff.mpr (List.nodup_dedup _)).filter _
    have hlayout : (∀ change ∈ nodeChange id (some node) (some node'), change.affectsData = false) ↔
        changedProperties node node' = [] ∨ changedProperties node node' = ["visual"] := by
      simp only [nodeChange]
      split
      · simp_all
      · split <;> simp_all
    rw [hlayout, layout_iff hnodup]
    constructor
    · intro hsame key hkey
      by_contra hvisual
      have hdiffers := (List.mem_filter.mp hkey).2
      rw [bne, hsame key hvisual] at hdiffers
      cases hdiffers
    · intro hall key hvisual
      by_contra hdiffers
      refine hvisual (hall key (List.mem_filter.mpr ⟨?_, by simpa [bne] using hdiffers⟩))
      rw [List.mem_mergeSort, List.mem_dedup, List.map_append, List.mem_append]
      by_contra hnone
      rw [not_or] at hnone
      rw [lookup_of_not_mem hnone.1, lookup_of_not_mem hnone.2] at hdiffers
      exact hdiffers rfl

theorem nodeChange_nodeId {node node' : Option (GraphNode V)} {change : GraphNodeChange}
    (h : nodeChange id node node' = some change) : change.nodeId = id := by
  unfold nodeChange at h
  grind

theorem changed_node_iff : (∃ change ∈ nodeChanges before after, change.affectsData = true ∧
    change.nodeId = a) ↔ ¬ SameNode (before.node? a) (after.node? a) := by
  rw [sameNode_iff a]
  constructor
  · rintro ⟨change, hmem, haffects, rfl⟩ hall
    obtain ⟨id, -, hchange⟩ := List.mem_filterMap.mp hmem
    obtain rfl := nodeChange_nodeId hchange
    rw [hall change hchange] at haffects
    cases haffects
  · intro hdiffers
    simp only [not_forall, Bool.not_eq_false] at hdiffers
    obtain ⟨change, hchange, haffects⟩ := hdiffers
    refine ⟨change, List.mem_filterMap.mpr ⟨a, ?_, hchange⟩, haffects, nodeChange_nodeId hchange⟩
    apply nodeIds_of_node?
    by_contra hnone
    simp only [not_or, not_not] at hnone
    rw [hnone.1, hnone.2] at hchange
    cases hchange

/-- What is touched: nodes that differ or whose connections do, and all once the trigger differs. -/
theorem mem_touched : a ∈ touched before after ↔
    (before.trigger == after.trigger) = false ∧ a ∈ nodeIds before after ∨
      ¬ SameAt before after a := by
  have htrigger : "trigger" ∈ graphPropertiesChanged before after ↔
      (before.trigger == after.trigger) = false := by
    cases h : before.trigger == after.trigger <;> simp [graphPropertiesChanged, bne, h]
  have hsame : SameAt before after a ↔ SameNode (before.node? a) (after.node? a) ∧
      ¬ ∃ source, connections before (source, a) ≠ connections after (source, a) := by
    simp only [not_exists, not_not]
    exact ⟨fun h => ⟨h.node, h.connections⟩, fun h => ⟨h.1, h.2⟩⟩
  rw [hsame, not_and_or, not_not, ← changed_node_iff, ← changed_connection_iff, ← htrigger]
  simp only [touched, List.mem_dedup, List.mem_append, List.mem_map, List.mem_filter, and_assoc]
  split <;> simp_all [or_comm]

theorem mem_affected : id ∈ affected before after ↔ ∃ a ∈ touched before after,
    ReflTransGen (fun a b => Leads before a b ∨ Leads after a b) a id := by
  rw [affected, Worklist.mem_spread (List.Subset.refl _) (fun _ _ hsource => .inl hsource)]
  simp only [mem_pairs]

theorem SameAt.leads_iff (h : SameAt before after b) : Leads before a b ↔ Leads after a b := by
  rw [Leads, Leads, h.connections]

/-- Nothing is affected exactly where everything upstream is the same. -/
theorem not_mem_affected (hid : id ∈ nodeIds before after) :
    id ∉ affected before after ↔ SameUpstream before after id := by
  rw [mem_affected]
  constructor
  · intro hnot
    have hsame : ∀ a, ReflTransGen (fun a b => Leads before a b ∨ Leads after a b) a id →
        SameAt before after a := fun a hpath =>
      by_contra fun hdiffers => hnot ⟨a, mem_touched.mpr (.inr hdiffers), hpath⟩
    have hbefore : ∀ a, ReflTransGen (Leads before) a id → SameAt before after a :=
      fun a hpath => hsame a (ReflTransGen.mono (fun _ _ => Or.inl) _ _ hpath)
    have hafter : ∀ a, ReflTransGen (Leads after) a id → SameAt before after a :=
      fun a hpath => hsame a (ReflTransGen.mono (fun _ _ => Or.inr) _ _ hpath)
    refine ⟨?_, fun a => ⟨path_of_agree fun _ c hc => (hafter c hc).leads_iff.mp,
      path_of_agree fun _ c hc => (hbefore c hc).leads_iff.mpr⟩, hbefore⟩
    by_contra htrigger
    exact hnot ⟨id, mem_touched.mpr (.inl ⟨by simpa using htrigger, hid⟩), .refl⟩
  · rintro hsame ⟨a, htouched, hpath⟩
    have hupstream : ReflTransGen (Leads before) a id := path_of_agree (fun _ c hc hedge =>
      hedge.elim (fun hold => hold) (hsame.nodes c hc).leads_iff.mpr) hpath
    rcases mem_touched.mp htouched with ⟨htrigger, -⟩ | hdiffers
    · rw [hsame.trigger] at htrigger
      cases htrigger
    · exact hdiffers (hsame.nodes a hupstream)

/-- The preview names exactly the outputs that rest on something that has changed. -/
theorem mem_affectedOutputs (before after : GraphDocument V) (id : String) :
    id ∈ affectedOutputs before after ↔
      id ∈ outputs before after ∧ ¬ SameUpstream before after id := by
  rw [affectedOutputs, List.mem_filter, decide_eq_true_eq]
  refine and_congr_right fun houtput => ?_
  rw [← not_mem_affected (List.mem_of_mem_filter houtput), not_not]

end Preview

end Dander.ChangePreview
