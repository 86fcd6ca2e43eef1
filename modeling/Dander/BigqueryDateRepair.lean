import Dander.Leases
import Dander.TargetFence
import Dander.ThreeValued
import Dander.TransactionScript

/-!
# Date repair in BigQuery

A repair replaces the rows of a target whose partition dates lie in a window by rows that were
staged from the retained raw tables. One script touches the run's lease, asserts that the keys of
both sides are sound, deletes and inserts, all in one transaction.
-/
namespace Dander.Bigquery

open Concurrency Fence TransactionScript

/-- UTC calendar dates, as days: the start is inclusive and the end is exclusive. -/
structure GraphRepairWindow where
  startDate : ℤ
  endDate : ℤ
  ordered : startDate < endDate

inductive PartitionType where
  | date
  | timestamp
  deriving DecidableEq

structure GraphTargetRepair where
  nodeId : String
  partitionField : String
  partitionType : PartitionType
  businessKey : List String

inductive RepairError where
  | graphRepair (message : String)
  | graphRuntime (message : String)
  | value (error : ValueError)
  | ownershipLost
  | notFound (relation : String)
  | alreadyExists (relation : String)
  | unrecognizedName (relation : String)
  | assertion (message : String)
  | concurrentUpdate
  | badRequest (message : String)
  deriving DecidableEq

section Planning

structure NodeField where
  name : String
  type : String
  castTo : Option String

/-- The writer of a target node. `replaces` is its write mode `replace`. -/
structure TargetWriter where
  replaces : Bool
  partitionField : Option String
  businessKey : List String

structure Node where
  id : String
  isTarget : Bool
  fields : List NodeField
  writer : Option TargetWriter

def keyTypes : List String :=
  ["STRING", "INT64", "INTEGER", "BOOL", "BOOLEAN", "DATE", "DATETIME", "TIMESTAMP", "BYTES",
    "NUMERIC", "BIGNUMERIC"]

/-- `field.cast_to or field.type` -/
def NodeField.declaredType (field : NodeField) : String :=
  match field.castTo with
  | some cast => if cast = "" then field.type else cast
  | none => field.type

/-- The type declared for a name, by the last field of the name. -/
def fieldType (upper : String → String) (fields : List NodeField) (name : String) :
    Option String :=
  (fields.reverse.find? fun field => decide (field.name = name)).map
    fun field => upper field.declaredType

def partitionTypeOf : Option String → Option PartitionType
  | some "DATE" => some .date
  | some "TIMESTAMP" => some .timestamp
  | _ => none

/-- One round of the loop of `plan_graph_repair`. -/
def planTarget (upper : String → String) (node : Node) : Except RepairError GraphTargetRepair := do
  let some writer := node.writer
    | throw (.graphRepair s!"Repair target '{node.id}' needs a declared writer")
  if !writer.replaces then
    throw (.graphRepair s!"Repair target '{node.id}' must use replace write mode")
  let some partition := writer.partitionField
    | throw (.graphRepair s!"Repair target '{node.id}' needs a DATE/TIMESTAMP partition field")
  let some partitionType := partitionTypeOf (fieldType upper node.fields partition)
    | throw (.graphRepair
        s!"Repair target '{node.id}' partition field must be DATE or TIMESTAMP")
  if writer.businessKey = [] || !decide writer.businessKey.Nodup
      || writer.businessKey.any (fun key =>
        !(fieldType upper node.fields key).any fun type => decide (type ∈ keyTypes)) then
    throw (.graphRepair
      s!"Repair target '{node.id}' needs distinct, declared scalar business-key fields")
  return ⟨node.id, partition, partitionType, writer.businessKey⟩

def planGraphRepair (upper : String → String) (nodes : List Node) :
    Except RepairError (List GraphTargetRepair) := do
  let targets ← (nodes.filter (·.isTarget)).mapM (planTarget upper)
  if targets = [] then
    throw (.graphRepair "Date repair requires at least one configured output")
  return targets

end Planning

section Rows

/-- Timestamps are microseconds. -/
inductive Value (V : Type) where
  | date (day : ℤ)
  | timestamp (micros : ℤ)
  | scalar (value : V)
  deriving DecidableEq

abbrev TableRow (V : Type) : Type := String → Option (Value V)

/-- A table: the names of its columns, what a column gets that an insert leaves out, and rows. -/
structure Relation (V : Type) where
  columns : List String
  default : TableRow V
  rows : Multiset (TableRow V)

variable {V : Type}

/-- `DATE(value, 'UTC')` of a timestamp. -/
def utcDate (micros : ℤ) : ℤ := micros / 86400000000

def dateOf : PartitionType → Value V → Option ℤ
  | .date, .date day => some day
  | .timestamp, .timestamp micros => some (utcDate micros)
  | _, _ => none

/-- The condition `selected` of `_repair_dml`. -/
def selected (repair : GraphTargetRepair) (window : GraphRepairWindow) (row : TableRow V) :
    Option Bool :=
  let value := (row repair.partitionField).bind (dateOf repair.partitionType)
  ThreeValued.conjunction
    (ThreeValued.compare (fun day bound => decide (bound ≤ day)) value (some window.startDate))
    (ThreeValued.compare (fun day bound => decide (day < bound)) value (some window.endDate))

/-- The values of the business key, as `GROUP BY` compares them. -/
def keyOf (businessKey : List String) (row : TableRow V) : List (Option (Value V)) :=
  businessKey.map row

/-- Some key column is null. -/
def invalid (businessKey : List String) (row : TableRow V) : Bool :=
  businessKey.any fun column => (row column).isNone

/-- The join condition: all key columns are equal. -/
def joined [DecidableEq V] (businessKey : List String) (s t : TableRow V) : Option Bool :=
  ThreeValued.all (businessKey.map fun key => ThreeValued.equal (s key) (t key))

/-- `NOT COALESCE(selected, FALSE)` -/
def notSelected (repair : GraphTargetRepair) (window : GraphRepairWindow) (row : TableRow V) :
    Option Bool :=
  ThreeValued.negation (some ((selected repair window row).getD false))

/-- The row that `INSERT INTO target (columns) SELECT columns` makes of a selected one. -/
def insertedRow (columns : List String) (default row : TableRow V) : TableRow V := fun column =>
  if column ∈ columns then row column else default column

end Rows

/-- The tables of a project and the leases of its pipelines. -/
structure Warehouse (V : Type) where
  tables : String → Option (Relation V)
  leases : Leases.LeaseTable

/-- The variables of a repair script, with `@@row_count` and the rows of its final `SELECT`. -/
structure RepairVariables where
  rowCount : ℕ
  deleted : ℕ
  inserted : ℕ
  counts : Option (ℕ × ℕ)

/-- The variables at the start of a script. -/
def RepairVariables.start : RepairVariables := ⟨0, 0, 0, none⟩

section Script

variable {V : Type}

abbrev RepairAction (V : Type) : Type := Action (Warehouse V) RepairVariables RepairError

/-- A statement reads a table by name, and the columns it names. -/
def Warehouse.read (warehouse : Warehouse V) (relation : String) (columns : List String) :
    Except RepairError (Relation V) :=
  match warehouse.tables relation with
  | none => .error (.notFound relation)
  | some table =>
    if columns.all (fun column => decide (column ∈ table.columns)) then .ok table
    else .error (.unrecognizedName relation)

def Warehouse.write (warehouse : Warehouse V) (relation : String) (table : Relation V) :
    Warehouse V :=
  { warehouse with tables := Function.update warehouse.tables relation (some table) }

/-- The lease row that `fencing_touch_sql` updates. -/
def touches (fence : FencingToken) (leases : Leases.LeaseTable) : Bool :=
  (leases.row fence.pipelineId).any fun row =>
    decide (row.runId = some fence.runId) && decide (row.fencingToken = fence.token)
      && decide (leases.clock < row.leaseExpiresAt)

/-- Sets the heartbeat of the row to itself. -/
def touchLease (fence : FencingToken) : RepairAction V := fun warehouse locals =>
  .ok (warehouse, { locals with
    rowCount := if touches fence warehouse.leases then 1 else 0 })

abbrev Condition (V : Type) : Type := Warehouse V → Except RepairError Bool

variable [DecidableEq V] (targetId stagingId : String) (columns : List String)
  (repair : GraphTargetRepair) (window : GraphRepairWindow)

/-- The columns that the assertions name. -/
def repairColumns : List String := repair.partitionField :: repair.businessKey

/-- No selected row of the relation has a null key. -/
def keysPresent (relation : String) : Condition V := fun warehouse => do
  let table ← warehouse.read relation (repairColumns repair)
  return decide (∀ s ∈ table.rows,
    ¬ (ThreeValued.holds (selected repair window s) && invalid repair.businessKey s))

/-- No two selected rows of the relation have one key. -/
def keysUnique (relation : String) : Condition V := fun warehouse => do
  let table ← warehouse.read relation (repairColumns repair)
  return decide (((table.rows.filter fun s => ThreeValued.holds (selected repair window s)).map
    (keyOf repair.businessKey)).Nodup)

/-- No selected row of the one relation has the key of a row of the other that is not selected. -/
def keysStay (relation other : String) : Condition V := fun warehouse => do
  let table ← warehouse.read relation (repairColumns repair)
  let table' ← warehouse.read other (repairColumns repair)
  return decide (∀ s ∈ table.rows, ∀ t ∈ table'.rows,
    ¬ (ThreeValued.holds (joined repair.businessKey s t)
      && ThreeValued.holds (ThreeValued.conjunction (selected repair window s)
        (notSelected repair window t))))

/-- The assertions of `_repair_dml` with their messages. -/
def validations : List (Condition V × RepairError) :=
  ([stagingId, targetId].flatMap fun relation =>
    [(keysPresent repair window relation,
        .assertion "Selected repair business keys must not be null"),
      (keysUnique repair window relation, .assertion "Repair business keys must be unique")]) ++
  [(keysStay repair window stagingId targetId,
      .assertion "Repair staged keys overlap target rows outside the selected dates"),
    (keysStay repair window targetId stagingId,
      .assertion
        "Repair target keys moved outside the selected dates in retained raw data")]

def deleteSelected : RepairAction V := fun warehouse locals => do
  let table ← warehouse.read targetId [repair.partitionField]
  let kept := table.rows.filter fun t => ¬ ThreeValued.holds (selected repair window t) = true
  return (warehouse.write targetId { table with rows := kept },
    { locals with rowCount := table.rows.card - kept.card })

def insertSelected : RepairAction V := fun warehouse locals => do
  let staged ← warehouse.read stagingId (repair.partitionField :: columns)
  let table ← warehouse.read targetId columns
  let rows := staged.rows.filter fun s => ThreeValued.holds (selected repair window s)
  return (warehouse.write targetId
      { table with rows := table.rows + rows.map (insertedRow columns table.default) },
    { locals with rowCount := rows.card })

/-- `_repair_dml` -/
def repairDml : List (RepairAction V) :=
  (validations targetId stagingId repair window).map
      (fun a => assert (fun warehouse _ => a.1 warehouse) a.2) ++
    [deleteSelected targetId repair window,
      assign fun _ locals => { locals with deleted := locals.rowCount },
      insertSelected targetId stagingId columns repair window,
      assign fun _ locals => { locals with inserted := locals.rowCount }]

/-- The replacement within `fenced_dml`. -/
def fencedBody (fence : FencingToken) : List (RepairAction V) :=
  touchLease fence ::
    assert (fun _ locals => .ok (decide (locals.rowCount = 1)))
      (.assertion "Dander pipeline lease lost") ::
    repairDml targetId stagingId columns repair window

/-- The script that `_materialize` submits. -/
def repairScript (fence : FencingToken) :
    List (Statement (Warehouse V) RepairVariables RepairError) :=
  transaction
    [assign fun _ locals => { locals with deleted := 0 },
      assign fun _ locals => { locals with inserted := 0 }]
    (fencedBody targetId stagingId columns repair window fence)
    [assign fun _ locals => { locals with
      counts := some (locals.inserted, locals.deleted + locals.inserted) }]

end Script

section Materialize

variable {V : Type} [DecidableEq V]

/-- What else can happen in a call: the ownership checks, the interrupts of the submitted
scripts, and the removal of the staging table. -/
structure Faults where
  verify : ℕ → Except RepairError Unit
  interrupt : ℕ → Option (ℕ × RepairError)
  deleteTable : Except RepairError Unit

def scriptError : ScriptError RepairError → RepairError
  | .statement error => error
  | .nestedTransaction => .badRequest "nested transaction"
  | .noTransaction => .badRequest "no transaction"

/-- `_RepairQueryJob.result` -/
def repairResult (outcome : Outcome (Warehouse V) RepairVariables RepairError) :
    Except RepairError (ℕ × ℕ) :=
  match outcome.result with
  | .error error => .error (scriptError error)
  | .ok locals =>
    match locals.counts with
    | none => .error (.graphRuntime "Date repair did not return its committed row counts")
    | some counts => .ok counts

/-- `run_mutation_with_retry`, with the attempts that are left after this one. -/
def runMutationWithRetry (interrupt : ℕ → Option (ℕ × RepairError))
    (script : List (Statement (Warehouse V) RepairVariables RepairError)) :
    ℕ → ℕ → Warehouse V → Warehouse V × Except RepairError (ℕ × ℕ)
  | attempt, 0, warehouse =>
    let outcome := execute (interrupt attempt) script ⟨warehouse, none, .start⟩
    (outcome.stored, repairResult outcome)
  | attempt, more + 1, warehouse =>
    let outcome := execute (interrupt attempt) script ⟨warehouse, none, .start⟩
    match repairResult outcome with
    | .error .concurrentUpdate =>
      runMutationWithRetry interrupt script (attempt + 1) more outcome.stored
    | result => (outcome.stored, result)

/-- `f"_dander_stage_{name}_{uuid4().hex}"` beside the target. -/
def stagingRef (target : RelationRef) (uuid : String) : Except RepairError RelationRef :=
  let name := "_dander_stage_" ++ target.name ++ "_" ++ uuid
  if h : isRelationIdentifier (fun _ => false) name = true then
    .ok ⟨target.catalog, target.namespaceName, name, target.catalogValid, target.namespaceValid, h⟩
  else .error (.value ⟨"relation namespace and name must be portable identifiers"⟩)

/-- The statements of `_materialize` between the creation of its staging table and its removal. -/
def publishRepair (faults : Faults) (targetId stagingId : String) (columns : List String)
    (repair : GraphTargetRepair) (window : GraphRepairWindow) (fence : FencingToken)
    (query : (String → Option (Relation V)) → Except RepairError (Relation V))
    (warehouse : Warehouse V) : Warehouse V × Except RepairError (ℕ × ℕ) :=
  match faults.verify 0 with
  | .error error => (warehouse, .error error)
  | .ok () =>
    match query warehouse.tables with
    | .error error => (warehouse, .error error)
    | .ok staged =>
      if (warehouse.tables stagingId).isSome then (warehouse, .error (.alreadyExists stagingId))
      else
        let created := warehouse.write stagingId staged
        match faults.verify 1 with
        | .error error => (created, .error error)
        | .ok () =>
          if fence.leaseTable.isNone then
            (created, .error (.value ⟨"State-side BigQuery fencing requires a BigQuery lease table"⟩))
          else
            runMutationWithRetry faults.interrupt
              (repairScript targetId stagingId columns repair window fence) 0 4 created

/-- `_materialize` of a repair. -/
def materialize (faults : Faults) (target : RelationRef) (uuid : String) (columns : List String)
    (repair : GraphTargetRepair) (window : GraphRepairWindow) (fence : FencingToken)
    (query : (String → Option (Relation V)) → Except RepairError (Relation V))
    (warehouse : Warehouse V) : Warehouse V × Except RepairError (ℕ × ℕ) :=
  match stagingRef target uuid with
  | .error error => (warehouse, .error error)
  | .ok staging =>
    let (left, result) := publishRepair faults target.targetId staging.targetId columns repair window
      fence query warehouse
    match faults.deleteTable with
    | .error error => (left, .error error)
    | .ok () =>
      ({ left with tables := Function.update left.tables staging.targetId none }, result)

end Materialize

end Dander.Bigquery
