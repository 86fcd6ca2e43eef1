import Dander.KeyedUpsert
import Mathlib.Data.Fintype.Basic
import Mathlib.Data.Fintype.Pi
import Mathlib.Data.Multiset.Dedup
import Mathlib.Order.WithBot

/-!
# Staged Redshift writes

One call of the writer stages its records with their ordinals and publishes them in one
fenced transaction. The publication is guarded by the load history: its statements take
no rows if the history already has the load's identity, and the transaction then records
that identity.
-/
namespace Dander.Redshift

/-- A row of a table with `n` declared columns. -/
abbrev Row (n : ℕ) (V : Type) := Fin n → Option V

instance lawfulColumns (n : ℕ) : LawfulBEq (Fin n) := inferInstance

/-- The write modes that are executed in batches. -/
inductive WriteMode (n : ℕ) where
  | scd1
  | incremental (cursorField : Fin n)
  | snapshot (snapshotField : Fin n)
  deriving DecidableEq

def WriteMode.value {n : ℕ} : WriteMode n → String
  | .scd1 => "scd1"
  | .incremental _ => "incremental"
  | .snapshot _ => "snapshot"

/-- The writer's mode, the target's key, and what identifies the loads of one run. -/
structure WriteTarget (n : ℕ) where
  mode : WriteMode n
  businessKey : List (Fin n)
  targetId : String
  pipelineId : String
  runId : String
  schemaFingerprint : String

structure RedshiftWriteError where
  message : String
  deriving DecidableEq

/-- A row of `dander_stage_loads`. -/
structure LoadHistory where
  targetId : String
  pipelineId : String
  runId : String
  schemaFingerprint : String
  manifestDigest : String
  deriving DecidableEq

structure Warehouse (n : ℕ) (V : Type) where
  table : Multiset (Row n V)
  history : List LoadHistory

section Staging

variable {n : ℕ} {V : Type} (check : ℕ → Row n V → Except RedshiftWriteError Unit)

def validateTarget (target : WriteTarget n) : Except RedshiftWriteError Unit :=
  match target.mode with
  | .snapshot _ => .ok ()
  | mode =>
    if target.businessKey = [] then
      .error ⟨"Redshift " ++ mode.value ++ " writes require a business key"⟩
    else .ok ()

/-- The null checks of one record. -/
def checkRecord (target : WriteTarget n) (ordinal : ℕ) (record : Row n V) :
    Except RedshiftWriteError Unit := do
  if target.businessKey.any (fun field => (record field).isNone) then
    throw ⟨s!"Record {ordinal} has a null business-key value"⟩
  match target.mode with
  | .scd1 => return ()
  | .incremental cursorField =>
    if (record cursorField).isNone then
      throw ⟨s!"Record {ordinal} has a null incremental cursor value"⟩
  | .snapshot snapshotField =>
    if (record snapshotField).isNone then
      throw ⟨s!"Record {ordinal} has a null snapshot value"⟩

/-- The records with their ordinals, unless one of them fails its null checks or the checks
of its values against the staging schema. -/
def withOrdinals (target : WriteTarget n) :
    ℕ → List (Row n V) → Except RedshiftWriteError (List (Row n V × ℕ))
  | _, [] => .ok []
  | ordinal, record :: rest => do
    checkRecord target ordinal record
    check ordinal record
    return (record, ordinal) :: (← withOrdinals target (ordinal + 1) rest)

end Staging

section Publication

variable {n : ℕ} {V : Type} [LinearOrder V]

/-- Equality of all key columns, which a null never satisfies. -/
def keysMatch (businessKey : List (Fin n)) (row other : Row n V) : Bool :=
  businessKey.all fun field =>
    match row field, other field with
    | some a, some b => decide (a = b)
    | _, _ => false

/-- The order within a partition: `cursor DESC NULLS LAST`, if there is a cursor, and then
the ordinal, descending. -/
def precedes (cursorField : Option (Fin n)) (a b : Row n V × ℕ) : Bool :=
  match cursorField with
  | none => decide (b.2 < a.2)
  | some field =>
    match a.1 field, b.1 field with
    | some x, some y => decide (y < x) || (decide (x = y) && decide (b.2 < a.2))
    | some _, none => true
    | none, some _ => false
    | none, none => decide (b.2 < a.2)

/-- `ROW_NUMBER()` over the partition of a row's key. -/
def rowNumber (businessKey : List (Fin n)) (cursorField : Option (Fin n))
    (staged : List (Row n V × ℕ)) (row : Row n V × ℕ) : ℕ :=
  (staged.filter fun other =>
    keysMatch businessKey other.1 row.1 && precedes cursorField other row).length + 1

def deduplicatedSource (businessKey : List (Fin n)) (cursorField : Option (Fin n))
    (staged : List (Row n V × ℕ)) : List (Row n V) :=
  (staged.filter fun row => rowNumber businessKey cursorField staged row = 1).map Prod.fst

/-- `UPDATE SET` of the columns that are not in the key. -/
def updated (businessKey : List (Fin n)) (row incoming : Row n V) : Row n V :=
  fun field => if field ∈ businessKey then row field else incoming field

/-- `MERGE ... WHEN MATCHED THEN UPDATE ... WHEN NOT MATCHED THEN INSERT`. -/
def merge (businessKey : List (Fin n)) (table : Multiset (Row n V))
    (incoming : List (Row n V)) : Multiset (Row n V) :=
  table.map (fun row =>
    match incoming.find? (keysMatch businessKey row) with
    | some new => updated businessKey row new
    | none => row) +
  Multiset.ofList (incoming.filter fun new =>
    decide (∀ row ∈ table, keysMatch businessKey row new = false))

/-- `<` on values, which a null never satisfies. -/
def lessThan (a b : Option V) : Bool :=
  match a, b with
  | some a, some b => decide (a < b)
  | _, _ => false

/-- `DELETE FROM` the staged rows `USING` the target, where the staged cursor is smaller. -/
def incrementalPrune (businessKey : List (Fin n)) (cursorField : Fin n)
    (table : Multiset (Row n V)) (staged : List (Row n V × ℕ)) : List (Row n V × ℕ) :=
  staged.filter fun row => decide (∀ existing ∈ table,
    (keysMatch businessKey row.1 existing &&
      lessThan (row.1 cursorField) (existing cursorField)) = false)

/-- `INSERT ... SELECT DISTINCT ... WHERE NOT EXISTS` an identical row. -/
def snapshotInsert (snapshotField : Fin n) (table : Multiset (Row n V))
    (staged : List (Row n V × ℕ)) : Multiset (Row n V) :=
  table + Multiset.dedup (Multiset.ofList ((staged.map Prod.fst).filter fun incoming =>
    (incoming snapshotField).isSome && decide (incoming ∉ table)))

/-- The publication's effect on the target. `loaded` tells whether the history has the load:
then no source row passes the guard. -/
def publish (target : WriteTarget n) (loaded : Bool) (table : Multiset (Row n V))
    (staged : List (Row n V × ℕ)) : Multiset (Row n V) :=
  if staged.isEmpty then table
  else
    match target.mode with
    | .scd1 => merge target.businessKey table
      (if loaded then [] else deduplicatedSource target.businessKey none staged)
    | .incremental cursorField => merge target.businessKey table
      (if loaded then [] else deduplicatedSource target.businessKey (some cursorField)
        (incrementalPrune target.businessKey cursorField table staged))
    | .snapshot snapshotField => snapshotInsert snapshotField table (if loaded then [] else staged)

variable (check : ℕ → Row n V → Except RedshiftWriteError Unit)
  (digest : List (Row n V × ℕ) → String)

def WriteTarget.load (target : WriteTarget n) (manifestDigest : String) : LoadHistory :=
  ⟨target.targetId, target.pipelineId, target.runId, target.schemaFingerprint, manifestDigest⟩

/-- One call of the writer. -/
def write (target : WriteTarget n) (warehouse : Warehouse n V) (records : List (Row n V)) :
    Except RedshiftWriteError (Warehouse n V) := do
  validateTarget target
  let staged ← withOrdinals check target 0 records
  let load := target.load (digest staged)
  let loaded := decide (load ∈ warehouse.history)
  return ⟨publish target loaded warehouse.table staged,
    if loaded then warehouse.history else warehouse.history ++ [load]⟩

/-- `itertools.batched`, filling the batch `current` first. -/
def batched {α : Type} (rows : ℕ) : List α → List α → List (List α)
  | [], current => if current.isEmpty then [] else [current]
  | record :: rest, current =>
    if (current ++ [record]).length = rows then (current ++ [record]) :: batched rows rest []
    else batched rows rest (current ++ [record])

/-- The batches are written one after another until one of them fails. -/
def writeEach {S α : Type} (write : S → α → Except RedshiftWriteError S) :
    S → List α → S × Option RedshiftWriteError
  | state, [] => (state, none)
  | state, batch :: rest =>
    match write state batch with
    | .ok state' => writeEach write state' rest
    | .error error => (state, some error)

/-- The batches of a stream; an empty stream is written as one empty batch. -/
def batches {α : Type} (rows : ℕ) (records : List α) : List (List α) :=
  if records.isEmpty then [[]] else batched rows records []

/-- `PipelineRunner._write_batched` over this writer, within one run. -/
def writeBatched (target : WriteTarget n) (rows : ℕ) (warehouse : Warehouse n V)
    (records : List (Row n V)) : Warehouse n V × Option RedshiftWriteError :=
  writeEach (write check digest target) warehouse (batches rows records)

end Publication

end Dander.Redshift
