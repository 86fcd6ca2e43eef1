import Dander.RankedRows
import Dander.WriterSemantics

/-!
# Incremental transform materialization

A model's query result is merged into its target by the model's unique key. BigQuery and
PostgreSQL take the result rows at or above the greatest stored cursor, and of each key the first
by cursor and then by the JSON text of the row. Snowflake and Redshift take the first row of each
key by cursor and then by the other columns, and compare it with the stored row of its key.
-/
namespace Dander.Transform

open KeyedUpsert
open Redshift (Row keysMatch keyOf updated)

structure TransformRunError where
  message : String
  deriving DecidableEq

/-- The metadata of an incremental model with `n` columns. -/
structure IncrementalModel (n : ℕ) where
  uniqueKey : List (Fin n)
  incrementalCursor : Fin n
  /-- The columns in the order of their names. -/
  sortedNames : List (Fin n)
  keyed : uniqueKey ≠ []
  complete : ∀ column, column ∈ sortedNames

section Materialization

variable {n : ℕ} {V J : Type}

/-- The bag in the target after a build: what a failed one has found. -/
def left {ε : Type} (table : Multiset (Row n V)) :
    Except ε (Multiset (Row n V)) → Multiset (Row n V)
  | .ok after => after
  | .error _ => table

def IncrementalModel.cursor (model : IncrementalModel n) (row : Row n V) : Option V :=
  row model.incrementalCursor

/-- What `PARTITION BY` and `DISTINCT ON` compare: nulls are equal. -/
def IncrementalModel.partition (model : IncrementalModel n) (row : Row n V) : List (Option V) :=
  model.uniqueKey.map row

def IncrementalModel.tieBreakers (model : IncrementalModel n) : List (Fin n) :=
  model.sortedNames.filter fun name =>
    decide (name ∉ model.uniqueKey ∧ name ≠ model.incrementalCursor)

def nullsLast : Option V → WithBot V
  | none => ⊥
  | some value => value

def nullsFirst : Option V → WithTop V
  | none => ⊤
  | some value => value

variable [LinearOrder V] [LinearOrder J]

/-- `SELECT MAX(cursor) FROM relation`, which is null where no stored cursor is not. -/
def maxCursor (model : IncrementalModel n) (table : Multiset (Row n V)) : WithBot V :=
  (table.map fun row => nullsLast (model.cursor row)).sup

/-- `WHERE NOT EXISTS (SELECT 1 FROM relation) OR source.cursor >= (SELECT MAX(cursor) ...)` -/
def atBoundary (model : IncrementalModel n) (table : Multiset (Row n V)) (row : Row n V) : Bool :=
  decide (table = 0) ||
    (decide (maxCursor model table ≠ ⊥) &&
      decide (maxCursor model table ≤ nullsLast (model.cursor row)))

/-- `incoming.cursor >= target.cursor`, which is not true of nulls. -/
def atLeast (incoming target : Option V) : Bool :=
  match incoming, target with
  | some new, some old => decide (old ≤ new)
  | _, _ => false

end Materialization

end Dander.Transform

namespace Dander.Bigquery

open KeyedUpsert Transform
open Redshift (Row)

variable {n : ℕ} {V J : Type} [LinearOrder V] [LinearOrder J]

/-- `ORDER BY source.cursor DESC, TO_JSON_STRING(source) DESC`, where nulls are last. -/
def sourceOrder (jsonString : Row n V → J) (model : IncrementalModel n) (row : Row n V) :
    WithBot V ×ₗ J :=
  toLex (nullsLast (model.cursor row), jsonString row)

def sourceQuery (jsonString : Row n V → J) (model : IncrementalModel n)
    (table : Multiset (Row n V)) (result : List (Row n V)) : List (Row n V) :=
  firstRows model.partition (sourceOrder jsonString model) (result.filter (atBoundary model table))

/-- `MERGE ... WHEN MATCHED THEN UPDATE ... WHEN NOT MATCHED THEN INSERT` of the source query. -/
def incrementalMaterialization (jsonString : Row n V → J) (model : IncrementalModel n)
    (table : Multiset (Row n V)) (result : List (Row n V)) :
    Except TransformRunError (Multiset (Row n V)) :=
  .ok (Redshift.merge model.uniqueKey table (sourceQuery jsonString model table result))

end Dander.Bigquery

namespace Dander.Postgresql

open KeyedUpsert Transform
open Redshift (Row keyOf)

/-- What `CREATE UNIQUE INDEX` and inserts into an indexed relation raise. -/
inductive UniqueViolation where
  | couldNotCreateUniqueIndex
  deriving DecidableEq

variable {n : ℕ} {V J : Type} [LinearOrder V] [LinearOrder J]

/-- `ORDER BY source.cursor DESC, to_jsonb(source)::text DESC`, where nulls are first. -/
def incomingOrder (jsonbText : Row n V → J) (model : IncrementalModel n) (row : Row n V) :
    WithTop V ×ₗ J :=
  toLex (nullsFirst (model.cursor row), jsonbText row)

/-- `SELECT DISTINCT ON` the unique key. -/
def incoming (jsonbText : Row n V → J) (model : IncrementalModel n)
    (table : Multiset (Row n V)) (result : List (Row n V)) : List (Row n V) :=
  firstRows model.partition (incomingOrder jsonbText model) (result.filter (atBoundary model table))

/-- The unique index is created, and the incoming rows are inserted `ON CONFLICT DO UPDATE`. -/
def incrementalStatements (jsonbText : Row n V → J) (model : IncrementalModel n)
    (table : Multiset (Row n V)) (result : List (Row n V)) :
    Except UniqueViolation (Multiset (Row n V)) :=
  if (keys (keyOf model.uniqueKey) table).Nodup then
    .ok ((incoming jsonbText model table result).foldl (insertOnConflict model.uniqueKey none)
      table)
  else .error .couldNotCreateUniqueIndex

end Dander.Postgresql

namespace Dander.Transform

open KeyedUpsert
open Redshift (Row keysMatch updated)

variable {n : ℕ} {V : Type} [LinearOrder V]

def otherColumns (model : IncrementalModel n) (row : Row n V) : List (WithBot V) :=
  model.tieBreakers.map fun name => nullsLast (row name)

/-- The cursor and the other columns in the order of their names, `DESC NULLS LAST` each. -/
def stagingOrder (model : IncrementalModel n) (row : Row n V) : WithBot V ×ₗ List (WithBot V) :=
  toLex (nullsLast (model.cursor row), otherColumns model row)

/-- The temporary table: the rows ranked first. -/
def createTemporary (model : IncrementalModel n) (result : List (Row n V)) : List (Row n V) :=
  firstRows model.partition (stagingOrder model) result

/-- An inserted row with a null in a column that is declared `NOT NULL`: the columns of the unique
key and the cursor are. -/
def violatesNotNull (model : IncrementalModel n) (row : Row n V) : Bool :=
  (model.incrementalCursor :: model.uniqueKey).any fun name => (row name).isNone

/-- The rows of the temporary table whose keys are not stored. -/
def missing (model : IncrementalModel n) (table : Multiset (Row n V)) (temporary : List (Row n V)) :
    List (Row n V) :=
  temporary.filter fun new =>
    decide (∀ row ∈ table, keysMatch model.uniqueKey row new = false)

end Dander.Transform

namespace Dander.Snowflake

open Transform
open Redshift (Row keysMatch updated)

variable {n : ℕ} {V : Type} [LinearOrder V]

/-- `WHEN MATCHED AND incoming.cursor >= target.cursor THEN UPDATE` -/
def matchedRow (model : IncrementalModel n) (temporary : List (Row n V)) (row : Row n V) :
    Row n V :=
  match temporary.find? (keysMatch model.uniqueKey row) with
  | some new =>
    if atLeast (model.cursor new) (model.cursor row) then updated model.uniqueKey row new else row
  | none => row

/-- `MERGE ... WHEN MATCHED ... WHEN NOT MATCHED THEN INSERT` of the temporary table. -/
def transformPublication (model : IncrementalModel n) (table : Multiset (Row n V))
    (temporary : List (Row n V)) : Except TransformRunError (Multiset (Row n V)) :=
  if (missing model table temporary).any (violatesNotNull model) then
    .error ⟨"Snowflake transform publication failed"⟩
  else
    .ok (table.map (matchedRow model temporary) +
      Multiset.ofList (missing model table temporary))

def incrementalMaterialization (model : IncrementalModel n) (table : Multiset (Row n V))
    (result : List (Row n V)) : Except TransformRunError (Multiset (Row n V)) :=
  transformPublication model table (createTemporary model result)

end Dander.Snowflake

namespace Dander.Redshift

open Transform

variable {n : ℕ} {V : Type} [LinearOrder V]

/-- `UPDATE ... FROM` the temporary table `WHERE` the keys match `AND incoming.cursor >=
target.cursor`. -/
def updatedRow (model : IncrementalModel n) (temporary : List (Row n V)) (row : Row n V) :
    Row n V :=
  match temporary.find? (fun new =>
    keysMatch model.uniqueKey row new && atLeast (model.cursor new) (model.cursor row)) with
  | some new => updated model.uniqueKey row new
  | none => row

/-- The update, and `INSERT ... WHERE NOT EXISTS` a row with the key. -/
def transformPublication (model : IncrementalModel n) (table : Multiset (Row n V))
    (temporary : List (Row n V)) : Except TransformRunError (Multiset (Row n V)) :=
  let existing := table.map (updatedRow model temporary)
  if (missing model existing temporary).any (violatesNotNull model) then
    .error ⟨"Redshift transform publication failed"⟩
  else .ok (existing + Multiset.ofList (missing model existing temporary))

def incrementalMaterialization (model : IncrementalModel n) (table : Multiset (Row n V))
    (result : List (Row n V)) : Except TransformRunError (Multiset (Row n V)) :=
  transformPublication model table (createTemporary model result)

end Dander.Redshift
