import Dander.BigqueryWriter
import Dander.VersionHistory

/-!
# SCD2 writes in four warehouses

Each writer closes the changed current versions of the keys in its deduplicated input, and inserts
versions of the rows whose keys are then without a current one, in one transaction with one
effective time. BigQuery first collects the changed rows, and inserts all of them. Redshift's
statements are guarded by the load history, and Snowflake loads the parts only that the history
does not have.
-/
namespace Dander.Scd2

open VersionHistory
open Redshift (Row keysMatch)

/-- A row with its validity. Times are instants. -/
abbrev Versions (n : ℕ) (V : Type) := Multiset (Version (Row n V) ℤ)

/-- One write: its run, the effective time of its transaction and its records. -/
structure Write (n : ℕ) (V : Type) where
  runId : String
  effectiveAt : ℤ
  records : List (Row n V)

/-- A pipeline with the parameters of its four writers. -/
structure Pipeline (n : ℕ) (V : Type) where
  businessKey : List (Fin n)
  targetId : String
  pipelineId : String
  postgresqlCheck : ℕ → Row n V → Except Postgresql.PostgreSQLWriteError Unit
  bigqueryCheck : ℕ → Row n V → Except Bigquery.BigQueryWriteError Unit
  toJsonString : Option V → String
  redshiftCheck : ℕ → Row n V → Except Redshift.RedshiftWriteError Unit
  schemaFingerprint : String
  digest : List (Row n V × ℕ) → String
  settings : Snowflake.StagingSettings
  platform : Snowflake.Platform n V

section Statements

variable {n : ℕ} {V : Type} [LinearOrder V] (businessKey : List (Fin n))

/-- A column that is not in the key differs. -/
def changed (different : Option V → Option V → Bool) (row incoming : Row n V) : Bool :=
  decide (∃ field, field ∉ businessKey ∧ different (row field) (incoming field) = true)

/-- `UPDATE ... SET valid_to, is_current = FALSE FROM incoming`. -/
def closeStatement (different : Option V → Option V → Bool) (effectiveAt : ℤ)
    (incoming : List (Row n V)) (table : Versions n V) : Versions n V :=
  table.map fun current =>
    if current.isCurrent && incoming.any (fun new => keysMatch businessKey current.row new &&
        changed businessKey different current.row new) then current.close effectiveAt
    else current

/-- `INSERT ... FROM incoming WHERE NOT EXISTS` a current version. -/
def insertStatement (effectiveAt : ℤ) (incoming : List (Row n V)) (table : Versions n V) :
    Versions n V :=
  table + (Multiset.ofList (incoming.filter fun new => decide (∀ current ∈ table,
    (keysMatch businessKey current.row new && current.isCurrent) = false))).map
      (Version.opened effectiveAt)

def scd2Statements (different : Option V → Option V → Bool) (effectiveAt : ℤ)
    (incoming : List (Row n V)) (table : Versions n V) : Versions n V :=
  insertStatement businessKey effectiveAt incoming
    (closeStatement businessKey different effectiveAt incoming table)

end Statements

end Dander.Scd2

namespace Dander.Postgresql

open Redshift (Row)
open Scd2 (Pipeline Versions Write)

variable {n : ℕ} {V : Type} [LinearOrder V]

/-- `IS DISTINCT FROM` -/
def isDistinctFrom (a b : Option V) : Bool := decide (a ≠ b)

def scd2Sql (businessKey : List (Fin n)) (effectiveAt : ℤ) (staged : List (Row n V × ℕ))
    (table : Versions n V) : Versions n V :=
  Scd2.scd2Statements businessKey isDistinctFrom effectiveAt
    (deduplicatedSource businessKey none staged) table

def scd2Write (pipeline : Pipeline n V) (table : Versions n V) (write : Write n V) :
    Except PostgreSQLWriteError (Versions n V) := do
  if pipeline.businessKey = [] then
    throw ⟨"PostgreSQL SCD2 writes require a business key"⟩
  let staged ← recordValues pipeline.postgresqlCheck pipeline.businessKey none none 0 write.records
  return if staged.isEmpty then table
    else scd2Sql pipeline.businessKey write.effectiveAt staged table

end Dander.Postgresql

namespace Dander.Bigquery

open VersionHistory
open Redshift (Row keysMatch)
open Scd2 (Pipeline Versions Write)

variable {n : ℕ} {V : Type} [LinearOrder V]

/-- `TO_JSON_STRING(a) IS DISTINCT FROM TO_JSON_STRING(b)` -/
def jsonDistinct (toJsonString : Option V → String) (a b : Option V) : Bool :=
  decide (toJsonString a ≠ toJsonString b)

/-- The temporary table `changed`: the source rows joined to the current versions of their keys,
those without one or with a changed one. -/
def changedRows (businessKey : List (Fin n)) (toJsonString : Option V → String)
    (source : List (Row n V)) (table : Versions n V) : Multiset (Row n V) :=
  (Multiset.ofList source).bind fun new =>
    let matched := table.filter fun target =>
      (keysMatch businessKey target.row new && target.isCurrent) = true
    if matched.card = 0 then {new}
    else (matched.filter fun target =>
      Scd2.changed businessKey (jsonDistinct toJsonString) target.row new = true).map fun _ => new

def scd2Sql (businessKey : List (Fin n)) (toJsonString : Option V → String) (effectiveAt : ℤ)
    (source : List (Row n V)) (table : Versions n V) : Versions n V :=
  let changed := changedRows businessKey toJsonString source table
  table.map (fun target =>
      if target.isCurrent &&
          decide (¬ ∀ row ∈ changed, keysMatch businessKey target.row row = false) then
        target.close effectiveAt
      else target) +
    changed.map (Version.opened effectiveAt)

def scd2Write (pipeline : Pipeline n V) (table : Versions n V) (write : Write n V) :
    Except BigQueryWriteError (Versions n V) := do
  if pipeline.businessKey = [] then
    throw ⟨"SCD2 writes require at least one business-key column"⟩
  if write.records.isEmpty then return table
  let staged ← deduplicateKeyed pipeline.bigqueryCheck pipeline.businessKey 0 [] write.records
  return scd2Sql pipeline.businessKey pipeline.toJsonString write.effectiveAt staged table

end Dander.Bigquery

namespace Dander.Redshift

open Scd2 (Pipeline Versions Write)

variable {n : ℕ} {V : Type} [LinearOrder V]

structure VersionWarehouse (n : ℕ) (V : Type) where
  table : Versions n V
  history : List LoadHistory

/-- `a <> b OR (a IS NULL AND b IS NOT NULL) OR (a IS NOT NULL AND b IS NULL)` -/
def nullSafeDifferent (a b : Option V) : Bool :=
  match a, b with
  | some a, some b => decide (a ≠ b)
  | none, none => false
  | _, _ => true

/-- The guard lets no row through once the load is in the history. -/
def scd2Statements (businessKey : List (Fin n)) (loaded : Bool) (effectiveAt : ℤ)
    (staged : List (Row n V × ℕ)) (table : Versions n V) : Versions n V :=
  Scd2.scd2Statements businessKey nullSafeDifferent effectiveAt
    (if loaded then [] else deduplicatedSource businessKey none staged) table

def scd2Load (pipeline : Pipeline n V) (write : Write n V) : LoadHistory :=
  ⟨pipeline.targetId, pipeline.pipelineId, write.runId, pipeline.schemaFingerprint,
    pipeline.digest write.records.zipIdx⟩

/-- The records with their ordinals, once their keys and values are checked. -/
def scd2WithOrdinals (pipeline : Pipeline n V) :
    ℕ → List (Row n V) → Except RedshiftWriteError (List (Row n V × ℕ))
  | _, [] => .ok []
  | ordinal, record :: rest => do
    if pipeline.businessKey.any (fun field => (record field).isNone) then
      throw ⟨s!"Record {ordinal} has a null business-key value"⟩
    pipeline.redshiftCheck ordinal record
    return (record, ordinal) :: (← scd2WithOrdinals pipeline (ordinal + 1) rest)

def scd2Write (pipeline : Pipeline n V) (warehouse : VersionWarehouse n V) (write : Write n V) :
    Except RedshiftWriteError (VersionWarehouse n V) := do
  if pipeline.businessKey = [] then
    throw ⟨"Redshift scd2 writes require a business key"⟩
  let staged ← scd2WithOrdinals pipeline 0 write.records
  let loaded := decide (scd2Load pipeline write ∈ warehouse.history)
  return ⟨if staged.isEmpty then warehouse.table
      else scd2Statements pipeline.businessKey loaded write.effectiveAt staged warehouse.table,
    if loaded then warehouse.history else warehouse.history ++ [scd2Load pipeline write]⟩

end Dander.Redshift

namespace Dander.Snowflake

open Scd2 (Pipeline Versions Write)

variable {n : ℕ} {V : Type} [LinearOrder V]

/-- `NOT EQUAL_NULL` -/
def notEqualNull (a b : Option V) : Bool := !decide (a = b)

def scd2Publication (businessKey : List (Fin n)) (effectiveAt : ℤ) :
    Publication n V (Versions n V) where
  empty table := table
  statements table staged := Scd2.scd2Statements businessKey notEqualNull effectiveAt
    (Redshift.deduplicatedSource businessKey none staged) table
  reloadsAll := false

def scd2Run (pipeline : Pipeline n V) (write : Write n V) : RunIdentity :=
  ⟨pipeline.targetId, pipeline.pipelineId, write.runId⟩

def scd2Write (pipeline : Pipeline n V) (warehouse : Warehouse (Versions n V))
    (write : Write n V) : Except SnowflakeWriteError (Warehouse (Versions n V)) := do
  if pipeline.businessKey = [] then
    throw ⟨"Snowflake scd2 writes require a business key"⟩
  let load ← prepare pipeline.platform pipeline.settings pipeline.businessKey none none
    write.records
  return loadAndPublish (scd2Run pipeline write)
    (scd2Publication pipeline.businessKey write.effectiveAt) warehouse load

end Dander.Snowflake
