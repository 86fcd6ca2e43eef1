import Dander.PostgresqlWriter

/-!
# Keyed BigQuery writes

A batch is deduplicated by its business key before it is loaded into a staging table: the last
record of a key takes the place of the first one. The incremental writer checks the cursors and
merges as the SCD1 writer does.
-/
namespace Dander.Bigquery

open Redshift (Row)
open Postgresql (keysEqual)

structure BigQueryWriteError where
  message : String
  deriving DecidableEq

/-- The SCD1 writer, or with a cursor the incremental one. -/
structure Writer (n : ℕ) where
  businessKey : List (Fin n)
  cursorField : Option (Fin n)

section Writing

variable {n : ℕ} {V : Type} [LinearOrder V]

/-- `deduplicated[key_values] = row` -/
def setItem (businessKey : List (Fin n)) (deduplicated : List (Row n V)) (row : Row n V) :
    List (Row n V) :=
  if deduplicated.any (keysEqual businessKey row) then
    deduplicated.map fun old => if keysEqual businessKey row old then row else old
  else deduplicated ++ [row]

/-- The loop over the records. `check` is what else is asked of a record: its key values are
scalars, and the load job takes its values. -/
def deduplicateKeyed (check : ℕ → Row n V → Except BigQueryWriteError Unit)
    (businessKey : List (Fin n)) :
    ℕ → List (Row n V) → List (Row n V) → Except BigQueryWriteError (List (Row n V))
  | _, deduplicated, [] => .ok deduplicated
  | index, deduplicated, row :: rest => do
    if businessKey.any (fun field => (row field).isNone) then
      throw ⟨s!"Record {index} has a null business-key value"⟩
    check index row
    deduplicateKeyed check businessKey (index + 1) (setItem businessKey deduplicated row) rest

/-- The cursor checks of the incremental writer. -/
def checkCursors (cursorField : Fin n) : ℕ → List (Row n V) → Except BigQueryWriteError Unit
  | _, [] => .ok ()
  | index, row :: rest => do
    if (row cursorField).isNone then
      throw ⟨s!"Record {index} has a null cursor value"⟩
    checkCursors cursorField (index + 1) rest

def scd1Write (check : ℕ → Row n V → Except BigQueryWriteError Unit) (businessKey : List (Fin n))
    (table : Multiset (Row n V)) (records : List (Row n V)) :
    Except BigQueryWriteError (Multiset (Row n V)) := do
  if businessKey = [] then
    throw ⟨"SCD1 writes require at least one business-key column"⟩
  if records.isEmpty then return table
  let staged ← deduplicateKeyed check businessKey 0 [] records
  return Redshift.merge businessKey table staged

/-- One call of the writer. -/
def write (check : ℕ → Row n V → Except BigQueryWriteError Unit) (writer : Writer n)
    (table : Multiset (Row n V)) (records : List (Row n V)) :
    Except BigQueryWriteError (Multiset (Row n V)) := do
  if let some cursorField := writer.cursorField then
    checkCursors cursorField 0 records
  scd1Write check writer.businessKey table records

end Writing

end Dander.Bigquery
