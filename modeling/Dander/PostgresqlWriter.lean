import Dander.SnowflakeWriter

/-!
# PostgreSQL writes

One call of the writer copies its records into a temporary table, whose identity column numbers
them, and publishes them in the same transaction. In the keyed modes the target has a unique
index on its business key, on which inserted rows conflict with stored ones.
-/
namespace Dander.Postgresql

open Redshift (Row keysMatch updated)
open Snowflake (WriteMode)

structure PostgreSQLWriteError where
  message : String
  deriving DecidableEq

structure Writer (n : ℕ) where
  mode : WriteMode n
  businessKey : List (Fin n)

section Staging

variable {n : ℕ} {V : Type}

def Writer.cursorField (writer : Writer n) : Option (Fin n) :=
  match writer.mode with
  | .incremental field => some field
  | _ => none

def Writer.snapshotField (writer : Writer n) : Option (Fin n) :=
  match writer.mode with
  | .snapshot field => some field
  | _ => none

def validateTarget (writer : Writer n) : Except PostgreSQLWriteError Unit :=
  match writer.mode with
  | .snapshot _ | .replace => .ok ()
  | mode =>
    if writer.businessKey = [] then
      .error ⟨"PostgreSQL " ++ mode.value.toUpper ++ " writes require a business key"⟩
    else .ok ()

/-- The null checks of one record. -/
def checkRecord (businessKey : List (Fin n)) (cursorField snapshotField : Option (Fin n))
    (index : ℕ) (record : Row n V) : Except PostgreSQLWriteError Unit :=
  if businessKey.any (fun field => (record field).isNone) then
    .error ⟨s!"Record {index} has a null business-key value"⟩
  else if cursorField.any (fun field => (record field).isNone) then
    .error ⟨s!"Record {index} has a null incremental cursor value"⟩
  else if snapshotField.any (fun field => (record field).isNone) then
    .error ⟨s!"Record {index} has a null snapshot value"⟩
  else .ok ()

variable (check : ℕ → Row n V → Except PostgreSQLWriteError Unit)

/-- The records in the temporary table with their identities, unless one of them fails its null
checks or the checks of its values against the staging schema. -/
def recordValues (businessKey : List (Fin n)) (cursorField snapshotField : Option (Fin n)) :
    ℕ → List (Row n V) → Except PostgreSQLWriteError (List (Row n V × ℕ))
  | _, [] => .ok []
  | index, record :: rest => do
    checkRecord businessKey cursorField snapshotField index record
    check index record
    return (record, index + 1) :: (← recordValues businessKey cursorField snapshotField
      (index + 1) rest)

end Staging

section Publication

variable {n : ℕ} {V : Type} [LinearOrder V]

/-- Equality of all key columns, where nulls are equal. -/
def keysEqual (businessKey : List (Fin n)) (row other : Row n V) : Bool :=
  businessKey.all fun field => decide (row field = other field)

/-- The order within a key: `cursor DESC`, which puts nulls first, if there is a cursor, and then
the identity, descending. -/
def precedes (cursorField : Option (Fin n)) (a b : Row n V × ℕ) : Bool :=
  match cursorField with
  | none => decide (b.2 < a.2)
  | some field =>
    match a.1 field, b.1 field with
    | some x, some y => decide (y < x) || (decide (x = y) && decide (b.2 < a.2))
    | none, some _ => true
    | some _, none => false
    | none, none => decide (b.2 < a.2)

/-- `SELECT DISTINCT ON` the key: the first row of each key. -/
def deduplicatedSource (businessKey : List (Fin n)) (cursorField : Option (Fin n))
    (staged : List (Row n V × ℕ)) : List (Row n V) :=
  (staged.filter fun row => staged.all fun other =>
    !(keysEqual businessKey other.1 row.1 && precedes cursorField other row)).map Prod.fst

/-- `WHERE current.cursor IS NULL OR EXCLUDED.cursor >= current.cursor`, if there is a cursor. -/
def conflictCondition (cursorField : Option (Fin n)) (excluded current : Row n V) : Bool :=
  match cursorField with
  | none => true
  | some field =>
    match current field, excluded field with
    | none, _ => true
    | some stored, some new => decide (stored ≤ new)
    | some _, none => false

/-- `INSERT ... ON CONFLICT ... DO UPDATE` of one row. -/
def insertOnConflict (businessKey : List (Fin n)) (cursorField : Option (Fin n))
    (table : Multiset (Row n V)) (excluded : Row n V) : Multiset (Row n V) :=
  if ∀ current ∈ table, keysMatch businessKey current excluded = false then table + {excluded}
  else table.map fun current =>
    if keysMatch businessKey current excluded && conflictCondition cursorField excluded current then
      updated businessKey current excluded
    else current

def merge (businessKey : List (Fin n)) (cursorField : Option (Fin n)) (table : Multiset (Row n V))
    (staged : List (Row n V × ℕ)) : Multiset (Row n V) :=
  (deduplicatedSource businessKey cursorField staged).foldl
    (insertOnConflict businessKey cursorField) table

/-- `INSERT ... SELECT DISTINCT ... WHERE NOT EXISTS` an identical row. -/
def snapshotInsert (table : Multiset (Row n V)) (staged : List (Row n V × ℕ)) :
    Multiset (Row n V) :=
  table + Multiset.dedup (Multiset.ofList ((staged.map Prod.fst).filter fun incoming =>
    decide (incoming ∉ table)))

def publish (writer : Writer n) (table : Multiset (Row n V)) (staged : List (Row n V × ℕ)) :
    Multiset (Row n V) :=
  if staged.isEmpty && decide (writer.mode ≠ .replace) then table
  else
    match writer.mode with
    | .scd1 => merge writer.businessKey none table staged
    | .incremental cursorField => merge writer.businessKey (some cursorField) table staged
    | .snapshot _ => snapshotInsert table staged
    | .replace => Multiset.ofList (staged.map Prod.fst)

/-- One call of the writer. -/
def write (check : ℕ → Row n V → Except PostgreSQLWriteError Unit) (writer : Writer n)
    (table : Multiset (Row n V)) (records : List (Row n V)) :
    Except PostgreSQLWriteError (Multiset (Row n V)) := do
  validateTarget writer
  let staged ← recordValues check writer.businessKey writer.cursorField writer.snapshotField 0
    records
  return publish writer table staged

end Publication

end Dander.Postgresql
