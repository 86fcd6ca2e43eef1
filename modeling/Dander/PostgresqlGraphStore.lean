import Dander.GraphPages
import Dander.Tables

/-!
# The graph store in PostgreSQL

Graphs and idempotency reservations are two tables. A mutation is one transaction: it returns
the database it commits, or raises and leaves the database as it was. Graph documents are kept
as the canonical documents their bytes decode to.
-/
namespace Dander.PostgresqlGraphStore

open GraphStore

section Schema

/-- A row of `dander_graph_mutation_idempotency`. -/
structure IdempotencyRow (Document : Type) where
  project : String
  operation : MutationOperation
  idempotencyKeySha256 : String
  requestFingerprint : String
  graph : String
  completed : Bool
  resultRevision : Option String
  resultContentSha256 : Option String
  resultDocumentBytes : Option Document
  resultCreatedAt : Option ℤ
  resultUpdatedAt : Option ℤ
  resultDeletedAt : Option ℤ

variable {Document : Type}

def IdempotencyRow.key (row : IdempotencyRow Document) : String × MutationOperation × String :=
  (row.project, row.operation, row.idempotencyKeySha256)

def graphKey (row : GraphRecord Document) : String × String := (row.project, row.graph)

structure Database (Document : Type) where
  graphs : List (GraphRecord Document)
  idempotency : List (IdempotencyRow Document)

def Database.empty : Database Document := ⟨[], []⟩

def Database.graph (db : Database Document) (key : String × String) :
    Option (GraphRecord Document) := Tables.select graphKey db.graphs key

def Database.reservation (db : Database Document) (key : String × MutationOperation × String) :
    Option (IdempotencyRow Document) := Tables.select IdempotencyRow.key db.idempotency key

/-- What one call finds outside the store: whether the database gives up on its transaction,
the readings of `clock_timestamp()` its statement takes, and the token the revision factory
hands out. -/
structure Environment where
  aborts : Bool
  clock : ℤ
  laterClock : ℤ
  revision : String
  deriving Repr, DecidableEq

def failed (operation : String) : GraphStoreError :=
  ⟨.store, "The PostgreSQL graph-store " ++ operation ++ " failed."⟩

def corrupted (message : String) : GraphStoreError := ⟨.corruption, message⟩

/-- PostgreSQL texts hold no NUL character. -/
def isText (value : String) : Bool := !value.toList.contains '\x00'

end Schema

section Rows

variable {Document : Type} [DecidableEq Document] (contract : Contract Document)

def storedKey (project graph : String) : Except GraphStoreError Unit :=
  if isPortableId project && isPortableId graph then .ok ()
  else .error (corrupted "The PostgreSQL graph identity is invalid.")

def storedRevision (value : Option String) : Except GraphStoreError String :=
  match value with
  | some revision =>
    if isRevision revision then .ok revision
    else .error (corrupted "The PostgreSQL graph revision is invalid.")
  | none => .error (corrupted "The PostgreSQL graph revision is invalid.")

def storedSha256 (value : Option String) : Except GraphStoreError String :=
  match value with
  | some digest =>
    if isSha256 digest then .ok digest
    else .error (corrupted "The PostgreSQL graph content digest is invalid.")
  | none => .error (corrupted "The PostgreSQL graph content digest is invalid.")

def storedBytes (value : Option Document) : Except GraphStoreError Document :=
  match value with
  | some data => .ok data
  | none => .error (corrupted "The PostgreSQL graph document bytes are invalid.")

def storedTimestamp (value : Option ℤ) : Except GraphStoreError ℤ :=
  match value with
  | some instant => .ok instant
  | none => .error (corrupted "The PostgreSQL graph timestamp is invalid.")

/-- The columns of a stored graph, as a query returns them. -/
structure StoredColumns (Document : Type) where
  project : String
  graph : String
  documentBytes : Option Document
  revision : Option String
  contentSha256 : Option String
  createdAt : Option ℤ
  updatedAt : Option ℤ

def columns (row : GraphRecord Document) : StoredColumns Document where
  project := row.project
  graph := row.graph
  documentBytes := some row.document
  revision := some row.revision
  contentSha256 := some row.contentSha256
  createdAt := some row.createdAt
  updatedAt := some row.updatedAt

def recordFromRow (row : StoredColumns Document) (expectedKey : String × String) :
    Except GraphStoreError (GraphRecord Document) := do
  storedKey row.project row.graph
  if (row.project, row.graph) ≠ expectedKey then
    throw (corrupted "The PostgreSQL graph record is addressed incorrectly.")
  let revision ← storedRevision row.revision
  let contentSha256 ← storedSha256 row.contentSha256
  let data ← storedBytes row.documentBytes
  match contract.canonicalizeGraphDocument data with
  | .error _ =>
    throw (corrupted "The PostgreSQL graph record does not contain a valid canonical graph.")
  | .ok canonical =>
    if canonical.document ≠ data ∨ canonical.contentSha256 ≠ contentSha256 then
      throw (corrupted
        "The PostgreSQL graph record does not match its canonical content digest.")
    let created ← storedTimestamp row.createdAt
    let updated ← storedTimestamp row.updatedAt
    if updated < created then
      throw (corrupted "The PostgreSQL graph timestamps are inconsistent.")
    return ⟨row.project, row.graph, canonical.document, revision, contentSha256, created, updated⟩

def summaryFromRow (row : GraphRecord Document) (expectedProject : String) :
    Except GraphStoreError GraphSummary := do
  storedKey row.project row.graph
  if row.project ≠ expectedProject then
    throw (corrupted "The PostgreSQL graph page crossed a project boundary.")
  if row.updatedAt < row.createdAt then
    throw (corrupted "The PostgreSQL graph timestamps are inconsistent.")
  let revision ← storedRevision (some row.revision)
  let contentSha256 ← storedSha256 (some row.contentSha256)
  return ⟨row.project, row.graph, revision, contentSha256, row.createdAt, row.updatedAt⟩

def createReplayFromRow (row : IdempotencyRow Document) (expectedKey : String × String) :
    Except GraphStoreError (GraphRecord Document) :=
  recordFromRow contract
    { project := expectedKey.1
      graph := expectedKey.2
      documentBytes := row.resultDocumentBytes
      revision := row.resultRevision
      contentSha256 := row.resultContentSha256
      createdAt := row.resultCreatedAt
      updatedAt := row.resultUpdatedAt } expectedKey

def deleteReceiptFromRow (project graph : String) (revision contentSha256 : Option String)
    (deletedAt : Option ℤ) (expectedKey : String × String) :
    Except GraphStoreError GraphDeleteReceipt := do
  storedKey project graph
  if (project, graph) ≠ expectedKey then
    throw (corrupted "The PostgreSQL delete receipt is addressed incorrectly.")
  let revision ← storedRevision revision
  let contentSha256 ← storedSha256 contentSha256
  let deletedAt ← storedTimestamp deletedAt
  return ⟨project, graph, revision, contentSha256, deletedAt⟩

def deleteReplayFromRow (row : IdempotencyRow Document) (expectedKey : String × String) :
    Except GraphStoreError GraphDeleteReceipt :=
  deleteReceiptFromRow expectedKey.1 expectedKey.2 row.resultRevision row.resultContentSha256
    row.resultDeletedAt expectedKey

end Rows

section Statements

variable {Document : Type} (db : Database Document)

/-- A reservation without a result. -/
def reservationRow (project : String) (operation : MutationOperation)
    (idempotencyKeySha256 graph fingerprint : String) : IdempotencyRow Document where
  project := project
  operation := operation
  idempotencyKeySha256 := idempotencyKeySha256
  requestFingerprint := fingerprint
  graph := graph
  completed := false
  resultRevision := none
  resultContentSha256 := none
  resultDocumentBytes := none
  resultCreatedAt := none
  resultUpdatedAt := none
  resultDeletedAt := none

/-- Reserves the key, or finds the row that holds it. -/
def reserveIdempotency (project : String) (operation : MutationOperation)
    (idempotencyKeySha256 graph fingerprint : String) :
    Except GraphStoreError (Bool × IdempotencyRow Document × Database Document) := do
  let row := reservationRow project operation idempotencyKeySha256 graph fingerprint
  let inserted := (db.reservation row.key).isNone
  let db : Database Document :=
    { db with idempotency := Tables.insertNew IdempotencyRow.key db.idempotency row }
  match db.reservation row.key with
  | none => throw (corrupted "The PostgreSQL idempotency reservation disappeared.")
  | some row =>
    if row.requestFingerprint ≠ fingerprint ∨ row.graph ≠ graph then throw keyReused
    if inserted ∧ row.completed then
      throw (corrupted "The new PostgreSQL idempotency reservation is inconsistent.")
    if ¬ inserted ∧ ¬ row.completed then
      throw (corrupted "The PostgreSQL idempotency reservation has no durable result.")
    return (inserted, row, db)

/-- Writes the result of a reservation; the reservation must be the request's and open. -/
def completeReservation (key : String × MutationOperation × String) (fingerprint : String)
    (result : IdempotencyRow Document → IdempotencyRow Document) :
    Except GraphStoreError (Database Document) := do
  let isOpen := fun row : IdempotencyRow Document =>
    decide (row.requestFingerprint = fingerprint) && !row.completed
  if (db.reservation key).all (fun row => !isOpen row) then
    throw (corrupted ("The PostgreSQL " ++ key.2.1.value ++
      " idempotency result could not be committed."))
  return { db with
    idempotency := Tables.updateWhere IdempotencyRow.key db.idempotency key isOpen result }

def raiseMissingOrConflict (project graph : String) : GraphStoreError :=
  if (db.graph (project, graph)).isNone then graphNotFound else revisionStale

/-- `CHECK (created_at <= updated_at)` and the check of the digest. -/
def passesChecks (row : GraphRecord Document) : Bool :=
  decide (row.createdAt ≤ row.updatedAt) && isSha256 row.contentSha256

end Statements

section Operations

variable {Document : Type} [DecidableEq Document] (contract : Contract Document)
  (codec : CursorCodec) (collation : Collation) (environment : Environment)
  (db : Database Document)

/-- The rows a page is taken from, in the order of the database. -/
def pageRows (project : String) (after : Option String) : List (GraphRecord Document) :=
  (db.graphs.filter (fun row =>
    decide (row.project = project) && isAfter collation.le after row.graph)).insertionSort
      (fun first second => collation.le first.graph second.graph)

/-- The page that the rows of a query make; one row too many tells that there are more. -/
def pageFromRows (project : String) (size : ℕ) (rows : List (GraphRecord Document)) :
    Except GraphStoreError GraphPage := do
  let items ← (rows.take size).mapM (fun row => summaryFromRow row project)
  let nextCursor := items.getLast?.bind fun last =>
    if size < rows.length then some (encodeCursor codec project last.graph) else none
  return ⟨items, nextCursor⟩

def list (project : String) (cursor : Option String) (limit : ℤ) :
    Except GraphStoreError GraphPage := do
  let (size, after) ← checkedList codec project cursor limit
  if environment.aborts then throw (failed "list")
  pageFromRows codec project size ((pageRows collation db project after).take (size + 1))

def get (project graph : String) : Except GraphStoreError (GraphRecord Document) := do
  validatedGraphKey project graph
  if environment.aborts then throw (failed "read")
  match db.graph (project, graph) with
  | none => throw graphNotFound
  | some row => recordFromRow contract (columns row) (project, graph)

/-- The row an `INSERT` of a new graph writes. -/
def insertedRow (project graph : String) (canonical : CanonicalGraphDocument Document) :
    GraphRecord Document where
  project := project
  graph := graph
  document := canonical.document
  revision := environment.revision
  contentSha256 := canonical.contentSha256
  createdAt := environment.clock
  updatedAt := environment.laterClock

def createResult (record : GraphRecord Document) (canonical : CanonicalGraphDocument Document)
    (row : IdempotencyRow Document) : IdempotencyRow Document :=
  { row with
    completed := true
    resultRevision := some record.revision
    resultContentSha256 := some record.contentSha256
    resultDocumentBytes := some canonical.document
    resultCreatedAt := some record.createdAt
    resultUpdatedAt := some record.updatedAt }

/-- The rest of `create` once its key is reserved. -/
def createClaimed (reserved : Database Document) (project graph keySha256 fingerprint : String)
    (canonical : CanonicalGraphDocument Document) :
    Except GraphStoreError (GraphRecord Document × Database Document) := do
  validatedNewRevision environment.revision
  let row := insertedRow environment project graph canonical
  if ¬ isText row.revision ∨ ¬ passesChecks row then throw (failed "create")
  if (reserved.graph (graphKey row)).isSome then throw graphAlreadyExists
  let inserted : Database Document :=
    { reserved with graphs := Tables.insertNew graphKey reserved.graphs row }
  let record ← recordFromRow contract (columns row) (project, graph)
  let completed ← completeReservation inserted (project, .create, keySha256) fingerprint
    (createResult record canonical)
  return (record, completed)

def create (project graph : String) (document : Document) (idempotencyKey : String) :
    Except GraphStoreError (GraphRecord Document × Database Document) := do
  let canonical ← checkedCreate contract project graph document idempotencyKey
  let keySha256 := contract.sha256 idempotencyKey
  let fingerprint := createFingerprint contract project graph canonical.contentSha256
  if environment.aborts then throw (failed "create")
  let (claimed, reservation, reserved) ←
    reserveIdempotency db project .create keySha256 graph fingerprint
  if claimed then
    createClaimed contract environment reserved project graph keySha256 fingerprint canonical
  else
    let record ← createReplayFromRow contract reservation (project, graph)
    return (record, reserved)

/-- What the `UPDATE` of a graph makes of its row. -/
def updatedRow (canonical : CanonicalGraphDocument Document) (row : GraphRecord Document) :
    GraphRecord Document :=
  { row with
    document := canonical.document
    revision := environment.revision
    contentSha256 := canonical.contentSha256
    updatedAt := environment.clock }

def hasRevision (revision : String) (row : GraphRecord Document) : Bool :=
  decide (row.revision = revision)

def put (project graph : String) (document : Document) (expectedRevision : String) :
    Except GraphStoreError (GraphRecord Document × Database Document) := do
  let canonical ← checkedPut contract project graph document expectedRevision
  validatedNewRevision environment.revision
  if environment.revision = expectedRevision then
    throw (corrupted "The revision provider did not advance the PostgreSQL graph revision.")
  if environment.aborts ∨ ¬ isText environment.revision ∨ ¬ isText expectedRevision then
    throw (failed "update")
  match (db.graph (project, graph)).filter (hasRevision expectedRevision) with
  | none => throw (raiseMissingOrConflict db project graph)
  | some old =>
    let row := updatedRow environment canonical old
    if ¬ passesChecks row then throw (failed "update")
    let record ← recordFromRow contract (columns row) (project, graph)
    return (record,
      { db with
        graphs := Tables.updateWhere graphKey db.graphs (project, graph)
          (hasRevision expectedRevision) (updatedRow environment canonical) })

def deleteResult (receipt : GraphDeleteReceipt) (row : IdempotencyRow Document) :
    IdempotencyRow Document :=
  { row with
    completed := true
    resultRevision := some receipt.revision
    resultContentSha256 := some receipt.contentSha256
    resultDeletedAt := some receipt.deletedAt }

/-- The rest of `delete` once its key is reserved. -/
def deleteClaimed (reserved : Database Document)
    (project graph expectedRevision keySha256 fingerprint : String) :
    Except GraphStoreError (GraphDeleteReceipt × Database Document) := do
  if ¬ isText expectedRevision then throw (failed "delete")
  match (reserved.graph (project, graph)).filter (hasRevision expectedRevision) with
  | none => throw (raiseMissingOrConflict reserved project graph)
  | some old =>
    let deleted : Database Document :=
      { reserved with
        graphs := Tables.deleteWhere graphKey reserved.graphs (project, graph)
          (hasRevision expectedRevision) }
    let receipt ← deleteReceiptFromRow old.project old.graph (some old.revision)
      (some old.contentSha256) (some environment.clock) (project, graph)
    let completed ← completeReservation deleted (project, .delete, keySha256) fingerprint
      (deleteResult receipt)
    return (receipt, completed)

def delete (project graph expectedRevision idempotencyKey : String) :
    Except GraphStoreError (GraphDeleteReceipt × Database Document) := do
  checkedDelete project graph expectedRevision idempotencyKey
  let keySha256 := contract.sha256 idempotencyKey
  let fingerprint := deleteFingerprint contract project graph expectedRevision
  if environment.aborts then throw (failed "delete")
  let (claimed, reservation, reserved) ←
    reserveIdempotency db project .delete keySha256 graph fingerprint
  if claimed then
    deleteClaimed environment reserved project graph expectedRevision keySha256 fingerprint
  else
    let receipt ← deleteReplayFromRow reservation (project, graph)
    return (receipt, reserved)

/-- What a request answers and the database it leaves: it commits, or raises and is rolled
back. -/
def committed (result : Except GraphStoreError (Reply Document × Database Document)) :
    Except GraphStoreError (Reply Document) × Database Document :=
  match result with
  | .ok (reply, after) => (.ok reply, after)
  | .error e => (.error e, db)

def perform (request : Request Document) :
    Except GraphStoreError (Reply Document) × Database Document :=
  committed db <| match request with
    | .call (.get project graph) =>
      (get contract environment db project graph).map fun r => (.outcome (.record r), db)
    | .call (.create project graph document key) =>
      (create contract environment db project graph document key).map fun r =>
        (.outcome (.record r.1), r.2)
    | .call (.put project graph document revision) =>
      (put contract environment db project graph document revision).map fun r =>
        (.outcome (.record r.1), r.2)
    | .call (.delete project graph revision key) =>
      (delete contract environment db project graph revision key).map fun r =>
        (.outcome (.receipt r.1), r.2)
    | .list project cursor limit =>
      (list codec collation environment db project cursor limit).map fun p => (.page p, db)

end Operations

end Dander.PostgresqlGraphStore
