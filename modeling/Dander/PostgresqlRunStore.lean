import Dander.GraphPages
import Dander.S3RunHistory
import Dander.Tables

/-!
# The run store in PostgreSQL

Runs, attempts and mutation claims are three tables. Each call is one transaction; what it
would write must pass the constraints of the tables, or it raises and leaves them as they were.
-/
namespace Dander.PostgresqlRunStore

open Orchestration
open RunStore (Scope ResultCodec ResultValue Base64 validateInitialRecord maxMutationBytes)
open GraphStore (Collation)

section Schema

structure RunRow where
  runId : String
  environment : String
  project : String
  idempotencyKeySha256 : String
  submissionSha256 : String
  recordBytes : RunRecord
  revision : String
  needsReconciliation : Bool
  deriving Repr, DecidableEq

def RunRow.scope (row : RunRow) : Scope := ⟨row.environment, row.project, row.idempotencyKeySha256⟩

structure AttemptRow where
  runId : String
  attemptId : String
  attemptNumber : ℕ
  recordBytes : AttemptRecord
  deriving Repr, DecidableEq

def AttemptRow.key (row : AttemptRow) : String × String := (row.runId, row.attemptId)

def AttemptRow.number (row : AttemptRow) : String × ℕ := (row.runId, row.attemptNumber)

structure MutationRow where
  keySha256 : String
  operation : String
  runId : String
  resultBytes : String
  deriving Repr, DecidableEq

structure Database where
  runs : List RunRow
  attempts : List AttemptRow
  mutations : List MutationRow
  deriving Repr, DecidableEq

def Database.empty : Database := ⟨[], [], []⟩

def Database.run (db : Database) (runId : String) : Option RunRow :=
  Tables.select RunRow.runId db.runs runId

def Database.claimed (db : Database) (scope : Scope) : Option RunRow :=
  Tables.select RunRow.scope db.runs scope

def Database.attempt (db : Database) (key : String × String) : Option AttemptRow :=
  Tables.select AttemptRow.key db.attempts key

def Database.mutation (db : Database) (keySha256 : String) : Option MutationRow :=
  Tables.select MutationRow.keySha256 db.mutations keySha256

end Schema

section Rows

structure StoredRun where
  record : RunRecord
  revision : String
  deriving Repr, DecidableEq

structure RunClaim where
  stored : StoredRun
  created : Bool
  deriving Repr, DecidableEq

structure StoredRunPage where
  items : List StoredRun
  nextCursor : Option String
  deriving Repr, DecidableEq

def checkedId (valid : Bool) (label : String) : Except RunStoreError Unit :=
  if valid then .ok ()
  else .error (.corruption ("The PostgreSQL run-store " ++ label ++ " is invalid."))

def checkedRevision (value : String) : Except RunStoreError Unit :=
  if isSha256 value then .ok () else .error (.corruption "The PostgreSQL run revision is invalid.")

def rowOf (record : RunRecord) (revision : String) : RunRow where
  runId := record.runId
  environment := record.environment
  project := record.project
  idempotencyKeySha256 := record.idempotencyKeySha256
  submissionSha256 := record.submissionSha256
  recordBytes := record
  revision := revision
  needsReconciliation := runNeedsReconciliation record

def storedRunFromRow (row : RunRow) (expectedRunId : Option String)
    (expectedLookup : Option Scope) : Except RunStoreError StoredRun := do
  checkedId (isOpaqueId row.runId) "run identifier"
  checkedId (isPortableId row.environment) "environment identifier"
  checkedId (isPortableId row.project) "project identifier"
  checkedId (isSha256 row.idempotencyKeySha256) "idempotency key identity"
  checkedId (isSha256 row.submissionSha256) "submission identity"
  if expectedRunId.any (fun runId => row.runId ≠ runId) then
    throw (.corruption "The PostgreSQL run snapshot is addressed incorrectly.")
  if expectedLookup.any (fun scope => row.scope ≠ scope) then
    throw (.corruption "The PostgreSQL run idempotency lookup is addressed incorrectly.")
  let record := row.recordBytes
  if record.runId ≠ row.runId ∨ record.environment ≠ row.environment ∨
      record.project ≠ row.project ∨ record.idempotencyKeySha256 ≠ row.idempotencyKeySha256 ∨
      record.submissionSha256 ≠ row.submissionSha256 then
    throw (.corruption "The PostgreSQL run snapshot contradicts its indexed identity.")
  checkedRevision row.revision
  return ⟨record, row.revision⟩

def validateClaimReplay (existing proposed : RunRecord) : Except RunStoreError Unit :=
  if existing.environment ≠ proposed.environment ∨ existing.project ≠ proposed.project ∨
      existing.idempotencyKeySha256 ≠ proposed.idempotencyKeySha256 ∨
      existing.runId ≠ proposed.runId then
    .error (.corruption "The PostgreSQL run snapshot contradicts its idempotency address.")
  else if existing.submissionSha256 ≠ proposed.submissionSha256 then
    .error (.idempotencyConflict
      "The idempotency key belongs to a different logical submission.")
  else .ok ()

def attemptFromRow (row : AttemptRow) (expectedKey : String × String) :
    Except RunStoreError AttemptRecord := do
  checkedId (isOpaqueId row.runId) "run identifier"
  checkedId (isOpaqueId row.attemptId) "attempt identifier"
  if row.attemptNumber < 1 then throw (.corruption "The PostgreSQL attempt number is invalid.")
  if row.key ≠ expectedKey then
    throw (.corruption "The PostgreSQL attempt record is addressed incorrectly.")
  let attempt := row.recordBytes
  if attempt.runId ≠ row.runId ∨ attempt.attemptId ≠ row.attemptId ∨
      attempt.attemptNumber ≠ row.attemptNumber then
    throw (.corruption "The PostgreSQL attempt record contradicts its indexed identity.")
  return attempt

/-- The canonical text of a mutation result within its bounds. -/
def canonicalMutationResult (codec : ResultCodec) (value : String) :
    Except RunStoreError String := do
  if value = "" ∨ maxMutationBytes < value.utf8ByteSize then
    throw (.corruption
      "The PostgreSQL mutation result is missing or exceeds its durable bound.")
  match codec.loads value with
  | .mapping canonical =>
    if maxMutationBytes < canonical.utf8ByteSize then
      throw (.corruption "The PostgreSQL mutation result exceeds its durable bound.")
    return canonical
  | _ => throw (.corruption "The PostgreSQL mutation result is invalid.")

end Rows

section Operations

variable (db : Database) (token : String)

def claim (record : RunRecord) : Except RunStoreError (RunClaim × Database) := do
  if !validateInitialRecord record then
    throw (.conflict "A run claim must contain a pristine queued snapshot.")
  checkedRevision token
  let row := rowOf record token
  if (db.run row.runId).isNone && (db.claimed row.scope).isNone then
    let stored ← storedRunFromRow row (some record.runId) none
    return (⟨stored, true⟩, { db with runs := db.runs ++ [row] })
  else
    match db.claimed row.scope with
    | none => throw (.conflict "The run identity is already claimed by a different request.")
    | some existing =>
      let stored ← storedRunFromRow existing none none
      validateClaimReplay stored.record record
      return (⟨stored, false⟩, db)

def get (runId : String) : Except RunStoreError (Option StoredRun) := do
  checkedId (isOpaqueId runId) "run identifier"
  match db.run runId with
  | none => return none
  | some row =>
    let stored ← storedRunFromRow row (some runId) none
    return some stored

def findIdempotency (scope : Scope) : Except RunStoreError (Option StoredRun) := do
  checkedId (isPortableId scope.environment) "environment identifier"
  checkedId (isPortableId scope.project) "project identifier"
  checkedId (isSha256 scope.keySha256) "idempotency key identity"
  match db.claimed scope with
  | none => return none
  | some row =>
    let stored ← storedRunFromRow row none (some scope)
    return some stored

def hasRevision (revision : String) (row : RunRow) : Bool := decide (row.revision = revision)

/-- What the `UPDATE` of a run makes of its row. -/
def savedRow (record : RunRecord) (revision : String) (row : RunRow) : RunRow :=
  { row with
    recordBytes := record
    revision := revision
    needsReconciliation := runNeedsReconciliation record }

def save (stored : StoredRun) (record : RunRecord) :
    Except RunStoreError (StoredRun × Database) := do
  if !sameRunIdentity stored.record record then
    throw (.conflict "A run snapshot cannot change its durable identity.")
  checkedRevision stored.revision
  checkedRevision token
  if token = stored.revision then
    throw (.corruption "The PostgreSQL run revision provider did not advance.")
  match (db.run record.runId).filter (hasRevision stored.revision) with
  | none => throw (.conflict "The PostgreSQL run-store precondition failed.")
  | some row =>
    let saved ← storedRunFromRow (savedRow record token row) (some record.runId) none
    return (saved,
      { db with
        runs := Tables.updateWhere RunRow.runId db.runs record.runId
          (hasRevision stored.revision) (savedRow record token) })

def attemptRow (attempt : AttemptRecord) : AttemptRow :=
  ⟨attempt.runId, attempt.attemptId, attempt.attemptNumber, attempt⟩

/-- The largest `INTEGER`. -/
def maxInteger : ℕ := 2147483647

/-- An insert that meets a row with its identity or number does nothing; an attempt of a run
that is not there violates the foreign key. -/
def appendAttempt (attempt : AttemptRecord) : Except RunStoreError Database := do
  if maxInteger < attempt.attemptNumber then
    throw (.failure "The PostgreSQL attempt append failed.")
  let row := attemptRow attempt
  if (db.attempt row.key).isNone &&
      (Tables.select AttemptRow.number db.attempts row.number).isNone then
    if (db.run attempt.runId).isNone then
      throw (.failure "The PostgreSQL attempt append failed.")
    return { db with attempts := db.attempts ++ [row] }
  else
    match db.attempt row.key with
    | none =>
      throw (.conflict "The attempt number already contains different immutable input.")
    | some row =>
      let existing ← attemptFromRow row (attempt.runId, attempt.attemptId)
      if existing ≠ attempt then
        throw (.conflict "The attempt identity already contains different immutable input.")
      return db

def claimMutation (codec : ResultCodec) (keySha256 operation runId result : String) :
    Except RunStoreError (String × Database) := do
  checkedId (isSha256 keySha256) "mutation key identity"
  checkedId (isPortableId operation) "mutation operation identifier"
  checkedId (isOpaqueId runId) "run identifier"
  let canonical ← canonicalMutationResult codec result
  let inserted := Tables.insertNew MutationRow.keySha256 db.mutations
    ⟨keySha256, operation, runId, canonical⟩
  match Tables.select MutationRow.keySha256 inserted keySha256 with
  | none => throw (.corruption "The PostgreSQL mutation idempotency claim disappeared.")
  | some row =>
    checkedId (isSha256 row.keySha256) "mutation key identity"
    checkedId (isPortableId row.operation) "mutation operation identifier"
    checkedId (isOpaqueId row.runId) "run identifier"
    if row.keySha256 ≠ keySha256 ∨ row.operation ≠ operation ∨ row.runId ≠ runId then
      throw (.idempotencyConflict
        "The mutation idempotency key belongs to a different operation.")
    let stored ← canonicalMutationResult codec row.resultBytes
    if stored ≠ row.resultBytes then
      throw (.corruption "The PostgreSQL mutation result is not canonical.")
    return (row.resultBytes, { db with mutations := inserted })

end Operations

section Pages

variable (base64 : Base64) (collation : Collation) (db : Database)

def encodeCursor (runId : String) : Except RunStoreError String := do
  checkedId (isOpaqueId runId) "run identifier"
  return base64.encode runId

/-- The run a cursor names; only the cursor that would be handed out for it is taken. -/
def decodeCursor (cursor : Option String) : Except RunStoreError (Option String) :=
  match cursor with
  | none => .ok none
  | some text => do
    if text = "" ∨ 1024 < text.toList.length then
      throw (.corruption "The PostgreSQL run-store cursor is invalid.")
    match base64.decode text with
    | none => throw (.corruption "The PostgreSQL run-store cursor is invalid.")
    | some runId =>
      let expected ← encodeCursor base64 runId
      if expected ≠ text then
        throw (.corruption "The PostgreSQL run-store cursor is invalid.")
      return some runId

/-- The rows of a page in the order of the database, of all runs or of those that still need
reconciliation. -/
def pageRows (pendingOnly : Bool) (after : Option String) : List RunRow :=
  (db.runs.filter (fun row => (!pendingOnly || row.needsReconciliation) &&
    GraphStore.isAfter collation.le after row.runId)).insertionSort
      (fun first second => collation.le first.runId second.runId)

def list (pendingOnly : Bool) (cursor : Option String) (limit : ℤ) :
    Except RunStoreError StoredRunPage := do
  let size ← RunStore.checkedPageSize limit "The PostgreSQL run-store page size is invalid."
  let after ← decodeCursor base64 cursor
  let rows := (pageRows collation db pendingOnly after).take (size + 1)
  let items ← (rows.take size).mapM (fun row => storedRunFromRow row none none)
  let nextCursor ← match items.getLast? with
    | some last =>
      if size < rows.length then (encodeCursor base64 last.record.runId).map some
      else pure none
    | none => pure none
  return ⟨items, nextCursor⟩

end Pages

section Requests

inductive StoreRequest where
  | claim (record : RunRecord)
  | get (runId : String)
  | findIdempotency (scope : Scope)
  | save (stored : StoredRun) (record : RunRecord)
  | appendAttempt (attempt : AttemptRecord)
  | claimMutation (keySha256 operation runId result : String)
  | list (cursor : Option String) (limit : ℤ)
  | listPending (cursor : Option String) (limit : ℤ)
  deriving Repr, DecidableEq

inductive StoreReply where
  | claim (result : RunClaim)
  | found (result : Option StoredRun)
  | saved (result : StoredRun)
  | appended
  | mutation (result : String)
  | page (page : StoredRunPage)
  deriving Repr, DecidableEq

variable (base64 : Base64) (codec : ResultCodec) (collation : Collation) (token : String)
  (db : Database)

/-- What a request answers and the database it leaves: it commits, or raises and is rolled
back. -/
def committed (result : Except RunStoreError (StoreReply × Database)) :
    Except RunStoreError StoreReply × Database :=
  match result with
  | .ok (reply, after) => (.ok reply, after)
  | .error e => (.error e, db)

def perform (request : StoreRequest) : Except RunStoreError StoreReply × Database :=
  committed db <| match request with
    | .claim record => (claim db token record).map fun r => (.claim r.1, r.2)
    | .get runId => (get db runId).map fun r => (.found r, db)
    | .findIdempotency scope => (findIdempotency db scope).map fun r => (.found r, db)
    | .save stored record => (save db token stored record).map fun r => (.saved r.1, r.2)
    | .appendAttempt attempt => (appendAttempt db attempt).map fun after => (.appended, after)
    | .claimMutation keySha256 operation runId result =>
      (claimMutation db codec keySha256 operation runId result).map fun r => (.mutation r.1, r.2)
    | .list cursor limit =>
      (list base64 collation db false cursor limit).map fun p => (.page p, db)
    | .listPending cursor limit =>
      (list base64 collation db true cursor limit).map fun p => (.page p, db)

end Requests

end Dander.PostgresqlRunStore
