import Dander.ObjectStore
import Dander.Orchestration

/-!
# The S3 run store

A claim writes an idempotency entry and then the run snapshot the entry describes, as two
conditional puts; whoever finds an entry without its snapshot creates the snapshot from
the entry. A save replaces a snapshot at the revision the caller holds.
-/
namespace Dander.RunStore

open Interleaving ObjectStore Orchestration

/-- What an idempotency key is scoped by. -/
structure Scope where
  environment : String
  project : String
  keySha256 : String
  deriving Repr, DecidableEq

def RunRecord.scope (record : RunRecord) : Scope :=
  ⟨record.environment, record.project, record.idempotencyKeySha256⟩

/-- Object names by what they address. -/
inductive ObjectName where
  | run (runId : String)
  | idempotency (scope : Scope)
  deriving Repr, DecidableEq

structure IdempotencyEntry where
  environment : String
  project : String
  keySha256 : String
  runId : String
  submissionSha256 : String
  initialRecord : RunRecord
  deriving Repr, DecidableEq

inductive ObjectValue where
  | run (record : RunRecord)
  | idempotency (entry : IdempotencyEntry)
  deriving Repr, DecidableEq

abbrev Action (α : Type) :=
  Prog (Op ObjectName ObjectValue) (fun o => Reply (Payload o)) RunStoreError α

section Program

variable (readable : ObjectValue → Bool)

/-- Reads an object pinned to the tag its metadata had, a few times if it changes between.
`readable` stands for the size bound and the decoding of a value that was written. -/
def readObject (name : ObjectName) : ℕ → Action (Option (ObjectValue × ℕ))
  | 0 => .raise (.conflict "The S3 run-store object changed during the read.")
  | tries + 1 => .call (.head name) fun (head : Reply (Option ℕ)) =>
    match head with
    | .ok none => .ret none
    | .ok (some etag) => .call (.get name etag) fun (body : Reply ObjectValue) =>
      match body with
      | .ok value =>
        if readable value then .ret (some (value, etag))
        else .raise (.corruption "An S3 run-store object exceeds its bound.")
      | .conflict => readObject name tries
      | .failed => .raise (.failure "The S3 run-store read failed.")
    | _ => .raise (.failure "The S3 run-store metadata read failed.")

/-- A conditional write whose conflict the caller handles. -/
def tryWriteObject (label : ℕ) (name : ObjectName) (value : ObjectValue)
    (expectedEtag : Option ℕ) : Action (Option ℕ) :=
  .call (.put name value expectedEtag label) fun (reply : Reply ℕ) =>
    match reply with
    | .ok etag => .ret (some etag)
    | .conflict => .ret none
    | .failed => .raise (.failure "The S3 run-store write failed.")

def get (runId : String) : Action (Option StoredRun) :=
  if !isOpaqueId runId then
    .raise (.corruption "The S3 run-store run identifier is invalid.")
  else readObject readable (.run runId) 3 >>= fun loaded =>
    match loaded with
    | none => .ret none
    | some (.idempotency _, _) => .raise (.corruption "An S3 run snapshot is invalid.")
    | some (.run record, etag) =>
      if record.runId ≠ runId then
        .raise (.corruption "An S3 run snapshot is addressed incorrectly.")
      else .ret (some ⟨record, etag⟩)

/-- The name of a scoped key, once its parts have the right syntax. -/
def idempotencyName (scope : Scope) : Except RunStoreError ObjectName :=
  if !isPortableId scope.environment then
    .error (.corruption "The S3 run-store environment identifier is invalid.")
  else if !isPortableId scope.project then
    .error (.corruption "The S3 run-store project identifier is invalid.")
  else if !isSha256 scope.keySha256 then
    .error (.corruption "The S3 run-store idempotency key identity is invalid.")
  else .ok (.idempotency scope)

def validateInitialRecord (record : RunRecord) : Bool :=
  record.runState = .queued && record.attemptCount = 0 && record.backendHandle.isNone

def entryOf (record : RunRecord) : IdempotencyEntry :=
  ⟨record.environment, record.project, record.idempotencyKeySha256, record.runId,
    record.submissionSha256, record⟩

/-- The consistency a decoded entry must have with the record inside it. -/
def IdempotencyEntry.isConsistent (entry : IdempotencyEntry) : Bool :=
  entry.initialRecord.environment = entry.environment &&
    entry.initialRecord.project = entry.project &&
    entry.initialRecord.idempotencyKeySha256 = entry.keySha256 &&
    entry.initialRecord.runId = entry.runId &&
    entry.initialRecord.submissionSha256 = entry.submissionSha256

def deserializeEntry : ObjectValue → Except RunStoreError IdempotencyEntry
  | .run _ => .error (.corruption "An S3 run idempotency object is invalid.")
  | .idempotency entry =>
    if entry.isConsistent then .ok entry
    else .error (.corruption "An S3 run idempotency object is inconsistent.")

/-- Whether a claim repeats the one its entry records. -/
def validateReplay (entry : IdempotencyEntry) (record : RunRecord) : Except RunStoreError Unit :=
  if entry.environment ≠ record.environment || entry.project ≠ record.project ||
      entry.keySha256 ≠ record.idempotencyKeySha256 || entry.runId ≠ record.runId then
    .error (.corruption "An S3 run idempotency object is addressed incorrectly.")
  else if entry.submissionSha256 ≠ record.submissionSha256 then
    .error (.idempotencyConflict
      "The idempotency key belongs to a different logical submission.")
  else .ok ()

def validateSnapshotReplay (entry : IdempotencyEntry) (record : RunRecord) :
    Except RunStoreError Unit :=
  if entry.runId ≠ record.runId || entry.environment ≠ record.environment ||
      entry.project ≠ record.project || entry.keySha256 ≠ record.idempotencyKeySha256 ||
      entry.submissionSha256 ≠ record.submissionSha256 then
    .error (.corruption "An S3 run snapshot contradicts its idempotency claim.")
  else .ok ()

/-- A computation without store calls. -/
def liftExcept {α : Type} : Except RunStoreError α → Action α
  | .ok value => .ret value
  | .error e => .raise e

/-- The snapshot of an entry: the stored one, or a new one from the entry's record. The
flag tells whether the snapshot was found after this call lost the race to create it. -/
def adoptSnapshot (label : ℕ) (entry : IdempotencyEntry) (message : String) :
    Action (StoredRun × Bool) :=
  get readable entry.runId >>= fun existing =>
    match existing with
    | some existing => liftExcept (validateSnapshotReplay entry existing.record) >>= fun _ =>
      .ret (existing, false)
    | none =>
      tryWriteObject label (.run entry.runId) (.run entry.initialRecord) none >>= fun written =>
        match written with
        | some revision => .ret (⟨entry.initialRecord, revision⟩, false)
        | none => get readable entry.runId >>= fun existing =>
          match existing with
          | none => .raise (.conflict message)
          | some existing =>
            liftExcept (validateSnapshotReplay entry existing.record) >>= fun _ =>
              .ret (existing, true)

/-- The entry a claim works with, and whether this claim created it. -/
def claimEntry (label : ℕ) (name : ObjectName) (record : RunRecord) :
    Action (IdempotencyEntry × Bool) :=
  tryWriteObject label name (.idempotency (entryOf record)) none >>= fun written =>
    match written with
    | some _ => .ret (entryOf record, true)
    | none => readObject readable name 3 >>= fun loaded =>
      match loaded with
      | none => .raise (.conflict "The S3 run idempotency claim did not converge.")
      | some (value, _) => liftExcept (deserializeEntry value) >>= fun entry =>
        liftExcept (validateReplay entry record) >>= fun _ => .ret (entry, false)

/-- Claims one scoped idempotency key and repairs an interrupted snapshot creation. -/
def claim (label : ℕ) (record : RunRecord) : Action RunClaim :=
  if !validateInitialRecord record then
    .raise (.conflict "A run claim must contain a pristine queued snapshot.")
  else liftExcept (idempotencyName (RunRecord.scope record)) >>= fun name =>
    claimEntry readable label name record >>= fun claimed =>
      adoptSnapshot readable label claimed.1
          "The S3 run snapshot create did not converge." >>= fun adopted =>
        .ret ⟨adopted.1, claimed.2 && !adopted.2⟩

/-- Resolves a scoped claim and repairs its missing snapshot. -/
def findIdempotency (label : ℕ) (scope : Scope) : Action (Option StoredRun) :=
  liftExcept (idempotencyName scope) >>= fun name =>
    readObject readable name 3 >>= fun loaded =>
      match loaded with
      | none => .ret none
      | some (value, _) => liftExcept (deserializeEntry value) >>= fun entry =>
        if entry.environment ≠ scope.environment || entry.project ≠ scope.project ||
            entry.keySha256 ≠ scope.keySha256 then
          .raise (.corruption "An S3 run idempotency object is addressed incorrectly.")
        else adoptSnapshot readable label entry
            "The S3 run snapshot recovery did not converge." >>= fun adopted =>
          .ret (some adopted.1)

/-- Replaces one run snapshot only at the caller's revision. -/
def save (label : ℕ) (stored : StoredRun) (record : RunRecord) : Action StoredRun :=
  if !sameRunIdentity stored.record record then
    .raise (.conflict "A run snapshot cannot change its durable identity.")
  else tryWriteObject label (.run record.runId) (.run record) (some stored.revision) >>=
    fun written =>
      match written with
      | none => .raise (.conflict "The S3 run-store precondition failed.")
      | some revision => .ret ⟨record, revision⟩

end Program

section Calls

inductive Request where
  | claim (record : RunRecord)
  | get (runId : String)
  | findIdempotency (scope : Scope)
  | save (stored : StoredRun) (record : RunRecord)
  deriving Repr, DecidableEq

/-- A request of one worker; the label tells its writes from those of other calls. -/
structure Call where
  label : ℕ
  request : Request
  deriving Repr, DecidableEq

inductive Response where
  | claim (result : RunClaim)
  | get (result : Option StoredRun)
  | findIdempotency (result : Option StoredRun)
  | save (result : StoredRun)
  deriving Repr, DecidableEq

def perform (readable : ObjectValue → Bool) (call : Call) : Action Response :=
  match call.request with
  | .claim record => claim readable call.label record >>= fun result => .ret (.claim result)
  | .get runId => get readable runId >>= fun result => .ret (.get result)
  | .findIdempotency scope =>
    findIdempotency readable call.label scope >>= fun result => .ret (.findIdempotency result)
  | .save stored record => save call.label stored record >>= fun result => .ret (.save result)

end Calls

end Dander.RunStore
