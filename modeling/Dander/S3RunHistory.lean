import Dander.S3RunStore
import Mathlib.Data.List.Dedup
import Mathlib.Data.List.Sort
import Mathlib.Data.String.Basic

/-!
# Attempts, mutation claims and pages of the S3 run store

Attempts and mutation claims are objects under prefixes of their own that are created once.
A page of runs is a listing of the snapshots' names followed by a read of each. The bucket is
kept as the histories of the three prefixes.
-/
namespace Dander.RunStore

open Interleaving ObjectStore Orchestration
open Schedule (jsonObject jsonString)

section Entries

variable {N V : Type} (readable : V → Bool)

abbrev EntryAction (N V α : Type) := Prog (Op N V) (fun o => Reply (Payload o)) RunStoreError α

/-- The read of `readObject`, under any prefix. -/
def readEntry (name : N) : ℕ → EntryAction N V (Option V)
  | 0 => .raise (.conflict "The S3 run-store object changed during the read.")
  | tries + 1 => .call (.head name) fun (head : Reply (Option ℕ)) =>
    match head with
    | .ok none => .ret none
    | .ok (some etag) => .call (.get name etag) fun (body : Reply V) =>
      match body with
      | .ok value =>
        if readable value then .ret (some value)
        else .raise (.corruption "An S3 run-store object exceeds its bound.")
      | .conflict => readEntry name tries
      | .failed => .raise (.failure "The S3 run-store read failed.")
    | _ => .raise (.failure "The S3 run-store metadata read failed.")

/-- Creates an object, and tells whether it was there already. -/
def createEntry (label : ℕ) (name : N) (value : V) : EntryAction N V Bool :=
  .call (.put name value none label) fun (reply : Reply ℕ) =>
    match reply with
    | .ok _ => .ret true
    | .conflict => .ret false
    | .failed => .raise (.failure "The S3 run-store write failed.")

def checkedId (valid : Bool) (label : String) : Except RunStoreError Unit :=
  if valid then .ok ()
  else .error (.corruption ("The S3 run-store " ++ label ++ " is invalid."))

end Entries

section Attempts

abbrev AttemptName := String × String

def attemptName (attempt : AttemptRecord) : Except RunStoreError AttemptName := do
  checkedId (isOpaqueId attempt.runId) "run identifier"
  checkedId (isOpaqueId attempt.attemptId) "attempt identifier"
  return (attempt.runId, attempt.attemptId)

/-- Creates one immutable attempt record; only the same record may be appended again. -/
def appendAttempt (readable : AttemptRecord → Bool) (label : ℕ) (attempt : AttemptRecord) :
    EntryAction AttemptName AttemptRecord Unit :=
  match attemptName attempt with
  | .error e => .raise e
  | .ok name =>
    createEntry label name attempt >>= fun created =>
      if created then .ret ()
      else readEntry readable name 3 >>= fun loaded =>
        match loaded with
        | none => .raise (.conflict "The S3 attempt append did not converge.")
        | some existing =>
          if existing = attempt then .ret ()
          else .raise (.conflict
            "The attempt identity already contains different immutable input.")

end Attempts

section Mutations

structure MutationEntry where
  keySha256 : String
  operation : String
  runId : String
  result : String
  deriving Repr, DecidableEq

/-- A mutation result as JSON decoding takes it; an object comes with its canonical text. -/
inductive ResultValue where
  | invalid
  | notMapping
  | mapping (canonical : String)
  deriving Repr, DecidableEq

/-- What the stores take from the JSON library. -/
structure ResultCodec where
  loads : String → ResultValue
  empty : loads "" = .invalid
  canonical : ∀ text value, loads text = .mapping value → loads value = .mapping value

def mutationSchema : String := "io.dander.control.mutation-idempotency/v1"

def maxMutationBytes : ℕ := 16 * 1024

def MutationEntry.serialize (entry : MutationEntry) : String :=
  jsonObject [("key_sha256", jsonString entry.keySha256), ("operation", jsonString entry.operation),
    ("result", entry.result), ("run_id", jsonString entry.runId),
    ("schema", jsonString mutationSchema)]

def MutationEntry.fits (entry : MutationEntry) : Bool :=
  decide (entry.serialize.utf8ByteSize ≤ maxMutationBytes)

/-- The entry a mutation claim writes. -/
def mutationEntry (codec : ResultCodec) (keySha256 operation runId result : String) :
    Except RunStoreError MutationEntry := do
  checkedId (isSha256 keySha256) "mutation key identity"
  checkedId (isPortableId operation) "mutation operation identifier"
  checkedId (isOpaqueId runId) "run identifier"
  match codec.loads result with
  | .invalid => throw (.corruption "The mutation result is invalid.")
  | .notMapping => throw (.corruption "An S3 run-store object is invalid.")
  | .mapping canonical =>
    let entry : MutationEntry := ⟨keySha256, operation, runId, canonical⟩
    if entry.fits then return entry
    else throw (.corruption "The mutation result exceeds its durable bound.")

/-- Claims one mutation key, and answers with the result of its first claim. -/
def claimMutation (codec : ResultCodec) (label : ℕ)
    (keySha256 operation runId result : String) : EntryAction String MutationEntry String :=
  match mutationEntry codec keySha256 operation runId result with
  | .error e => .raise e
  | .ok entry =>
    createEntry label keySha256 entry >>= fun created =>
      if created then .ret entry.result
      else readEntry MutationEntry.fits keySha256 3 >>= fun loaded =>
        match loaded with
        | none => .raise (.conflict "The S3 mutation idempotency claim did not converge.")
        | some existing =>
          if existing.keySha256 ≠ keySha256 ∨ existing.operation ≠ operation ∨
              existing.runId ≠ runId then
            .raise (.idempotencyConflict
              "The mutation idempotency key belongs to a different operation.")
          else .ret existing.result

end Mutations

section Pages

/-- Base64 of texts, as cursors use it. -/
structure Base64 where
  encode : String → String
  decode : String → Option String
  decode_encode : ∀ text, decode (encode text) = some text

structure StoredRunPage where
  items : List StoredRun
  nextCursor : Option String
  deriving Repr, DecidableEq

variable (base64 : Base64) (runPrefix : String) (readable : ObjectValue → Bool)
  (history : History ObjectName ObjectValue)

/-- The name of a run's snapshot. -/
def runName (runId : String) : String := runPrefix ++ runId ++ ".json"

/-- The run identifier in the name of a snapshot, if the name has the right layout. -/
def runIdOfName (name : String) : Option String :=
  let chars := name.toList
  let start := runPrefix.toList.length
  if chars.take start = runPrefix.toList ∧ start + 5 ≤ chars.length ∧
      chars.drop (chars.length - 5) = ['.', 'j', 's', 'o', 'n'] then
    some (String.ofList ((chars.drop start).take (chars.length - 5 - start)))
  else none

def encodeCursor (runId : String) : String := base64.encode (runName runPrefix runId)

/-- The run a cursor names. -/
def decodeCursor (cursor : Option String) : Except RunStoreError (Option String) :=
  match cursor with
  | none => .ok none
  | some text =>
    if text = "" ∨ 1024 < text.toList.length then
      .error (.corruption "The S3 run-store cursor is invalid.")
    else match (base64.decode text).bind (runIdOfName runPrefix) with
      | none => .error (.corruption "The S3 run-store cursor is invalid.")
      | some runId =>
        if isOpaqueId runId then .ok (some runId)
        else .error (.corruption "The S3 run-store run identifier is invalid.")

def checkedPageSize (limit : ℤ) (message : String) : Except RunStoreError ℕ :=
  if 1 ≤ limit ∧ limit ≤ 100 then .ok limit.toNat else .error (.corruption message)

/-- The order in which names below one prefix are listed. -/
def nameLe (first second : String) : Prop := first ++ ".json" ≤ second ++ ".json"

instance : DecidableRel nameLe := fun first second =>
  inferInstanceAs (Decidable (first ++ ".json" ≤ second ++ ".json"))

/-- The runs with a snapshot. -/
def runIds : List String :=
  (history.filterMap (fun write => match write.name with
    | .run runId => some runId
    | .idempotency _ => none)).dedup.filter (fun runId => (current history (.run runId)).isSome)

/-- What a listing holds after a name. -/
def listedAfter (after : Option String) : List String :=
  ((runIds history).filter (fun runId => after.all fun item => decide (¬ nameLe runId item))).insertionSort
    nameLe

def readListed (runId : String) : Except RunStoreError StoredRun :=
  match (serve (get readable runId) history).1 with
  | .error e => .error e
  | .ok none => .error (.conflict "An S3 run snapshot disappeared during pagination.")
  | .ok (some stored) => .ok stored

def list (cursor : Option String) (limit : ℤ) : Except RunStoreError StoredRunPage := do
  let size ← checkedPageSize limit "The S3 run-store page size is invalid."
  let after ← decodeCursor base64 runPrefix cursor
  let listed := listedAfter history after
  let entries := listed.take (size + 1)
  let selected := entries.take size
  let items ← selected.mapM (readListed readable history)
  let hasMore := size < entries.length || decide (entries.length < listed.length)
  let nextCursor := selected.getLast?.bind fun last =>
    if hasMore then some (encodeCursor base64 runPrefix last) else none
  return ⟨items, nextCursor⟩

end Pages

section Bucket

/-- The requests of a run store. -/
inductive StoreRequest where
  | call (request : Request)
  | appendAttempt (attempt : AttemptRecord)
  | claimMutation (keySha256 operation runId result : String)
  | list (cursor : Option String) (limit : ℤ)
  deriving Repr, DecidableEq

inductive StoreReply where
  | response (response : Response)
  | appended
  | mutation (result : String)
  | page (page : StoredRunPage)
  deriving Repr, DecidableEq

/-- The three prefixes of the bucket. -/
structure Bucket where
  runs : History ObjectName ObjectValue
  attempts : History AttemptName AttemptRecord
  mutations : History String MutationEntry

def Bucket.empty : Bucket := ⟨[], [], []⟩

/-- What the store takes from the platform, and which objects fit the bounds of its reads. -/
structure Settings where
  base64 : Base64
  codec : ResultCodec
  runPrefix : String
  readable : ObjectValue → Bool
  readableAttempt : AttemptRecord → Bool

variable (settings : Settings) (label : ℕ) (bucket : Bucket)

/-- One request, run to its end. -/
def Bucket.perform : StoreRequest → Except RunStoreError StoreReply × Bucket
  | .call request =>
    let result := serve (RunStore.perform settings.readable ⟨label, request⟩) bucket.runs
    (result.1.map .response, { bucket with runs := result.2 })
  | .appendAttempt attempt =>
    let result := serve (RunStore.appendAttempt settings.readableAttempt label attempt)
      bucket.attempts
    (result.1.map fun _ => .appended, { bucket with attempts := result.2 })
  | .claimMutation keySha256 operation runId result =>
    let result := serve (RunStore.claimMutation settings.codec label keySha256 operation runId
      result) bucket.mutations
    (result.1.map .mutation, { bucket with mutations := result.2 })
  | .list cursor limit =>
    ((RunStore.list settings.base64 settings.runPrefix settings.readable bucket.runs cursor
      limit).map .page, bucket)

end Bucket

end Dander.RunStore
