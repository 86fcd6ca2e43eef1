import Dander.Interleaving
import Mathlib

/-!
# The pipeline runner

One run extracts each selected endpoint from its watermark, hands the records to the
writer in batches, as one stream or as one buffer, and commits the largest cursor it
saw with a compare-and-set. Every provider call is an operation that may raise, and a
run may be cut between any two of them.
-/
namespace Dander.Runtime

open Interleaving

/-- The errors a run raises itself, and those of the providers it calls. -/
inductive RunError where
  | rawSchema (message : String)
  | cursorValue (message : String)
  | watermarkConflict (message : String)
  | runtime (message : String)
  | provider
  deriving Repr, DecidableEq

structure Endpoint where
  name : String
  incrementalCursor : Option String
  cursorParam : Option String
  declaresSchema : Bool
  deriving Repr, DecidableEq

/-- A configured source; endpoint identifiers are unique within it. -/
structure SourceConfig where
  name : String
  endpoints : List Endpoint
  names_unique : (endpoints.map Endpoint.name).Nodup

/-- How the writer takes records: `supports_batched_writes` comes before
`accepts_streaming_input`. -/
inductive WriterMode where
  | batched
  | streaming
  | buffered
  deriving Repr, DecidableEq

/-- The options of a runner and of the ownership one run was given. -/
structure RunOptions where
  mode : WriterMode
  batchRows : ℕ
  batch_legal : 1 ≤ batchRows ∧ batchRows ≤ 100000
  resumeFromWatermark : Bool
  endpointNames : Option (List String)
  hasHistory : Bool
  hasOwnership : Bool
  hasFence : Bool
  hasTargetFence : Bool
  requiresPublicationFence : Bool

/-- What the runner does with a record of its own: it normalizes it against the declared
schema and reads a field as cursor text, when the field holds a scalar. -/
structure RecordPort (Record : Type) where
  normalizeRecord : Endpoint → ℕ → Record → Except RunError Record
  cursorText : String → Record → Option String

/-- A record generator: what it yields, and whether it then raises instead of ending. -/
structure Extraction (Record : Type) where
  records : List Record
  fails : Bool

/-- Provider calls. Each may raise, which is the reply `none` or `false`. -/
inductive Op (Record : Type) where
  | historyStart
  | historyFinish (succeeded : Bool) (endpoints extracted affected : ℕ)
  | getWatermark (endpoint : String)
  | verifyOwnership
  | claimFence (endpoint : String)
  | extract (endpoint : String) (since : Option String)
  | drainTelemetry
  | write (endpoint : String) (records : List Record)
  | compareAndSet (endpoint : String) (expected : Option String) (cursor : String)

def Reply (Record : Type) : Op Record → Type
  | .historyStart | .historyFinish .. | .verifyOwnership | .claimFence _ | .drainTelemetry => Bool
  | .getWatermark _ => Option (Option String)
  | .extract .. => Extraction Record
  | .write .. => Option ℕ
  | .compareAndSet .. => Option Bool

abbrev Action (Record α : Type) := Prog (Op Record) (Reply Record) RunError α

structure EndpointRunResult where
  endpoint : String
  extracted : ℕ
  affected : ℕ
  committedCursor : Option String
  deriving Repr, DecidableEq

structure RecordObservation where
  extracted : ℕ
  maximumCursor : Option String
  deriving Repr, DecidableEq

section Program

variable {Record : Type} (port : RecordPort Record) (options : RunOptions)

/-- A provider call whose only reply is whether it raised. -/
def attempt (reply : Bool) : Action Record Unit :=
  if reply then .ret () else .raise .provider

def verifyOwnership : Action Record Unit :=
  if options.hasOwnership then .call .verifyOwnership (fun reply => attempt reply) else .ret ()

def normalizedRecord (endpoint : Endpoint) (index : ℕ) (record : Record) :
    Except RunError Record :=
  if endpoint.declaresSchema then port.normalizeRecord endpoint index record else .ok record

/-- Counts a record and keeps the largest cursor text. -/
def RecordObservation.observe (observation : RecordObservation) (endpoint : Endpoint)
    (record : Record) : Except RunError RecordObservation :=
  match endpoint.incrementalCursor with
  | none => .ok { observation with extracted := observation.extracted + 1 }
  | some field =>
    match port.cursorText field record with
    | none => .error (.cursorValue (s!"Endpoint '{endpoint.name}' record " ++
        s!"{observation.extracted} has no scalar cursor field '{field}'"))
    | some cursor => .ok
        { extracted := observation.extracted + 1
          maximumCursor := match observation.maximumCursor with
            | some maximum => some (max maximum cursor)
            | none => some cursor }

/-- One record through normalization and observation. -/
def drawRecord (endpoint : Endpoint) (observation : RecordObservation) (record : Record) :
    Except RunError (Record × RecordObservation) :=
  match normalizedRecord port endpoint observation.extracted record with
  | .error e => .error e
  | .ok normalized =>
    match observation.observe port endpoint normalized with
    | .error e => .error e
    | .ok observation => .ok (normalized, observation)

/-- Everything a generator yields, as a writer that takes the whole stream draws it. -/
def drawAll (endpoint : Endpoint) (fails : Bool) :
    List Record → RecordObservation → Except RunError (List Record × RecordObservation)
  | [], observation => if fails then .error .provider else .ok ([], observation)
  | record :: rest, observation =>
    match drawRecord port endpoint observation record with
    | .error e => .error e
    | .ok (normalized, observation) =>
      match drawAll endpoint fails rest observation with
      | .error e => .error e
      | .ok (others, observation) => .ok (normalized :: others, observation)

/-- One write between two telemetry drains; a failed write drains too and raises again. -/
def writeWithTelemetry (endpoint : Endpoint) (records : List Record) : Action Record ℕ :=
  .call .drainTelemetry fun (drained : Bool) =>
    if drained then
      .call (.write endpoint.name records) fun (affected : Option ℕ) =>
        match affected with
        | none => .call .drainTelemetry fun _ => .raise .provider
        | some affected => .call .drainTelemetry fun (drained : Bool) =>
          if drained then .ret affected else .raise .provider
    else .raise .provider

/-- One batch: ownership is checked right before it is written. -/
def writeBatch (endpoint : Endpoint) (batch : List Record) : Action Record ℕ :=
  verifyOwnership options >>= fun _ => writeWithTelemetry endpoint batch

/-- The batched loop. A batch is written when it is full, before the next record is drawn;
what is left when the generator ends is the last batch, and an empty one is written only
if there was no other. -/
def writeBatches (endpoint : Endpoint) (fails : Bool) :
    List Record → List Record → Bool → ℕ → RecordObservation →
      Action Record (ℕ × RecordObservation)
  | [], buffer, wroteBatch, affected, observation =>
    if fails then .raise .provider
    else if buffer.isEmpty && wroteBatch then .ret (affected, observation)
    else writeBatch options endpoint buffer >>= fun written =>
      .ret (affected + written, observation)
  | record :: rest, buffer, wroteBatch, affected, observation =>
    match drawRecord port endpoint observation record with
    | .error e => .raise e
    | .ok (normalized, observation) =>
      if (buffer ++ [normalized]).length = options.batchRows then
        writeBatch options endpoint (buffer ++ [normalized]) >>= fun written =>
          writeBatches endpoint fails rest [] true (affected + written) observation
      else writeBatches endpoint fails rest (buffer ++ [normalized]) wroteBatch affected
        observation

/-- The writer's share of a run, by what the writer accepts. -/
def writeRecords (endpoint : Endpoint) (stream : Extraction Record) :
    Action Record (ℕ × RecordObservation) :=
  match options.mode with
  | .batched => writeBatches port options endpoint stream.fails stream.records [] false 0 ⟨0, none⟩
  | .streaming => verifyOwnership options >>= fun _ =>
    match drawAll port endpoint stream.fails stream.records ⟨0, none⟩ with
    | .error e => .call .drainTelemetry fun (drained : Bool) =>
      if drained then .call .drainTelemetry fun _ => .raise e else .raise .provider
    | .ok (records, observation) => writeWithTelemetry endpoint records >>= fun affected =>
      .ret (affected, observation)
  | .buffered =>
    match drawAll port endpoint stream.fails stream.records ⟨0, none⟩ with
    | .error e => .raise e
    | .ok (records, observation) => writeBatch options endpoint records >>= fun affected =>
      .ret (affected, observation)

/-- The cursor a run commits: a full read must not move the boundary backward. -/
def cursorToCommit (endpoint : Endpoint) (stored : Option String) (maximum : String) : String :=
  match stored with
  | some stored =>
    if endpoint.cursorParam = some "" || !options.resumeFromWatermark then max stored maximum
    else maximum
  | none => maximum

def commitCursor (endpoint : Endpoint) (stored : Option String)
    (observation : RecordObservation) : Action Record (Option String) :=
  match observation.maximumCursor with
  | none => .ret none
  | some maximum =>
    if observation.extracted = 0 then .ret none
    else verifyOwnership options >>= fun _ =>
      .call (.compareAndSet endpoint.name stored (cursorToCommit options endpoint stored maximum))
        fun (committed : Option Bool) =>
          match committed with
          | none => .raise .provider
          | some false => .raise (.watermarkConflict
              s!"Watermark boundary changed for endpoint '{endpoint.name}'")
          | some true => .ret (some (cursorToCommit options endpoint stored maximum))

/-- Writers that publish through a fence need the run to own one. -/
def claimPublicationFence (endpoint : Endpoint) : Action Record Unit :=
  if options.requiresPublicationFence then
    if options.hasOwnership && options.hasFence && options.hasTargetFence then
      .call (.claimFence endpoint.name) (fun reply => attempt reply)
    else .raise (.runtime "Hosted destination writes require target-fence ownership")
  else .ret ()

/-- The stored boundary of an endpoint that has a cursor. -/
def readWatermark (endpoint : Endpoint) : Action Record (Option String) :=
  match endpoint.incrementalCursor with
  | none => .ret none
  | some field =>
    if field = "" then .ret none
    else .call (.getWatermark endpoint.name) fun (reply : Option (Option String)) =>
      match reply with
      | none => .raise .provider
      | some stored => .ret stored

def runEndpoint (endpoint : Endpoint) : Action Record EndpointRunResult :=
  readWatermark endpoint >>= fun stored =>
  verifyOwnership options >>= fun _ =>
  claimPublicationFence options endpoint >>= fun _ =>
  .call (.extract endpoint.name (if options.resumeFromWatermark then stored else none))
    fun (stream : Extraction Record) =>
      writeRecords port options endpoint stream >>= fun written =>
      commitCursor options endpoint stored written.2 >>= fun committed =>
      .ret ⟨endpoint.name, written.2.extracted, written.1, committed⟩

/-- The endpoints of one run in configuration order, stopping at the first that raises. -/
def runEndpoints : List Endpoint → List EndpointRunResult →
    Action Record (List EndpointRunResult × Option RunError)
  | [], completed => .ret (completed, none)
  | endpoint :: rest, completed =>
    if (options.endpointNames.map (fun names => names.contains endpoint.name)).getD true then
      (runEndpoint port options endpoint >>= fun result => .ret (Except.ok result)).tryCatch
          (fun e => .ret (Except.error e)) >>= fun outcome =>
        match outcome with
        | .ok result => runEndpoints rest (completed ++ [result])
        | .error e => .ret (completed, some e)
    else runEndpoints rest completed

def finishHistory (completed : List EndpointRunResult) (succeeded : Bool) : Action Record Bool :=
  if options.hasHistory then
    .call (.historyFinish succeeded completed.length
      (completed.map EndpointRunResult.extracted).sum
      (completed.map EndpointRunResult.affected).sum) fun (reply : Bool) => .ret reply
  else .ret true

def startHistory : Action Record Unit :=
  if options.hasHistory then .call .historyStart (fun reply => attempt reply) else .ret ()

/-- Runs every selected endpoint and commits each cursor after its successful write. -/
def run (config : SourceConfig) : Action Record (List EndpointRunResult) :=
  startHistory options >>= fun _ =>
  runEndpoints port options config.endpoints [] >>= fun outcome =>
    match outcome.2 with
    | some e => finishHistory options outcome.1 false >>= fun _ => .raise e
    | none => finishHistory options outcome.1 true >>= fun finished =>
      if finished then .ret outcome.1 else .raise .provider

end Program

end Dander.Runtime
