import Dander.Identifiers
import Dander.ObjectStore
import Mathlib.Data.Int.Notation

/-!
# The lifecycle of OCI container instances

One pipeline has an active object, which is the lock on it, and a history object for each
ended run. The controller claims the lock, creates container instances, and releases the lock
when the run has ended. Every call of the object store and of the provider is one atomic
step; calls of any number of function invocations interleave between them.
-/
namespace Dander.Oci

open Interleaving ObjectStore

section Records

inductive InstanceState where
  | pending
  | running
  | succeeded
  | failed
  deriving Repr, DecidableEq

/-- What the provider tells of a container instance. -/
structure OciInstanceStatus where
  state : InstanceState
  containerId : Option String
  exitCode : Option ℤ
  failureCode : Option String
  deriving Repr, DecidableEq

inductive ExecutionState where
  | pending
  | running
  | succeeded
  | failed
  | cancelled
  deriving Repr, DecidableEq

/-- One durable execution record. The bounds are those a stored record is parsed with. -/
structure OciExecution where
  runId : String
  pipelineId : String
  idempotencyKey : String
  image : String
  state : ExecutionState
  attempt : ℕ
  maxAttempts : ℕ
  createdAt : ℤ
  updatedAt : ℤ
  deadlineAt : ℤ
  instanceId : Option String
  containerId : Option String
  exitCode : Option ℤ
  failureCode : Option String
  replayOf : Option String
  attempt_bounds : 1 ≤ attempt ∧ attempt ≤ maxAttempts ∧ maxAttempts ≤ 11
  deadline_after : createdAt < deadlineAt
  deriving Repr, DecidableEq

def OciExecution.terminal (execution : OciExecution) : Bool :=
  execution.state = .succeeded || execution.state = .failed || execution.state = .cancelled

/-- One execution plus the tag it was read or written under. -/
structure StoredExecution where
  execution : OciExecution
  version : ℕ
  deriving Repr, DecidableEq

/-- What a controller takes from its validated projection. -/
structure Projection where
  image : String
  deadlineSeconds : ℕ
  launcherRetryCount : ℕ
  deadline_bounds : 1 ≤ deadlineSeconds ∧ deadlineSeconds ≤ 3300
  retry_bound : launcherRetryCount ≤ 10
  deriving Repr, DecidableEq

end Records

section Services

/-- The objects of one pipeline that hold execution records. -/
inductive Key where
  | active
  | history (runId : String)
  deriving Repr, DecidableEq

/-- A container instance the provider has created. -/
structure Instance where
  instanceId : String
  runId : String
  attempt : ℕ
  deriving Repr, DecidableEq

/-- The record objects, the log objects, the instances created, and those of them that have
ended or been deleted. -/
structure World where
  objects : History Key OciExecution
  logs : List ((String × ℕ) × List UInt8)
  instances : List Instance
  ended : List String
  deriving Repr, DecidableEq

def World.empty : World := ⟨[], [], [], []⟩

inductive Request where
  | getObject (key : Key)
  | putObject (key : Key) (execution : OciExecution) (ifMatch : Option ℕ)
  | deleteObject (key : Key) (ifMatch : ℕ)
  | putLogs (runId : String) (attempt : ℕ) (content : List UInt8)
  | create (execution : OciExecution)
  | status (instanceId : String)
  | stop (instanceId : String)
  | delete (instanceId : String)
  | logs (containerId : String)
  | clock
  deriving Repr, DecidableEq

/-- How the object store refuses a call: with 404, with 412, or otherwise. -/
inductive ServiceError where
  | notFound
  | preconditionFailed
  | other
  deriving Repr, DecidableEq

/-- Answers; a provider call that raises answers nothing. A put without a tag demands that the
object does not exist. -/
def Answer : Request → Type
  | .getObject _ => Except ServiceError (Version OciExecution)
  | .putObject .. => Except ServiceError ℕ
  | .deleteObject .. => Except ServiceError Unit
  | .putLogs .. => Except ServiceError Unit
  | .create _ => Option String
  | .status _ => Option OciInstanceStatus
  | .stop _ => Option Unit
  | .delete _ => Option Unit
  | .logs _ => Option (List UInt8)
  | .clock => ℤ

/-- What the environment decides: the time, the identity of a new instance, what the provider
reports, and which instances end by themselves before a call. -/
structure Oracle where
  clock : ℤ
  instanceId : String
  status : OciInstanceStatus
  logs : List UInt8
  ended : List String

def World.getObject (w : World) (key : Key) : Except ServiceError (Version OciExecution) :=
  match current w.objects key with
  | some version => .ok version
  | none => .error .notFound

def World.putObject (w : World) (key : Key) (execution : OciExecution) (ifMatch : Option ℕ) :
    Except ServiceError ℕ × World :=
  if tag w.objects key = ifMatch then
    (.ok w.objects.length, { w with objects := ⟨key, some execution, 0⟩ :: w.objects })
  else (.error .preconditionFailed, w)

def World.deleteObject (w : World) (key : Key) (ifMatch : ℕ) : Except ServiceError Unit × World :=
  match tag w.objects key with
  | none => (.error .notFound, w)
  | some etag =>
    if etag = ifMatch then (.ok (), { w with objects := ⟨key, none, 0⟩ :: w.objects })
    else (.error .preconditionFailed, w)

/-- One instance for each run and attempt; a new one gets an identity of its own. -/
def World.create (w : World) (execution : OciExecution) (instanceId : String) :
    Option String × World :=
  match w.instances.find? (fun i => i.runId = execution.runId && i.attempt = execution.attempt) with
  | some existing => (some existing.instanceId, w)
  | none =>
    if w.instances.any (fun i => i.instanceId = instanceId) then (none, w)
    else (some instanceId,
      { w with instances := ⟨instanceId, execution.runId, execution.attempt⟩ :: w.instances })

def World.delete (w : World) (instanceId : String) : World :=
  { w with ended := instanceId :: w.ended }

def World.settle (w : World) (ended : List String) : World := { w with ended := ended ++ w.ended }

/-- A call that does not fail. Whether stopping has ended an instance yet is the oracle's. -/
def World.respond (oracle : Oracle) : (o : Request) → World → Answer o × World
  | .getObject key, w => (w.getObject key, w)
  | .putObject key execution ifMatch, w => w.putObject key execution ifMatch
  | .deleteObject key ifMatch, w => w.deleteObject key ifMatch
  | .putLogs runId attempt content, w =>
    (.ok (), { w with logs := ((runId, attempt), content) :: w.logs })
  | .create execution, w => w.create execution oracle.instanceId
  | .status _, w => (some oracle.status, w)
  | .stop _, w => (some (), w)
  | .delete instanceId, w => (some (), w.delete instanceId)
  | .logs _, w => (some oracle.logs, w)
  | .clock, w => (oracle.clock, w)

def serve (oracle : Oracle) (o : Request) (w : World) : Answer o × World :=
  (w.settle oracle.ended).respond oracle o

/-- The answers of a call that failed. -/
def Failed : (o : Request) → Answer o → Prop
  | .getObject _, answer => answer = .error .other
  | .putObject .., answer => answer = .error .other
  | .deleteObject .., answer => answer = .error .other
  | .putLogs .., answer => answer = .error .other
  | .create _, answer => answer = none
  | .status _, answer => answer = none
  | .stop _, answer => answer = none
  | .delete _, answer => answer = none
  | .logs _, answer => answer = none
  | .clock, _ => False

/-- The services as controllers meet them: a call is served, or fails with its effect applied
or not. -/
def services : Machine Request Answer World := .faulty serve Failed

end Services

inductive OciError where
  | lifecycle (message : String)
  | service (e : ServiceError)
  | gateway
  deriving Repr, DecidableEq

abbrev Action (α : Type) := Prog Request Answer OciError α

section Repository

def read (key : Key) : Action (Option StoredExecution) :=
  .call (.getObject key) fun (answer : Except ServiceError (Version OciExecution)) =>
    match answer with
    | .ok version => .ret (some ⟨version.value, version.etag⟩)
    | .error .notFound => .ret none
    | .error _ => .raise (.lifecycle "Could not read OCI execution record")

def claim (execution : OciExecution) : Action (StoredExecution × Bool) :=
  read (.history execution.runId) >>= fun historical =>
    match historical with
    | some historical => .ret (historical, false)
    | none =>
      .call (.putObject .active execution none) fun (answer : Except ServiceError ℕ) =>
        match answer with
        | .ok etag => .ret (⟨execution, etag⟩, true)
        | .error .preconditionFailed => read .active >>= fun active =>
          match active with
          | none => .raise (.lifecycle "OCI pipeline lock changed during claim")
          | some active => .ret (active, false)
        | .error _ => .raise (.lifecycle "Could not claim OCI pipeline execution")

def get (runId : Option String) : Action (Option StoredExecution) :=
  read .active >>= fun active =>
    match active with
    | some stored =>
      if runId.all (fun runId => stored.execution.runId = runId) then .ret (some stored)
      else historical
    | none => historical
where
  historical : Action (Option StoredExecution) :=
    match runId with
    | none => .ret none
    | some runId => read (.history runId)

def requireSameRun (existing updated : OciExecution) : Action Unit :=
  if existing.pipelineId = updated.pipelineId ∧ existing.runId = updated.runId then .ret ()
  else .raise (.lifecycle "OCI execution update changed its identity")

def save (stored : StoredExecution) (execution : OciExecution) : Action StoredExecution :=
  requireSameRun stored.execution execution >>= fun _ =>
    .call (.putObject .active execution (some stored.version))
      fun (answer : Except ServiceError ℕ) =>
        match answer with
        | .ok etag => .ret ⟨execution, etag⟩
        | .error e => .raise (.service e)

/-- Writes the history record once; an equal one may already exist. -/
def preserve (execution : OciExecution) : Action ℕ :=
  .call (.putObject (.history execution.runId) execution none)
    fun (answer : Except ServiceError ℕ) =>
      match answer with
      | .ok etag => .ret etag
      | .error .preconditionFailed => read (.history execution.runId) >>= fun existing =>
        match existing with
        | some existing =>
          if existing.execution = execution then .ret existing.version
          else .raise (.lifecycle "OCI terminal execution history conflicts")
        | none => .raise (.lifecycle "OCI terminal execution history conflicts")
      | .error _ => .raise (.lifecycle "Could not preserve OCI terminal execution")

def release (version : ℕ) : Action Unit :=
  .call (.deleteObject .active version) fun (answer : Except ServiceError Unit) =>
    match answer with
    | .ok _ => .ret ()
    | .error .notFound => .ret ()
    | .error _ => .raise (.lifecycle "Could not release OCI pipeline execution")

/-- Preserves a terminal record and releases the lock. What is overwritten is what the active
object holds now, not what the caller has read before. -/
def finish (_stored : StoredExecution) (execution : OciExecution) : Action StoredExecution :=
  if !execution.terminal then
    .raise (.lifecycle "OCI repository can finish only terminal executions")
  else read .active >>= fun active =>
    match active with
    | none => read (.history execution.runId) >>= fun historical =>
      match historical with
      | some historical =>
        if historical.execution = execution then .ret historical
        else .raise (.lifecycle "OCI active execution disappeared before it was preserved")
      | none =>
        .raise (.lifecycle "OCI active execution disappeared before it was preserved")
    | some active =>
      requireSameRun active.execution execution >>= fun _ =>
        save active execution >>= fun saved =>
          preserve execution >>= fun version =>
            release saved.version >>= fun _ => .ret ⟨execution, version⟩

/-- The last part of the content is kept. -/
def saveLogs (execution : OciExecution) (content : List UInt8) : Action Unit :=
  .call (.putLogs execution.runId execution.attempt (content.drop (content.length - 262144)))
    fun (answer : Except ServiceError Unit) =>
      match answer with
      | .ok _ => .ret ()
      | .error _ => .raise (.lifecycle "Could not preserve bounded OCI runtime logs")

end Repository

section Controller

variable (sha256 : String → String) (pipelineId : String)

def gatewayCall {α : Type} : Option α → Action α
  | some value => .ret value
  | none => .raise .gateway

def captureLogs (execution : OciExecution) : Action Unit :=
  match execution.containerId with
  | none => .ret ()
  | some containerId => .call (.logs containerId) fun (answer : Option (List UInt8)) =>
    match answer with
    | none => .ret ()
    | some content => saveLogs execution content

def deleteInstance (instanceId : String) : Action Unit :=
  .call (.delete instanceId) fun (answer : Option Unit) => gatewayCall answer

/-- The instance is deleted whatever happens before. -/
def stopCaptureDelete (execution : OciExecution) : Action Unit :=
  match execution.instanceId with
  | none => .ret ()
  | some instanceId =>
    Prog.tryCatch
        (captureLogs execution >>= fun _ =>
          .call (.stop instanceId) fun (answer : Option Unit) => gatewayCall answer)
        (fun error => deleteInstance instanceId >>= fun _ => .raise error) >>= fun _ =>
      deleteInstance instanceId

def finishAs (stored : StoredExecution) (state : ExecutionState) (failureCode : Option String)
    (execution : Option OciExecution) : Action StoredExecution :=
  .call .clock fun (now : ℤ) =>
    finish stored { execution.getD stored.execution with
      state := state, failureCode := failureCode, updatedAt := now }

def launch (stored : StoredExecution) : Action StoredExecution :=
  .call (.create stored.execution) fun (created : Option String) =>
    match created with
    | none =>
      finishAs stored .failed (some "launcher_create_failed") none >>= fun _ =>
        .raise (.lifecycle "OCI Container Instance creation failed")
    | some instanceId => .call .clock fun (now : ℤ) =>
      save stored { stored.execution with
        state := .running, instanceId := some instanceId, updatedAt := now }

def isIdempotencyKey (key : String) : Bool :=
  1 ≤ key.toList.length && key.toList.length ≤ 256 &&
    key.toList.all (fun c => isAlphanumeric c || c = '_' || c = '.' || c = '+' || c = ':' || c = '-')

def executionRunId (idempotencyKey : String) : String :=
  "oci-" ++ String.ofList
    ((sha256 (pipelineId ++ "\x00" ++ idempotencyKey)).toList.take 24)

/-- The first record of a run. -/
def firstRecord (projection : Projection) (idempotencyKey : String) (replayOf : Option String)
    (now : ℤ) : OciExecution where
  runId := executionRunId sha256 pipelineId idempotencyKey
  pipelineId := pipelineId
  idempotencyKey := idempotencyKey
  image := projection.image
  state := .pending
  attempt := 1
  maxAttempts := projection.launcherRetryCount + 1
  createdAt := now
  updatedAt := now
  deadlineAt := now + projection.deadlineSeconds
  instanceId := none
  containerId := none
  exitCode := none
  failureCode := none
  replayOf := replayOf
  attempt_bounds := by
    have := projection.retry_bound
    omega
  deadline_after := by
    have := projection.deadline_bounds
    omega

def start (projection : Projection) (idempotencyKey : String) (replayOf : Option String) :
    Action OciExecution :=
  if !isIdempotencyKey idempotencyKey then
    .raise (.lifecycle "OCI idempotency key contains unsupported characters")
  else .call .clock fun (now : ℤ) =>
    claim (firstRecord sha256 pipelineId projection idempotencyKey replayOf now) >>= fun claimed =>
      if !claimed.2 then
        if claimed.1.execution.idempotencyKey ≠ idempotencyKey then
          .raise (.lifecycle ("OCI pipeline '" ++ pipelineId ++ "' already has active run '" ++
            claimed.1.execution.runId ++ "'"))
        else .ret claimed.1.execution
      else launch claimed.1 >>= fun launched => .ret launched.execution

/-- The next attempt of a run that has attempts left. -/
def OciExecution.retried (execution : OciExecution) (now : ℤ)
    (left : execution.attempt < execution.maxAttempts) : OciExecution :=
  { execution with
    state := .pending
    attempt := execution.attempt + 1
    instanceId := none
    containerId := none
    exitCode := none
    failureCode := none
    updatedAt := now
    attempt_bounds := by
      have := execution.attempt_bounds
      omega }

/-- An ended attempt: its instance is deleted, and the run ends or is tried again. -/
def reconcileEnded (stored : StoredExecution) (instanceId : String) (now : ℤ)
    (status : OciInstanceStatus) : Action StoredExecution :=
  let updated := { stored.execution with
    containerId := (status.containerId.filter (· ≠ "")).or stored.execution.containerId
    exitCode := status.exitCode
    updatedAt := now }
  captureLogs updated >>= fun _ => deleteInstance instanceId >>= fun _ =>
    if status.state = .succeeded ∧ status.exitCode = some 0 then
      finishAs stored .succeeded none (some updated)
    else if left : status.exitCode = some 75 ∧ updated.attempt < updated.maxAttempts then
      save stored (updated.retried now left.2) >>= fun saved => launch saved
    else
      let failure := (status.failureCode.filter (· ≠ "")).getD
        (if status.exitCode = some 75 then "launcher_retry_exhausted" else "runtime_failed")
      finishAs stored .failed (some failure) (some updated)

/-- An attempt whose record names its instance. -/
def reconcileInstance (stored : StoredExecution) (instanceId : String) : Action StoredExecution :=
  .call .clock fun (now : ℤ) =>
    if stored.execution.deadlineAt ≤ now then
      stopCaptureDelete stored.execution >>= fun _ =>
        finishAs stored .failed (some "launcher_deadline_exceeded") none
    else .call (.status instanceId) fun (answer : Option OciInstanceStatus) =>
      gatewayCall answer >>= fun status =>
        if status.state = .pending ∨ status.state = .running then
          let updated := { stored.execution with
            state := .running
            containerId := (status.containerId.filter (· ≠ "")).or stored.execution.containerId
            updatedAt := now }
          captureLogs updated >>= fun _ => save stored updated
        else reconcileEnded stored instanceId now status

def reconcileStored (stored : StoredExecution) : Action StoredExecution :=
  if stored.execution.terminal then finish stored stored.execution
  else if stored.execution.state = .pending then launch stored
  else
    match stored.execution.instanceId with
    | none => launch stored
    | some instanceId => reconcileInstance stored instanceId

/-- Advances one run by one observation of the provider. -/
def reconcile (runId : Option String) : Action (Option OciExecution) :=
  get runId >>= fun stored =>
    match stored with
    | none => .ret none
    | some stored => reconcileStored stored >>= fun stored => .ret (some stored.execution)

def cancel (runId : String) : Action OciExecution :=
  get (some runId) >>= fun stored =>
    match stored with
    | none => .raise (.lifecycle "OCI execution was not found")
    | some stored =>
      if stored.execution.terminal then .ret stored.execution
      else stopCaptureDelete stored.execution >>= fun _ =>
        finishAs stored .cancelled (some "interrupted_run") none >>= fun stored =>
          .ret stored.execution

def replay (projection : Projection) (runId idempotencyKey : String) : Action OciExecution :=
  get (some runId) >>= fun previous =>
    match previous with
    | none => .raise (.lifecycle "OCI execution was not found")
    | some previous =>
      if !previous.execution.terminal then
        .raise (.lifecycle "Only a terminal OCI execution can be replayed")
      else start sha256 pipelineId projection idempotencyKey (some runId)

end Controller

section Workers

inductive Work where
  | start (idempotencyKey : String) (replayOf : Option String)
  | reconcile (runId : Option String)
  | cancel (runId : String)
  | replay (runId idempotencyKey : String)
  deriving Repr, DecidableEq

/-- A call of the controller that a function invocation has built from its projection. -/
structure Call where
  projection : Projection
  work : Work
  deriving Repr, DecidableEq

def perform (sha256 : String → String) (pipelineId : String) (call : Call) :
    Action (Option OciExecution) :=
  match call.work with
  | .start idempotencyKey replayOf =>
    start sha256 pipelineId call.projection idempotencyKey replayOf >>= fun e => .ret (some e)
  | .reconcile runId => reconcile runId
  | .cancel runId => cancel runId >>= fun e => .ret (some e)
  | .replay runId idempotencyKey =>
    replay sha256 pipelineId call.projection runId idempotencyKey >>= fun e => .ret (some e)

end Workers

end Dander.Oci
