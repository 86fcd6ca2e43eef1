import Dander.GraphStore
import Dander.RunLifecycle

/-!
# Entry points of the run lifecycle

Callers of Control start, cancel and reconcile runs. A cancellation claims its idempotency key,
together with the result it plans, before it touches the run; the operations of the store of
claims are kept apart from those on runs.
-/
namespace Dander.Lifecycle

open Interleaving ObjectStore Orchestration

section Services

variable {O : Type} {R : O → Type} {M : Type}

inductive EntryRequest (O : Type) where
  | run (request : Request)
  | claim (operation : O)

def EntryAnswer (R : O → Type) : EntryRequest O → Type
  | .run request => Answer request
  | .claim operation => R operation

/-- The runs, and the store of claims. -/
structure EntryWorld (M : Type) where
  runs : World
  claims : M

/-- The services of both. -/
def entryServices (runs : Machine Request Answer World) (claims : Machine O R M) :
    Machine (EntryRequest O) (EntryAnswer R) (EntryWorld M) where
  step
    | .run request, w, answer, w' => runs.step request w.runs answer w'.runs ∧ w'.claims = w.claims
    | .claim operation, w, answer, w' =>
      claims.step operation w.claims answer w'.claims ∧ w'.runs = w.runs

/-- Services of runs that never fail. -/
def answering : Machine Request Answer World where
  step o w answer w' := ∃ oracle, serve oracle o w = (answer, w')

end Services

section Results

inductive Operation where
  | cancel
  | replay
  deriving Repr, DecidableEq

def Operation.value : Operation → String
  | .cancel => "cancel"
  | .replay => "replay"

/-- The answer to a mutation, as it is kept under its key. -/
structure OperationResult extends MutationResult where
  operation : Operation
  resultingRunId : Option String
  deriving Repr, DecidableEq

def RunState.value : RunState → String
  | .queued => "queued"
  | .running => "running"
  | .succeeded => "succeeded"
  | .failed => "failed"
  | .canceling => "canceling"
  | .canceled => "canceled"
  | .retrying => "retrying"

open Schedule (jsonObject jsonAsciiString jsonBool)

def mutationResultBytes (result : OperationResult) : String :=
  jsonObject
    [("accepted", jsonBool result.accepted),
      ("operation", jsonAsciiString result.operation.value),
      ("resulting_run_id", optionalJson jsonAsciiString result.resultingRunId),
      ("run_id", jsonAsciiString result.runId),
      ("state", jsonAsciiString result.state.value)]

/-- What a cancellation claims, from the snapshot it has read. -/
def plannedCancelResult (record : RunRecord) : Except ContractError OperationResult :=
  if record.runState = .terminal then
    (runStateOf record).map fun state =>
      { accepted := false, runId := record.runId, state := state, operation := .cancel,
        resultingRunId := none }
  else .ok
    { accepted := true, runId := record.runId,
      state := if record.runState = .queued then .canceled else .canceling,
      operation := .cancel, resultingRunId := none }

end Results

section Programs

variable {O : Type} {R : O → Type}

abbrev EntryAction (R : O → Type) (α : Type) :=
  Prog (EntryRequest O) (EntryAnswer R) LifecycleError α

def onRuns {α : Type} (p : Action α) : EntryAction R α :=
  p.embed EntryRequest.run (fun _ answer => answer) id

def onClaims {α : Type} (p : Prog O R RunStoreError α) : EntryAction R α :=
  p.embed EntryRequest.claim (fun _ answer => answer) .store

/-- What the lifecycle takes from a store of claims and from the model library. -/
structure Claiming (O : Type) (R : O → Type) where
  claimMutation : (label : ℕ) → (keySha256 operation runId result : String) →
    Prog O R RunStoreError String
  modelValidateJson : String → Option OperationResult

variable (sha256 : String → String) (claiming : Claiming O R) (registry : Registry)

def validateCancelPreconditions (record : RunRecord) : Except LifecycleError Unit :=
  if record.runState = .terminal ∨ record.runState = .queued then .ok ()
  else if record.backendHandle.isNone then
    .error (.conflict "The running execution does not have a provider handle.")
  else (registry.select record).map fun _ => ()

/-- How a claim's failure is reported. -/
def recoverClaim : LifecycleError → EntryAction R String
  | .store (.idempotencyConflict _) => .raise (.idempotencyConflict
      "The idempotency key belongs to a different cancellation.")
  | .store _ => .raise (.dependency
      "The cancellation idempotency claim is temporarily unavailable.")
  | e => .raise e

def claimCancellation (label : ℕ) (runId idempotencyKey : String) (planned : OperationResult) :
    EntryAction R String :=
  (onClaims (claiming.claimMutation label (sha256 idempotencyKey) "cancel" runId
    (mutationResultBytes planned))).tryCatch recoverClaim

/-- The claimed result, if it is one of this cancellation. -/
def claimedResult (runId original : String) : Except LifecycleError OperationResult :=
  match claiming.modelValidateJson original with
  | none => .error (.dependency "The durable cancellation result is invalid.")
  | some result =>
    if result.operation ≠ .cancel || result.runId ≠ runId then
      .error (.dependency "The durable cancellation result is inconsistent.")
    else .ok result

def liftEntry {α : Type} : Except LifecycleError α → EntryAction R α
  | .ok value => .ret value
  | .error e => .raise e

/-- Everything a cancellation does after it has read its run. -/
def cancelFound (label : ℕ) (runId idempotencyKey : String) (stored : StoredRun) :
    EntryAction R OperationResult :=
  liftEntry (validateCancelPreconditions registry stored.record) >>= fun _ =>
    liftEntry ((plannedCancelResult stored.record).mapError .contract) >>= fun planned =>
      claimCancellation sha256 claiming label runId idempotencyKey planned >>= fun original =>
        liftEntry (claimedResult claiming runId original) >>= fun result =>
          onRuns (cancelOnce sha256 registry runId) >>= fun _ => .ret result

/-- Cancels a run, and answers with the result claimed first under the key. -/
def cancel (label : ℕ) (runId idempotencyKey : String) : EntryAction R OperationResult :=
  if !GraphStore.isIdempotencyKey idempotencyKey then
    .raise (.conflict "The cancellation idempotency key is malformed.")
  else onRuns (requireRun runId) >>= fun stored =>
    cancelFound sha256 claiming registry label runId idempotencyKey stored

end Programs

section Calls

/-- One call into the lifecycle; a snapshot is the caller's, as it was read. -/
inductive Entry where
  | start (submission : RunSubmission)
  | cancel (runId idempotencyKey : String)
  | reconcile (stored : StoredRun)
  | dispatch (submission : RunSubmission) (plan : ExecutionPlan) (now : ℤ)
  | dispatchStored (stored : StoredRun) (plan : ExecutionPlan) (now : ℤ)
  deriving Repr, DecidableEq

/-- A call within a process; the label tells its writes from those of other calls. -/
structure EntryCall where
  registry : Registry
  label : ℕ
  entry : Entry
  deriving Repr, DecidableEq

inductive EntryOutcome where
  | run (stored : StoredRun)
  | status (stored : StoredRun) (state : RunState)
  | mutation (result : OperationResult)
  deriving Repr, DecidableEq

def enter {O : Type} {R : O → Type} (sha256 : String → String) (claiming : Claiming O R)
    (call : EntryCall) : EntryAction R EntryOutcome :=
  match call.entry with
  | .start submission =>
    onRuns (start sha256 call.registry submission) >>= fun started =>
      .ret (.status started.1 started.2)
  | .cancel runId idempotencyKey =>
    cancel sha256 claiming call.registry call.label runId idempotencyKey >>= fun result =>
      .ret (.mutation result)
  | .reconcile stored =>
    onRuns (reconcileStored sha256 call.registry stored) >>= fun stored => .ret (.run stored)
  | .dispatch submission plan now =>
    onRuns (dispatchRunAttempt sha256 submission plan now) >>= fun stored => .ret (.run stored)
  | .dispatchStored stored plan now =>
    onRuns (dispatchStoredRunAttempt sha256 stored plan now) >>= fun stored =>
      .ret (.run stored)

end Calls

end Dander.Lifecycle
