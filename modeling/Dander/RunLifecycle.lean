import Dander.ObjectStore
import Dander.Orchestration

/-!
# Dispatching, reconciling and cancelling hosted runs

Control keeps one snapshot of each run in a store with compare-and-swap and asks an
execution backend to launch, observe and cancel attempts. Every store and backend call is
one atomic step; workers of any number of processes interleave between them.
-/
namespace Dander.Lifecycle

open Interleaving ObjectStore Orchestration

section Services

/-- An attempt the backend has accepted. -/
structure BackendExecution where
  runId : String
  attemptId : String
  handle : BackendHandle
  deriving Repr, DecidableEq

/-- The durable run snapshots, the attempt records, what the backend has accepted, and the
handles that an observation has reported as ended. -/
structure World where
  snapshots : History String RunRecord
  attempts : List AttemptRecord
  executions : List BackendExecution
  ended : List BackendHandle
  deriving Repr, DecidableEq

def World.empty : World := ⟨[], [], [], []⟩

inductive Request where
  | claim (record : RunRecord)
  | get (runId : String)
  | save (stored : StoredRun) (record : RunRecord)
  | appendAttempt (attempt : AttemptRecord)
  | submitOrAdopt (plan : ExecutionPlan) (runId attemptId : String) (trigger : RunTrigger)
  | observe (plan : ExecutionPlan) (handle : BackendHandle)
  | cancel (plan : ExecutionPlan) (handle : BackendHandle)
  | clock
  deriving Repr, DecidableEq

/-- Answers; a backend call that raises answers nothing. -/
def Answer : Request → Type
  | .claim _ => Except RunStoreError RunClaim
  | .get _ => Except RunStoreError (Option StoredRun)
  | .save .. => Except RunStoreError StoredRun
  | .appendAttempt _ => Except RunStoreError Unit
  | .submitOrAdopt .. => Option BackendHandle
  | .observe .. => Option BackendObservation
  | .cancel .. => Option Unit
  | .clock => ℤ

/-- What the environment decides: the time, the handle of a new execution, and what the
provider reports. -/
structure Oracle where
  clock : ℤ
  handle : BackendHandle
  observation : BackendObservation

def World.claimed (w : World) (record : RunRecord) : Except RunStoreError RunClaim × World :=
  match current w.snapshots record.runId with
  | none => (.ok ⟨⟨record, w.snapshots.length⟩, true⟩,
      { w with snapshots := ⟨record.runId, some record, 0⟩ :: w.snapshots })
  | some version =>
    if version.value.environment ≠ record.environment ||
        version.value.project ≠ record.project ||
        version.value.idempotencyKeySha256 ≠ record.idempotencyKeySha256 then
      (.error (.corruption "the run snapshot contradicts its idempotency claim"), w)
    else if version.value.submissionSha256 ≠ record.submissionSha256 then
      (.error (.idempotencyConflict
        "the idempotency key belongs to a different logical submission"), w)
    else (.ok ⟨⟨version.value, version.etag⟩, false⟩, w)

/-- Compare and swap: the snapshot is replaced only at the revision the caller holds. -/
def World.save (w : World) (stored : StoredRun) (record : RunRecord) :
    Except RunStoreError StoredRun × World :=
  if !sameRunIdentity stored.record record then
    (.error (.conflict "A run snapshot cannot change its durable identity."), w)
  else if tag w.snapshots record.runId = some stored.revision then
    (.ok ⟨record, w.snapshots.length⟩,
      { w with snapshots := ⟨record.runId, some record, 0⟩ :: w.snapshots })
  else (.error (.conflict "The run-store precondition failed."), w)

/-- An attempt record is written once; an identical one is accepted again. -/
def World.appendAttempt (w : World) (attempt : AttemptRecord) : Except RunStoreError Unit × World :=
  match w.attempts.find? (fun a => a.runId = attempt.runId && a.attemptId = attempt.attemptId) with
  | none => (.ok (), { w with attempts := attempt :: w.attempts })
  | some existing =>
    if existing = attempt then (.ok (), w)
    else (.error (.conflict
      "The attempt identity already contains different immutable input."), w)

/-- One execution for each run and attempt, adopted on repetition. -/
def World.submitOrAdopt (w : World) (runId attemptId : String) (handle : BackendHandle) :
    Option BackendHandle × World :=
  match w.executions.find? (fun e => e.runId = runId && e.attemptId = attemptId) with
  | some execution => (some execution.handle, w)
  | none => (some handle, { w with executions := ⟨runId, attemptId, handle⟩ :: w.executions })

def World.observe (w : World) (handle : BackendHandle) (observation : BackendObservation) :
    Option BackendObservation × World :=
  (some observation,
    if observation.executionState = .terminal then { w with ended := handle :: w.ended } else w)

/-- A call that does not fail. -/
def serve (oracle : Oracle) : (o : Request) → World → Answer o × World
  | .claim record, w => w.claimed record
  | .get runId, w =>
    (.ok ((current w.snapshots runId).map (fun version => ⟨version.value, version.etag⟩)), w)
  | .save stored record, w => w.save stored record
  | .appendAttempt attempt, w => w.appendAttempt attempt
  | .submitOrAdopt _ runId attemptId _, w => w.submitOrAdopt runId attemptId oracle.handle
  | .observe _ handle, w => w.observe handle oracle.observation
  | .cancel .., w => (some (), w)
  | .clock, w => (oracle.clock, w)

/-- The answers of a call that failed. -/
def Failed : (o : Request) → Answer o → Prop
  | .claim _, answer => ∃ message, answer = .error (.failure message)
  | .get _, answer => ∃ message, answer = .error (.failure message)
  | .save .., answer => ∃ message, answer = .error (.failure message)
  | .appendAttempt _, answer => ∃ message, answer = .error (.failure message)
  | .submitOrAdopt .., answer => answer = none
  | .observe .., answer => answer = none
  | .cancel .., answer => answer = none
  | .clock, _ => False

/-- The services as workers meet them: a call is served, or fails with its effect applied or
not. -/
def services : Machine Request Answer World where
  step o w answer w' :=
    (∃ oracle, serve oracle o w = (answer, w')) ∨
      (Failed o answer ∧ (w' = w ∨ ∃ oracle, w' = (serve oracle o w).2))

end Services

section Programs

/-- What the lifecycle raises. -/
inductive LifecycleError where
  | contract (e : ContractError)
  | store (e : RunStoreError)
  | executionBackend
  | notFound (message : String)
  | conflict (message : String)
  | idempotencyConflict (message : String)
  | unavailable (message : String)
  | dependency (message : String)
  deriving Repr, DecidableEq

abbrev Action (α : Type) := Prog Request Answer LifecycleError α

def liftContract {α : Type} : Except ContractError α → Action α
  | .ok value => .ret value
  | .error e => .raise (.contract e)

def liftStore {α : Type} : Except RunStoreError α → Action α
  | .ok value => .ret value
  | .error e => .raise (.store e)

/-- The registered plans and backends of one Control process. -/
structure Registry where
  plans : List ExecutionPlan
  backends : List String
  deriving Repr, DecidableEq

def Registry.requireRevision (registry : Registry) (revision : String) :
    Except LifecycleError ExecutionPlan :=
  match registry.plans.find? (fun plan => plan.revision = revision) with
  | some plan => .ok plan
  | none => .error (.unavailable "The run's immutable execution plan is not registered.")

def Registry.forRun (registry : Registry) (record : RunRecord) :
    Except LifecycleError ExecutionPlan := do
  let plan ← registry.requireRevision record.planRevision
  if record.planSelection ≠ plan.selection then
    throw (.conflict "The durable run no longer matches its immutable execution plan.")
  return plan

def Registry.forSubmission (registry : Registry) (submission : RunSubmission) :
    Except LifecycleError ExecutionPlan := do
  let plan ← registry.requireRevision submission.planRevision
  match validateSubmissionPlan submission plan with
  | .ok _ => return plan
  | .error _ =>
    throw (.conflict "The run submission no longer matches its immutable execution plan.")

def Registry.require (registry : Registry) (backendId : String) : Except LifecycleError Unit :=
  if backendId ∈ registry.backends then .ok ()
  else .error (.unavailable "The execution plan selects an unavailable backend.")

def liftRegistry {α : Type} : Except LifecycleError α → Action α
  | .ok value => .ret value
  | .error e => .raise e

/-- The plan of a run whose backend is registered. -/
def Registry.select (registry : Registry) (record : RunRecord) :
    Except LifecycleError ExecutionPlan := do
  let plan ← registry.forRun record
  registry.require plan.backendId
  return plan

variable (sha256 : String → String) (registry : Registry)

/-- Submits the attempt and saves the running snapshot at the revision that was read. -/
def submitAttempt (stored : StoredRun) (plan : ExecutionPlan) (now : ℤ) (attemptNumber : ℕ)
    (attemptId : String) : Action StoredRun :=
  let record := stored.record
  .call (.appendAttempt ⟨record.runId, attemptId, attemptNumber, plan.planId, plan.revision,
      plan.backendId, record.trigger, record.updatedAt⟩) fun (appended : Except RunStoreError Unit) =>
    liftStore appended >>= fun _ =>
      .call (.submitOrAdopt plan record.runId attemptId record.trigger)
        fun (submitted : Option BackendHandle) =>
          match submitted with
          | none => .raise .executionBackend
          | some handle =>
            if handle.backendId ≠ plan.backendId then
              .raise (.contract (.orchestrationContract
                "backend returned a handle for a different backend"))
            else liftContract (transitionRun sha256 record .running now
                { attemptCount := some attemptNumber, currentAttemptId := some attemptId,
                  backendHandle := some handle, stage := some "submitted" }) >>= fun updated =>
              .call (.save stored updated) fun (saved : Except RunStoreError StoredRun) =>
                liftStore saved

/-- Dispatches or adopts one already durable queued run. -/
def dispatchStoredRunAttempt (stored : StoredRun) (plan : ExecutionPlan) (now : ℤ) :
    Action StoredRun :=
  let record := stored.record
  if record.planSelection ≠ plan.selection then
    .raise (.contract (.orchestrationContract
      "durable run does not select the exact execution plan"))
  else if record.requestedDeadlineSeconds.any (fun seconds => plan.deadlineSeconds < seconds) then
    .raise (.contract (.orchestrationContract
      "durable run deadline exceeds the execution plan limit"))
  else if record.runState ∉ [HostedRunState.queued, .retrying] then .ret stored
  else if record.attemptCount + 1 > plan.maxAttempts then
    .raise (.contract (.orchestrationContract "run has exhausted its bounded attempt policy"))
  else liftContract (attemptIdentity sha256 record.runId (record.attemptCount + 1)) >>=
    fun attemptId => submitAttempt sha256 stored plan now (record.attemptCount + 1) attemptId

/-- Claims and dispatches one hosted run. -/
def dispatchRunAttempt (submission : RunSubmission) (plan : ExecutionPlan) (now : ℤ) :
    Action StoredRun :=
  liftContract (validateSubmissionPlan submission plan) >>= fun _ =>
    let candidate := createRunRecord sha256 submission
    .call (.claim candidate) fun (claimed : Except RunStoreError RunClaim) =>
      liftStore claimed >>= fun claim =>
        if claim.stored.record.submissionSha256 ≠ candidate.submissionSha256 then
          .raise (.store (.idempotencyConflict
            "the idempotency key belongs to a different logical submission"))
        else dispatchStoredRunAttempt sha256 claim.stored plan now

/-- What a reconciler saves for an observation, if anything. -/
def observedRecord (record : RunRecord) (observation : BackendObservation) :
    Except ContractError (Option RunRecord) :=
  if observation.executionState = .terminal then do
    let updated ← transitionRun sha256 record .terminal observation.observedAt
      { outcome := some observation.outcome, resultsState := some observation.resultsState,
        cleanupState := some observation.cleanupState, stage := observation.stage,
        resultSummary := observation.resultSummary }
    return some updated
  else if record.runState = .terminal then .ok none
  else
    let nextState := if record.runState = .canceling then HostedRunState.canceling else .running
    if record.runState = nextState && record.stage = observation.stage then .ok none
    else do
      let updated ← transitionRun sha256 record nextState observation.observedAt
        { stage := observation.stage }
      return some updated

/-- Observes a dispatched run and saves what changed. -/
def observeStored (stored : StoredRun) (plan : ExecutionPlan) (handle : BackendHandle) :
    Action StoredRun :=
  .call (.observe plan handle) fun (observed : Option BackendObservation) =>
    match observed with
    | none => .raise .executionBackend
    | some observation =>
      liftContract (observedRecord sha256 stored.record observation) >>= fun updated =>
        match updated with
        | none => .ret stored
        | some updated =>
          if updated = stored.record then .ret stored
          else .call (.save stored updated) fun (saved : Except RunStoreError StoredRun) =>
            liftStore saved

def reconcileStored (stored : StoredRun) : Action StoredRun :=
  let record := stored.record
  if !runNeedsReconciliation record then .ret stored
  else liftRegistry (registry.select record) >>= fun plan =>
    if record.runState ∈ [HostedRunState.queued, .retrying] then
      .call .clock fun (now : ℤ) => dispatchStoredRunAttempt sha256 stored plan now
    else
      match record.backendHandle with
      | none =>
        if record.runState = .terminal then .ret stored
        else .raise (.contract (.orchestrationContract
          "an active durable run has no provider handle"))
      | some handle =>
        if record.runState = .canceling then
          .call (.cancel plan handle) fun (canceled : Option Unit) =>
            match canceled with
            | none => .raise .executionBackend
            | some _ => observeStored sha256 stored plan handle
        else observeStored sha256 stored plan handle

inductive RunState where
  | queued
  | running
  | succeeded
  | failed
  | canceling
  | canceled
  | retrying
  deriving Repr, DecidableEq

def runStateOf (record : RunRecord) : Except ContractError RunState :=
  match record.runState with
  | .queued => .ok .queued
  | .running => .ok .running
  | .retrying => .ok .retrying
  | .canceling => .ok .canceling
  | .terminal =>
    match record.outcome with
    | .succeeded => .ok .succeeded
    | .failed => .ok .failed
    | .canceled => .ok .canceled
    | .unknown => .error (.orchestrationContract "a terminal run does not have a known outcome")

/-- How a failed dispatch is reported; a lost save is answered from the stored run. -/
def recoverStart (submission : RunSubmission) : LifecycleError → Action StoredRun
  | .store (.idempotencyConflict _) => .raise (.idempotencyConflict
      "The idempotency key belongs to a different run submission.")
  | .store (.conflict _) =>
    .call (.get (logicalRunIdentity sha256 submission))
      fun (found : Except RunStoreError (Option StoredRun)) =>
        liftStore found >>= fun recovered =>
          match recovered with
          | none => .raise (.dependency "The durable run transition could not be reconciled.")
          | some stored =>
            if stored.record.submissionSha256 ≠ submission.fingerprint sha256 then
              .raise (.dependency "The durable run transition could not be reconciled.")
            else .ret stored
  | .store _ => .raise (.dependency "The hosted run could not be durably dispatched.")
  | .executionBackend => .raise (.dependency "The hosted run could not be durably dispatched.")
  | .contract _ =>
    .raise (.conflict "The hosted run request conflicts with its execution plan.")
  | e => .raise e

/-- Starts a submission: the returned status is that of a stored run. -/
def start (submission : RunSubmission) : Action (StoredRun × RunState) :=
  liftRegistry (registry.forSubmission submission) >>= fun plan =>
    liftRegistry (registry.require plan.backendId) >>= fun _ =>
      .call .clock fun (now : ℤ) =>
        (dispatchRunAttempt sha256 submission plan now).tryCatch
            (recoverStart sha256 submission) >>= fun stored =>
          liftContract (runStateOf stored.record) >>= fun state => .ret (stored, state)

/-- The answer to a cancellation. -/
structure MutationResult where
  accepted : Bool
  runId : String
  state : RunState
  deriving Repr, DecidableEq

/-- Saves a cancellation's snapshot; a lost race is a dependency error. -/
def saveCancellation (stored : StoredRun) (record : RunRecord) : Action StoredRun :=
  .call (.save stored record) fun (saved : Except RunStoreError StoredRun) =>
    match saved with
    | .ok stored => .ret stored
    | .error (.conflict _) =>
      .raise (.dependency "The cancellation raced with another run transition.")
    | .error (.idempotencyConflict _) =>
      .raise (.dependency "The cancellation raced with another run transition.")
    | .error e => .raise (.store e)

def requireRun (runId : String) : Action StoredRun :=
  .call (.get runId) fun (found : Except RunStoreError (Option StoredRun)) =>
    match found with
    | .error _ => .raise (.dependency "Durable run state is temporarily unavailable.")
    | .ok none => .raise (.notFound "The run does not exist.")
    | .ok (some stored) => .ret stored

/-- Marks a dispatched run as canceling, unless it is already. -/
def markCanceling (stored : StoredRun) : Action StoredRun :=
  if stored.record.runState = .canceling then .ret stored
  else .call .clock fun (now : ℤ) =>
    liftContract (transitionRun sha256 stored.record .canceling now
      { stage := some "canceling" }) >>= fun canceling => saveCancellation stored canceling

def cancelOnce (runId : String) : Action MutationResult :=
  requireRun runId >>= fun stored =>
    let record := stored.record
    if record.runState = .terminal then
      liftContract (runStateOf record) >>= fun state => .ret ⟨false, runId, state⟩
    else if record.runState = .queued then
      .call .clock fun (now : ℤ) =>
        liftContract (transitionRun sha256 record .terminal now
          { outcome := some .canceled, resultsState := some .unavailable,
            cleanupState := some .confirmed, stage := some "canceled" }) >>= fun canceled =>
          saveCancellation stored canceled >>= fun saved =>
            liftContract (runStateOf saved.record) >>= fun state => .ret ⟨true, runId, state⟩
    else if record.backendHandle.isNone then
      .raise (.conflict "The running execution does not have a provider handle.")
    else markCanceling sha256 stored >>= fun stored =>
      liftRegistry (registry.select stored.record) >>= fun plan =>
        match stored.record.backendHandle with
        | none => .raise (.conflict "The running execution does not have a provider handle.")
        | some handle => .call (.cancel plan handle) fun (canceled : Option Unit) =>
          match canceled with
          | none => .raise (.dependency "The provider cancellation could not be confirmed.")
          | some _ => .ret ⟨true, runId, .canceling⟩

end Programs

section Workers

/-- One call of a worker. -/
inductive Work where
  | dispatch (submission : RunSubmission) (plan : ExecutionPlan) (now : ℤ)
  | dispatchStored (stored : StoredRun) (plan : ExecutionPlan) (now : ℤ)
  | reconcile (stored : StoredRun)
  | cancel (runId : String)
  deriving Repr, DecidableEq

inductive Outcome where
  | run (stored : StoredRun)
  | mutation (result : MutationResult)
  deriving Repr, DecidableEq

/-- The registry belongs to the process the worker runs in. -/
structure Call where
  registry : Registry
  work : Work
  deriving Repr, DecidableEq

def perform (sha256 : String → String) (call : Call) : Action Outcome :=
  match call.work with
  | .dispatch submission plan now =>
    dispatchRunAttempt sha256 submission plan now >>= fun stored => .ret (.run stored)
  | .dispatchStored stored plan now =>
    dispatchStoredRunAttempt sha256 stored plan now >>= fun stored => .ret (.run stored)
  | .reconcile stored =>
    reconcileStored sha256 call.registry stored >>= fun stored => .ret (.run stored)
  | .cancel runId =>
    cancelOnce sha256 call.registry runId >>= fun result => .ret (.mutation result)

end Workers

end Dander.Lifecycle
