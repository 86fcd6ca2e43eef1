import Dander.ScheduleRecords

/-!
# Hosted runs

Run records, their identity, and the one transition function every lifecycle step goes
through. The constructor's checks run again on every copy the code makes of a record.
-/
namespace Dander.Orchestration

open Schedule (TriggerKind)

inductive HostedRunState where
  | queued
  | running
  | retrying
  | canceling
  | terminal
  deriving Repr, DecidableEq

def HostedRunState.value : HostedRunState → String
  | .queued => "queued"
  | .running => "running"
  | .retrying => "retrying"
  | .canceling => "canceling"
  | .terminal => "terminal"

inductive RunOutcome where
  | succeeded
  | failed
  | canceled
  | unknown
  deriving Repr, DecidableEq

inductive ResultsState where
  | pending
  | available
  | unavailable
  deriving Repr, DecidableEq

inductive CleanupState where
  | pending
  | confirmed
  | uncertain
  deriving Repr, DecidableEq

inductive BackendExecutionState where
  | submitted
  | running
  | terminal
  | unknown
  deriving Repr, DecidableEq

inductive PlacementMode where
  | automatic
  | manualOverride
  | configuredDefault
  | scheduled
  | replay
  deriving Repr, DecidableEq

inductive SizeClassMode where
  | automaticInput
  | manualOverride
  | configuredDefault
  | scheduled
  | replay
  deriving Repr, DecidableEq

def maxResultInteger : ℕ := 9223372036854775807

structure PlacementDecision where
  mode : PlacementMode
  selectedEnvironment : String
  selectedLocality : Option String
  estimatedCostMicrousd : Option ℕ
  preferredLocality : Option String
  maxCostMicrousd : Option ℕ
  eligiblePlanCount : ℕ
  deriving Repr, DecidableEq

structure SizeClassDecision where
  mode : SizeClassMode
  selectedSizeClass : String
  estimatedInputBytes : Option ℕ
  maxInputBytes : ℕ
  cpuMillis : ℕ
  memoryMib : ℕ
  ephemeralStorageMib : Option ℕ
  eligiblePlanCount : ℕ
  estimateSource : Option String
  estimateObservedAt : Option ℤ
  deriving Repr, DecidableEq

/-- Aggregates of one completed runtime event. -/
structure ExecutionResultSummary where
  endpoints : ℕ
  extractedRows : ℕ
  affectedRows : ℕ
  models : ℕ
  assertions : ℕ
  assets : ℕ
  durationMs : ℕ
  operationCount : ℕ
  retryCount : ℕ
  rowsRead : ℕ
  rowsWritten : ℕ
  rowsAffected : ℕ
  bytesRead : ℕ
  bytesWritten : ℕ
  bytesProcessed : ℕ
  bytesBilled : ℕ
  queueDurationMs : ℕ
  executionDurationMs : ℕ
  spillBytes : ℕ
  skipped : Bool
  deriving Repr, DecidableEq

/-- UTC calendar days: the start is inclusive and the end exclusive. -/
structure GraphRepairWindow where
  startDate : ℤ
  endDate : ℤ
  deriving Repr, DecidableEq

structure RunTrigger where
  kind : TriggerKind
  triggerId : String
  scheduledOccurrence : Option ℤ
  replayOfRunId : Option String
  repairWindow : Option GraphRepairWindow
  deriving Repr, DecidableEq

structure BackendHandle where
  backendId : String
  executionId : String
  deriving Repr, DecidableEq

/-- The graph document a submission was resolved against. -/
structure GraphReference where
  project : String
  graph : String
  revision : String
  contentSha256 : String
  deriving Repr, DecidableEq

structure RunSubmission where
  environment : String
  project : String
  graph : GraphReference
  planId : String
  planRevision : String
  trigger : RunTrigger
  idempotencyKey : String
  requestedAt : ℤ
  requestedDeadlineSeconds : Option ℕ
  placementDecision : Option PlacementDecision
  sizeClassDecision : Option SizeClassDecision
  deriving Repr, DecidableEq

structure RunRecord where
  runId : String
  environment : String
  project : String
  graph : String
  graphRevision : String
  graphContentSha256 : String
  planId : String
  planRevision : String
  trigger : RunTrigger
  idempotencyKeySha256 : String
  submissionSha256 : String
  requestedAt : ℤ
  requestedDeadlineSeconds : Option ℕ
  runState : HostedRunState
  outcome : RunOutcome
  resultsState : ResultsState
  cleanupState : CleanupState
  createdAt : ℤ
  updatedAt : ℤ
  terminalAt : Option ℤ
  stage : Option String
  attemptCount : ℕ
  currentAttemptId : Option String
  backendHandle : Option BackendHandle
  resultSummary : Option ExecutionResultSummary
  placementDecision : Option PlacementDecision
  sizeClassDecision : Option SizeClassDecision
  deriving Repr, DecidableEq

/-- A snapshot with the revision it was read at. -/
structure StoredRun where
  record : RunRecord
  revision : ℕ
  deriving Repr, DecidableEq

structure RunClaim where
  stored : StoredRun
  created : Bool
  deriving Repr, DecidableEq

/-- The intent record of one provider attempt. -/
structure AttemptRecord where
  runId : String
  attemptId : String
  attemptNumber : ℕ
  planId : String
  planRevision : String
  backendId : String
  trigger : RunTrigger
  createdAt : ℤ
  deriving Repr, DecidableEq

/-- The parts of a plan that dispatching reads; the launch template goes to the backend
unread, but for its task count. -/
structure ExecutionPlan where
  planId : String
  environment : String
  project : String
  graph : String
  graphRevision : String
  graphContentSha256 : String
  backendId : String
  deadlineSeconds : ℕ
  maxAttempts : ℕ
  taskCount : ℕ
  revision : String
  deriving Repr, DecidableEq

/-- One provider observation. -/
structure BackendObservation where
  executionState : BackendExecutionState
  outcome : RunOutcome
  resultsState : ResultsState
  cleanupState : CleanupState
  observedAt : ℤ
  stage : Option String
  resultSummary : Option ExecutionResultSummary
  deriving Repr, DecidableEq

/-- What a run store raises. -/
inductive RunStoreError where
  | failure (message : String)
  | conflict (message : String)
  | corruption (message : String)
  | idempotencyConflict (message : String)
  deriving Repr, DecidableEq

/-- What the orchestration contract raises. -/
inductive ContractError where
  | orchestrationContract (message : String)
  | runTransition (message : String)
  deriving Repr, DecidableEq

section Identity

/-- The submission fields that every snapshot of a run must keep. -/
structure RunIdentity where
  runId : String
  environment : String
  project : String
  graph : String
  graphRevision : String
  graphContentSha256 : String
  planId : String
  planRevision : String
  trigger : RunTrigger
  idempotencyKeySha256 : String
  submissionSha256 : String
  requestedAt : ℤ
  requestedDeadlineSeconds : Option ℕ
  createdAt : ℤ
  deriving Repr, DecidableEq

def RunRecord.identity (r : RunRecord) : RunIdentity :=
  ⟨r.runId, r.environment, r.project, r.graph, r.graphRevision, r.graphContentSha256, r.planId,
    r.planRevision, r.trigger, r.idempotencyKeySha256, r.submissionSha256, r.requestedAt,
    r.requestedDeadlineSeconds, r.createdAt⟩

def sameRunIdentity (first second : RunRecord) : Bool :=
  decide (first.identity = second.identity)

theorem sameRunIdentity_iff {a b : RunRecord} :
    sameRunIdentity a b = true ↔ a.identity = b.identity := by
  simp [sameRunIdentity]

def runNeedsReconciliation (record : RunRecord) : Bool :=
  record.runState ≠ .terminal || record.outcome = .unknown || record.resultsState = .pending ||
    record.cleanupState ≠ .confirmed

variable (sha256 : String → String)

/-- The stable logical run identity of one scoped idempotency key. -/
def runIdentity (environment project idempotencyKeySha256 : String) : String :=
  "run-" ++ String.ofList
    ((sha256 (":".intercalate [environment, project, idempotencyKeySha256])).toList.take 24)

def RunSubmission.idempotencyKeySha256 (submission : RunSubmission) : String :=
  sha256 submission.idempotencyKey

def logicalRunIdentity (submission : RunSubmission) : String :=
  runIdentity sha256 submission.environment submission.project
    (submission.idempotencyKeySha256 sha256)

def attemptIdentity (runId : String) (attemptNumber : ℕ) : Except ContractError String :=
  if attemptNumber < 1 then
    .error (.orchestrationContract "attempt number must be a positive integer")
  else if !isOpaqueId runId then
    .error (.orchestrationContract "run identifier is malformed")
  else .ok (s!"attempt-{attemptNumber}-" ++ String.ofList
    ((sha256 s!"{runId}:{attemptNumber}").toList.take 20))

end Identity

section Submission

open Schedule

variable (sha256 : String → String)

def optionalJson {α : Type} (render : α → String) : Option α → String
  | none => "null"
  | some value => render value

/-- The trigger part of a submission fingerprint; a repair window is listed only if set. -/
def triggerPayload (trigger : RunTrigger) : String :=
  let window (w : GraphRepairWindow) := jsonObject
    [("end_date", jsonAsciiString (isoDate w.endDate)),
      ("start_date", jsonAsciiString (isoDate w.startDate))]
  jsonObject <|
    [("kind", jsonAsciiString trigger.kind.value)] ++
    (match trigger.repairWindow with
      | none => []
      | some w => [("repair_window", window w)]) ++
    [("replay_of_run_id", optionalJson jsonAsciiString trigger.replayOfRunId),
      ("scheduled_occurrence", optionalJson
        (fun instant => jsonAsciiString (isoInstant instant ++ "+00:00"))
        trigger.scheduledOccurrence),
      ("trigger_id", jsonAsciiString trigger.triggerId)]

/-- Identity of the logical input, without the request time and the idempotency key. -/
def RunSubmission.fingerprint (submission : RunSubmission) : String :=
  sha256 <| jsonObject
    [("environment", jsonAsciiString submission.environment),
      ("graph", jsonAsciiString submission.graph.graph),
      ("graph_content_sha256", jsonAsciiString submission.graph.contentSha256),
      ("graph_revision", jsonAsciiString submission.graph.revision),
      ("plan_id", jsonAsciiString submission.planId),
      ("plan_revision", jsonAsciiString submission.planRevision),
      ("project", jsonAsciiString submission.project),
      ("requested_deadline_seconds", optionalJson toString submission.requestedDeadlineSeconds),
      ("trigger", triggerPayload submission.trigger)]

/-- The deterministic queued candidate of a submission. -/
def createRunRecord (submission : RunSubmission) : RunRecord where
  runId := logicalRunIdentity sha256 submission
  environment := submission.environment
  project := submission.project
  graph := submission.graph.graph
  graphRevision := submission.graph.revision
  graphContentSha256 := submission.graph.contentSha256
  planId := submission.planId
  planRevision := submission.planRevision
  trigger := submission.trigger
  idempotencyKeySha256 := submission.idempotencyKeySha256 sha256
  submissionSha256 := submission.fingerprint sha256
  requestedAt := submission.requestedAt
  requestedDeadlineSeconds := submission.requestedDeadlineSeconds
  runState := .queued
  outcome := .unknown
  resultsState := .pending
  cleanupState := .pending
  createdAt := submission.requestedAt
  updatedAt := submission.requestedAt
  terminalAt := none
  stage := none
  attemptCount := 0
  currentAttemptId := none
  backendHandle := none
  resultSummary := none
  placementDecision := submission.placementDecision
  sizeClassDecision := submission.sizeClassDecision

/-- The plan a run or a submission must select. -/
structure PlanSelection where
  environment : String
  project : String
  graph : String
  graphRevision : String
  graphContentSha256 : String
  planId : String
  planRevision : String
  deriving Repr, DecidableEq

def ExecutionPlan.selection (plan : ExecutionPlan) : PlanSelection :=
  ⟨plan.environment, plan.project, plan.graph, plan.graphRevision, plan.graphContentSha256,
    plan.planId, plan.revision⟩

def RunRecord.planSelection (record : RunRecord) : PlanSelection :=
  ⟨record.environment, record.project, record.graph, record.graphRevision,
    record.graphContentSha256, record.planId, record.planRevision⟩

def RunSubmission.planSelection (submission : RunSubmission) : PlanSelection :=
  ⟨submission.environment, submission.project, submission.graph.graph,
    submission.graph.revision, submission.graph.contentSha256, submission.planId,
    submission.planRevision⟩

/-- Rejects a plan other than the selected one before any provider request. -/
def validateSubmissionPlan (submission : RunSubmission) (plan : ExecutionPlan) :
    Except ContractError Unit := do
  if submission.trigger.repairWindow.isSome &&
      (plan.backendId ≠ "cloud_run" || plan.taskCount ≠ 1) then
    throw (.orchestrationContract "date repair requires a single-task Cloud Run plan")
  if submission.planSelection ≠ plan.selection then
    throw (.orchestrationContract "submission does not select the exact execution plan")
  if submission.requestedDeadlineSeconds.any (fun seconds => plan.deadlineSeconds < seconds) then
    throw (.orchestrationContract "requested deadline exceeds the execution plan limit")

end Submission

section Transition

variable (sha256 : String → String)

/-- The checks a record's constructor makes across its reconciliation dimensions. -/
def validateRunDimensions (record : RunRecord) : Except ContractError Unit :=
  if record.runState ≠ .terminal then
    if record.outcome ≠ .unknown then
      .error (.orchestrationContract "non-terminal runs cannot have a terminal outcome")
    else if record.resultsState ≠ .pending then
      .error (.orchestrationContract "non-terminal runs cannot have reconciled results")
    else if record.cleanupState ≠ .pending then
      .error (.orchestrationContract "non-terminal runs cannot have reconciled cleanup")
    else if record.terminalAt.isSome then
      .error (.orchestrationContract "non-terminal runs cannot have a terminal time")
    else if record.runState = .running && record.backendHandle.isNone then
      .error (.orchestrationContract "running runs require a backend handle")
    else .ok ()
  else if record.terminalAt.isNone then
    .error (.orchestrationContract "terminal runs require a terminal time")
  else .ok ()

/-- The constructor's checks that a copy with new lifecycle fields can fail. -/
def validateRunRecord (record : RunRecord) : Except ContractError Unit := do
  if record.updatedAt < record.createdAt then
    throw (.orchestrationContract "run update time predates creation")
  if (record.attemptCount == 0) != record.currentAttemptId.isNone then
    throw (.orchestrationContract "run attempt identity does not match its count")
  if record.currentAttemptId.isSome then
    let expected ← attemptIdentity sha256 record.runId record.attemptCount
    if record.currentAttemptId ≠ some expected then
      throw (.orchestrationContract "run current attempt identity is not deterministic")
  if record.stage.any (fun stage => !isSummary stage) then
    throw (.orchestrationContract "stage is malformed")
  if record.resultSummary.isSome && (record.runState ≠ .terminal ||
      record.outcome ≠ .succeeded || record.resultsState ≠ .available) then
    throw (.orchestrationContract
      "execution-result summaries require available successful terminal results")
  validateRunDimensions record

/-- The states a run may move to. -/
def allowedStates : HostedRunState → List HostedRunState
  | .queued => [.queued, .running, .canceling, .terminal]
  | .running => [.running, .retrying, .canceling, .terminal]
  | .retrying => [.retrying, .running, .canceling, .terminal]
  | .canceling => [.canceling, .terminal]
  | .terminal => [.terminal]

def allowedCleanup : CleanupState → List CleanupState
  | .pending => [.pending, .confirmed, .uncertain]
  | .uncertain => [.uncertain, .confirmed]
  | .confirmed => [.confirmed]

/-- The optional arguments of a transition. -/
structure RunChanges where
  outcome : Option RunOutcome := none
  resultsState : Option ResultsState := none
  cleanupState : Option CleanupState := none
  stage : Option String := none
  attemptCount : Option ℕ := none
  currentAttemptId : Option String := none
  backendHandle : Option BackendHandle := none
  resultSummary : Option ExecutionResultSummary := none

/-- The record after a transition, before the constructor checks it. -/
def RunRecord.changed (record : RunRecord) (runState : HostedRunState) (now : ℤ)
    (changes : RunChanges) : RunRecord :=
  { record with
    runState := runState
    outcome := changes.outcome.getD record.outcome
    resultsState := changes.resultsState.getD record.resultsState
    cleanupState := changes.cleanupState.getD record.cleanupState
    updatedAt := now
    terminalAt := if runState = .terminal && record.terminalAt.isNone then some now
      else record.terminalAt
    stage := changes.stage <|> record.stage
    attemptCount := changes.attemptCount.getD record.attemptCount
    currentAttemptId := changes.currentAttemptId <|> record.currentAttemptId
    backendHandle := changes.backendHandle <|> record.backendHandle
    resultSummary := changes.resultSummary <|> record.resultSummary }

/-- One monotonic run transition. -/
def transitionRun (record : RunRecord) (runState : HostedRunState) (now : ℤ)
    (changes : RunChanges) : Except ContractError RunRecord := do
  let updated := record.changed runState now changes
  if runState ∉ allowedStates record.runState then
    throw (.runTransition
      s!"run state cannot move from {record.runState.value} to {runState.value}")
  if record.outcome ≠ .unknown && updated.outcome ≠ record.outcome then
    throw (.runTransition "run outcome cannot change after it is established")
  if record.resultsState ≠ .pending && updated.resultsState ≠ record.resultsState then
    throw (.runTransition "run results state cannot regress or change terminal value")
  if updated.cleanupState ∉ allowedCleanup record.cleanupState then
    throw (.runTransition "run cleanup state cannot regress")
  if record.resultSummary.isSome && updated.resultSummary ≠ record.resultSummary then
    throw (.runTransition "run execution-result summary cannot change after it is set")
  if updated.resultsState = .available && updated.resultSummary.isNone then
    throw (.runTransition "available run results require an execution-result summary")
  validateRunRecord sha256 updated
  return updated

end Transition

end Dander.Orchestration
