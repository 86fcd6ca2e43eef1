import Dander.FargateExecution
import Dander.RuntimeEvents

/-!
# Collecting the result of an execution from its log

A backend reads the log of an execution page by page, and the completion line of the runtime is
looked for in the pages.
-/
namespace Dander.Orchestration

open JsonText RuntimeContract

inductive CollectError where
  | collection (message : String)
  | integerTooLong
  | backend (e : Fargate.ObserveError)
  deriving DecidableEq

section Parsing

def maxOperations : ℕ := 10000

def ExecutionResultSummary.numbers (summary : ExecutionResultSummary) : List ℕ :=
  [summary.endpoints, summary.extractedRows, summary.affectedRows, summary.models,
    summary.assertions, summary.assets, summary.durationMs, summary.operationCount,
    summary.retryCount, summary.rowsRead, summary.rowsWritten, summary.rowsAffected,
    summary.bytesRead, summary.bytesWritten, summary.bytesProcessed, summary.bytesBilled,
    summary.queueDurationMs, summary.executionDurationMs, summary.spillBytes]

/-- What every error raised on the way by the interpreter or a constructor is turned into. -/
def invalidResult : CollectError := .collection "runtime completion result is invalid"

def item (key : String) (members : List (String × Json)) : Except CollectError Json :=
  match lookup key members with
  | some value => .ok value
  | none => .error invalidResult

/-- `_mapping` -/
def mapping (value : Json) (label : String) : Except CollectError (List (String × Json)) :=
  match value with
  | .obj members => .ok members
  | _ => .error (.collection (label ++ " must be an object"))

/-- `_integer` -/
def integer (value : Json) (label : String) : Except CollectError ℕ :=
  match value with
  | .int (.ofNat n) => .ok n
  | _ => .error (.collection ("runtime " ++ label ++ " must be non-negative"))

def number (members : List (String × Json)) (key : String) : Except CollectError ℕ := do
  integer (← item key members) key

def isText (text : String) : Option Json → Bool
  | some (.str value) => value = text
  | _ => false

/-- Whether the execution was skipped; a status that cannot be hashed is an error of its own. -/
def completionSkipped : Option Json → Except CollectError Bool
  | some (.str status) =>
    if status = "succeeded" then .ok false
    else if status = "skipped" then .ok true
    else .error (.collection "successful provider execution lacks a successful runtime completion")
  | some (.arr _) => .error invalidResult
  | some (.obj _) => .error invalidResult
  | _ =>
    .error (.collection "successful provider execution lacks a successful runtime completion")

def operationCount (telemetry : List (String × Json)) : Except CollectError ℕ := do
  match ← item "operations" telemetry with
  | .arr operations =>
    if maxOperations < operations.length then
      throw (.collection "runtime telemetry operations are invalid")
    else return operations.length
  | _ => throw (.collection "runtime telemetry operations are invalid")

def metricKeys : List String :=
  ["endpoints", "extracted_rows", "affected_rows", "models", "assertions", "assets"]

def telemetryKeys : List String :=
  ["duration_ms", "retry_count", "rows_read", "rows_written", "rows_affected", "bytes_read",
    "bytes_written", "bytes_processed", "bytes_billed", "queue_duration_ms",
    "execution_duration_ms", "spill_bytes"]

/-- The numbers found under these keys become the fields of a summary. -/
def summaryOf (metrics telemetry : List ℕ) (operations : ℕ) (skipped : Bool) :
    Option ExecutionResultSummary :=
  match metrics, telemetry with
  | [endpoints, extractedRows, affectedRows, models, assertions, assets],
    [durationMs, retryCount, rowsRead, rowsWritten, rowsAffected, bytesRead, bytesWritten,
      bytesProcessed, bytesBilled, queueDurationMs, executionDurationMs, spillBytes] =>
    some ⟨endpoints, extractedRows, affectedRows, models, assertions, assets, durationMs,
      operations, retryCount, rowsRead, rowsWritten, rowsAffected, bytesRead, bytesWritten,
      bytesProcessed, bytesBilled, queueDurationMs, executionDurationMs, spillBytes, skipped⟩
  | _, _ => none

/-- The constructor's check of the numbers. -/
def checkedSummary : Option ExecutionResultSummary → Except CollectError ExecutionResultSummary
  | some summary =>
    if summary.numbers.any fun n => maxResultInteger < n then .error invalidResult
    else .ok summary
  | none => .error invalidResult

/-- The summary of a completion event of the pipeline. -/
def completionSummary (event : List (String × Json)) (skipped : Bool) :
    Except CollectError ExecutionResultSummary := do
  let outputs ← mapping (← item "outputs" event) "runtime outputs"
  let metrics ← mapping (← item "metrics" outputs) "runtime metrics"
  let telemetry ← mapping (← item "telemetry" outputs) "runtime telemetry"
  let operations ← operationCount telemetry
  let counts ← metricKeys.mapM (number metrics)
  let totals ← telemetryKeys.mapM (number telemetry)
  checkedSummary (summaryOf counts totals operations skipped)

def parseCompletion (pipelineId : String) (event : List (String × Json)) :
    Except CollectError ExecutionResultSummary := do
  if !isText runtimeContract (lookup "contract" event) then
    throw (.collection "runtime completion contract is unsupported")
  if !isText pipelineId (lookup "pipeline_id" event) then
    throw (.collection "runtime completion does not match the execution plan")
  let skipped ← completionSkipped (lookup "status" event)
  completionSummary event skipped

/-- `parse_execution_result_summary`. An integer with too many digits is not caught. -/
def parseExecutionResultSummary (pipelineId message : String) :
    Except CollectError (Option ExecutionResultSummary) :=
  match loads message with
  | .error .malformed => .ok none
  | .error .digits => .error .integerTooLong
  | .ok (.obj event) =>
    if isText "runtime.completed" (lookup "event" event) then
      (parseCompletion pipelineId event).map some
    else .ok none
  | .ok _ => .ok none

end Parsing

section Pages

/-- One page of the messages of a log. Cursors are the places where pages begin. -/
structure BackendLogPage where
  messages : List String
  nextCursor : Option ℕ

/-- What a logging service answers to a request for the page at a cursor. -/
def servedPage {α : Type} (entries : List α) (cursor : Option ℕ) (limit : ℕ) : List α × Option ℕ :=
  let start := cursor.getD 0
  ((entries.drop start).take limit,
    if start + limit < entries.length then some (start + limit) else none)

def maxLogMessageLength : ℕ := 16384

/-- A message cut down to the longest that is allowed. -/
def boundedMessage (message : String) : String :=
  if maxLogMessageLength < message.toList.length then
    String.ofList (message.toList.take (maxLogMessageLength - 3)) ++ "..."
  else message

/-- An entry of Cloud Logging. -/
structure LogEntry where
  textPayload : Option Json
  jsonPayload : Option Json

/-- `_log_message` -/
def logMessage (entry : LogEntry) : Except CollectError String :=
  match entry.textPayload with
  | some (.str text) => .ok (boundedMessage (if text = "" then "(empty log entry)" else text))
  | _ =>
    match entry.jsonPayload with
    | some (.obj payload) =>
      match dumps ⟨false, true⟩ (sortKeys (.obj payload)) with
      | .ok message => .ok (boundedMessage message)
      | .error _ => .error .integerTooLong
    | _ => .ok "(structured log entry)"

/-- `CloudRunExecutionBackend.logs`, of an execution whose entries the service holds. -/
def cloudRunLogs (entries : List LogEntry) (cursor : Option ℕ) (limit : ℕ) :
    Except CollectError BackendLogPage := do
  if limit < 1 || 500 < limit then
    throw (.backend (.executionBackend "Cloud Run log page size is invalid."))
  let (rawEntries, nextCursor) := servedPage entries cursor limit
  if limit < rawEntries.length then
    throw (.backend (.executionBackend "Cloud Run returned an invalid log page."))
  let messages ← rawEntries.mapM logMessage
  return ⟨messages, if nextCursor = cursor then none else nextCursor⟩

def fargateMessage (message : String) : String :=
  boundedMessage (if message = "" then "(empty log event)" else message)

/-- The task whose log is read: the output of the execution names it, or its history. -/
def fargateTask (binding : Fargate.FargateBinding) (planRevision : String)
    (handle : BackendHandle) (state : Fargate.ProviderState) :
    Except Fargate.ObserveError (Option String) := do
  let execution ← Fargate.describeExecution handle planRevision state
  let output := (Fargate.jsonDocument execution.output).getD .null
  let found ← match ← Fargate.deepString Fargate.taskArnKeys Fargate.recursionLimit output with
    | some taskArn => pure (some taskArn)
    | none =>
      match state.history with
      | none => throw (.executionBackend "Fargate execution history is unavailable.")
      | some events =>
        if 100 < events.length then
          throw (.executionBackend "Fargate returned invalid execution history.")
        else Fargate.deepString Fargate.taskArnKeys Fargate.recursionLimit (.arr events)
  match found with
  | none => return none
  | some taskArn =>
    let taskId ← Fargate.validatedTaskId binding taskArn
    return some taskId

/-- `FargateExecutionBackend.logs`, where the service holds the lines of each task. -/
def fargateLogs (binding : Fargate.FargateBinding) (planRevision : String)
    (handle : BackendHandle) (state : Fargate.ProviderState) (taskLines : String → List String)
    (cursor : Option ℕ) (limit : ℕ) : Except CollectError BackendLogPage :=
  if limit < 1 || 500 < limit then
    .error (.backend (.executionBackend "Fargate log page size is invalid."))
  else
    match fargateTask binding planRevision handle state with
    | .error e => .error (.backend e)
    | .ok none => .ok ⟨[], none⟩
    | .ok (some taskId) =>
      let served := servedPage (taskLines taskId) cursor limit
      if limit < served.1.length then
        .error (.backend (.executionBackend "Fargate returned an invalid log page."))
      else .ok ⟨served.1.map fargateMessage, if served.2 = cursor then none else served.2⟩

end Pages

section Collecting

def maxLogPages : ℕ := 10

def logPageSize : ℕ := 500

/-- The first summary among messages. -/
def scanMessages (pipelineId : String) :
    List String → Except CollectError (Option ExecutionResultSummary)
  | [] => .ok none
  | message :: rest => do
    match ← parseExecutionResultSummary pipelineId message with
    | some summary => return some summary
    | none => scanMessages pipelineId rest

def resultUnavailable : CollectError :=
  .collection "the successful execution result is temporarily unavailable"

def collectPages (readPage : Option ℕ → ℕ → Except CollectError BackendLogPage)
    (pipelineId : String) : ℕ → Option ℕ → Except CollectError ExecutionResultSummary
  | 0, _ => .error resultUnavailable
  | pages + 1, cursor => do
    let page ← readPage cursor logPageSize
    match ← scanMessages pipelineId page.messages.reverse with
    | some summary => return summary
    | none =>
      match page.nextCursor with
      | none => throw resultUnavailable
      | some next => collectPages readPage pipelineId pages (some next)

/-- `collect_execution_result_summary` -/
def collectExecutionResultSummary (readPage : Option ℕ → ℕ → Except CollectError BackendLogPage)
    (pipelineId : String) : Except CollectError ExecutionResultSummary :=
  collectPages readPage pipelineId maxLogPages none

end Collecting

end Dander.Orchestration
