import Dander.JsonText
import Dander.RunLifecycle

/-!
# Observing Fargate executions

The controller execution in Step Functions tells the outcome, and the task that its output or its
history names tells whether the worker is gone. Each observation is computed from what the
provider answers at that moment.
-/
namespace Dander.Fargate

open JsonText Orchestration

structure FargateBinding where
  region : String
  accountId : String
  clusterName : String
  deriving DecidableEq

inductive ObserveError where
  | executionBackend (message : String)
  | recursion
  deriving DecidableEq

/-- What `DescribeExecution` answers. -/
structure Execution where
  executionArn : String
  status : String
  input : Option String
  output : Option String

/-- What the provider answers to the calls of one observation. A call that raises answers nothing. -/
structure ProviderState where
  execution : Option Execution
  history : Option (List Json)
  tasks : String → Option (List (String × Json))
  resultSummary : Option ExecutionResultSummary
  now : ℤ

section Documents

/-- `_json_document` -/
def jsonDocument (value : Option String) : Option Json :=
  match value with
  | none => none
  | some text =>
    if 262144 < text.toList.length then none
    else
      match loads text with
      | .ok document => some document
      | .error _ => none

def startsDocument (value : String) : Bool :=
  match value.toList with
  | c :: _ => c = '{' || c = '['
  | [] => false

mutual

/-- `_deep_string`, down to the depth at which the interpreter stops. -/
def deepString (keys : List String) : ℕ → Json → Except ObserveError (Option String)
  | 0, _ => .error .recursion
  | depth + 1, value =>
    match value with
    | .obj members => deepMembers keys depth members
    | .arr items => deepItems keys depth items
    | .str text =>
      if startsDocument text then
        match jsonDocument (some text) with
        | some nested => deepString keys depth nested
        | none => .ok none
      else .ok none
    | _ => .ok none

def deepItems (keys : List String) : ℕ → List Json → Except ObserveError (Option String)
  | _, [] => .ok none
  | 0, _ :: _ => .error .recursion
  | depth + 1, child :: rest => do
    match ← deepString keys depth child with
    | some found => return some found
    | none => deepItems keys (depth + 1) rest

def deepMembers (keys : List String) :
    ℕ → List (String × Json) → Except ObserveError (Option String)
  | _, [] => .ok none
  | 0, _ :: _ => .error .recursion
  | depth + 1, (key, child) :: rest =>
    let deeper : Except ObserveError (Option String) := do
      match ← deepString keys depth child with
      | some found => return some found
      | none => deepMembers keys (depth + 1) rest
    match child with
    | .str text => if key ∈ keys then .ok (some text) else deeper
    | _ => deeper

end

def recursionLimit : ℕ := 1000

def taskArnKeys : List String := ["task_arn", "taskArn", "TaskArn"]

end Documents

section Cleanup

def splitSlashes (text : String) : List String :=
  (text.toList.splitOn '/').map String.ofList

def isTaskId (text : String) : Bool :=
  decide (text.toList.length = 32) &&
    text.toList.all fun c => c.isDigit || decide ('a' ≤ c ∧ c ≤ 'f')

/-- `_validated_task_id` -/
def validatedTaskId (binding : FargateBinding) (taskArn : String) : Except ObserveError String :=
  let partitionName := if binding.region.startsWith "us-gov-" then "aws-us-gov" else "aws"
  let start := "arn:" ++ partitionName ++ ":ecs:" ++ binding.region ++ ":" ++ binding.accountId ++
    ":task/"
  if start.toList.isPrefixOf taskArn.toList then
    match splitSlashes (String.ofList (taskArn.toList.drop start.toList.length)) with
    | [taskId] =>
      if isTaskId taskId then .ok taskId
      else .error (.executionBackend "Fargate returned an invalid task identity.")
    | [cluster, taskId] =>
      if cluster ≠ binding.clusterName then
        .error (.executionBackend "Fargate returned a task outside its cluster.")
      else if isTaskId taskId then .ok taskId
      else .error (.executionBackend "Fargate returned an invalid task identity.")
    | _ => .error (.executionBackend "Fargate returned an invalid task identity.")
  else .error (.executionBackend "Fargate returned a task outside its binding.")

def noFailures (members : List (String × Json)) : Bool :=
  match lookup "failures" members with
  | none => true
  | some .null => true
  | some (.arr []) => true
  | some _ => false

/-- The only task of an answer. -/
def onlyTask (members : List (String × Json)) : Option Json :=
  match lookup "tasks" members with
  | some (.arr [task]) => some task
  | _ => none

/-- What the description of a task says of its cleanup. -/
def taskCleanup (taskArn : String) : Json → CleanupState
  | .obj task =>
    match lookup "taskArn" task with
    | some (.str arn) =>
      if arn ≠ taskArn then .uncertain
      else
        match lookup "lastStatus" task with
        | some (.str status) => if status = "STOPPED" then .confirmed else .pending
        | _ => .pending
    | _ => .uncertain
  | _ => .uncertain

/-- `_cleanup_state` -/
def cleanupState (binding : FargateBinding) (taskArn : Option String) (state : ProviderState) :
    CleanupState :=
  match taskArn with
  | none => .uncertain
  | some taskArn =>
    match validatedTaskId binding taskArn with
    | .error _ => .uncertain
    | .ok _ =>
      match state.tasks taskArn with
      | none => .uncertain
      | some members =>
        if noFailures members then
          match onlyTask members with
          | none => .uncertain
          | some task => taskCleanup taskArn task
        else .uncertain

end Cleanup

section Outcome

/-- The terminal statuses. -/
inductive TerminalStatus where
  | succeeded
  | failed
  | timedOut
  | aborted
  | pendingRedrive
  deriving DecidableEq

def terminalStatus : String → Option TerminalStatus
  | "SUCCEEDED" => some .succeeded
  | "FAILED" => some .failed
  | "TIMED_OUT" => some .timedOut
  | "ABORTED" => some .aborted
  | "PENDING_REDRIVE" => some .pendingRedrive
  | _ => none

def outcomeOf : TerminalStatus → RunOutcome
  | .succeeded => .succeeded
  | .aborted => .canceled
  | _ => .failed

/-- `_normalized_stage` -/
def normalizedStage : TerminalStatus → String
  | .succeeded => "succeeded"
  | .failed => "failed"
  | .timedOut => "timed_out"
  | .aborted => "canceled"
  | .pendingRedrive => "pending_redrive"

/-- `[a-z][a-z0-9_.-]{0,127}` -/
def isFailureCode (text : String) : Bool :=
  match text.toList with
  | [] => false
  | c :: rest => decide ('a' ≤ c ∧ c ≤ 'z') && decide (rest.length ≤ 127) &&
      rest.all fun d => decide ('a' ≤ d ∧ d ≤ 'z') || d.isDigit || d = '_' || d = '.' || d = '-'

/-- `_normalized_failure_code` -/
def normalizedFailureCode (status : TerminalStatus) (details : Json) :
    Except ObserveError (Option String) := do
  match status with
  | .succeeded => return none
  | .aborted => return some "operator_cancelled"
  | _ =>
    let fallback := if status = .timedOut then "launcher_deadline_exceeded"
      else "launcher_execution_failed"
    match ← deepString ["failure_code"] recursionLimit details with
    | some code => return some (if isFailureCode code then code else fallback)
    | none => return some fallback

end Outcome

section Observe

/-- An observation with the failure code that is not recorded. -/
structure FargateObservation where
  observation : BackendObservation
  failureCode : Option String

/-- `_describe_execution` -/
def describeExecution (handle : BackendHandle) (planRevision : String) (state : ProviderState) :
    Except ObserveError Execution := do
  let some execution := state.execution
    | throw (.executionBackend "Fargate execution observation failed.")
  if execution.executionArn ≠ handle.executionId then
    throw (.executionBackend "Fargate returned an unexpected execution.")
  match jsonDocument execution.input with
  | some (.obj request) =>
    match lookup "deployment_revision" request with
    | some (.str revision) =>
      if revision = planRevision then return execution
      else throw (.executionBackend "Fargate execution input does not match its plan.")
    | _ => throw (.executionBackend "Fargate execution input does not match its plan.")
  | _ => throw (.executionBackend "Fargate execution input does not match its plan.")

/-- The history that is read when the execution has not succeeded. -/
def executionHistory (status : TerminalStatus) (state : ProviderState) : List Json :=
  if status = .succeeded then []
  else
    match state.history with
    | some events => if events.length ≤ 100 then events else []
    | none => []

/-- The summary that goes with an outcome. -/
def collectSummary (outcome : RunOutcome) (state : ProviderState) :
    Except ObserveError (Option ExecutionResultSummary) :=
  if outcome = .succeeded then
    match state.resultSummary with
    | some summary => .ok (some summary)
    | none => .error (.executionBackend "Fargate result summary is temporarily unavailable.")
  else .ok none

/-- The end of `observe`, for a terminal status. -/
def observeTerminal (binding : FargateBinding) (state : ProviderState) (execution : Execution)
    (status : TerminalStatus) : Except ObserveError FargateObservation := do
  let output := (jsonDocument execution.output).getD .null
  let details := Json.arr [output, .arr (executionHistory status state)]
  let taskArn ← deepString taskArnKeys recursionLimit details
  let failureCode ← normalizedFailureCode status details
  let resultSummary ← collectSummary (outcomeOf status) state
  return {
    observation := {
      executionState := .terminal
      outcome := outcomeOf status
      resultsState := if outcomeOf status = .succeeded then .available else .unavailable
      cleanupState := cleanupState binding taskArn state
      observedAt := state.now
      stage := some (normalizedStage status)
      resultSummary := resultSummary }
    failureCode := failureCode }

/-- `observe`. The binding is there when `_binding_and_handle` does not raise. -/
def observe (binding : Option FargateBinding) (planRevision : String) (handle : BackendHandle)
    (state : ProviderState) : Except ObserveError FargateObservation := do
  let some binding := binding
    | throw (.executionBackend "The execution plan is not registered with Fargate.")
  let execution ← describeExecution handle planRevision state
  if execution.status = "RUNNING" then
    return {
      observation := {
        executionState := .running
        outcome := .unknown
        resultsState := .pending
        cleanupState := .pending
        observedAt := state.now
        stage := some "running"
        resultSummary := none }
      failureCode := none }
  match terminalStatus execution.status with
  | some status => observeTerminal binding state execution status
  | none => throw (.executionBackend "Fargate returned an unknown execution status.")

end Observe

end Dander.Fargate
