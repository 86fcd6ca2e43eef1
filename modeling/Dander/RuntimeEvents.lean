import Dander.Identifiers
import Dander.JsonSorting

/-!
# Runtime events

What a pipeline reports when it is over: one JSON line with the aggregates of its run.
-/
namespace Dander.RuntimeContract

open JsonText

def runtimeContract : String := "io.dander.runtime/v1"

inductive RuntimeContractError where
  | physicalPlanRevision
  deriving DecidableEq

section Telemetry

inductive TelemetryOperation where
  | extract
  | load
  | query
  | transform
  | test
  | catalog
  | state
  deriving DecidableEq

def TelemetryOperation.value : TelemetryOperation → String
  | .extract => "extract"
  | .load => "load"
  | .query => "query"
  | .transform => "transform"
  | .test => "test"
  | .catalog => "catalog"
  | .state => "state"

inductive WriteTransport where
  | loadJob
  | storageWrite
  | copy
  | direct
  deriving DecidableEq

def WriteTransport.value : WriteTransport → String
  | .loadJob => "load_job"
  | .storageWrite => "storage_write"
  | .copy => "copy"
  | .direct => "direct"

/-- Amounts are the texts of their decimals. -/
structure CostAttribution where
  provider : String
  service : String
  amount : String
  currency : String
  estimated : Bool

/-- An amount of capacity with its unit. -/
structure Capacity where
  units : String
  unit : String

/-- The constructor rejects negative numbers. -/
structure OperationTelemetry where
  provider : String
  operation : TelemetryOperation
  durationMs : ℕ
  retryCount : ℕ
  rowsRead : ℕ
  rowsWritten : ℕ
  rowsAffected : ℕ
  bytesRead : ℕ
  bytesWritten : ℕ
  bytesProcessed : ℕ
  bytesBilled : ℕ
  queryId : Option String
  jobId : Option String
  costs : List CostAttribution
  queueDurationMs : ℕ
  executionDurationMs : ℕ
  spillBytes : ℕ
  resourceName : Option String
  resourceSize : Option String
  capacity : Option Capacity
  transport : Option WriteTransport

structure RunTelemetry where
  durationMs : ℕ
  operations : List OperationTelemetry

/-- Members that are there. -/
def present (members : List (String × Option Json)) : List (String × Json) :=
  members.filterMap fun member => member.2.map fun value => (member.1, value)

def CostAttribution.toPayload (cost : CostAttribution) : Json := .obj
  [("provider", .str cost.provider), ("service", .str cost.service), ("amount", .str cost.amount),
    ("currency", .str cost.currency), ("estimated", .bool cost.estimated)]

def OperationTelemetry.numericValues (operation : OperationTelemetry) : List (String × ℕ) :=
  [("duration_ms", operation.durationMs), ("retry_count", operation.retryCount),
    ("rows_read", operation.rowsRead), ("rows_written", operation.rowsWritten),
    ("rows_affected", operation.rowsAffected), ("bytes_read", operation.bytesRead),
    ("bytes_written", operation.bytesWritten), ("bytes_processed", operation.bytesProcessed),
    ("bytes_billed", operation.bytesBilled), ("queue_duration_ms", operation.queueDurationMs),
    ("execution_duration_ms", operation.executionDurationMs),
    ("spill_bytes", operation.spillBytes)]

def OperationTelemetry.toPayload (operation : OperationTelemetry) : Json := .obj <| present <|
  [("provider", some (.str operation.provider)),
    ("operation", some (.str operation.operation.value))] ++
  operation.numericValues.map (fun number => (number.1, some (.int number.2))) ++
  [("query_id", operation.queryId.map .str), ("job_id", operation.jobId.map .str),
    ("resource_name", operation.resourceName.map .str),
    ("resource_size", operation.resourceSize.map .str),
    ("transport", operation.transport.map fun transport => .str transport.value),
    ("capacity_units", operation.capacity.map fun capacity => .str capacity.units),
    ("capacity_unit", operation.capacity.map fun capacity => .str capacity.unit),
    ("costs", if operation.costs = [] then none
      else some (.arr (operation.costs.map CostAttribution.toPayload)))]

def RunTelemetry.total (telemetry : RunTelemetry) (number : OperationTelemetry → ℕ) : ℕ :=
  (telemetry.operations.map number).sum

def RunTelemetry.totals (telemetry : RunTelemetry) : List (String × ℕ) :=
  [("retry_count", telemetry.total (·.retryCount)), ("rows_read", telemetry.total (·.rowsRead)),
    ("rows_written", telemetry.total (·.rowsWritten)),
    ("rows_affected", telemetry.total (·.rowsAffected)),
    ("bytes_read", telemetry.total (·.bytesRead)),
    ("bytes_written", telemetry.total (·.bytesWritten)),
    ("bytes_processed", telemetry.total (·.bytesProcessed)),
    ("bytes_billed", telemetry.total (·.bytesBilled)),
    ("queue_duration_ms", telemetry.total (·.queueDurationMs)),
    ("execution_duration_ms", telemetry.total (·.executionDurationMs)),
    ("spill_bytes", telemetry.total (·.spillBytes))]

def RunTelemetry.payload (telemetry : RunTelemetry) : List (String × Json) :=
  [("duration_ms", .int telemetry.durationMs)] ++
    telemetry.totals.map (fun number => (number.1, .int number.2)) ++
    [("operations", .arr (telemetry.operations.map OperationTelemetry.toPayload))]

def RunTelemetry.withDuration (telemetry : RunTelemetry) (durationMs : ℕ) : RunTelemetry :=
  { telemetry with durationMs := durationMs }

end Telemetry

section Results

structure EndpointRunResult where
  endpoint : String
  extracted : ℤ
  affected : ℤ
  committedCursor : Option String

structure PipelineExecutionResult where
  runId : String
  pipelineId : String
  source : String
  endpoints : List EndpointRunResult
  models : List String
  assertions : ℤ
  assets : ℤ
  skipped : Bool
  telemetry : RunTelemetry

structure LauncherContext where
  runId : String
  launcher : String
  executionId : Option String
  attempt : ℕ
  shardIndex : ℕ
  shardCount : ℕ
  deadlineAt : Option String
  principal : Option String

def optionalText : Option String → Json
  | some value => .str value
  | none => .null

/-- `_runtime_dimensions` -/
def runtimeDimensions (context : LauncherContext) (physicalPlanRevision : Option String) :
    Except RuntimeContractError (List (String × Json)) :=
  if physicalPlanRevision.any fun revision => !isSha256 revision then
    .error .physicalPlanRevision
  else .ok <| present
    [("launcher", some (.str context.launcher)),
      ("launcher_execution_id", some (optionalText context.executionId)),
      ("attempt", some (.int context.attempt)), ("shard_index", some (.int context.shardIndex)),
      ("shard_count", some (.int context.shardCount)),
      ("deadline_at", context.deadlineAt.map .str), ("principal", context.principal.map .str),
      ("physical_plan_revision", physicalPlanRevision.map .str)]

def EndpointRunResult.payload (endpoint : EndpointRunResult) : Json := .obj
  [("name", .str endpoint.endpoint), ("extracted_rows", .int endpoint.extracted),
    ("affected_rows", .int endpoint.affected),
    ("cursor_committed", .bool endpoint.committedCursor.isSome)]

def PipelineExecutionResult.metrics (result : PipelineExecutionResult) : List (String × ℤ) :=
  [("endpoints", result.endpoints.length),
    ("extracted_rows", (result.endpoints.map (·.extracted)).sum),
    ("affected_rows", (result.endpoints.map (·.affected)).sum),
    ("models", result.models.length), ("assertions", result.assertions),
    ("assets", result.assets)]

end Results

section Events

inductive EventKind where
  | started
  | completed
  deriving DecidableEq

def EventKind.value : EventKind → String
  | .started => "runtime.started"
  | .completed => "runtime.completed"

inductive RuntimeStatus where
  | succeeded
  | skipped
  | failed
  deriving DecidableEq

def RuntimeStatus.value : RuntimeStatus → String
  | .succeeded => "succeeded"
  | .skipped => "skipped"
  | .failed => "failed"

structure RuntimeEvent where
  event : EventKind
  timestamp : String
  runId : String
  pipelineId : String
  platform : String
  stage : String
  dimensions : List (String × Json)
  status : Option RuntimeStatus
  outputs : Option (List (String × Json))
  failureCode : Option String
  retryable : Option Bool

/-- The members of the line, some of which may be missing. -/
def RuntimeEvent.members (event : RuntimeEvent) : List (String × Option Json) :=
  [("contract", some (.str runtimeContract)), ("event", some (.str event.event.value)),
    ("timestamp", some (.str event.timestamp)), ("run_id", some (.str event.runId)),
    ("pipeline_id", some (.str event.pipelineId)), ("platform", some (.str event.platform)),
    ("stage", some (.str event.stage)), ("dimensions", some (.obj event.dimensions)),
    ("status", event.status.map fun status => .str status.value),
    ("outputs", event.outputs.map .obj), ("failure_code", event.failureCode.map .str),
    ("retryable", event.retryable.map .bool)]

def RuntimeEvent.payload (event : RuntimeEvent) : List (String × Json) := present event.members

/-- `to_json` -/
def RuntimeEvent.toJson (event : RuntimeEvent) : Except DecodeError String :=
  dumps ⟨false, true⟩ (sortKeys (.obj event.payload))

/-- The telemetry that is reported with a result. -/
def PipelineExecutionResult.reportedTelemetry (result : PipelineExecutionResult)
    (durationMs : Option ℕ) : RunTelemetry :=
  match durationMs with
  | none => result.telemetry
  | some durationMs => result.telemetry.withDuration durationMs

def PipelineExecutionResult.outputs (result : PipelineExecutionResult)
    (telemetry : RunTelemetry) : List (String × Json) :=
  [("source", .str result.source),
    ("endpoints", .arr (result.endpoints.map EndpointRunResult.payload)),
    ("models", .arr (result.models.map .str)), ("telemetry", .obj telemetry.payload),
    ("metrics", .obj (result.metrics.map fun number => (number.1, .int number.2)))]

/-- `completed` -/
def RuntimeEvent.completed (result : PipelineExecutionResult) (context : LauncherContext)
    (platform : String) (durationMs : Option ℕ) (physicalPlanRevision : Option String)
    (timestamp : String) : Except RuntimeContractError RuntimeEvent := do
  let dimensions ← runtimeDimensions context physicalPlanRevision
  return {
    event := .completed
    timestamp := timestamp
    runId := result.runId
    pipelineId := result.pipelineId
    platform := platform
    stage := "complete"
    dimensions := dimensions
    status := some (if result.skipped then .skipped else .succeeded)
    outputs := some (result.outputs (result.reportedTelemetry durationMs))
    failureCode := none
    retryable := some false }

/-- `failed` -/
def RuntimeEvent.failed (context : LauncherContext) (pipelineId platform stage failureCode : String)
    (retryable : Bool) (durationMs : ℕ) (physicalPlanRevision : Option String)
    (timestamp : String) : Except RuntimeContractError RuntimeEvent := do
  let dimensions ← runtimeDimensions context physicalPlanRevision
  return {
    event := .completed
    timestamp := timestamp
    runId := context.runId
    pipelineId := pipelineId
    platform := platform
    stage := stage
    dimensions := dimensions
    status := some .failed
    outputs := some [("telemetry", .obj (RunTelemetry.mk durationMs []).payload)]
    failureCode := some failureCode
    retryable := some retryable }

end Events

section WellFormed

theorem keys_present (members : List (String × Option Json)) :
    ((present members).map Prod.fst).Sublist (members.map Prod.fst) := by
  induction members with
  | nil => exact List.Sublist.slnil
  | cons member rest ih =>
    obtain ⟨key, value⟩ := member
    cases value with
    | none => exact ih.cons key
    | some value => exact ih.cons_cons key

theorem mem_present {members : List (String × Option Json)} {key : String} {value : Json} :
    (key, value) ∈ present members ↔ (key, some value) ∈ members := by
  unfold present
  rw [List.mem_filterMap]
  constructor
  · rintro ⟨⟨name, found⟩, hmem, hvalue⟩
    cases found with
    | none => cases hvalue
    | some found =>
      cases hvalue
      exact hmem
  · intro hmem
    exact ⟨_, hmem, rfl⟩

/-- What is found under a key is what the key was given. -/
theorem lookup_present {members : List (String × Option Json)} {key : String}
    {value : Option Json} (hnodup : (members.map Prod.fst).Nodup) (hmem : (key, value) ∈ members) :
    lookup key (present members) = value := by
  have hkeys := hnodup.sublist (keys_present members)
  ext found
  rw [lookup_eq_some hkeys, mem_present]
  constructor
  · intro hfound
    have hsame := List.inj_on_of_nodup_map hnodup hfound hmem rfl
    simp only [Prod.mk.injEq, true_and] at hsame
    exact hsame.symm
  · intro hfound
    rw [← hfound]
    exact hmem

theorem wellFormed_present {members : List (String × Option Json)}
    (hnodup : (members.map Prod.fst).Nodup)
    (hvalues : ∀ member ∈ members, ∀ value ∈ member.2, WellFormed value) :
    WellFormed (.obj (present members)) := by
  refine ⟨hnodup.sublist (keys_present members), membersWellFormed_iff.mpr ?_⟩
  rintro ⟨key, value⟩ hmem
  exact hvalues _ (mem_present.mp hmem) value rfl

theorem itemsWellFormed_map {α : Type} {f : α → Json} (h : ∀ a, WellFormed (f a))
    (items : List α) : ItemsWellFormed (items.map f) := by
  induction items with
  | nil => trivial
  | cons item rest ih => exact ⟨h item, ih⟩

theorem CostAttribution.wellFormed_toPayload (cost : CostAttribution) :
    WellFormed cost.toPayload := by
  refine ⟨?_, by simp [MembersWellFormed, WellFormed]⟩
  show (["provider", "service", "amount", "currency", "estimated"] : List String).Nodup
  decide

theorem OperationTelemetry.wellFormed_toPayload (operation : OperationTelemetry) :
    WellFormed operation.toPayload := by
  apply wellFormed_present
  · show (["provider", "operation", "duration_ms", "retry_count", "rows_read", "rows_written",
      "rows_affected", "bytes_read", "bytes_written", "bytes_processed", "bytes_billed",
      "queue_duration_ms", "execution_duration_ms", "spill_bytes", "query_id", "job_id",
      "resource_name", "resource_size", "transport", "capacity_units", "capacity_unit",
      "costs"] : List String).Nodup
    decide
  · have hcosts := itemsWellFormed_map CostAttribution.wellFormed_toPayload operation.costs
    simp [OperationTelemetry.numericValues, WellFormed, hcosts]

theorem RunTelemetry.nodup_payload (telemetry : RunTelemetry) :
    (telemetry.payload.map Prod.fst).Nodup := by
  show (["duration_ms", "retry_count", "rows_read", "rows_written", "rows_affected", "bytes_read",
    "bytes_written", "bytes_processed", "bytes_billed", "queue_duration_ms",
    "execution_duration_ms", "spill_bytes", "operations"] : List String).Nodup
  decide

theorem RunTelemetry.wellFormed_payload (telemetry : RunTelemetry) :
    WellFormed (.obj telemetry.payload) := by
  have hoperations := itemsWellFormed_map OperationTelemetry.wellFormed_toPayload
    telemetry.operations
  refine ⟨telemetry.nodup_payload, membersWellFormed_iff.mpr ?_⟩
  simp [RunTelemetry.payload, RunTelemetry.totals, WellFormed, hoperations]

theorem runtimeDimensions_wellFormed {context : LauncherContext}
    {physicalPlanRevision : Option String} {dimensions : List (String × Json)}
    (h : runtimeDimensions context physicalPlanRevision = .ok dimensions) :
    WellFormed (.obj dimensions) := by
  unfold runtimeDimensions at h
  split at h
  · cases h
  · cases h
    apply wellFormed_present
    · show (["launcher", "launcher_execution_id", "attempt", "shard_index", "shard_count",
        "deadline_at", "principal", "physical_plan_revision"] : List String).Nodup
      decide
    · have hexecution : WellFormed (optionalText context.executionId) := by
        cases context.executionId <;> exact trivial
      simp [WellFormed, hexecution]

theorem PipelineExecutionResult.nodup_outputs (result : PipelineExecutionResult)
    (telemetry : RunTelemetry) : ((result.outputs telemetry).map Prod.fst).Nodup := by
  show (["source", "endpoints", "models", "telemetry", "metrics"] : List String).Nodup
  decide

theorem PipelineExecutionResult.nodup_metrics (result : PipelineExecutionResult) :
    ((result.metrics.map fun number => (number.1, Json.int number.2)).map Prod.fst).Nodup := by
  show (["endpoints", "extracted_rows", "affected_rows", "models", "assertions",
    "assets"] : List String).Nodup
  decide

theorem EndpointRunResult.wellFormed_payload (endpoint : EndpointRunResult) :
    WellFormed endpoint.payload := by
  refine ⟨?_, by simp [MembersWellFormed, WellFormed]⟩
  show (["name", "extracted_rows", "affected_rows", "cursor_committed"] : List String).Nodup
  decide

theorem PipelineExecutionResult.wellFormed_outputs (result : PipelineExecutionResult)
    (telemetry : RunTelemetry) : WellFormed (.obj (result.outputs telemetry)) := by
  refine ⟨result.nodup_outputs telemetry, membersWellFormed_iff.mpr ?_⟩
  have hendpoints := itemsWellFormed_map EndpointRunResult.wellFormed_payload result.endpoints
  have hmodels : ItemsWellFormed (result.models.map Json.str) := by
    apply itemsWellFormed_map
    intro name
    trivial
  have hmetrics :
      WellFormed (.obj (result.metrics.map fun number => (number.1, .int number.2))) := by
    refine ⟨result.nodup_metrics, ?_⟩
    simp [PipelineExecutionResult.metrics, MembersWellFormed, WellFormed]
  have htelemetry := telemetry.wellFormed_payload
  intro member hmem
  simp only [PipelineExecutionResult.outputs, List.mem_cons, List.not_mem_nil, or_false] at hmem
  rcases hmem with rfl | rfl | rfl | rfl | rfl
  · trivial
  · exact hendpoints
  · exact hmodels
  · exact htelemetry
  · exact hmetrics

theorem RuntimeEvent.nodup_members (event : RuntimeEvent) :
    (event.members.map Prod.fst).Nodup := by
  show (["contract", "event", "timestamp", "run_id", "pipeline_id", "platform", "stage",
    "dimensions", "status", "outputs", "failure_code", "retryable"] : List String).Nodup
  decide

theorem RuntimeEvent.wellFormed_payload {event : RuntimeEvent}
    (hdimensions : WellFormed (.obj event.dimensions))
    (houtputs : ∀ outputs ∈ event.outputs, WellFormed (.obj outputs)) :
    WellFormed (.obj event.payload) := by
  apply wellFormed_present event.nodup_members
  have hretryable : ∀ value : Json, event.retryable = some false ∧ Json.bool false = value ∨
      event.retryable = some true ∧ Json.bool true = value → WellFormed value := by
    rintro value (⟨-, rfl⟩ | ⟨-, rfl⟩) <;> trivial
  simp [RuntimeEvent.members]
  exact ⟨hdimensions, houtputs, hretryable⟩

theorem completed_eq_ok {result : PipelineExecutionResult} {context : LauncherContext}
    {platform : String} {durationMs : Option ℕ} {physicalPlanRevision : Option String}
    {timestamp : String} {event : RuntimeEvent}
    (h : RuntimeEvent.completed result context platform durationMs physicalPlanRevision timestamp =
      .ok event) :
    event.event = .completed ∧ event.pipelineId = result.pipelineId ∧
      event.status = some (if result.skipped then .skipped else .succeeded) ∧
      event.outputs = some (result.outputs (result.reportedTelemetry durationMs)) ∧
      WellFormed (.obj event.payload) := by
  unfold RuntimeEvent.completed at h
  cases hdimensions : runtimeDimensions context physicalPlanRevision with
  | error e => simp [hdimensions, bind, Except.bind] at h
  | ok dimensions =>
    simp only [hdimensions, bind, Except.bind] at h
    cases h
    refine ⟨rfl, rfl, rfl, rfl, RuntimeEvent.wellFormed_payload
      (runtimeDimensions_wellFormed hdimensions) ?_⟩
    intro outputs houtputs
    cases houtputs
    exact result.wellFormed_outputs _

theorem failed_eq_ok {context : LauncherContext} {pipelineId platform stage failureCode : String}
    {retryable : Bool} {durationMs : ℕ} {physicalPlanRevision : Option String}
    {timestamp : String} {event : RuntimeEvent}
    (h : RuntimeEvent.failed context pipelineId platform stage failureCode retryable durationMs
      physicalPlanRevision timestamp = .ok event) :
    event.event = .completed ∧ event.pipelineId = pipelineId ∧ event.status = some .failed ∧
      WellFormed (.obj event.payload) := by
  unfold RuntimeEvent.failed at h
  cases hdimensions : runtimeDimensions context physicalPlanRevision with
  | error e => simp [hdimensions, bind, Except.bind] at h
  | ok dimensions =>
    simp only [hdimensions, bind, Except.bind] at h
    cases h
    refine ⟨rfl, rfl, rfl, RuntimeEvent.wellFormed_payload
      (runtimeDimensions_wellFormed hdimensions) ?_⟩
    intro outputs houtputs
    cases houtputs
    exact ⟨by simp, RunTelemetry.wellFormed_payload _, trivial⟩

/-- What is found in the line of an event. -/
theorem RuntimeEvent.lookup_payload (event : RuntimeEvent) {key : String} {value : Option Json}
    (hmem : (key, value) ∈ event.members) :
    lookup key (sortedMembers event.payload) = value.map sortKeys := by
  have hnodup := event.nodup_members.sublist (keys_present event.members)
  rw [RuntimeEvent.payload, lookup_sortedMembers hnodup,
    lookup_present event.nodup_members hmem]

end WellFormed

end Dander.RuntimeContract
