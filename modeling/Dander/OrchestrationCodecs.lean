import Dander.GraphCursors
import Dander.JsonLengths
import Dander.Timestamps

/-!
# Codecs of wakeups and attempts

Records are written as JSON with sorted keys, and accepted only in the bytes that they are written
as. A record cannot be built from what its checks refuse.
-/
namespace Dander.Codecs

open JsonText Python
open GraphStore (PayloadReader decodedBytes)
open Schedule (TriggerKind)

structure OrchestrationSerializationError where
  message : String
  deriving DecidableEq

section Records

/-- One provider-neutral scheduled occurrence. -/
structure ScheduleWakeup where
  triggerId : String
  planRevision : String
  scheduledOccurrence : DateTime
  valid : (isPortableId triggerId && isSha256 planRevision && scheduledOccurrence.isUtc) = true
  deriving DecidableEq

/-- UTC calendar dates: the start is inclusive and the end exclusive. -/
structure GraphRepairWindow where
  startDate : Date
  endDate : Date
  ordered : startDate.toordinal < endDate.toordinal
  deriving DecidableEq

/-- The checks of a trigger: it has an occurrence if it is scheduled, and a repair is explicit. -/
def checkTrigger (kind : TriggerKind) (triggerId : String) (scheduledOccurrence : Option DateTime)
    (replayOfRunId : Option String) (repairWindow : Option GraphRepairWindow) : Bool :=
  isPortableId triggerId &&
    (match scheduledOccurrence with
      | some occurrence => decide (kind = .schedule) && occurrence.isUtc
      | none => decide (kind ≠ .schedule)) &&
    replayOfRunId.all isOpaqueId &&
    (repairWindow.isNone || decide (kind = .api) || decide (kind = .manual))

structure RunTrigger where
  kind : TriggerKind
  triggerId : String
  scheduledOccurrence : Option DateTime
  replayOfRunId : Option String
  repairWindow : Option GraphRepairWindow
  valid : checkTrigger kind triggerId scheduledOccurrence replayOfRunId repairWindow = true
  deriving DecidableEq

variable (sha256 : String → String)

/-- `attempt_identity` of a positive attempt number. -/
def attemptIdentity (runId : String) (attemptNumber : ℤ) : String :=
  s!"attempt-{attemptNumber}-" ++ String.ofList
    ((sha256 s!"{runId}:{attemptNumber}").toList.take 20)

def checkAttempt (runId attemptId : String) (attemptNumber : ℤ) (planId planRevision : String)
    (backendId : String) (createdAt : DateTime) : Bool :=
  isOpaqueId runId && isOpaqueId attemptId && isPortableId planId && isOpaqueId backendId &&
    isSha256 planRevision && decide (1 ≤ attemptNumber) &&
    decide (attemptId = attemptIdentity sha256 runId attemptNumber) && createdAt.isUtc

/-- The immutable intent of one provider attempt. -/
structure AttemptRecord where
  runId : String
  attemptId : String
  attemptNumber : ℤ
  planId : String
  planRevision : String
  backendId : String
  trigger : RunTrigger
  createdAt : DateTime
  valid : checkAttempt sha256 runId attemptId attemptNumber planId planRevision backendId
    createdAt = true

end Records

section Encoding

/-- Compact separators, and characters outside of ASCII as they are. -/
def canonicalStyle : Style := ⟨false, false⟩

/-- `json.dumps` with sorted keys, in UTF-8. -/
def canonicalJson (value : Json) : Except DecodeError ByteArray :=
  (dumps canonicalStyle (sortKeys value)).map String.toUTF8

def attemptRecordSchema : String := "io.dander.control.attempt-record/v1"

def scheduleWakeupSchema : String := "io.dander.control.schedule-wakeup/v1"

def optionalJson (value : Option String) : Json :=
  match value with
  | some text => .str text
  | none => .null

def wakeupPayload (wakeup : ScheduleWakeup) : List (String × Json) :=
  [("schema", .str scheduleWakeupSchema),
    ("trigger_id", .str wakeup.triggerId),
    ("plan_revision", .str wakeup.planRevision),
    ("scheduled_occurrence", .str (timestamp wakeup.scheduledOccurrence))]

def serializeScheduleWakeup (wakeup : ScheduleWakeup) : Except DecodeError ByteArray :=
  canonicalJson (.obj (wakeupPayload wakeup))

/-- `repair_window.model_dump(mode="json")` -/
def repairPayload (window : GraphRepairWindow) : Json :=
  .obj [("start_date", .str window.startDate.isoformat),
    ("end_date", .str window.endDate.isoformat)]

def triggerMembers (trigger : RunTrigger) : List (String × Json) :=
  [("kind", .str trigger.kind.value),
    ("trigger_id", .str trigger.triggerId),
    ("scheduled_occurrence", optionalJson (trigger.scheduledOccurrence.map timestamp)),
    ("replay_of_run_id", optionalJson trigger.replayOfRunId)] ++
  trigger.repairWindow.toList.map fun window => ("repair_window", repairPayload window)

/-- `_trigger_payload` -/
def triggerPayload (trigger : RunTrigger) : Json := .obj (triggerMembers trigger)

variable {sha256 : String → String}

def attemptMembers (record : AttemptRecord sha256) : List (String × Json) :=
  [("run_id", .str record.runId),
    ("attempt_id", .str record.attemptId),
    ("attempt_number", .int record.attemptNumber),
    ("plan_id", .str record.planId),
    ("plan_revision", .str record.planRevision),
    ("backend_id", .str record.backendId),
    ("trigger", triggerPayload record.trigger),
    ("created_at", .str (timestamp record.createdAt))]

def attemptPayload (record : AttemptRecord sha256) : List (String × Json) :=
  [("schema", .str attemptRecordSchema), ("record", .obj (attemptMembers record))]

def serializeAttemptRecord (record : AttemptRecord sha256) : Except DecodeError ByteArray :=
  canonicalJson (.obj (attemptPayload record))

end Encoding

section Decoding

variable (reader : PayloadReader) (builtins : Builtins)

def fail {α : Type} (message : String) : Except OrchestrationSerializationError α :=
  .error ⟨message⟩

/-- `value[key]`; a missing key makes the whole record invalid. -/
def member (members : List (String × Json)) (key invalid : String) :
    Except OrchestrationSerializationError Json :=
  match lookup key members with
  | some value => .ok value
  | none => fail invalid

def mapping (label : String) : Json → Except OrchestrationSerializationError (List (String × Json))
  | .obj members => .ok members
  | _ => fail s!"{label} must be an object"

def string (label : String) : Json → Except OrchestrationSerializationError String
  | .str value => .ok value
  | _ => fail s!"{label} must be a string"

def optionalString (label : String) : Json → Except OrchestrationSerializationError (Option String)
  | .null => .ok none
  | value => (string label value).map some

def integer (label : String) : Json → Except OrchestrationSerializationError ℤ
  | .int value => .ok value
  | _ => fail s!"{label} must be an integer"

/-- `_datetime`: Python reads the text with the numeric offset. -/
def datetime (label : String) (value : Json) : Except OrchestrationSerializationError DateTime := do
  let raw ← string label value
  if raw.toList.getLast? = some 'Z' then
    match builtins.datetimeFromisoformat
        (String.ofList (raw.toList.dropLast ++ "+00:00".toList)) with
    | some parsed => return parsed
    | none => fail s!"{label} is invalid"
  else fail s!"{label} must use canonical UTC notation"

def optionalDatetime (label : String) :
    Json → Except OrchestrationSerializationError (Option DateTime)
  | .null => .ok none
  | value => (datetime builtins label value).map some

def triggerKinds : List TriggerKind := [.api, .manual, .schedule, .dependency]

/-- `TriggerKind(value)` -/
def triggerKind (label : String) (value : Json) :
    Except OrchestrationSerializationError TriggerKind := do
  let text ← string label value
  match triggerKinds.find? fun kind => decide (kind.value = text) with
  | some kind => return kind
  | none => fail s!"{label} is unsupported"

/-- `json.loads` of a record of at most so many bytes, with the expected schema. -/
def loadEnvelope (data : ByteArray) (schema : String) (maxBytes : ℕ) (invalid : String) :
    Except OrchestrationSerializationError (List (String × Json)) := do
  if data.size = 0 ∨ maxBytes < data.size then
    fail "orchestration record size is invalid"
  else
    match decodedBytes reader data.data.toList with
    | none => fail "orchestration record is not valid JSON"
    | some text =>
      match loads text with
      | .error .malformed => fail "orchestration record is not valid JSON"
      | .error .digits => fail invalid
      | .ok value =>
        let envelope ← mapping "orchestration envelope" value
        match lookup "schema" envelope with
        | some (.str found) =>
          if found = schema then return envelope
          else fail "unsupported orchestration record schema"
        | _ => fail "unsupported orchestration record schema"

/-- The bytes are the ones that the record is written as. -/
def requireCanonical (received : ByteArray) (expected : Except DecodeError ByteArray)
    (invalid : String) : Except OrchestrationSerializationError Unit :=
  match expected with
  | .ok bytes =>
    if received = bytes then .ok () else fail "orchestration record is not canonical"
  | .error _ => fail invalid

def wakeupInvalid : String := "schedule-wakeup record is invalid"

def deserializeScheduleWakeup (data : ByteArray) :
    Except OrchestrationSerializationError ScheduleWakeup := do
  let envelope ← loadEnvelope reader data scheduleWakeupSchema 8192 wakeupInvalid
  let triggerId ← string "trigger_id" (← member envelope "trigger_id" wakeupInvalid)
  let planRevision ← string "plan_revision" (← member envelope "plan_revision" wakeupInvalid)
  let occurrence ← datetime builtins "scheduled_occurrence"
    (← member envelope "scheduled_occurrence" wakeupInvalid)
  if h : (isPortableId triggerId && isSha256 planRevision && occurrence.isUtc) = true then
    let wakeup : ScheduleWakeup := ⟨triggerId, planRevision, occurrence, h⟩
    requireCanonical data (serializeScheduleWakeup wakeup) wakeupInvalid
    return wakeup
  else fail wakeupInvalid

def attemptInvalid : String := "attempt record is invalid"

/-- `GraphRepairWindow.model_validate` -/
def repairWindow (value : Json) : Except OrchestrationSerializationError GraphRepairWindow :=
  match value with
  | .obj members =>
    match lookup "start_date" members, lookup "end_date" members with
    | some (.str start), some (.str stop) =>
      match strictDate start, strictDate stop with
      | some startDate, some endDate =>
        if h : startDate.toordinal < endDate.toordinal then
          if members.length = 2 then .ok ⟨startDate, endDate, h⟩ else fail attemptInvalid
        else fail attemptInvalid
      | _, _ => fail attemptInvalid
    | _, _ => fail attemptInvalid
  | _ => fail attemptInvalid

/-- `_trigger` -/
def trigger (value : Json) : Except OrchestrationSerializationError RunTrigger := do
  let values ← mapping "trigger" value
  let kind ← triggerKind "trigger kind" (← member values "kind" attemptInvalid)
  let triggerId ← string "trigger_id" (← member values "trigger_id" attemptInvalid)
  let occurrence ← optionalDatetime builtins "scheduled_occurrence"
    (← member values "scheduled_occurrence" attemptInvalid)
  let replay ← optionalString "replay_of_run_id" (← member values "replay_of_run_id" attemptInvalid)
  let window ← (lookup "repair_window" values).mapM repairWindow
  if h : checkTrigger kind triggerId occurrence replay window = true then
    return ⟨kind, triggerId, occurrence, replay, window, h⟩
  else fail attemptInvalid

variable (sha256 : String → String)

def deserializeAttemptRecord (data : ByteArray) :
    Except OrchestrationSerializationError (AttemptRecord sha256) := do
  let envelope ← loadEnvelope reader data attemptRecordSchema 131072 attemptInvalid
  let values ← mapping "attempt record" (← member envelope "record" attemptInvalid)
  let runId ← string "run_id" (← member values "run_id" attemptInvalid)
  let attemptId ← string "attempt_id" (← member values "attempt_id" attemptInvalid)
  let attemptNumber ← integer "attempt_number" (← member values "attempt_number" attemptInvalid)
  let planId ← string "plan_id" (← member values "plan_id" attemptInvalid)
  let planRevision ← string "plan_revision" (← member values "plan_revision" attemptInvalid)
  let backendId ← string "backend_id" (← member values "backend_id" attemptInvalid)
  let decoded ← trigger builtins (← member values "trigger" attemptInvalid)
  let createdAt ← datetime builtins "created_at" (← member values "created_at" attemptInvalid)
  if h : checkAttempt sha256 runId attemptId attemptNumber planId planRevision backendId
      createdAt = true then
    let record : AttemptRecord sha256 := ⟨runId, attemptId, attemptNumber, planId, planRevision,
      backendId, decoded, createdAt, h⟩
    requireCanonical data (serializeAttemptRecord record) attemptInvalid
    return record
  else fail attemptInvalid

end Decoding

section Candidates

structure OrchestrationContractError where
  message : String
  deriving DecidableEq

def maxResultInteger : ℤ := 9223372036854775807

def checkCandidate (planRevision name : String) (number : ℤ) : Bool :=
  isSha256 planRevision && isPortableId name && decide (0 ≤ number) &&
    decide (number ≤ maxResultInteger)

/-- One static cost and locality estimate of a plan revision. -/
structure PlacementCandidate where
  planRevision : String
  locality : String
  estimatedCostMicrousd : ℤ
  valid : checkCandidate planRevision locality estimatedCostMicrousd = true
  deriving DecidableEq

/-- A plan revision's named ceiling of its input. -/
structure SizeClassCandidate where
  planRevision : String
  sizeClass : String
  maxInputBytes : ℤ
  valid : checkCandidate planRevision sizeClass maxInputBytes = true
  deriving DecidableEq

/-- The texts of the errors of one kind of candidates. -/
structure CandidateErrors where
  parts : String
  number : String
  planRevision : String
  name : String
  bound : String
  canonical : String

/-- What the constructor of a candidate raises when its check fails. -/
def invalidCandidate (errors : CandidateErrors) (planRevision name : String) : String :=
  if isSha256 planRevision = false then errors.planRevision
  else if isPortableId name = false then errors.name
  else errors.bound

/-- `",".join` of the three parts. -/
def formatCandidate (planRevision name : String) (number : ℤ) : String :=
  planRevision ++ "," ++ name ++ "," ++ toString number

variable {C : Type} (builtins : Builtins)

def parseCandidate (errors : CandidateErrors)
    (build : (planRevision name : String) → (number : ℤ) →
      checkCandidate planRevision name number = true → C)
    (format : C → String) (value : String) : Except OrchestrationContractError C :=
  match value.toList.splitOn ',' with
  | [revision, name, text] =>
    match builtins.int (String.ofList text) with
    | some number =>
      if h : checkCandidate (String.ofList revision) (String.ofList name) number = true then
        let candidate := build (String.ofList revision) (String.ofList name) number h
        if format candidate ≠ value then .error ⟨errors.canonical⟩ else .ok candidate
      else .error ⟨invalidCandidate errors (String.ofList revision) (String.ofList name)⟩
    | none => .error ⟨errors.number⟩
  | _ => .error ⟨errors.parts⟩

def placementErrors : CandidateErrors where
  parts := "placement candidate must use revision,locality,estimated-cost-microusd syntax"
  number := "placement candidate estimated cost must be an integer"
  planRevision := "placement candidate plan revision must be a lowercase SHA-256"
  name := "placement locality identifier is malformed"
  bound := "placement estimated cost must be bounded non-negative micro-USD"
  canonical := "placement candidate syntax is not canonical"

def formatPlacementCandidateSpec (candidate : PlacementCandidate) : String :=
  formatCandidate candidate.planRevision candidate.locality candidate.estimatedCostMicrousd

def parsePlacementCandidateSpec (value : String) :
    Except OrchestrationContractError PlacementCandidate :=
  parseCandidate builtins placementErrors PlacementCandidate.mk formatPlacementCandidateSpec value

def sizeClassErrors : CandidateErrors where
  parts := "size-class candidate must use revision,size-class,max-input-bytes syntax"
  number := "size-class candidate maximum input must be an integer"
  planRevision := "size-class candidate plan revision must be a lowercase SHA-256"
  name := "size class identifier is malformed"
  bound := "size-class maximum input must be bounded non-negative bytes"
  canonical := "size-class candidate syntax is not canonical"

def formatSizeClassCandidateSpec (candidate : SizeClassCandidate) : String :=
  formatCandidate candidate.planRevision candidate.sizeClass candidate.maxInputBytes

def parseSizeClassCandidateSpec (value : String) :
    Except OrchestrationContractError SizeClassCandidate :=
  parseCandidate builtins sizeClassErrors SizeClassCandidate.mk formatSizeClassCandidateSpec value

end Candidates

end Dander.Codecs
