import Mathlib.Data.List.Basic
import Mathlib.Tactic.Common

/-!
# Run history in SQLite, PostgreSQL and BigQuery

Each store keeps one table of run records. Run ids are the primary key of the tables of SQLite and
PostgreSQL; the table of BigQuery has none. A restart is one statement in the first two stores, and
an assertion followed by a merge in BigQuery. Timestamps are left out.
-/
namespace Dander.PipelineHistory

inductive RunStatus where
  | running
  | succeeded
  | failed
  | skipped
  deriving DecidableEq

def RunStatus.terminal : RunStatus → Bool
  | .running => false
  | .succeeded | .failed | .skipped => true

inductive RunStage where
  | ingest
  | transform
  | metadata
  | complete
  deriving DecidableEq

structure Totals where
  endpoints : ℕ
  extracted : ℕ
  affected : ℕ
  models : ℕ
  assertions : ℕ
  assets : ℕ
  deriving DecidableEq

def Totals.zero : Totals := ⟨0, 0, 0, 0, 0, 0⟩

structure RunRecord where
  runId : String
  pipelineId : String
  source : String
  status : RunStatus
  stage : RunStage
  totals : Totals
  failureStage : Option RunStage
  failureCode : Option String
  failureSummary : Option String
  deriving DecidableEq

abbrev History := List RunRecord

/-- The statements of the three stores. -/
inductive Statement where
  | insert (runId source pipelineId : String)
  | restart (runId source pipelineId : String)
  | assertRetryable (runId source pipelineId : String)
  | mergeRestart (runId source pipelineId : String)
  | checkpoint (runId : String) (stage : RunStage) (totals : Totals)
  | finish (runId : String) (status : RunStatus) (totals : Totals)
      (failureStage : Option RunStage) (failureCode failureSummary : Option String)
  | reconcile (pipelineId currentRunId : String)

section Rows

def started (runId source pipelineId : String) : RunRecord :=
  ⟨runId, pipelineId, source, .running, .ingest, .zero, none, none, none⟩

def restarted (record : RunRecord) : RunRecord :=
  { record with
    status := .running
    stage := .ingest
    totals := .zero
    failureStage := none
    failureCode := none
    failureSummary := none }

def retryableCodes : List String :=
  ["catalog_failed", "destination_write_failed", "extraction_failed", "lease_failed",
    "rate_limited"]

/-- The record is of this pipeline and source, and a retryable failure. -/
def matchesRetryable (source pipelineId : String) (record : RunRecord) : Bool :=
  decide (record.source = source ∧ record.pipelineId = pipelineId ∧ record.status = .failed) &&
    record.failureCode.any fun code => decide (code ∈ retryableCodes)

def has (history : History) (runId : String) : Bool :=
  history.any fun record => decide (record.runId = runId)

/-- `UPDATE ... WHERE run_id = ...` -/
def updateRun (runId : String) (set : RunRecord → RunRecord) (history : History) : History :=
  history.map fun record => if record.runId = runId then set record else record

/-- The stage of a finished run. -/
def finalStage (status : RunStatus) (failureStage : Option RunStage) : RunStage :=
  match status with
  | .succeeded | .skipped => .complete
  | .running | .failed => failureStage.getD .ingest

/-- All the columns that an update sets. -/
def overwritten (status : RunStatus) (stage : RunStage) (totals : Totals)
    (failureStage : Option RunStage) (failureCode failureSummary : Option String)
    (record : RunRecord) : RunRecord :=
  { record with
    status := status
    stage := stage
    totals := totals
    failureStage := failureStage
    failureCode := failureCode
    failureSummary := failureSummary }

def interruptedSummary : String := "A later execution acquired the expired pipeline lease."

def interrupted (record : RunRecord) : RunRecord :=
  { record with
    status := .failed
    failureStage := some record.stage
    failureCode := some "interrupted_run"
    failureSummary := some interruptedSummary }

/-- The older running records of the pipeline, marked as interrupted. -/
def interruptOthers (pipelineId currentRunId : String) (history : History) : History :=
  history.map fun record =>
    if record.status = .running ∧ record.pipelineId = pipelineId ∧ record.runId ≠ currentRunId then
      interrupted record
    else record

end Rows

namespace Sqlite

def start (runId source pipelineId : String) (history : History) : Except String History :=
  if has history runId then .error "UNIQUE constraint failed: runs.run_id"
  else .ok (history ++ [started runId source pipelineId])

/-- `INSERT ... ON CONFLICT(run_id) DO UPDATE ... WHERE` the record is a matching failure. -/
def restartRetryable (runId source pipelineId : String) (history : History) :
    Except String History :=
  if has history runId then
    if history.any fun record =>
        decide (record.runId = runId) && matchesRetryable source pipelineId record then
      .ok (updateRun runId restarted history)
    else .error "Run is not a matching retryable failure"
  else .ok (history ++ [started runId source pipelineId])

/-- The status and the failure are not touched. -/
def checkpoint (runId : String) (stage : RunStage) (totals : Totals) (history : History) :
    History :=
  updateRun runId (fun record => { record with stage := stage, totals := totals }) history

def finish (runId : String) (status : RunStatus) (totals : Totals)
    (failureStage : Option RunStage) (failureCode failureSummary : Option String)
    (history : History) : History :=
  updateRun runId (overwritten status (finalStage status failureStage) totals failureStage
    failureCode failureSummary) history

end Sqlite

namespace Postgresql

def start (runId source pipelineId : String) (history : History) : Except String History :=
  if has history runId then
    .error "duplicate key value violates unique constraint \"dander_runs_pkey\""
  else .ok (history ++ [started runId source pipelineId])

def restartRetryable (runId source pipelineId : String) (history : History) :
    Except String History :=
  if has history runId then
    if history.any fun record =>
        decide (record.runId = runId) && matchesRetryable source pipelineId record then
      .ok (updateRun runId restarted history)
    else .error "Run is not a matching retryable failure"
  else .ok (history ++ [started runId source pipelineId])

/-- Without a status the run is running. -/
def update (runId : String) (status : Option RunStatus) (stage : RunStage) (totals : Totals)
    (failureStage : Option RunStage) (failureCode failureSummary : Option String)
    (history : History) : History :=
  updateRun runId (overwritten (status.getD .running) stage totals failureStage failureCode
    failureSummary) history

def checkpoint (runId : String) (stage : RunStage) (totals : Totals) (history : History) :
    History :=
  update runId none stage totals none none none history

def finish (runId : String) (status : RunStatus) (totals : Totals)
    (failureStage : Option RunStage) (failureCode failureSummary : Option String)
    (history : History) : History :=
  update runId (some status) (finalStage status failureStage) totals failureStage failureCode
    failureSummary history

end Postgresql

namespace Bigquery

def start (runId source pipelineId : String) (history : History) : History :=
  history ++ [started runId source pipelineId]

/-- `ASSERT matching_count = 0 OR (matching_count = 1 AND EXISTS (...))` -/
def assertRetryable (runId source pipelineId : String) (history : History) : Except String Unit :=
  let matching := history.filter fun record => decide (record.runId = runId)
  if matching.length = 0 ∨
      (matching.length = 1 ∧ matching.any (matchesRetryable source pipelineId) = true) then .ok ()
  else .error "run is not a matching retryable failure"

def mergeRestart (runId source pipelineId : String) (history : History) : History :=
  if has history runId then updateRun runId restarted history
  else history ++ [started runId source pipelineId]

def update (runId : String) (status : Option RunStatus) (stage : Option RunStage) (totals : Totals)
    (failureStage : Option RunStage) (failureCode failureSummary : Option String)
    (history : History) : History :=
  updateRun runId (overwritten (status.getD .running) (stage.getD .ingest) totals failureStage
    failureCode failureSummary) history

def checkpoint (runId : String) (stage : RunStage) (totals : Totals) (history : History) :
    History :=
  update runId none (some stage) totals none none none history

def finish (runId : String) (status : RunStatus) (totals : Totals)
    (failureStage : Option RunStage) (failureCode failureSummary : Option String)
    (history : History) : History :=
  update runId (some status)
    (match status with
      | .succeeded | .skipped => some .complete
      | .running | .failed => failureStage)
    totals failureStage failureCode failureSummary history

end Bigquery

inductive StoreKind where
  | sqlite
  | postgresql
  | bigquery
  deriving DecidableEq

section Stores

/-- The table after a statement that may fail, and what it raised. -/
def settle (history : History) : Except String History → Except String Unit × History
  | .ok after => (.ok (), after)
  | .error message => (.error message, history)

/-- One statement of a store. A store is only given statements of its own. -/
def StoreKind.exec (kind : StoreKind) (statement : Statement) (history : History) :
    Except String Unit × History :=
  match kind, statement with
  | .sqlite, .insert runId source pipelineId =>
    settle history (Sqlite.start runId source pipelineId history)
  | .postgresql, .insert runId source pipelineId =>
    settle history (Postgresql.start runId source pipelineId history)
  | .bigquery, .insert runId source pipelineId =>
    (.ok (), Bigquery.start runId source pipelineId history)
  | .sqlite, .restart runId source pipelineId =>
    settle history (Sqlite.restartRetryable runId source pipelineId history)
  | .postgresql, .restart runId source pipelineId =>
    settle history (Postgresql.restartRetryable runId source pipelineId history)
  | .bigquery, .assertRetryable runId source pipelineId =>
    (Bigquery.assertRetryable runId source pipelineId history, history)
  | .bigquery, .mergeRestart runId source pipelineId =>
    (.ok (), Bigquery.mergeRestart runId source pipelineId history)
  | .sqlite, .checkpoint runId stage totals =>
    (.ok (), Sqlite.checkpoint runId stage totals history)
  | .postgresql, .checkpoint runId stage totals =>
    (.ok (), Postgresql.checkpoint runId stage totals history)
  | .bigquery, .checkpoint runId stage totals =>
    (.ok (), Bigquery.checkpoint runId stage totals history)
  | .sqlite, .finish runId status totals failureStage code summary =>
    (.ok (), Sqlite.finish runId status totals failureStage code summary history)
  | .postgresql, .finish runId status totals failureStage code summary =>
    (.ok (), Postgresql.finish runId status totals failureStage code summary history)
  | .bigquery, .finish runId status totals failureStage code summary =>
    (.ok (), Bigquery.finish runId status totals failureStage code summary history)
  | _, .reconcile pipelineId currentRunId =>
    (.ok (), interruptOthers pipelineId currentRunId history)
  | _, .restart .. | _, .assertRetryable .. | _, .mergeRestart .. => (.ok (), history)

/-- The calls of the run-history interface. -/
inductive HistoryCall where
  | start (runId source : String) (pipelineId : Option String)
  | restartRetryable (runId source : String) (pipelineId : Option String)
  | checkpoint (runId : String) (stage : RunStage) (totals : Totals)
  | finish (runId : String) (status : RunStatus) (totals : Totals)
      (failureStage : Option RunStage) (failureCode failureSummary : Option String)
  | reconcileInterrupted (pipelineId currentRunId : String)

/-- `pipeline_id or source` -/
def pipelineOr (source : String) : Option String → String
  | none => source
  | some pipelineId => if pipelineId = "" then source else pipelineId

/-- The statements of a call, each sent if the one before it has not failed. -/
def StoreKind.statements (kind : StoreKind) : HistoryCall → List Statement
  | .start runId source pipelineId => [.insert runId source (pipelineOr source pipelineId)]
  | .restartRetryable runId source pipelineId =>
    match kind with
    | .sqlite | .postgresql => [.restart runId source (pipelineOr source pipelineId)]
    | .bigquery => [.assertRetryable runId source (pipelineOr source pipelineId),
        .mergeRestart runId source (pipelineOr source pipelineId)]
  | .checkpoint runId stage totals => [.checkpoint runId stage totals]
  | .finish runId status totals failureStage code summary =>
    [.finish runId status totals failureStage code summary]
  | .reconcileInterrupted pipelineId currentRunId => [.reconcile pipelineId currentRunId]

def StoreKind.execAll (kind : StoreKind) : List Statement → History → Except String Unit × History
  | [], history => (.ok (), history)
  | statement :: rest, history =>
    match kind.exec statement history with
    | (.error message, after) => (.error message, after)
    | (.ok (), after) => kind.execAll rest after

/-- One call, and the calls of a sequence one after the other, failed or not. -/
def StoreKind.call (kind : StoreKind) (history : History) (call : HistoryCall) : History :=
  (kind.execAll (kind.statements call) history).2

def StoreKind.calls (kind : StoreKind) (calls : List HistoryCall) : History :=
  calls.foldl kind.call []

/-- The status that a store holds for a run. -/
def statuses (history : History) (runId : String) : List RunStatus :=
  (history.filter fun record => decide (record.runId = runId)).map RunRecord.status

end Stores

end Dander.PipelineHistory
