import Dander.LeaseSafety

/-!
# Pipeline leases in BigQuery

A call of the store is a sequence of statements, each of them atomic. Acquiring takes three: the
row is inserted if it is absent, claimed if it has expired, and read back by pipeline and run. The
token is not known before the row is read.
-/
namespace Dander.Leases

open Interleaving Concurrency

structure BigQueryLeaseStore where
  leaseSeconds : ℕ
  /-- The table of a pipeline: a prefix and a digest of its id. -/
  tableForPipeline : String → String
  authorityId : String
  authorityEpoch : ℤ
  validated : 30 ≤ leaseSeconds ∧ leaseSeconds ≤ 3600

inductive BigqueryOp where
  | merge (pipelineId : String)
  | claim (leaseSeconds : ℕ) (pipelineId runId : String)
  | select (pipelineId runId : String)
  | heartbeat (leaseSeconds : ℕ) (lease : LeaseHandle)
  | release (lease : LeaseHandle)

/-- Updates reply with the number of affected rows. -/
@[reducible] def BigqueryOp.Res : BigqueryOp → Type
  | .merge _ => Unit
  | .claim .. => Except LeaseError ℕ
  | .select .. => List ℤ
  | .heartbeat .. => Bool
  | .release .. => Bool

/-- The conditional update of `acquire`. -/
def bigqueryClaim (leaseSeconds : ℕ) (pipelineId runId : String) (now : ℚ) (table : LeaseTable) :
    Except LeaseError ℕ × LeaseTable :=
  match table.row pipelineId with
  | none => (.ok 0, table)
  | some row =>
    if row.leaseExpiresAt ≤ now then
      if maxInteger < row.fencingToken + 1 then (.error .outOfRange, table)
      else
        (.ok 1, table.write pipelineId
          ⟨some runId, row.fencingToken + 1, some now, now + leaseSeconds⟩)
    else (.ok 0, table)

/-- The tokens of the unexpired rows of the run. -/
def bigquerySelect (pipelineId runId : String) (now : ℚ) (table : LeaseTable) : List ℤ :=
  match table.row pipelineId with
  | none => []
  | some row =>
    if row.runId = some runId && decide (now < row.leaseExpiresAt) then [row.fencingToken] else []

/-- Each statement reads the server's clock once. -/
def bigqueryExec (now : ℚ) : (o : BigqueryOp) → LeaseTable → o.Res × LeaseTable
  | .merge pipelineId, table => ((), insertVacant pipelineId table)
  | .claim leaseSeconds pipelineId runId, table =>
    bigqueryClaim leaseSeconds pipelineId runId now table
  | .select pipelineId runId, table => (bigquerySelect pipelineId runId now table, table)
  | .heartbeat leaseSeconds lease, table => sqliteHeartbeat leaseSeconds lease now table
  | .release lease, table => sqliteRelease lease now table

def bigquery : Machine BigqueryOp BigqueryOp.Res LeaseTable where
  step o table reply table' := ∃ now, table.clock ≤ now ∧
    bigqueryExec now o (table.showing now) = (reply, table')

namespace BigQueryLeaseStore

abbrev Program := Prog BigqueryOp BigqueryOp.Res LeaseError

def handle (store : BigQueryLeaseStore) (pipelineId runId : String) (token : ℤ) :
    Program (Option LeaseHandle) :=
  let fence : FencingToken := ⟨some (store.tableForPipeline pipelineId), pipelineId, runId, token,
    some store.authorityId, store.authorityEpoch⟩
  match fence.postInit with
  | .error error => throw (.value error)
  | .ok () => return some ⟨pipelineId, runId, token, store.leaseSeconds, some fence⟩

def readToken (store : BigQueryLeaseStore) (pipelineId runId : String) :
    Program (Option LeaseHandle) := do
  match ← Prog.perform (BigqueryOp.select pipelineId runId) with
  | [token] => if token ≤ 0 then return none else store.handle pipelineId runId token
  | _ => return none

def claim (store : BigQueryLeaseStore) (pipelineId runId : String) :
    Program (Option LeaseHandle) := do
  match ← Prog.perform (BigqueryOp.claim store.leaseSeconds pipelineId runId) with
  | .error error => throw error
  | .ok affected => if affected ≠ 1 then return none else store.readToken pipelineId runId

def acquire (store : BigQueryLeaseStore) (pipelineId runId : String) :
    Program (Option LeaseHandle) := do
  Prog.perform (BigqueryOp.merge pipelineId)
  store.claim pipelineId runId

/-- Any call on any store object of the same dataset. -/
def body (call : BigQueryLeaseStore × Request) : Program Reply :=
  match call.2 with
  | .acquire pipelineId runId => do return .acquired (← call.1.acquire pipelineId runId)
  | .heartbeat lease => do
    return .owned (← Prog.perform (BigqueryOp.heartbeat call.1.leaseSeconds lease))
  | .release lease => do return .owned (← Prog.perform (BigqueryOp.release lease))

end BigQueryLeaseStore

section Runs

/-- The token of a successful acquire of the pipeline that returned. -/
def returnedToken (pipelineId : String) {C : Type} :
    Event BigqueryOp BigqueryOp.Res LeaseError Reply C → Option ℤ
  | .finished _ _ (.ok (.acquired (some lease))) =>
    if lease.pipelineId = pipelineId then some lease.fencingToken else none
  | _ => none

/-- The worker has claimed the pipeline's lease for the run and is about to read it. -/
def Reading (pipelineId runId : String) (program : BigQueryLeaseStore.Program Reply) : Prop :=
  ∃ next, program = .call (.select pipelineId runId) next

abbrev Calls := Config BigqueryOp BigqueryOp.Res LeaseError Reply (BigQueryLeaseStore × Request)
  LeaseTable

abbrev CallEvent := Event BigqueryOp BigqueryOp.Res LeaseError Reply (BigQueryLeaseStore × Request)

/-- No lease is claimed for a run while another acquire of the same run stands between its own
claim and its read. -/
def ClaimsAlone (cfg : Calls) (event : CallEvent) : Prop :=
  ∀ i call leaseSeconds pipelineId runId,
    event = .performed i call (.claim leaseSeconds pipelineId runId) (.ok 1) →
    ∀ j other program, j ≠ i → cfg.pool j = some (other, program) →
      ¬ Reading pipelineId runId program

end Runs

end Dander.Leases
