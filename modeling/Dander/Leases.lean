import Dander.Concurrency
import Dander.FencedLease
import Dander.Interleaving

/-!
# Exclusive pipeline leases in SQLite and PostgreSQL

Both stores keep one row for each pipeline. SQLite calls read the process clock
before their transaction takes the database lock; PostgreSQL statements read the
server clock while they hold the row. The table keeps every version a row had, so
that what an earlier owner was granted can still be told.
-/
namespace Dander.Leases

open Interleaving Concurrency

structure LeaseRow where
  runId : Option String
  fencingToken : ℤ
  heartbeatAt : Option ℚ
  leaseExpiresAt : ℚ
  deriving DecidableEq

/-- The latest instant any clock has shown, and the versions of each row, newest first. -/
structure LeaseTable where
  clock : ℚ
  versions : String → List LeaseRow

namespace LeaseTable

def empty (clock : ℚ) : LeaseTable := ⟨clock, fun _ => []⟩

/-- The stored row. -/
def row (table : LeaseTable) (pipelineId : String) : Option LeaseRow :=
  (table.versions pipelineId).head?

def write (table : LeaseTable) (pipelineId : String) (row : LeaseRow) : LeaseTable where
  clock := table.clock
  versions := Function.update table.versions pipelineId (row :: table.versions pipelineId)

def showing (table : LeaseTable) (clock : ℚ) : LeaseTable := ⟨clock, table.versions⟩

@[simp] theorem write_clock (table : LeaseTable) (pipelineId : String) (row : LeaseRow) :
    (table.write pipelineId row).clock = table.clock := rfl

@[simp] theorem write_versions (table : LeaseTable) (pipelineId : String) (row : LeaseRow) :
    (table.write pipelineId row).versions =
      Function.update table.versions pipelineId (row :: table.versions pipelineId) := rfl

end LeaseTable

/-- One successfully acquired pipeline lease. -/
structure LeaseHandle where
  pipelineId : String
  runId : String
  fencingToken : ℤ
  leaseSeconds : ℕ
  fence : Option FencingToken
  deriving DecidableEq

inductive LeaseError where
  | outOfRange
  | runtime (message : String)
  | value (error : ValueError)
  deriving DecidableEq

inductive Request where
  | acquire (pipelineId runId : String)
  | heartbeat (lease : LeaseHandle)
  | release (lease : LeaseHandle)

inductive Reply where
  | acquired (lease : Option LeaseHandle)
  | owned (current : Bool)

/-- The greatest value of a signed 64-bit column. -/
def maxInteger : ℤ := 9223372036854775807

/-- The row is the current one of exactly this run and token. -/
def LeaseRow.isOwnedBy (row : LeaseRow) (runId : String) (token : ℤ) : Bool :=
  row.runId = some runId && row.fencingToken = token

section Sqlite

/-- The lease seconds of a constructed store are from 30 to 3600. -/
structure SqliteLeaseStore where
  leaseSeconds : ℕ
  validated : 30 ≤ leaseSeconds ∧ leaseSeconds ≤ 3600

inductive SqliteOp where
  | time
  | acquire (leaseSeconds : ℕ) (pipelineId runId : String) (now : ℚ)
  | heartbeat (leaseSeconds : ℕ) (lease : LeaseHandle) (now : ℚ)
  | release (lease : LeaseHandle) (now : ℚ)

@[reducible] def SqliteOp.Res : SqliteOp → Type
  | .time => ℚ
  | .acquire .. => Except LeaseError (Option ℤ)
  | .heartbeat .. => Bool
  | .release .. => Bool

/-- The immediate transaction of `acquire`. -/
def sqliteAcquire (leaseSeconds : ℕ) (pipelineId runId : String) (now : ℚ)
    (table : LeaseTable) : Except LeaseError (Option ℤ) × LeaseTable :=
  match table.row pipelineId with
  | none =>
    (.ok (some 1), table.write pipelineId ⟨some runId, 1, some now, now + leaseSeconds⟩)
  | some row =>
    if row.leaseExpiresAt ≤ now then
      let token := row.fencingToken + 1
      if maxInteger < token then (.error .outOfRange, table)
      else
        (.ok (some token),
          table.write pipelineId ⟨some runId, token, some now, now + leaseSeconds⟩)
    else (.ok none, table)

def sqliteHeartbeat (leaseSeconds : ℕ) (lease : LeaseHandle) (now : ℚ) (table : LeaseTable) :
    Bool × LeaseTable :=
  match table.row lease.pipelineId with
  | none => (false, table)
  | some row =>
    if row.isOwnedBy lease.runId lease.fencingToken && decide (now < row.leaseExpiresAt) then
      (true, table.write lease.pipelineId
        ⟨row.runId, row.fencingToken, some now, now + leaseSeconds⟩)
    else (false, table)

def sqliteRelease (lease : LeaseHandle) (now : ℚ) (table : LeaseTable) : Bool × LeaseTable :=
  match table.row lease.pipelineId with
  | none => (false, table)
  | some row =>
    if row.isOwnedBy lease.runId lease.fencingToken then
      (true, table.write lease.pipelineId ⟨none, row.fencingToken, some now, now⟩)
    else (false, table)

/-- The process clock never runs backwards; every other operation is one transaction. -/
def sqlite : Machine SqliteOp SqliteOp.Res LeaseTable where
  step
    | .time, table, now, table' => table.clock ≤ now ∧ table' = table.showing now
    | .acquire leaseSeconds pipelineId runId now, table, reply, table' =>
      sqliteAcquire leaseSeconds pipelineId runId now table = (reply, table')
    | .heartbeat leaseSeconds lease now, table, reply, table' =>
      sqliteHeartbeat leaseSeconds lease now table = (reply, table')
    | .release lease now, table, reply, table' => sqliteRelease lease now table = (reply, table')

namespace SqliteLeaseStore

def acquire (store : SqliteLeaseStore) (pipelineId runId : String) :
    Prog SqliteOp SqliteOp.Res LeaseError (Option LeaseHandle) := do
  let now ← Prog.perform SqliteOp.time
  match ← Prog.perform (SqliteOp.acquire store.leaseSeconds pipelineId runId now) with
  | .error error => throw error
  | .ok none => return none
  | .ok (some token) => return some ⟨pipelineId, runId, token, store.leaseSeconds, none⟩

def heartbeat (store : SqliteLeaseStore) (lease : LeaseHandle) :
    Prog SqliteOp SqliteOp.Res LeaseError Bool := do
  let now ← Prog.perform SqliteOp.time
  Prog.perform (SqliteOp.heartbeat store.leaseSeconds lease now)

def release (lease : LeaseHandle) : Prog SqliteOp SqliteOp.Res LeaseError Bool := do
  let now ← Prog.perform SqliteOp.time
  Prog.perform (SqliteOp.release lease now)

/-- Any call on any store object that opens the same database file. -/
def body (call : SqliteLeaseStore × Request) : Prog SqliteOp SqliteOp.Res LeaseError Reply :=
  match call.2 with
  | .acquire pipelineId runId => do return .acquired (← call.1.acquire pipelineId runId)
  | .heartbeat lease => do return .owned (← call.1.heartbeat lease)
  | .release lease => do return .owned (← release lease)

end SqliteLeaseStore

end Sqlite

section Postgresql

structure PostgreSQLLeaseStore where
  leaseSeconds : ℕ
  authorityId : String
  authorityEpoch : ℤ
  validated : 10 ≤ leaseSeconds ∧ leaseSeconds ≤ 3600

inductive PostgresqlOp where
  | acquire (leaseSeconds : ℕ) (pipelineId runId : String)
  | heartbeat (leaseSeconds : ℕ) (lease : LeaseHandle)
  | release (lease : LeaseHandle)

@[reducible] def PostgresqlOp.Res : PostgresqlOp → Type
  | .acquire .. => Except LeaseError (Option ℤ)
  | .heartbeat .. => Bool
  | .release .. => Bool

/-- What `clock_timestamp()` showed in the condition of an update, and then in the values it
sets. -/
structure Readings where
  condition : ℚ
  heartbeatAt : ℚ
  expiry : ℚ
  ordered : condition ≤ heartbeatAt ∧ heartbeatAt ≤ expiry

/-- The row `acquire` inserts when there is none. -/
def vacant : LeaseRow := ⟨none, 0, none, 0⟩

/-- `INSERT ... ON CONFLICT DO NOTHING`. -/
def insertVacant (pipelineId : String) (table : LeaseTable) : LeaseTable :=
  match table.row pipelineId with
  | none => table.write pipelineId vacant
  | some _ => table

/-- The conditional update of `acquire`. An update out of range aborts the transaction. -/
def updateExpired (leaseSeconds : ℕ) (pipelineId runId : String) (readings : Readings)
    (table : LeaseTable) : Except LeaseError (Option ℤ × LeaseTable) :=
  match table.row pipelineId with
  | none => .ok (none, table)
  | some row =>
    if row.leaseExpiresAt ≤ readings.condition then
      if maxInteger < row.fencingToken + 1 then .error .outOfRange
      else
        .ok (some (row.fencingToken + 1), table.write pipelineId
          ⟨some runId, row.fencingToken + 1, some readings.heartbeatAt,
            readings.expiry + leaseSeconds⟩)
    else .ok (none, table)

def postgresqlAcquire (leaseSeconds : ℕ) (pipelineId runId : String) (readings : Readings)
    (table : LeaseTable) : Except LeaseError (Option ℤ) × LeaseTable :=
  match updateExpired leaseSeconds pipelineId runId readings (insertVacant pipelineId table) with
  | .ok (token, table') => (.ok token, table')
  | .error error => (.error error, table)

def postgresqlHeartbeat (leaseSeconds : ℕ) (lease : LeaseHandle) (readings : Readings)
    (table : LeaseTable) : Bool × LeaseTable :=
  match table.row lease.pipelineId with
  | none => (false, table)
  | some row =>
    if row.isOwnedBy lease.runId lease.fencingToken &&
        decide (readings.condition < row.leaseExpiresAt) then
      (true, table.write lease.pipelineId ⟨row.runId, row.fencingToken,
        some readings.heartbeatAt, readings.expiry + leaseSeconds⟩)
    else (false, table)

def postgresqlRelease (lease : LeaseHandle) (readings : Readings) (table : LeaseTable) :
    Bool × LeaseTable :=
  match table.row lease.pipelineId with
  | none => (false, table)
  | some row =>
    if row.isOwnedBy lease.runId lease.fencingToken then
      (true, table.write lease.pipelineId
        ⟨none, row.fencingToken, some readings.heartbeatAt, readings.expiry⟩)
    else (false, table)

def postgresqlExec (readings : Readings) :
    (o : PostgresqlOp) → LeaseTable → o.Res × LeaseTable
  | .acquire leaseSeconds pipelineId runId, table =>
    postgresqlAcquire leaseSeconds pipelineId runId readings table
  | .heartbeat leaseSeconds lease, table =>
    postgresqlHeartbeat leaseSeconds lease readings table
  | .release lease, table => postgresqlRelease lease readings table

/-- The row lock makes each transaction one step, which reads the server clock as it runs. -/
def postgresql : Machine PostgresqlOp PostgresqlOp.Res LeaseTable where
  step o table reply table' := ∃ readings : Readings, table.clock ≤ readings.condition ∧
    postgresqlExec readings o (table.showing readings.expiry) = (reply, table')

namespace PostgreSQLLeaseStore

def acquire (store : PostgreSQLLeaseStore) (pipelineId runId : String) :
    Prog PostgresqlOp PostgresqlOp.Res LeaseError (Option LeaseHandle) := do
  match ← Prog.perform (PostgresqlOp.acquire store.leaseSeconds pipelineId runId) with
  | .error error => throw error
  | .ok none => return none
  | .ok (some token) =>
    if token ≤ 0 then
      throw (.runtime "PostgreSQL lease returned an invalid fencing token")
    let fence : FencingToken :=
      ⟨none, pipelineId, runId, token, some store.authorityId, store.authorityEpoch⟩
    match fence.postInit with
    | .error error => throw (.value error)
    | .ok () => return some ⟨pipelineId, runId, token, store.leaseSeconds, some fence⟩

/-- Any call on any store object of the same database. -/
def body (call : PostgreSQLLeaseStore × Request) :
    Prog PostgresqlOp PostgresqlOp.Res LeaseError Reply :=
  match call.2 with
  | .acquire pipelineId runId => do return .acquired (← call.1.acquire pipelineId runId)
  | .heartbeat lease => do
    return .owned (← Prog.perform (PostgresqlOp.heartbeat call.1.leaseSeconds lease))
  | .release lease => do return .owned (← Prog.perform (PostgresqlOp.release lease))

end PostgreSQLLeaseStore

end Postgresql

end Dander.Leases
