import Dander.Concurrency
import Dander.Interleaving
import Mathlib

/-!
# Fence tables and the transactions that guard them

Each warehouse keeps the owner of every target in a fence table beside its data. PostgreSQL
locks the row that a statement writes, Redshift and Snowflake the whole fence table, until
the transaction ends; BigQuery transactions read a snapshot and abort when another one has
changed the fence table meanwhile. What only the transaction itself can see travels with its
session.
-/
namespace Dander.Fence

open Interleaving Concurrency

inductive Provider where
  | postgresql
  | redshift
  | snowflake
  | bigquery
  deriving Repr, DecidableEq

section Rows

/-- The columns that say who may publish. -/
structure Owner where
  authorityId : String
  authorityEpoch : ℤ
  runId : String
  fencingToken : ℤ
  deriving Repr, DecidableEq

inductive FenceStatus where
  | claimed
  | committed
  deriving Repr, DecidableEq

structure FenceRow where
  owner : Owner
  status : FenceStatus
  deriving Repr, DecidableEq

/-- The columns that a row is looked up by, and the table that holds it. -/
structure FenceKey where
  table : List String
  targetId : String
  pipelineId : String
  deriving Repr, DecidableEq

/-- The rows under each key; only PostgreSQL declares the key to be unique. -/
abbrev FenceTables := FenceKey → List FenceRow

/-- A newer token of the same authority, or the exact retry of the current one. -/
def claimIsAllowed (current incoming : Owner) : Bool :=
  current.authorityId = incoming.authorityId && current.authorityEpoch = incoming.authorityEpoch &&
    (current.fencingToken < incoming.fencingToken ||
      (current.fencingToken = incoming.fencingToken && current.runId = incoming.runId))

/-- The condition of the statements that surround a publication. -/
def targetMatch (owner : Owner) (row : FenceRow) : Bool :=
  row.owner = owner && (row.status = .claimed || row.status = .committed)

/-- The upsert of a claim: the rows it leaves and how many it wrote. -/
def mergeRows (owner : Owner) (rows : List FenceRow) : List FenceRow × ℕ :=
  if rows = [] then ([⟨owner, .claimed⟩], 1)
  else (rows.map (fun row => if claimIsAllowed row.owner owner then ⟨owner, .claimed⟩ else row),
    rows.countP (fun row => claimIsAllowed row.owner owner))

def markRows (owner : Owner) (rows : List FenceRow) : List FenceRow :=
  rows.map (fun row => if targetMatch owner row then { row with status := .committed } else row)

end Rows

section Columns

def isBigint (n : ℤ) : Bool := decide (-2 ^ 63 ≤ n) && decide (n < 2 ^ 63)

def isNumber38 (n : ℤ) : Bool := decide (-10 ^ 38 < n) && decide (n < 10 ^ 38)

def hasNoNul (text : String) : Bool := text.toList.all (fun c => c ≠ Char.ofNat 0)

def isVarchar (limit : ℕ) (text : String) : Bool :=
  decide (text.utf8ByteSize ≤ limit) && hasNoNul text

/-- Whether the declared column types and checks hold the values of a row. -/
def Provider.fits (provider : Provider) (key : FenceKey) (owner : Owner) : Bool :=
  match provider with
  | .postgresql => hasNoNul key.targetId && hasNoNul key.pipelineId &&
      hasNoNul owner.authorityId && hasNoNul owner.runId &&
      isBigint owner.authorityEpoch && decide (0 < owner.authorityEpoch) &&
      isBigint owner.fencingToken && decide (0 < owner.fencingToken)
  | .redshift => isVarchar 1024 key.targetId && isVarchar 127 key.pipelineId &&
      isVarchar 256 owner.authorityId && isBigint owner.authorityEpoch &&
      isVarchar 127 owner.runId && isBigint owner.fencingToken
  | .snowflake => isNumber38 owner.authorityEpoch && isNumber38 owner.fencingToken
  | .bigquery => isBigint owner.authorityEpoch && isBigint owner.fencingToken

end Columns

section Sessions

inductive LockName where
  | row (key : FenceKey)
  | table (name : List String)
  deriving Repr, DecidableEq

/-- The lock that writing a fence row takes. -/
def Provider.scope (provider : Provider) (key : FenceKey) : Option LockName :=
  match provider with
  | .postgresql => some (.row key)
  | .redshift => some (.table key.table)
  | .snowflake => some (.table key.table)
  | .bigquery => none

/-- What is committed, who holds which lock, and which transactions are open. The version of
a fence table counts its committed changes. -/
structure Database (D : Type) where
  fences : FenceTables
  version : List String → ℕ
  data : D
  locks : LockName → Option ℕ
  active : ℕ → Bool
  next : ℕ

/-- One transaction as its connection sees it: the rows it wrote, newest first, its
publication statements, and what was committed when it began. -/
structure Session (D : Type) where
  id : ℕ
  written : List (FenceKey × List FenceRow)
  statements : List (D → Option D)
  snapshot : FenceTables
  base : List String → ℕ

variable {D : Type}

def Database.empty (data : D) : Database D := ⟨fun _ => [], fun _ => 0, data, fun _ => none,
  fun _ => false, 0⟩

/-- The rows of a key as a statement of the session reads them. -/
def Session.rows (provider : Provider) (session : Session D) (s : Database D) (key : FenceKey) :
    List FenceRow :=
  match session.written.lookup key with
  | some rows => rows
  | none => if provider = .bigquery then session.snapshot key else s.fences key

/-- Takes a lock, unless another transaction holds it. -/
def Database.acquire (s : Database D) (tx : ℕ) : Option LockName → Option (Database D)
  | none => some s
  | some name =>
    match s.locks name with
    | none => some { s with locks := Function.update s.locks name (some tx) }
    | some holder => if holder = tx then some s else none

/-- Ends a transaction and releases its locks. -/
def Database.close (s : Database D) (tx : ℕ) : Database D :=
  { s with
    locks := fun name => if s.locks name = some tx then none else s.locks name
    active := Function.update s.active tx false }

def Session.write (session : Session D) (key : FenceKey) (rows : List FenceRow) : Session D :=
  { session with written := (key, rows) :: session.written }

/-- The publication statements in order, each on what the one before left. -/
def applyStatements : List (D → Option D) → D → Option D
  | [], data => some data
  | statement :: rest, data => (statement data).bind (applyStatements rest)

end Sessions

section Statements

/-- Why a warehouse refuses a request: a concurrent update of a table, or anything else. -/
inductive Fault where
  | concurrentUpdate
  | failed
  deriving Repr, DecidableEq

inductive FenceOp (D : Type) where
  | begin
  | lock (session : Session D) (table : List String)
  | selectClaim (session : Session D) (key : FenceKey)
  | insertClaim (session : Session D) (key : FenceKey) (owner : Owner)
  | updateClaim (session : Session D) (key : FenceKey) (owner : Owner)
  | mergeClaim (session : Session D) (key : FenceKey) (owner : Owner)
  | touch (session : Session D) (key : FenceKey) (owner : Owner)
  | statement (session : Session D) (run : D → Option D)
  | markCommitted (session : Session D) (key : FenceKey) (owner : Owner)
  | commit (session : Session D)
  | rollback (tx : ℕ)

variable {D : Type}

/-- What a request answers when it is not refused; counts are numbers of rows. -/
def Payload : FenceOp D → Type
  | .begin => Session D
  | .lock .. => Unit
  | .selectClaim .. => Option Owner
  | .insertClaim .. => Session D
  | .updateClaim .. => Session D
  | .mergeClaim .. => ℕ × Session D
  | .touch .. => ℕ × Session D
  | .statement .. => Session D
  | .markCommitted .. => ℕ × Session D
  | .commit _ => Unit
  | .rollback _ => Unit

abbrev FenceReply (o : FenceOp D) : Type := Except Fault (Payload o)

/-- The transaction a request belongs to. -/
def FenceOp.transaction : FenceOp D → Option ℕ
  | .begin => none
  | .lock session _ => some session.id
  | .selectClaim session _ => some session.id
  | .insertClaim session _ _ => some session.id
  | .updateClaim session _ _ => some session.id
  | .mergeClaim session _ _ => some session.id
  | .touch session _ _ => some session.id
  | .statement session _ => some session.id
  | .markCommitted session _ _ => some session.id
  | .commit session => some session.id
  | .rollback tx => some tx

/-- The committed state after a transaction's changes. -/
def Database.applied (s : Database D) (session : Session D) (data : D) : Database D :=
  { s with
    fences := fun key => (session.written.lookup key).getD (s.fences key)
    version := fun table =>
      if table ∈ session.written.map (fun entry => entry.1.table) then s.version table + 1
      else s.version table
    data := data }

/-- Every fence table the transaction wrote is as it was when the transaction began. -/
def Session.isCurrent (session : Session D) (s : Database D) : Bool :=
  session.written.all (fun entry => s.version entry.1.table = session.base entry.1.table)

def Database.commit (provider : Provider) (s : Database D) (session : Session D) :
    Except Fault Unit × Database D :=
  if provider = .bigquery && !session.isCurrent s then
    (.error .concurrentUpdate, s.close session.id)
  else
    match applyStatements session.statements s.data with
    | none => (.error .failed, s.close session.id)
    | some data => (.ok (), (s.applied session data).close session.id)

/-- Writes the rows of a claim under the lock of their key. -/
def Database.writeClaim (provider : Provider) (s : Database D) (session : Session D)
    (key : FenceKey) (owner : Owner) (rows : List FenceRow) :
    Option (Except Fault (Session D) × Database D) :=
  if provider.fits key owner then
    (s.acquire session.id (provider.scope key)).map
      (fun locked => (.ok (session.write key rows), locked))
  else some (.error .failed, s)

/-- A conditional update of the rows that belong to an owner; one that matches no row neither
waits nor locks. -/
def Database.updateMatching (provider : Provider) (s : Database D) (session : Session D)
    (key : FenceKey) (owner : Owner) (change : List FenceRow → List FenceRow) :
    Option (Except Fault (ℕ × Session D) × Database D) :=
  let rows := session.rows provider s key
  let count := rows.countP (targetMatch owner)
  if count = 0 then some (.ok (0, session), s)
  else (s.acquire session.id (provider.scope key)).map
    (fun locked => (.ok (count, session.write key (change rows)), locked))

/-- A request of an open transaction. -/
def serveOpen (provider : Provider) : (o : FenceOp D) → Database D →
    Option (FenceReply o × Database D)
  | .begin, s => some (.ok ⟨s.next, [], [], s.fences, s.version⟩,
      { s with active := Function.update s.active s.next true, next := s.next + 1 })
  | .lock session table, s =>
    (s.acquire session.id (some (.table table))).map (fun locked => (.ok (), locked))
  | .selectClaim session key, s =>
    some (.ok ((session.rows provider s key).head?.map FenceRow.owner), s)
  | .insertClaim session key owner, s =>
    s.writeClaim provider session key owner (session.rows provider s key ++ [⟨owner, .claimed⟩])
  | .updateClaim session key owner, s =>
    s.writeClaim provider session key owner
      ((session.rows provider s key).map (fun _ => ⟨owner, .claimed⟩))
  | .mergeClaim session key owner, s =>
    if provider.fits key owner then
      (s.acquire session.id (provider.scope key)).map fun locked =>
        let merged := mergeRows owner (session.rows provider s key)
        if merged.2 = 0 then (.ok (0, session), locked)
        else (.ok (merged.2, session.write key merged.1), locked)
    else some (.error .failed, s)
  | .touch session key owner, s => s.updateMatching provider session key owner id
  | .statement session run, s =>
    match (applyStatements session.statements s.data).bind run with
    | none => some (.error .failed, s)
    | some _ => some (.ok { session with statements := session.statements ++ [run] }, s)
  | .markCommitted session key owner, s =>
    s.updateMatching provider session key owner (markRows owner)
  | .commit session, s => some (s.commit provider session)
  | .rollback tx, s => some (.ok (), s.close tx)

/-- The effect of a request that the warehouse does not refuse by itself; none while it has to
wait for a lock. A transaction that was ended answers only failures. -/
def serve (provider : Provider) (o : FenceOp D) (s : Database D) :
    Option (FenceReply o × Database D) :=
  match o.transaction with
  | none => serveOpen provider o s
  | some tx => if s.active tx then serveOpen provider o s else some (.error .failed, s)

/-- The warehouse as sessions meet it: a request is served, or refused without effect, after
its effect, or with the end of its transaction. -/
def warehouse (provider : Provider) : Machine (FenceOp D) FenceReply (Database D) where
  step o s r s' := serve provider o s = some (r, s') ∨
    ∃ fault, r = .error fault ∧ (s' = s ∨ (∃ reply, serve provider o s = some (reply, s')) ∨
      ∃ tx, o.transaction = some tx ∧ s' = s.close tx)

end Statements

end Dander.Fence
