import Dander.Ownership
import Dander.RunLifecycle

/-!
# The reconciler of Control

One thread of a Control process sweeps over the unfinished runs of a store, page by page. It
keeps its place as a cursor, and three flags by which the process tells whether it is ready.
Meanwhile runs enter and leave the pending set, and the process may be closed.
-/
namespace Dander.Reconciliation

open Interleaving
open Lifecycle (LifecycleError)
open Orchestration (RunStoreError)

section Store

structure StoredRunPage (R : Type) where
  items : List R
  nextCursor : Option String

/-- The recovery query of a run store. A cursor has passed some of the runs, and a page has each
pending run that its cursor has not passed, unless it leaves the run to its next cursor. -/
structure PendingRunStore (R W : Type) where
  runId : R → String
  pending : W → String → Prop
  passed : String → String → Prop
  listPending : W → Option String → ℕ → StoredRunPage R → Prop
  covers : ∀ runs cursor limit page run, listPending runs cursor limit page →
    pending runs run → (∀ text, cursor = some text → ¬ passed text run) →
    (∃ stored ∈ page.items, runId stored = run) ∨
      ∃ next, page.nextCursor = some next ∧ ¬ passed next run

/-- The cursor has passed the run. -/
def PendingRunStore.behind {R W : Type} (store : PendingRunStore R W) (cursor : Option String)
    (run : String) : Prop :=
  ∃ text, cursor = some text ∧ store.passed text run

end Store

section State

inductive ThreadState where
  | absent
  | alive
  | dead
  deriving DecidableEq

/-- The reconciler's part of a Control process. -/
structure Control where
  thread : ThreadState
  closed : Bool
  stop : Bool
  scanCursor : Option String
  initialRecoveryComplete : Bool
  scanFailed : Bool
  lastPassFailed : Bool

def Control.fresh : Control where
  thread := .absent
  closed := false
  stop := false
  scanCursor := none
  initialRecoveryComplete := false
  scanFailed := false
  lastPassFailed := false

/-- Readiness, given that of the submission sources. -/
def Control.ready (control : Control) (submissionSources : List Bool) : Bool :=
  !control.closed && control.thread = .alive && control.initialRecoveryComplete &&
    !control.lastPassFailed && submissionSources.all id

def Control.startReconciler (control : Control) : Except LifecycleError Unit × Control :=
  if control.closed then (.error (.dependency "The run lifecycle is closed."), control)
  else if control.thread = .absent then (.ok (), { control with thread := .alive })
  else (.ok (), control)

def Control.markPageFailed (control : Control) : Control :=
  { control with scanFailed := true, lastPassFailed := true }

def Control.markReconcileResult (control : Control) (failed : Bool) :
    Option String → Control
  | none => { control with
      scanCursor := none
      initialRecoveryComplete := true
      lastPassFailed := control.scanFailed || failed
      scanFailed := false }
  | some next => { control with
      scanCursor := some next
      scanFailed := control.scanFailed || failed
      lastPassFailed := if failed then true else control.lastPassFailed }

/-- The process, and the runs of its store. -/
structure World (W : Type) where
  control : Control
  runs : W

end State

section Services

/-- What a call of the store or the reconciliation of a run raises. -/
inductive Raised where
  | lifecycle (e : LifecycleError)
  | unexpected

/-- Another worker has changed the run first. -/
def Raised.conflicts : Raised → Bool
  | .lifecycle (.store (.conflict _)) => true
  | .lifecycle (.store (.idempotencyConflict _)) => true
  | _ => false

/-- The reconciler handles the errors of its services, of which none is a missing run. -/
def Raised.handled : Raised → Bool
  | .lifecycle (.notFound _) => false
  | .lifecycle _ => true
  | .unexpected => false

def Raised.fromStore : Raised → Bool
  | .lifecycle (.store _) => true
  | _ => false

inductive ReconcilerOp (R : Type) where
  | stopIsSet
  | scanCursor
  | listRecovery (cursor : Option String) (limit : ℕ)
  | markPageFailed
  | reconcileStored (stored : R)
  | markReconcileResult (failed : Bool) (nextCursor : Option String)
  | threadEnds
  | startReconciler
  | setClosed
  | setStop
  | changeRuns

def ReconcilerOp.Res {R : Type} : ReconcilerOp R → Type
  | .stopIsSet => Bool
  | .scanCursor => Option String
  | .listRecovery .. => Except Raised (StoredRunPage R)
  | .reconcileStored _ => Except Raised Unit
  | .startReconciler => Except LifecycleError Unit
  | _ => Unit

/-- Every query and every reconciliation may fail. The runs change when one is reconciled and at
any other time. -/
def services {R W : Type} (store : PendingRunStore R W) :
    Machine (ReconcilerOp R) ReconcilerOp.Res (World W) where
  step
    | .stopIsSet, world, (reply : Bool), world' => reply = world.control.stop ∧ world' = world
    | .scanCursor, world, (reply : Option String), world' =>
      reply = world.control.scanCursor ∧ world' = world
    | .listRecovery cursor limit, world, (reply : Except Raised (StoredRunPage R)), world' =>
      (∀ page, reply = .ok page → store.listPending world.runs cursor limit page) ∧ world' = world
    | .markPageFailed, world, _, world' => world' = ⟨world.control.markPageFailed, world.runs⟩
    | .reconcileStored _, world, _, world' => world'.control = world.control
    | .markReconcileResult failed nextCursor, world, _, world' =>
      world' = ⟨world.control.markReconcileResult failed nextCursor, world.runs⟩
    | .threadEnds, world, _, world' => world' = ⟨{ world.control with thread := .dead }, world.runs⟩
    | .startReconciler, world, (reply : Except LifecycleError Unit), world' =>
      world.control.startReconciler = (reply, world'.control) ∧ world'.runs = world.runs
    | .setClosed, world, _, world' => world' = ⟨{ world.control with closed := true }, world.runs⟩
    | .setStop, world, _, world' => world' = ⟨{ world.control with stop := true }, world.runs⟩
    | .changeRuns, world, _, world' => world'.control = world.control

end Services

section Programs

variable {R : Type}

abbrev Program (R α : Type) := Prog (ReconcilerOp R) ReconcilerOp.Res Raised α

/-- How a page ends: cut short by the stop, or with the failures of its runs. -/
inductive PageEnd where
  | stopped (processed : ℕ)
  | finished (failed : Bool) (processed : ℕ)

def reconcileItems : List R → Bool → ℕ → Program R PageEnd
  | [], failed, processed => .ret (.finished failed processed)
  | stored :: rest, failed, processed =>
    .call .stopIsSet fun (stopped : Bool) =>
      if stopped then .ret (.stopped processed)
      else .call .stopIsSet fun (stopped : Bool) =>
        if stopped then .ret (.stopped processed)
        else .call (.reconcileStored stored) fun (reconciled : Except Raised Unit) =>
          match reconciled with
          | .ok _ => reconcileItems rest failed (processed + 1)
          | .error e =>
            if e.conflicts then reconcileItems rest failed processed
            else if e.handled then reconcileItems rest true processed
            else .raise e

/-- What remains of a page after its runs. -/
def finishPage (nextCursor : Option String) : PageEnd → Program R (ℕ × Bool)
  | .stopped processed => .ret (processed, false)
  | .finished failed processed =>
    .call (.markReconcileResult failed nextCursor) fun _ => .ret (processed, nextCursor.isSome)

def reconcilePage (pageSize : ℕ) : Program R (ℕ × Bool) :=
  .call .scanCursor fun (cursor : Option String) =>
    .call (.listRecovery cursor pageSize) fun (listed : Except Raised (StoredRunPage R)) =>
      match listed with
      | .ok page => reconcileItems page.items false 0 >>= finishPage page.nextCursor
      | .error e =>
        if e.fromStore then .call .markPageFailed fun _ => .ret (0, false)
        else .raise e

def maxReconcilePagesPerSweep : ℕ := 100

def reconcilePages (pageSize : ℕ) : ℕ → ℕ → Program R ℕ
  | 0, processed => .ret processed
  | pages + 1, processed =>
    .call .stopIsSet fun (stopped : Bool) =>
      if stopped then .ret processed
      else reconcilePage pageSize >>= fun page =>
        if page.2 then reconcilePages pageSize pages (processed + page.1)
        else .ret (processed + page.1)

def reconcileOnce (pageSize : ℕ) : Program R ℕ :=
  reconcilePages pageSize maxReconcilePagesPerSweep 0

/-- One iteration of the thread's loop. An error that nothing handles ends the thread. -/
def reconcileLoop (pageSize : ℕ) : Program R ℕ :=
  .call .stopIsSet fun (stopped : Bool) =>
    if stopped then .call .threadEnds fun _ => .ret 0
    else (reconcileOnce pageSize).tryCatch fun e => .call .threadEnds fun _ => .raise e

inductive ControlCall where
  | reconcileOnce
  | reconcileLoop
  | startReconciler
  | close
  | mutate

def startReconciler : Program R ℕ :=
  .call .startReconciler fun (started : Except LifecycleError Unit) =>
    match started with
    | .ok _ => .ret 0
    | .error e => .raise (.lifecycle e)

def close : Program R ℕ :=
  .call .setClosed fun _ => .call .setStop fun _ => .ret 0

/-- The calls of a process, and the other workers of the store. -/
def body (pageSize : ℕ) : ControlCall → Program R ℕ
  | .reconcileOnce => reconcileOnce pageSize
  | .reconcileLoop => reconcileLoop pageSize
  | .startReconciler => startReconciler
  | .close => close
  | .mutate => .call .changeRuns fun _ => .ret 0

end Programs

section Runs

variable {R W : Type}

/-- The operations performed, the last one first, each in the state it found. -/
abbrev Journal (R W : Type) := List (World W × Sigma (ReconcilerOp.Res (R := R)))

abbrev Process (R W : Type) := Config (ReconcilerOp R) ReconcilerOp.Res Raised ℕ ControlCall
  (World W × Journal R W)

abbrev ProcessEvent (R : Type) := Event (ReconcilerOp R) ReconcilerOp.Res Raised ℕ ControlCall

/-- A call to the reconciler, directly or by its thread. -/
def ControlCall.reconciles : ControlCall → Bool
  | .reconcileOnce => true
  | .reconcileLoop => true
  | _ => false

/-- A process has one active reconciler, which makes one call after another. -/
def OneReconciler (_ : Process R W) (event : ProcessEvent R) : Prop :=
  event ≠ .crashed 0 ∧ ∀ i call, event = .issued i call → (i = 0 ↔ call.reconciles = true)

/-- A direct call that raises is the last call; where the thread raises, it ends. -/
def RaisesLast (cfg : Process R W) (event : ProcessEvent R) : Prop :=
  OneReconciler cfg event ∧ ∀ e, event ≠ .finished 0 .reconcileOnce (.error e)

end Runs

end Dander.Reconciliation
