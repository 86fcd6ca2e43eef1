import Dander.HistoryAgreement
import Dander.Leases

/-!
# Pipeline execution

An execution starts its run in the history, acquires the pipeline's lease, marks older running
records as interrupted, and carries out its stages between checkpoints. Whatever a stage raises is
recorded as the run's failure, and raised again. The lease store, the stages and the classification
of what they raise are parameters.
-/
namespace Dander.PipelineHistory

open Interleaving
open Leases (LeaseHandle)

/-- What an execution catches. -/
inductive Fault (F : Type) where
  | stage (error : F)
  | lease (error : F)
  | leaseLost (message : String)
  | history (message : String)

inductive ExecutionOp where
  | statement (statement : Statement)
  | acquire (pipelineId runId : String)
  | verify (lease : LeaseHandle)
  | release (lease : LeaseHandle)
  | heartbeat (lease : LeaseHandle)
  | ingest (runId : String)
  | build
  | compile
  | publishManifest (runId : String)
  | publishRegistry
  | publishAsset (index : ℕ)

/-- Ingestion replies with the endpoints and the rows extracted and affected, the build with the
models and assertions, the compilation with the number of assets. -/
@[reducible] def ExecutionOp.Res (F : Type) : ExecutionOp → Type
  | .statement _ => Except String Unit
  | .acquire .. => Except F (Option LeaseHandle)
  | .verify _ => Except String Unit
  | .release _ => Unit
  | .heartbeat _ => Bool
  | .ingest _ => Except F (ℕ × ℕ × ℕ)
  | .build => Except F (ℕ × ℕ)
  | .compile => Except F ℕ
  | .publishManifest _ => Except F Unit
  | .publishRegistry => Except F Unit
  | .publishAsset _ => Except F Unit

/-- The operations of a lease store. -/
inductive LeaseOp where
  | acquire (pipelineId runId : String)
  | verify (lease : LeaseHandle)
  | release (lease : LeaseHandle)
  | heartbeat (lease : LeaseHandle)

@[reducible] def LeaseOp.Res (F : Type) : LeaseOp → Type
  | .acquire .. => Except F (Option LeaseHandle)
  | .verify _ => Except String Unit
  | .release _ => Unit
  | .heartbeat _ => Bool

structure World (L : Type) where
  history : History
  leases : L

/-- The services of an execution: one history store, one lease store, and stages of any outcome. -/
def services {F L : Type} (kind : StoreKind) (leases : Machine LeaseOp (LeaseOp.Res F) L) :
    Machine ExecutionOp (ExecutionOp.Res F) (World L) where
  step
    | .statement statement, world, reply, world' =>
      kind.exec statement world.history = (reply, world'.history) ∧ world'.leases = world.leases
    | .acquire pipelineId runId, world, reply, world' =>
      world'.history = world.history ∧
        leases.step (.acquire pipelineId runId) world.leases reply world'.leases
    | .verify lease, world, reply, world' =>
      world'.history = world.history ∧ leases.step (.verify lease) world.leases reply world'.leases
    | .release lease, world, reply, world' =>
      world'.history = world.history ∧
        leases.step (.release lease) world.leases reply world'.leases
    | .heartbeat lease, world, reply, world' =>
      world'.history = world.history ∧
        leases.step (.heartbeat lease) world.leases reply world'.leases
    | .ingest _, world, _, world' => world' = world
    | .build, world, _, world' => world' = world
    | .compile, world, _, world' => world' = world
    | .publishManifest _, world, _, world' => world' = world
    | .publishRegistry, world, _, world' => world' = world
    | .publishAsset _, world, _, world' => world' = world

/-- The configuration of a pipeline executor. -/
structure Executor (F : Type) where
  pipelineId : String
  source : String
  leased : Bool
  repair : Bool
  buildModels : Bool
  metadataStore : Bool
  registryOutput : Bool
  catalogPublisher : Bool
  /-- The selection of models is given, and empty. -/
  selectsNone : Bool
  /-- The failure code and summary of what is caught in a stage. -/
  classify : Fault F → RunStage → String × String
  validated : repair = true → buildModels = true

/-- What an execution has reached. -/
structure Progress where
  stage : RunStage
  totals : Totals
  lease : Option LeaseHandle

structure Raised (F : Type) where
  fault : Fault F
  progress : Progress

inductive Completion where
  | skipped
  | completed
  | heartbeatsEnded

section Programs

variable {F : Type}

abbrev Program (F : Type) := Prog ExecutionOp (ExecutionOp.Res F) (Raised F)

/-- A history statement, which may raise. -/
def record (progress : Progress) (statement : Statement) : Program F Unit := do
  match ← Prog.perform (ExecutionOp.statement statement) with
  | .ok () => return ()
  | .error message => throw ⟨.history message, progress⟩

/-- The statements of a call, until one raises. -/
def recordAll (progress : Progress) : List Statement → Program F Unit
  | [] => return ()
  | statement :: rest => do
    record progress statement
    recordAll progress rest

def verify (progress : Progress) : Program F Unit :=
  match progress.lease with
  | none => return ()
  | some lease => do
    match ← Prog.perform (ExecutionOp.verify lease) with
    | .ok () => return ()
    | .error message => throw ⟨.leaseLost message, progress⟩

/-- What a stage replied, or raised. -/
def staged {α : Type} (progress : Progress) : Except F α → Program F α
  | .ok value => return value
  | .error error => throw ⟨.stage error, progress⟩

namespace Executor

variable (executor : Executor F)

def publishesMetadata : Bool :=
  executor.metadataStore || executor.registryOutput || executor.catalogPublisher

def acquire (runId : String) (progress : Progress) : Program F (Option LeaseHandle) := do
  match ← Prog.perform (ExecutionOp.acquire executor.pipelineId runId) with
  | .ok lease => return lease
  | .error error => throw ⟨.lease error, progress⟩

/-- The ingestion, which a date repair leaves out. -/
def ingest (runId : String) (progress : Progress) : Program F Progress :=
  if executor.repair then return progress
  else do
    let (endpoints, extracted, affected) ←
      staged progress (← Prog.perform (ExecutionOp.ingest runId))
    return { progress with totals := ⟨endpoints, extracted, affected, 0, 0, 0⟩ }

def transform (runId : String) (progress : Progress) : Program F Progress :=
  if executor.buildModels then do
    let progress := { progress with stage := .transform }
    record progress (.checkpoint runId .transform progress.totals)
    verify progress
    let (models, assertions) ← staged progress (← Prog.perform ExecutionOp.build)
    return { progress with
      totals := { progress.totals with models := models, assertions := assertions } }
  else return progress

/-- One asset after the other. -/
def publishAssets (progress : Progress) : List ℕ → Program F Unit
  | [] => return ()
  | index :: rest => do
    verify progress
    staged progress (← Prog.perform (ExecutionOp.publishAsset index))
    publishAssets progress rest

def publishManifest (runId : String) (progress : Progress) : Program F Unit :=
  if executor.metadataStore then do
    verify progress
    staged progress (← Prog.perform (ExecutionOp.publishManifest runId))
  else return ()

def publishRegistry (progress : Progress) : Program F Unit :=
  if executor.registryOutput then do
    verify progress
    staged progress (← Prog.perform ExecutionOp.publishRegistry)
  else return ()

def publish (runId : String) (progress : Progress) : Program F Unit := do
  executor.publishManifest runId progress
  executor.publishRegistry progress
  publishAssets progress (if executor.catalogPublisher then List.range progress.totals.assets else [])

def metadata (runId : String) (progress : Progress) : Program F Progress :=
  if executor.publishesMetadata then do
    let progress := { progress with stage := .metadata }
    record progress (.checkpoint runId .metadata progress.totals)
    let compiled ← staged progress (← Prog.perform ExecutionOp.compile)
    let assets := if executor.selectsNone && !executor.buildModels then 0 else compiled
    let progress := { progress with totals := { progress.totals with assets := assets } }
    executor.publish runId progress
    return progress
  else return progress

/-- All stages, with the record of the run's success. -/
def stages (runId : String) (progress : Progress) : Program F Progress := do
  let progress ← executor.ingest runId progress
  let progress ← executor.transform runId progress
  let progress ← executor.metadata runId progress
  verify progress
  record progress (.finish runId .succeeded progress.totals none none none)
  return progress

/-- The lease and what follows from it; nothing if another run has it. -/
def attempt (runId : String) (progress : Progress) : Program F (Option Progress) :=
  if executor.leased then do
    match ← executor.acquire runId progress with
    | none => do
      record progress (.finish runId .skipped .zero none none none)
      return none
    | some lease => do
      let progress := { progress with lease := some lease }
      record progress (.reconcile executor.pipelineId runId)
      return some (← executor.stages runId progress)
  else do return some (← executor.stages runId progress)

/-- The exit from the heartbeat, which raises nothing. -/
def exit (lease : Option LeaseHandle) : Program F Unit :=
  match lease with
  | none => return ()
  | some lease => Prog.perform (ExecutionOp.release lease)

/-- The failure is recorded, if the history can, and raised again. -/
def fail (runId : String) (raised : Raised F) : Program F (Option Progress) := do
  let (code, summary) := executor.classify raised.fault raised.progress.stage
  let _ ← Prog.perform (ExecutionOp.statement (.finish runId .failed raised.progress.totals
    (some raised.progress.stage) (some code) (some summary)))
  exit raised.progress.lease
  throw raised

def execute (kind : StoreKind) (runId : String) (retry : Bool) : Program F Completion := do
  let progress : Progress :=
    ⟨if executor.repair then .transform else .ingest, .zero, none⟩
  let call : HistoryCall :=
    if retry then .restartRetryable runId executor.source (some executor.pipelineId)
    else .start runId executor.source (some executor.pipelineId)
  recordAll progress (kind.statements call)
  match ← (executor.attempt runId progress).tryCatch (executor.fail runId) with
  | none => return .skipped
  | some progress => do
    exit progress.lease
    return .completed

end Executor

/-- The heartbeats of an execution in the background, until one fails. -/
def heartbeats (lease : LeaseHandle) : ℕ → Program F Completion
  | 0 => return .heartbeatsEnded
  | count + 1 => do
    if ← Prog.perform (ExecutionOp.heartbeat lease) then heartbeats lease count
    else return .heartbeatsEnded

inductive ExecutionCall (F : Type) where
  | execute (executor : Executor F) (runId : String) (retry : Bool)
  | heartbeats (lease : LeaseHandle) (count : ℕ)

/-- Any number of executions and of their heartbeats. -/
def body (kind : StoreKind) : ExecutionCall F → Program F Completion
  | .execute executor runId retry => executor.execute kind runId retry
  | .heartbeats lease count => heartbeats lease count

end Programs

end Dander.PipelineHistory
