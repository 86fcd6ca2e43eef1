import Dander.PostgresqlScheduleQueue
import Dander.RunLifecycle

/-!
# Consuming scheduled wakeups

A consumer leases a batch of wakeups, resolves each one into a submission, starts it through
the run lifecycle, and only then acknowledges the message. Consumers of any number of
processes work on one queue and one run store; leases expire and receipts go stale meanwhile.
-/
namespace Dander.Consumer

open Interleaving ObjectStore Orchestration Schedule
open Lifecycle (World Registry LifecycleError)

section Services

/-- The run services, with every record that was ever claimed. -/
structure RunLog where
  world : World
  claims : List RunRecord

/-- All the parties share: runs, the queue, the messages handed out with their receipts, and
the rows that acknowledgements have removed. -/
structure System where
  runs : RunLog
  db : Database
  handed : List QueuedScheduleMessage
  removed : List QueueRow

def System.empty : System := ⟨⟨World.empty, []⟩, Database.empty, [], []⟩

inductive Request where
  | lifecycle (o : Lifecycle.Request)
  | insert (wakeup : ScheduleWakeup)
  | receive
  | delete (receiptHandle : String)
  | graph (project graph : String)
  | stopped

/-- What a lookup of a graph document finds. -/
inductive GraphAnswer where
  | found (record : GraphReference)
  | notFound
  | failed

def Answer : Request → Type
  | .lifecycle o => Lifecycle.Answer o
  | .insert _ => Except Failure Bool
  | .receive => Except Failure (List QueuedScheduleMessage)
  | .delete _ => Except Failure Unit
  | .graph .. => GraphAnswer
  | .stopped => Bool

/-- What the environment decides at one request. -/
structure Oracle where
  lifecycle : Lifecycle.Oracle
  databaseNow : ℤ
  receive : ReceiveCall
  graph : GraphAnswer
  stopped : Bool

variable (platform : Platform) (settings : QueueSettings)

/-- A claim is remembered, whatever its answer. -/
def RunLog.note (claims : List RunRecord) : Lifecycle.Request → List RunRecord
  | .claim record => record :: claims
  | _ => claims

def System.receive (s : System) (call : ReceiveCall) : List QueuedScheduleMessage × System :=
  let result := Schedule.receive platform settings call s.db
  (result.1, { s with db := result.2, handed := result.1 ++ s.handed })

def System.delete (s : System) (receiptHandle : String) (now : ℤ) : Except Failure Unit × System :=
  match Schedule.delete receiptHandle now s.db with
  | .error e => (.error e, s)
  | .ok db => (.ok (), { s with
      db := db
      removed := s.db.queue.filter (fun row => row.acknowledgedBy receiptHandle now) ++
        s.removed })

/-- The scheduler's insert of one wakeup under the hash of its canonical text. -/
def System.insert (s : System) (wakeup : ScheduleWakeup) (now : ℤ) : Except Failure Bool × System :=
  let body := serializeScheduleWakeup wakeup
  match s.db.insertWakeup now (platform.sha256 body) body wakeup with
  | .error e => (.error e, s)
  | .ok (inserted, db) => (.ok inserted, { s with db := db })

/-- A call that does not fail. -/
def serve (oracle : Oracle) : (o : Request) → System → Answer o × System
  | .lifecycle o, s =>
    let result := Lifecycle.serve oracle.lifecycle o s.runs.world
    (result.1, { s with runs := ⟨result.2, RunLog.note s.runs.claims o⟩ })
  | .insert wakeup, s => s.insert platform wakeup oracle.databaseNow
  | .receive, s =>
    let result := s.receive platform settings oracle.receive
    (.ok result.1, result.2)
  | .delete receiptHandle, s => s.delete receiptHandle oracle.databaseNow
  | .graph .., s => (oracle.graph, s)
  | .stopped, s => (oracle.stopped, s)

def Failed : (o : Request) → Answer o → Prop
  | .lifecycle o, answer => Lifecycle.Failed o answer
  | .insert _, answer => answer = .error .database
  | .receive, answer =>
    answer = .error (.scheduleQueue "The PostgreSQL schedule receive failed.")
  | .delete _, answer =>
    answer = .error (.scheduleQueue "The PostgreSQL schedule delete failed.")
  | .graph .., answer => answer = .failed
  | .stopped, _ => False

/-- Drawn receipts are new and different from each other. -/
def FreshReceipts (oracle : Oracle) (s : System) : Prop :=
  (∀ i j, oracle.receive.receipt i = oracle.receive.receipt j → i = j) ∧
    ∀ i, ∀ message ∈ s.handed, message.receiptHandle ≠ oracle.receive.receipt i

/-- The parties' requests: served, or failed with the effect applied or not. A failed claim
is remembered as well. -/
def services : Machine Request Answer System where
  step o s answer s' :=
    ∃ oracle, (o = .receive → FreshReceipts oracle s) ∧
      (serve platform settings oracle o s = (answer, s') ∨
        (Failed o answer ∧ (s' = (serve platform settings oracle o s).2 ∨
          s' = match o with
            | .lifecycle o => { s with runs := ⟨s.runs.world, RunLog.note s.runs.claims o⟩ }
            | _ => s)))

end Services

section Programs

/-- What handling one message raises. -/
inductive ConsumerError where
  | lifecycle (e : LifecycleError)
  | serialization
  | queue (e : Failure)
  | conflict (message : String)
  | dependency (message : String)

abbrev Action (α : Type) := Prog Request Answer ConsumerError α

/-- One Control process: its plans, its triggers, and the size class it records for a plan. -/
structure Process where
  registry : Registry
  triggers : List TriggerSpec
  sizeDecision : ExecutionPlan → Option SizeClassDecision

variable (platform : Platform) (process : Process)

/-- One opaque key for an occurrence, whatever delivers it. -/
def scheduleOccurrenceIdempotencyKey (wakeup : ScheduleWakeup) : String :=
  "schedule:" ++ platform.sha256 (serializeScheduleWakeup wakeup)

/-- The submission of one occurrence of a plan. -/
def occurrenceSubmission (plan : ExecutionPlan) (graph : GraphReference) (triggerId : String)
    (wakeup : ScheduleWakeup) (requestedAt : ℤ) : RunSubmission where
  environment := plan.environment
  project := plan.project
  graph := graph
  planId := plan.planId
  planRevision := plan.revision
  trigger := ⟨.schedule, triggerId, some wakeup.scheduledOccurrence, none, none⟩
  idempotencyKey := scheduleOccurrenceIdempotencyKey platform wakeup
  requestedAt := requestedAt
  requestedDeadlineSeconds := none
  placementDecision := some ⟨.scheduled, plan.environment, none, none, none, none, 1⟩
  sizeClassDecision := process.sizeDecision plan

def liftLifecycle {α : Type} : Except LifecycleError α → Action α
  | .ok value => .ret value
  | .error e => .raise (.lifecycle e)

/-- Resolves one enabled occurrence of the configured plan revision. -/
def resolve (wakeup : ScheduleWakeup) (requestedAt : ℤ) : Action RunSubmission :=
  match process.triggers.find? (fun spec => spec.triggerId = wakeup.triggerId) with
  | none => .raise (.conflict "The scheduled trigger is unavailable.")
  | some spec =>
    if !spec.enabled then .raise (.conflict "The scheduled trigger is unavailable.")
    else if spec.planRevision ≠ wakeup.planRevision then
      .raise (.conflict
        "The scheduled occurrence does not select the configured plan revision.")
    else liftLifecycle (process.registry.requireRevision wakeup.planRevision) >>= fun plan =>
      .call (.graph plan.project plan.graph) fun (answer : GraphAnswer) =>
        match answer with
        | .notFound => .raise (.conflict "The scheduled graph is no longer available.")
        | .failed => .raise (.dependency "The scheduled graph is temporarily unavailable.")
        | .found graph =>
          if graph.project ≠ plan.project then
            .raise (.conflict "The scheduled occurrence conflicts with its execution plan.")
          else
            let submission :=
              occurrenceSubmission platform process plan graph spec.triggerId wakeup requestedAt
            liftLifecycle (process.registry.forSubmission submission) >>= fun _ =>
              .ret submission

/-- A program of the run lifecycle inside the consumer. -/
def lifecycle {α : Type} (p : Lifecycle.Action α) : Action α :=
  p.embed Request.lifecycle (fun _ answer => answer) ConsumerError.lifecycle

def clock : Action ℤ := lifecycle (.call .clock fun (now : ℤ) => .ret now)

/-- Starts the occurrence of one message and then acknowledges the message. -/
def handleMessage (message : QueuedScheduleMessage) : Action Unit :=
  match deserializeScheduleWakeup message.body with
  | none => .raise .serialization
  | some wakeup =>
    clock >>= fun requestedAt =>
      resolve platform process wakeup requestedAt >>= fun submission =>
        lifecycle (Lifecycle.start platform.sha256 process.registry submission) >>= fun _ =>
          .call (.delete message.receiptHandle) fun (deleted : Except Failure Unit) =>
            match deleted with
            | .ok _ => .ret ()
            | .error e => .raise (.queue e)

/-- Handles one message after another; a message that fails stays in the queue. -/
def handleMessages : List QueuedScheduleMessage → ℕ → Action ℕ
  | [], accepted => .ret accepted
  | message :: rest, accepted =>
    .call .stopped fun (stop : Bool) =>
      if stop then .ret accepted
      else ((handleMessage platform process message >>= fun _ =>
          .ret (accepted + 1)).tryCatch fun _ => .ret accepted) >>= fun accepted =>
        handleMessages rest accepted

/-- Receives one bounded batch and handles it. -/
def pollOnce : Action ℕ :=
  .call .stopped fun (stop : Bool) =>
    if stop then .ret 0
    else .call .receive fun (received : Except Failure (List QueuedScheduleMessage)) =>
      match received with
      | .error e => .raise (.queue e)
      | .ok messages => handleMessages platform process messages 0

end Programs

section Workers

/-- What workers do: poll the queue, or insert wakeups that fell due. -/
inductive Work where
  | poll (process : Process)
  | enqueue (wakeups : List ScheduleWakeup)

def insertAll : List ScheduleWakeup → ℕ → Action ℕ
  | [], produced => .ret produced
  | wakeup :: rest, produced =>
    .call (.insert wakeup) fun (inserted : Except Failure Bool) =>
      match inserted with
      | .error e => .raise (.queue e)
      | .ok inserted => insertAll rest (produced + if inserted then 1 else 0)

def perform (platform : Platform) : Work → Action ℕ
  | .poll process => pollOnce platform process
  | .enqueue wakeups => insertAll wakeups 0

end Workers

end Dander.Consumer
