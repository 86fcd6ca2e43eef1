import Dander.GraphStore
import Dander.Interleaving

/-!
# The graph store on one local root

Graphs and mutation journals are files, each replaced or removed atomically. A create or a
delete first writes a pending journal, then changes the graph file, then completes the
journal; a retry under the same key resumes from the journal it finds. One process holds the
root, so calls run one after another, but any of them may stop between two file operations.
-/
namespace Dander.LocalGraphStore

open Interleaving GraphStore
open GraphStore.InMemoryGraphStore (Draw)

section Files

variable {Document : Type}

structure StoredGraph (Document : Type) where
  project : String
  graph : String
  document : Document
  revision : String
  contentSha256 : String
  createdAt : ℤ
  updatedAt : ℤ
  deriving DecidableEq

def StoredGraph.record (stored : StoredGraph Document)
    (canonical : CanonicalGraphDocument Document) : GraphRecord Document where
  project := stored.project
  graph := stored.graph
  document := canonical.document
  revision := stored.revision
  contentSha256 := stored.contentSha256
  createdAt := stored.createdAt
  updatedAt := stored.updatedAt

inductive MutationStatus where
  | pending
  | completed
  deriving Repr, DecidableEq

/-- What a journal is for. -/
inductive Plan (Document : Type) where
  | create (plannedGraph : StoredGraph Document)
  | delete (expectedRevision : String) (deleteReceipt : GraphDeleteReceipt)

def Plan.operation : Plan Document → MutationOperation
  | .create _ => .create
  | .delete .. => .delete

def Plan.Addresses (project graph : String) : Plan Document → Prop
  | .create planned => planned.project = project ∧ planned.graph = graph
  | .delete expectedRevision receipt =>
    receipt.project = project ∧ receipt.graph = graph ∧ receipt.revision = expectedRevision

structure MutationJournal (Document : Type) where
  status : MutationStatus
  project : String
  graph : String
  keySha256 : String
  requestSha256 : String
  plan : Plan Document
  addressed : plan.Addresses project graph

structure JournalName where
  project : String
  operation : MutationOperation
  keySha256 : String
  deriving Repr, DecidableEq

/-- The files under the root. No call reads `applied`, the journals on whose behalf a graph
file was changed, nor `revisions`, the revisions drawn so far. -/
structure Disk (Document : Type) where
  graphs : String × String → Option (StoredGraph Document)
  journals : JournalName → Option (MutationJournal Document)
  applied : List JournalName
  revisions : List String

def Disk.empty : Disk Document := ⟨fun _ => none, fun _ => none, [], []⟩

inductive FileOp (Document : Type) where
  | clock
  | revision
  | readGraph (project graph : String)
  | readJournal (name : JournalName)
  | writeGraph (stored : StoredGraph Document) (onBehalfOf : Option JournalName)
  | deleteGraphFile (project graph : String) (onBehalfOf : JournalName)
  | writeJournal (name : JournalName) (journal : MutationJournal Document)

def Answer : FileOp Document → Type
  | .clock => ℤ
  | .revision => String
  | .readGraph .. => Option (StoredGraph Document)
  | .readJournal _ => Option (MutationJournal Document)
  | .writeGraph .. => Unit
  | .deleteGraphFile .. => Unit
  | .writeJournal .. => Unit

def Disk.writeGraph (disk : Disk Document) (stored : StoredGraph Document)
    (onBehalfOf : Option JournalName) : Disk Document :=
  { disk with
    graphs := Function.update disk.graphs (stored.project, stored.graph) (some stored)
    applied := onBehalfOf.toList ++ disk.applied }

def Disk.deleteGraphFile (disk : Disk Document) (project graph : String)
    (onBehalfOf : JournalName) : Disk Document :=
  { disk with
    graphs := Function.update disk.graphs (project, graph) none
    applied := onBehalfOf :: disk.applied }

def Disk.writeJournal (disk : Disk Document) (name : JournalName)
    (journal : MutationJournal Document) : Disk Document :=
  { disk with journals := Function.update disk.journals name (some journal) }

def serve (draw : Draw) : (o : FileOp Document) → Disk Document → Answer o × Disk Document
  | .clock, disk => (draw.now, disk)
  | .revision, disk => (draw.revision, { disk with revisions := draw.revision :: disk.revisions })
  | .readGraph project graph, disk => (disk.graphs (project, graph), disk)
  | .readJournal name, disk => (disk.journals name, disk)
  | .writeGraph stored onBehalfOf, disk => ((), disk.writeGraph stored onBehalfOf)
  | .deleteGraphFile project graph onBehalfOf, disk =>
    ((), disk.deleteGraphFile project graph onBehalfOf)
  | .writeJournal name journal, disk => ((), disk.writeJournal name journal)

/-- The file system with its clock; revisions are drawn at random and never repeat. -/
def files : Machine (FileOp Document) Answer (Disk Document) where
  step o disk answer disk' := ∃ draw : Draw,
    (o = .revision → draw.revision ∉ disk.revisions) ∧ serve draw o disk = (answer, disk')

end Files

section Store

variable {Document : Type} [DecidableEq Document]

/-- How a store is set up, with the sizes of the files it writes. -/
structure Settings (Document : Type) extends Contract Document where
  maxGraphBytes : ℕ
  graphBytes : StoredGraph Document → ℕ
  journalBytes : MutationJournal Document → ℕ

def maxEnvelopeOverhead : ℕ := 256 * 1024

abbrev Action (Document : Type) := Prog (FileOp Document) Answer GraphStoreError

variable (settings : Settings Document)

def corruption (message : String) : GraphStoreError := ⟨.corruption, message⟩

def lift {α : Type} : Except GraphStoreError α → Action Document α
  | .ok value => .ret value
  | .error e => .raise e

/-- The size check of every read. -/
def checkedSize (bytes : ℕ) : Except GraphStoreError Unit :=
  if bytes > maxEnvelopeOverhead + settings.maxGraphBytes then
    .error (corruption "A local graph-store file exceeds its size bound.")
  else .ok ()

def checkedEnvelope (project graph : String) (stored : StoredGraph Document) :
    Except GraphStoreError (CanonicalGraphDocument Document) := do
  checkedSize settings (settings.graphBytes stored)
  if stored.project ≠ project ∨ stored.graph ≠ graph then
    throw (corruption "The local graph record is addressed incorrectly.")
  if !isRevision stored.revision then
    throw (corruption "The local graph record has an invalid revision.")
  let canonical ← settings.canonicalizeGraphDocument stored.document
  if canonical.contentSha256 ≠ stored.contentSha256 then
    throw (corruption "The local graph record has an invalid content hash.")
  return canonical

/-- The stored graph with the canonical form its checks computed. -/
def loadOptionalEnvelope (project graph : String) :
    Action Document (Option (StoredGraph Document × CanonicalGraphDocument Document)) :=
  .call (.readGraph project graph) fun (found : Option (StoredGraph Document)) =>
    match found with
    | none => .ret none
    | some stored => lift (checkedEnvelope settings project graph stored) >>= fun canonical =>
      .ret (some (stored, canonical))

def loadOptional (project graph : String) : Action Document (Option (GraphRecord Document)) :=
  loadOptionalEnvelope settings project graph >>= fun loaded =>
    .ret (loaded.map fun l => l.1.record l.2)

def get (project graph : String) : Action Document (GraphRecord Document) :=
  lift (validatedGraphKey project graph) >>= fun _ =>
    loadOptional settings project graph >>= fun loaded =>
      match loaded with
      | none => .raise graphNotFound
      | some record => .ret record

/-- The journal file of a key. -/
def journalName (scope : Scope) : JournalName :=
  ⟨scope.project, scope.operation, settings.sha256 scope.idempotencyKey⟩

def loadJournal (scope : Scope) : Action Document (Option (MutationJournal Document)) :=
  .call (.readJournal (journalName settings scope))
    fun (found : Option (MutationJournal Document)) =>
    match found with
    | none => .ret none
    | some journal => lift (checkedSize settings (settings.journalBytes journal)) >>= fun _ =>
      .ret (some journal)

def validateReplay (journal : MutationJournal Document) (project graph : String)
    (operation : MutationOperation) (keySha256 fingerprint : String) :
    Except GraphStoreError Unit := do
  if journal.project ≠ project ∨ journal.plan.operation ≠ operation ∨
      journal.keySha256 ≠ keySha256 then
    throw (corruption "The local idempotency journal is inconsistent.")
  if journal.requestSha256 ≠ fingerprint then throw keyReused
  if journal.graph ≠ graph then
    throw (corruption "The local idempotency journal is inconsistent.")

/-- The file of a journal. -/
def MutationJournal.name (journal : MutationJournal Document) : JournalName :=
  ⟨journal.project, journal.plan.operation, journal.keySha256⟩

def complete (journal : MutationJournal Document) : Action Document Unit :=
  .call (.writeJournal journal.name { journal with status := .completed }) fun (_ : Unit) =>
    .ret ()

def applyCreate (journal : MutationJournal Document) (planned : StoredGraph Document) :
    Action Document Unit :=
  loadOptionalEnvelope settings journal.project journal.graph >>= fun current =>
    match current with
    | none => .call (.writeGraph planned (some journal.name)) fun (_ : Unit) => .ret ()
    | some current =>
      if current.1 ≠ planned then
        .raise ⟨.conflict, "The pending graph create cannot be recovered safely."⟩
      else .ret ()

def resumeCreate (journal : MutationJournal Document) : Action Document (GraphRecord Document) :=
  match journal.plan with
  | .delete .. => .raise (corruption "The local idempotency journal is invalid.")
  | .create planned =>
    lift (settings.canonicalizeGraphDocument planned.document) >>= fun canonical =>
      if canonical.contentSha256 ≠ planned.contentSha256 then
        .raise (corruption "The local idempotency journal is inconsistent.")
      else if journal.status = .completed then .ret (planned.record canonical)
      else applyCreate settings journal planned >>= fun _ =>
        complete journal >>= fun _ => .ret (planned.record canonical)

def applyDelete (journal : MutationJournal Document) (expectedRevision : String) :
    Action Document Unit :=
  loadOptional settings journal.project journal.graph >>= fun current =>
    match current with
    | none => .ret ()
    | some current =>
      if current.revision ≠ expectedRevision then
        .raise ⟨.conflict, "The pending graph delete cannot be recovered safely."⟩
      else .call (.deleteGraphFile journal.project journal.graph journal.name)
        fun (_ : Unit) => .ret ()

def resumeDelete (journal : MutationJournal Document) : Action Document GraphDeleteReceipt :=
  match journal.plan with
  | .create _ => .raise (corruption "The local idempotency journal is invalid.")
  | .delete expectedRevision receipt =>
    if journal.status = .completed then .ret receipt
    else applyDelete settings journal expectedRevision >>= fun _ =>
      complete journal >>= fun _ => .ret receipt

/-- The graph a create plans, and its pending journal. -/
def plannedGraph (project graph : String) (canonical : CanonicalGraphDocument Document)
    (revision : String) (createdAt updatedAt : ℤ) : StoredGraph Document where
  project := project
  graph := graph
  document := canonical.document
  revision := revision
  contentSha256 := canonical.contentSha256
  createdAt := createdAt
  updatedAt := updatedAt

def createJournal (planned : StoredGraph Document) (keySha256 fingerprint : String) :
    MutationJournal Document where
  status := .pending
  project := planned.project
  graph := planned.graph
  keySha256 := keySha256
  requestSha256 := fingerprint
  plan := .create planned
  addressed := ⟨rfl, rfl⟩

def deleteJournal (receipt : GraphDeleteReceipt) (keySha256 fingerprint : String) :
    MutationJournal Document where
  status := .pending
  project := receipt.project
  graph := receipt.graph
  keySha256 := keySha256
  requestSha256 := fingerprint
  plan := .delete receipt.revision receipt
  addressed := ⟨rfl, rfl, rfl⟩

def writePending (journal : MutationJournal Document) : Action Document Unit :=
  .call (.writeJournal journal.name journal) fun (_ : Unit) => .ret ()

def create (project graph : String) (document : Document) (idempotencyKey : String) :
    Action Document (GraphRecord Document) :=
  lift (checkedCreate settings.toContract project graph document idempotencyKey) >>=
    fun canonical =>
      let fingerprint := createFingerprint settings.toContract project graph
        canonical.contentSha256
      let keySha256 := settings.sha256 idempotencyKey
      loadJournal settings ⟨project, .create, idempotencyKey⟩ >>= fun found =>
        match found with
        | some journal =>
          lift (validateReplay journal project graph .create keySha256 fingerprint) >>= fun _ =>
            resumeCreate settings journal
        | none =>
          loadOptional settings project graph >>= fun existing =>
            match existing with
            | some _ => .raise graphAlreadyExists
            | none =>
              .call .clock fun (now : ℤ) => .call .revision fun (revision : String) =>
                lift (validatedNewRevision revision) >>= fun _ =>
                  let journal := createJournal
                    (plannedGraph project graph canonical revision now now) keySha256 fingerprint
                  writePending journal >>= fun _ => resumeCreate settings journal

def put (project graph : String) (document : Document) (expectedRevision : String) :
    Action Document (GraphRecord Document) :=
  lift (checkedPut settings.toContract project graph document expectedRevision) >>=
    fun canonical =>
      loadOptionalEnvelope settings project graph >>= fun loaded =>
        match loaded with
        | none => .raise graphNotFound
        | some current =>
          if current.1.revision ≠ expectedRevision then .raise revisionStale
          else .call .revision fun (revision : String) =>
            lift (validatedNewRevision revision) >>= fun _ =>
              .call .clock fun (now : ℤ) =>
                let stored := plannedGraph project graph canonical revision
                  current.1.createdAt now
                .call (.writeGraph stored none) fun (_ : Unit) => .ret (stored.record canonical)

def delete (project graph expectedRevision idempotencyKey : String) :
    Action Document GraphDeleteReceipt :=
  lift (checkedDelete project graph expectedRevision idempotencyKey) >>= fun _ =>
    let fingerprint := deleteFingerprint settings.toContract project graph expectedRevision
    let keySha256 := settings.sha256 idempotencyKey
    loadJournal settings ⟨project, .delete, idempotencyKey⟩ >>= fun found =>
      match found with
      | some journal =>
        lift (validateReplay journal project graph .delete keySha256 fingerprint) >>= fun _ =>
          resumeDelete settings journal
      | none =>
        loadOptional settings project graph >>= fun current =>
          match current with
          | none => .raise graphNotFound
          | some current =>
            if current.revision ≠ expectedRevision then .raise revisionStale
            else .call .clock fun (now : ℤ) =>
              let journal := deleteJournal
                ⟨project, graph, current.revision, current.contentSha256, now⟩ keySha256
                fingerprint
              writePending journal >>= fun _ => resumeDelete settings journal

def perform : Call Document → Action Document (Outcome Document)
  | .get project graph => get settings project graph >>= fun r => .ret (.record r)
  | .create project graph document key =>
    create settings project graph document key >>= fun r => .ret (.record r)
  | .put project graph document revision =>
    put settings project graph document revision >>= fun r => .ret (.record r)
  | .delete project graph revision key =>
    delete settings project graph revision key >>= fun r => .ret (.receipt r)

end Store

end Dander.LocalGraphStore
