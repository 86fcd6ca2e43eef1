import Dander.Execution
import Dander.ScheduleRecords

/-!
# Graph persistence: the contract and the in-memory store

Identifiers, records, receipts and fingerprints that every graph store shares, and the store
in memory, whose calls take effect at once. Durable stores are compared with it.
-/
namespace Dander.GraphStore

open Schedule (jsonObject jsonString)

section Contract

inductive ErrorClass where
  | identifier
  | document
  | notFound
  | alreadyExists
  | conflict
  | idempotencyConflict
  | corruption
  | store
  deriving Repr, DecidableEq

structure GraphStoreError where
  kind : ErrorClass
  message : String
  deriving Repr, DecidableEq

structure CanonicalGraphDocument (Document : Type) where
  document : Document
  contentSha256 : String

/-- What the stores take from the platform: hashing, and the validation and canonical encoding
of graph documents, which leaves canonical documents as they are. -/
structure Contract (Document : Type) where
  sha256 : String → String
  canonicalizeGraphDocument :
    Document → Except GraphStoreError (CanonicalGraphDocument Document)
  canonical : ∀ document result, canonicalizeGraphDocument document = .ok result →
    canonicalizeGraphDocument result.document = .ok result

structure GraphRecord (Document : Type) where
  project : String
  graph : String
  document : Document
  revision : String
  contentSha256 : String
  createdAt : ℤ
  updatedAt : ℤ
  deriving DecidableEq

structure GraphDeleteReceipt where
  project : String
  graph : String
  revision : String
  contentSha256 : String
  deletedAt : ℤ
  deriving Repr, DecidableEq

inductive MutationOperation where
  | create
  | delete
  deriving Repr, DecidableEq

def MutationOperation.value : MutationOperation → String
  | .create => "create"
  | .delete => "delete"

/-- `^[A-Za-z0-9][A-Za-z0-9._:-]{7,127}$`. -/
def isIdempotencyKey (text : String) : Bool := isOpaqueId text && decide (8 ≤ text.toList.length)

def validatedIdentifier (value label : String) : Except GraphStoreError Unit :=
  if isPortableId value then .ok ()
  else .error ⟨.identifier, "The " ++ label ++
    " identifier must be 1-63 lowercase ASCII letters, digits, hyphens, or underscores."⟩

def validatedGraphKey (project graph : String) : Except GraphStoreError Unit := do
  validatedIdentifier project "project"
  validatedIdentifier graph "graph"

def validatedIdempotencyKey (value : String) : Except GraphStoreError Unit :=
  if isIdempotencyKey value then .ok ()
  else .error ⟨.identifier, "The idempotency key must be 8-128 URL-safe ASCII characters."⟩

/-- Revisions are opaque: not empty, and at most 512 characters. -/
def isRevision (value : String) : Bool := value ≠ "" && decide (value.toList.length ≤ 512)

def validatedRevision (value : String) : Except GraphStoreError Unit :=
  if isRevision value then .ok ()
  else .error ⟨.identifier, "The expected graph revision is invalid."⟩

def validatedNewRevision (value : String) : Except GraphStoreError Unit :=
  if isRevision value then .ok ()
  else .error ⟨.corruption, "The revision provider returned an invalid token."⟩

variable {Document : Type} (contract : Contract Document)

def createRequest (project graph contentSha256 : String) : String :=
  jsonObject [("content_sha256", jsonString contentSha256), ("graph", jsonString graph),
    ("operation", jsonString "create"), ("project", jsonString project)]

def deleteRequest (project graph expectedRevision : String) : String :=
  jsonObject [("expected_revision", jsonString expectedRevision), ("graph", jsonString graph),
    ("operation", jsonString "delete"), ("project", jsonString project)]

def createFingerprint (project graph contentSha256 : String) : String :=
  contract.sha256 (createRequest project graph contentSha256)

def deleteFingerprint (project graph expectedRevision : String) : String :=
  contract.sha256 (deleteRequest project graph expectedRevision)

/-- The checks every store makes before it looks at its state. -/
def checkedCreate (project graph : String) (document : Document) (idempotencyKey : String) :
    Except GraphStoreError (CanonicalGraphDocument Document) := do
  validatedGraphKey project graph
  validatedIdempotencyKey idempotencyKey
  contract.canonicalizeGraphDocument document

def checkedPut (project graph : String) (document : Document) (expectedRevision : String) :
    Except GraphStoreError (CanonicalGraphDocument Document) := do
  validatedGraphKey project graph
  validatedRevision expectedRevision
  contract.canonicalizeGraphDocument document

def checkedDelete (project graph expectedRevision idempotencyKey : String) :
    Except GraphStoreError Unit := do
  validatedGraphKey project graph
  validatedRevision expectedRevision
  validatedIdempotencyKey idempotencyKey

inductive Call (Document : Type) where
  | get (project graph : String)
  | create (project graph : String) (document : Document) (idempotencyKey : String)
  | put (project graph : String) (document : Document) (expectedRevision : String)
  | delete (project graph expectedRevision idempotencyKey : String)
  deriving DecidableEq

/-- What a successful call returns. -/
inductive Outcome (Document : Type) where
  | record (record : GraphRecord Document)
  | receipt (receipt : GraphDeleteReceipt)
  deriving DecidableEq

def graphNotFound : GraphStoreError := ⟨.notFound, "The graph does not exist."⟩
def graphAlreadyExists : GraphStoreError := ⟨.alreadyExists, "The graph already exists."⟩
def revisionStale : GraphStoreError := ⟨.conflict, "The graph revision is stale."⟩
def keyReused : GraphStoreError :=
  ⟨.idempotencyConflict, "The idempotency key was already used for a different request."⟩

end Contract

section Checks

variable {Document : Type} {contract : Contract Document}
  {project graph expectedRevision idempotencyKey : String} {document : Document}
  {canonical : CanonicalGraphDocument Document}

theorem portable_of_validatedGraphKey (h : validatedGraphKey project graph = .ok ()) :
    isPortableId graph = true := by
  obtain ⟨⟨⟩, -, hgraph⟩ := Execution.bind_eq_ok h
  unfold validatedIdentifier at hgraph
  split at hgraph
  · assumption
  · cases hgraph

theorem portable_of_checkedCreate
    (h : checkedCreate contract project graph document idempotencyKey = .ok canonical) :
    isPortableId graph = true := by
  obtain ⟨⟨⟩, hkeys, -⟩ := Execution.bind_eq_ok h
  exact portable_of_validatedGraphKey hkeys

theorem canonical_of_checkedCreate
    (h : checkedCreate contract project graph document idempotencyKey = .ok canonical) :
    contract.canonicalizeGraphDocument document = .ok canonical := by
  obtain ⟨⟨⟩, -, hrest⟩ := Execution.bind_eq_ok h
  obtain ⟨⟨⟩, -, hcanonical⟩ := Execution.bind_eq_ok hrest
  exact hcanonical

theorem canonical_of_checkedPut
    (h : checkedPut contract project graph document expectedRevision = .ok canonical) :
    contract.canonicalizeGraphDocument document = .ok canonical := by
  obtain ⟨⟨⟩, -, hrest⟩ := Execution.bind_eq_ok h
  obtain ⟨⟨⟩, -, hcanonical⟩ := Execution.bind_eq_ok hrest
  exact hcanonical

theorem portable_of_checkedDelete
    (h : checkedDelete project graph expectedRevision idempotencyKey = .ok ()) :
    isPortableId graph = true := by
  obtain ⟨⟨⟩, hkeys, -⟩ := Execution.bind_eq_ok h
  exact portable_of_validatedGraphKey hkeys

theorem revision_of_validatedNewRevision {revision : String}
    (h : validatedNewRevision revision = .ok ()) : isRevision revision = true := by
  unfold validatedNewRevision at h
  split at h
  · assumption
  · cases h

end Checks

section Fingerprints

theorem plain_of_portable {c : Char} (h : (isLowerOrDigit c || c = '_' || c = '-') = true) :
    Schedule.jsonChar c = String.singleton c := by
  have hrange : 45 ≤ c.toNat ∧ c.toNat ≠ 92 := by
    simp only [isLowerOrDigit, Bool.or_eq_true, Bool.and_eq_true, decide_eq_true_eq] at h
    rcases h with ((h | h) | rfl) | rfl
    · omega
    · omega
    · decide
    · decide
  have hne : ∀ d : Char, d.toNat < 45 ∨ d.toNat = 92 → c ≠ d := by
    rintro d hd rfl
    omega
  unfold Schedule.jsonChar
  rw [if_neg (hne _ (by decide)), if_neg (hne _ (by decide)), if_neg (hne _ (by decide)),
    if_neg (hne _ (by decide)), if_neg (hne _ (by decide)), if_neg (by omega),
    if_neg (by omega), if_neg (by omega)]

theorem portable_chars {text : String} (h : isPortableId text = true) :
    ∀ c ∈ text.toList, (isLowerOrDigit c || c = '_' || c = '-') = true := by
  unfold isPortableId at h
  split at h
  · cases h
  next first rest htext =>
    simp only [Bool.and_eq_true, List.all_eq_true] at h
    intro c hc
    rw [htext, List.mem_cons] at hc
    rcases hc with rfl | hc
    · simp [h.1.1]
    · exact h.2 c hc

theorem quote_notMem_of_portable {text : String} (h : isPortableId text = true) :
    '"' ∉ text.toList := by
  intro hmem
  have hquote := portable_chars h _ hmem
  revert hquote
  decide

theorem jsonString_of_portable {text : String} (h : isPortableId text = true) :
    (jsonString text).toList = '"' :: (text.toList ++ ['"']) := by
  have hmap : text.toList.map Schedule.jsonChar = text.toList.map String.singleton := by
    apply List.map_congr_left
    intro c hc
    exact plain_of_portable (portable_chars h c hc)
  have hjoin : ∀ chars : List Char,
      (String.join (chars.map String.singleton)).toList = chars := by
    intro chars
    induction chars with
    | nil => rfl
    | cons c rest ih => simp [ih]
  simp [jsonString, hmap, hjoin]

/-- Texts that agree from the last quoted field on agree on this field. -/
theorem last_quoted {first second before before' after : List Char} (hfirst : '"' ∉ first)
    (hsecond : '"' ∉ second)
    (h : before ++ '"' :: (first ++ after) = before' ++ '"' :: (second ++ after)) :
    first = second := by
  have hsame : (before ++ '"' :: first) ++ after = (before' ++ '"' :: second) ++ after := by
    simpa using h
  rcases List.append_eq_append_iff.mp (List.append_cancel_right hsame) with
    ⟨more, -, hmore⟩ | ⟨more, -, hmore⟩
  · cases more with
    | nil => simpa using hmore
    | cons c rest =>
      have hmem : '"' ∈ first := by simp_all
      exact (hfirst hmem).elim
  · cases more with
    | nil => simpa using hmore.symm
    | cons c rest =>
      have hmem : '"' ∈ second := by simp_all
      exact (hsecond hmem).elim

theorem request_graph {name name' value value' graph graph' operation project : String}
    (hgraph : isPortableId graph = true) (hgraph' : isPortableId graph' = true)
    (h : jsonObject [(name, value), ("graph", jsonString graph), ("operation", operation),
        ("project", project)] =
      jsonObject [(name', value'), ("graph", jsonString graph'), ("operation", operation),
        ("project", project)]) : graph = graph' := by
  have hfields : ∀ a b c d : String,
      ",".intercalate [a, b, c, d] = a ++ "," ++ b ++ "," ++ c ++ "," ++ d := by
    intro a b c d
    rfl
  have hlist : ("\x7b" ++ jsonString name ++ ":" ++ value ++ "," ++ jsonString "graph" ++
        ":").toList ++ '"' :: (graph.toList ++ ("\"," ++ jsonString "operation" ++ ":" ++
          operation ++ "," ++ jsonString "project" ++ ":" ++ project ++ "\x7d").toList) =
      ("\x7b" ++ jsonString name' ++ ":" ++ value' ++ "," ++ jsonString "graph" ++
        ":").toList ++ '"' :: (graph'.toList ++ ("\"," ++ jsonString "operation" ++ ":" ++
          operation ++ "," ++ jsonString "project" ++ ":" ++ project ++ "\x7d").toList) := by
    simpa [jsonObject, hfields, jsonString_of_portable hgraph, jsonString_of_portable hgraph']
      using congrArg String.toList h
  have hgraphs := last_quoted (quote_notMem_of_portable hgraph)
    (quote_notMem_of_portable hgraph') hlist
  exact String.toList_inj.mp hgraphs

theorem deleteRequest_inj {project graph graph' revision revision' : String}
    (hgraph : isPortableId graph = true) (hgraph' : isPortableId graph' = true)
    (h : deleteRequest project graph revision = deleteRequest project graph' revision') :
    graph = graph' ∧ revision = revision' := by
  obtain rfl := request_graph hgraph hgraph' h
  have hfields : ∀ a b c d : String,
      ",".intercalate [a, b, c, d] = a ++ "," ++ b ++ "," ++ c ++ "," ++ d := by
    intro a b c d
    rfl
  have hlist := congrArg String.toList h
  simp only [deleteRequest, jsonObject, List.map_cons, List.map_nil, hfields, String.toList_append,
    List.append_assoc] at hlist
  have hvalue := List.append_cancel_left (List.append_cancel_left (List.append_cancel_left hlist))
  have hrevision := List.append_cancel_right hvalue
  exact ⟨rfl, Schedule.jsonString_injective (String.toList_inj.mp hrevision)⟩

end Fingerprints

section InMemory

variable {Document : Type}

/-- Keys are scoped by project and operation. -/
structure Scope where
  project : String
  operation : MutationOperation
  idempotencyKey : String
  deriving Repr, DecidableEq

structure InMemoryGraphStore (Document : Type) where
  records : String × String → Option (GraphRecord Document)
  idempotency : Scope → Option (String × Outcome Document)

namespace InMemoryGraphStore

def empty : InMemoryGraphStore Document := ⟨fun _ => none, fun _ => none⟩

/-- The clock and the revision factory, as one call finds them. -/
structure Draw where
  now : ℤ
  revision : String

def newRecord (project graph : String) (canonical : CanonicalGraphDocument Document)
    (revision : String) (createdAt updatedAt : ℤ) : GraphRecord Document where
  project := project
  graph := graph
  document := canonical.document
  revision := revision
  contentSha256 := canonical.contentSha256
  createdAt := createdAt
  updatedAt := updatedAt

variable (contract : Contract Document) (draw : Draw) (store : InMemoryGraphStore Document)

def get (project graph : String) : Except GraphStoreError (GraphRecord Document) := do
  validatedGraphKey project graph
  match store.records (project, graph) with
  | some record => return record
  | none => throw graphNotFound

def replayRecord (saved : String × Outcome Document) (fingerprint : String) :
    Except GraphStoreError (GraphRecord Document) :=
  match saved with
  | (savedFingerprint, .record record) =>
    if savedFingerprint ≠ fingerprint then .error keyReused else .ok record
  | (_, .receipt _) => .error keyReused

def replayReceipt (saved : String × Outcome Document) (fingerprint : String) :
    Except GraphStoreError GraphDeleteReceipt :=
  match saved with
  | (savedFingerprint, .receipt receipt) =>
    if savedFingerprint ≠ fingerprint then .error keyReused else .ok receipt
  | (_, .record _) => .error keyReused

def create (project graph : String) (document : Document) (idempotencyKey : String) :
    Except GraphStoreError (GraphRecord Document × InMemoryGraphStore Document) := do
  let canonical ← checkedCreate contract project graph document idempotencyKey
  let fingerprint := createFingerprint contract project graph canonical.contentSha256
  let scope : Scope := ⟨project, .create, idempotencyKey⟩
  match store.idempotency scope with
  | some saved =>
    let record ← replayRecord saved fingerprint
    return (record, store)
  | none =>
    if (store.records (project, graph)).isSome then throw graphAlreadyExists
    validatedNewRevision draw.revision
    let record := newRecord project graph canonical draw.revision draw.now draw.now
    return (record,
      { records := Function.update store.records (project, graph) (some record)
        idempotency := Function.update store.idempotency scope
          (some (fingerprint, .record record)) })

def put (project graph : String) (document : Document) (expectedRevision : String) :
    Except GraphStoreError (GraphRecord Document × InMemoryGraphStore Document) := do
  let canonical ← checkedPut contract project graph document expectedRevision
  match store.records (project, graph) with
  | none => throw graphNotFound
  | some current =>
    if current.revision ≠ expectedRevision then throw revisionStale
    validatedNewRevision draw.revision
    let record := newRecord project graph canonical draw.revision current.createdAt draw.now
    return (record,
      { store with records := Function.update store.records (project, graph) (some record) })

def delete (project graph expectedRevision idempotencyKey : String) :
    Except GraphStoreError (GraphDeleteReceipt × InMemoryGraphStore Document) := do
  checkedDelete project graph expectedRevision idempotencyKey
  let fingerprint := deleteFingerprint contract project graph expectedRevision
  let scope : Scope := ⟨project, .delete, idempotencyKey⟩
  match store.idempotency scope with
  | some saved =>
    let receipt ← replayReceipt saved fingerprint
    return (receipt, store)
  | none =>
    match store.records (project, graph) with
    | none => throw graphNotFound
    | some current =>
      if current.revision ≠ expectedRevision then throw revisionStale
      let receipt : GraphDeleteReceipt :=
        { project := project, graph := graph, revision := current.revision,
          contentSha256 := current.contentSha256, deletedAt := draw.now }
      return (receipt,
        { records := Function.update store.records (project, graph) none
          idempotency := Function.update store.idempotency scope
            (some (fingerprint, .receipt receipt)) })

/-- A call and the store it leaves; a call that raises leaves the store as it was. -/
def perform (call : Call Document) :
    Except GraphStoreError (Outcome Document) × InMemoryGraphStore Document :=
  let result : Except GraphStoreError (Outcome Document × InMemoryGraphStore Document) :=
    match call with
    | .get project graph => (store.get project graph).map fun r => (.record r, store)
    | .create project graph document key =>
      (store.create contract draw project graph document key).map fun r => (.record r.1, r.2)
    | .put project graph document revision =>
      (store.put contract draw project graph document revision).map fun r => (.record r.1, r.2)
    | .delete project graph revision key =>
      (store.delete contract draw project graph revision key).map fun r => (.receipt r.1, r.2)
  match result with
  | .ok (outcome, after) => (.ok outcome, after)
  | .error e => (.error e, store)

section Calls

variable {contract store} {project graph expectedRevision idempotencyKey : String}
  {document : Document} {canonical : CanonicalGraphDocument Document}

theorem perform_get_of_ok {record : GraphRecord Document}
    (h : store.get project graph = .ok record) :
    store.perform contract draw (.get project graph) = (.ok (.record record), store) := by
  delta perform
  simp only [h, Except.map]

theorem perform_get_of_error {e : GraphStoreError} (h : store.get project graph = .error e) :
    store.perform contract draw (.get project graph) = (.error e, store) := by
  delta perform
  simp only [h, Except.map]

theorem perform_create_of_ok {record : GraphRecord Document} {after : InMemoryGraphStore Document}
    (h : store.create contract draw project graph document idempotencyKey = .ok (record, after)) :
    store.perform contract draw (.create project graph document idempotencyKey) =
      (.ok (.record record), after) := by
  delta perform
  simp only [h, Except.map]

theorem perform_create_of_error {e : GraphStoreError}
    (h : store.create contract draw project graph document idempotencyKey = .error e) :
    store.perform contract draw (.create project graph document idempotencyKey) =
      (.error e, store) := by
  delta perform
  simp only [h, Except.map]

theorem perform_put_of_ok {record : GraphRecord Document} {after : InMemoryGraphStore Document}
    (h : store.put contract draw project graph document expectedRevision = .ok (record, after)) :
    store.perform contract draw (.put project graph document expectedRevision) =
      (.ok (.record record), after) := by
  delta perform
  simp only [h, Except.map]

theorem perform_put_of_error {e : GraphStoreError}
    (h : store.put contract draw project graph document expectedRevision = .error e) :
    store.perform contract draw (.put project graph document expectedRevision) =
      (.error e, store) := by
  delta perform
  simp only [h, Except.map]

theorem perform_delete_of_ok {receipt : GraphDeleteReceipt} {after : InMemoryGraphStore Document}
    (h : store.delete contract draw project graph expectedRevision idempotencyKey =
      .ok (receipt, after)) :
    store.perform contract draw (.delete project graph expectedRevision idempotencyKey) =
      (.ok (.receipt receipt), after) := by
  delta perform
  simp only [h, Except.map]

theorem perform_delete_of_error {e : GraphStoreError}
    (h : store.delete contract draw project graph expectedRevision idempotencyKey = .error e) :
    store.perform contract draw (.delete project graph expectedRevision idempotencyKey) =
      (.error e, store) := by
  delta perform
  simp only [h, Except.map]

theorem perform_get_error {e : GraphStoreError} (h : validatedGraphKey project graph = .error e) :
    store.perform contract draw (.get project graph) = (.error e, store) := by
  apply perform_get_of_error
  simp [get, h, bind, Except.bind]

theorem perform_get (h : validatedGraphKey project graph = .ok ()) :
    store.perform contract draw (.get project graph) =
      (match store.records (project, graph) with
        | some record => .ok (.record record)
        | none => .error graphNotFound, store) := by
  cases hrecord : store.records (project, graph) with
  | none =>
    apply perform_get_of_error
    simp [get, h, hrecord, bind, Except.bind, throw, throwThe, MonadExceptOf.throw]
  | some record =>
    apply perform_get_of_ok
    simp [get, h, hrecord, bind, Except.bind, pure, Except.pure]

theorem perform_create_error {e : GraphStoreError}
    (h : checkedCreate contract project graph document idempotencyKey = .error e) :
    store.perform contract draw (.create project graph document idempotencyKey) =
      (.error e, store) := by
  apply perform_create_of_error
  simp [create, h, bind, Except.bind]

theorem perform_create_replay {saved : String × Outcome Document}
    (h : checkedCreate contract project graph document idempotencyKey = .ok canonical)
    (hsaved : store.idempotency ⟨project, .create, idempotencyKey⟩ = some saved) :
    store.perform contract draw (.create project graph document idempotencyKey) =
      ((replayRecord saved (createFingerprint contract project graph canonical.contentSha256)).map
        Outcome.record, store) := by
  cases hreplay : replayRecord saved
      (createFingerprint contract project graph canonical.contentSha256) with
  | error e =>
    apply perform_create_of_error
    simp [create, h, hsaved, hreplay, bind, Except.bind]
  | ok record =>
    apply perform_create_of_ok
    simp [create, h, hsaved, hreplay, bind, Except.bind, pure, Except.pure]

theorem perform_create_exists
    (h : checkedCreate contract project graph document idempotencyKey = .ok canonical)
    (hsaved : store.idempotency ⟨project, .create, idempotencyKey⟩ = none)
    {record : GraphRecord Document} (hrecord : store.records (project, graph) = some record) :
    store.perform contract draw (.create project graph document idempotencyKey) =
      (.error graphAlreadyExists, store) := by
  apply perform_create_of_error
  simp [create, h, hsaved, hrecord, bind, Except.bind, throw, throwThe, MonadExceptOf.throw]

theorem perform_create_invalid
    (h : checkedCreate contract project graph document idempotencyKey = .ok canonical)
    (hsaved : store.idempotency ⟨project, .create, idempotencyKey⟩ = none)
    (hrecord : store.records (project, graph) = none) {e : GraphStoreError}
    (hrevision : validatedNewRevision draw.revision = .error e) :
    store.perform contract draw (.create project graph document idempotencyKey) =
      (.error e, store) := by
  apply perform_create_of_error
  simp [create, h, hsaved, hrecord, hrevision, bind, Except.bind]

theorem perform_create_new
    (h : checkedCreate contract project graph document idempotencyKey = .ok canonical)
    (hsaved : store.idempotency ⟨project, .create, idempotencyKey⟩ = none)
    (hrecord : store.records (project, graph) = none)
    (hrevision : validatedNewRevision draw.revision = .ok ()) :
    let record := newRecord project graph canonical draw.revision draw.now draw.now
    store.perform contract draw (.create project graph document idempotencyKey) =
      (.ok (.record record),
        { records := Function.update store.records (project, graph) (some record)
          idempotency := Function.update store.idempotency ⟨project, .create, idempotencyKey⟩
            (some (createFingerprint contract project graph canonical.contentSha256,
              .record record)) }) := by
  apply perform_create_of_ok
  simp [create, h, hsaved, hrecord, hrevision, bind, Except.bind, pure, Except.pure]

theorem perform_put_error {e : GraphStoreError}
    (h : checkedPut contract project graph document expectedRevision = .error e) :
    store.perform contract draw (.put project graph document expectedRevision) =
      (.error e, store) := by
  apply perform_put_of_error
  simp [put, h, bind, Except.bind]

theorem perform_put_missing
    (h : checkedPut contract project graph document expectedRevision = .ok canonical)
    (hrecord : store.records (project, graph) = none) :
    store.perform contract draw (.put project graph document expectedRevision) =
      (.error graphNotFound, store) := by
  apply perform_put_of_error
  simp [put, h, hrecord, bind, Except.bind, throw, throwThe, MonadExceptOf.throw]

theorem perform_put_stale {current : GraphRecord Document}
    (h : checkedPut contract project graph document expectedRevision = .ok canonical)
    (hrecord : store.records (project, graph) = some current)
    (hstale : current.revision ≠ expectedRevision) :
    store.perform contract draw (.put project graph document expectedRevision) =
      (.error revisionStale, store) := by
  apply perform_put_of_error
  simp [put, h, hrecord, hstale, bind, Except.bind, throw, throwThe, MonadExceptOf.throw]

theorem perform_put_invalid {current : GraphRecord Document}
    (h : checkedPut contract project graph document expectedRevision = .ok canonical)
    (hrecord : store.records (project, graph) = some current)
    (hcurrent : current.revision = expectedRevision) {e : GraphStoreError}
    (hrevision : validatedNewRevision draw.revision = .error e) :
    store.perform contract draw (.put project graph document expectedRevision) =
      (.error e, store) := by
  apply perform_put_of_error
  simp [put, h, hrecord, hcurrent, hrevision, bind, Except.bind]

theorem perform_put_current {current : GraphRecord Document}
    (h : checkedPut contract project graph document expectedRevision = .ok canonical)
    (hrecord : store.records (project, graph) = some current)
    (hcurrent : current.revision = expectedRevision)
    (hrevision : validatedNewRevision draw.revision = .ok ()) :
    let record := newRecord project graph canonical draw.revision current.createdAt draw.now
    store.perform contract draw (.put project graph document expectedRevision) =
      (.ok (.record record),
        { store with
          records := Function.update store.records (project, graph) (some record) }) := by
  apply perform_put_of_ok
  simp [put, h, hrecord, hcurrent, hrevision, bind, Except.bind, pure, Except.pure]

theorem perform_delete_error {e : GraphStoreError}
    (h : checkedDelete project graph expectedRevision idempotencyKey = .error e) :
    store.perform contract draw (.delete project graph expectedRevision idempotencyKey) =
      (.error e, store) := by
  apply perform_delete_of_error
  simp [delete, h, bind, Except.bind]

theorem perform_delete_replay {saved : String × Outcome Document}
    (h : checkedDelete project graph expectedRevision idempotencyKey = .ok ())
    (hsaved : store.idempotency ⟨project, .delete, idempotencyKey⟩ = some saved) :
    store.perform contract draw (.delete project graph expectedRevision idempotencyKey) =
      ((replayReceipt saved (deleteFingerprint contract project graph expectedRevision)).map
        Outcome.receipt, store) := by
  cases hreplay : replayReceipt saved
      (deleteFingerprint contract project graph expectedRevision) with
  | error e =>
    apply perform_delete_of_error
    simp [delete, h, hsaved, hreplay, bind, Except.bind]
  | ok receipt =>
    apply perform_delete_of_ok
    simp [delete, h, hsaved, hreplay, bind, Except.bind, pure, Except.pure]

theorem perform_delete_missing
    (h : checkedDelete project graph expectedRevision idempotencyKey = .ok ())
    (hsaved : store.idempotency ⟨project, .delete, idempotencyKey⟩ = none)
    (hrecord : store.records (project, graph) = none) :
    store.perform contract draw (.delete project graph expectedRevision idempotencyKey) =
      (.error graphNotFound, store) := by
  apply perform_delete_of_error
  simp [delete, h, hsaved, hrecord, bind, Except.bind, throw, throwThe, MonadExceptOf.throw]

theorem perform_delete_stale {current : GraphRecord Document}
    (h : checkedDelete project graph expectedRevision idempotencyKey = .ok ())
    (hsaved : store.idempotency ⟨project, .delete, idempotencyKey⟩ = none)
    (hrecord : store.records (project, graph) = some current)
    (hstale : current.revision ≠ expectedRevision) :
    store.perform contract draw (.delete project graph expectedRevision idempotencyKey) =
      (.error revisionStale, store) := by
  apply perform_delete_of_error
  simp [delete, h, hsaved, hrecord, hstale, bind, Except.bind, throw, throwThe,
    MonadExceptOf.throw]

theorem perform_delete_current {current : GraphRecord Document}
    (h : checkedDelete project graph expectedRevision idempotencyKey = .ok ())
    (hsaved : store.idempotency ⟨project, .delete, idempotencyKey⟩ = none)
    (hrecord : store.records (project, graph) = some current)
    (hcurrent : current.revision = expectedRevision) :
    let receipt : GraphDeleteReceipt :=
      ⟨project, graph, current.revision, current.contentSha256, draw.now⟩
    store.perform contract draw (.delete project graph expectedRevision idempotencyKey) =
      (.ok (.receipt receipt),
        { records := Function.update store.records (project, graph) none
          idempotency := Function.update store.idempotency ⟨project, .delete, idempotencyKey⟩
            (some (deleteFingerprint contract project graph expectedRevision,
              .receipt receipt)) }) := by
  apply perform_delete_of_ok
  simp [delete, h, hsaved, hrecord, hcurrent, bind, Except.bind, pure, Except.pure]

/-- What was saved under a key stays. -/
theorem perform_keeps (draw : Draw) (call : Call Document) {scope : Scope}
    {saved : String × Outcome Document} (hsaved : store.idempotency scope = some saved) :
    (store.perform contract draw call).2.idempotency scope = some saved := by
  have hupdate : ∀ other : Scope, store.idempotency other = none → ∀ value,
      Function.update store.idempotency other value scope = some saved := by
    intro other hother value
    have hne : scope ≠ other := by
      rintro rfl
      rw [hother] at hsaved
      cases hsaved
    rw [Function.update_of_ne hne, hsaved]
  cases call with
  | get project graph =>
    cases hget : store.get project graph with
    | error e =>
      rw [perform_get_of_error draw hget]
      exact hsaved
    | ok record =>
      rw [perform_get_of_ok draw hget]
      exact hsaved
  | create project graph document key =>
    cases hchecked : checkedCreate contract project graph document key with
    | error e =>
      rw [perform_create_error draw hchecked]
      exact hsaved
    | ok canonical =>
      cases hold : store.idempotency ⟨project, .create, key⟩ with
      | some old =>
        rw [perform_create_replay draw hchecked hold]
        exact hsaved
      | none =>
        cases hrecord : store.records (project, graph) with
        | some record =>
          rw [perform_create_exists draw hchecked hold hrecord]
          exact hsaved
        | none =>
          cases hrevision : validatedNewRevision draw.revision with
          | error e =>
            rw [perform_create_invalid draw hchecked hold hrecord hrevision]
            exact hsaved
          | ok _ =>
            rw [perform_create_new draw hchecked hold hrecord hrevision]
            exact hupdate _ hold _
  | put project graph document revision =>
    cases hput : store.put contract draw project graph document revision with
    | error e =>
      rw [perform_put_of_error draw hput]
      exact hsaved
    | ok result =>
      rw [perform_put_of_ok draw hput]
      obtain ⟨canonical, hchecked, hrest⟩ := Execution.bind_eq_ok hput
      cases hrecord : store.records (project, graph) with
      | none =>
        rw [hrecord] at hrest
        cases hrest
      | some current =>
        simp only [hrecord] at hrest
        obtain ⟨-, hrest⟩ := Execution.guard_eq_ok hrest
        obtain ⟨⟨⟩, -, hrest⟩ := Execution.bind_eq_ok hrest
        cases hrest
        exact hsaved
  | delete project graph revision key =>
    cases hchecked : checkedDelete project graph revision key with
    | error e =>
      rw [perform_delete_error draw hchecked]
      exact hsaved
    | ok _ =>
      cases hold : store.idempotency ⟨project, .delete, key⟩ with
      | some old =>
        rw [perform_delete_replay draw hchecked hold]
        exact hsaved
      | none =>
        cases hrecord : store.records (project, graph) with
        | none =>
          rw [perform_delete_missing draw hchecked hold hrecord]
          exact hsaved
        | some current =>
          by_cases hcurrent : current.revision = revision
          · rw [perform_delete_current draw hchecked hold hrecord hcurrent]
            exact hupdate _ hold _
          · rw [perform_delete_stale draw hchecked hold hrecord hcurrent]
            exact hsaved

end Calls

end InMemoryGraphStore

end InMemory

end Dander.GraphStore
