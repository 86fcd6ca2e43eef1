import Dander.PostgresqlGraphStore
import Mathlib.Logic.Equiv.Basic

/-!
# The graph store in PostgreSQL refines the store in memory

Both stores take the same requests, with the revisions renamed one to one. Timestamps are each
store's own readings, so they agree as far as they were read in the same request.
-/
namespace Dander.PostgresqlGraphStore

open GraphStore Execution

section Statement

variable {Document : Type}

/-- A request with what either store finds outside when it serves it. -/
structure Step (Document : Type) where
  request : Request Document
  environment : Environment
  draw : InMemoryGraphStore.Draw

def renamed (rename : Equiv.Perm String) : Request Document → Request Document
  | .call (.put project graph document revision) =>
    .call (.put project graph document (rename revision))
  | .call (.delete project graph revision key) =>
    .call (.delete project graph (rename revision) key)
  | request => request

/-- Two instants that the two stores read from their clocks for one request. -/
def ReadTogether (steps : List (Step Document)) (first second : ℤ) : Prop :=
  ∃ step ∈ steps, (first = step.environment.clock ∨ first = step.environment.laterClock) ∧
    second = step.draw.now

variable (rename : Equiv.Perm String) (together : ℤ → ℤ → Prop)

structure SameRecord (first second : GraphRecord Document) : Prop where
  project : second.project = first.project
  graph : second.graph = first.graph
  document : second.document = first.document
  revision : second.revision = rename first.revision
  contentSha256 : second.contentSha256 = first.contentSha256
  createdAt : together first.createdAt second.createdAt
  updatedAt : together first.updatedAt second.updatedAt

structure SameReceipt (first second : GraphDeleteReceipt) : Prop where
  project : second.project = first.project
  graph : second.graph = first.graph
  revision : second.revision = rename first.revision
  contentSha256 : second.contentSha256 = first.contentSha256
  deletedAt : together first.deletedAt second.deletedAt

structure SameSummary (first second : GraphSummary) : Prop where
  project : second.project = first.project
  graph : second.graph = first.graph
  revision : second.revision = rename first.revision
  contentSha256 : second.contentSha256 = first.contentSha256
  createdAt : together first.createdAt second.createdAt
  updatedAt : together first.updatedAt second.updatedAt

def SameReply : Reply Document → Reply Document → Prop
  | .outcome (.record first), .outcome (.record second) => SameRecord rename together first second
  | .outcome (.receipt first), .outcome (.receipt second) =>
    SameReceipt rename together first second
  | .page first, .page second => List.Forall₂ (SameSummary rename together) first.items second.items ∧
      second.nextCursor = first.nextCursor
  | _, _ => False

def SameAnswer : Except GraphStoreError (Reply Document) →
    Except GraphStoreError (Reply Document) → Prop
  | .ok first, .ok second => SameReply rename together first second
  | .error first, .error second => second = first
  | _, _ => False

/-- The database cannot write what the request asks for: a revision that is no text of it, or
timestamps out of order. -/
def Unwritable (db : Database Document) (step : Step Document) : Prop :=
  match step.request with
  | .call (.create ..) => step.environment.laterClock < step.environment.clock
  | .call (.put project graph _ revision) => isText revision = false ∨
      ∃ row, db.graph (project, graph) = some row ∧ row.revision = revision ∧
        step.environment.clock < row.createdAt
  | .call (.delete _ _ revision _) => isText revision = false
  | _ => False

/-- The transaction was given up, by the database or for what it would write. -/
def Aborted (db : Database Document) (step : Step Document)
    (answer : Except GraphStoreError (Reply Document)) : Prop :=
  (step.environment.aborts = true ∨ Unwritable db step) ∧
    ∃ operation, answer = .error (failed operation)

/-- The revision factory hands out a token that no caller could name before. -/
structure TokenDrawn (step : Step Document) : Prop where
  revision : isRevision step.environment.revision = true
  text : isText step.environment.revision = true
  unnamed : ∀ project graph document expected,
    step.request = .call (.put project graph document expected) →
    step.environment.revision ≠ expected

/-- One revision for another, such that the tokens the two stores draw for a request are
renamed into each other. -/
structure Renames (steps : List (Step Document)) : Prop where
  valid : ∀ revision, isRevision (rename revision) = isRevision revision
  drawn : ∀ step ∈ steps, rename step.environment.revision = step.draw.revision

variable (contract : Contract Document)

/-- The texts the two stores hash for a request. -/
def hashedTexts : Request Document → List String
  | .call (.create project graph document key) =>
    match checkedCreate contract project graph document key with
    | .ok canonical => [key, createRequest project graph canonical.contentSha256]
    | .error _ => []
  | .call (.delete project graph revision key) =>
    [key, deleteRequest project graph revision, deleteRequest project graph (rename revision)]
  | _ => []

/-- No two of the texts have one digest. -/
def CollisionFree (texts : List String) : Prop :=
  ∀ first ∈ texts, ∀ second ∈ texts, contract.sha256 first = contract.sha256 second →
    first = second

/-- Content digests are 64 hexadecimal digits. -/
def HexDigests : Prop := ∀ document canonical,
  contract.canonicalizeGraphDocument document = .ok canonical →
  isSha256 canonical.contentSha256 = true

end Statement

section Relation

variable {Document : Type} (contract : Contract Document)

/-- What every row of the graph table keeps. -/
structure Sound (row : GraphRecord Document) : Prop where
  project : isPortableId row.project = true
  graph : isPortableId row.graph = true
  revision : isRevision row.revision = true
  digest : isSha256 row.contentSha256 = true
  canonical : contract.canonicalizeGraphDocument row.document =
    .ok ⟨row.document, row.contentSha256⟩
  ordered : row.createdAt ≤ row.updatedAt

variable (rename : Equiv.Perm String) (together : ℤ → ℤ → Prop) (texts : List String)

/-- A completed reservation and what the store in memory saved for the same request. -/
inductive Saved (row : IdempotencyRow Document) : String × Outcome Document → Prop
  | create {record record' : GraphRecord Document} (operation : row.operation = .create)
      (sound : Sound contract record) (same : SameRecord rename together record record')
      (project : record.project = row.project) (graph : record.graph = row.graph)
      (hashed : createRequest record.project record.graph record.contentSha256 ∈ texts)
      (fingerprint : row.requestFingerprint =
        createFingerprint contract record.project record.graph record.contentSha256)
      (result : row = createResult record ⟨record.document, record.contentSha256⟩ row) :
      Saved row (row.requestFingerprint, .record record')
  | delete {receipt receipt' : GraphDeleteReceipt} (operation : row.operation = .delete)
      (same : SameReceipt rename together receipt receipt')
      (project : receipt.project = row.project) (graph : receipt.graph = row.graph)
      (portableProject : isPortableId receipt.project = true)
      (portableGraph : isPortableId receipt.graph = true)
      (revision : isRevision receipt.revision = true)
      (digest : isSha256 receipt.contentSha256 = true)
      (hashed : deleteRequest receipt.project receipt.graph receipt.revision ∈ texts)
      (hashed' : deleteRequest receipt.project receipt.graph (rename receipt.revision) ∈ texts)
      (fingerprint : row.requestFingerprint =
        deleteFingerprint contract receipt.project receipt.graph receipt.revision)
      (result : row = deleteResult receipt row) :
      Saved row (deleteFingerprint contract receipt.project receipt.graph
        (rename receipt.revision), .receipt receipt')

structure Related (db : Database Document) (memory : InMemoryGraphStore Document) : Prop where
  nodup : (db.graphs.map graphKey).Nodup
  sound : ∀ row ∈ db.graphs, Sound contract row
  records : ∀ key, Option.Rel (SameRecord rename together) (db.graph key) (memory.records key)
  reservations : ∀ project operation key, key ∈ texts →
    Option.Rel (Saved contract rename together texts)
      (db.reservation (project, operation, contract.sha256 key))
      (memory.idempotency ⟨project, operation, key⟩)

theorem Related.empty :
    Related contract rename together texts Database.empty InMemoryGraphStore.empty where
  nodup := List.nodup_nil
  sound := by simp [Database.empty]
  records _ := .none
  reservations _ _ _ _ := .none

end Relation

section Rows

variable {Document : Type} {contract : Contract Document}
  {row record : GraphRecord Document} {reservation : IdempotencyRow Document}

theorem storedKey_of_portable {project graph : String} (hproject : isPortableId project = true)
    (hgraph : isPortableId graph = true) : storedKey project graph = .ok () := by
  simp [storedKey, hproject, hgraph]

theorem recordFromRow_of_sound [DecidableEq Document] (h : Sound contract row) :
    recordFromRow contract (columns row) (row.project, row.graph) = .ok row := by
  have hordered : ¬ row.updatedAt < row.createdAt := by
    have := h.ordered
    omega
  simp [recordFromRow, columns, storedKey_of_portable h.project h.graph, storedRevision,
    h.revision, storedSha256, h.digest, storedBytes, h.canonical, storedTimestamp, hordered, bind,
    Except.bind, pure, Except.pure]

theorem summaryFromRow_of_sound (h : Sound contract row) :
    summaryFromRow row row.project = .ok row.summary := by
  have hordered : ¬ row.updatedAt < row.createdAt := by
    have := h.ordered
    omega
  simp [summaryFromRow, storedKey_of_portable h.project h.graph, storedRevision, h.revision,
    storedSha256, h.digest, hordered, GraphRecord.summary, bind, Except.bind, pure, Except.pure]

theorem createReplayFromRow_of_sound [DecidableEq Document] (h : Sound contract record)
    (hresult : reservation =
      createResult record ⟨record.document, record.contentSha256⟩ reservation) :
    createReplayFromRow contract reservation (record.project, record.graph) = .ok record := by
  have hcolumns := recordFromRow_of_sound h
  rw [hresult]
  simpa [createReplayFromRow, createResult, columns] using hcolumns

theorem deleteReceiptFromRow_of_valid (deletedAt : ℤ) {project graph revision digest : String}
    (hproject : isPortableId project = true) (hgraph : isPortableId graph = true)
    (hrevision : isRevision revision = true) (hdigest : isSha256 digest = true) :
    deleteReceiptFromRow project graph (some revision) (some digest) (some deletedAt)
      (project, graph) = .ok ⟨project, graph, revision, digest, deletedAt⟩ := by
  simp [deleteReceiptFromRow, storedKey_of_portable hproject hgraph, storedRevision, hrevision,
    storedSha256, hdigest, storedTimestamp, bind, Except.bind, pure, Except.pure]

end Rows

section Reservations

variable {Document : Type} {db : Database Document} {row : IdempotencyRow Document}
  {project graph fingerprint keySha256 : String} {operation : MutationOperation}

theorem reserveIdempotency_new (h : db.reservation (project, operation, keySha256) = none) :
    reserveIdempotency db project operation keySha256 graph fingerprint =
      .ok (true, reservationRow project operation keySha256 graph fingerprint,
        { db with idempotency := db.idempotency ++
            [reservationRow project operation keySha256 graph fingerprint] }) := by
  have hkey : (reservationRow project operation keySha256 graph fingerprint :
      IdempotencyRow Document).key = (project, operation, keySha256) := rfl
  have hnone : Tables.select IdempotencyRow.key db.idempotency
      (reservationRow project operation keySha256 graph fingerprint :
        IdempotencyRow Document).key = none := h
  have hfound : Tables.select IdempotencyRow.key (db.idempotency ++
      [reservationRow project operation keySha256 graph fingerprint])
      (project, operation, keySha256) =
        some (reservationRow project operation keySha256 graph fingerprint) := by
    rw [Tables.select_append_new hnone, if_pos hkey.symm]
  unfold reserveIdempotency
  simp only [Database.reservation] at h ⊢
  rw [Tables.insertNew_of_none hnone, hkey, hfound]
  simp [h, reservationRow, pure, Except.pure]

theorem reserveIdempotency_taken (h : db.reservation (project, operation, keySha256) = some row)
    (hcompleted : row.completed = true) :
    reserveIdempotency db project operation keySha256 graph fingerprint =
      if row.requestFingerprint ≠ fingerprint ∨ row.graph ≠ graph then .error keyReused
      else .ok (false, row, db) := by
  have hkey : (reservationRow project operation keySha256 graph fingerprint :
      IdempotencyRow Document).key = (project, operation, keySha256) := rfl
  have hsome : Tables.select IdempotencyRow.key db.idempotency
      (reservationRow project operation keySha256 graph fingerprint :
        IdempotencyRow Document).key = some row := h
  unfold reserveIdempotency
  simp only [Database.reservation] at h ⊢
  rw [Tables.insertNew_of_some hsome, hkey]
  by_cases hsame : row.requestFingerprint ≠ fingerprint ∨ row.graph ≠ graph
  · simp [h, hsame, throw, throwThe, MonadExceptOf.throw, bind, Except.bind]
  · simp [h, hsame, hcompleted, pure, Except.pure]

/-- A reservation that was just made takes its result. -/
theorem completeReservation_new (graph fingerprint : String) (graphs : List (GraphRecord Document))
    {result : IdempotencyRow Document → IdempotencyRow Document}
    (h : db.reservation (project, operation, keySha256) = none)
    (hresult : ∀ row, (result row).key = row.key) :
    ∃ completed : Database Document,
      completeReservation ⟨graphs, db.idempotency ++
          [reservationRow project operation keySha256 graph fingerprint]⟩
        (project, operation, keySha256) fingerprint result = .ok completed ∧
      completed.graphs = graphs ∧
      ∀ key, completed.reservation key = if key = (project, operation, keySha256) then
        some (result (reservationRow project operation keySha256 graph fingerprint))
        else db.reservation key := by
  have hnone : Tables.select IdempotencyRow.key db.idempotency
      (reservationRow project operation keySha256 graph fingerprint :
        IdempotencyRow Document).key = none := h
  have hselect : ∀ key, Tables.select IdempotencyRow.key (db.idempotency ++
      [reservationRow project operation keySha256 graph fingerprint]) key =
        if key = (project, operation, keySha256) then
          some (reservationRow project operation keySha256 graph fingerprint)
        else db.reservation key := by
    intro key
    exact Tables.select_append_new hnone
  refine ⟨⟨graphs, Tables.updateWhere IdempotencyRow.key (db.idempotency ++
    [reservationRow project operation keySha256 graph fingerprint])
    (project, operation, keySha256)
    (fun row => decide (row.requestFingerprint = fingerprint) && !row.completed) result⟩,
    ?_, rfl, ?_⟩
  · unfold completeReservation
    simp only [Database.reservation, hselect]
    simp [reservationRow, pure, Except.pure]
  · intro key
    unfold Database.reservation
    by_cases hkey : key = (project, operation, keySha256)
    · subst hkey
      have hself := hselect (project, operation, keySha256)
      rw [if_pos rfl] at hself
      rw [Tables.select_updateWhere_self hresult hself]
      simp [reservationRow]
    · rw [Tables.select_updateWhere_of_ne hresult hkey, hselect, if_neg hkey, if_neg hkey]
      rfl

end Reservations

section Calls

variable {Document : Type}

/-- How one call ends: given up, refused by both stores, or done by both. -/
inductive Served {α : Type} (related : Database Document → InMemoryGraphStore Document → Prop)
    (memory : InMemoryGraphStore Document) (givenUp : Prop) (same : α → Outcome Document → Prop) :
    Except GraphStoreError (α × Database Document) →
    Except GraphStoreError (Outcome Document) × InMemoryGraphStore Document → Prop
  | aborted {operation : String} {answer} (cause : givenUp) :
      Served related memory givenUp same (.error (failed operation)) answer
  | refused {e : GraphStoreError} : Served related memory givenUp same (.error e) (.error e, memory)
  | done {value : α} {db' : Database Document} {outcome : Outcome Document}
      {memory' : InMemoryGraphStore Document} (agree : same value outcome)
      (after : related db' memory') :
      Served related memory givenUp same (.ok (value, db')) (.ok outcome, memory')

/-- Both stores return the same record. -/
def Agreed (rename : Equiv.Perm String) (together : ℤ → ℤ → Prop)
    (record : GraphRecord Document) : Outcome Document → Prop
  | .record record' => SameRecord rename together record record'
  | .receipt _ => False

def AgreedReceipt (rename : Equiv.Perm String) (together : ℤ → ℤ → Prop)
    (receipt : GraphDeleteReceipt) : Outcome Document → Prop
  | .receipt receipt' => SameReceipt rename together receipt receipt'
  | .record _ => False

variable {contract : Contract Document} {rename : Equiv.Perm String}
  {together : ℤ → ℤ → Prop} {texts : List String} {db : Database Document}
  {memory : InMemoryGraphStore Document} {environment : Environment}
  {draw : InMemoryGraphStore.Draw} {project graph revision key : String} {document : Document}
  {canonical : CanonicalGraphDocument Document} {row record : GraphRecord Document}

theorem Related.sound_graph (h : Related contract rename together texts db memory)
    (hrow : db.graph (project, graph) = some row) :
    Sound contract row ∧ row.project = project ∧ row.graph = graph := by
  have hkey := Tables.key_of_select hrow
  exact ⟨h.sound row (Tables.mem_of_select hrow), congrArg Prod.fst hkey, congrArg Prod.snd hkey⟩

theorem Related.record_cases (h : Related contract rename together texts db memory)
    (key : String × String) :
    (db.graph key = none ∧ memory.records key = none) ∨
      ∃ row record, db.graph key = some row ∧ memory.records key = some record ∧
        SameRecord rename together row record := by
  have hrel := h.records key
  generalize db.graph key = first at hrel ⊢
  generalize memory.records key = second at hrel ⊢
  cases hrel with
  | none => exact .inl ⟨rfl, rfl⟩
  | some hsame => exact .inr ⟨_, _, rfl, rfl, hsame⟩

theorem Related.reservation_cases (h : Related contract rename together texts db memory)
    (project : String) (operation : MutationOperation) (hkey : key ∈ texts) :
    (db.reservation (project, operation, contract.sha256 key) = none ∧
        memory.idempotency ⟨project, operation, key⟩ = none) ∨
      ∃ row saved, db.reservation (project, operation, contract.sha256 key) = some row ∧
        memory.idempotency ⟨project, operation, key⟩ = some saved ∧
        Saved contract rename together texts row saved := by
  have hrel := h.reservations project operation key hkey
  generalize db.reservation (project, operation, contract.sha256 key) = first at hrel ⊢
  generalize memory.idempotency ⟨project, operation, key⟩ = second at hrel ⊢
  cases hrel with
  | none => exact .inl ⟨rfl, rfl⟩
  | some hsaved => exact .inr ⟨_, _, rfl, rfl, hsaved⟩

theorem portable_project_of_validatedGraphKey (h : validatedGraphKey project graph = .ok ()) :
    isPortableId project = true := by
  obtain ⟨⟨⟩, hproject, -⟩ := bind_eq_ok h
  unfold validatedIdentifier at hproject
  split at hproject
  · assumption
  · cases hproject

variable [DecidableEq Document]

theorem Related.get (h : Related contract rename together texts db memory)
    (environment : Environment) (draw : InMemoryGraphStore.Draw) (project graph : String) :
    Served (Related contract rename together texts) memory (environment.aborts = true)
      (Agreed rename together)
      ((get contract environment db project graph).map fun record => (record, db))
      (memory.perform contract draw (.get project graph)) := by
  unfold PostgresqlGraphStore.get
  cases hchecked : validatedGraphKey project graph with
  | error e =>
    rw [InMemoryGraphStore.perform_get_error draw hchecked]
    exact .refused
  | ok _ =>
    by_cases haborts : environment.aborts = true
    · rw [if_pos haborts]
      exact .aborted haborts
    · rw [InMemoryGraphStore.perform_get draw hchecked]
      obtain ⟨hrow, hrecord⟩ | ⟨row, record, hrow, hrecord, hsame⟩ := h.record_cases (project, graph)
      · simp only [haborts, hrow, hrecord]
        exact .refused
      · obtain ⟨hsound, rfl, rfl⟩ := h.sound_graph hrow
        have hread := recordFromRow_of_sound hsound
        simp only [haborts, hrow, hrecord, bind, Except.bind, hread]
        exact .done hsame h

/-- What the revision factories and the clocks of the two stores hand out for one request. -/
structure Drawn (rename : Equiv.Perm String) (together : ℤ → ℤ → Prop)
    (environment : Environment) (draw : InMemoryGraphStore.Draw) : Prop where
  revision : isRevision environment.revision = true
  text : isText environment.revision = true
  valid : ∀ revision, isRevision (rename revision) = isRevision revision
  renamed : rename environment.revision = draw.revision
  clock : together environment.clock draw.now
  laterClock : together environment.laterClock draw.now

omit [DecidableEq Document] in
theorem Drawn.drawn_valid (h : Drawn rename together environment draw) :
    validatedNewRevision draw.revision = .ok () := by
  have hvalid := h.valid environment.revision
  rw [h.renamed, h.revision] at hvalid
  simp [validatedNewRevision, hvalid]

omit [DecidableEq Document] in
theorem checkedCreate_eq_ok (h : checkedCreate contract project graph document key = .ok canonical) :
    validatedGraphKey project graph = .ok () ∧
      contract.canonicalizeGraphDocument document = .ok canonical := by
  obtain ⟨⟨⟩, hkeys, -⟩ := bind_eq_ok h
  exact ⟨hkeys, canonical_of_checkedCreate h⟩

omit [DecidableEq Document] in
/-- The row of a new graph is sound, unless its timestamps are out of order. -/
theorem sound_insertedRow (hhex : HexDigests contract) (hdrawn : Drawn rename together environment draw)
    (hchecked : checkedCreate contract project graph document key = .ok canonical)
    (hclock : environment.clock ≤ environment.laterClock) :
    Sound contract (insertedRow environment project graph canonical) := by
  obtain ⟨hkeys, hcanonical⟩ := checkedCreate_eq_ok hchecked
  exact {
    project := portable_project_of_validatedGraphKey hkeys
    graph := portable_of_validatedGraphKey hkeys
    revision := hdrawn.revision
    digest := hhex _ _ hcanonical
    canonical := contract.canonical _ _ hcanonical
    ordered := hclock }

omit [DecidableEq Document] in
theorem same_insertedRow (hdrawn : Drawn rename together environment draw) :
    SameRecord rename together (insertedRow environment project graph canonical)
      (InMemoryGraphStore.newRecord project graph canonical draw.revision draw.now draw.now) where
  project := rfl
  graph := rfl
  document := rfl
  revision := hdrawn.renamed.symm
  contentSha256 := rfl
  createdAt := hdrawn.clock
  updatedAt := hdrawn.laterClock

omit [DecidableEq Document] in
theorem rel_update {K α β : Type} [DecidableEq K] {r : α → β → Prop} {f : K → Option α}
    {g : K → Option β} {k other : K} {x : Option α} {y : Option β}
    (h : Option.Rel r (f other) (g other)) (hxy : Option.Rel r x y) :
    Option.Rel r (if other = k then x else f other) (Function.update g k y other) := by
  by_cases hother : other = k
  · subst hother
    simpa using hxy
  · rw [if_neg hother, Function.update_of_ne hother]
    exact h

omit [DecidableEq Document] in
/-- A reservation with its result and what is saved in memory keep the relation. -/
theorem Related.reserve (h : Related contract rename together texts db memory)
    (hfree : CollisionFree contract texts) (hkey : key ∈ texts) {operation : MutationOperation}
    {reservation : IdempotencyRow Document} {saved : String × Outcome Document}
    (hsaved : Saved contract rename together texts reservation saved)
    (project' : String) (operation' : MutationOperation) (key' : String) (hkey' : key' ∈ texts) :
    Option.Rel (Saved contract rename together texts)
      (if (project', operation', contract.sha256 key') = (project, operation, contract.sha256 key)
        then some reservation else db.reservation (project', operation', contract.sha256 key'))
      (Function.update memory.idempotency ⟨project, operation, key⟩ (some saved)
        ⟨project', operation', key'⟩) := by
  have hscope : (project', operation', contract.sha256 key') =
        (project, operation, contract.sha256 key) ↔
      (⟨project', operation', key'⟩ : Scope) = ⟨project, operation, key⟩ := by
    simp only [Prod.mk.injEq, Scope.mk.injEq]
    constructor
    · rintro ⟨hproject, hoperation, hsha⟩
      exact ⟨hproject, hoperation, hfree _ hkey' _ hkey hsha⟩
    · rintro ⟨hproject, hoperation, hsame⟩
      exact ⟨hproject, hoperation, congrArg contract.sha256 hsame⟩
  rw [if_congr hscope rfl rfl]
  exact rel_update (f := fun scope : Scope => db.reservation (scope.project, scope.operation,
    contract.sha256 scope.idempotencyKey)) (h.reservations project' operation' key' hkey')
    (.some hsaved)

theorem createClaimed_new (hdrawn : Drawn rename together environment draw)
    (hrow : db.graph (project, graph) = none) (fingerprint : String)
    (idempotency : List (IdempotencyRow Document))
    (hsound : Sound contract (insertedRow environment project graph canonical)) :
    createClaimed contract environment ⟨db.graphs, idempotency⟩ project graph key fingerprint
        canonical = do
      let completed ← completeReservation
        ⟨db.graphs ++ [insertedRow environment project graph canonical], idempotency⟩
        (project, .create, key) fingerprint
        (createResult (insertedRow environment project graph canonical) canonical)
      return (insertedRow environment project graph canonical, completed) := by
  have hvalid : validatedNewRevision environment.revision = .ok () := by
    simp [validatedNewRevision, hdrawn.revision]
  have hchecks : passesChecks (insertedRow environment project graph canonical) = true := by
    simp [passesChecks, hsound.ordered, hsound.digest]
  have htext : isText (insertedRow environment project graph canonical).revision = true :=
    hdrawn.text
  have hnone : Tables.select graphKey db.graphs
      (graphKey (insertedRow environment project graph canonical)) = none := hrow
  have hread : recordFromRow contract (columns (insertedRow environment project graph canonical))
      (project, graph) = .ok (insertedRow environment project graph canonical) :=
    recordFromRow_of_sound hsound
  unfold createClaimed
  simp [hvalid, hchecks, htext, Database.graph, hnone, Tables.insertNew_of_none hnone, hread, bind,
    Except.bind]

theorem createClaimed_exists (hdrawn : Drawn rename together environment draw)
    (hrow : db.graph (project, graph) = some row) (fingerprint : String)
    (idempotency : List (IdempotencyRow Document))
    (hsound : Sound contract (insertedRow environment project graph canonical)) :
    createClaimed contract environment ⟨db.graphs, idempotency⟩ project graph key fingerprint
      canonical = .error graphAlreadyExists := by
  have hvalid : validatedNewRevision environment.revision = .ok () := by
    simp [validatedNewRevision, hdrawn.revision]
  have hchecks : passesChecks (insertedRow environment project graph canonical) = true := by
    simp [passesChecks, hsound.ordered, hsound.digest]
  have htext : isText (insertedRow environment project graph canonical).revision = true :=
    hdrawn.text
  have hsome : Tables.select graphKey db.graphs
      (graphKey (insertedRow environment project graph canonical)) = some row := hrow
  unfold createClaimed
  simp [hvalid, hchecks, htext, Database.graph, hsome, bind, Except.bind, throw, throwThe,
    MonadExceptOf.throw]

theorem Related.createClaimed (h : Related contract rename together texts db memory)
    (hhex : HexDigests contract) (hfree : CollisionFree contract texts)
    (hdrawn : Drawn rename together environment draw)
    (hchecked : checkedCreate contract project graph document key = .ok canonical)
    (hkey : key ∈ texts) (hrequest : createRequest project graph canonical.contentSha256 ∈ texts)
    (hfresh : db.reservation (project, .create, contract.sha256 key) = none)
    (hunsaved : memory.idempotency ⟨project, .create, key⟩ = none) :
    Served (Related contract rename together texts) memory
      (environment.aborts = true ∨ environment.laterClock < environment.clock)
      (Agreed rename together)
      (createClaimed contract environment ⟨db.graphs, db.idempotency ++ [reservationRow project
          .create (contract.sha256 key) graph
          (createFingerprint contract project graph canonical.contentSha256)]⟩ project graph
        (contract.sha256 key)
        (createFingerprint contract project graph canonical.contentSha256) canonical)
      (memory.perform contract draw (.create project graph document key)) := by
  have hvalid : validatedNewRevision environment.revision = .ok () := by
    simp [validatedNewRevision, hdrawn.revision]
  by_cases hclock : environment.laterClock < environment.clock
  · have hchecks : passesChecks (insertedRow environment project graph canonical) = false := by
      have hnot : ¬ environment.clock ≤ environment.laterClock := by omega
      simp [passesChecks, insertedRow, hnot]
    have hfailed : ∀ reserved fingerprint, PostgresqlGraphStore.createClaimed contract environment
        reserved project graph (contract.sha256 key) fingerprint canonical =
          .error (failed "create") := by
      intro reserved fingerprint
      simp [PostgresqlGraphStore.createClaimed, hvalid, hchecks, bind, Except.bind, throw, throwThe,
        MonadExceptOf.throw]
    rw [hfailed]
    exact .aborted (.inr hclock)
  have hsound : Sound contract (insertedRow environment project graph canonical) :=
    sound_insertedRow hhex hdrawn hchecked (by omega)
  obtain ⟨hrow, hrecord⟩ | ⟨row, record, hrow, hrecord, -⟩ := h.record_cases (project, graph)
  · rw [createClaimed_new hdrawn hrow _ _ hsound,
      InMemoryGraphStore.perform_create_new draw hchecked hunsaved hrecord hdrawn.drawn_valid]
    obtain ⟨completed, hcompleted, hgraphs, hreservations⟩ := completeReservation_new graph
      (createFingerprint contract project graph canonical.contentSha256)
      (db.graphs ++ [insertedRow environment project graph canonical]) hfresh
      (fun row => (rfl : (createResult (insertedRow environment project graph canonical) canonical
        row).key = row.key))
    rw [hcompleted]
    refine .done (same_insertedRow hdrawn) ⟨?_, ?_, ?_, ?_⟩
    · rw [hgraphs]
      exact Tables.nodup_append_new h.nodup hrow
    · intro other hother
      rw [hgraphs, List.mem_append, List.mem_singleton] at hother
      rcases hother with hother | rfl
      · exact h.sound other hother
      · exact hsound
    · intro other
      have hselect : completed.graph other = if other = (project, graph)
          then some (insertedRow environment project graph canonical) else db.graph other := by
        unfold Database.graph
        rw [hgraphs]
        exact Tables.select_append_new hrow
      rw [hselect]
      exact rel_update (h.records other) (.some (same_insertedRow hdrawn))
    · intro project' operation' key' hkey'
      rw [hreservations]
      exact h.reserve hfree hkey (.create rfl hsound (same_insertedRow hdrawn) rfl rfl hrequest rfl
        rfl) project' operation' key' hkey'
  · rw [createClaimed_exists hdrawn hrow _ _ hsound,
      InMemoryGraphStore.perform_create_exists draw hchecked hunsaved hrecord]
    exact .refused

theorem Related.create (h : Related contract rename together texts db memory)
    (hhex : HexDigests contract) (hfree : CollisionFree contract texts)
    (hdrawn : Drawn rename together environment draw)
    (htexts : ∀ canonical, checkedCreate contract project graph document key = .ok canonical →
      key ∈ texts ∧ createRequest project graph canonical.contentSha256 ∈ texts) :
    Served (Related contract rename together texts) memory
      (environment.aborts = true ∨ environment.laterClock < environment.clock)
      (Agreed rename together)
      (create contract environment db project graph document key)
      (memory.perform contract draw (.create project graph document key)) := by
  unfold PostgresqlGraphStore.create
  cases hchecked : checkedCreate contract project graph document key with
  | error e =>
    rw [InMemoryGraphStore.perform_create_error draw hchecked]
    exact .refused
  | ok canonical =>
    obtain ⟨hkey, hrequest⟩ := htexts canonical hchecked
    simp only [bind, Except.bind]
    by_cases haborts : environment.aborts = true
    · rw [if_pos haborts]
      exact .aborted (.inl haborts)
    rw [if_neg haborts]
    obtain ⟨hfresh, hunsaved⟩ | ⟨reservation, saved, htaken, hold, hsaved⟩ :=
      h.reservation_cases project .create hkey
    · rw [reserveIdempotency_new hfresh]
      exact h.createClaimed hhex hfree hdrawn hchecked hkey hrequest hfresh hunsaved
    · have hkeys := Tables.key_of_select htaken
      have hproject : reservation.project = project := congrArg Prod.fst hkeys
      have hoperation : reservation.operation = .create := congrArg (fun k => k.2.1) hkeys
      rw [InMemoryGraphStore.perform_create_replay draw hchecked hold]
      cases hsaved with
      | delete hdelete =>
        rw [hoperation] at hdelete
        cases hdelete
      | @create record record' _ hsound hsame hp hg hhashed hfingerprint hresult =>
        have hcompleted : reservation.completed = true := by
          rw [hresult]
          rfl
        rw [reserveIdempotency_taken htaken hcompleted]
        by_cases hrequests : reservation.requestFingerprint =
            createFingerprint contract project graph canonical.contentSha256
        · have htext := hfree _ hhashed _ hrequest (hfingerprint.symm.trans hrequests)
          rw [hp, hproject] at htext
          have hgraph : record.graph = graph := request_graph hsound.graph
            (portable_of_checkedCreate hchecked) htext
          have hreplay := createReplayFromRow_of_sound hsound hresult
          rw [hp, hproject, hgraph] at hreplay
          have hsamegraph : reservation.graph = graph := hg.symm.trans hgraph
          have hmemory : InMemoryGraphStore.replayRecord (reservation.requestFingerprint,
              .record record') (createFingerprint contract project graph
                canonical.contentSha256) = .ok record' := by
            simp [InMemoryGraphStore.replayRecord, hrequests]
          rw [if_neg (by simp [hrequests, hsamegraph]), hmemory]
          simp only [hreplay]
          exact .done hsame h
        · have hmemory : InMemoryGraphStore.replayRecord (reservation.requestFingerprint,
              .record record') (createFingerprint contract project graph
                canonical.contentSha256) = .error keyReused := by
            simp [InMemoryGraphStore.replayRecord, hrequests]
          rw [if_pos (.inl hrequests), hmemory]
          exact .refused

omit [DecidableEq Document] in
/-- Renamed revisions are equal where the revisions are. -/
theorem SameRecord.revision_iff (h : SameRecord rename together row record) :
    record.revision = rename revision ↔ row.revision = revision := by
  rw [h.revision]
  exact rename.injective.eq_iff

omit [DecidableEq Document] in
theorem checkedPut_renamed (hvalid : ∀ revision, isRevision (rename revision) = isRevision revision) :
    checkedPut contract project graph document (rename revision) =
      checkedPut contract project graph document revision := by
  simp [checkedPut, validatedRevision, hvalid]

omit [DecidableEq Document] in
theorem checkedDelete_renamed
    (hvalid : ∀ revision, isRevision (rename revision) = isRevision revision) :
    checkedDelete project graph (rename revision) key =
      checkedDelete project graph revision key := by
  simp [checkedDelete, validatedRevision, hvalid]

theorem Related.put (h : Related contract rename together texts db memory)
    (hhex : HexDigests contract) (hdrawn : Drawn rename together environment draw)
    (hunnamed : environment.revision ≠ revision) :
    Served (Related contract rename together texts) memory
      (environment.aborts = true ∨ isText revision = false ∨
        ∃ row, db.graph (project, graph) = some row ∧ row.revision = revision ∧
          environment.clock < row.createdAt)
      (Agreed rename together)
      (put contract environment db project graph document revision)
      (memory.perform contract draw (.put project graph document (rename revision))) := by
  unfold PostgresqlGraphStore.put
  cases hchecked : checkedPut contract project graph document revision with
  | error e =>
    rw [InMemoryGraphStore.perform_put_error draw
      ((checkedPut_renamed hdrawn.valid).trans hchecked)]
    exact .refused
  | ok canonical =>
    have hmemory := (checkedPut_renamed hdrawn.valid).trans hchecked
    have hvalid : validatedNewRevision environment.revision = .ok () := by
      simp [validatedNewRevision, hdrawn.revision]
    simp only [bind, Except.bind, hvalid]
    rw [if_neg hunnamed]
    by_cases haborts : environment.aborts = true
    · rw [if_pos (.inl haborts)]
      exact .aborted (.inl haborts)
    by_cases htext : isText revision = true
    swap
    · rw [if_pos (.inr (.inr htext))]
      exact .aborted (.inr (.inl (by simpa using htext)))
    rw [if_neg (by simp [haborts, hdrawn.text, htext])]
    obtain ⟨hrow, hrecord⟩ | ⟨row, record, hrow, hrecord, hsame⟩ := h.record_cases (project, graph)
    · rw [InMemoryGraphStore.perform_put_missing draw hmemory hrecord]
      simp only [hrow, Option.filter_none, raiseMissingOrConflict]
      exact .refused
    by_cases hcurrent : row.revision = revision
    swap
    · rw [InMemoryGraphStore.perform_put_stale draw hmemory hrecord
        (fun heq => hcurrent (hsame.revision_iff.mp heq))]
      simp only [hrow, Option.filter, hasRevision, hcurrent, raiseMissingOrConflict]
      exact .refused
    rw [InMemoryGraphStore.perform_put_current draw hmemory hrecord
      (hsame.revision_iff.mpr hcurrent) hdrawn.drawn_valid]
    have hfilter : (db.graph (project, graph)).filter (hasRevision revision) = some row := by
      simp [hrow, hasRevision, hcurrent, Option.filter]
    simp only [hfilter]
    obtain ⟨hsound, hproject, hgraph⟩ := h.sound_graph hrow
    have hcanonical := canonical_of_checkedPut hchecked
    by_cases hclock : environment.clock < row.createdAt
    · have hchecks : passesChecks (updatedRow environment canonical row) = false := by
        have hnot : ¬ row.createdAt ≤ environment.clock := by omega
        simp [passesChecks, updatedRow, hnot]
      rw [if_pos (by simp [hchecks])]
      exact .aborted (.inr (.inr ⟨row, hrow, hcurrent, hclock⟩))
    have hupdated : Sound contract (updatedRow environment canonical row) :=
      { project := hsound.project
        graph := hsound.graph
        revision := hdrawn.revision
        digest := hhex _ _ hcanonical
        canonical := contract.canonical _ _ hcanonical
        ordered := by
          have hordered : row.createdAt ≤ environment.clock := by omega
          exact hordered }
    have hread : recordFromRow contract (columns (updatedRow environment canonical row))
        (project, graph) = .ok (updatedRow environment canonical row) := by
      have hrow' := recordFromRow_of_sound hupdated
      simpa [updatedRow, hproject, hgraph] using hrow'
    have hchecks : passesChecks (updatedRow environment canonical row) = true := by
      simp [passesChecks, hupdated.ordered, hupdated.digest]
    rw [if_neg (by simp [hchecks])]
    simp only [hread]
    have hagree : SameRecord rename together (updatedRow environment canonical row)
        (InMemoryGraphStore.newRecord project graph canonical draw.revision record.createdAt
          draw.now) :=
      { project := hproject.symm
        graph := hgraph.symm
        document := rfl
        revision := hdrawn.renamed.symm
        contentSha256 := rfl
        createdAt := hsame.createdAt
        updatedAt := hdrawn.clock }
    have hkeys : ∀ other, graphKey (updatedRow environment canonical other) = graphKey other :=
      fun _ => rfl
    refine .done hagree ⟨?_, ?_, ?_, h.reservations⟩
    · rw [Tables.map_key_updateWhere hkeys]
      exact h.nodup
    · intro other hother
      obtain ⟨old, hold, rfl⟩ := List.mem_map.mp hother
      by_cases hchanged : graphKey old = (project, graph) ∧ hasRevision revision old = true
      · have hsamerow : Tables.select graphKey db.graphs (project, graph) = some old := by
          rw [← hchanged.1]
          exact Tables.select_of_mem h.nodup hold
        obtain rfl : row = old := Option.some.inj (hrow.symm.trans hsamerow)
        rw [if_pos hchanged]
        exact hupdated
      · rw [if_neg hchanged]
        exact h.sound old hold
    · intro other
      have hselect : (⟨Tables.updateWhere graphKey db.graphs (project, graph)
          (hasRevision revision) (updatedRow environment canonical), db.idempotency⟩ :
            Database Document).graph other = if other = (project, graph)
          then some (updatedRow environment canonical row) else db.graph other := by
        unfold Database.graph
        by_cases hother : other = (project, graph)
        · subst hother
          rw [Tables.select_updateWhere_self hkeys hrow]
          simp [hasRevision, hcurrent]
        · rw [Tables.select_updateWhere_of_ne hkeys hother, if_neg hother]
      rw [hselect]
      exact rel_update (h.records other) (.some hagree)

omit [DecidableEq Document] in
theorem saved_deleteResult (hsound : Sound contract row) (hproject : row.project = project)
    (hgraph : row.graph = graph) (hrequest : deleteRequest project graph row.revision ∈ texts)
    (hrequest' : deleteRequest project graph (rename row.revision) ∈ texts) {deletedAt : ℤ}
    {receipt' : GraphDeleteReceipt}
    (hagree : SameReceipt rename together
      ⟨project, graph, row.revision, row.contentSha256, deletedAt⟩ receipt') :
    Saved contract rename together texts
      (deleteResult ⟨project, graph, row.revision, row.contentSha256, deletedAt⟩
        (reservationRow project .delete (contract.sha256 key) graph
          (deleteFingerprint contract project graph row.revision)))
      (deleteFingerprint contract project graph (rename row.revision), .receipt receipt') := by
  have hproject' := hsound.project
  have hgraph' := hsound.graph
  rw [hproject] at hproject'
  rw [hgraph] at hgraph'
  exact @Saved.delete _ _ _ _ _ _ ⟨project, graph, row.revision, row.contentSha256, deletedAt⟩
    receipt' rfl hagree rfl rfl hproject' hgraph' hsound.revision hsound.digest hrequest hrequest'
    rfl rfl

omit [DecidableEq Document] in
theorem Related.deleteClaimed (h : Related contract rename together texts db memory)
    (hfree : CollisionFree contract texts) (hdrawn : Drawn rename together environment draw)
    (hchecked : checkedDelete project graph revision key = .ok ()) (hkey : key ∈ texts)
    (hrequest : deleteRequest project graph revision ∈ texts)
    (hrequest' : deleteRequest project graph (rename revision) ∈ texts)
    (hfresh : db.reservation (project, .delete, contract.sha256 key) = none)
    (hunsaved : memory.idempotency ⟨project, .delete, key⟩ = none) :
    Served (Related contract rename together texts) memory
      (environment.aborts = true ∨ isText revision = false) (AgreedReceipt rename together)
      (deleteClaimed environment ⟨db.graphs, db.idempotency ++ [reservationRow project .delete
          (contract.sha256 key) graph (deleteFingerprint contract project graph revision)]⟩
        project graph revision (contract.sha256 key)
        (deleteFingerprint contract project graph revision))
      (memory.perform contract draw (.delete project graph (rename revision) key)) := by
  have hmemory := (checkedDelete_renamed hdrawn.valid).trans hchecked
  unfold PostgresqlGraphStore.deleteClaimed
  by_cases htext : isText revision = true
  swap
  · rw [if_pos htext]
    exact .aborted (.inr (by simpa using htext))
  rw [if_neg (by simp [htext])]
  obtain ⟨hrow, hrecord⟩ | ⟨row, record, hrow, hrecord, hsame⟩ := h.record_cases (project, graph)
  · rw [InMemoryGraphStore.perform_delete_missing draw hmemory hunsaved hrecord]
    simp only [Database.graph] at hrow
    simp only [Database.graph, hrow, Option.filter_none, raiseMissingOrConflict]
    exact .refused
  by_cases hcurrent : row.revision = revision
  swap
  · rw [InMemoryGraphStore.perform_delete_stale draw hmemory hunsaved hrecord
      (fun heq => hcurrent (hsame.revision_iff.mp heq))]
    simp only [Database.graph] at hrow
    simp only [Database.graph, hrow, Option.filter, hasRevision, hcurrent, raiseMissingOrConflict]
    exact .refused
  rw [InMemoryGraphStore.perform_delete_current draw hmemory hunsaved hrecord
    (hsame.revision_iff.mpr hcurrent)]
  subst hcurrent
  obtain ⟨hsound, hproject, hgraph⟩ := h.sound_graph hrow
  have hfilter : (Database.graph ⟨db.graphs, db.idempotency ++ [reservationRow project .delete
      (contract.sha256 key) graph (deleteFingerprint contract project graph row.revision)]⟩
        (project, graph)).filter (hasRevision row.revision) = some row := by
    simp only [Database.graph] at hrow
    simp [Database.graph, hrow, hasRevision, Option.filter]
  have hreceipt : deleteReceiptFromRow row.project row.graph (some row.revision)
      (some row.contentSha256) (some environment.clock) (project, graph) =
        .ok ⟨project, graph, row.revision, row.contentSha256, environment.clock⟩ := by
    have hread := deleteReceiptFromRow_of_valid environment.clock hsound.project
      hsound.graph hsound.revision hsound.digest
    rw [hproject, hgraph] at hread
    rwa [hproject, hgraph]
  obtain ⟨completed, hcompleted, hgraphs, hreservations⟩ := completeReservation_new graph
    (deleteFingerprint contract project graph row.revision)
    (Tables.deleteWhere graphKey db.graphs (project, graph) (hasRevision row.revision)) hfresh
    (fun reservation => (rfl : (deleteResult ⟨project, graph, row.revision, row.contentSha256,
      environment.clock⟩ reservation).key = reservation.key))
  simp only [hfilter, hreceipt, bind, Except.bind, hcompleted]
  have hagree : SameReceipt rename together
      ⟨project, graph, row.revision, row.contentSha256, environment.clock⟩
      ⟨project, graph, record.revision, record.contentSha256, draw.now⟩ :=
    { project := rfl
      graph := rfl
      revision := hsame.revision
      contentSha256 := hsame.contentSha256
      deletedAt := hdrawn.clock }
  refine .done hagree ⟨?_, ?_, ?_, ?_⟩
  · rw [hgraphs]
    exact Tables.nodup_deleteWhere h.nodup
  · intro other hother
    rw [hgraphs] at hother
    exact h.sound other (List.mem_of_mem_filter hother)
  · intro other
    have hselect : completed.graph other =
        if other = (project, graph) then none else db.graph other := by
      unfold Database.graph
      rw [hgraphs, Tables.select_deleteWhere h.nodup]
      by_cases hother : other = (project, graph)
      · subst hother
        have hsome : Tables.select graphKey db.graphs (project, graph) = some row := hrow
        simp [hsome, hasRevision, Option.filter]
      · simp [hother]
    rw [hselect]
    exact rel_update (h.records other) .none
  · intro project' operation' key' hkey'
    rw [hreservations]
    exact h.reserve hfree hkey (saved_deleteResult hsound hproject hgraph hrequest hrequest' hagree)
      project' operation' key' hkey'

omit [DecidableEq Document] in
theorem Related.delete (h : Related contract rename together texts db memory)
    (hfree : CollisionFree contract texts) (hdrawn : Drawn rename together environment draw)
    (hkey : key ∈ texts) (hrequest : deleteRequest project graph revision ∈ texts)
    (hrequest' : deleteRequest project graph (rename revision) ∈ texts) :
    Served (Related contract rename together texts) memory
      (environment.aborts = true ∨ isText revision = false) (AgreedReceipt rename together)
      (delete contract environment db project graph revision key)
      (memory.perform contract draw (.delete project graph (rename revision) key)) := by
  unfold PostgresqlGraphStore.delete
  cases hchecked : checkedDelete project graph revision key with
  | error e =>
    rw [InMemoryGraphStore.perform_delete_error draw
      ((checkedDelete_renamed hdrawn.valid).trans hchecked)]
    exact .refused
  | ok _ =>
    have hmemory := (checkedDelete_renamed hdrawn.valid).trans hchecked
    simp only [bind, Except.bind]
    by_cases haborts : environment.aborts = true
    · rw [if_pos haborts]
      exact .aborted (.inl haborts)
    rw [if_neg haborts]
    obtain ⟨hfresh, hunsaved⟩ | ⟨reservation, saved, htaken, hold, hsaved⟩ :=
      h.reservation_cases project .delete hkey
    · rw [reserveIdempotency_new hfresh]
      exact h.deleteClaimed hfree hdrawn hchecked hkey hrequest hrequest' hfresh hunsaved
    have hkeys := Tables.key_of_select htaken
    have hproject : reservation.project = project := congrArg Prod.fst hkeys
    have hoperation : reservation.operation = .delete := congrArg (fun k => k.2.1) hkeys
    rw [InMemoryGraphStore.perform_delete_replay draw hmemory hold]
    cases hsaved with
    | create hcreate =>
      rw [hoperation] at hcreate
      cases hcreate
    | @delete receipt receipt' _ hsame hp hg hpp hpg hrevision hdigest hhashed hhashed' hfingerprint
        hresult =>
      have hcompleted : reservation.completed = true := by
        rw [hresult]
        rfl
      have hportable := portable_of_checkedDelete hchecked
      rw [hp, hproject] at hhashed hhashed' hfingerprint
      rw [reserveIdempotency_taken htaken hcompleted, hp, hproject]
      by_cases hrequests : receipt.graph = graph ∧ receipt.revision = revision
      · obtain ⟨rfl, rfl⟩ := hrequests
        have hreplay : deleteReplayFromRow reservation (project, receipt.graph) = .ok receipt := by
          have hread := deleteReceiptFromRow_of_valid receipt.deletedAt hpp hpg
            hrevision hdigest
          rw [hp, hproject] at hread
          rw [hresult]
          simpa [deleteReplayFromRow, deleteResult, ← hproject, ← hp] using hread
        rw [if_neg (by simp [hfingerprint, hg])]
        have hmemory' : InMemoryGraphStore.replayReceipt (deleteFingerprint contract project
            receipt.graph (rename receipt.revision), (.receipt receipt' : Outcome Document))
            (deleteFingerprint contract project receipt.graph (rename receipt.revision)) =
              .ok receipt' := by
          simp [InMemoryGraphStore.replayReceipt]
        simp only [hreplay]
        rw [hmemory']
        exact .done hsame h
      · have hdiffers : reservation.requestFingerprint ≠
            deleteFingerprint contract project graph revision := by
          intro heq
          exact hrequests (deleteRequest_inj hpg hportable
            (hfree _ hhashed _ hrequest (hfingerprint.symm.trans heq)))
        have hdiffers' : deleteFingerprint contract project receipt.graph (rename receipt.revision) ≠
            deleteFingerprint contract project graph (rename revision) := by
          intro heq
          have hsame' := deleteRequest_inj hpg hportable (hfree _ hhashed' _ hrequest' heq)
          exact hrequests ⟨hsame'.1, rename.injective hsame'.2⟩
        rw [if_pos (.inl hdiffers)]
        simp only [InMemoryGraphStore.replayReceipt]
        rw [if_pos hdiffers']
        exact .refused

end Calls

section Pages

variable {Document : Type} {contract : Contract Document} {rename : Equiv.Perm String}
  {together : ℤ → ℤ → Prop} {texts : List String} {db : Database Document}
  {memory : InMemoryGraphs Document} {environment : Environment} {codec : CursorCodec}
  {collation : Collation} {project : String} {after : Option String}

theorem Related.isSome_iff (h : Related contract rename together texts db memory.toInMemoryGraphStore)
    (key : String × String) : (db.graph key).isSome ↔ key ∈ memory.keys := by
  rw [memory.mem_keys]
  obtain ⟨hrow, hrecord⟩ | ⟨row, record, hrow, hrecord, -⟩ := h.record_cases key
  · simp [hrow, hrecord]
  · simp [hrow, hrecord]

theorem Related.mem_graphs (h : Related contract rename together texts db memory.toInMemoryGraphStore)
    {graph : String} :
    (∃ row ∈ db.graphs, row.project = project ∧ row.graph = graph) ↔
      (project, graph) ∈ memory.keys := by
  rw [← h.isSome_iff]
  constructor
  · rintro ⟨row, hrow, rfl, rfl⟩
    have hselect : db.graph (row.project, row.graph) = some row :=
      Tables.select_of_mem h.nodup hrow
    rw [hselect]
    rfl
  · intro hsome
    obtain ⟨row, hrow⟩ := Option.isSome_iff_exists.mp hsome
    obtain ⟨-, hproject, hgraph⟩ := h.sound_graph hrow
    exact ⟨row, Tables.mem_of_select hrow, hproject, hgraph⟩

/-- Both stores walk the same graphs in the same order. -/
theorem Related.map_pageRows
    (h : Related contract rename together texts db memory.toInMemoryGraphStore)
    (collation : Collation) (project : String) (after : Option String) :
    (pageRows collation db project after).map GraphRecord.graph =
      (memory.pageIds collation project).filter (isAfter collation.le after) := by
  have hsorted : (pageRows collation db project after).map GraphRecord.graph =
      ((db.graphs.filter (fun row => decide (row.project = project) &&
        isAfter collation.le after row.graph)).map GraphRecord.graph).insertionSort
          collation.le := List.map_insertionSort _ _ _ _ (fun _ _ _ _ => Iff.rfl)
  rw [hsorted]
  have hids : (memory.pageIds collation project).Pairwise collation.le :=
    List.pairwise_insertionSort collation.le _
  refine List.Perm.eq_of_pairwise' (List.pairwise_insertionSort collation.le _)
    (hids.sublist List.filter_sublist) ?_
  refine (List.perm_insertionSort collation.le _).trans ?_
  have hkeys : (memory.pageIds collation project).Nodup := by
    unfold InMemoryGraphs.pageIds
    rw [(List.perm_insertionSort collation.le _).nodup_iff]
    refine List.Nodup.map_on ?_ (memory.nodup.filter _)
    intro first hfirst second hsecond hsame
    have hfirst' := (List.mem_filter.mp hfirst).2
    have hsecond' := (List.mem_filter.mp hsecond).2
    simp only [decide_eq_true_eq] at hfirst' hsecond'
    exact Prod.ext (hfirst'.trans hsecond'.symm) hsame
  have hrows : ((db.graphs.filter (fun row => decide (row.project = project) &&
      isAfter collation.le after row.graph)).map GraphRecord.graph).Nodup := by
    have hnodup : (db.graphs.filter (fun row => decide (row.project = project) &&
        isAfter collation.le after row.graph)).Nodup := (List.Nodup.of_map _ h.nodup).filter _
    refine List.Nodup.map_on ?_ hnodup
    intro first hfirst second hsecond hsame
    obtain ⟨hfirst, hfirst'⟩ := List.mem_filter.mp hfirst
    obtain ⟨hsecond, hsecond'⟩ := List.mem_filter.mp hsecond
    simp only [Bool.and_eq_true, decide_eq_true_eq] at hfirst' hsecond'
    exact List.inj_on_of_nodup_map h.nodup hfirst hsecond
      (Prod.ext (hfirst'.1.trans hsecond'.1.symm) hsame)
  rw [List.perm_ext_iff_of_nodup hrows (hkeys.filter _)]
  intro graph
  have hmem : graph ∈ memory.pageIds collation project ↔ (project, graph) ∈ memory.keys := by
    simp [InMemoryGraphs.pageIds]
  rw [List.mem_filter, hmem, ← h.mem_graphs, List.mem_map]
  constructor
  · rintro ⟨row, hrow, rfl⟩
    obtain ⟨hrow, hwanted⟩ := List.mem_filter.mp hrow
    simp only [Bool.and_eq_true, decide_eq_true_eq] at hwanted
    exact ⟨⟨row, hrow, hwanted.1, rfl⟩, hwanted.2⟩
  · rintro ⟨⟨row, hrow, hproject, rfl⟩, hafter⟩
    refine ⟨row, List.mem_filter.mpr ⟨hrow, ?_⟩, rfl⟩
    simp [hproject, hafter]

theorem Related.summaries
    (h : Related contract rename together texts db memory.toInMemoryGraphStore)
    {rows : List (GraphRecord Document)}
    (hrows : ∀ row ∈ rows, row ∈ db.graphs ∧ row.project = project) :
    rows.mapM (fun row => summaryFromRow row project) = .ok (rows.map GraphRecord.summary) ∧
      List.Forall₂ (SameSummary rename together) (rows.map GraphRecord.summary)
        ((rows.map GraphRecord.graph).filterMap fun graph =>
          (memory.records (project, graph)).map GraphRecord.summary) := by
  induction rows with
  | nil => exact ⟨rfl, .nil⟩
  | cons row rest ih =>
    obtain ⟨hmem, rfl⟩ := hrows row List.mem_cons_self
    obtain ⟨hread, hsame⟩ := ih fun other hother => hrows other (List.mem_cons_of_mem _ hother)
    have hfirst := summaryFromRow_of_sound (h.sound row hmem)
    have hselect : db.graph (row.project, row.graph) = some row :=
      Tables.select_of_mem h.nodup hmem
    constructor
    · rw [List.mapM_cons, hfirst, hread]
      rfl
    · obtain ⟨hnone, -⟩ | ⟨row', record, hrow, hrecord, hagree⟩ :=
        h.record_cases (row.project, row.graph)
      · rw [hselect] at hnone
        cases hnone
      · obtain rfl : row = row' := Option.some.inj (hselect.symm.trans hrow)
        rw [List.map_cons, List.map_cons, List.filterMap_cons, hrecord]
        exact .cons ⟨hagree.project, hagree.graph, hagree.revision, hagree.contentSha256,
          hagree.createdAt, hagree.updatedAt⟩ hsame

/-- The rows of a query and the identifiers in memory make the same page. -/
theorem Related.page
    (h : Related contract rename together texts db memory.toInMemoryGraphStore)
    (codec : CursorCodec) (collation : Collation) (project : String) (after : Option String)
    (size : ℕ) :
    ∃ page, pageFromRows codec project size ((pageRows collation db project after).take (size + 1)) =
        .ok page ∧
      List.Forall₂ (SameSummary rename together) page.items (memory.page codec collation project
        (pageStart (memory.pageIds collation project) after collation.le) size).items ∧
      (memory.page codec collation project
        (pageStart (memory.pageIds collation project) after collation.le) size).nextCursor =
          page.nextCursor := by
  have hids : (memory.pageIds collation project).Pairwise collation.le :=
    List.pairwise_insertionSort collation.le _
  have hwalk := h.map_pageRows collation project after
  rw [← drop_pageStart hids] at hwalk
  have hlength := congrArg List.length hwalk
  rw [List.length_map, List.length_drop] at hlength
  have hstart := pageStart_le collation.le (memory.pageIds collation project) after
  have htake : ((pageRows collation db project after).take (size + 1)).take size =
      (pageRows collation db project after).take size := by
    rw [List.take_take]
    congr 1
    omega
  have hrows : ∀ row ∈ (pageRows collation db project after).take size,
      row ∈ db.graphs ∧ row.project = project := by
    intro row hrow
    have hmem := (List.mem_insertionSort _).mp (List.mem_of_mem_take hrow)
    obtain ⟨hmem, hwanted⟩ := List.mem_filter.mp hmem
    simp only [Bool.and_eq_true, decide_eq_true_eq] at hwanted
    exact ⟨hmem, hwanted.1⟩
  obtain ⟨hread, hsame⟩ := h.summaries hrows
  have hmore : (pageStart (memory.pageIds collation project) after collation.le +
        ((pageRows collation db project after).take size).length <
          (memory.pageIds collation project).length) ↔
      size < ((pageRows collation db project after).take (size + 1)).length := by
    rw [List.length_take, List.length_take]
    omega
  unfold pageFromRows InMemoryGraphs.page
  simp only [htake, hread, bind, Except.bind, ← hwalk, ← List.map_take]
  refine ⟨_, rfl, hsame, ?_⟩
  simp only [List.getLast?_map, Option.bind_map, List.length_map, if_congr hmore rfl rfl]
  rfl

theorem Related.list
    (h : Related contract rename together texts db memory.toInMemoryGraphStore)
    (codec : CursorCodec) (collation : Collation) (environment : Environment) (project : String)
    (cursor : Option String) (limit : ℤ) :
    (environment.aborts = true ∧
        list codec collation environment db project cursor limit = .error (failed "list")) ∨
      (∃ e, list codec collation environment db project cursor limit = .error e ∧
        memory.list codec collation project cursor limit = .error e) ∨
      ∃ page page', list codec collation environment db project cursor limit = .ok page ∧
        memory.list codec collation project cursor limit = .ok page' ∧
        List.Forall₂ (SameSummary rename together) page.items page'.items ∧
        page'.nextCursor = page.nextCursor := by
  unfold PostgresqlGraphStore.list InMemoryGraphs.list
  cases hchecked : checkedList codec project cursor limit with
  | error e => exact .inr (.inl ⟨e, rfl, rfl⟩)
  | ok checked =>
    obtain ⟨size, after⟩ := checked
    by_cases haborts : environment.aborts = true
    · left
      simp [haborts, bind, Except.bind, throw, throwThe, MonadExceptOf.throw]
    · right
      right
      obtain ⟨page, hpage, hsame, hcursor⟩ := h.page codec collation project after size
      refine ⟨page, _, ?_, rfl, hsame, hcursor⟩
      simp only [bind, Except.bind, haborts]
      exact hpage

end Pages

section Renaming

theorem isRevision_swap {first second : String} (hfirst : isRevision first = true)
    (hsecond : isRevision second = true) (revision : String) :
    isRevision (Equiv.swap first second revision) = isRevision revision := by
  by_cases h₁ : revision = first
  · subst h₁
    rw [Equiv.swap_apply_left, hfirst, hsecond]
  by_cases h₂ : revision = second
  · subst h₂
    rw [Equiv.swap_apply_right, hfirst, hsecond]
  · rw [Equiv.swap_apply_of_ne_of_ne h₁ h₂]

/-- Tokens that are drawn once by each store can be renamed into each other. -/
theorem exists_renaming (tokens : List (String × String)) (hfirst : (tokens.map Prod.fst).Nodup)
    (hsecond : (tokens.map Prod.snd).Nodup)
    (hvalid : ∀ pair ∈ tokens, isRevision pair.1 = true ∧ isRevision pair.2 = true) :
    ∃ rename : Equiv.Perm String, (∀ revision, isRevision (rename revision) = isRevision revision) ∧
      ∀ pair ∈ tokens, rename pair.1 = pair.2 := by
  induction tokens with
  | nil => exact ⟨Equiv.refl _, fun _ => rfl, nofun⟩
  | cons pair rest ih =>
    rw [List.map_cons, List.nodup_cons] at hfirst hsecond
    obtain ⟨rename, hkeeps, hrest⟩ := ih hfirst.2 hsecond.2
      fun other hother => hvalid other (List.mem_cons_of_mem _ hother)
    obtain ⟨hpair, hpair'⟩ := hvalid pair List.mem_cons_self
    have hrenamed : isRevision (rename pair.1) = true := (hkeeps pair.1).trans hpair
    refine ⟨rename.trans (Equiv.swap (rename pair.1) pair.2), ?_, ?_⟩
    · intro revision
      rw [Equiv.trans_apply, isRevision_swap hrenamed hpair', hkeeps]
    · intro other hother
      rw [Equiv.trans_apply]
      rcases List.mem_cons.mp hother with rfl | hmem
      · exact Equiv.swap_apply_left _ _
      · have hne : other.1 ≠ pair.1 := by
          intro heq
          exact hfirst.1 (heq ▸ List.mem_map_of_mem hmem)
        have hne' : other.2 ≠ pair.2 := by
          intro heq
          exact hsecond.1 (heq ▸ List.mem_map_of_mem hmem)
        have hmoved : rename other.1 ≠ rename pair.1 := rename.injective.ne hne
        rw [hrest other hmem] at hmoved ⊢
        exact Equiv.swap_apply_of_ne_of_ne hmoved hne'

end Renaming

section Refinement

variable {Document : Type} [DecidableEq Document] {contract : Contract Document}
  {codec : CursorCodec} {collation : Collation} {rename : Equiv.Perm String}
  {together : ℤ → ℤ → Prop} {texts : List String} {db : Database Document}
  {memory : InMemoryGraphs Document} {step : Step Document}

/-- A request as the two stores serve it. -/
def served (contract : Contract Document) (codec : CursorCodec) (collation : Collation)
    (db : Database Document) (step : Step Document) :
    Except GraphStoreError (Reply Document) × Database Document :=
  perform contract codec collation step.environment db step.request

omit [DecidableEq Document] in
def servedInMemory (contract : Contract Document) (codec : CursorCodec) (collation : Collation)
    (rename : Equiv.Perm String) (memory : InMemoryGraphs Document) (step : Step Document) :
    Except GraphStoreError (Reply Document) × InMemoryGraphs Document :=
  memory.perform contract codec collation step.draw (renamed rename step.request)

/-- Steps of both stores that answer alike, or a transaction that was given up. -/
def Answered (contract : Contract Document) (codec : CursorCodec) (collation : Collation)
    (rename : Equiv.Perm String) (together : ℤ → ℤ → Prop) (texts : List String)
    (db : Database Document) (memory : InMemoryGraphs Document) (step : Step Document) : Prop :=
  (Aborted db step (served contract codec collation db step).1 ∧
      (served contract codec collation db step).2 = db) ∨
    (SameAnswer rename together (served contract codec collation db step).1
        (servedInMemory contract codec collation rename memory step).1 ∧
      Related contract rename together texts (served contract codec collation db step).2
        (servedInMemory contract codec collation rename memory step).2.toInMemoryGraphStore)

omit [DecidableEq Document] in
theorem answered_of_served {α : Type} {givenUp : Prop} {same : α → Outcome Document → Prop}
    (reply : α → Reply Document) {result : Except GraphStoreError (α × Database Document)}
    {answer : Except GraphStoreError (Outcome Document) × InMemoryGraphStore Document}
    {store : InMemoryGraphStore Document}
    (h : Related contract rename together texts db store)
    (hserved : Served (Related contract rename together texts) store givenUp same result answer)
    (hsame : ∀ value outcome, same value outcome →
      SameReply rename together (reply value) (.outcome outcome)) :
    ((givenUp ∧ ∃ operation,
        (committed db (result.map fun r => (reply r.1, r.2))).1 = .error (failed operation)) ∧
      (committed db (result.map fun r => (reply r.1, r.2))).2 = db) ∨
    (SameAnswer rename together (committed db (result.map fun r => (reply r.1, r.2))).1
        (answer.1.map Reply.outcome) ∧
      Related contract rename together texts
        (committed db (result.map fun r => (reply r.1, r.2))).2 answer.2) := by
  cases hserved with
  | aborted cause => exact .inl ⟨⟨cause, _, rfl⟩, rfl⟩
  | refused => exact .inr ⟨rfl, h⟩
  | done agree after => exact .inr ⟨hsame _ _ agree, after⟩

theorem Related.answered
    (h : Related contract rename together texts db memory.toInMemoryGraphStore)
    (hhex : HexDigests contract) (hfree : CollisionFree contract texts)
    (hdrawn : Drawn rename together step.environment step.draw) (htoken : TokenDrawn step)
    (htexts : hashedTexts rename contract step.request ⊆ texts) :
    Answered contract codec collation rename together texts db memory step := by
  obtain ⟨request, environment, draw⟩ := step
  have hrecord : ∀ (record : GraphRecord Document) (outcome : Outcome Document),
      Agreed rename together record outcome →
      SameReply rename together (.outcome (.record record)) (.outcome outcome) := by
    rintro record (record' | receipt) hagreed
    · exact hagreed
    · exact hagreed.elim
  have hreceipt : ∀ (receipt : GraphDeleteReceipt) (outcome : Outcome Document),
      AgreedReceipt rename together receipt outcome →
      SameReply rename together (.outcome (.receipt receipt)) (.outcome outcome) := by
    rintro receipt (record | receipt') hagreed
    · exact hagreed.elim
    · exact hagreed
  unfold Answered Aborted Unwritable
  cases request with
  | list project cursor limit =>
    obtain ⟨haborts, hlist⟩ | ⟨e, hlist, hlist'⟩ | ⟨page, page', hlist, hlist', hsame⟩ :=
      h.list codec collation environment project cursor limit
    · left
      simp only [served, perform, hlist, Except.map, committed]
      exact ⟨⟨.inl haborts, _, rfl⟩, trivial⟩
    · right
      simp only [served, servedInMemory, renamed, perform, InMemoryGraphs.perform, hlist, hlist',
        Except.map, committed]
      exact ⟨rfl, h⟩
    · right
      simp only [served, servedInMemory, renamed, perform, InMemoryGraphs.perform, hlist, hlist',
        Except.map, committed]
      exact ⟨hsame, h⟩
  | call call =>
    cases call with
    | get project graph =>
      have hserved := h.get environment draw project graph
      have hread : ((PostgresqlGraphStore.get contract environment db project graph).map
          fun record => (record, db)).map
          (fun r => ((.outcome (.record r.1) : Reply Document), r.2)) =
            (PostgresqlGraphStore.get contract environment db project graph).map
              fun r => (.outcome (.record r), db) := by
        cases PostgresqlGraphStore.get contract environment db project graph <;> rfl
      have hanswer := answered_of_served (fun r => .outcome (.record r)) h hserved hrecord
      rw [hread] at hanswer
      simp only [or_false]
      exact hanswer
    | create project graph document key =>
      have hnew : ∀ canonical, checkedCreate contract project graph document key = .ok canonical →
          key ∈ texts ∧ createRequest project graph canonical.contentSha256 ∈ texts := by
        intro canonical hchecked
        simp only [hashedTexts, hchecked] at htexts
        exact ⟨htexts (by simp), htexts (by simp)⟩
      exact answered_of_served (fun r => .outcome (.record r)) h
        (h.create hhex hfree hdrawn hnew) hrecord
    | put project graph document revision =>
      exact answered_of_served (fun r => .outcome (.record r)) h
        (h.put hhex hdrawn (htoken.unnamed _ _ _ _ rfl)) hrecord
    | delete project graph revision key =>
      exact answered_of_served (fun r => .outcome (.receipt r)) h
        (h.delete hfree hdrawn (htexts (by simp [hashedTexts])) (htexts (by simp [hashedTexts]))
          (htexts (by simp [hashedTexts]))) hreceipt

/-- Whatever the requests, the clocks and the transactions the database gives up, every other
request gets from PostgreSQL what the store in memory, sorting in the collation of the
database, answers to the renamed request; and tokens drawn once can be so renamed. -/
theorem postgresql_refines_memory {steps : List (Step Document)} (hhex : HexDigests contract)
    (htokens : ∀ step ∈ steps, TokenDrawn step ∧ isRevision step.draw.revision = true)
    (hdistinct : (steps.map fun step => step.environment.revision).Nodup)
    (hdistinct' : (steps.map fun step => step.draw.revision).Nodup) :
    (∃ rename, Renames rename steps) ∧
      ∀ rename, Renames rename steps →
        CollisionFree contract (steps.flatMap fun step => hashedTexts rename contract step.request) →
        Lockstep (served contract codec collation) (servedInMemory contract codec collation rename)
          Aborted (fun _ _ => SameAnswer rename (ReadTogether steps))
          Database.empty InMemoryGraphs.empty steps := by
  constructor
  · obtain ⟨rename, hvalid, hpairs⟩ := exists_renaming
      (steps.map fun step => (step.environment.revision, step.draw.revision))
      (by simpa [List.map_map, Function.comp_def] using hdistinct)
      (by simpa [List.map_map, Function.comp_def] using hdistinct')
      (by
        intro pair hpair
        obtain ⟨step, hstep, rfl⟩ := List.mem_map.mp hpair
        exact ⟨(htokens step hstep).1.revision, (htokens step hstep).2⟩)
    exact ⟨rename, hvalid, fun step hstep => hpairs _ (List.mem_map_of_mem hstep)⟩
  · intro rename hrenames hfree
    refine lockstep_of_simulation (R := fun later db memory => later ⊆ steps ∧
      Related contract rename (ReadTogether steps)
        (steps.flatMap fun step => hashedTexts rename contract step.request) db
        memory.toInMemoryGraphStore) ?_ ⟨fun _ hstep => hstep, Related.empty _ _ _ _⟩
    rintro db memory step rest ⟨hsteps, hrelated⟩
    have hstep : step ∈ steps := hsteps List.mem_cons_self
    have hrest : rest ⊆ steps := fun other hother => hsteps (List.mem_cons_of_mem _ hother)
    have hdrawn : Drawn rename (ReadTogether steps) step.environment step.draw :=
      { revision := (htokens step hstep).1.revision
        text := (htokens step hstep).1.text
        valid := hrenames.valid
        renamed := hrenames.drawn step hstep
        clock := ⟨step, hstep, .inl rfl, rfl⟩
        laterClock := ⟨step, hstep, .inr rfl, rfl⟩ }
    obtain ⟨haborted, hkept⟩ | ⟨hsame, hafter⟩ := hrelated.answered hhex hfree hdrawn
      (htokens step hstep).1 fun text htext => List.mem_flatMap.mpr ⟨step, hstep, htext⟩
    · exact .inl ⟨haborted, hkept, hrest, hrelated⟩
    · exact .inr ⟨hsame, hrest, hafter⟩

end Refinement

section Examples

def exampleSha256 : String :=
  "803caa58778fd574a43790c4d351ee2b74008139316d3f734c8c6b6066cce612"

/-- A store of one document, with the digests of the texts of the examples. -/
def exampleContract : Contract Unit where
  sha256 text :=
    if text = "create-1" then "3856b8d080d86a6de480f6a02beede99a08e54b66f9b4b4131eae8de59f85e19"
    else if text = "create-2" then
      "12df320530689581e5054d987e7adf297b6fb64e81826777a5826a618a57a7d3"
    else if text = createRequest "p" "a_b" exampleSha256 then
      "00083e9f2c8ef686178c89fa2a4d3e8b3675cf5dd14c5a91383210b9ffbbb341"
    else if text = createRequest "p" "a1" exampleSha256 then
      "ef2c98772736b190579dae311868bad69c28a018ceba4507951e396e10dcb63f"
    else if text = "delete-1" then
      "0130ad67fe90cc5679ca1b4f4fdc4e90b612b41c78058f9eb0c7c60f5a85589d"
    else if text = deleteRequest "p" "orders" "9b1deb4d3b7d4bad9bdd2b0d7b3dcb6d" then
      "f0c993f631065eab1703564ba1e8c18933546f3a419d391fbb6975109b0c1687"
    else if text = deleteRequest "p" "orders" "1c8f3d5a6b9e4f0c8a7d2e3b4c5d6e7f" then
      "16f2e02aab098be44b64af07cba7e5d83a7ff70cf58ec9599adddcebd695787f"
    else "45b5b24b2e9bb9c2d68cafa73e1503e1bfe1894124c5919d77309626529abdc1"
  canonicalizeGraphDocument _ := .ok ⟨(), exampleSha256⟩
  canonical _ _ h := h

/-- Cursors of no use: the examples ask for first pages only. -/
def exampleCodec : CursorCodec := ⟨id, fun _ => none⟩

/-- The graph is created, its deletion is given up, and then done. -/
def exampleSteps : List (Step Unit) :=
  [⟨.call (.create "p" "orders" () "create-1"), ⟨false, 1, 2, "9b1deb4d3b7d4bad9bdd2b0d7b3dcb6d"⟩,
      ⟨1, "1c8f3d5a6b9e4f0c8a7d2e3b4c5d6e7f"⟩⟩,
    ⟨.call (.delete "p" "orders" "9b1deb4d3b7d4bad9bdd2b0d7b3dcb6d" "delete-1"),
      ⟨true, 3, 3, "a1b2c3d4e5f60718293a4b5c6d7e8f90"⟩, ⟨3, "b1b2c3d4e5f60718293a4b5c6d7e8f90"⟩⟩,
    ⟨.call (.delete "p" "orders" "9b1deb4d3b7d4bad9bdd2b0d7b3dcb6d" "delete-1"),
      ⟨false, 4, 4, "c1b2c3d4e5f60718293a4b5c6d7e8f90"⟩, ⟨4, "d1b2c3d4e5f60718293a4b5c6d7e8f90"⟩⟩]

/-- The tokens of the examples, each for the other store's. -/
def exampleRename : Equiv.Perm String :=
  (Equiv.swap "9b1deb4d3b7d4bad9bdd2b0d7b3dcb6d" "1c8f3d5a6b9e4f0c8a7d2e3b4c5d6e7f").trans
    ((Equiv.swap "a1b2c3d4e5f60718293a4b5c6d7e8f90" "b1b2c3d4e5f60718293a4b5c6d7e8f90").trans
      (Equiv.swap "c1b2c3d4e5f60718293a4b5c6d7e8f90" "d1b2c3d4e5f60718293a4b5c6d7e8f90"))

theorem example_facts :
    (∀ step ∈ exampleSteps, exampleRename step.environment.revision = step.draw.revision ∧
      isRevision step.environment.revision = true ∧ isText step.environment.revision = true ∧
      isRevision step.draw.revision = true) ∧
    (exampleSteps.map fun step => step.environment.revision).Nodup ∧
    (exampleSteps.map fun step => step.draw.revision).Nodup ∧
    CollisionFree exampleContract
      (exampleSteps.flatMap fun step =>
        hashedTexts exampleRename exampleContract step.request) := by
  unfold CollisionFree
  decide +kernel

theorem exampleRename_renames : Renames exampleRename exampleSteps where
  valid revision := by
    simp only [exampleRename, Equiv.trans_apply]
    rw [isRevision_swap (by decide) (by decide), isRevision_swap (by decide) (by decide),
      isRevision_swap (by decide) (by decide)]
  drawn step hstep := (example_facts.1 step hstep).1

theorem example_tokenDrawn : ∀ step ∈ exampleSteps,
    TokenDrawn step ∧ isRevision step.draw.revision = true := by
  intro step hstep
  obtain ⟨-, hrevision, htext, hdraw⟩ := example_facts.1 step hstep
  simp only [exampleSteps, List.mem_cons, List.not_mem_nil, or_false] at hstep
  rcases hstep with rfl | rfl | rfl <;> exact ⟨⟨hrevision, htext, nofun⟩, hdraw⟩

theorem postgresql_refines_memory_retried_delete :
    Lockstep (served exampleContract exampleCodec .codePoint)
      (servedInMemory exampleContract exampleCodec .codePoint exampleRename)
      Aborted (fun _ _ => SameAnswer exampleRename (ReadTogether exampleSteps))
      Database.empty InMemoryGraphs.empty exampleSteps :=
  (postgresql_refines_memory (fun _ _ h => by obtain rfl := Except.ok.inj h; decide +kernel)
    example_tokenDrawn example_facts.2.1 example_facts.2.2.1).2 exampleRename
    exampleRename_renames example_facts.2.2.2

/-- A collation that puts underscores before digits: the weights of `_` and `,` are swapped. -/
def underscoresFirst : Collation :=
  .byWeight (fun text => String.ofList (text.toList.map (Equiv.swap '_' ','))) (by
    intro first second h
    have hlists := String.ofList_inj.mp h
    exact String.toList_inj.mp (List.map_injective_iff.mpr (Equiv.injective _) hlists))

def createStep (graph key : String) (laterClock : ℤ) (revision : String) : Step Unit :=
  ⟨.call (.create "p" graph () key), ⟨false, 1, laterClock, revision⟩, ⟨1, revision⟩⟩

/-- A put under a revision that holds a NUL character. -/
def putStep : Step Unit :=
  ⟨.call (.put "p" "orders" () "\x00"), ⟨false, 3, 3, "b1b2c3d4e5f60718293a4b5c6d7e8f90"⟩,
    ⟨3, "b1b2c3d4e5f60718293a4b5c6d7e8f90"⟩⟩

def listStep : Step Unit := ⟨.list "p" none 1, ⟨false, 3, 3, ""⟩, ⟨3, ""⟩⟩

/-- What the two stores answer to a request after some others, under one set of revisions. -/
def answersAfter (collation : Collation) (before : List (Step Unit)) (last : Step Unit) :
    Except GraphStoreError (Reply Unit) × Except GraphStoreError (Reply Unit) :=
  let db := before.foldl (fun db step => (served exampleContract exampleCodec collation db step).2)
    Database.empty
  let memory := before.foldl (fun memory step =>
    (servedInMemory exampleContract exampleCodec .codePoint (.refl _) memory step).2)
    InMemoryGraphs.empty
  ((served exampleContract exampleCodec collation db last).1,
    (servedInMemory exampleContract exampleCodec .codePoint (.refl _) memory last).1)

def errorClass : Except GraphStoreError (Reply Unit) → Option ErrorClass
  | .error e => some e.kind
  | .ok _ => none

def pageGraphs : Except GraphStoreError (Reply Unit) → List String
  | .ok (.page page) => page.items.map GraphSummary.graph
  | _ => []

/-- Three ways the stores differ although no transaction is given up: the clock moves between
the two timestamps of an insert, a revision is no text of the database, and the database sorts
in another collation. -/
theorem memory_differs :
    (¬ ∃ rename draw, SameAnswer rename (· = ·)
      (served exampleContract exampleCodec .codePoint .empty
        (createStep "orders" "create-1" 2 "9b1deb4d3b7d4bad9bdd2b0d7b3dcb6d")).1
      (InMemoryGraphs.empty.perform exampleContract exampleCodec .codePoint draw
        (.call (.create "p" "orders" () "create-1"))).1) ∧
    Prod.map errorClass errorClass (answersAfter .codePoint
        [createStep "orders" "create-1" 1 "9b1deb4d3b7d4bad9bdd2b0d7b3dcb6d"] putStep) =
      (some .store, some .conflict) ∧
    Prod.map pageGraphs pageGraphs (answersAfter underscoresFirst
        [createStep "a_b" "create-1" 1 "9b1deb4d3b7d4bad9bdd2b0d7b3dcb6d",
          createStep "a1" "create-2" 1 "1c8f3d5a6b9e4f0c8a7d2e3b4c5d6e7f"] listStep) =
      (["a_b"], ["a1"]) := by
  refine ⟨?_, by decide +kernel, by decide +kernel⟩
  rintro ⟨rename, draw, hsame⟩
  have hchecked : checkedCreate exampleContract "p" "orders" () "create-1" =
      .ok ⟨(), exampleSha256⟩ := by rfl
  have hserved : (served exampleContract exampleCodec .codePoint .empty
      (createStep "orders" "create-1" 2 "9b1deb4d3b7d4bad9bdd2b0d7b3dcb6d")).1 =
        .ok (.outcome (.record ⟨"p", "orders", (), "9b1deb4d3b7d4bad9bdd2b0d7b3dcb6d",
          exampleSha256, 1, 2⟩)) := by rfl
  rw [hserved] at hsame
  simp only [InMemoryGraphs.perform, InMemoryGraphs.performCall] at hsame
  cases hrevision : validatedNewRevision draw.revision with
  | error e =>
    rw [InMemoryGraphStore.perform_create_invalid draw hchecked rfl rfl hrevision] at hsame
    exact hsame
  | ok _ =>
    rw [InMemoryGraphStore.perform_create_new draw hchecked rfl rfl hrevision] at hsame
    have hcreated : (1 : ℤ) = draw.now := hsame.createdAt
    have hupdated : (2 : ℤ) = draw.now := hsame.updatedAt
    omega

end Examples

end Dander.PostgresqlGraphStore
