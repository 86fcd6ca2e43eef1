import Dander.PostgresqlRunStore

/-!
# The two run stores side by side

S3 and PostgreSQL are given one sequence of requests. A revision of one corresponds to the
revision of the other that the same call handed out, a cursor to the one for the same run. As
long as no request meets a point where the stores differ, both answer alike.
-/
namespace Dander.RunStoreAgreement

open ObjectStore Orchestration RunStore
open GraphStore (Collation)
open PostgresqlRunStore (Database RunRow AttemptRow MutationRow rowOf storedRunFromRow)

section Statement

inductive ErrorClass where
  | failure
  | conflict
  | corruption
  | idempotencyConflict
  deriving Repr, DecidableEq

def errorClass : RunStoreError → ErrorClass
  | .failure _ => .failure
  | .conflict _ => .conflict
  | .corruption _ => .corruption
  | .idempotencyConflict _ => .idempotencyConflict

/-- A request as each store gets it; the label names the call. -/
structure Step where
  label : ℕ
  request : StoreRequest
  mirrored : PostgresqlRunStore.StoreRequest
  deriving Repr, DecidableEq

variable (settings : Settings) (collation : Collation) (draws : ℕ → String)
  (history : History ObjectName ObjectValue)

/-- The call that wrote a snapshot under a tag. -/
def Wrote (etag : ℕ) (record : RunRecord) (author : ℕ) : Prop :=
  recorded history etag = some ⟨.run record.runId, some (.run record), author⟩

/-- A snapshot of S3 and one of PostgreSQL: the same record, written by the same call. -/
def SameStored (stored : StoredRun) (mirrored : PostgresqlRunStore.StoredRun) : Prop :=
  mirrored.record = stored.record ∧ ∃ author,
    Wrote history stored.revision stored.record author ∧ mirrored.revision = draws author

/-- Snapshots to save over: the revisions name the same write, and the record has the identity
of the run written there, or neither store ever gave the revisions out. -/
def SameInput (stored : StoredRun) (mirrored : PostgresqlRunStore.StoredRun) : Prop :=
  mirrored.record = stored.record ∧
    ((∃ record author, Wrote history stored.revision record author ∧
        mirrored.revision = draws author ∧
        (record.runId = stored.record.runId → record.identity = stored.record.identity)) ∨
      (recorded history stored.revision = none ∧ isSha256 mirrored.revision = true ∧
        ∀ label, mirrored.revision ≠ draws label))

/-- Cursors that name the same run, or none, or that both stores refuse. -/
def SameCursor (cursor mirrored : Option String) : Prop :=
  (∃ after, decodeCursor settings.base64 settings.runPrefix cursor = .ok after ∧
      PostgresqlRunStore.decodeCursor settings.base64 mirrored = .ok after) ∨
    ∃ e e', decodeCursor settings.base64 settings.runPrefix cursor = .error e ∧
      PostgresqlRunStore.decodeCursor settings.base64 mirrored = .error e' ∧
      errorClass e' = errorClass e

/-- The cursors the two stores hand out after a run. -/
inductive HandedOut : Option String → Option String → Prop
  | last : HandedOut none none
  | next {runId : String} (opaqueId : isOpaqueId runId = true) :
    HandedOut (some (encodeCursor settings.base64 settings.runPrefix runId))
      (some (settings.base64.encode runId))

/-- One request in the terms of each store. -/
inductive Mirrors : StoreRequest → PostgresqlRunStore.StoreRequest → Prop
  | claim (record : RunRecord) : Mirrors (.call (.claim record)) (.claim record)
  | get (runId : String) : Mirrors (.call (.get runId)) (.get runId)
  | findIdempotency (scope : Scope) :
    Mirrors (.call (.findIdempotency scope)) (.findIdempotency scope)
  | save {stored : StoredRun} {mirrored : PostgresqlRunStore.StoredRun} (record : RunRecord)
    (same : SameInput draws history stored mirrored) :
    Mirrors (.call (.save stored record)) (.save mirrored record)
  | appendAttempt (attempt : AttemptRecord) :
    Mirrors (.appendAttempt attempt) (.appendAttempt attempt)
  | claimMutation (keySha256 operation runId result : String) :
    Mirrors (.claimMutation keySha256 operation runId result)
      (.claimMutation keySha256 operation runId result)
  | list {cursor mirrored : Option String} (limit : ℤ)
    (same : SameCursor settings cursor mirrored) : Mirrors (.list cursor limit) (.list mirrored limit)

/-- What the constructor of a record checks of its identity; its JSON fits every bound. -/
structure ValidRecord (record : RunRecord) : Prop where
  runId : isOpaqueId record.runId = true
  environment : isPortableId record.environment = true
  project : isPortableId record.project = true
  key : isSha256 record.idempotencyKeySha256 = true
  submission : isSha256 record.submissionSha256 = true
  snapshotFits : settings.readable (.run record) = true
  entryFits : settings.readable (.idempotency (entryOf record)) = true

/-- What the constructor of an attempt checks; its identity is a function of its number. -/
structure ValidAttempt (identity : String → ℕ → String) (attempt : AttemptRecord) : Prop where
  runId : isOpaqueId attempt.runId = true
  attemptId : isOpaqueId attempt.attemptId = true
  number : 1 ≤ attempt.attemptNumber
  deterministic : attempt.attemptId = identity attempt.runId attempt.attemptNumber
  fits : settings.readableAttempt attempt = true

/-- PostgreSQL bounds a mutation result by itself and S3 by the entry around it. -/
def SameBounds (keySha256 operation runId result : String) : Prop :=
  ∀ canonical, settings.codec.loads result = .mapping canonical →
    (MutationEntry.fits ⟨keySha256, operation, runId, canonical⟩ = true ↔
      result ≠ "" ∧ result.utf8ByteSize ≤ maxMutationBytes ∧
        canonical.utf8ByteSize ≤ maxMutationBytes)

/-- The requests on which the stores are of one mind: a run identifier is not taken under
another key, attempts belong to runs and their numbers are integers of the database, a mutation
result is within both bounds or beyond both, and the names of the stored runs are listed in the
order of the database. -/
def Admitted (identity : String → ℕ → String) (bucket : Bucket) (step : Step) : Prop :=
  Mirrors settings draws bucket.runs step.request step.mirrored ∧
    match step.request with
    | .call (.claim record) => ValidRecord settings record ∧
        ∀ version other, current bucket.runs (.run record.runId) = some version →
          version.value = .run other → RunRecord.scope other = RunRecord.scope record
    | .call (.save _ record) => ValidRecord settings record
    | .call _ => True
    | .appendAttempt attempt => ValidAttempt settings identity attempt ∧
        attempt.attemptNumber ≤ PostgresqlRunStore.maxInteger ∧
        (current bucket.runs (.run attempt.runId)).isSome
    | .claimMutation keySha256 operation runId result =>
      SameBounds settings keySha256 operation runId result
    | .list cursor _ => ∀ first second,
        (first ∈ runIds bucket.runs ∨ decodeCursor settings.base64 settings.runPrefix cursor =
          .ok (some first)) →
        (second ∈ runIds bucket.runs ∨ decodeCursor settings.base64 settings.runPrefix cursor =
          .ok (some second)) →
        (nameLe first second ↔ collation.le first second)

def SameReply : StoreReply → PostgresqlRunStore.StoreReply → Prop
  | .response (.claim claim), .claim mirrored =>
    SameStored draws history claim.stored mirrored.stored ∧ mirrored.created = claim.created
  | .response (.get found), .found mirrored =>
    Option.Rel (SameStored draws history) found mirrored
  | .response (.findIdempotency found), .found mirrored =>
    Option.Rel (SameStored draws history) found mirrored
  | .response (.save saved), .saved mirrored => SameStored draws history saved mirrored
  | .appended, .appended => True
  | .mutation result, .mutation mirrored => mirrored = result
  | .page page, .page mirrored =>
    List.Forall₂ (SameStored draws history) page.items mirrored.items ∧
      HandedOut settings page.nextCursor mirrored.nextCursor
  | _, _ => False

def SameAnswer : Except RunStoreError StoreReply →
    Except RunStoreError PostgresqlRunStore.StoreReply → Prop
  | .ok reply, .ok mirrored => SameReply settings draws history reply mirrored
  | .error e, .error mirrored => errorClass mirrored = errorClass e
  | _, _ => False

end Statement

section Serving

variable {readable : ObjectValue → Bool} {history : History ObjectName ObjectValue}

@[simp] theorem serve_liftExcept {α : Type} (result : Except RunStoreError α) :
    serve (liftExcept result) history = (result, history) := by
  cases result <;> rfl

theorem serve_map {α β : Type} (p : Action α) (f : α → β) :
    serve (p >>= fun a => .ret (f a)) history = ((serve p history).1.map f, (serve p history).2) := by
  rw [serve_bind]
  split
  next heq =>
    rw [heq]
    rfl
  next heq =>
    rw [heq]
    rfl

theorem serve_readObject (name : ObjectName) (tries : ℕ) :
    serve (readObject readable name (tries + 1)) history =
      (match current history name with
        | none => .ok none
        | some version =>
          if readable version.value then .ok (some (version.value, version.etag))
          else .error (.corruption "An S3 run-store object exceeds its bound."), history) := by
  cases hcurrent : current history name with
  | none => simp [readObject, serve, exec, tag, hcurrent]
  | some version =>
    cases hreadable : readable version.value with
    | true => simp [readObject, serve, exec, tag, hcurrent, hreadable]
    | false => simp [readObject, serve, exec, tag, hcurrent, hreadable]

theorem serve_tryWriteObject (label : ℕ) (name : ObjectName) (value : ObjectValue)
    (expected : Option ℕ) :
    serve (tryWriteObject label name value expected) history =
      if tag history name = expected then
        (.ok (some history.length), ⟨name, some value, label⟩ :: history)
      else (.ok none, history) := by
  by_cases htag : tag history name = expected
  · simp [tryWriteObject, serve, exec, htag]
  · simp [tryWriteObject, serve, exec, htag]

theorem serve_get_none {runId : String} (hid : isOpaqueId runId = true)
    (hcurrent : current history (.run runId) = none) :
    serve (RunStore.get readable runId) history = (.ok none, history) := by
  unfold RunStore.get
  rw [hid, if_neg (by simp), serve_bind, serve_readObject, hcurrent]
  rfl

theorem serve_get_some {runId : String} (hid : isOpaqueId runId = true) {etag : ℕ}
    {record : RunRecord} (hcurrent : current history (.run runId) = some ⟨etag, .run record⟩)
    (hreadable : readable (.run record) = true) (hrun : record.runId = runId) :
    serve (RunStore.get readable runId) history = (.ok (some ⟨record, etag⟩), history) := by
  unfold RunStore.get
  rw [hid, if_neg (by simp), serve_bind, serve_readObject, hcurrent]
  simp [hreadable, hrun, serve]

theorem serve_claimEntry_new {label : ℕ} {record : RunRecord}
    (hcurrent : current history (.idempotency (RunRecord.scope record)) = none) :
    serve (claimEntry readable label (.idempotency (RunRecord.scope record)) record) history =
      (.ok (entryOf record, true),
        ⟨.idempotency (RunRecord.scope record), some (.idempotency (entryOf record)), label⟩ ::
          history) := by
  have htag : tag history (.idempotency (RunRecord.scope record)) = none := by simpa using hcurrent
  unfold claimEntry
  rw [serve_bind, serve_tryWriteObject, if_pos htag]
  rfl

theorem serve_claimEntry_taken {label etag : ℕ} {record : RunRecord} {entry : IdempotencyEntry}
    (hcurrent : current history (.idempotency (RunRecord.scope record)) =
      some ⟨etag, .idempotency entry⟩)
    (hreadable : readable (.idempotency entry) = true) (hentry : entry.isConsistent = true) :
    serve (claimEntry readable label (.idempotency (RunRecord.scope record)) record) history =
      (match validateReplay entry record with
        | .ok () => .ok (entry, false)
        | .error e => .error e, history) := by
  have htag : tag history (.idempotency (RunRecord.scope record)) ≠ none := by
    simp [tag, hcurrent]
  unfold claimEntry
  rw [serve_bind, serve_tryWriteObject, if_neg htag]
  simp only
  rw [serve_bind, serve_readObject, hcurrent]
  simp only [hreadable, if_true]
  rw [serve_bind, serve_liftExcept]
  simp only [deserializeEntry, hentry, if_true]
  rw [serve_bind, serve_liftExcept]
  cases validateReplay entry record <;> rfl

theorem serve_adoptSnapshot_new {label : ℕ} {entry : IdempotencyEntry} {message : String}
    (hid : isOpaqueId entry.runId = true) (hcurrent : current history (.run entry.runId) = none) :
    serve (adoptSnapshot readable label entry message) history =
      (.ok (⟨entry.initialRecord, history.length⟩, false),
        ⟨.run entry.runId, some (.run entry.initialRecord), label⟩ :: history) := by
  have htag : tag history (.run entry.runId) = none := by simpa using hcurrent
  unfold adoptSnapshot
  rw [serve_bind, serve_get_none hid hcurrent]
  simp only
  rw [serve_bind, serve_tryWriteObject, if_pos htag]
  rfl

theorem serve_adoptSnapshot_found {label etag : ℕ} {entry : IdempotencyEntry}
    {record : RunRecord} {message : String} (hid : isOpaqueId entry.runId = true)
    (hcurrent : current history (.run entry.runId) = some ⟨etag, .run record⟩)
    (hreadable : readable (.run record) = true) (hrun : record.runId = entry.runId)
    (hsame : validateSnapshotReplay entry record = .ok ()) :
    serve (adoptSnapshot readable label entry message) history =
      (.ok (⟨record, etag⟩, false), history) := by
  unfold adoptSnapshot
  rw [serve_bind, serve_get_some hid hcurrent hreadable hrun]
  simp only
  rw [serve_bind, serve_liftExcept, hsame]
  rfl

theorem serve_findIdempotency_free {label : ℕ} {scope : Scope}
    (hname : idempotencyName scope = .ok (.idempotency scope))
    (hcurrent : current history (.idempotency scope) = none) :
    serve (findIdempotency readable label scope) history = (.ok none, history) := by
  unfold findIdempotency
  rw [hname, serve_bind, serve_liftExcept]
  simp only
  rw [serve_bind, serve_readObject, hcurrent]
  rfl

theorem serve_findIdempotency_taken {label etag tag : ℕ} {scope : Scope}
    {entry : IdempotencyEntry} {record : RunRecord}
    (hname : idempotencyName scope = .ok (.idempotency scope))
    (hcurrent : current history (.idempotency scope) = some ⟨etag, .idempotency entry⟩)
    (hreadable : readable (.idempotency entry) = true) (hentry : entry.isConsistent = true)
    (hscope : scope = ⟨entry.environment, entry.project, entry.keySha256⟩)
    (hid : isOpaqueId entry.runId = true)
    (hrun : current history (.run entry.runId) = some ⟨tag, .run record⟩)
    (hfits : readable (.run record) = true) (hrunId : record.runId = entry.runId)
    (hsame : validateSnapshotReplay entry record = .ok ()) :
    serve (findIdempotency readable label scope) history =
      (.ok (some ⟨record, tag⟩), history) := by
  have haddressed : (entry.environment ≠ scope.environment || entry.project ≠ scope.project ||
      entry.keySha256 ≠ scope.keySha256) = false := by simp [hscope]
  unfold findIdempotency
  rw [hname, serve_bind, serve_liftExcept]
  simp only
  rw [serve_bind, serve_readObject, hcurrent]
  simp only [hreadable, if_true]
  rw [serve_bind, serve_liftExcept]
  simp only [deserializeEntry, hentry, if_true]
  rw [if_neg (by simpa using haddressed), serve_map,
    serve_adoptSnapshot_found hid hrun hfits hrunId hsame]
  rfl

theorem serve_claim_new {label : ℕ} {record : RunRecord}
    (hinitial : validateInitialRecord record = true)
    (hname : idempotencyName (RunRecord.scope record) = .ok (.idempotency (RunRecord.scope record)))
    (hentry : current history (.idempotency (RunRecord.scope record)) = none)
    (hid : isOpaqueId record.runId = true) (hrun : current history (.run record.runId) = none) :
    serve (claim readable label record) history =
      (.ok ⟨⟨record, history.length + 1⟩, true⟩,
        ⟨.run record.runId, some (.run record), label⟩ ::
          ⟨.idempotency (RunRecord.scope record), some (.idempotency (entryOf record)), label⟩ ::
            history) := by
  have hstill : current (⟨.idempotency (RunRecord.scope record),
      some (.idempotency (entryOf record)), label⟩ :: history) (.run (entryOf record).runId) =
        none := by
    rw [current_cons_of_ne (by simp)]
    exact hrun
  unfold claim
  rw [if_neg (by simp [hinitial]), serve_bind, hname, serve_liftExcept]
  simp only
  rw [serve_bind, serve_claimEntry_new hentry]
  simp only
  rw [serve_map, serve_adoptSnapshot_new hid hstill]
  rfl

theorem serve_claim_taken {label etag tag : ℕ} {record stored : RunRecord}
    {entry : IdempotencyEntry} (hinitial : validateInitialRecord record = true)
    (hname : idempotencyName (RunRecord.scope record) = .ok (.idempotency (RunRecord.scope record)))
    (hcurrent : current history (.idempotency (RunRecord.scope record)) =
      some ⟨etag, .idempotency entry⟩)
    (hreadable : readable (.idempotency entry) = true) (hentry : entry.isConsistent = true)
    (hid : isOpaqueId entry.runId = true)
    (hrun : current history (.run entry.runId) = some ⟨tag, .run stored⟩)
    (hfits : readable (.run stored) = true) (hrunId : stored.runId = entry.runId)
    (hsame : validateSnapshotReplay entry stored = .ok ()) :
    serve (claim readable label record) history =
      ((validateReplay entry record).map fun _ => ⟨⟨stored, tag⟩, false⟩, history) := by
  unfold claim
  rw [if_neg (by simp [hinitial]), serve_bind, hname, serve_liftExcept]
  simp only
  rw [serve_bind, serve_claimEntry_taken hcurrent hreadable hentry]
  cases validateReplay entry record with
  | error e => rfl
  | ok _ =>
    simp only
    rw [serve_map, serve_adoptSnapshot_found hid hrun hfits hrunId hsame]
    rfl

theorem serve_save {label : ℕ} {stored : StoredRun} {record : RunRecord}
    (hidentity : sameRunIdentity stored.record record = true) :
    serve (save label stored record) history =
      if tag history (.run record.runId) = some stored.revision then
        (.ok ⟨record, history.length⟩, ⟨.run record.runId, some (.run record), label⟩ :: history)
      else (.error (.conflict "The S3 run-store precondition failed."), history) := by
  unfold save
  rw [if_neg (by simp [hidentity]), serve_bind, serve_tryWriteObject]
  by_cases htag : tag history (.run record.runId) = some stored.revision
  · rw [if_pos htag, if_pos htag]
    rfl
  · rw [if_neg htag, if_neg htag]
    rfl

end Serving

section Relation

variable (settings : Settings) (draws : ℕ → String) (identity : String → ℕ → String)

/-- A snapshot in the bucket and a row of the database, written by one call. -/
def SameRun (history : History ObjectName ObjectValue) (version : Version ObjectValue)
    (row : RunRow) : Prop :=
  ∃ record author, version.value = .run record ∧ Wrote history version.etag record author ∧
    row = rowOf record (draws author) ∧ ValidRecord settings record

/-- An idempotency entry and the row of the run it names. -/
def SameEntry (version : Version ObjectValue) (row : RunRow) : Prop :=
  ∃ entry, version.value = .idempotency entry ∧ settings.readable (.idempotency entry) = true ∧
    entry.isConsistent = true ∧
    row.scope = ⟨entry.environment, entry.project, entry.keySha256⟩ ∧
    row.runId = entry.runId ∧ row.submissionSha256 = entry.submissionSha256

def SameAttempt (version : Version AttemptRecord) (row : AttemptRow) : Prop :=
  row = PostgresqlRunStore.attemptRow version.value ∧
    ValidAttempt settings identity version.value

/-- What a claim and a stored entry pass in both stores. -/
structure ValidMutation (keySha256 operation runId canonical : String) : Prop where
  key : isSha256 keySha256 = true
  portable : isPortableId operation = true
  opaqueId : isOpaqueId runId = true
  fits : MutationEntry.fits ⟨keySha256, operation, runId, canonical⟩ = true
  canonical : PostgresqlRunStore.canonicalMutationResult settings.codec canonical = .ok canonical

/-- A mutation entry and a row that both stores take for canonical and within their bounds. -/
def SameMutation (version : Version MutationEntry) (row : MutationRow) : Prop :=
  row = ⟨version.value.keySha256, version.value.operation, version.value.runId,
      version.value.result⟩ ∧
    ValidMutation settings version.value.keySha256 version.value.operation version.value.runId
      version.value.result

/-- What holds between the stores after the calls with the given labels. -/
structure Agreed (done : List ℕ) (bucket : Bucket) (db : Database) : Prop where
  nodup : (db.runs.map RunRow.runId).Nodup
  runs : ∀ runId, Option.Rel (SameRun settings draws bucket.runs)
    (current bucket.runs (.run runId)) (db.run runId)
  entries : ∀ scope, Option.Rel (SameEntry settings)
    (current bucket.runs (.idempotency scope)) (db.claimed scope)
  once : ∀ etag etag' record record' author, Wrote bucket.runs etag record author →
    Wrote bucket.runs etag' record' author → etag = etag'
  drawn : ∀ write ∈ bucket.runs, write.author ∈ done
  attempts : ∀ key, Option.Rel (SameAttempt settings identity)
    (current bucket.attempts key) (db.attempt key)
  attemptRows : ∀ row ∈ db.attempts, ∃ attempt,
    row = PostgresqlRunStore.attemptRow attempt ∧ ValidAttempt settings identity attempt
  mutations : ∀ keySha256, Option.Rel (SameMutation settings)
    (current bucket.mutations keySha256) (db.mutation keySha256)

theorem Agreed.empty : Agreed settings draws identity [] Bucket.empty Database.empty where
  nodup := List.nodup_nil
  runs _ := .none
  entries _ := .none
  once _ _ _ _ _ hwrote := nomatch hwrote
  drawn := by simp [Bucket.empty]
  attempts _ := .none
  attemptRows := by simp [Database.empty]
  mutations _ := .none

end Relation

section Reads

variable {settings : Settings} {draws : ℕ → String} {identity : String → ℕ → String}
  {done : List ℕ} {bucket : Bucket} {db : Database}

theorem storedRunFromRow_of_valid {record : RunRecord} {revision : String}
    (hrecord : ValidRecord settings record) (hrevision : isSha256 revision = true)
    {expectedRunId : Option String} {expectedLookup : Option Scope}
    (hrunId : ∀ runId ∈ expectedRunId, record.runId = runId)
    (hlookup : ∀ scope ∈ expectedLookup, RunRecord.scope record = scope) :
    storedRunFromRow (rowOf record revision) expectedRunId expectedLookup =
      .ok ⟨record, revision⟩ := by
  have hany : expectedRunId.any (fun runId => (rowOf record revision).runId ≠ runId) = false := by
    cases expectedRunId with
    | none => rfl
    | some runId =>
      have hkey : (rowOf record revision).runId = runId := hrunId runId rfl
      simp [hkey]
  have hany' : expectedLookup.any (fun scope => (rowOf record revision).scope ≠ scope) = false := by
    cases expectedLookup with
    | none => rfl
    | some scope =>
      have hkey : (rowOf record revision).scope = scope := hlookup scope rfl
      simp [hkey]
  unfold storedRunFromRow
  rw [hany, hany']
  simp [rowOf, PostgresqlRunStore.checkedId, PostgresqlRunStore.checkedRevision, hrecord.runId,
    hrecord.environment, hrecord.project, hrecord.key, hrecord.submission, hrevision, bind,
    Except.bind, pure, Except.pure]

/-- The two stores hold no run with an identifier, or the same record written by one call. -/
theorem Agreed.run_cases (h : Agreed settings draws identity done bucket db) (runId : String) :
    (current bucket.runs (.run runId) = none ∧ db.run runId = none) ∨
      ∃ etag record author, current bucket.runs (.run runId) = some ⟨etag, .run record⟩ ∧
        record.runId = runId ∧ Wrote bucket.runs etag record author ∧ author ∈ done ∧
        db.run runId = some (rowOf record (draws author)) ∧ ValidRecord settings record := by
  cases hcurrent : current bucket.runs (.run runId) with
  | none =>
    have hrel := h.runs runId
    rw [hcurrent] at hrel
    cases hrow : db.run runId with
    | none => exact .inl ⟨rfl, rfl⟩
    | some row =>
      rw [hrow] at hrel
      cases hrel
  | some version =>
    have hrel := h.runs runId
    rw [hcurrent] at hrel
    cases hrow : db.run runId with
    | none =>
      rw [hrow] at hrel
      cases hrel
    | some row =>
      rw [hrow] at hrel
      obtain ⟨⟨record, author, hvalue, hwrote, rfl, hvalid⟩⟩ := hrel
      obtain ⟨etag, value⟩ := version
      simp only at hvalue hwrote
      subst hvalue
      have hrunId : (rowOf record (draws author)).runId = runId := Tables.key_of_select hrow
      have hauthor : author ∈ done := h.drawn _ (mem_of_recorded hwrote)
      exact .inr ⟨etag, record, author, rfl, hrunId, hwrote, hauthor, rfl, hvalid⟩

/-- A key is free in both stores, or its entry names the run of its row. -/
theorem Agreed.entry_cases (h : Agreed settings draws identity done bucket db) (scope : Scope) :
    (current bucket.runs (.idempotency scope) = none ∧ db.claimed scope = none) ∨
      ∃ etag entry tag record author,
        current bucket.runs (.idempotency scope) = some ⟨etag, .idempotency entry⟩ ∧
        settings.readable (.idempotency entry) = true ∧ entry.isConsistent = true ∧
        scope = ⟨entry.environment, entry.project, entry.keySha256⟩ ∧
        current bucket.runs (.run entry.runId) = some ⟨tag, .run record⟩ ∧
        record.runId = entry.runId ∧ RunRecord.scope record = scope ∧
        record.submissionSha256 = entry.submissionSha256 ∧
        Wrote bucket.runs tag record author ∧ author ∈ done ∧
        db.claimed scope = some (rowOf record (draws author)) ∧ ValidRecord settings record := by
  cases hcurrent : current bucket.runs (.idempotency scope) with
  | none =>
    have hrel := h.entries scope
    rw [hcurrent] at hrel
    cases hrow : db.claimed scope with
    | none => exact .inl ⟨rfl, rfl⟩
    | some row =>
      rw [hrow] at hrel
      cases hrel
  | some version =>
    have hrel := h.entries scope
    rw [hcurrent] at hrel
    cases hrow : db.claimed scope with
    | none =>
      rw [hrow] at hrel
      cases hrel
    | some row =>
      rw [hrow] at hrel
      obtain ⟨⟨entry, hvalue, hreadable, hentry, hscope, hrunId, hsubmission⟩⟩ := hrel
      obtain ⟨etag, value⟩ := version
      simp only at hvalue
      subst hvalue
      have hkey : row.scope = scope := Tables.key_of_select hrow
      have hselect : db.run row.runId = some row :=
        Tables.select_of_mem h.nodup (Tables.mem_of_select hrow)
      obtain ⟨-, hnone⟩ | ⟨tag, record, author, hrun, hrecord, hwrote, hauthor, hsome, hvalid⟩ :=
        h.run_cases row.runId
      · rw [hselect] at hnone
        cases hnone
      · obtain rfl : row = rowOf record (draws author) := Option.some.inj (hselect.symm.trans hsome)
        rw [hrunId] at hrun
        exact .inr ⟨etag, entry, tag, record, author, rfl, hreadable, hentry, hkey ▸ hscope, hrun,
          hrunId, hkey, hsubmission, hwrote, hauthor, rfl, hvalid⟩

theorem Agreed.later (h : Agreed settings draws identity done bucket db) (label : ℕ) :
    Agreed settings draws identity (label :: done) bucket db :=
  { h with drawn := fun write hwrite => List.mem_cons_of_mem _ (h.drawn write hwrite) }

variable {collation : Collation} {label : ℕ}

/-- One call of both stores: the answers agree, and so do the stores afterwards. -/
def Answered (settings : Settings) (collation : Collation) (draws : ℕ → String)
    (identity : String → ℕ → String) (done : List ℕ) (bucket : Bucket) (db : Database)
    (step : Step) : Prop :=
  SameAnswer settings draws (bucket.perform settings step.label step.request).2.runs
      (bucket.perform settings step.label step.request).1
      (PostgresqlRunStore.perform settings.base64 settings.codec collation (draws step.label) db
        step.mirrored).1 ∧
    Agreed settings draws identity (step.label :: done)
      (bucket.perform settings step.label step.request).2
      (PostgresqlRunStore.perform settings.base64 settings.codec collation (draws step.label) db
        step.mirrored).2

theorem Agreed.get (h : Agreed settings draws identity done bucket db)
    (hdraws : ∀ author ∈ done, isSha256 (draws author) = true) (runId : String) :
    Answered settings collation draws identity done bucket db
      ⟨label, .call (.get runId), .get runId⟩ := by
  unfold Answered Bucket.perform PostgresqlRunStore.perform
  simp only [RunStore.perform]
  rw [serve_map]
  cases hid : isOpaqueId runId with
  | false =>
    have hserve : serve (RunStore.get settings.readable runId) bucket.runs =
        (.error (.corruption "The S3 run-store run identifier is invalid."), bucket.runs) := by
      simp [RunStore.get, hid, serve]
    rw [hserve]
    simp only [PostgresqlRunStore.get, PostgresqlRunStore.checkedId, hid, bind, Except.bind,
      Except.map, PostgresqlRunStore.committed]
    exact ⟨rfl, h.later label⟩
  | true =>
    obtain ⟨hcurrent, hrow⟩ | ⟨etag, record, author, hcurrent, hrunId, hwrote, hauthor, hrow, hvalid⟩ :=
      h.run_cases runId
    · rw [serve_get_none hid hcurrent]
      simp only [PostgresqlRunStore.get, PostgresqlRunStore.checkedId, hid, hrow, bind, Except.bind,
        Except.map, PostgresqlRunStore.committed]
      exact ⟨.none, h.later label⟩
    · have hread : storedRunFromRow (rowOf record (draws author)) (some runId) none =
          .ok ⟨record, draws author⟩ :=
        storedRunFromRow_of_valid hvalid (hdraws author hauthor) (by simpa using hrunId) (by simp)
      rw [serve_get_some hid hcurrent hvalid.snapshotFits hrunId]
      simp only [PostgresqlRunStore.get, PostgresqlRunStore.checkedId, hid, hrow, hread, bind,
        Except.bind, Except.map, PostgresqlRunStore.committed]
      exact ⟨.some ⟨rfl, author, hwrote, rfl⟩, h.later label⟩

/-- Both stores check the parts of a scope, and fail alike. -/
theorem findIdempotency_checked (db : Database) (scope : Scope) :
    (idempotencyName scope = .ok (.idempotency scope) ∧
      PostgresqlRunStore.findIdempotency db scope =
        match db.claimed scope with
        | none => .ok none
        | some row => (storedRunFromRow row none (some scope)).map some) ∨
    ∃ message message', idempotencyName scope = .error (.corruption message) ∧
      PostgresqlRunStore.findIdempotency db scope = .error (.corruption message') := by
  unfold idempotencyName PostgresqlRunStore.findIdempotency PostgresqlRunStore.checkedId
  cases henvironment : isPortableId scope.environment with
  | false => exact .inr ⟨_, _, rfl, rfl⟩
  | true =>
    cases hproject : isPortableId scope.project with
    | false => exact .inr ⟨_, _, rfl, rfl⟩
    | true =>
      cases hkey : isSha256 scope.keySha256 with
      | false => exact .inr ⟨_, _, rfl, rfl⟩
      | true =>
        refine .inl ⟨rfl, ?_⟩
        cases db.claimed scope with
        | none => rfl
        | some row =>
          cases hstored : storedRunFromRow row none (some scope) with
          | error e => simp [hstored, bind, Except.bind, Except.map]
          | ok stored => simp [hstored, bind, Except.bind, Except.map, pure, Except.pure]

/-- A snapshot of the run an entry names confirms the entry. -/
theorem validateSnapshotReplay_of_entry {entry : IdempotencyEntry} {record : RunRecord}
    (hrunId : record.runId = entry.runId)
    (hscope : RunRecord.scope record = ⟨entry.environment, entry.project, entry.keySha256⟩)
    (hsubmission : record.submissionSha256 = entry.submissionSha256) :
    validateSnapshotReplay entry record = .ok () := by
  simp only [RunRecord.scope, Scope.mk.injEq] at hscope
  simp [validateSnapshotReplay, hrunId, hscope.1, hscope.2.1, hscope.2.2, hsubmission]

theorem Agreed.findIdempotency (h : Agreed settings draws identity done bucket db)
    (hdraws : ∀ author ∈ done, isSha256 (draws author) = true) (scope : Scope) :
    Answered settings collation draws identity done bucket db
      ⟨label, .call (.findIdempotency scope), .findIdempotency scope⟩ := by
  unfold Answered Bucket.perform PostgresqlRunStore.perform
  simp only [RunStore.perform]
  rw [serve_map]
  obtain ⟨hname, hfind⟩ | ⟨message, message', hname, hfind⟩ :=
    findIdempotency_checked db scope
  · obtain ⟨hcurrent, hrow⟩ | ⟨etag, entry, tag, record, author, hcurrent, hreadable, hentry,
      hscope, hrun, hrunId, hrecord, hsubmission, hwrote, hauthor, hrow, hvalid⟩ :=
      h.entry_cases scope
    · rw [serve_findIdempotency_free hname hcurrent, hfind, hrow]
      exact ⟨.none, h.later label⟩
    · have hopaque : isOpaqueId entry.runId = true := hrunId ▸ hvalid.runId
      have hread : storedRunFromRow (rowOf record (draws author)) none (some scope) =
          .ok ⟨record, draws author⟩ :=
        storedRunFromRow_of_valid hvalid (hdraws author hauthor) (by simp) (by simpa using hrecord)
      rw [serve_findIdempotency_taken hname hcurrent hreadable hentry hscope hopaque hrun
        hvalid.snapshotFits hrunId
        (validateSnapshotReplay_of_entry hrunId (hrecord.trans hscope) hsubmission), hfind, hrow]
      simp only [hread]
      exact ⟨.some ⟨rfl, author, hwrote, rfl⟩, h.later label⟩
  · have hserve : serve (RunStore.findIdempotency settings.readable label scope) bucket.runs =
        (.error (.corruption message), bucket.runs) := by
      unfold RunStore.findIdempotency
      rw [hname]
      rfl
    rw [hserve, hfind]
    exact ⟨rfl, h.later label⟩

end Reads

end Dander.RunStoreAgreement
