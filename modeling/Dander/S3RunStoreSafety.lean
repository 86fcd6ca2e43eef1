import Dander.S3RunStore

/-!
# Claims and saves of the S3 run store under interleaving
-/
namespace Dander.RunStore

open Interleaving ObjectStore Orchestration

section Invariant

abbrev RunHistory := History ObjectName ObjectValue

def IdempotencyEntry.scope (entry : IdempotencyEntry) : Scope :=
  ⟨entry.environment, entry.project, entry.keySha256⟩

/-- The run identifier of a scope. -/
def Scope.runIdentity (sha256 : String → String) (scope : Scope) : String :=
  Orchestration.runIdentity sha256 scope.environment scope.project scope.keySha256

/-- The entry stored under a scope. -/
def Holds (history : RunHistory) (scope : Scope) (entry : IdempotencyEntry) : Prop :=
  ∃ etag, current history (.idempotency scope) = some ⟨etag, .idempotency entry⟩

/-- What is true of an entry that was written for a scope. -/
structure EntryFor (sha256 : String → String) (scope : Scope) (entry : IdempotencyEntry) :
    Prop where
  consistent : entry.isConsistent = true
  scope_eq : entry.scope = scope
  runId_eq : entry.runId = scope.runIdentity sha256

/-- Every write ever applied is an entry, the only one of its scope, or a snapshot with the
identity of its scope's entry. -/
structure Consistent (sha256 : String → String) (history : RunHistory) : Prop where
  entries : ∀ write ∈ history, ∀ scope, write.name = .idempotency scope →
    ∃ entry, write.value = some (.idempotency entry) ∧ EntryFor sha256 scope entry ∧
      Holds history scope entry
  runs : ∀ write ∈ history, ∀ runId, write.name = .run runId →
    ∃ record entry, write.value = some (.run record) ∧ record.runId = runId ∧
      Holds history (RunRecord.scope record) entry ∧
      entry.initialRecord.identity = record.identity

/-- Histories only grow, and a stored entry is never replaced. -/
def Grows (history later : RunHistory) : Prop :=
  history <:+ later ∧ ∀ scope version, current history (.idempotency scope) = some version →
    current later (.idempotency scope) = some version

def discipline (sha256 : String → String) : Discipline RunHistory where
  inv := Consistent sha256
  le := Grows
  refl history := ⟨List.suffix_refl history, fun _ _ h => h⟩
  trans _ _ _ hab hbc :=
    ⟨hab.1.trans hbc.1, fun scope version h => hbc.2 scope version (hab.2 scope version h)⟩

variable {sha256 : String → String} {history later : RunHistory}

theorem Holds.mono {scope : Scope} {entry : IdempotencyEntry} (h : Holds history scope entry)
    (hle : Grows history later) : Holds later scope entry := by
  obtain ⟨etag, hcurrent⟩ := h
  exact ⟨etag, hle.2 scope _ hcurrent⟩

theorem Holds.unique {scope : Scope} {entry other : IdempotencyEntry}
    (h : Holds history scope entry) (h' : Holds history scope other) : entry = other := by
  obtain ⟨etag, hcurrent⟩ := h
  obtain ⟨etag', hcurrent'⟩ := h'
  rw [hcurrent] at hcurrent'
  simpa using congrArg (Option.map Version.value) hcurrent'

theorem scope_eq_of_identity {first second : RunRecord} (h : first.identity = second.identity) :
    RunRecord.scope first = RunRecord.scope second := by
  simp only [RunRecord.identity, RunIdentity.mk.injEq] at h
  simp [RunRecord.scope, h]

/-- A value read under a scope's name is the entry of the scope. -/
theorem Consistent.entry_of_current (hinv : Consistent sha256 history) {scope : Scope}
    {version : Version ObjectValue}
    (h : current history (.idempotency scope) = some version) :
    ∃ entry, version.value = .idempotency entry ∧ EntryFor sha256 scope entry ∧
      Holds history scope entry := by
  obtain ⟨author, hrecorded⟩ := recorded_of_current h
  obtain ⟨entry, hvalue, hentry, hholds⟩ := hinv.entries _ (mem_of_recorded hrecorded) scope rfl
  exact ⟨entry, by simpa using hvalue, hentry, hholds⟩

/-- A value read under a run's name is a snapshot with the identity of its entry. -/
theorem Consistent.run_of_current (hinv : Consistent sha256 history) {runId : String}
    {version : Version ObjectValue} (h : current history (.run runId) = some version) :
    ∃ record entry, version.value = .run record ∧ record.runId = runId ∧
      Holds history (RunRecord.scope record) entry ∧
      entry.initialRecord.identity = record.identity := by
  obtain ⟨author, hrecorded⟩ := recorded_of_current h
  obtain ⟨record, entry, hvalue, hrest⟩ := hinv.runs _ (mem_of_recorded hrecorded) runId rfl
  exact ⟨record, entry, by simpa using hvalue, hrest⟩

end Invariant

section Writes

variable {sha256 : String → String} {history : RunHistory}

/-- A write that creates its object or replaces a snapshot leaves every entry in place. -/
theorem grows_cons {write : Write ObjectName ObjectValue}
    (h : ∀ scope, write.name = .idempotency scope →
      current history (.idempotency scope) = none) :
    Grows history (write :: history) := by
  refine ⟨List.suffix_cons write history, ?_⟩
  intro scope version hcurrent
  by_cases hname : write.name = .idempotency scope
  · rw [h scope hname] at hcurrent
    cases hcurrent
  · rw [current_cons_of_ne hname]
    exact hcurrent

theorem Consistent.cons (hinv : Consistent sha256 history)
    {write : Write ObjectName ObjectValue} (hle : Grows history (write :: history))
    (hentry : ∀ scope, write.name = .idempotency scope →
      ∃ entry, write.value = some (.idempotency entry) ∧ EntryFor sha256 scope entry)
    (hrun : ∀ runId, write.name = .run runId →
      ∃ record entry, write.value = some (.run record) ∧ record.runId = runId ∧
        Holds history (RunRecord.scope record) entry ∧
        entry.initialRecord.identity = record.identity) :
    Consistent sha256 (write :: history) := by
  constructor
  · intro other hmem scope hname
    rcases List.mem_cons.mp hmem with rfl | hold
    · obtain ⟨entry, hvalue, hgood⟩ := hentry scope hname
      refine ⟨entry, hvalue, hgood, history.length, ?_⟩
      rw [← hname, current_cons_self, hvalue]
      rfl
    · obtain ⟨entry, hvalue, hgood, hholds⟩ := hinv.entries other hold scope hname
      exact ⟨entry, hvalue, hgood, hholds.mono hle⟩
  · intro other hmem runId hname
    rcases List.mem_cons.mp hmem with rfl | hold
    · obtain ⟨record, entry, hvalue, hid, hholds, hsame⟩ := hrun runId hname
      exact ⟨record, entry, hvalue, hid, hholds.mono hle, hsame⟩
    · obtain ⟨record, entry, hvalue, hid, hholds, hsame⟩ := hinv.runs other hold runId hname
      exact ⟨record, entry, hvalue, hid, hholds.mono hle, hsame⟩

/-- Creating the entry of a free scope. -/
theorem Consistent.create_entry (hinv : Consistent sha256 history) {entry : IdempotencyEntry}
    {scope : Scope} (hfree : current history (.idempotency scope) = none)
    (hentry : EntryFor sha256 scope entry) (author : ℕ) :
    Consistent sha256 (⟨.idempotency scope, some (.idempotency entry), author⟩ :: history) ∧
      Grows history (⟨.idempotency scope, some (.idempotency entry), author⟩ :: history) := by
  have hle : Grows history
      (⟨.idempotency scope, some (.idempotency entry), author⟩ :: history) := by
    apply grows_cons
    intro other hname
    cases hname
    exact hfree
  refine ⟨hinv.cons hle ?_ ?_, hle⟩
  · intro other hname
    cases hname
    exact ⟨entry, rfl, hentry⟩
  · intro runId hname
    cases hname

/-- Writing a snapshot that keeps the identity of its entry. -/
theorem Consistent.write_run (hinv : Consistent sha256 history) {record : RunRecord}
    {entry : IdempotencyEntry} (hholds : Holds history (RunRecord.scope record) entry)
    (hsame : entry.initialRecord.identity = record.identity) (author : ℕ) :
    Consistent sha256 (⟨.run record.runId, some (.run record), author⟩ :: history) ∧
      Grows history (⟨.run record.runId, some (.run record), author⟩ :: history) := by
  have hle : Grows history (⟨.run record.runId, some (.run record), author⟩ :: history) := by
    apply grows_cons
    intro other hname
    cases hname
  refine ⟨hinv.cons hle ?_ ?_, hle⟩
  · intro other hname
    cases hname
  · intro runId hname
    cases hname
    exact ⟨record, entry, rfl, rfl, hholds, hsame⟩

end Writes

section Programs

variable {sha256 : String → String} {readable : ObjectValue → Bool}

/-- A snapshot with a revision the store gave to it. -/
def Genuine (history : RunHistory) (stored : StoredRun) : Prop :=
  ∃ author, recorded history stored.revision =
    some ⟨.run stored.record.runId, some (.run stored.record), author⟩

theorem Genuine.mono {history later : RunHistory} {stored : StoredRun}
    (h : Genuine history stored) (hle : Grows history later) : Genuine later stored := by
  obtain ⟨author, hrecorded⟩ := h
  exact ⟨author, recorded_mono hle.1 hrecorded⟩

/-- A snapshot as the store returns it: genuine, and with the identity of its entry. -/
def Faithful (history : RunHistory) (stored : StoredRun) : Prop :=
  Genuine history stored ∧ ∃ entry, Holds history (RunRecord.scope stored.record) entry ∧
    entry.initialRecord.identity = stored.record.identity

theorem Faithful.mono {history later : RunHistory} {stored : StoredRun}
    (h : Faithful history stored) (hle : Grows history later) : Faithful later stored := by
  obtain ⟨hgenuine, entry, hholds, hsame⟩ := h
  exact ⟨hgenuine.mono hle, entry, hholds.mono hle, hsame⟩

section Read

variable {name : ObjectName} {Q : Option (ObjectValue × ℕ) → RunHistory → Prop}
  {E : RunStoreError → RunHistory → Prop} {s : RunHistory}

/-- One try of a pinned read, given what the next tries do when the object moved. -/
theorem safe_readObject_once (tries : ℕ)
    (hfailure : ∀ message t, Grows s t → E (.failure message) t)
    (hretry : ∀ t u etag, Grows s t → Grows t u → tag t name = some etag →
      tag u name ≠ some etag →
      Safe machine (discipline sha256) Q E (readObject readable name tries) u)
    (hunreadable : ∀ t etag value message, Grows s t → Consistent sha256 t →
      current t name = some ⟨etag, value⟩ → readable value = false →
      E (.corruption message) t)
    (hnone : ∀ t, Grows s t → Consistent sha256 t → current t name = none → Q none t)
    (hsome : ∀ t etag value, Grows s t → Consistent sha256 t →
      current t name = some ⟨etag, value⟩ → readable value = true →
      Q (some (value, etag)) t) :
    Safe machine (discipline sha256) Q E (readObject readable name (tries + 1)) s := by
  have htrans := (discipline sha256).trans
  apply safe_head
  · intro t ht
    exact hfailure _ t ht
  · intro t ht hinv
    cases htag : tag t name with
    | none => exact hnone t ht hinv (tag_eq_none.mp htag)
    | some etag =>
      apply safe_get
      · intro u hu
        exact hfailure _ u (htrans _ _ _ ht hu)
      · intro u hu _ hother
        exact hretry t u etag ht hu htag hother
      · intro u hu hinv' value hcurrent
        have hsu := htrans _ _ _ ht hu
        by_cases hread : readable value = true
        · simp only [hread, if_true]
          exact hsome u etag value hsu hinv' hcurrent hread
        · simp only [hread]
          exact hunreadable u etag value _ hsu hinv' hcurrent (by simpa using hread)

/-- A pinned read ends with the object absent, with its value, or with an error that the
state at the end explains. -/
theorem safe_readObject (tries : ℕ)
    (hfailure : ∀ message t, Grows s t → E (.failure message) t)
    (hmoved : ∀ t u etag message, Grows s t → Grows t u → tag t name = some etag →
      tag u name ≠ some etag → E (.conflict message) u)
    (hunreadable : ∀ t etag value message, Grows s t → Consistent sha256 t →
      current t name = some ⟨etag, value⟩ → readable value = false →
      E (.corruption message) t)
    (hnone : ∀ t, Grows s t → Consistent sha256 t → current t name = none → Q none t)
    (hsome : ∀ t etag value, Grows s t → Consistent sha256 t →
      current t name = some ⟨etag, value⟩ → readable value = true →
      Q (some (value, etag)) t) :
    Safe machine (discipline sha256) Q E (readObject readable name (tries + 1)) s := by
  have htrans := (discipline sha256).trans
  induction tries generalizing s with
  | zero =>
    refine safe_readObject_once 0 hfailure ?_ hunreadable hnone hsome
    intro t u etag ht hu htag hother
    exact hmoved t u etag _ ht hu htag hother
  | succ tries ih =>
    refine safe_readObject_once (tries + 1) hfailure ?_ hunreadable hnone hsome
    intro t u etag ht hu _ _
    have hsu := htrans _ _ _ ht hu
    exact ih (fun m v hv => hfailure m v (htrans _ _ _ hsu hv))
      (fun v w e m hv => hmoved v w e m (htrans _ _ _ hsu hv))
      (fun v e x m hv => hunreadable v e x m (htrans _ _ _ hsu hv))
      (fun v hv => hnone v (htrans _ _ _ hsu hv))
      (fun v e x hv => hsome v e x (htrans _ _ _ hsu hv))

end Read

/-- A snapshot that was read is the genuine one of its run. -/
theorem safe_get_run {runId : String} {s : RunHistory} :
    Safe machine (discipline sha256)
      (fun loaded t => ∀ stored, loaded = some stored →
        Faithful t stored ∧ stored.record.runId = runId)
      (fun _ _ => True) (get readable runId) s := by
  unfold get
  split
  · trivial
  · refine Safe.bind (Q := fun loaded t => ∀ value etag, loaded = some (value, etag) →
      ∃ record, value = .run record ∧ record.runId = runId ∧ Faithful t ⟨record, etag⟩) ?_ ?_
    · apply safe_readObject 2
      · intros
        trivial
      · intros
        trivial
      · intros
        trivial
      · intro t _ _ _ value etag h
        cases h
      · intro t etag value ht hinv hcurrent _ value' etag' h
        cases h
        obtain ⟨record, entry, hvalue, hid, hholds, hsame⟩ := hinv.run_of_current hcurrent
        obtain ⟨author, hrecorded⟩ := recorded_of_current hcurrent
        subst hvalue
        subst hid
        exact ⟨record, rfl, rfl, ⟨author, hrecorded⟩, entry, hholds, hsame⟩
    · intro loaded t _ hloaded
      match loaded with
      | none => intro stored h; cases h
      | some (.idempotency _, _) => trivial
      | some (.run record, etag) =>
        obtain ⟨record', heq, hid, hfaithful⟩ := hloaded _ _ rfl
        cases heq
        simp only [hid, ne_eq, not_true_eq_false, if_false]
        intro stored h
        cases h
        exact ⟨hfaithful, hid⟩

/-- A conditional write that its caller handles: what must hold when it is applied. -/
theorem safe_tryWriteObject {label : ℕ} {name : ObjectName} {value : ObjectValue}
    {expected : Option ℕ} {s : RunHistory} {Q : Option ℕ → RunHistory → Prop}
    {E : RunStoreError → RunHistory → Prop}
    (hfailure : ∀ message t, Grows s t → E (.failure message) t)
    (hconflict : ∀ t, Grows s t → Consistent sha256 t → tag t name ≠ expected → Q none t)
    (hok : ∀ t, Grows s t → Consistent sha256 t → tag t name = expected →
      (Consistent sha256 (⟨name, some value, label⟩ :: t) ∧
        Grows t (⟨name, some value, label⟩ :: t)) ∧
        Q (some t.length) (⟨name, some value, label⟩ :: t)) :
    Safe machine (discipline sha256) Q E (tryWriteObject label name value expected) s := by
  apply safe_put
  · intro t ht
    exact hfailure _ t ht
  · intro t ht hinv htag
    exact hconflict t ht hinv htag
  · intro t ht hinv htag
    obtain ⟨⟨hinv', hle'⟩, hpost⟩ := hok t ht hinv htag
    exact ⟨hinv', hle', hpost⟩

/-- A computation without store calls ends where it began. -/
theorem safe_liftExcept {α : Type} {result : Except RunStoreError α} {s : RunHistory}
    {Q : α → RunHistory → Prop} {E : RunStoreError → RunHistory → Prop}
    (hok : ∀ a, result = .ok a → Q a s) (herror : ∀ e, result = .error e → E e s) :
    Safe machine (discipline sha256) Q E (liftExcept result) s := by
  cases result with
  | ok a => exact hok a rfl
  | error e => exact herror e rfl

theorem validateSnapshotReplay_ok {entry : IdempotencyEntry} {record : RunRecord}
    (h : validateSnapshotReplay entry record = .ok ()) :
    entry.runId = record.runId ∧ entry.scope = RunRecord.scope record := by
  unfold validateSnapshotReplay at h
  split at h
  · cases h
  next hall =>
    simp only [Bool.or_eq_true, decide_eq_true_eq, not_or, not_not] at hall
    obtain ⟨⟨⟨⟨hid, henv⟩, hproject⟩, hkey⟩, -⟩ := hall
    exact ⟨by simpa using hid, by simp_all [IdempotencyEntry.scope, RunRecord.scope]⟩

/-- The snapshot of an entry that is in place: the entry's run, with its identity. -/
theorem safe_adoptSnapshot {label : ℕ} {entry : IdempotencyEntry} {message : String}
    {s : RunHistory} (hentry : EntryFor sha256 entry.scope entry)
    (hholds : Holds s entry.scope entry) :
    Safe machine (discipline sha256)
      (fun adopted t => Faithful t adopted.1 ∧ adopted.1.record.runId = entry.runId)
      (fun _ _ => True) (adoptSnapshot readable label entry message) s := by
  have hinitial : RunRecord.scope entry.initialRecord = entry.scope ∧
      entry.initialRecord.runId = entry.runId := by
    have hconsistent := hentry.consistent
    simp only [IdempotencyEntry.isConsistent, Bool.and_eq_true, decide_eq_true_eq]
      at hconsistent
    simp [RunRecord.scope, IdempotencyEntry.scope, hconsistent]
  have hvalidate : ∀ (existing : StoredRun) (lost : Bool) (t : RunHistory),
      Faithful t existing →
      Safe machine (discipline sha256)
        (fun adopted u => Faithful u adopted.1 ∧ adopted.1.record.runId = entry.runId)
        (fun _ _ => True)
        (liftExcept (validateSnapshotReplay entry existing.record) >>= fun _ =>
          .ret (existing, lost)) t := by
    intro existing lost t hfaithful
    refine Safe.bind (Q := fun _ u => Faithful u existing ∧
      existing.record.runId = entry.runId) ?_ ?_
    · apply safe_liftExcept
      · intro _ hok
        exact ⟨hfaithful, (validateSnapshotReplay_ok hok).1.symm⟩
      · intros
        trivial
    · intro _ u _ hu
      exact hu
  unfold adoptSnapshot
  refine Safe.bind safe_get_run ?_
  intro existing t ht hexisting
  cases existing with
  | some existing => exact hvalidate existing false t (hexisting existing rfl).1
  | none =>
    refine Safe.bind (Q := fun written u => ∀ revision, written = some revision →
      Faithful u ⟨entry.initialRecord, revision⟩) ?_ ?_
    · apply safe_tryWriteObject
      · intros
        trivial
      · intro u _ _ _ revision h
        cases h
      · intro u hu hinv _
        have hholds' := (hholds.mono ht).mono hu
        rw [← hinitial.1] at hholds'
        have hwrite := hinv.write_run hholds' rfl label
        rw [hinitial.2] at hwrite
        refine ⟨hwrite, ?_⟩
        intro revision h
        cases h
        refine ⟨⟨label, ?_⟩, entry, hholds'.mono hwrite.2, rfl⟩
        simp [recorded, hinitial.2]
    · intro written u _ hwritten
      cases written with
      | some revision => exact ⟨hwritten revision rfl, hinitial.2⟩
      | none =>
        refine Safe.bind safe_get_run ?_
        intro existing v _ hfound
        cases existing with
        | none => trivial
        | some existing => exact hvalidate existing true v (hfound existing rfl).1

/-- Reading a scope whose entry is in place finds that entry. -/
theorem safe_readEntry {scope : Scope} {entry : IdempotencyEntry}
    {E : RunStoreError → RunHistory → Prop} (tries : ℕ) {s : RunHistory}
    (hholds : Holds s scope entry)
    (hfailure : ∀ message t, Grows s t → E (.failure message) t)
    (hunreadable : ∀ message t, Grows s t → readable (.idempotency entry) = false →
      E (.corruption message) t) :
    Safe machine (discipline sha256)
      (fun loaded _ => ∃ etag, loaded = some (.idempotency entry, etag)) E
      (readObject readable (.idempotency scope) (tries + 1)) s := by
  obtain ⟨etag, hcurrent⟩ := hholds
  have hstill : ∀ t, Grows s t →
      current t (.idempotency scope) = some ⟨etag, .idempotency entry⟩ :=
    fun t ht => ht.2 scope _ hcurrent
  apply safe_readObject tries hfailure
  · intro t u tag' _ ht hu htag hother
    have hsu := (discipline sha256).trans _ _ _ ht hu
    simp only [tag, hstill t ht, Option.map_some, Option.some.injEq] at htag
    simp only [tag, hstill u hsu, Option.map_some, htag] at hother
    exact (hother rfl).elim
  · intro t tag' value message ht _ hnow hread
    rw [hstill t ht, Option.some.injEq, Version.mk.injEq] at hnow
    rw [← hnow.2] at hread
    exact hunreadable message t ht hread
  · intro t ht _ hnow
    rw [hstill t ht] at hnow
    cases hnow
  · intro t tag' value ht _ hnow _
    rw [hstill t ht, Option.some.injEq, Version.mk.injEq] at hnow
    exact ⟨tag', by rw [← hnow.2]⟩

end Programs

section Claims

variable {sha256 : String → String} {readable : ObjectValue → Bool}

/-- A record as callers claim it: a pristine one in a well-formed scope, with the run
identifier of the scope. -/
structure Claimable (sha256 : String → String) (record : RunRecord) : Prop where
  initial : validateInitialRecord record = true
  runId : record.runId = (RunRecord.scope record).runIdentity sha256
  environment : isPortableId record.environment = true
  project : isPortableId record.project = true
  key : isSha256 record.idempotencyKeySha256 = true

theorem Claimable.name {record : RunRecord} (h : Claimable sha256 record) :
    idempotencyName (RunRecord.scope record) = .ok (.idempotency (RunRecord.scope record)) := by
  simp [idempotencyName, RunRecord.scope, h.environment, h.project, h.key]

theorem Claimable.entryFor {record : RunRecord} (h : Claimable sha256 record) :
    EntryFor sha256 (RunRecord.scope record) (entryOf record) :=
  ⟨by simp [IdempotencyEntry.isConsistent, entryOf], rfl, h.runId⟩

/-- The call that wrote the entry of a scope. -/
def entryAuthor (scope : Scope) (history : RunHistory) : Option ℕ :=
  (current history (.idempotency scope)).bind
    (fun version => (recorded history version.etag).map Write.author)

theorem entryAuthor_mono {scope : Scope} {history later : RunHistory} {author : ℕ}
    (hle : Grows history later) (h : entryAuthor scope history = some author) :
    entryAuthor scope later = some author := by
  unfold entryAuthor at *
  obtain ⟨version, hcurrent, hauthor⟩ := Option.bind_eq_some_iff.mp h
  obtain ⟨write, hrecorded, rfl⟩ := Option.map_eq_some_iff.mp hauthor
  simp [hle.2 scope version hcurrent, recorded_mono hle.1 hrecorded]

/-- What a claim that fails tells: if the scope belongs to another submission, the caller is
told so, unless the stored entry cannot be read back. -/
def Rejected (readable : ObjectValue → Bool) (record : RunRecord) (e : RunStoreError)
    (history : RunHistory) : Prop :=
  (∃ message, e = .failure message) ∨
    ∃ entry, Holds history (RunRecord.scope record) entry ∧
      (entry.submissionSha256 ≠ record.submissionSha256 →
        (∃ message, e = .idempotencyConflict message) ∨
          ((∃ message, e = .corruption message) ∧ readable (.idempotency entry) = false))

theorem Rejected.mono {record : RunRecord} {e : RunStoreError} {history later : RunHistory}
    (h : Rejected readable record e history) (hle : Grows history later) :
    Rejected readable record e later := by
  rcases h with h | ⟨entry, hholds, h⟩
  · exact .inl h
  · exact .inr ⟨entry, hholds.mono hle, h⟩

/-- The entry a claim goes on with: the one of its scope, for the same submission. -/
structure EntryClaimed (sha256 : String → String) (label : ℕ) (record : RunRecord)
    (claimed : IdempotencyEntry × Bool) (history : RunHistory) : Prop where
  entryFor : EntryFor sha256 (RunRecord.scope record) claimed.1
  holds : Holds history (RunRecord.scope record) claimed.1
  submission : claimed.1.submissionSha256 = record.submissionSha256
  created : claimed.2 = true → entryAuthor (RunRecord.scope record) history = some label

theorem safe_claimEntry {label : ℕ} {record : RunRecord} {s : RunHistory}
    (hclaim : Claimable sha256 record) :
    Safe machine (discipline sha256) (EntryClaimed sha256 label record)
      (Rejected readable record)
      (claimEntry readable label (.idempotency (RunRecord.scope record)) record) s := by
  unfold claimEntry
  refine Safe.bind (Q := fun written t =>
    (written.isSome = true → EntryClaimed sha256 label record (entryOf record, true) t) ∧
    (written = none → ∃ entry, EntryFor sha256 (RunRecord.scope record) entry ∧
      Holds t (RunRecord.scope record) entry)) ?_ ?_
  · apply safe_tryWriteObject
    · intro message t _
      exact .inl ⟨message, rfl⟩
    · intro t _ hinv htag
      refine ⟨by simp, ?_⟩
      intro _
      obtain ⟨version, hcurrent⟩ := Option.ne_none_iff_exists'.mp (mt tag_eq_none.mpr htag)
      obtain ⟨entry, -, hentry, hholds⟩ := hinv.entry_of_current hcurrent
      exact ⟨entry, hentry, hholds⟩
    · intro t _ hinv htag
      have hwrite := hinv.create_entry (tag_eq_none.mp htag) hclaim.entryFor label
      refine ⟨hwrite, ?_, by simp⟩
      intro _
      refine ⟨hclaim.entryFor, ⟨t.length, by simp [current]⟩, rfl, ?_⟩
      intro _
      simp [entryAuthor, current, recorded]
  · intro written t ht hwritten
    cases written with
    | some revision => exact hwritten.1 rfl
    | none =>
      obtain ⟨entry, hentry, hholds⟩ := hwritten.2 rfl
      refine Safe.bind (Q := fun loaded _ => ∃ etag, loaded = some (.idempotency entry, etag))
        ?_ ?_
      · apply safe_readEntry 2 hholds
        · intro message u _
          exact .inl ⟨message, rfl⟩
        · intro message u hu hread
          exact .inr ⟨entry, hholds.mono hu, fun _ => .inr ⟨⟨message, rfl⟩, hread⟩⟩
      · intro loaded u hu hloaded
        obtain ⟨etag, rfl⟩ := hloaded
        have hholds' := hholds.mono hu
        have hvalid : validateReplay entry record =
            if entry.submissionSha256 ≠ record.submissionSha256 then
              .error (.idempotencyConflict
                "The idempotency key belongs to a different logical submission.")
            else .ok () := by
          have hscope := hentry.scope_eq
          have hid := hentry.runId_eq.trans hclaim.entryFor.runId_eq.symm
          simp only [IdempotencyEntry.scope, RunRecord.scope, Scope.mk.injEq] at hscope
          simp only [entryOf] at hid
          simp [validateReplay, hscope, hid]
        simp only [deserializeEntry, hentry.consistent, if_true, liftExcept, Prog.ret_bind, hvalid]
        by_cases hsubmission : entry.submissionSha256 = record.submissionSha256
        · simp only [hsubmission, ne_eq, not_true_eq_false, if_false, Prog.ret_bind]
          exact ⟨hentry, hholds', hsubmission, by simp⟩
        · simp only [ne_eq, hsubmission, not_false_eq_true, if_true, Prog.raise_bind]
          exact .inr ⟨entry, hholds', fun _ => .inl ⟨_, rfl⟩⟩

/-- What a claim that succeeds tells. -/
structure Claimed (label : ℕ) (record : RunRecord) (result : RunClaim) (history : RunHistory) :
    Prop where
  faithful : Faithful history result.stored
  entry : ∃ entry, Holds history (RunRecord.scope record) entry ∧
    entry.submissionSha256 = record.submissionSha256 ∧
    entry.runId = result.stored.record.runId
  created : result.created = true → entryAuthor (RunRecord.scope record) history = some label

theorem safe_claim {label : ℕ} {record : RunRecord} {s : RunHistory}
    (hclaim : Claimable sha256 record) :
    Safe machine (discipline sha256) (Claimed label record) (Rejected readable record)
      (claim readable label record) s := by
  unfold claim
  simp only [hclaim.initial, hclaim.name, liftExcept, Prog.ret_bind, Bool.not_true]
  refine Safe.bind (safe_claimEntry hclaim) ?_
  rintro ⟨entry, created⟩ t _ hclaimed
  have hscope := hclaimed.entryFor.scope_eq
  have hadopt : Safe machine (discipline sha256)
      (fun adopted u => Faithful u adopted.1 ∧ adopted.1.record.runId = entry.runId)
      (Rejected readable record)
      (adoptSnapshot readable label entry "The S3 run snapshot create did not converge.") t := by
    refine Safe.weaken (safe_adoptSnapshot (hscope ▸ hclaimed.entryFor)
      (hscope ▸ hclaimed.holds)) (fun _ _ _ h => h) ?_
    intro e u hu _
    exact .inr ⟨entry, hclaimed.holds.mono hu, fun hne => (hne hclaimed.submission).elim⟩
  refine Safe.bind hadopt ?_
  rintro ⟨stored, lost⟩ u hu ⟨hfaithful, hid⟩
  refine ⟨hfaithful, ⟨entry, hclaimed.holds.mono hu, hclaimed.submission, hid.symm⟩, ?_⟩
  intro hcreated
  rw [Bool.and_eq_true] at hcreated
  exact entryAuthor_mono hu (hclaimed.created hcreated.1)

theorem safe_findIdempotency {label : ℕ} {scope : Scope} {s : RunHistory} :
    Safe machine (discipline sha256)
      (fun found t => ∀ stored, found = some stored → Faithful t stored)
      (fun _ _ => True) (findIdempotency readable label scope) s := by
  unfold findIdempotency
  refine Safe.bind (Q := fun name _ => name = .idempotency scope) ?_ ?_
  · apply safe_liftExcept
    · intro name hname
      unfold idempotencyName at hname
      repeat' split at hname
      all_goals cases hname
      rfl
    · intros
      trivial
  · rintro name t _ rfl
    refine Safe.bind (Q := fun loaded u => ∀ value etag, loaded = some (value, etag) →
      ∃ entry, value = .idempotency entry ∧ EntryFor sha256 scope entry ∧
        Holds u scope entry) ?_ ?_
    · apply safe_readObject 2
      · intros
        trivial
      · intros
        trivial
      · intros
        trivial
      · intro u _ _ _ value etag h
        cases h
      · intro u etag value _ hinv hcurrent _ value' etag' h
        cases h
        exact hinv.entry_of_current hcurrent
    · intro loaded u _ hloaded
      match loaded with
      | none =>
        intro stored h
        cases h
      | some (value, etag) =>
        obtain ⟨entry, rfl, hentry, hholds⟩ := hloaded value etag rfl
        have hscope := hentry.scope_eq
        simp only [deserializeEntry, hentry.consistent, if_true, liftExcept, Prog.ret_bind]
        split
        · trivial
        · refine Safe.bind (safe_adoptSnapshot (hscope ▸ hentry) (hscope ▸ hholds)) ?_
          rintro adopted v _ ⟨hfaithful, -⟩ stored h
          cases h
          exact hfaithful

/-- A save that succeeds: its write lies directly on the snapshot it was given. -/
def Replaced (label : ℕ) (stored : StoredRun) (record : RunRecord) (result : StoredRun)
    (history : RunHistory) : Prop :=
  result.record = record ∧ ∃ newer older,
    history = newer ++ ⟨.run record.runId, some (.run record), label⟩ :: older ∧
    result.revision = older.length ∧
    current older (.run record.runId) = some ⟨stored.revision, .run stored.record⟩

theorem Replaced.mono {label : ℕ} {stored result : StoredRun} {record : RunRecord}
    {history later : RunHistory} (h : Replaced label stored record result history)
    (hle : Grows history later) : Replaced label stored record result later := by
  obtain ⟨hrecord, newer, older, rfl, hrest⟩ := h
  obtain ⟨latest, rfl⟩ := hle.1
  exact ⟨hrecord, latest ++ newer, older, by simp, hrest⟩

theorem safe_save {label : ℕ} {stored : StoredRun} {record : RunRecord} {s : RunHistory}
    (hgenuine : Genuine s stored) :
    Safe machine (discipline sha256)
      (fun result t => Replaced label stored record result t ∧ Faithful t result)
      (fun _ _ => True) (save label stored record) s := by
  unfold save
  split
  · trivial
  next hsame =>
    have hidentity : stored.record.identity = record.identity := by
      rw [Bool.not_eq_true, Bool.not_eq_false'] at hsame
      exact sameRunIdentity_iff.mp hsame
    refine Safe.bind (Q := fun written t => ∀ revision, written = some revision →
      Replaced label stored record ⟨record, revision⟩ t ∧ Faithful t ⟨record, revision⟩) ?_ ?_
    · apply safe_tryWriteObject
      · intros
        trivial
      · intro t _ _ _ revision h
        cases h
      · intro t ht hinv htag
        obtain ⟨author, hrecorded⟩ := hgenuine.mono ht
        obtain ⟨value, hcurrent⟩ := tag_eq_some.mp htag
        obtain ⟨author', hrecorded'⟩ := recorded_of_current hcurrent
        have hvalue : value = .run stored.record := by
          rw [hrecorded, Option.some.injEq, Write.mk.injEq] at hrecorded'
          simpa using hrecorded'.2.1.symm
        subst hvalue
        obtain ⟨old, entry, hold, -, hholds, hentry⟩ := hinv.run_of_current hcurrent
        cases hold
        rw [scope_eq_of_identity hidentity] at hholds
        have hwrite := hinv.write_run hholds (hentry.trans hidentity) label
        refine ⟨hwrite, ?_⟩
        intro revision h
        cases h
        refine ⟨⟨rfl, [], t, rfl, rfl, hcurrent⟩, ⟨label, by simp [recorded]⟩, entry,
          hholds.mono hwrite.2, hentry.trans hidentity⟩
    · intro written t _ hwritten
      cases written with
      | none => trivial
      | some revision => exact hwritten revision rfl

end Claims

section Pool

abbrev RunStoreConfig := Config (Op ObjectName ObjectValue) (fun o => Reply (Payload o))
  RunStoreError Response Call RunHistory

abbrev RunStoreEvent := Event (Op ObjectName ObjectValue) (fun o => Reply (Payload o))
  RunStoreError Response Call

/-- How calls are issued: under a label of their own, with records as callers claim them, and
with snapshots that came from the store. -/
def Admitted (sha256 : String → String) (cfg : RunStoreConfig) : RunStoreEvent → Prop
  | .issued _ call =>
    ((∀ write ∈ cfg.state, write.author ≠ call.label) ∧
      ∀ j other p, cfg.pool j = some (other, p) → other.label ≠ call.label) ∧
    match call.request with
    | .claim record => Claimable sha256 record
    | .save stored _ => Genuine cfg.state stored
    | .get _ => True
    | .findIdempotency _ => True
  | _ => True

/-- What a call that succeeds tells. -/
def Succeeded (call : Call) (response : Response) (history : RunHistory) : Prop :=
  match call.request, response with
  | .claim record, .claim result => Claimed call.label record result history
  | .get _, .get result => ∀ stored, result = some stored → Faithful history stored
  | .findIdempotency _, .findIdempotency result =>
    ∀ stored, result = some stored → Faithful history stored
  | .save stored record, .save result =>
    Replaced call.label stored record result history ∧ Faithful history result
  | _, _ => False

def Failed (readable : ObjectValue → Bool) (call : Call) (e : RunStoreError)
    (history : RunHistory) : Prop :=
  match call.request with
  | .claim record => Rejected readable record e history
  | _ => True

variable {sha256 : String → String} {readable : ObjectValue → Bool}

theorem succeeded_stable (call : Call) : Stable (discipline sha256) (Succeeded call) := by
  intro response s t hle h
  unfold Succeeded at *
  split at h
  · exact ⟨h.faithful.mono hle, h.entry.imp (fun _ he => ⟨he.1.mono hle, he.2⟩),
      fun hcreated => entryAuthor_mono hle (h.created hcreated)⟩
  · exact fun stored hstored => (h stored hstored).mono hle
  · exact fun stored hstored => (h stored hstored).mono hle
  · exact ⟨h.1.mono hle, h.2.mono hle⟩
  · exact h

theorem failed_stable (call : Call) : Stable (discipline sha256) (Failed readable call) := by
  intro e s t hle h
  unfold Failed at *
  split at h
  · exact h.mono hle
  · trivial

theorem safe_perform {cfg : RunStoreConfig} {i : ℕ} {call : Call}
    (h : Admitted sha256 cfg (.issued i call)) :
    Safe machine (discipline sha256) (Succeeded call) (Failed readable call)
      (perform readable call) cfg.state := by
  obtain ⟨label, request⟩ := call
  cases request with
  | claim record =>
    refine Safe.bind (safe_claim h.2) ?_
    intro result t _ hresult
    exact hresult
  | get runId =>
    refine Safe.bind safe_get_run ?_
    intro result t _ hresult stored hstored
    exact (hresult stored hstored).1
  | findIdempotency scope =>
    refine Safe.bind safe_findIdempotency ?_
    intro result t _ hresult
    exact hresult
  | save stored record =>
    refine Safe.bind (safe_save h.2) ?_
    intro result t _ hresult
    exact hresult

/-- The record first claimed in its scope: its entry is stored, and no other entry was ever
written under the scope's name. -/
def FirstClaimed (history : RunHistory) (first : RunRecord) : Prop :=
  Holds history (RunRecord.scope first) (entryOf first) ∧
    ∀ write ∈ history, write.name = .idempotency (RunRecord.scope first) →
      write.value = some (.idempotency (entryOf first))

theorem Consistent.firstClaimed {history : RunHistory} (hinv : Consistent sha256 history)
    {scope : Scope} {entry : IdempotencyEntry} (hholds : Holds history scope entry) :
    FirstClaimed history entry.initialRecord ∧ entry = entryOf entry.initialRecord ∧
      RunRecord.scope entry.initialRecord = scope := by
  obtain ⟨etag, hcurrent⟩ := hholds
  obtain ⟨entry', heq, hentry, hholds⟩ := hinv.entry_of_current hcurrent
  cases heq
  have hconsistent := hentry.consistent
  simp only [IdempotencyEntry.isConsistent, Bool.and_eq_true, decide_eq_true_eq] at hconsistent
  obtain ⟨⟨⟨⟨henv, hproject⟩, hkey⟩, hid⟩, hsub⟩ := hconsistent
  have hentryOf : entry = entryOf entry.initialRecord := by
    rw [entryOf, henv, hproject, hkey, hid, hsub]
  have hscope : RunRecord.scope entry.initialRecord = scope := by
    rw [← hentry.scope_eq, RunRecord.scope, henv, hproject, hkey]
    rfl
  rw [← hscope] at hholds
  refine ⟨⟨hentryOf ▸ hholds, ?_⟩, hentryOf, hscope⟩
  intro write hmem hname
  obtain ⟨other, hvalue, -, hother⟩ := hinv.entries write hmem _ hname
  rw [hvalue, hother.unique hholds, ← hentryOf]

/-- A claim of the scope that reports to have created its run. -/
def reportsCreated (scope : Scope) (call : Call) : Except RunStoreError Response → Bool
  | .ok (.claim result) =>
    match call.request with
    | .claim record => RunRecord.scope record = scope && result.created
    | _ => false
  | _ => false

def Response.stored : Response → Option StoredRun
  | .claim result => some result.stored
  | .get result => result
  | .findIdempotency result => result
  | .save result => some result

theorem Succeeded.faithful {call : Call} {response : Response} {history : RunHistory}
    (h : Succeeded call response history) {stored : StoredRun}
    (hstored : response.stored = some stored) : Faithful history stored := by
  unfold Succeeded at h
  split at h
  · cases hstored
    exact h.faithful
  · exact h stored hstored
  · exact h stored hstored
  · cases hstored
    exact h.2
  · exact h.elim

theorem Faithful.firstClaimed {history : RunHistory} (hinv : Consistent sha256 history)
    {stored : StoredRun} (h : Faithful history stored) :
    ∃ first, FirstClaimed history first ∧ sameRunIdentity first stored.record = true := by
  obtain ⟨-, entry, hholds, hsame⟩ := h
  exact ⟨_, (hinv.firstClaimed hholds).1, sameRunIdentity_iff.mpr hsame⟩

variable {events : List RunStoreEvent} {cfg : RunStoreConfig}

theorem start_poolSafe : PoolSafe machine (discipline sha256) Succeeded (Failed readable)
    (Config.start [] : RunStoreConfig) :=
  PoolSafe.start ⟨by simp, by simp⟩

theorem run_poolSafe
    (run : Run machine (perform readable) (Admitted sha256) (Config.start []) events cfg) :
    PoolSafe machine (discipline sha256) Succeeded (Failed readable) cfg :=
  (run.poolSafe succeeded_stable failed_stable (fun _ _ _ h _ => safe_perform h)
    start_poolSafe).1

theorem run_finished
    (run : Run machine (perform readable) (Admitted sha256) (Config.start []) events cfg)
    {i : ℕ} {call : Call} {out : Except RunStoreError Response}
    (hmem : .finished i call out ∈ events) :
    (∀ response, out = .ok response → Succeeded call response cfg.state) ∧
      (∀ e, out = .error e → Failed readable call e cfg.state) :=
  run.finished (D := discipline sha256) succeeded_stable failed_stable
    (fun _ _ _ h _ => safe_perform h) start_poolSafe hmem

theorem fresh_of_admitted {scope : Scope} {i : ℕ} {call : Call}
    (h : Admitted sha256 cfg (.issued i call)) :
    Fresh Call.label (entryAuthor scope) cfg call := by
  refine ⟨?_, h.1.2⟩
  intro hauthor
  unfold entryAuthor at hauthor
  obtain ⟨version, -, hversion⟩ := Option.bind_eq_some_iff.mp hauthor
  obtain ⟨write, hrecorded, hlabel⟩ := Option.map_eq_some_iff.mp hversion
  exact h.1.1 write (mem_of_recorded hrecorded) hlabel

theorem author_of_reportsCreated {scope : Scope} {call : Call}
    {out : Except RunStoreError Response} {history : RunHistory}
    (h : reportsCreated scope call out = true)
    (hpost : ∀ response, out = .ok response → Succeeded call response history) :
    entryAuthor scope history = some call.label := by
  obtain ⟨label, request⟩ := call
  unfold reportsCreated at h
  split at h
  · split at h
    · next record heq =>
      simp only at heq
      subst heq
      have hclaimed : Claimed label record _ history := hpost _ rfl
      rw [Bool.and_eq_true, decide_eq_true_eq] at h
      rw [← h.1]
      exact hclaimed.created h.2
    · cases h
  · cases h

/-- One scope is reported created at most once. -/
theorem created_once (scope : Scope)
    (run : Run machine (perform readable) (Admitted sha256) (Config.start []) events cfg) :
    events.countP (Event.reports (reportsCreated scope)) ≤ 1 := by
  have honce : OwnerReported Call.label (entryAuthor scope)
      (events.countP (Event.reports (reportsCreated scope))) cfg := by
    apply run.reported_once
    · intro cfg i call h
      exact fresh_of_admitted h
    · intro events cfg event cfg' before admitted next author hauthor
      have hstep := (run_poolSafe before).step succeeded_stable failed_stable
        (fun i c he _ => safe_perform (he ▸ admitted)) next
      exact entryAuthor_mono hstep.2 hauthor
    · intro events cfg i call out cfg' before next hkind
      exact author_of_reportsCreated hkind ((run_poolSafe before).finished next).1
  exact honce.once

/-- Any interleaving of claims, lookups, reads and saves, with any crashes: stored and
returned snapshots keep the identity first claimed in their scope, a scope is created once,
its claims agree on the run or are turned down, and a save replaces what it was given. -/
theorem claims_agree_and_saves_chain
    (run : Run machine (perform readable) (Admitted sha256) (Config.start []) events cfg) :
    (∀ runId version, current cfg.state (.run runId) = some version →
      ∃ record first, version.value = .run record ∧ record.runId = runId ∧
        FirstClaimed cfg.state first ∧ sameRunIdentity first record = true) ∧
    (∀ i call response stored, .finished i call (.ok response) ∈ events →
      response.stored = some stored → Genuine cfg.state stored ∧
        ∃ first, FirstClaimed cfg.state first ∧ sameRunIdentity first stored.record = true) ∧
    (∀ scope, events.countP (Event.reports (reportsCreated scope)) ≤ 1) ∧
    (∀ i j label label' record record' result result',
      .finished i ⟨label, .claim record⟩ (.ok (.claim result)) ∈ events →
      .finished j ⟨label', .claim record'⟩ (.ok (.claim result')) ∈ events →
      RunRecord.scope record = RunRecord.scope record' →
      record.submissionSha256 = record'.submissionSha256 ∧
        result.stored.record.runId = result'.stored.record.runId) ∧
    (∀ i label record out first, .finished i ⟨label, .claim record⟩ out ∈ events →
      FirstClaimed cfg.state first → RunRecord.scope first = RunRecord.scope record →
      first.submissionSha256 ≠ record.submissionSha256 →
      (∃ message, out = .error (.idempotencyConflict message)) ∨
        (∃ message, out = .error (.failure message)) ∨
        ((∃ message, out = .error (.corruption message)) ∧
          readable (.idempotency (entryOf first)) = false)) ∧
    (∀ i label stored record result,
      .finished i ⟨label, .save stored record⟩ (.ok (.save result)) ∈ events →
      Replaced label stored record result cfg.state) := by
  have hinv : Consistent sha256 cfg.state := (run_poolSafe run).1
  refine ⟨?_, ?_, fun scope => created_once scope run, ?_, ?_, ?_⟩
  · intro runId version hcurrent
    obtain ⟨record, entry, hvalue, hid, hholds, hsame⟩ := hinv.run_of_current hcurrent
    exact ⟨record, entry.initialRecord, hvalue, hid, (hinv.firstClaimed hholds).1,
      sameRunIdentity_iff.mpr hsame⟩
  · intro i call response stored hmem hstored
    have hsucceeded := (run_finished run hmem).1 response rfl
    have hfaithful := hsucceeded.faithful hstored
    exact ⟨hfaithful.1, hfaithful.firstClaimed hinv⟩
  · intro i j label label' record record' result result' hmem hmem' hscope
    have hclaimed : Claimed label record result cfg.state := (run_finished run hmem).1 _ rfl
    have hclaimed' : Claimed label' record' result' cfg.state :=
      (run_finished run hmem').1 _ rfl
    obtain ⟨entry, hholds, hsubmission, hid⟩ := hclaimed.entry
    obtain ⟨entry', hholds', hsubmission', hid'⟩ := hclaimed'.entry
    rw [← hscope] at hholds'
    obtain rfl := hholds.unique hholds'
    exact ⟨hsubmission.symm.trans hsubmission', hid.symm.trans hid'⟩
  · intro i label record out first hmem hfirst hscope hother
    have hstored := hfirst.1
    rw [hscope] at hstored
    obtain ⟨hok, herror⟩ := run_finished run hmem
    cases out with
    | ok response =>
      have hsucceeded := hok response rfl
      unfold Succeeded at hsucceeded
      split at hsucceeded
      next heq =>
        cases heq
        obtain ⟨entry, hholds, hsubmission, -⟩ := hsucceeded.entry
        rw [hholds.unique hstored] at hsubmission
        exact (hother hsubmission).elim
      next heq => cases heq
      next heq => cases heq
      next heq => cases heq
      · exact hsucceeded.elim
    | error e =>
      have hrejected : Rejected readable record e cfg.state := herror e rfl
      rcases hrejected with ⟨message, rfl⟩ | ⟨entry, hholds, htold⟩
      · exact .inr (.inl ⟨message, rfl⟩)
      · rw [hholds.unique hstored] at htold
        rcases htold hother with ⟨message, rfl⟩ | ⟨⟨message, rfl⟩, hread⟩
        · exact .inl ⟨message, rfl⟩
        · exact .inr (.inr ⟨⟨message, rfl⟩, hread⟩)
  · intro i label stored record result hmem
    have hsaved := (run_finished run hmem).1 _ rfl
    exact hsaved.1

/-- The digest of the one scope of the example below. -/
def scopeDigest (_ : String) : String :=
  "cb6b93ab8cf7aee4db55b62fed4a7c17049a2d69e87038ff1990c3aced402d02"

def queuedRecord : RunRecord where
  runId := "run-cb6b93ab8cf7aee4db55b62f"
  environment := "e"
  project := "p"
  graph := "g"
  graphRevision := "1"
  graphContentSha256 := "cb6b93ab8cf7aee4db55b62fed4a7c17049a2d69e87038ff1990c3aced402d02"
  planId := "n"
  planRevision := "cb6b93ab8cf7aee4db55b62fed4a7c17049a2d69e87038ff1990c3aced402d02"
  trigger := ⟨.manual, "m", none, none, none⟩
  idempotencyKeySha256 := "19f1064b619d49d35392eac7261cd7266c720671fc594f4b226f32bf0bee74ba"
  submissionSha256 := "1e82d60748995b935d22621589f13e18e82a6ad5f656d88114056edd6fabe357"
  requestedAt := 0
  requestedDeadlineSeconds := none
  runState := .queued
  outcome := .unknown
  resultsState := .pending
  cleanupState := .pending
  createdAt := 0
  updatedAt := 0
  terminalAt := none
  stage := none
  attemptCount := 0
  currentAttemptId := none
  backendHandle := none
  resultSummary := none
  placementDecision := none
  sizeClassDecision := none

theorem queuedRecord_claimable : Claimable scopeDigest queuedRecord :=
  ⟨rfl, by decide +kernel, by decide +kernel, by decide +kernel, by decide +kernel⟩

theorem admitted_of_not_issued {sha256 : String → String} {cfg : RunStoreConfig}
    {event : RunStoreEvent} (h : ∀ i call, event ≠ .issued i call) :
    Admitted sha256 cfg event := by
  cases event with
  | issued i call => exact (h i call rfl).elim
  | performed i call o r => trivial
  | finished i call out => trivial
  | crashed i => trivial

def firstClaim : Call := ⟨0, .claim queuedRecord⟩

def secondClaim : Call := ⟨1, .claim queuedRecord⟩

/-- What the first claim leaves when it is cut after its first write. -/
def entryOnly : RunHistory :=
  [⟨.idempotency (RunRecord.scope queuedRecord), some (.idempotency (entryOf queuedRecord)), 0⟩]

/-- The first claim is cut after its entry was written; the second one repairs the snapshot. -/
theorem claims_agree_and_saves_chain_repaired :
    ∃ events cfg,
      Run machine (perform fun _ => true) (Admitted scopeDigest) (Config.start []) events cfg ∧
      current cfg.state (.run queuedRecord.runId) = some ⟨1, .run queuedRecord⟩ ∧
      events.countP (Event.reports (reportsCreated (RunRecord.scope queuedRecord))) ≤ 1 := by
  have hplayed : ∀ {cfg cfg' : RunStoreConfig} {moves : List (Move Call)},
      play (fun o s => some (exec o s)) (perform fun _ => true) (fun _ _ => false) cfg moves =
        some cfg' →
      ∃ events, Run machine (perform fun _ => true) (Admitted scopeDigest) cfg events cfg' := by
    intro cfg cfg' moves hplay
    refine play_run (fun _ _ _ _ h => machine_of_exec h) ?_ hplay
    intro cfg event h
    exact admitted_of_not_issued (fun i call he => nomatch h i call he)
  have hfirst : Run machine (perform fun _ => true) (Admitted scopeDigest) (Config.start []) _ _ :=
    .snoc .refl
      (show Admitted scopeDigest _ (.issued 0 firstClaim) from
        ⟨⟨by simp [Config.start], by simp [Config.start]⟩, queuedRecord_claimable⟩)
      (.issue _ 0 _ rfl)
  obtain ⟨cfg, hcut, hstate, hpool⟩ :
      ∃ cfg, play (fun o s => some (exec o s)) (perform fun _ => true)
        (fun _ _ => false)
        ⟨[], Function.update (fun _ => none) 0
          (some (firstClaim, perform (fun _ => true) firstClaim))⟩ [.exec 0, .crash 0] = some cfg ∧
        cfg.state = entryOnly ∧ ∀ j, cfg.pool j = none := by
    refine ⟨_, rfl, rfl, ?_⟩
    intro j
    cases j <;> rfl
  obtain ⟨events, hrun⟩ := hplayed hcut
  have hadmitted : Admitted scopeDigest cfg (.issued 1 secondClaim) := by
    refine ⟨⟨?_, ?_⟩, queuedRecord_claimable⟩
    · simp [hstate, entryOnly, secondClaim]
    · simp [hpool]
  have hsecond := (hfirst.trans hrun).snoc hadmitted (.issue cfg 1 secondClaim (hpool 1))
  obtain ⟨final, hrepaired, hsnapshot⟩ :
      ∃ final, play (fun o s => some (exec o s)) (perform fun _ => true)
        (fun _ _ => false)
        ⟨cfg.state, Function.update cfg.pool 1
          (some (secondClaim, perform (fun _ => true) secondClaim))⟩
        [.exec 1, .exec 1, .exec 1, .exec 1, .exec 1, .finish 1] = some final ∧
        current final.state (.run queuedRecord.runId) = some ⟨1, .run queuedRecord⟩ := by
    rw [hstate]
    refine ⟨_, rfl, ?_⟩
    rfl
  obtain ⟨events', hrun'⟩ := hplayed hrepaired
  have hall := hsecond.trans hrun'
  exact ⟨_, final, hall, hsnapshot, (claims_agree_and_saves_chain hall).2.2.1 _⟩

end Pool

end Dander.RunStore
