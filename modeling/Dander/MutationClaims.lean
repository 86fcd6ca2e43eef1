import Dander.PostgresqlRunStore

/-!
# Claims of mutation keys

A mutation key is claimed once, for one operation on one run, together with a result; whoever
claims it again for the same gets that result, and whoever claims it for another is told so.
Both run stores keep to this, while any number of callers claim and any of their calls fail.
-/
namespace Dander.MutationClaims

open Interleaving ObjectStore Orchestration RunStore

section Specification

variable {O : Type} {R : O → Type} {M : Type}

/-- A store of claims: as its callers meet it, and as it is when no operation fails. -/
structure ClaimStore (O : Type) (R : O → Type) (M : Type) where
  faulty : Machine O R M
  answering : Machine O R M
  claimMutation : (label : ℕ) → (keySha256 operation runId result : String) →
    Prog O R RunStoreError String
  accepts : (keySha256 operation runId result : String) → Prop
  claimed : M → String → Option MutationEntry
  empty : M
  discipline : Discipline M
  empty_inv : discipline.inv empty
  answering_faulty : ∀ o s r t, answering.step o s r t → faulty.step o s r t
  claimed_mono : ∀ s t keySha256 entry, discipline.le s t → claimed s keySha256 = some entry →
    claimed t keySha256 = some entry
  claims : ∀ label keySha256 operation runId result s, Safe faulty discipline
    (fun original t => ∃ entry, claimed t keySha256 = some entry ∧ entry.operation = operation ∧
      entry.runId = runId ∧ entry.result = original)
    (fun _ _ => True) (claimMutation label keySha256 operation runId result) s
  conflicts : ∀ label keySha256 operation runId result s entry,
    accepts keySha256 operation runId result → claimed s keySha256 = some entry →
    entry.runId ≠ runId → Safe answering discipline (fun _ _ => False)
      (fun e _ => ∃ message, e = .idempotencyConflict message)
      (claimMutation label keySha256 operation runId result) s

end Specification

section S3

variable {codec : ResultCodec} {history later : History String MutationEntry}

/-- Every object holds a claim that fits the bound of reads, under the claim's own key. -/
def ClaimsOnly (history : History String MutationEntry) : Prop :=
  ∀ write ∈ history, ∃ entry, write.value = some entry ∧ entry.fits = true ∧
    entry.keySha256 = write.name

/-- Objects are never replaced. -/
def Keeps (history later : History String MutationEntry) : Prop :=
  ∀ name version, current history name = some version → current later name = some version

def s3Discipline : Discipline (History String MutationEntry) where
  inv := ClaimsOnly
  le := Keeps
  refl _ _ _ h := h
  trans _ _ _ hab hbc name version h := hbc name version (hab name version h)

theorem ClaimsOnly.of_current (h : ClaimsOnly history) {name : String}
    {version : Version MutationEntry} (hcurrent : current history name = some version) :
    version.value.fits = true ∧ version.value.keySha256 = name := by
  obtain ⟨author, hrecorded⟩ := recorded_of_current hcurrent
  obtain ⟨entry, hvalue, hfits, hkey⟩ := h _ (mem_of_recorded hrecorded)
  cases hvalue
  exact ⟨hfits, hkey⟩

theorem mutationEntry_eq_ok {keySha256 operation runId result : String} {entry : MutationEntry}
    (h : mutationEntry codec keySha256 operation runId result = .ok entry) :
    entry.keySha256 = keySha256 ∧ entry.operation = operation ∧ entry.runId = runId ∧
      entry.fits = true := by
  unfold mutationEntry at h
  obtain ⟨-, -, h⟩ := Execution.bind_eq_ok h
  obtain ⟨-, -, h⟩ := Execution.bind_eq_ok h
  obtain ⟨-, -, h⟩ := Execution.bind_eq_ok h
  split at h
  · cases h
  · cases h
  · dsimp only at h
    split at h
    next hfits =>
      obtain rfl := Except.ok.inj h
      exact ⟨rfl, rfl, rfl, hfits⟩
    · cases h

/-- Creating an object that is not there. -/
theorem ClaimsOnly.create (h : ClaimsOnly history) {name : String} {entry : MutationEntry}
    (hfits : entry.fits = true) (hkey : entry.keySha256 = name)
    (hfree : tag history name = none) (author : ℕ) :
    ClaimsOnly (⟨name, some entry, author⟩ :: history) ∧
      Keeps history (⟨name, some entry, author⟩ :: history) := by
  constructor
  · intro write hwrite
    rcases List.mem_cons.mp hwrite with rfl | hold
    · exact ⟨entry, rfl, hfits, hkey⟩
    · exact h write hold
  · intro other version hcurrent
    have hne : name ≠ other := by
      rintro rfl
      rw [tag_eq_none, hcurrent] at hfree
      cases hfree
    rw [current_cons_of_ne hne]
    exact hcurrent

theorem safe_createClaim {name : String} {entry : MutationEntry} (hfits : entry.fits = true)
    (hkey : entry.keySha256 = name) (label : ℕ) (s : History String MutationEntry) :
    Safe machine s3Discipline
      (fun created t => created = true → ∃ etag, current t name = some ⟨etag, entry⟩)
      (fun _ _ => True) (createEntry label name entry) s := by
  apply safe_put
  · intro t _
    trivial
  · intro t _ _ _ hcreated
    cases hcreated
  · intro t _ hinv hfree
    obtain ⟨hinv', hkeeps⟩ := hinv.create hfits hkey hfree label
    refine ⟨hinv', hkeeps, ?_⟩
    intro _
    refine ⟨t.length, ?_⟩
    simp [current]

theorem safe_readClaim {readable : MutationEntry → Bool} {name : String} (tries : ℕ)
    (s : History String MutationEntry) :
    Safe machine s3Discipline
      (fun found t => ∀ entry, found = some entry → ∃ etag, current t name = some ⟨etag, entry⟩)
      (fun _ _ => True) (readEntry readable name tries) s := by
  induction tries generalizing s with
  | zero => trivial
  | succ tries ih =>
    apply safe_head
    · intro t _
      trivial
    · intro t _ _
      cases tag t name with
      | none =>
        intro entry hentry
        cases hentry
      | some etag =>
        apply safe_get
        · intro u _
          trivial
        · intro u _ _ _
          exact ih u
        · intro u _ _ value hcurrent
          show Safe _ _ _ _ (ite _ _ _) u
          split
          · intro entry hentry
            cases hentry
            exact ⟨etag, hcurrent⟩
          · trivial

theorem safe_claimMutation (label : ℕ) (keySha256 operation runId result : String)
    (s : History String MutationEntry) :
    Safe machine s3Discipline
      (fun original t => ∃ entry, (current t keySha256).map Version.value = some entry ∧
        entry.operation = operation ∧ entry.runId = runId ∧ entry.result = original)
      (fun _ _ => True) (claimMutation codec label keySha256 operation runId result) s := by
  unfold claimMutation
  cases hentry : mutationEntry codec keySha256 operation runId result with
  | error e => trivial
  | ok entry =>
    obtain ⟨hkey, hoperation, hrunId, hfits⟩ := mutationEntry_eq_ok hentry
    refine (safe_createClaim hfits hkey label s).bind fun created t _ hcreated => ?_
    cases created with
    | true =>
      obtain ⟨etag, hcurrent⟩ := hcreated rfl
      exact ⟨entry, by rw [hcurrent]; rfl, hoperation, hrunId, rfl⟩
    | false =>
      refine (safe_readClaim 3 t).bind fun loaded u _ hloaded => ?_
      cases loaded with
      | none => trivial
      | some existing =>
        obtain ⟨etag, hcurrent⟩ := hloaded existing rfl
        show Safe _ _ _ _ (ite _ _ _) u
        split
        · trivial
        next hsame =>
          push Not at hsame
          exact ⟨existing, by rw [hcurrent]; rfl, hsame.2.1, hsame.2.2, rfl⟩

/-- The bucket when every call is answered. -/
def answeringBucket : Machine (Op String MutationEntry) (fun o => Reply (Payload o))
    (History String MutationEntry) where
  step o s r t := exec o s = (r, t)

theorem conflict_claimMutation {keySha256 operation runId result : String} {entry : MutationEntry}
    (label : ℕ) {s : History String MutationEntry}
    (haccepted : ∃ entry, mutationEntry codec keySha256 operation runId result = .ok entry)
    (hclaimed : (current s keySha256).map Version.value = some entry) (hother : entry.runId ≠ runId) :
    Safe answeringBucket s3Discipline (fun _ _ => False)
      (fun e _ => ∃ message, e = .idempotencyConflict message)
      (claimMutation codec label keySha256 operation runId result) s := by
  obtain ⟨own, hown⟩ := haccepted
  obtain ⟨⟨etag, value⟩, hcurrent, rfl⟩ := Option.map_eq_some_iff.mp hclaimed
  unfold claimMutation
  rw [hown]
  intro t ht hinv r t' hput
  have hnow := ht _ _ hcurrent
  have htag : tag t keySha256 = some etag := by simp [tag, hnow]
  have hrefused : exec (.put keySha256 own none label) t = (.conflict, t) := by
    simp [exec, htag]
  obtain ⟨rfl, rfl⟩ := Prod.mk.inj (hrefused.symm.trans hput)
  refine ⟨hinv, s3Discipline.refl _, ?_⟩
  intro u hu hinv' r' u' hhead
  have hlater := hu _ _ hnow
  have htag' : tag u keySha256 = some etag := by simp [tag, hlater]
  have hfound : exec (.head keySha256) u = (.ok (some etag), u) := by
    simp [exec, htag']
  obtain ⟨rfl, rfl⟩ := Prod.mk.inj (hfound.symm.trans hhead)
  refine ⟨hinv', s3Discipline.refl _, ?_⟩
  intro v hv hinv'' r'' v' hget
  have hlast := hv _ _ hlater
  have hread : exec (.get keySha256 etag) v = (.ok value, v) := by
    simp [exec, hlast]
  obtain ⟨rfl, rfl⟩ := Prod.mk.inj (hread.symm.trans hget)
  refine ⟨hinv'', s3Discipline.refl _, ?_⟩
  have hfits := (hinv''.of_current hlast).1
  show Safe _ _ _ _ (Prog.bind (ite _ _ _) _) _
  rw [if_pos hfits]
  show Safe _ _ _ _ (ite _ _ _) _
  rw [if_pos (.inr (.inr hother))]
  exact ⟨_, rfl⟩

def s3Claims (codec : ResultCodec) : ClaimStore (Op String MutationEntry)
    (fun o => Reply (Payload o)) (History String MutationEntry) where
  faulty := machine
  answering := answeringBucket
  claimMutation := claimMutation codec
  accepts keySha256 operation runId result :=
    ∃ entry, mutationEntry codec keySha256 operation runId result = .ok entry
  claimed history keySha256 := (current history keySha256).map Version.value
  empty := []
  discipline := s3Discipline
  empty_inv := by
    intro write hwrite
    cases hwrite
  answering_faulty _ _ _ _ h := .inl h
  claimed_mono := by
    intro s t keySha256 entry hle hclaimed
    obtain ⟨version, hcurrent, rfl⟩ := Option.map_eq_some_iff.mp hclaimed
    rw [hle _ _ hcurrent]
    rfl
  claims := safe_claimMutation
  conflicts label _ _ _ _ _ _ haccepted hclaimed hother :=
    conflict_claimMutation label haccepted hclaimed hother

end S3

section Postgresql

open PostgresqlRunStore (Database MutationRow)

structure MutationClaim where
  keySha256 : String
  operation : String
  runId : String
  result : String
  deriving Repr, DecidableEq

variable (codec : ResultCodec)

/-- One transaction: it commits, or raises and is rolled back. -/
def transact (o : MutationClaim) (db : Database) : Except RunStoreError String × Database :=
  match PostgresqlRunStore.claimMutation db codec o.keySha256 o.operation o.runId o.result with
  | .ok (original, after) => (.ok original, after)
  | .error e => (.error e, db)

/-- The database: a transaction is answered, or fails whether it has committed or not. -/
def faultyDatabase : Machine MutationClaim (fun _ => Except RunStoreError String) Database where
  step o s r t := transact codec o s = (r, t) ∨
    ((∃ message, r = .error (.failure message)) ∧ (t = s ∨ t = (transact codec o s).2))

def answeringDatabase : Machine MutationClaim (fun _ => Except RunStoreError String) Database where
  step o s r t := transact codec o s = (r, t)

def claimRow (keySha256 operation runId result : String) :
    Prog MutationClaim (fun _ => Except RunStoreError String) RunStoreError String :=
  .call ⟨keySha256, operation, runId, result⟩ fun (reply : Except RunStoreError String) =>
    match reply with
    | .ok original => .ret original
    | .error e => .raise e

def entryOfRow (row : MutationRow) : MutationEntry :=
  ⟨row.keySha256, row.operation, row.runId, row.resultBytes⟩

/-- Identifiers were checked before their row was inserted. -/
def RowsChecked (db : Database) : Prop :=
  ∀ row ∈ db.mutations, isSha256 row.keySha256 = true ∧ isPortableId row.operation = true ∧
    isOpaqueId row.runId = true

def postgresqlDiscipline : Discipline Database where
  inv := RowsChecked
  le db later := ∀ keySha256 row, db.mutation keySha256 = some row →
    later.mutation keySha256 = some row
  refl _ _ _ h := h
  trans _ _ _ hab hbc keySha256 row h := hbc keySha256 row (hab keySha256 row h)

variable {codec}

theorem checkedId_eq_ok {valid : Bool} {label : String}
    (h : PostgresqlRunStore.checkedId valid label = .ok ()) : valid = true := by
  unfold PostgresqlRunStore.checkedId at h
  split at h
  next hvalid => exact hvalid
  · cases h

/-- What a claim that commits leaves behind. -/
theorem claimMutation_eq_ok {db after : Database}
    {keySha256 operation runId result original : String}
    (h : PostgresqlRunStore.claimMutation db codec keySha256 operation runId result =
      .ok (original, after)) :
    isSha256 keySha256 = true ∧ isPortableId operation = true ∧ isOpaqueId runId = true ∧
      ∃ canonical row, after.mutations = Tables.insertNew MutationRow.keySha256 db.mutations
          ⟨keySha256, operation, runId, canonical⟩ ∧
        after.mutation keySha256 = some row ∧ row.operation = operation ∧ row.runId = runId ∧
        row.resultBytes = original := by
  unfold PostgresqlRunStore.claimMutation at h
  obtain ⟨_, hkey, h⟩ := Execution.bind_eq_ok h
  obtain ⟨_, hoperation, h⟩ := Execution.bind_eq_ok h
  obtain ⟨_, hrunId, h⟩ := Execution.bind_eq_ok h
  obtain ⟨canonical, -, h⟩ := Execution.bind_eq_ok h
  refine ⟨checkedId_eq_ok hkey, checkedId_eq_ok hoperation, checkedId_eq_ok hrunId, canonical, ?_⟩
  dsimp only at h
  split at h
  · cases h
  next row hrow =>
    obtain ⟨-, -, h⟩ := Execution.bind_eq_ok h
    obtain ⟨-, -, h⟩ := Execution.bind_eq_ok h
    obtain ⟨-, -, h⟩ := Execution.bind_eq_ok h
    obtain ⟨hsame, h⟩ := Execution.guard_eq_ok h
    obtain ⟨stored, -, h⟩ := Execution.bind_eq_ok h
    obtain ⟨-, h⟩ := Execution.guard_eq_ok h
    obtain ⟨rfl, rfl⟩ := Prod.mk.inj (Except.ok.inj h)
    push Not at hsame
    exact ⟨row, rfl, hrow, hsame.2.1, hsame.2.2, rfl⟩

/-- An insert that does nothing for a key that is taken keeps every row. -/
theorem select_insertNew_of_some {rows : List MutationRow} {row old : MutationRow}
    {keySha256 : String} (h : Tables.select MutationRow.keySha256 rows keySha256 = some old) :
    Tables.select MutationRow.keySha256 (Tables.insertNew MutationRow.keySha256 rows row) keySha256 =
      some old := by
  cases hfree : Tables.select MutationRow.keySha256 rows row.keySha256 with
  | some taken => rw [Tables.insertNew_of_some hfree, h]
  | none =>
    rw [Tables.insertNew_of_none hfree, Tables.select_append_new hfree, if_neg]
    · exact h
    · rintro rfl
      rw [hfree] at h
      cases h

theorem mem_insertNew {rows : List MutationRow} {row other : MutationRow}
    (h : other ∈ Tables.insertNew MutationRow.keySha256 rows row) : other ∈ rows ∨ other = row := by
  unfold Tables.insertNew at h
  split at h
  · exact .inl h
  · simpa using h

theorem transact_keeps {o : MutationClaim} {db : Database} (hinv : RowsChecked db) :
    RowsChecked (transact codec o db).2 ∧ postgresqlDiscipline.le db (transact codec o db).2 := by
  unfold transact
  split
  next original after hok =>
    obtain ⟨hkey, hoperation, hrunId, canonical, row, hrows, -, -, -, -⟩ := claimMutation_eq_ok hok
    constructor
    · intro other hother
      rw [hrows] at hother
      rcases mem_insertNew hother with hold | rfl
      · exact hinv other hold
      · exact ⟨hkey, hoperation, hrunId⟩
    · intro keySha256 old hold
      show Tables.select _ after.mutations _ = _
      rw [hrows]
      exact select_insertNew_of_some hold
  · exact ⟨hinv, postgresqlDiscipline.refl db⟩

theorem safe_claimRow (keySha256 operation runId result : String) (s : Database) :
    Safe (faultyDatabase codec) postgresqlDiscipline
      (fun original t => ∃ entry, (t.mutation keySha256).map entryOfRow = some entry ∧
        entry.operation = operation ∧ entry.runId = runId ∧ entry.result = original)
      (fun _ _ => True) (claimRow keySha256 operation runId result) s := by
  intro t _ hinv r t' hstep
  have hkeeps := @transact_keeps codec ⟨keySha256, operation, runId, result⟩ t hinv
  rcases hstep with hserved | ⟨⟨message, rfl⟩, rfl | rfl⟩
  · rw [hserved] at hkeeps
    refine ⟨hkeeps.1, hkeeps.2, ?_⟩
    cases r with
    | error e => trivial
    | ok original =>
      unfold transact at hserved
      split at hserved
      next original' after hok =>
        obtain ⟨hreply, rfl⟩ := Prod.mk.inj hserved
        obtain rfl := Except.ok.inj hreply
        obtain ⟨-, -, -, canonical, row, -, hrow, hoperation, hrunId, hresult⟩ :=
          claimMutation_eq_ok hok
        exact ⟨entryOfRow row, by rw [hrow]; rfl, hoperation, hrunId, hresult⟩
      · cases (Prod.mk.inj hserved).1
  · exact ⟨hinv, postgresqlDiscipline.refl _, trivial⟩
  · exact ⟨hkeeps.1, hkeeps.2, trivial⟩

/-- A key that is taken by another run. -/
theorem claimMutation_of_other {db : Database} {keySha256 operation runId result canonical : String}
    {row : MutationRow} (hinv : RowsChecked db) (hkey : isSha256 keySha256 = true)
    (hoperation : isPortableId operation = true) (hrunId : isOpaqueId runId = true)
    (hresult : PostgresqlRunStore.canonicalMutationResult codec result = .ok canonical)
    (hrow : db.mutation keySha256 = some row) (hother : row.runId ≠ runId) :
    PostgresqlRunStore.claimMutation db codec keySha256 operation runId result =
      .error (.idempotencyConflict
        "The mutation idempotency key belongs to a different operation.") := by
  have hselect := @select_insertNew_of_some _ ⟨keySha256, operation, runId, canonical⟩ _ _ hrow
  obtain ⟨hrowKey, hrowOperation, hrowRunId⟩ := hinv row (Tables.mem_of_select hrow)
  unfold PostgresqlRunStore.claimMutation PostgresqlRunStore.checkedId
  simp only [hkey, hoperation, hrunId, hresult, if_true, Execution.ok_bind, hselect, hrowKey,
    hrowOperation, hrowRunId]
  rw [if_pos (.inr (.inr hother))]
  rfl

theorem conflict_claimRow {keySha256 operation runId result : String} {entry : MutationEntry}
    {s : Database}
    (haccepted : isSha256 keySha256 = true ∧ isPortableId operation = true ∧
      isOpaqueId runId = true ∧
      ∃ canonical, PostgresqlRunStore.canonicalMutationResult codec result = .ok canonical)
    (hclaimed : (s.mutation keySha256).map entryOfRow = some entry) (hother : entry.runId ≠ runId) :
    Safe (answeringDatabase codec) postgresqlDiscipline (fun _ _ => False)
      (fun e _ => ∃ message, e = .idempotencyConflict message)
      (claimRow keySha256 operation runId result) s := by
  obtain ⟨hkey, hoperation, hrunId, canonical, hresult⟩ := haccepted
  obtain ⟨row, hrow, rfl⟩ := Option.map_eq_some_iff.mp hclaimed
  intro t ht hinv r t' hstep
  have hrefused := claimMutation_of_other hinv hkey hoperation hrunId hresult (ht _ _ hrow) hother
  have hserved : transact codec ⟨keySha256, operation, runId, result⟩ t = (.error
      (.idempotencyConflict "The mutation idempotency key belongs to a different operation."), t) := by
    unfold transact
    rw [hrefused]
  obtain ⟨rfl, rfl⟩ := Prod.mk.inj (hserved.symm.trans hstep)
  exact ⟨hinv, postgresqlDiscipline.refl _, _, rfl⟩

def postgresqlClaims (codec : ResultCodec) :
    ClaimStore MutationClaim (fun _ => Except RunStoreError String) Database where
  faulty := faultyDatabase codec
  answering := answeringDatabase codec
  claimMutation _ := claimRow
  accepts keySha256 operation runId result := isSha256 keySha256 = true ∧
    isPortableId operation = true ∧ isOpaqueId runId = true ∧
    ∃ canonical, PostgresqlRunStore.canonicalMutationResult codec result = .ok canonical
  claimed db keySha256 := (db.mutation keySha256).map entryOfRow
  empty := Database.empty
  discipline := postgresqlDiscipline
  empty_inv := by
    intro row hrow
    cases hrow
  answering_faulty _ _ _ _ h := .inl h
  claimed_mono := by
    intro s t keySha256 entry hle hclaimed
    obtain ⟨row, hrow, rfl⟩ := Option.map_eq_some_iff.mp hclaimed
    rw [hle _ _ hrow]
    rfl
  claims _ := safe_claimRow
  conflicts _ _ _ _ _ _ _ haccepted hclaimed hother :=
    conflict_claimRow haccepted hclaimed hother

end Postgresql

end Dander.MutationClaims
