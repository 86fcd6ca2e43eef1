import Dander.AppendOnly
import Dander.WriterSemantics
import Dander.ThreeValued

/-!
# Snapshot writes of four warehouses

Snapshots are sets of rows that only grow. PostgreSQL, Redshift and Snowflake compare rows by the
values of their columns, where nulls are equal, and BigQuery by the JSON texts of the columns.
Redshift leaves out a batch, and Snowflake parts of one, that the load history has.
-/
namespace Dander

open AppendOnly Execution
open Redshift (Row)

namespace Bigquery

section Snapshots

variable {n : ℕ} {V : Type}

/-- `TO_JSON_STRING` of the columns' values, and the order in which rows are numbered, which a
query leaves open. -/
structure SnapshotEngine (n : ℕ) (V : Type) where
  toJsonString : Fin n → Option V → String
  order : List (Row n V) → List (Row n V)
  order_perm : ∀ rows, (order rows).Perm rows

variable (engine : SnapshotEngine n V)

/-- All columns have the same texts. -/
def SnapshotEngine.SameTexts (row other : Row n V) : Prop :=
  ∀ field, engine.toJsonString field (row field) = engine.toJsonString field (other field)

instance : DecidableRel engine.SameTexts := fun row other =>
  inferInstanceAs (Decidable (∀ field,
    engine.toJsonString field (row field) = engine.toJsonString field (other field)))

/-- `QUALIFY ROW_NUMBER() OVER (PARTITION BY TO_JSON_STRING(source)) = 1`: the text of a row spells
out the texts of its columns. -/
def qualified : List (Row n V) → List (Row n V)
  | [] => []
  | row :: rest => row :: (qualified rest).filter fun other => decide (¬ engine.SameTexts row other)

/-- `INSERT ... SELECT ... WHERE NOT EXISTS` a row of the same texts. -/
def snapshotInsert (table : Multiset (Row n V)) (staged : List (Row n V)) : Multiset (Row n V) :=
  table + Multiset.ofList (qualified engine (engine.order (staged.filter fun source =>
    decide (∀ target ∈ table, ¬ engine.SameTexts target source))))

/-- What is asked of the records before any null check, in their order. -/
def validatedBatch (check : ℕ → Row n V → Except BigQueryWriteError Unit) :
    ℕ → List (Row n V) → Except BigQueryWriteError Unit
  | _, [] => .ok ()
  | index, row :: rest => do
    check index row
    validatedBatch check (index + 1) rest

def checkSnapshots (snapshotField : Fin n) : ℕ → List (Row n V) → Except BigQueryWriteError Unit
  | _, [] => .ok ()
  | index, row :: rest => do
    if (row snapshotField).isNone then
      throw ⟨s!"Record {index} has a null snapshot value"⟩
    checkSnapshots snapshotField (index + 1) rest

/-- One call of the snapshot writer. -/
def snapshotWrite (check : ℕ → Row n V → Except BigQueryWriteError Unit) (snapshotField : Fin n)
    (table : Multiset (Row n V)) (records : List (Row n V)) :
    Except BigQueryWriteError (Multiset (Row n V)) := do
  validatedBatch check 0 records
  if records.isEmpty then return table
  checkSnapshots snapshotField 0 records
  return snapshotInsert engine table records

variable {engine} {table : Multiset (Row n V)}

theorem mem_of_mem_qualified {rows : List (Row n V)} {row : Row n V}
    (h : row ∈ qualified engine rows) : row ∈ rows := by
  induction rows with
  | nil => cases h
  | cons first rest ih =>
    rcases List.mem_cons.mp h with rfl | hrest
    · exact List.mem_cons_self
    · exact List.mem_cons_of_mem _ (ih (List.mem_filter.mp hrest).1)

theorem pairwise_qualified (rows : List (Row n V)) :
    (qualified engine rows).Pairwise fun row other => ¬ engine.SameTexts row other := by
  induction rows with
  | nil => exact List.Pairwise.nil
  | cons first rest ih =>
    refine List.Pairwise.cons ?_ (ih.filter _)
    intro other hother
    exact of_decide_eq_true (List.mem_filter.mp hother).2

theorem exists_qualified {rows : List (Row n V)} {row : Row n V} (h : row ∈ rows) :
    ∃ other ∈ qualified engine rows, engine.SameTexts other row := by
  induction rows with
  | nil => cases h
  | cons first rest ih =>
    by_cases hsame : engine.SameTexts first row
    · exact ⟨first, List.mem_cons_self, hsame⟩
    · rcases List.mem_cons.mp h with rfl | hrest
      · exact absurd (fun _ => rfl) hsame
      · obtain ⟨other, hother, hsameOther⟩ := ih hrest
        refine ⟨other, List.mem_cons_of_mem _ (List.mem_filter.mpr ⟨hother, ?_⟩), hsameOther⟩
        refine decide_eq_true fun hfirst => hsame fun field => ?_
        rw [hfirst field, hsameOther field]

theorem appends_snapshotInsert (engine : SnapshotEngine n V) (table : Multiset (Row n V))
    (records : List (Row n V)) :
    Appends engine.SameTexts table records (snapshotInsert engine table records) := by
  have hmem : ∀ row, row ∈ engine.order (records.filter fun source =>
      decide (∀ target ∈ table, ¬ engine.SameTexts target source)) ↔
        row ∈ records ∧ ∀ target ∈ table, ¬ engine.SameTexts target row := by
    intro row
    rw [(engine.order_perm _).mem_iff, List.mem_filter, decide_eq_true_eq]
  constructor
  · refine ⟨_, rfl, ?_, ⟨_, rfl, pairwise_qualified _⟩⟩
    intro row hrow
    exact (hmem row).mp (mem_of_mem_qualified hrow)
  · intro record hrecord
    by_cases hold : ∃ target ∈ table, engine.SameTexts target record
    · obtain ⟨target, htarget, hsame⟩ := hold
      exact ⟨target, Multiset.mem_add.mpr (.inl htarget), hsame⟩
    · have hnew := (hmem record).mpr ⟨hrecord, fun target htarget hsame =>
        hold ⟨target, htarget, hsame⟩⟩
      obtain ⟨row, hrow, hsame⟩ := @exists_qualified n V engine _ _ hnew
      exact ⟨row, Multiset.mem_add.mpr (.inr hrow), hsame⟩

/-- The snapshot writer, one batch after another. -/
def snapshotWriter (engine : SnapshotEngine n V)
    (check : ℕ → Row n V → Except BigQueryWriteError Unit) (snapshotField : Fin n) :
    Appender (Multiset (Row n V)) (List (Row n V)) (Row n V) BigQueryWriteError where
  write := snapshotWrite engine check snapshotField
  rows := id
  taken _ records := records

theorem snapshotWriter_sound (engine : SnapshotEngine n V)
    (check : ℕ → Row n V → Except BigQueryWriteError Unit) (snapshotField : Fin n) :
    (snapshotWriter engine check snapshotField).Sound engine.SameTexts := by
  have hwrite : ∀ table records after,
      snapshotWrite engine check snapshotField table records = .ok after →
        after = snapshotInsert engine table records ∧
          ∀ other, snapshotWrite engine check snapshotField other records =
            .ok (snapshotInsert engine other records) := by
    intro table records after h
    unfold snapshotWrite at h ⊢
    obtain ⟨⟨⟩, hbatch, h⟩ := bind_eq_ok h
    cases records with
    | nil =>
      obtain rfl := Except.ok.inj h
      have hempty : engine.order [] = [] := (engine.order_perm []).eq_nil
      have hnone : ∀ other, snapshotInsert engine other [] = other := by
        intro other
        simp [snapshotInsert, hempty, qualified]
      refine ⟨(hnone table).symm, ?_⟩
      intro other
      rw [hnone other]
      rfl
    | cons first rest =>
      obtain ⟨⟨⟩, hsnapshots, h⟩ := bind_eq_ok h
      obtain rfl := Except.ok.inj h
      refine ⟨rfl, ?_⟩
      intro other
      rw [hbatch, ok_bind]
      simp only [List.isEmpty_cons, Bool.false_eq_true, if_false, hsnapshots, ok_bind]
      rfl
  constructor
  · intro table records after h
    obtain ⟨rfl, -⟩ := hwrite table records after h
    exact appends_snapshotInsert engine table records
  · intro table records after _ other
    exact List.Subset.refl _
  · intro table records after h other
    exact ⟨_, (hwrite table records after h).2 other⟩

end Snapshots

end Bigquery

section Spellings

variable {n : ℕ} {V : Type} [DecidableEq V]

/-- `OR` of three-valued conditions. -/
def disjunction (a b : Option Bool) : Option Bool :=
  ThreeValued.negation (ThreeValued.conjunction (ThreeValued.negation a) (ThreeValued.negation b))

/-- `left IS NOT DISTINCT FROM right` -/
def isNotDistinctFrom (left right : Option V) : Option Bool := some (decide (left = right))

/-- `EQUAL_NULL(left, right)` -/
def equalNull (left right : Option V) : Option Bool := some (decide (left = right))

/-- `(left = right OR (left IS NULL AND right IS NULL))` -/
def nullSafeEqual (left right : Option V) : Option Bool :=
  disjunction (ThreeValued.equal left right)
    (ThreeValued.conjunction (some left.isNone) (some right.isNone))

theorem isNotDistinctFrom_iff {left right : Option V} :
    isNotDistinctFrom left right = some true ↔ left = right := by
  simp [isNotDistinctFrom]

theorem equalNull_iff {left right : Option V} :
    equalNull left right = some true ↔ left = right := by
  simp [equalNull]

theorem nullSafeEqual_iff {left right : Option V} :
    nullSafeEqual left right = some true ↔ left = right := by
  cases left with
  | none =>
    cases right with
    | none =>
      have htrue : nullSafeEqual (none : Option V) none = some true := rfl
      simp [htrue]
    | some b =>
      have hunknown : nullSafeEqual none (some b) = none := rfl
      simp [hunknown]
  | some a =>
    cases right with
    | none =>
      have hunknown : nullSafeEqual (some a) none = none := rfl
      simp [hunknown]
    | some b =>
      have hvalue : nullSafeEqual (some a) (some b) = some (decide (a = b)) := by
        have hequal : ThreeValued.equal (some a) (some b) = some (decide (a = b)) := rfl
        rw [nullSafeEqual, hequal]
        cases decide (a = b) <;> rfl
      simp [hvalue]

end Spellings

section Comparisons

variable {n : ℕ} {V : Type}

/-- The comparison of all columns, joined by `AND`. -/
def identical (compare : Option V → Option V → Option Bool) (existing incoming : Row n V) :
    Option Bool :=
  ThreeValued.all ((List.finRange n).map fun field => compare (existing field) (incoming field))

theorem identical_iff {compare : Option V → Option V → Option Bool}
    (hcompare : ∀ left right, compare left right = some true ↔ left = right)
    {existing incoming : Row n V} :
    identical compare existing incoming = some true ↔ existing = incoming := by
  rw [identical, ThreeValued.all_eq_true, List.forall_mem_map]
  constructor
  · intro h
    funext field
    exact (hcompare _ _).mp (h field (List.mem_finRange field))
  · rintro rfl field -
    exact (hcompare _ _).mpr rfl

/-- `INSERT INTO target SELECT DISTINCT ... FROM staged AS incoming WHERE eligible AND NOT EXISTS
(SELECT 1 FROM target AS existing WHERE ...)`, with the comparison as it is spelled. -/
def insertDistinct [DecidableEq V] (compare : Option V → Option V → Option Bool)
    (eligible : Row n V → Bool) (table : Multiset (Row n V)) (staged : List (Row n V × ℕ)) :
    Multiset (Row n V) :=
  table + Multiset.dedup (Multiset.ofList ((staged.map Prod.fst).filter fun incoming =>
    eligible incoming && decide (∀ existing ∈ table,
      identical compare existing incoming ≠ some true)))

theorem notMem_iff {compare : Option V → Option V → Option Bool}
    (hcompare : ∀ left right, compare left right = some true ↔ left = right)
    (table : Multiset (Row n V)) (incoming : Row n V) :
    incoming ∉ table ↔ ∀ existing ∈ table, identical compare existing incoming ≠ some true := by
  constructor
  · intro hnew existing hexisting hidentical
    rw [identical_iff hcompare] at hidentical
    exact hnew (hidentical ▸ hexisting)
  · intro hall hin
    exact hall incoming hin ((identical_iff hcompare).mpr rfl)

end Comparisons

section Statements

variable {n : ℕ} {V : Type} [LinearOrder V] (table : Multiset (Row n V))
  (staged : List (Row n V × ℕ))

theorem postgresql_snapshotInsert : Postgresql.snapshotInsert table staged =
    insertDistinct isNotDistinctFrom (fun _ => true) table staged := by
  unfold Postgresql.snapshotInsert insertDistinct
  simp only [notMem_iff (fun _ _ => isNotDistinctFrom_iff), Bool.true_and]

theorem redshift_snapshotInsert (snapshotField : Fin n) :
    Redshift.snapshotInsert snapshotField table staged =
      insertDistinct nullSafeEqual (fun incoming => (incoming snapshotField).isSome) table
        staged := by
  unfold Redshift.snapshotInsert insertDistinct
  simp only [notMem_iff (fun _ _ => nullSafeEqual_iff)]

theorem snowflake_snapshotInsert (snapshotField : Fin n) :
    Redshift.snapshotInsert snapshotField table staged =
      insertDistinct equalNull (fun incoming => (incoming snapshotField).isSome) table staged := by
  unfold Redshift.snapshotInsert insertDistinct
  simp only [notMem_iff (fun _ _ => equalNull_iff)]

end Statements

namespace Postgresql

section Snapshots

variable {n : ℕ} {V : Type} [LinearOrder V]

/-- The writer in snapshot mode, one batch after another. -/
def snapshotWriter (check : ℕ → Row n V → Except PostgreSQLWriteError Unit)
    (businessKey : List (Fin n)) (snapshotField : Fin n) :
    Appender (Multiset (Row n V)) (List (Row n V)) (Row n V) PostgreSQLWriteError where
  write := write check ⟨.snapshot snapshotField, businessKey⟩
  rows := id
  taken _ records := records

theorem snapshotWriter_sound (check : ℕ → Row n V → Except PostgreSQLWriteError Unit)
    (businessKey : List (Fin n)) (snapshotField : Fin n) :
    (snapshotWriter check businessKey snapshotField).Sound fun row other => row = other := by
  have hpublish : ∀ (table : Multiset (Row n V)) (records : List (Row n V)),
      publish ⟨.snapshot snapshotField, businessKey⟩ table (records.zipIdx 1) =
        snapshotInsert table (records.zipIdx 1) := by
    intro table records
    cases records with
    | nil => simp [publish, snapshotInsert]
    | cons first rest => rfl
  have hwrite : ∀ (table : Multiset (Row n V)) (records : List (Row n V)) after,
      write check ⟨.snapshot snapshotField, businessKey⟩ table records = .ok after →
        after = snapshotInsert table (records.zipIdx 1) ∧
          ∀ other, write check ⟨.snapshot snapshotField, businessKey⟩ other records =
            .ok (snapshotInsert other (records.zipIdx 1)) := by
    intro table records after h
    unfold write at h ⊢
    obtain ⟨⟨⟩, hvalid, h⟩ := bind_eq_ok h
    obtain ⟨staged, hstaged, h⟩ := bind_eq_ok h
    obtain ⟨hzip, -⟩ := recordValues_ok hstaged
    obtain rfl := Except.ok.inj h
    rw [hzip, hpublish]
    refine ⟨rfl, ?_⟩
    intro other
    rw [hvalid, ok_bind, hstaged, ok_bind, hzip, hpublish]
    rfl
  constructor
  · intro table records after h
    obtain ⟨rfl, -⟩ := hwrite table records after h
    have happends := appends_dedup table records
    show Appends _ table records (snapshotInsert table (records.zipIdx 1))
    rw [snapshotInsert, List.zipIdx_map_fst]
    exact happends
  · intro table records after _ other
    exact List.Subset.refl _
  · intro table records after h other
    exact ⟨_, (hwrite table records after h).2 other⟩

end Snapshots

end Postgresql

section Loads

/-- A batch with the run that it is written in. -/
structure RunBatch (n : ℕ) (V : Type) where
  runId : String
  records : List (Row n V)

variable {n : ℕ} {V : Type} [LinearOrder V]

/-- Records that have the snapshot column are appended. -/
theorem appends_snapshotInsert {snapshotField : Fin n} {staged : List (Row n V × ℕ)}
    (table : Multiset (Row n V))
    (hsnapshot : ∀ row ∈ staged.map Prod.fst, (row snapshotField).isSome = true) :
    Appends (fun row other => row = other) table (staged.map Prod.fst)
      (Redshift.snapshotInsert snapshotField table staged) := by
  have hfilter : (staged.map Prod.fst).filter (fun incoming =>
      (incoming snapshotField).isSome && decide (incoming ∉ table)) =
        (staged.map Prod.fst).filter fun incoming => decide (incoming ∉ table) := by
    apply List.filter_congr
    intro row hrow
    rw [hsnapshot row hrow, Bool.true_and]
  rw [Redshift.snapshotInsert, hfilter]
  exact appends_dedup table (staged.map Prod.fst)

end Loads

namespace Redshift

section Snapshots

variable {n : ℕ} {V : Type} [LinearOrder V]

/-- The target of a writer in snapshot mode. -/
structure SnapshotTarget (n : ℕ) where
  snapshotField : Fin n
  businessKey : List (Fin n)
  targetId : String
  pipelineId : String
  schemaFingerprint : String

def SnapshotTarget.during (target : SnapshotTarget n) (runId : String) : WriteTarget n where
  mode := .snapshot target.snapshotField
  businessKey := target.businessKey
  targetId := target.targetId
  pipelineId := target.pipelineId
  runId := runId
  schemaFingerprint := target.schemaFingerprint

variable (check : ℕ → Row n V → Except RedshiftWriteError Unit)
  (digest : List (Row n V × ℕ) → String) (target : SnapshotTarget n)

/-- The batch is in the load history. -/
def Recorded (warehouse : Warehouse n V) (batch : RunBatch n V) : Prop :=
  (target.during batch.runId).load (digest batch.records.zipIdx) ∈ warehouse.history

instance (warehouse : Warehouse n V) (batch : RunBatch n V) :
    Decidable (Recorded digest target warehouse batch) :=
  inferInstanceAs (Decidable (_ ∈ warehouse.history))

/-- The writer in snapshot mode takes the batches that are not recorded. -/
def snapshotWriter : Appender (Warehouse n V) (RunBatch n V) (Row n V) RedshiftWriteError where
  write warehouse batch :=
    write check digest (target.during batch.runId) warehouse batch.records
  rows := Warehouse.table
  taken warehouse batch := if Recorded digest target warehouse batch then [] else batch.records

/-- What is recorded is not taken later. -/
theorem taken_subset {warehouse after : Warehouse n V}
    (hkept : ∀ load ∈ warehouse.history, load ∈ after.history) (batch : RunBatch n V) :
    (snapshotWriter check digest target).taken after batch ⊆
      (snapshotWriter check digest target).taken warehouse batch := by
  dsimp only [snapshotWriter]
  by_cases hrecorded : Recorded digest target after batch
  · rw [if_pos hrecorded]
    exact List.nil_subset _
  · have hbefore : ¬ Recorded digest target warehouse batch :=
      fun hin => hrecorded (hkept _ hin)
    rw [if_neg hrecorded, if_neg hbefore]
    exact List.Subset.refl _

theorem snapshotWriter_sound :
    (snapshotWriter check digest target).Sound fun row other => row = other := by
  have hwrite : ∀ warehouse batch after,
      (snapshotWriter check digest target).write warehouse batch = .ok after →
        (∀ row ∈ batch.records, Checked (target.during batch.runId) row) ∧
        after = ⟨publish (target.during batch.runId)
              (decide (Recorded digest target warehouse batch)) warehouse.table
              batch.records.zipIdx,
            if decide (Recorded digest target warehouse batch) = true then warehouse.history
            else warehouse.history ++
              [(target.during batch.runId).load (digest batch.records.zipIdx)]⟩ ∧
          ∀ other, ∃ last, (snapshotWriter check digest target).write other batch = .ok last := by
    intro warehouse batch after h
    dsimp only [snapshotWriter] at h ⊢
    unfold write at h ⊢
    obtain ⟨⟨⟩, hvalid, h⟩ := bind_eq_ok h
    obtain ⟨staged, hstaged, h⟩ := bind_eq_ok h
    obtain ⟨rfl, hchecked⟩ := withOrdinals_ok hstaged
    obtain rfl := Except.ok.inj h
    refine ⟨hchecked, rfl, ?_⟩
    intro other
    rw [hvalid, ok_bind, hstaged, ok_bind]
    exact ⟨_, rfl⟩
  constructor
  · intro warehouse batch after h
    obtain ⟨hchecked, rfl, -⟩ := hwrite warehouse batch after h
    by_cases hrecorded : Recorded digest target warehouse batch
    · have htaken : (snapshotWriter check digest target).taken warehouse batch = [] :=
        if_pos hrecorded
      rw [htaken, decide_eq_true hrecorded, publish_loaded]
      exact ⟨⟨0, (add_zero _).symm, by simp, [], rfl, List.Pairwise.nil⟩, by simp⟩
    · have htaken : (snapshotWriter check digest target).taken warehouse batch = batch.records :=
        if_neg hrecorded
      have hsnapshot : ∀ row ∈ batch.records.zipIdx.map Prod.fst,
          (row target.snapshotField).isSome = true := by
        intro row hrow
        rw [List.zipIdx_map_fst] at hrow
        obtain ⟨value, hvalue⟩ := (hchecked row hrow).snapshot target.snapshotField rfl
        rw [hvalue, Option.isSome_some]
      have happends := appends_snapshotInsert warehouse.table hsnapshot
      have hpublish : publish (target.during batch.runId) false warehouse.table
          batch.records.zipIdx =
            snapshotInsert target.snapshotField warehouse.table batch.records.zipIdx := by
        cases hrecords : batch.records with
        | nil => simp [publish, snapshotInsert]
        | cons first rest => rfl
      rw [htaken, decide_eq_false hrecorded, hpublish]
      rw [List.zipIdx_map_fst] at happends
      exact happends
  · intro warehouse batch after h other
    obtain ⟨-, rfl, -⟩ := hwrite warehouse batch after h
    apply taken_subset
    intro load hload
    dsimp only
    split
    · exact hload
    · exact List.mem_append_left _ hload
  · intro warehouse batch after h other
    exact (hwrite warehouse batch after h).2.2 other

end Snapshots

end Redshift

namespace Snowflake

section Snapshots

variable {n : ℕ} {V : Type} {platform : Platform n V} {businessKey : List (Fin n)}
  {snapshotField : Fin n} {records : List (Row n V)} {ordinal : ℕ}

theorem isSome_of_withOrdinals {staged : List (Row n V × ℕ)}
    (h : withOrdinals platform businessKey none (some snapshotField) ordinal records =
      .ok staged) : ∀ row ∈ records, (row snapshotField).isSome = true := by
  induction records generalizing ordinal staged with
  | nil => simp
  | cons record rest ih =>
    unfold withOrdinals at h
    obtain ⟨⟨⟩, hrecord, h⟩ := bind_eq_ok h
    obtain ⟨⟨⟩, -, h⟩ := bind_eq_ok h
    obtain ⟨tail, htail, -⟩ := bind_eq_ok h
    intro row hrow
    rcases List.mem_cons.mp hrow with rfl | hin
    · unfold checkRecord at hrecord
      obtain ⟨-, hrecord⟩ := guard_eq_ok hrecord
      obtain ⟨-, hrecord⟩ := guard_eq_ok hrecord
      obtain ⟨hnull, -⟩ := guard_eq_ok hrecord
      simpa [Option.isSome_iff_ne_none] using hnull
    · exact ih htail row hin

/-- The target of a writer in snapshot mode. -/
structure SnapshotTarget (n : ℕ) where
  snapshotField : Fin n
  businessKey : List (Fin n)
  settings : StagingSettings
  targetId : String
  pipelineId : String

def SnapshotTarget.writer (target : SnapshotTarget n) : Writer n :=
  ⟨.snapshot target.snapshotField, target.businessKey, target.settings⟩

def SnapshotTarget.during (target : SnapshotTarget n) (runId : String) : RunIdentity :=
  ⟨target.targetId, target.pipelineId, runId⟩

/-- The staged rows of the parts of a batch that are not in the load history. -/
def pendingRows (platform : Platform n V) (target : SnapshotTarget n)
    (history : List LoadHistory) (batch : RunBatch n V) : List (Row n V × ℕ) :=
  (pendingArtifacts (target.during batch.runId) history
    (stagedLoad platform target.settings batch.records.zipIdx)).flatMap StagedArtifact.rows

theorem pendingRows_subset (platform : Platform n V) (target : SnapshotTarget n)
    {history later : List LoadHistory} (hkept : ∀ load ∈ history, load ∈ later)
    (batch : RunBatch n V) :
    pendingRows platform target later batch ⊆ pendingRows platform target history batch := by
  intro row hrow
  obtain ⟨artifact, hartifact, hin⟩ := List.mem_flatMap.mp hrow
  refine List.mem_flatMap.mpr ⟨artifact, ?_, hin⟩
  obtain ⟨hmem, hpending⟩ := List.mem_filter.mp hartifact
  refine List.mem_filter.mpr ⟨hmem, ?_⟩
  simp only [artifactCommitted, Bool.not_eq_true', decide_eq_false_iff_not] at hpending ⊢
  exact fun hin => hpending (hkept _ hin)

variable [LinearOrder V] (platform : Platform n V) (target : SnapshotTarget n)

/-- The writer in snapshot mode takes the records of the parts that are not recorded. -/
def snapshotWriter : Appender (Warehouse (Multiset (Row n V))) (RunBatch n V) (Row n V)
    SnowflakeWriteError where
  write warehouse batch :=
    write platform (target.during batch.runId) target.writer warehouse batch.records
  rows := Warehouse.table
  taken warehouse batch :=
    (pendingRows platform target warehouse.history batch).map Prod.fst

/-- A load of snapshots inserts the rows of its pending parts. -/
theorem table_loadAndPublish (warehouse : Warehouse (Multiset (Row n V)))
    (batch : RunBatch n V) :
    (loadAndPublish (target.during batch.runId)
        (publicationStatements target.writer.mode target.businessKey) warehouse
        (stagedLoad platform target.settings batch.records.zipIdx)).table =
      Redshift.snapshotInsert target.snapshotField warehouse.table
        (pendingRows platform target warehouse.history batch) := by
  have hnone : ∀ table : Multiset (Row n V),
      Redshift.snapshotInsert target.snapshotField table [] = table := by
    intro table
    simp [Redshift.snapshotInsert]
  by_cases hempty : (stagedLoad platform target.settings batch.records.zipIdx).rows = []
  · have hpending : pendingRows platform target warehouse.history batch = [] := by
      have hsublist := pending_sublist (target.during batch.runId) warehouse.history
        (stagedLoad platform target.settings batch.records.zipIdx)
      rwa [hempty, List.sublist_nil] at hsublist
    rw [loadAndPublish_empty hempty, hpending, hnone]
    rfl
  · by_cases hpending : pendingArtifacts (target.during batch.runId) warehouse.history
        (stagedLoad platform target.settings batch.records.zipIdx) = []
    · rw [loadAndPublish_skipped hempty hpending, pendingRows, hpending, List.flatMap_nil, hnone]
    · rw [loadAndPublish_pending hempty hpending]
      rfl

theorem history_loadAndPublish (warehouse : Warehouse (Multiset (Row n V)))
    (batch : RunBatch n V) : ∀ load ∈ warehouse.history, load ∈
      (loadAndPublish (target.during batch.runId)
        (publicationStatements target.writer.mode target.businessKey) warehouse
        (stagedLoad platform target.settings batch.records.zipIdx)).history := by
  intro load hload
  by_cases hempty : (stagedLoad platform target.settings batch.records.zipIdx).rows = []
  · rw [loadAndPublish_empty hempty]
    exact hload
  · by_cases hpending : pendingArtifacts (target.during batch.runId) warehouse.history
        (stagedLoad platform target.settings batch.records.zipIdx) = []
    · rw [loadAndPublish_skipped hempty hpending]
      exact hload
    · rw [loadAndPublish_pending hempty hpending]
      exact mem_loadHistory (.inl hload)

theorem snapshotWriter_sound :
    (snapshotWriter platform target).Sound fun row other => row = other := by
  have hwrite : ∀ warehouse batch after,
      (snapshotWriter platform target).write warehouse batch = .ok after →
        (∀ row ∈ batch.records, (row target.snapshotField).isSome = true) ∧
        after = loadAndPublish (target.during batch.runId)
          (publicationStatements target.writer.mode target.businessKey) warehouse
          (stagedLoad platform target.settings batch.records.zipIdx) ∧
        ∀ other, ∃ last, (snapshotWriter platform target).write other batch = .ok last := by
    intro warehouse batch after h
    dsimp only [snapshotWriter] at h ⊢
    unfold write at h ⊢
    obtain ⟨load, hload, h⟩ := bind_eq_ok h
    obtain rfl := Except.ok.inj h
    have hprepared := hload
    unfold Writer.prepare at hprepared
    obtain ⟨⟨⟩, -, hprepared⟩ := bind_eq_ok hprepared
    obtain ⟨rfl, -⟩ := prepare_ok hprepared
    unfold prepare at hprepared
    obtain ⟨staged, hstaged, -⟩ := bind_eq_ok hprepared
    refine ⟨isSome_of_withOrdinals hstaged, rfl, ?_⟩
    intro other
    rw [hload, ok_bind]
    exact ⟨_, rfl⟩
  constructor
  · intro warehouse batch after h
    obtain ⟨hsnapshot, rfl, -⟩ := hwrite warehouse batch after h
    have hrows : ∀ row ∈ (pendingRows platform target warehouse.history batch).map Prod.fst,
        (row target.snapshotField).isSome = true := by
      intro row hrow
      obtain ⟨staged, hstaged, rfl⟩ := List.mem_map.mp hrow
      have hsublist := pending_sublist (target.during batch.runId) warehouse.history
        (stagedLoad platform target.settings batch.records.zipIdx)
      rw [rows_stagedLoad] at hsublist
      exact hsnapshot staged.1 (List.fst_mem_of_mem_zipIdx (hsublist.subset hstaged))
    have happends := appends_snapshotInsert warehouse.table hrows
    rw [← table_loadAndPublish] at happends
    exact happends
  · intro warehouse batch after h other
    obtain ⟨-, rfl, -⟩ := hwrite warehouse batch after h
    exact List.map_subset _ (pendingRows_subset platform target
      (history_loadAndPublish platform target warehouse batch) other)
  · intro warehouse batch after h other
    exact (hwrite warehouse batch after h).2.2 other

end Snapshots

end Snowflake

namespace Snapshots

section Agreement

variable {n : ℕ} {V : Type} [LinearOrder V]

/-- Every run of batches of a writer is append-only. -/
def AppendOnlyRuns {S B R ε : Type} (writer : Appender S B R ε) (same : R → R → Prop) : Prop :=
  ∀ start batches final, batches.foldlM writer.write start = .ok final →
    writer.Run same start batches final

/-- Whatever the target, its load history and the batches: no writer changes or removes a row, and
each adds just those of the records it takes that the target does not have, once, and for good.
Redshift takes the batches, and Snowflake the parts of them, that are not recorded as loaded.
BigQuery compares the JSON texts of the columns, the others the columns with nulls equal, however
their statements spell that. -/
theorem snapshot_writers
    (postgresqlCheck : ℕ → Row n V → Except Postgresql.PostgreSQLWriteError Unit)
    (businessKey : List (Fin n)) (snapshotField : Fin n)
    (redshiftCheck : ℕ → Row n V → Except Redshift.RedshiftWriteError Unit)
    (digest : List (Row n V × ℕ) → String) (redshiftTarget : Redshift.SnapshotTarget n)
    (platform : Snowflake.Platform n V) (snowflakeTarget : Snowflake.SnapshotTarget n)
    (engine : Bigquery.SnapshotEngine n V)
    (bigqueryCheck : ℕ → Row n V → Except Bigquery.BigQueryWriteError Unit) :
    (AppendOnlyRuns (Postgresql.snapshotWriter postgresqlCheck businessKey snapshotField)
        (fun row other => row = other) ∧
      AppendOnlyRuns (Redshift.snapshotWriter redshiftCheck digest redshiftTarget)
        (fun row other => row = other) ∧
      AppendOnlyRuns (Snowflake.snapshotWriter platform snowflakeTarget)
        (fun row other => row = other) ∧
      AppendOnlyRuns (Bigquery.snapshotWriter engine bigqueryCheck snapshotField)
        engine.SameTexts) ∧
    ∀ (table : Multiset (Row n V)) (staged : List (Row n V × ℕ)) (field : Fin n),
      Postgresql.snapshotInsert table staged =
        insertDistinct isNotDistinctFrom (fun _ => true) table staged ∧
      Redshift.snapshotInsert field table staged =
        insertDistinct nullSafeEqual (fun incoming => (incoming field).isSome) table staged ∧
      Redshift.snapshotInsert field table staged =
        insertDistinct equalNull (fun incoming => (incoming field).isSome) table staged := by
  refine ⟨⟨?_, ?_, ?_, ?_⟩, ?_⟩
  · intro start batches final hrun
    exact (Postgresql.snapshotWriter_sound postgresqlCheck businessKey snapshotField).run hrun
  · intro start batches final hrun
    exact (Redshift.snapshotWriter_sound redshiftCheck digest redshiftTarget).run hrun
  · intro start batches final hrun
    exact (Snowflake.snapshotWriter_sound platform snowflakeTarget).run hrun
  · intro start batches final hrun
    exact (Bigquery.snapshotWriter_sound engine bigqueryCheck snapshotField).run hrun
  · intro table staged field
    exact ⟨postgresql_snapshotInsert table staged, redshift_snapshotInsert table staged field,
      snowflake_snapshotInsert table staged field⟩

end Agreement

section Example

/-- A date and a JSON column, whose values are their JSON texts. -/
def documentEngine : Bigquery.SnapshotEngine 2 String where
  toJsonString field value :=
    match value with
    | none => "null"
    | some text => if field = 0 then "\"" ++ text ++ "\"" else text
  order := id
  order_perm _ := List.Perm.refl _

def documented (document : Option String) : Row 2 String :=
  fun field => if field = 0 then some "2026-01-01" else document

def documentTarget : Redshift.SnapshotTarget 2 := ⟨0, [], "db.raw.documents", "p", "s"⟩

/-- Redshift leaves out a batch that the load history has, though its record is not in the target.
BigQuery takes a JSON null for a missing value, so that a record without a document is not added
where a stored one has the JSON null. -/
theorem snapshots_are_left_out :
    (∃ after, (Redshift.snapshotWriter (fun _ _ => .ok ()) (fun _ => "d") documentTarget).write
        ⟨0, [(documentTarget.during "run-1").load "d"]⟩ ⟨"run-1", [documented none]⟩ = .ok after ∧
      documented none ∉ after.table) ∧
    ∃ after, (Bigquery.snapshotWriter documentEngine (fun _ _ => .ok ()) 0).write
        {documented (some "null")} [documented none] = .ok after ∧ documented none ∉ after := by
  refine ⟨⟨_, rfl, ?_⟩, _, rfl, ?_⟩
  all_goals decide +kernel

end Example

end Snapshots

end Dander
