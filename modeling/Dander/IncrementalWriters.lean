import Dander.WriterSemantics

/-!
# Incremental mode in four warehouses

The batches of one stream are written one after another, each under a run of its own or several
under one run. PostgreSQL, Redshift and Snowflake leave the rows of one upsert of the stream by
its cursor; BigQuery leaves the last record of each key.
-/
namespace Dander.IncrementalWriters

open KeyedUpsert Execution
open Redshift (Row keyOf keysMatch cursorRank lessThan)

/-- What is written at once, and under which run. -/
structure Batch (n : ℕ) (V : Type) where
  runId : String
  records : List (Row n V)

/-- An incremental pipeline with the parameters of its four writers. -/
structure Pipeline (n : ℕ) (V : Type) where
  businessKey : List (Fin n)
  cursorField : Fin n
  targetId : String
  pipelineId : String
  postgresqlCheck : ℕ → Row n V → Except Postgresql.PostgreSQLWriteError Unit
  bigqueryCheck : ℕ → Row n V → Except Bigquery.BigQueryWriteError Unit
  redshiftCheck : ℕ → Row n V → Except Redshift.RedshiftWriteError Unit
  schemaFingerprint : String
  digest : List (Row n V × ℕ) → String
  settings : Snowflake.StagingSettings
  platform : Snowflake.Platform n V

section Writers

variable {n : ℕ} {V : Type} [LinearOrder V] (pipeline : Pipeline n V)

def Pipeline.postgresql (table : Multiset (Row n V)) (batch : Batch n V) :
    Except Postgresql.PostgreSQLWriteError (Multiset (Row n V)) :=
  Postgresql.write pipeline.postgresqlCheck
    ⟨.incremental pipeline.cursorField, pipeline.businessKey⟩ table batch.records

def Pipeline.bigquery (table : Multiset (Row n V)) (batch : Batch n V) :
    Except Bigquery.BigQueryWriteError (Multiset (Row n V)) :=
  Bigquery.write pipeline.bigqueryCheck ⟨pipeline.businessKey, some pipeline.cursorField⟩ table
    batch.records

def Pipeline.redshiftTarget (runId : String) : Redshift.WriteTarget n where
  mode := .incremental pipeline.cursorField
  businessKey := pipeline.businessKey
  targetId := pipeline.targetId
  pipelineId := pipeline.pipelineId
  runId := runId
  schemaFingerprint := pipeline.schemaFingerprint

def Pipeline.redshift (warehouse : Redshift.Warehouse n V) (batch : Batch n V) :
    Except Redshift.RedshiftWriteError (Redshift.Warehouse n V) :=
  Redshift.write pipeline.redshiftCheck pipeline.digest (pipeline.redshiftTarget batch.runId)
    warehouse batch.records

def Pipeline.snowflakeRun (runId : String) : Snowflake.RunIdentity :=
  ⟨pipeline.targetId, pipeline.pipelineId, runId⟩

def Pipeline.snowflakeWriter : Snowflake.Writer n :=
  ⟨.incremental pipeline.cursorField, pipeline.businessKey, pipeline.settings⟩

def Pipeline.snowflake (warehouse : Snowflake.Warehouse (Multiset (Row n V))) (batch : Batch n V) :
    Except Snowflake.SnowflakeWriteError (Snowflake.Warehouse (Multiset (Row n V))) :=
  Snowflake.write pipeline.platform (pipeline.snowflakeRun batch.runId) pipeline.snowflakeWriter
    warehouse batch.records

/-- The batch is not in Redshift's load history. -/
def Pipeline.RedshiftFresh (warehouse : Redshift.Warehouse n V) (batch : Batch n V) : Prop :=
  (pipeline.redshiftTarget batch.runId).load (pipeline.digest batch.records.zipIdx) ∉
    warehouse.history

/-- No part of the batch is in Snowflake's load history. -/
def Pipeline.SnowflakeFresh (warehouse : Snowflake.Warehouse (Multiset (Row n V)))
    (batch : Batch n V) : Prop :=
  ∀ artifact ∈ (Snowflake.stagedLoad pipeline.platform pipeline.settings
      batch.records.zipIdx).artifacts,
    Snowflake.artifactCommitted (pipeline.snowflakeRun batch.runId) warehouse.history artifact =
      false

/-- What the four writers leave of one table. -/
structure Agreement (table : Multiset (Row n V)) (redshiftHistory : List Redshift.LoadHistory)
    (snowflakeHistory : List Snowflake.LoadHistory) (batches : List (Batch n V))
    (pg bq : Multiset (Row n V)) (rs : Redshift.Warehouse n V)
    (sf : Snowflake.Warehouse (Multiset (Row n V))) : Prop where
  postgresql : pg = upsert (keyOf pipeline.businessKey) (cursorRank (some pipeline.cursorField))
    table (batches.flatMap Batch.records)
  redshift : Throughout pipeline.redshift pipeline.RedshiftFresh ⟨table, redshiftHistory⟩ batches →
    rs.table = pg
  snowflake :
    Throughout pipeline.snowflake pipeline.SnowflakeFresh ⟨table, snowflakeHistory⟩ batches →
    (∀ row ∈ table, ∀ record ∈ batches.flatMap Batch.records,
      keysMatch pipeline.businessKey row record = true →
        (row pipeline.cursorField).isSome = true) →
    sf.table = pg
  bigquery : bq = upsert (keyOf pipeline.businessKey) (cursorRank none) table
    (batches.flatMap Batch.records)
  rising : ∀ after ∈ [pg, rs.table, sf.table],
    Rising (keyOf pipeline.businessKey) (cursorRank (some pipeline.cursorField)) table after

end Writers

section Runs

variable {ε S : Type} {n : ℕ} {V : Type} [LinearOrder V] {businessKey : List (Fin n)}
  {cursorField : Option (Fin n)} {write : S → Batch n V → Except ε S} {start after : S}
  {batches : List (Batch n V)} (view : S → Multiset (Row n V))

/-- Writes that upsert one batch each upsert the whole stream. -/
theorem run_upserts (ready : List (Batch n V) → S → Prop)
    (keep : ∀ batch rest s next, ready (batch :: rest) s → write s batch = .ok next →
      view next = upsert (keyOf businessKey) (cursorRank cursorField) (view s) batch.records ∧
        ready rest next)
    (hready : ready batches start) (h : batches.foldlM write start = .ok after) :
    view after = upsert (keyOf businessKey) (cursorRank cursorField) (view start)
      (batches.flatMap Batch.records) := by
  have hinvariant : ready [] after ∧
      upsert (keyOf businessKey) (cursorRank cursorField) (view after)
        (([] : List (Batch n V)).flatMap Batch.records) =
      upsert (keyOf businessKey) (cursorRank cursorField) (view start)
        (batches.flatMap Batch.records) := by
    refine foldlM_invariant (P := fun rest s => ready rest s ∧
      upsert (keyOf businessKey) (cursorRank cursorField) (view s) (rest.flatMap Batch.records) =
        upsert (keyOf businessKey) (cursorRank cursorField) (view start)
          (batches.flatMap Batch.records)) ?_ ⟨hready, rfl⟩ h
    rintro batch rest s next ⟨hbefore, hsame⟩ hwrite
    obtain ⟨hview, hafter⟩ := keep batch rest s next hbefore hwrite
    refine ⟨hafter, ?_⟩
    rw [hview, upsert_upsert, ← hsame, List.flatMap_cons]
  rw [← hinvariant.2, List.flatMap_nil, upsert_nil]

theorem run_rising
    (keep : ∀ s batch next, write s batch = .ok next →
      Rising (keyOf businessKey) (cursorRank cursorField) (view s) (view next))
    (h : batches.foldlM write start = .ok after) :
    Rising (keyOf businessKey) (cursorRank cursorField) (view start) (view after) := by
  refine foldlM_invariant (P := fun _ s =>
    Rising (keyOf businessKey) (cursorRank cursorField) (view start) (view s)) ?_ Rising.refl h
  intro batch _ s next hrising hwrite
  exact hrising.trans (keep s batch next hwrite)

end Runs

section Agreement

variable {n : ℕ} {V : Type} [LinearOrder V] {pipeline : Pipeline n V} {table : Multiset (Row n V)}
  {batches : List (Batch n V)}

theorem postgresql_run {after : Multiset (Row n V)}
    (hunique : (keys (keyOf pipeline.businessKey) table).Nodup)
    (h : batches.foldlM pipeline.postgresql table = .ok after) :
    after = upsert (keyOf pipeline.businessKey) (cursorRank (some pipeline.cursorField)) table
      (batches.flatMap Batch.records) := by
  refine run_upserts id (fun _ s => (keys (keyOf pipeline.businessKey) s).Nodup) ?_ hunique h
  intro batch _ s next hready hwrite
  obtain ⟨hnext, -⟩ := Postgresql.write_keyed (.inr ⟨pipeline.cursorField, rfl⟩) hready hwrite
  refine ⟨hnext, ?_⟩
  rw [hnext]
  exact (rising_upsert hready).1

theorem bigquery_run {after : Multiset (Row n V)}
    (h : batches.foldlM pipeline.bigquery table = .ok after) :
    after = upsert (keyOf pipeline.businessKey) (cursorRank none) table
      (batches.flatMap Batch.records) := by
  refine run_upserts id (fun _ _ => True) ?_ trivial h
  intro batch _ s next _ hwrite
  exact ⟨Bigquery.write_ok hwrite, trivial⟩

theorem redshift_run {start after : Redshift.Warehouse n V}
    (hfresh : Throughout pipeline.redshift pipeline.RedshiftFresh start batches)
    (h : batches.foldlM pipeline.redshift start = .ok after) :
    after.table = upsert (keyOf pipeline.businessKey) (cursorRank (some pipeline.cursorField))
      start.table (batches.flatMap Batch.records) := by
  refine run_upserts Redshift.Warehouse.table
    (fun rest s => Throughout pipeline.redshift pipeline.RedshiftFresh s rest) ?_ hfresh h
  intro batch rest s next hready hwrite
  exact ⟨Redshift.write_incremental rfl hready.1 hwrite, hready.2 next hwrite⟩

/-- The rows after an upsert are stored ones and upserted ones. -/
theorem mem_of_mem_upsert {businessKey : List (Fin n)} {cursorField : Option (Fin n)}
    {records : List (Row n V)} {row : Row n V}
    (hrow : row ∈ upsert (keyOf businessKey) (cursorRank cursorField) table records) :
    row ∈ table ∨ row ∈ records := by
  have hmem : ∀ {k new}, latest (cursorRank cursorField) (keyOf businessKey) k
      (prune (keyOf businessKey) (cursorRank cursorField) table records) = some new →
        new ∈ records := by
    intro k new hlatest
    exact (List.mem_filter.mp (latest_mem hlatest).1).1
  rcases Multiset.mem_add.mp hrow with hstored | hinserted
  · obtain ⟨old, hold, rfl⟩ := Multiset.mem_map.mp hstored
    cases hkey : keyOf businessKey old with
    | none => exact .inl (by simpa [replaced, hkey] using hold)
    | some k =>
      rw [replaced_of_key hkey]
      cases hlatest : latest (cursorRank cursorField) (keyOf businessKey) k
          (prune (keyOf businessKey) (cursorRank cursorField) table records) with
      | none => exact .inl hold
      | some new => exact .inr (hmem hlatest)
  · obtain ⟨k, -, -, hlatest⟩ := mem_inserted.mp hinserted
    exact .inr (hmem hlatest)

theorem snowflake_run {start after : Snowflake.Warehouse (Multiset (Row n V))}
    (hunique : (keys (keyOf pipeline.businessKey) start.table).Nodup)
    (hfresh : Throughout pipeline.snowflake pipeline.SnowflakeFresh start batches)
    (hcursors : ∀ row ∈ start.table, ∀ record ∈ batches.flatMap Batch.records,
      keysMatch pipeline.businessKey row record = true → (row pipeline.cursorField).isSome = true)
    (h : batches.foldlM pipeline.snowflake start = .ok after) :
    after.table = upsert (keyOf pipeline.businessKey) (cursorRank (some pipeline.cursorField))
      start.table (batches.flatMap Batch.records) := by
  refine run_upserts Snowflake.Warehouse.table
    (fun rest s => (keys (keyOf pipeline.businessKey) s.table).Nodup ∧
      Throughout pipeline.snowflake pipeline.SnowflakeFresh s rest ∧
      ∀ row ∈ s.table, ∀ record ∈ rest.flatMap Batch.records,
        keysMatch pipeline.businessKey row record = true →
          (row pipeline.cursorField).isSome = true) ?_ ⟨hunique, hfresh, hcursors⟩ h
  rintro batch rest s next ⟨hunique, hfresh, hcursors⟩ hwrite
  rw [List.flatMap_cons] at hcursors
  have hmode : pipeline.snowflakeWriter.mode = .incremental pipeline.cursorField := rfl
  have hnext := Snowflake.write_incremental hmode hunique
    (fun row hrow record hrecord => hcursors row hrow record (List.mem_append_left _ hrecord))
    hfresh.1 hwrite
  obtain ⟨-, hchecked⟩ := Snowflake.write_merges hmode hwrite
  refine ⟨hnext, ?_, hfresh.2 next hwrite, ?_⟩
  · rw [hnext]
    exact (rising_upsert hunique).1
  · intro row hrow record hrecord hmatch
    rw [hnext] at hrow
    rcases mem_of_mem_upsert hrow with hstored | hnew
    · exact hcursors row hstored record (List.mem_append_right _ hrecord) hmatch
    · obtain ⟨value, hvalue⟩ := (hchecked row hnew).cursor _ rfl
      rw [hvalue, Option.isSome_some]

/-- Whatever the table, the stream and its batches, PostgreSQL leaves one upsert of the stream by
its cursor, and so do Redshift, if no batch was loaded before, and Snowflake, if no part of one
was and no stored cursor that is compared is null. In these three no key's cursor falls. BigQuery
leaves the last record of each key. -/
theorem incremental_writers_agree (pipeline : Pipeline n V) (table : Multiset (Row n V))
    (redshiftHistory : List Redshift.LoadHistory) (snowflakeHistory : List Snowflake.LoadHistory)
    (batches : List (Batch n V)) (pg bq : Multiset (Row n V)) (rs : Redshift.Warehouse n V)
    (sf : Snowflake.Warehouse (Multiset (Row n V)))
    (hunique : (keys (keyOf pipeline.businessKey) table).Nodup)
    (hpg : batches.foldlM pipeline.postgresql table = .ok pg)
    (hbq : batches.foldlM pipeline.bigquery table = .ok bq)
    (hrs : batches.foldlM pipeline.redshift ⟨table, redshiftHistory⟩ = .ok rs)
    (hsf : batches.foldlM pipeline.snowflake ⟨table, snowflakeHistory⟩ = .ok sf) :
    Agreement pipeline table redshiftHistory snowflakeHistory batches pg bq rs sf := by
  have hpostgresql := postgresql_run hunique hpg
  constructor
  · exact hpostgresql
  · intro hfresh
    rw [hpostgresql]
    exact redshift_run hfresh hrs
  · intro hfresh hcursors
    rw [hpostgresql]
    exact snowflake_run hunique hfresh hcursors hsf
  · exact bigquery_run hbq
  · intro after hafter
    simp only [List.mem_cons, List.not_mem_nil, or_false] at hafter
    rcases hafter with rfl | rfl | rfl
    · rw [hpostgresql]
      exact rising_upsert
    · refine run_rising Redshift.Warehouse.table ?_ hrs
      intro s batch next hwrite
      have hmode : (pipeline.redshiftTarget batch.runId).mode = .incremental pipeline.cursorField :=
        rfl
      exact Redshift.rising_write hmode hwrite
    · refine run_rising Snowflake.Warehouse.table ?_ hsf
      intro s batch next hwrite
      have hmode : pipeline.snowflakeWriter.mode = .incremental pipeline.cursorField := rfl
      exact Snowflake.rising_write hmode hwrite

end Agreement

section Example

/-- Rows of an `id`, which is the key, and a `label`. -/
def labelPipeline (cursorField : Fin 2) : Pipeline 2 ℕ where
  businessKey := [0]
  cursorField := cursorField
  targetId := "db.raw.records"
  pipelineId := "p"
  postgresqlCheck _ _ := .ok ()
  bigqueryCheck _ _ := .ok ()
  redshiftCheck _ _ := .ok ()
  schemaFingerprint := "s"
  digest := Redshift.labelDigest
  settings := Snowflake.rowByRow
  platform := Snowflake.labelPlatform

def unlabelled : Row 2 ℕ := fun field => if field = 0 then some 1 else none

def labelBatches (labels : List ℕ) : List (Batch 2 ℕ) :=
  labels.map fun label => ⟨"run-1", [Redshift.labelled label]⟩

/-- BigQuery replaces a row by one of a smaller cursor, which PostgreSQL keeps. Snowflake keeps a
row whose cursor is null, which PostgreSQL replaces. Redshift skips a repeated batch of equal
cursors, which PostgreSQL writes again. -/
theorem incremental_writers_differ :
    (∃ pg bq, (labelBatches [10]).foldlM (labelPipeline 1).postgresql {Redshift.labelled 20} =
        .ok pg ∧
      (labelBatches [10]).foldlM (labelPipeline 1).bigquery {Redshift.labelled 20} = .ok bq ∧
      pg ≠ bq ∧ ∃ later ∈ bq, keysMatch [0] (Redshift.labelled 20) later = true ∧
        lessThan (later 1) (Redshift.labelled 20 1) = true) ∧
    (∃ pg sf, (labelBatches [10]).foldlM (labelPipeline 1).postgresql {unlabelled} = .ok pg ∧
      (labelBatches [10]).foldlM (labelPipeline 1).snowflake ⟨{unlabelled}, []⟩ = .ok sf ∧
      pg ≠ sf.table) ∧
    ∃ pg rs, (labelBatches [10, 20, 10]).foldlM (labelPipeline 0).postgresql 0 = .ok pg ∧
      (labelBatches [10, 20, 10]).foldlM (labelPipeline 0).redshift ⟨0, []⟩ = .ok rs ∧
      pg ≠ rs.table := by
  refine ⟨⟨_, _, rfl, rfl, ?_, Redshift.labelled 10, ?_, ?_, ?_⟩, ⟨_, _, rfl, rfl, ?_⟩,
    ⟨_, _, rfl, rfl, ?_⟩⟩
  all_goals decide +kernel

/-- A batch below and one above the stored cursor. -/
theorem incremental_writers_agree_labels :
    ∃ pg bq rs sf, Agreement (labelPipeline 1) {Redshift.labelled 20} [] []
      (labelBatches [10, 30]) pg bq rs sf :=
  ⟨_, _, _, _, incremental_writers_agree (labelPipeline 1) {Redshift.labelled 20} [] []
    (labelBatches [10, 30]) _ _ _ _ (by decide +kernel) rfl rfl rfl rfl⟩

end Example

end Dander.IncrementalWriters
