import Dander.SnowflakeWriter

/-!
# Snowflake writes of one run

The load history knows what a run has loaded, not what it has loaded since. A write is a
function of its records exactly if the records in the parts it leaves out are what its target
holds, or are superseded by equal ones.
-/
namespace Dander.Snowflake

open KeyedUpsert Execution
open Redshift (Row keysMatch keysMatch_iff updated deduplicatedSource keyOf lastRecord cursorRank
  Staged exists_keyOf latest_eq_lastRecord merge_deduplicatedSource)

section Parts

variable {n : ℕ} {V : Type} {platform : Platform n V} {settings : StagingSettings}

theorem flatten_stageParts (chunk : List (Row n V × ℕ)) (chunkBytes : ℕ)
    (rows : List (Row n V × ℕ)) :
    (stageParts platform settings chunk chunkBytes rows).flatten = chunk ++ rows := by
  induction rows generalizing chunk chunkBytes with
  | nil =>
    cases chunk with
    | nil => rfl
    | cons first rest => simp [stageParts]
  | cons row rest ih =>
    unfold stageParts
    split
    · simp [ih]
    · simp [ih]

theorem rows_stagedLoad (staged : List (Row n V × ℕ)) :
    (stagedLoad platform settings staged).rows = staged := by
  unfold stagedLoad
  split
  · simp [StagedLoad.rows, StagedLoad.artifacts]
  · have hflatten : (stageParts platform settings [] 0 staged).flatten = staged :=
      flatten_stageParts [] 0 staged
    have hrows : (StagedLoad.manifest ((stageParts platform settings [] 0 staged).map
        fun rows => ⟨rows, platform.fileSha256 rows⟩)).rows =
          (stageParts platform settings [] 0 staged).flatMap id := List.flatMap_map _ _ _
    rw [hrows, List.flatMap_id, hflatten]

variable {businessKey : List (Fin n)} {cursorField snapshotField : Option (Fin n)}
  {records : List (Row n V)} {staged : List (Row n V × ℕ)} {ordinal : ℕ}

/-- What the null checks of a record say. -/
structure Checked (businessKey : List (Fin n)) (cursorField : Option (Fin n)) (row : Row n V) :
    Prop where
  keyed : ∃ k, keyOf businessKey row = some k
  cursor : ∀ field, cursorField = some field → ∃ value, row field = some value

theorem checked_of_checkRecord {row : Row n V}
    (h : checkRecord businessKey cursorField snapshotField ordinal row = .ok ()) :
    Checked businessKey cursorField row := by
  unfold checkRecord at h
  by_cases hkey : businessKey.any (fun field => (row field).isNone) = true
  · rw [if_pos hkey] at h
    cases h
  · rw [if_neg hkey] at h
    refine ⟨exists_keyOf (Bool.eq_false_of_not_eq_true hkey), ?_⟩
    rintro field rfl
    cases hvalue : row field with
    | none => simp [hvalue] at h
    | some value => exact ⟨value, rfl⟩

theorem withOrdinals_ok
    (h : withOrdinals platform businessKey cursorField snapshotField ordinal records =
      .ok staged) :
    staged = records.zipIdx ordinal ∧
      ∀ row ∈ records, Checked businessKey cursorField row := by
  induction records generalizing ordinal staged with
  | nil =>
    cases h
    exact ⟨rfl, by simp⟩
  | cons record rest ih =>
    unfold withOrdinals at h
    obtain ⟨⟨⟩, hrecord, h⟩ := bind_eq_ok h
    obtain ⟨⟨⟩, -, h⟩ := bind_eq_ok h
    obtain ⟨tail, htail, h⟩ := bind_eq_ok h
    cases h
    obtain ⟨rfl, hchecked⟩ := ih htail
    refine ⟨rfl, ?_⟩
    intro row hrow
    obtain rfl | hin := List.mem_cons.mp hrow
    · exact checked_of_checkRecord hrecord
    · exact hchecked row hin

theorem prepare_ok {load : StagedLoad n V}
    (h : prepare platform settings businessKey cursorField snapshotField records = .ok load) :
    load = stagedLoad platform settings records.zipIdx ∧
      ∀ row ∈ records, Checked businessKey cursorField row := by
  unfold prepare at h
  obtain ⟨staged, hstaged, h⟩ := bind_eq_ok h
  obtain ⟨⟨⟩, -, h⟩ := bind_eq_ok h
  obtain ⟨rfl, hchecked⟩ := withOrdinals_ok hstaged
  exact ⟨(Except.ok.inj h).symm, hchecked⟩

/-- Rows that were staged in their order, some of them left out. -/
theorem staged_of_sublist (hchecked : ∀ row ∈ records, Checked businessKey cursorField row)
    (hsublist : staged.Sublist (records.zipIdx ordinal)) : Staged businessKey staged := by
  have hordered : ∀ start, (records.zipIdx start).Pairwise (fun a b => a.2 < b.2) := by
    clear hchecked hsublist
    induction records with
    | nil => simp
    | cons record rest ih =>
      intro start
      rw [List.zipIdx_cons, List.pairwise_cons]
      refine ⟨?_, ih (start + 1)⟩
      intro later hlater
      have hle := List.le_snd_of_mem_zipIdx hlater
      simp only
      omega
  refine ⟨(hordered ordinal).sublist hsublist, ?_⟩
  intro row hrow
  have hmem : row.1 ∈ records := List.fst_mem_of_mem_zipIdx (hsublist.subset hrow)
  exact (hchecked row.1 hmem).keyed

theorem pending_sublist (run : RunIdentity) (history : List LoadHistory) (load : StagedLoad n V) :
    ((pendingArtifacts run history load).flatMap StagedArtifact.rows).Sublist load.rows := by
  unfold pendingArtifacts StagedLoad.rows
  generalize load.artifacts = artifacts
  induction artifacts with
  | nil => simp
  | cons first rest ih =>
    by_cases hpending : (!artifactCommitted run history first) = true
    · simp only [List.filter_cons, hpending, if_true, List.flatMap_cons]
      exact (List.Sublist.refl _).append ih
    · simp only [List.filter_cons, hpending, List.flatMap_cons]
      exact ih.trans (List.sublist_append_right _ _)

end Parts

section Loads

variable {n : ℕ} {V T : Type} {run : RunIdentity} {publication : Publication n V T}
  {warehouse : Warehouse T} {load : StagedLoad n V}

theorem loadAndPublish_empty (hempty : load.rows = []) :
    loadAndPublish run publication warehouse load =
      { warehouse with table := publication.empty warehouse.table } := by
  simp [loadAndPublish, hempty]

theorem loadAndPublish_skipped (hrows : load.rows ≠ [])
    (hpending : pendingArtifacts run warehouse.history load = []) :
    loadAndPublish run publication warehouse load = warehouse := by
  simp [loadAndPublish, hrows, hpending]

theorem loadAndPublish_pending (hrows : load.rows ≠ [])
    (hpending : pendingArtifacts run warehouse.history load ≠ []) :
    loadAndPublish run publication warehouse load =
      ⟨publication.statements warehouse.table
          ((if publication.reloadsAll then load.artifacts
            else pendingArtifacts run warehouse.history load).flatMap StagedArtifact.rows),
        (pendingArtifacts run warehouse.history load).foldl (loadHistoryInsert run)
          warehouse.history⟩ := by
  simp [loadAndPublish, hrows, hpending]

theorem mem_loadHistory {artifacts : List (StagedArtifact n V)} {history : List LoadHistory}
    {entry : LoadHistory}
    (h : entry ∈ history ∨ ∃ artifact ∈ artifacts, entry = ⟨run, artifact.sha256⟩) :
    entry ∈ artifacts.foldl (loadHistoryInsert run) history := by
  induction artifacts generalizing history with
  | nil => simpa using h
  | cons first rest ih =>
    rw [List.foldl_cons]
    apply ih
    have hinsert : entry ∈ history ∨ entry = ⟨run, first.sha256⟩ →
        entry ∈ loadHistoryInsert run history first := by
      intro hentry
      unfold loadHistoryInsert artifactCommitted
      by_cases hin : (⟨run, first.sha256⟩ : LoadHistory) ∈ history
      · rw [decide_eq_true hin, if_pos rfl]
        rcases hentry with hbefore | rfl
        · exact hbefore
        · exact hin
      · rw [decide_eq_false hin, if_neg Bool.false_ne_true, List.mem_append, List.mem_singleton]
        exact hentry
    rcases h with hbefore | ⟨artifact, hartifact, heq⟩
    · exact .inl (hinsert (.inl hbefore))
    · rcases List.mem_cons.mp hartifact with rfl | hin
      · exact .inl (hinsert (.inr heq))
      · exact .inr ⟨artifact, hin, heq⟩

/-- Once a load is published none of its rows are pending. -/
theorem pending_loadAndPublish :
    (pendingArtifacts run (loadAndPublish run publication warehouse load).history load).flatMap
      StagedArtifact.rows = [] := by
  by_cases hempty : load.rows = []
  · have hsublist := pending_sublist run (loadAndPublish run publication warehouse load).history load
    rwa [hempty, List.sublist_nil] at hsublist
  · by_cases hpending : pendingArtifacts run warehouse.history load = []
    · rw [loadAndPublish_skipped hempty hpending, hpending, List.flatMap_nil]
    · have hnone : pendingArtifacts run
          (loadAndPublish run publication warehouse load).history load = [] := by
        rw [loadAndPublish_pending hempty hpending]
        refine List.filter_eq_nil_iff.mpr ?_
        intro artifact hartifact
        have hcommitted : (⟨run, artifact.sha256⟩ : LoadHistory) ∈
            (pendingArtifacts run warehouse.history load).foldl (loadHistoryInsert run)
              warehouse.history := by
          apply mem_loadHistory
          by_cases hin : (⟨run, artifact.sha256⟩ : LoadHistory) ∈ warehouse.history
          · exact .inl hin
          · refine .inr ⟨artifact, ?_, rfl⟩
            exact List.mem_filter.mpr ⟨hartifact, by simp [artifactCommitted, hin]⟩
        simp [artifactCommitted, hcommitted]
      rw [hnone, List.flatMap_nil]

end Loads

section Specification

variable {n : ℕ} {V : Type} [LinearOrder V] (platform : Platform n V) (run : RunIdentity)
  (writer : Writer n)

/-- The records in the parts that the history does not have. -/
def pendingRecords (history : List LoadHistory) (records : List (Row n V)) : List (Row n V) :=
  ((pendingArtifacts run history (stagedLoad platform writer.settings records.zipIdx)).flatMap
    StagedArtifact.rows).map Prod.fst

/-- The key maps to the record. -/
structure Holds (businessKey : List (Fin n)) (table : Multiset (Row n V)) (k : List V)
    (record : Row n V) : Prop where
  mem : record ∈ table
  only : ∀ row ∈ table, keyOf businessKey row = some k → row = record

/-- What a write leaves is given by its records alone. -/
def FunctionOfInput (table : Multiset (Row n V)) (records : List (Row n V)) : Prop :=
  match writer.mode with
  | .scd1 => ∀ k record, lastRecord writer.businessKey k records = some record →
      Holds writer.businessKey table k record
  | .replace => table = Multiset.ofList records
  | .incremental _ | .snapshot _ => True

/-- Every key's last record is also its last pending one, or the key has no pending record and
its last one is stored. A replacement has a pending part, or is of what is stored. -/
def SkipsHarmless (warehouse : Warehouse (Multiset (Row n V))) (records : List (Row n V)) : Prop :=
  match writer.mode with
  | .scd1 => ∀ k record, lastRecord writer.businessKey k records = some record →
      lastRecord writer.businessKey k
          (pendingRecords platform run writer warehouse.history records) = some record ∨
        (lastRecord writer.businessKey k
            (pendingRecords platform run writer warehouse.history records) = none ∧
          Holds writer.businessKey warehouse.table k record)
  | .replace => records = [] ∨
      pendingArtifacts run warehouse.history
        (stagedLoad platform writer.settings records.zipIdx) ≠ [] ∨
      warehouse.table = Multiset.ofList records
  | .incremental _ | .snapshot _ => True

/-- One write of a run with what it extracted, and whether its transaction commits. -/
structure Attempt (n : ℕ) (V : Type) where
  writer : Writer n
  records : List (Row n V)
  committed : Bool

def attempt (warehouse : Warehouse (Multiset (Row n V))) (write : Attempt n V) :
    Warehouse (Multiset (Row n V)) :=
  match Snowflake.write platform run write.writer warehouse write.records with
  | .ok after => if write.committed then after else warehouse
  | .error _ => warehouse

end Specification

section Writes

variable {n : ℕ} {V : Type} [LinearOrder V] {platform : Platform n V} {run : RunIdentity}
  {writer : Writer n} {warehouse after : Warehouse (Multiset (Row n V))}
  {records : List (Row n V)} {businessKey : List (Fin n)} {table : Multiset (Row n V)}
  {pending : List (Row n V)}

theorem write_ok (h : write platform run writer warehouse records = .ok after) :
    after = loadAndPublish run (publicationStatements writer.mode writer.businessKey) warehouse
        (stagedLoad platform writer.settings records.zipIdx) ∧
      ∀ row ∈ records, Checked writer.businessKey writer.cursorField row := by
  unfold write Writer.prepare at h
  obtain ⟨load, hload, h⟩ := bind_eq_ok h
  obtain ⟨⟨⟩, -, hload⟩ := bind_eq_ok hload
  obtain ⟨rfl, hchecked⟩ := prepare_ok hload
  exact ⟨(Except.ok.inj h).symm, hchecked⟩

theorem merge_none {staged : List (Row n V × ℕ)} :
    merge businessKey none table staged =
      Redshift.merge businessKey table (deduplicatedSource businessKey none staged) := rfl

/-- In SCD1 mode the pending records are upserted, whatever else was staged. -/
theorem scd1_table {load : StagedLoad n V} (hload : load.rows = records.zipIdx)
    (hchecked : ∀ row ∈ records, Checked businessKey writer.cursorField row) :
    (loadAndPublish run (publicationStatements .scd1 businessKey) warehouse load).table =
      upsert (keyOf businessKey) (cursorRank none) warehouse.table
        (((pendingArtifacts run warehouse.history load).flatMap StagedArtifact.rows).map
          Prod.fst) := by
  have hsublist := pending_sublist run warehouse.history load
  by_cases hempty : load.rows = []
  · rw [hempty, List.sublist_nil] at hsublist
    rw [loadAndPublish_empty hempty, hsublist]
    exact upsert_nil.symm
  · by_cases hpending : pendingArtifacts run warehouse.history load = []
    · rw [loadAndPublish_skipped hempty hpending, hpending]
      exact upsert_nil.symm
    · rw [hload] at hsublist
      have hstaged := staged_of_sublist hchecked hsublist
      rw [loadAndPublish_pending hempty hpending, upsert, Redshift.prune_none,
        ← merge_deduplicatedSource hstaged, ← merge_none]
      rfl

/-- An upsert leaves a key with a record exactly if the record is the last upserted one of the
key, or the key is not upserted and has the record already. -/
theorem holds_upsert_iff {k : List V} {record : Row n V}
    (hkey : keyOf businessKey record = some k) :
    Holds businessKey (upsert (keyOf businessKey) (cursorRank none) table pending) k record ↔
      lastRecord businessKey k pending = some record ∨
        (lastRecord businessKey k pending = none ∧ Holds businessKey table k record) := by
  have hchoice := choice_latest (keyOf businessKey) (cursorRank none) pending
  rw [upsert, Redshift.prune_none]
  simp only [← latest_eq_lastRecord]
  cases hlast : latest (cursorRank none) (keyOf businessKey) k pending with
  | some last =>
    constructor
    · intro hholds
      have hsame := hholds.only last (mem_overwrite hchoice hlast) (hchoice.keyed k last hlast)
      exact .inl (by rw [hsame])
    · rintro (hsame | ⟨hnone, -⟩)
      · rw [Option.some.injEq] at hsame
        subst hsame
        exact ⟨mem_overwrite hchoice hlast,
          fun row hrow hk => eq_of_mem_overwrite hchoice hlast hrow hk⟩
      · cases hnone
  | none =>
    have hmem : ∀ row, keyOf businessKey row = some k → (row ∈ overwrite (keyOf businessKey) table
        (keySet (keyOf businessKey) pending) _ ↔ row ∈ table) :=
      fun row hk => mem_overwrite_of_none hchoice hlast hk
    constructor
    · intro hholds
      refine .inr ⟨rfl, (hmem record hkey).mp hholds.mem, ?_⟩
      intro row hrow hk
      exact hholds.only row ((hmem row hk).mpr hrow) hk
    · rintro (hsome | ⟨-, hholds⟩)
      · cases hsome
      · refine ⟨(hmem record hkey).mpr hholds.mem, ?_⟩
        intro row hrow hk
        exact hholds.only row ((hmem row hk).mp hrow) hk

theorem keyOf_of_lastRecord {k : List V} {record : Row n V}
    (h : lastRecord businessKey k records = some record) : keyOf businessKey record = some k := by
  have hmem := List.mem_of_getLast? h
  simpa using (List.mem_filter.mp hmem).2

theorem replace_table {load : StagedLoad n V} (hload : load.rows = records.zipIdx) :
    (loadAndPublish run (publicationStatements .replace businessKey) warehouse load).table =
        Multiset.ofList records ↔
      records = [] ∨ pendingArtifacts run warehouse.history load ≠ [] ∨
        warehouse.table = Multiset.ofList records := by
  by_cases hempty : load.rows = []
  · have hrecords : records = [] := by simpa [hempty] using hload.symm
    simp [loadAndPublish_empty hempty, hrecords, publicationStatements]
  · have hrecords : records ≠ [] := by
      intro hnil
      exact hempty (by simp [hload, hnil])
    by_cases hpending : pendingArtifacts run warehouse.history load = []
    · simp [loadAndPublish_skipped hempty hpending, hpending, hrecords]
    · have hall : load.artifacts.flatMap StagedArtifact.rows = records.zipIdx := hload
      simp [loadAndPublish_pending hempty hpending, publicationStatements, hall, hpending]

/-- After any writes of a run, a successful one is a function of its records exactly if the
parts it skips are harmless. -/
theorem write_function_of_input_iff (platform : Platform n V) (run : RunIdentity)
    (warehouse : Warehouse (Multiset (Row n V))) (attempts : List (Attempt n V))
    (writer : Writer n) (records : List (Row n V)) (after : Warehouse (Multiset (Row n V)))
    (h : write platform run writer (Execution.run (attempt platform run) warehouse attempts)
      records = .ok after) :
    FunctionOfInput writer after.table records ↔
      SkipsHarmless platform run writer
        (Execution.run (attempt platform run) warehouse attempts) records := by
  generalize Execution.run (attempt platform run) warehouse attempts = reached at h ⊢
  obtain ⟨rfl, hchecked⟩ := write_ok h
  unfold FunctionOfInput SkipsHarmless
  cases hmode : writer.mode with
  | scd1 =>
    have htable : (loadAndPublish run (publicationStatements .scd1 writer.businessKey) reached
          (stagedLoad platform writer.settings records.zipIdx)).table =
        upsert (keyOf writer.businessKey) (cursorRank none) reached.table
          (pendingRecords platform run writer reached.history records) :=
      scd1_table (rows_stagedLoad _) hchecked
    simp only [htable]
    constructor
    · intro hholds k record hlast
      exact (holds_upsert_iff (keyOf_of_lastRecord hlast)).mp (hholds k record hlast)
    · intro hharmless k record hlast
      exact (holds_upsert_iff (keyOf_of_lastRecord hlast)).mpr (hharmless k record hlast)
  | replace => exact replace_table (rows_stagedLoad _)
  | incremental cursorField => exact Iff.rfl
  | snapshot snapshotField => exact Iff.rfl

end Writes

section Example

/-- One row a part, nothing loaded directly. -/
def rowByRow : StagingSettings := ⟨1, 100, 0, 0⟩

def labelPlatform : Platform 2 ℕ where
  check _ _ := .ok ()
  logicalSize _ := 1
  fileSha256 := Redshift.labelDigest
  directChecksum := Redshift.labelDigest

def labelRun : RunIdentity := ⟨"db.raw.records", "p", "run-1"⟩

def labelWriter (mode : WriteMode 2) : Writer 2 := ⟨mode, [0], rowByRow⟩

def relabelled (mode : WriteMode 2) : Warehouse (Multiset (Row 2 ℕ)) :=
  Execution.run (attempt labelPlatform labelRun) ⟨0, []⟩
    [⟨labelWriter mode, [Redshift.labelled 10], true⟩,
      ⟨labelWriter mode, [Redshift.labelled 20], true⟩]

/-- A run that writes the label it first wrote skips it: the second label stays, in SCD1 mode as
in REPLACE mode. -/
theorem first_label_is_skipped :
    (∃ after, write labelPlatform labelRun (labelWriter .scd1) (relabelled .scd1)
        [Redshift.labelled 10] = .ok after ∧
      ¬ FunctionOfInput (labelWriter .scd1) after.table [Redshift.labelled 10]) ∧
    ∃ after, write labelPlatform labelRun (labelWriter .replace) (relabelled .replace)
        [Redshift.labelled 10] = .ok after ∧
      ¬ FunctionOfInput (labelWriter .replace) after.table [Redshift.labelled 10] := by
  refine ⟨⟨_, rfl, ?_⟩, ⟨_, rfl, ?_⟩⟩
  · intro hinput
    have hlast : lastRecord [0] [1] [Redshift.labelled 10] = some (Redshift.labelled 10) := rfl
    have hmem := (hinput [1] (Redshift.labelled 10) hlast).mem
    revert hmem
    decide +kernel
  · intro hinput
    have htable : _ = Multiset.ofList [Redshift.labelled 10] := hinput
    revert htable
    decide +kernel

/-- A retry that extracts a further record of a key loads that one only. -/
theorem write_function_of_input_further :
    ∃ after, write labelPlatform labelRun (labelWriter .scd1)
        (Execution.run (attempt labelPlatform labelRun) ⟨0, []⟩
          [⟨labelWriter .scd1, [Redshift.labelled 10], true⟩])
        [Redshift.labelled 10, Redshift.labelled 20] = .ok after ∧
      FunctionOfInput (labelWriter .scd1) after.table
        [Redshift.labelled 10, Redshift.labelled 20] := by
  refine ⟨_, rfl, (write_function_of_input_iff labelPlatform labelRun ⟨0, []⟩
    [⟨labelWriter .scd1, [Redshift.labelled 10], true⟩] (labelWriter .scd1)
    [Redshift.labelled 10, Redshift.labelled 20] _ rfl).mpr ?_⟩
  have hpending : pendingRecords labelPlatform labelRun (labelWriter .scd1)
      [⟨labelRun, "a"⟩] [Redshift.labelled 10, Redshift.labelled 20] = [Redshift.labelled 20] := by
    decide +kernel
  have hkey : ∀ label, keyOf [0] (Redshift.labelled label) = some [1] := fun _ => rfl
  have hlast : ∀ k, lastRecord [0] k [Redshift.labelled 10, Redshift.labelled 20] =
      lastRecord [0] k [Redshift.labelled 20] := by
    intro k
    by_cases hk : [1] = k <;> simp [lastRecord, hkey, hk]
  intro k record hrecord
  refine .inl ?_
  have hsame := (hlast k).symm.trans hrecord
  rw [← hpending] at hsame
  exact hsame

end Example

end Dander.Snowflake
