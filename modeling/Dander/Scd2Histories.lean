import Dander.Scd2Statements
import Dander.WriterSemantics

/-!
# SCD2 histories

A write advances the versions by the last records of what it publishes: everything in PostgreSQL
and BigQuery, what the load history does not have in Redshift and Snowflake. In every run whose
writes skip nothing that matters each key keeps one history, which ends with the last record of
the last write that has the key.
-/
namespace Dander.Scd2

open KeyedUpsert VersionHistory Execution
open Redshift (Row keysMatch keysMatch_eq_sameKey keyOf lastRecord cursorRank latest_eq_lastRecord)

section Specification

variable {ε S : Type} {n : ℕ} {V : Type} [LinearOrder V] (businessKey : List (Fin n))

/-- A key of the table, or of a record of the writes. -/
def Occurs (table : Versions n V) (writes : List (Write n V)) (k : List V) : Prop :=
  (∃ version ∈ table, keyOf businessKey version.row = some k) ∨
    ∃ write ∈ writes, ∃ row ∈ write.records, keyOf businessKey row = some k

/-- Every key's last record is the last one published, or the key has none published and its last
record is its current row. -/
def SkipsHarmless (table : Versions n V) (records published : List (Row n V)) : Prop :=
  ∀ k record, lastRecord businessKey k records = some record →
    lastRecord businessKey k published = some record ∨
      (lastRecord businessKey k published = none ∧
        currentRows (keyOf businessKey) k table = {record})

variable (step : S → Write n V → Except ε S) (view : S → Versions n V)
  (harmless : S → Write n V → Prop)

/-- What a write leaves: a history of each key that occurred, ending with the key's last record if
the write has one, everything else as it was, and nothing to do for the same write again. -/
structure Kept (start : S) (earlier : List (Write n V)) (before : S) (write : Write n V)
    (after : S) : Prop where
  histories : ∀ k, Occurs businessKey (view start) (earlier ++ [write]) k →
    ∃ history, versions (keyOf businessKey) k (view after) = Multiset.ofList history ∧
      History history
  current : ∀ k record, lastRecord businessKey k write.records = some record →
    currentRows (keyOf businessKey) k (view after) = {record}
  untouched : (view after).filter (fun version =>
      ∀ row ∈ write.records, keysMatch businessKey version.row row = false) =
    (view before).filter (fun version =>
      ∀ row ∈ write.records, keysMatch businessKey version.row row = false)
  closed : (view before).filter (fun version => version.isCurrent = false) ≤ view after
  repeated : ∀ again final, again.records = write.records →
    again.runId = write.runId ∨ harmless after again →
    step after again = .ok final → view final = view after

/-- After any writes with increasing effective times, all of them harmless, a further one keeps the
histories exactly if it is harmless. -/
def KeepsHistories : Prop :=
  ∀ (start : S) (earlier : List (Write n V)) (before : S) (write : Write n V) (after : S),
    WellFormed (keyOf businessKey) (view start) →
    ((earlier ++ [write]).map Write.effectiveAt).Pairwise (· < ·) →
    (∀ version ∈ view start, ∀ later ∈ earlier ++ [write],
      version.validFrom < later.effectiveAt) →
    Throughout step harmless start earlier →
    earlier.foldlM step start = .ok before →
    step before write = .ok after →
    (Kept businessKey step view harmless start earlier before write after ↔ harmless before write)

end Specification

section Runs

variable {ε S : Type} {n : ℕ} {V : Type} [LinearOrder V] {businessKey : List (Fin n)}

theorem exists_lastRecord {k : List V} {records : List (Row n V)} {row : Row n V}
    (hrow : row ∈ records) (hkey : keyOf businessKey row = some k) :
    ∃ record, lastRecord businessKey k records = some record := by
  obtain ⟨record, hrecord, -⟩ : ∃ last, latest (cursorRank none) (keyOf businessKey) k records =
      some last ∧ _ := exists_latest hrow hkey
  rw [latest_eq_lastRecord] at hrecord
  exact ⟨record, hrecord⟩

/-- What is asked of a writer: it advances the versions by the last records of what it publishes,
which is some of its records, and publishes all or nothing of them when it is repeated. -/
structure Advances (businessKey : List (Fin n)) (step : S → Write n V → Except ε S)
    (view : S → Versions n V) (published : S → Write n V → List (Row n V)) : Prop where
  effect : ∀ s write next, WellFormed (keyOf businessKey) (view s) → step s write = .ok next →
    ∃ incoming, Lists (keyOf businessKey) incoming
        (fun k => lastRecord businessKey k (published s write)) ∧
      view next = advance (keyOf businessKey) write.effectiveAt incoming (view s)
  subset : ∀ s write, ∀ row ∈ published s write, row ∈ write.records
  repeated : ∀ s write next again, step s write = .ok next → again.records = write.records →
    again.runId = write.runId →
    published next again = [] ∨ published next again = again.records

variable {step : S → Write n V → Except ε S} {view : S → Versions n V}
  {published : S → Write n V → List (Row n V)} {s next : S} {write : Write n V}

/-- A harmless write leaves every key it has with its last record. -/
theorem current_of_harmless (hadvances : Advances businessKey step view published)
    (hwf : WellFormed (keyOf businessKey) (view s))
    (hlt : ∀ version ∈ view s, version.validFrom < write.effectiveAt)
    (hstep : step s write = .ok next)
    (hharmless : SkipsHarmless businessKey (view s) write.records (published s write))
    {k : List V} {record : Row n V}
    (hlast : lastRecord businessKey k write.records = some record) :
    currentRows (keyOf businessKey) k (view next) = {record} := by
  obtain ⟨incoming, hlists, hview⟩ := hadvances.effect s write next hwf hstep
  rw [hview]
  rcases hharmless k record hlast with hsome | ⟨hnone, hcurrent⟩
  · exact (history_advance hlists hsome (hwf k) hlt).2
  · rw [currentRows, versions_advance_of_none hlists hnone]
    exact hcurrent

/-- The converse: a write that leaves every key it has with its last record is harmless. -/
theorem harmless_of_current (hadvances : Advances businessKey step view published)
    (hwf : WellFormed (keyOf businessKey) (view s))
    (hlt : ∀ version ∈ view s, version.validFrom < write.effectiveAt)
    (hstep : step s write = .ok next)
    (hcurrent : ∀ k record, lastRecord businessKey k write.records = some record →
      currentRows (keyOf businessKey) k (view next) = {record}) :
    SkipsHarmless businessKey (view s) write.records (published s write) := by
  obtain ⟨incoming, hlists, hview⟩ := hadvances.effect s write next hwf hstep
  intro k record hlast
  have hrow := hcurrent k record hlast
  rw [hview] at hrow
  cases hpublished : lastRecord businessKey k (published s write) with
  | none =>
    rw [currentRows, versions_advance_of_none hlists hpublished] at hrow
    exact .inr ⟨rfl, hrow⟩
  | some last =>
    rw [(history_advance hlists hpublished (hwf k) hlt).2, Multiset.singleton_inj] at hrow
    exact .inl (by rw [hrow])

/-- The versions of a key that occurred. -/
theorem versions_ne_zero_of_current {k : List V} {record : Row n V} {table : Versions n V}
    (hcurrent : currentRows (keyOf businessKey) k table = {record}) :
    versions (keyOf businessKey) k table ≠ 0 := by
  intro hzero
  rw [currentRows, hzero, Multiset.filter_zero, Multiset.map_zero] at hcurrent
  exact absurd hcurrent.symm (Multiset.singleton_ne_zero record)

theorem versions_ne_zero_step (hadvances : Advances businessKey step view published)
    (hwf : WellFormed (keyOf businessKey) (view s))
    (hlt : ∀ version ∈ view s, version.validFrom < write.effectiveAt)
    (hstep : step s write = .ok next) {k : List V}
    (hbefore : versions (keyOf businessKey) k (view s) ≠ 0) :
    versions (keyOf businessKey) k (view next) ≠ 0 := by
  obtain ⟨incoming, hlists, hview⟩ := hadvances.effect s write next hwf hstep
  rw [hview]
  cases hpublished : lastRecord businessKey k (published s write) with
  | none =>
    rw [versions_advance_of_none hlists hpublished]
    exact hbefore
  | some last =>
    exact versions_ne_zero_of_current (history_advance hlists hpublished (hwf k) hlt).2

/-- What every write of a run keeps, with the writes still to come in view. -/
structure Ready (businessKey : List (Fin n)) (view : S → Versions n V) (start : S)
    (all rest : List (Write n V)) (s : S) : Prop where
  wellFormed : WellFormed (keyOf businessKey) (view s)
  increasing : (rest.map Write.effectiveAt).Pairwise (· < ·)
  earlier : ∀ version ∈ view s, ∀ later ∈ rest, version.validFrom < later.effectiveAt
  occurred : ∀ k, Occurs businessKey (view start) all k →
    versions (keyOf businessKey) k (view s) ≠ 0 ∨
      ∃ later ∈ rest, ∃ row ∈ later.records, keyOf businessKey row = some k

theorem ready_step {start : S} {all rest : List (Write n V)}
    (hadvances : Advances businessKey step view published)
    (hready : Ready businessKey view start all (write :: rest) s)
    (hharmless : SkipsHarmless businessKey (view s) write.records (published s write))
    (hstep : step s write = .ok next) : Ready businessKey view start all rest next := by
  have hlt : ∀ version ∈ view s, version.validFrom < write.effectiveAt :=
    fun version hversion => hready.earlier version hversion write List.mem_cons_self
  have hincreasing := List.pairwise_cons.mp hready.increasing
  obtain ⟨incoming, hlists, hview⟩ := hadvances.effect s write next hready.wellFormed hstep
  constructor
  · rw [hview]
    exact wellFormed_advance hlists hready.wellFormed hlt
  · exact hincreasing.2
  · intro version hversion later hlater
    rw [hview] at hversion
    rcases validFrom_advance hversion with hnow | ⟨before, hbefore, hsame⟩
    · rw [hnow]
      exact hincreasing.1 _ (List.mem_map_of_mem hlater)
    · rw [hsame]
      exact hready.earlier before hbefore later (List.mem_cons_of_mem _ hlater)
  · intro k hk
    rcases hready.occurred k hk with hstored | ⟨later, hlater, row, hrow, hkey⟩
    · exact .inl (versions_ne_zero_step hadvances hready.wellFormed hlt hstep hstored)
    · rcases List.mem_cons.mp hlater with rfl | hin
      · obtain ⟨record, hrecord⟩ := exists_lastRecord hrow hkey
        exact .inl (versions_ne_zero_of_current
          (current_of_harmless hadvances hready.wellFormed hlt hstep hharmless hrecord))
      · exact .inr ⟨later, hin, row, hrow, hkey⟩

/-- A version whose key is in no record is of no published key. -/
theorem unpublished_of_untouched (hsubset : ∀ row ∈ published s write, row ∈ write.records)
    {version : Version (Row n V) ℤ}
    (h : ∀ row ∈ write.records, keysMatch businessKey version.row row = false) :
    (keyOf businessKey version.row).bind
      (fun k => lastRecord businessKey k (published s write)) = none := by
  cases hkey : keyOf businessKey version.row with
  | none => rfl
  | some k =>
    rw [Option.bind_some]
    cases hlast : lastRecord businessKey k (published s write) with
    | none => rfl
    | some last =>
      have hmem := List.mem_of_getLast? hlast
      have hfalse := h last (hsubset last (List.mem_filter.mp hmem).1)
      rw [keysMatch_eq_sameKey,
        (sameKey_of_key hkey).mpr (Snowflake.keyOf_of_lastRecord hlast)] at hfalse
      cases hfalse

/-- Writing the records again changes nothing. -/
theorem repeated_of_current (hadvances : Advances businessKey step view published)
    (hwf : WellFormed (keyOf businessKey) (view s))
    (hcurrent : ∀ k record, lastRecord businessKey k write.records = some record →
      currentRows (keyOf businessKey) k (view s) = {record})
    (hstep : step s write = .ok next)
    (hharmless : SkipsHarmless businessKey (view s) write.records (published s write)) :
    view next = view s := by
  obtain ⟨incoming, hlists, hview⟩ := hadvances.effect s write next hwf hstep
  rw [hview]
  apply advance_of_current hlists
  intro k new hlast
  have hmem := List.mem_filter.mp (List.mem_of_getLast? hlast)
  obtain ⟨record, hrecord⟩ := exists_lastRecord (hadvances.subset s write new hmem.1)
    (Snowflake.keyOf_of_lastRecord hlast)
  rcases hharmless k record hrecord with hsome | ⟨hnone, -⟩
  · rw [hlast, Option.some.injEq] at hsome
    rw [hsome]
    exact hcurrent k record hrecord
  · rw [hlast] at hnone
    cases hnone

theorem keepsHistories {harmless : S → Write n V → Prop}
    (hadvances : Advances businessKey step view published)
    (hharmless : ∀ s write, harmless s write ↔
      SkipsHarmless businessKey (view s) write.records (published s write)) :
    KeepsHistories businessKey step view harmless := by
  intro start earlier before write after hwf hincreasing hearlier hthrough hrun hstep
  have hstart : Ready businessKey view start (earlier ++ [write]) (earlier ++ [write]) start := by
    refine ⟨hwf, hincreasing, hearlier, ?_⟩
    rintro k (⟨version, hversion, hkey⟩ | hrecord)
    · refine .inl ?_
      intro hzero
      have hin := mem_versions.mpr ⟨hversion, hkey⟩
      rw [hzero] at hin
      cases hin
    · exact .inr hrecord
  have hbefore : Ready businessKey view start (earlier ++ [write]) ([] ++ [write]) before ∧
      Throughout step harmless before [] := by
    refine foldlM_invariant (P := fun rest s =>
      Ready businessKey view start (earlier ++ [write]) (rest ++ [write]) s ∧
        Throughout step harmless s rest) ?_ ⟨hstart, hthrough⟩ hrun
    rintro event rest s next ⟨hready, hcond⟩ hnext
    exact ⟨ready_step hadvances hready ((hharmless s event).mp hcond.1) hnext, hcond.2 next hnext⟩
  have hready := hbefore.1
  have hlt : ∀ version ∈ view before, version.validFrom < write.effectiveAt :=
    fun version hversion => hready.earlier version hversion write List.mem_cons_self
  rw [hharmless]
  constructor
  · intro hkept
    exact harmless_of_current hadvances hready.wellFormed hlt hstep hkept.current
  · intro hcond
    have hafter := ready_step hadvances hready hcond hstep
    have hcurrent : ∀ k record, lastRecord businessKey k write.records = some record →
        currentRows (keyOf businessKey) k (view after) = {record} := fun k record hlast =>
      current_of_harmless hadvances hready.wellFormed hlt hstep hcond hlast
    obtain ⟨incoming, hlists, hview⟩ := hadvances.effect before write after hready.wellFormed hstep
    constructor
    · intro k hk
      rcases hafter.wellFormed k with hzero | hhistory
      · rcases hafter.occurred k hk with hne | ⟨later, hlater, -⟩
        · exact absurd hzero hne
        · cases hlater
      · exact hhistory
    · exact hcurrent
    · have hfilter : (advance (keyOf businessKey) write.effectiveAt incoming (view before)).filter
          (fun version => (keyOf businessKey version.row).bind _ = none) = _ := filter_advance hlists
      rw [← hview] at hfilter
      have hsplit : ∀ table : Versions n V, table.filter (fun version =>
          ∀ row ∈ write.records, keysMatch businessKey version.row row = false) =
            (table.filter (fun version => (keyOf businessKey version.row).bind
              (fun k => lastRecord businessKey k (published before write)) = none)).filter
              (fun version => ∀ row ∈ write.records,
                keysMatch businessKey version.row row = false) := by
        intro table
        rw [Multiset.filter_filter]
        apply Multiset.filter_congr
        intro version _
        constructor
        · intro h
          exact ⟨h, unpublished_of_untouched (hadvances.subset before write) h⟩
        · exact And.left
      rw [hsplit (view after), hfilter, ← hsplit]
    · rw [hview]
      exact closed_le_advance
    · intro again final hrecords hsame hfinal
      have hcondAgain : SkipsHarmless businessKey (view after) again.records
          (published after again) := by
        rcases hsame with hrun | hcondAgain
        · intro k record hlast
          rcases hadvances.repeated before write after again hstep hrecords hrun with hnone | hall
          · refine .inr ⟨by rw [hnone]; rfl, hcurrent k record ?_⟩
            rw [← hrecords]
            exact hlast
          · rw [hall]
            exact .inl hlast
        · exact (hharmless after again).mp hcondAgain
      rw [← hrecords] at hcurrent
      exact repeated_of_current hadvances hafter.wellFormed hcurrent hfinal hcondAgain

end Runs

section Writers

variable {n : ℕ} {V : Type} [LinearOrder V] {pipeline : Pipeline n V} {records : List (Row n V)}

theorem lists_lastRecord {businessKey : List (Fin n)} {incoming : List (Row n V)}
    (hlists : Lists (keyOf businessKey) incoming
      (fun k => latest (cursorRank none) (keyOf businessKey) k records)) :
    Lists (keyOf businessKey) incoming (fun k => lastRecord businessKey k records) := by
  simpa only [latest_eq_lastRecord] using hlists

theorem lists_nil (businessKey : List (Fin n)) :
    Lists (keyOf businessKey) ([] : List (Row n V)) (fun k => lastRecord businessKey k []) :=
  ⟨List.nodup_nil, by simp [lastRecord], by simp [lastRecord]⟩

theorem advance_nil {businessKey : List (Fin n)} {effectiveAt : ℤ} {table : Versions n V} :
    advance (keyOf businessKey) effectiveAt [] table = table :=
  advance_of_current (lists_nil businessKey) (by simp [lastRecord])

theorem postgresql_advances (pipeline : Pipeline n V) :
    Advances pipeline.businessKey (Postgresql.scd2Write pipeline) id
      (fun _ write => write.records) := by
  refine ⟨?_, fun _ _ _ h => h, fun _ _ _ _ _ _ _ => .inr rfl⟩
  intro table write next _ hstep
  unfold Postgresql.scd2Write at hstep
  obtain ⟨-, hstep⟩ := guard_eq_ok hstep
  obtain ⟨staged, hstaged, hstep⟩ := bind_eq_ok hstep
  obtain ⟨rfl, hchecked⟩ := Postgresql.recordValues_ok hstaged
  have hlists := lists_lastRecord (lists_of_checked hchecked 1)
  refine ⟨_, hlists, ?_⟩
  obtain rfl := Except.ok.inj hstep
  cases hrecords : write.records with
  | nil =>
    exact advance_nil.symm
  | cons first rest =>
    have hdistinct : ∀ a b : Option V, Postgresql.isDistinctFrom a b = decide (a ≠ b) :=
      fun _ _ => rfl
    rw [if_neg (by simp), Postgresql.scd2Sql, Postgresql.deduplicatedSource_eq]
    · exact scd2Statements_eq hdistinct
    · intro row hrow
      rw [hrecords] at hchecked
      exact hchecked row.1 (List.fst_mem_of_mem_zipIdx hrow)

theorem bigquery_advances (pipeline : Pipeline n V)
    (hjson : Function.Injective pipeline.toJsonString) :
    Advances pipeline.businessKey (Bigquery.scd2Write pipeline) id
      (fun _ write => write.records) := by
  refine ⟨?_, fun _ _ _ h => h, fun _ _ _ _ _ _ _ => .inr rfl⟩
  intro table write next hwf hstep
  unfold Bigquery.scd2Write at hstep
  obtain ⟨-, hstep⟩ := guard_eq_ok hstep
  cases hrecords : write.records with
  | nil =>
    rw [hrecords] at hstep
    obtain rfl := Except.ok.inj hstep
    exact ⟨[], lists_nil _, advance_nil.symm⟩
  | cons first rest =>
    rw [hrecords] at hstep
    obtain ⟨staged, hstaged, hstep⟩ := bind_eq_ok hstep
    have hnone : Lists (keyOf pipeline.businessKey) ([] : List (Row n V))
        (fun k => latest (cursorRank none) (keyOf pipeline.businessKey) k []) := by
      simpa only [latest_eq_lastRecord] using lists_nil pipeline.businessKey
    obtain ⟨hlists, -⟩ := Bigquery.deduplicateKeyed_ok hnone hstaged
    obtain rfl := Except.ok.inj hstep
    exact ⟨staged, lists_lastRecord hlists, bigquery_scd2Sql_eq hjson hwf hlists⟩

/-- What Redshift publishes: nothing of a load in the history. -/
def redshiftPublished (pipeline : Pipeline n V) (warehouse : Redshift.VersionWarehouse n V)
    (write : Write n V) : List (Row n V) :=
  if Redshift.scd2Load pipeline write ∈ warehouse.history then [] else write.records

omit [LinearOrder V] in
theorem scd2WithOrdinals_ok {ordinal : ℕ} {staged : List (Row n V × ℕ)}
    (h : Redshift.scd2WithOrdinals pipeline ordinal records = .ok staged) :
    staged = records.zipIdx ordinal ∧
      ∀ row ∈ records, Snowflake.Checked pipeline.businessKey none row := by
  induction records generalizing ordinal staged with
  | nil =>
    cases h
    exact ⟨rfl, by simp⟩
  | cons record rest ih =>
    unfold Redshift.scd2WithOrdinals at h
    obtain ⟨hkey, h⟩ := guard_eq_ok h
    obtain ⟨⟨⟩, -, h⟩ := bind_eq_ok h
    obtain ⟨tail, htail, h⟩ := bind_eq_ok h
    cases h
    obtain ⟨rfl, hchecked⟩ := ih htail
    refine ⟨rfl, ?_⟩
    intro row hrow
    obtain rfl | hin := List.mem_cons.mp hrow
    · exact ⟨Redshift.exists_keyOf (Bool.eq_false_of_not_eq_true hkey), by simp⟩
    · exact hchecked row hin

theorem redshift_advances (pipeline : Pipeline n V) :
    Advances pipeline.businessKey (Redshift.scd2Write pipeline) Redshift.VersionWarehouse.table
      (redshiftPublished pipeline) := by
  have hdifferent : ∀ a b : Option V, Redshift.nullSafeDifferent a b = decide (a ≠ b) := by
    intro a b
    cases a <;> cases b <;> simp [Redshift.nullSafeDifferent]
  constructor
  · intro warehouse write next _ hstep
    unfold Redshift.scd2Write at hstep
    obtain ⟨-, hstep⟩ := guard_eq_ok hstep
    obtain ⟨staged, hstaged, hstep⟩ := bind_eq_ok hstep
    obtain ⟨rfl, hchecked⟩ := scd2WithOrdinals_ok hstaged
    obtain rfl := Except.ok.inj hstep
    unfold redshiftPublished Redshift.scd2Statements
    simp only [scd2Statements_eq hdifferent]
    by_cases hloaded : Redshift.scd2Load pipeline write ∈ warehouse.history
    · simp only [hloaded, decide_true, if_true, advance_nil, ite_self]
      exact ⟨[], lists_nil _, advance_nil.symm⟩
    · simp only [hloaded, decide_false, if_false, Bool.false_eq_true]
      refine ⟨_, lists_lastRecord (lists_of_checked hchecked 0), ?_⟩
      cases hrecords : write.records with
      | nil => exact advance_nil.symm
      | cons first rest => rfl
  · intro warehouse write row hrow
    unfold redshiftPublished at hrow
    split at hrow
    · cases hrow
    · exact hrow
  · intro warehouse write next again hstep hrecords hrun
    unfold Redshift.scd2Write at hstep
    obtain ⟨-, hstep⟩ := guard_eq_ok hstep
    obtain ⟨staged, -, hstep⟩ := bind_eq_ok hstep
    obtain rfl := Except.ok.inj hstep
    have hsame : Redshift.scd2Load pipeline again = Redshift.scd2Load pipeline write := by
      unfold Redshift.scd2Load
      rw [hrecords, hrun]
    refine .inl ?_
    unfold redshiftPublished
    rw [hsame, if_pos]
    by_cases hloaded : Redshift.scd2Load pipeline write ∈ warehouse.history <;> simp [hloaded]

/-- What Snowflake publishes: the records in the parts that are not in the history. -/
def snowflakePublished (pipeline : Pipeline n V)
    (warehouse : Snowflake.Warehouse (Versions n V)) (write : Write n V) : List (Row n V) :=
  ((Snowflake.pendingArtifacts (Snowflake.scd2Run pipeline write) warehouse.history
    (Snowflake.stagedLoad pipeline.platform pipeline.settings write.records.zipIdx)).flatMap
      Snowflake.StagedArtifact.rows).map Prod.fst

theorem snowflake_advances (pipeline : Pipeline n V) :
    Advances pipeline.businessKey (Snowflake.scd2Write pipeline) Snowflake.Warehouse.table
      (snowflakePublished pipeline) := by
  have hdifferent : ∀ a b : Option V, Snowflake.notEqualNull a b = decide (a ≠ b) := by
    intro a b
    simp [Snowflake.notEqualNull]
  have hok : ∀ {warehouse write next}, Snowflake.scd2Write pipeline warehouse write = .ok next →
      next = Snowflake.loadAndPublish (Snowflake.scd2Run pipeline write)
          (Snowflake.scd2Publication pipeline.businessKey write.effectiveAt) warehouse
          (Snowflake.stagedLoad pipeline.platform pipeline.settings write.records.zipIdx) ∧
        ∀ row ∈ write.records, Snowflake.Checked pipeline.businessKey none row := by
    intro warehouse write next hstep
    unfold Snowflake.scd2Write at hstep
    obtain ⟨-, hstep⟩ := guard_eq_ok hstep
    obtain ⟨load, hload, hstep⟩ := bind_eq_ok hstep
    obtain ⟨rfl, hchecked⟩ := Snowflake.prepare_ok hload
    exact ⟨(Except.ok.inj hstep).symm, hchecked⟩
  have hsublist : ∀ (warehouse : Snowflake.Warehouse (Versions n V)) (write : Write n V),
      ((Snowflake.pendingArtifacts (Snowflake.scd2Run pipeline write) warehouse.history
        (Snowflake.stagedLoad pipeline.platform pipeline.settings write.records.zipIdx)).flatMap
          Snowflake.StagedArtifact.rows).Sublist write.records.zipIdx := by
    intro warehouse write
    have hpending := Snowflake.pending_sublist (Snowflake.scd2Run pipeline write) warehouse.history
      (Snowflake.stagedLoad pipeline.platform pipeline.settings write.records.zipIdx)
    rwa [Snowflake.rows_stagedLoad] at hpending
  constructor
  · intro warehouse write next _ hstep
    obtain ⟨rfl, hchecked⟩ := hok hstep
    have hstaged := Snowflake.staged_of_sublist hchecked (hsublist warehouse write)
    have hlists := lists_lastRecord (Redshift.lists_deduplicatedSource hstaged)
    unfold snowflakePublished
    by_cases hempty : (Snowflake.stagedLoad pipeline.platform pipeline.settings
        write.records.zipIdx).rows = []
    · have hnone := Snowflake.pending_sublist (Snowflake.scd2Run pipeline write) warehouse.history
        (Snowflake.stagedLoad pipeline.platform pipeline.settings write.records.zipIdx)
      rw [hempty, List.sublist_nil] at hnone
      rw [Snowflake.loadAndPublish_empty hempty, hnone]
      exact ⟨[], lists_nil _, advance_nil.symm⟩
    · by_cases hpending : Snowflake.pendingArtifacts (Snowflake.scd2Run pipeline write)
          warehouse.history (Snowflake.stagedLoad pipeline.platform pipeline.settings
            write.records.zipIdx) = []
      · rw [Snowflake.loadAndPublish_skipped hempty hpending, hpending]
        exact ⟨[], lists_nil _, advance_nil.symm⟩
      · rw [Snowflake.loadAndPublish_pending hempty hpending]
        exact ⟨_, hlists, scd2Statements_eq hdifferent⟩
  · intro warehouse write row hrow
    obtain ⟨pair, hpair, rfl⟩ := List.mem_map.mp hrow
    exact List.fst_mem_of_mem_zipIdx ((hsublist warehouse write).subset hpair)
  · intro warehouse write next again hstep hrecords hrun
    obtain ⟨rfl, -⟩ := hok hstep
    have hsame : Snowflake.scd2Run pipeline again = Snowflake.scd2Run pipeline write := by
      unfold Snowflake.scd2Run
      rw [hrun]
    refine .inl ?_
    unfold snowflakePublished
    rw [hrecords, hsame, Snowflake.pending_loadAndPublish]
    rfl

/-- In every run of SCD2 writes with increasing effective times, PostgreSQL and BigQuery keep the
histories. Redshift and Snowflake do exactly as long as what a write skips is harmless. -/
theorem scd2_histories (pipeline : Pipeline n V)
    (hjson : Function.Injective pipeline.toJsonString) :
    KeepsHistories pipeline.businessKey (Postgresql.scd2Write pipeline) id (fun _ _ => True) ∧
    KeepsHistories pipeline.businessKey (Bigquery.scd2Write pipeline) id (fun _ _ => True) ∧
    KeepsHistories pipeline.businessKey (Redshift.scd2Write pipeline)
      Redshift.VersionWarehouse.table (fun warehouse write =>
        SkipsHarmless pipeline.businessKey warehouse.table write.records
          (redshiftPublished pipeline warehouse write)) ∧
    KeepsHistories pipeline.businessKey (Snowflake.scd2Write pipeline) Snowflake.Warehouse.table
      (fun warehouse write =>
        SkipsHarmless pipeline.businessKey warehouse.table write.records
          (snowflakePublished pipeline warehouse write)) := by
  have hall : ∀ (table : Versions n V) (records : List (Row n V)), True ↔
      SkipsHarmless pipeline.businessKey table records records :=
    fun table records => ⟨fun _ k record hlast => .inl hlast, fun _ => trivial⟩
  refine ⟨?_, ?_, ?_, ?_⟩
  · exact keepsHistories (postgresql_advances pipeline) (fun table write => hall table write.records)
  · exact keepsHistories (bigquery_advances pipeline hjson)
      (fun table write => hall table write.records)
  · exact keepsHistories (redshift_advances pipeline) (fun _ _ => Iff.rfl)
  · exact keepsHistories (snowflake_advances pipeline) (fun _ _ => Iff.rfl)

end Writers

section Example

/-- Rows of an `id` and a `flag`. -/
def flagged (flag : Bool) : Row 2 Bool := fun field => some (if field = 0 then true else flag)

def flagJson : Option Bool → String
  | none => "null"
  | some true => "true"
  | some false => "false"

def flagDigest (staged : List (Row 2 Bool × ℕ)) : String :=
  match staged.map fun row => row.1 1 with
  | [some false] => "a"
  | [some true] => "b"
  | _ => "c"

def flagPipeline : Pipeline 2 Bool where
  businessKey := [0]
  targetId := "db.raw.records"
  pipelineId := "p"
  postgresqlCheck _ _ := .ok ()
  bigqueryCheck _ _ := .ok ()
  toJsonString := flagJson
  redshiftCheck _ _ := .ok ()
  schemaFingerprint := "s"
  digest := flagDigest
  settings := ⟨1, 100, 0, 0⟩
  platform := ⟨fun _ _ => .ok (), fun _ => 1, flagDigest, flagDigest⟩

def flagWrite (effectiveAt : ℤ) (flag : Bool) : Write 2 Bool :=
  ⟨"run-1", effectiveAt, [flagged flag]⟩

/-- A run that writes a flag, changes it and changes it back: Redshift and Snowflake skip the third
write, and the changed flag stays current. -/
theorem flag_is_not_changed_back :
    (∃ before after, [flagWrite 1 false, flagWrite 2 true].foldlM (Redshift.scd2Write flagPipeline)
        ⟨0, []⟩ = .ok before ∧
      Redshift.scd2Write flagPipeline before (flagWrite 3 false) = .ok after ∧
      ¬ Kept [0] (Redshift.scd2Write flagPipeline) Redshift.VersionWarehouse.table
        (fun _ _ => True) ⟨0, []⟩ [flagWrite 1 false, flagWrite 2 true] before
        (flagWrite 3 false) after) ∧
    ∃ before after, [flagWrite 1 false, flagWrite 2 true].foldlM (Snowflake.scd2Write flagPipeline)
        ⟨0, []⟩ = .ok before ∧
      Snowflake.scd2Write flagPipeline before (flagWrite 3 false) = .ok after ∧
      ¬ Kept [0] (Snowflake.scd2Write flagPipeline) Snowflake.Warehouse.table
        (fun _ _ => True) ⟨0, []⟩ [flagWrite 1 false, flagWrite 2 true] before
        (flagWrite 3 false) after := by
  have hlast : lastRecord [0] [true] (flagWrite 3 false).records = some (flagged false) := rfl
  refine ⟨⟨_, _, rfl, rfl, ?_⟩, ⟨_, _, rfl, rfl, ?_⟩⟩
  · intro hkept
    have hcurrent := hkept.current [true] (flagged false) hlast
    revert hcurrent
    decide +kernel
  · intro hkept
    have hcurrent := hkept.current [true] (flagged false) hlast
    revert hcurrent
    decide +kernel

theorem flagJson_injective : Function.Injective flagJson := by
  rintro (_ | _ | _) (_ | _ | _) heq <;> first | rfl | exact absurd heq (by decide)

/-- A changed flag in PostgreSQL. -/
theorem scd2_histories_flags :
    ∃ before after, [flagWrite 1 false].foldlM (Postgresql.scd2Write flagPipeline) 0 =
        .ok before ∧
      Postgresql.scd2Write flagPipeline before (flagWrite 2 true) = .ok after ∧
      Kept [0] (Postgresql.scd2Write flagPipeline) id (fun _ _ => True) 0 [flagWrite 1 false]
        before (flagWrite 2 true) after :=
  ⟨_, _, rfl, rfl, ((scd2_histories flagPipeline flagJson_injective).1 0 [flagWrite 1 false] _
    (flagWrite 2 true) _ (fun _ => .inl rfl) (by decide) (by simp) ⟨trivial, by simp [Throughout]⟩
    rfl rfl).mpr trivial⟩

end Example

end Dander.Scd2
