import Dander.BigqueryWriter
import Dander.SnowflakeReplays

/-!
# What one keyed write means in each warehouse

The deduplicated records of a write list the latest record of each key. Merged as each warehouse
merges them they are upserted: by the cursor in PostgreSQL, Redshift and Snowflake, and without
regard to it in BigQuery.
-/
namespace Dander

open KeyedUpsert Execution
open Redshift (Row keysMatch keysMatch_iff keysMatch_eq_sameKey updated updated_eq keyOf cursorRank
  Staged rowNumber_eq_one mem_deduplicatedSource lists_deduplicatedSource)
open Snowflake (Checked)

section Keys

variable {n : ℕ} {V : Type} {businessKey : List (Fin n)} {row other : Row n V} {k : List V}

theorem exists_of_keyOf (hkey : keyOf businessKey row = some k) {field : Fin n}
    (hfield : field ∈ businessKey) : ∃ value, row field = some value := by
  induction businessKey generalizing k with
  | nil => cases hfield
  | cons first rest ih =>
    simp only [keyOf, List.mapM_cons, Option.pure_def, Option.bind_eq_bind,
      Option.bind_eq_some_iff, Option.some.injEq] at hkey
    obtain ⟨value, hvalue, l, hl, rfl⟩ := hkey
    rcases List.mem_cons.mp hfield with rfl | hin
    · exact ⟨value, hvalue⟩
    · exact ih hl hin

variable [LinearOrder V]

/-- A row with a key equals the rows it matches, nulls or not. -/
theorem keysEqual_eq (hkey : keyOf businessKey row = some k) :
    Postgresql.keysEqual businessKey row other = sameKey (keyOf businessKey) row other := by
  rw [← keysMatch_eq_sameKey]
  unfold Postgresql.keysEqual keysMatch
  rw [Bool.eq_iff_iff, List.all_eq_true, List.all_eq_true]
  apply forall₂_congr
  intro field hfield
  obtain ⟨value, hvalue⟩ := exists_of_keyOf hkey hfield
  cases hother : other field <;> simp [hvalue]

/-- The deduplicated records of a write list the latest record of each key. -/
theorem lists_of_checked {cursorField : Option (Fin n)} {records : List (Row n V)}
    (hchecked : ∀ row ∈ records, Checked businessKey cursorField row) (ordinal : ℕ) :
    Lists (keyOf businessKey)
      (Redshift.deduplicatedSource businessKey cursorField (records.zipIdx ordinal))
      (fun k => latest (cursorRank cursorField) (keyOf businessKey) k records) := by
  have hstaged : Staged businessKey (records.zipIdx ordinal) :=
    Snowflake.staged_of_sublist hchecked (List.Sublist.refl _)
  have hrows : (records.zipIdx ordinal).map Prod.fst = records := List.zipIdx_map_fst _ _
  conv in latest _ _ _ records => rw [← hrows]
  exact lists_deduplicatedSource hstaged

theorem mem_of_mem_lists {cursorField : Option (Fin n)} {rows incoming : List (Row n V)}
    (hlists : Lists (keyOf businessKey) incoming
      (fun k => latest (cursorRank cursorField) (keyOf businessKey) k rows))
    (hrow : row ∈ incoming) : row ∈ rows := by
  obtain ⟨k, hlatest⟩ := (hlists.mem row).mp hrow
  exact (latest_mem hlatest).1

end Keys

namespace Postgresql

variable {n : ℕ} {V : Type} {businessKey : List (Fin n)} {cursorField snapshotField : Option (Fin n)}
  {check : ℕ → Row n V → Except PostgreSQLWriteError Unit} {records : List (Row n V)}
  {staged : List (Row n V × ℕ)} {index : ℕ}

theorem checked_of_checkRecord {row : Row n V}
    (h : checkRecord businessKey cursorField snapshotField index row = .ok ()) :
    Checked businessKey cursorField row := by
  unfold checkRecord at h
  by_cases hkey : businessKey.any (fun field => (row field).isNone) = true
  · rw [if_pos hkey] at h
    cases h
  · rw [if_neg hkey] at h
    refine ⟨Redshift.exists_keyOf (Bool.eq_false_of_not_eq_true hkey), ?_⟩
    rintro field rfl
    cases hvalue : row field with
    | none => simp [hvalue] at h
    | some value => exact ⟨value, rfl⟩

theorem recordValues_ok
    (h : recordValues check businessKey cursorField snapshotField index records = .ok staged) :
    staged = records.zipIdx (index + 1) ∧ ∀ row ∈ records, Checked businessKey cursorField row := by
  induction records generalizing index staged with
  | nil =>
    cases h
    exact ⟨rfl, by simp⟩
  | cons record rest ih =>
    unfold recordValues at h
    obtain ⟨⟨⟩, hrecord, h⟩ := bind_eq_ok h
    obtain ⟨⟨⟩, -, h⟩ := bind_eq_ok h
    obtain ⟨tail, htail, h⟩ := bind_eq_ok h
    cases h
    obtain ⟨rfl, hchecked⟩ := ih htail
    refine ⟨rfl, ?_⟩
    intro row hrow
    obtain rfl | hin := List.mem_cons.mp hrow
    · exact checked_of_checkRecord hrecord
    · exact hchecked row hin

variable [LinearOrder V] {table : Multiset (Row n V)}

theorem precedes_eq {a b : Row n V × ℕ} (ha : Checked businessKey cursorField a.1)
    (hb : Checked businessKey cursorField b.1) :
    precedes cursorField a b = Redshift.precedes cursorField a b := by
  cases cursorField with
  | none => rfl
  | some field =>
    obtain ⟨x, hx⟩ := ha.cursor field rfl
    obtain ⟨y, hy⟩ := hb.cursor field rfl
    simp [precedes, Redshift.precedes, hx, hy]

/-- Where no cursor is null, `DISTINCT ON` selects the rows numbered one. -/
theorem deduplicatedSource_eq (hchecked : ∀ row ∈ staged, Checked businessKey cursorField row.1) :
    deduplicatedSource businessKey cursorField staged =
      Redshift.deduplicatedSource businessKey cursorField staged := by
  unfold deduplicatedSource Redshift.deduplicatedSource
  congr 1
  apply List.filter_congr
  intro row hrow
  rw [Bool.eq_iff_iff, decide_eq_true_eq, rowNumber_eq_one, List.all_eq_true]
  constructor
  · intro hall other hother hmatch hprecedes
    obtain ⟨k, hk⟩ := (hchecked other hother).keyed
    have hfirst := hall other hother
    rw [keysEqual_eq hk, ← keysMatch_eq_sameKey, hmatch,
      precedes_eq (hchecked other hother) (hchecked row hrow), hprecedes] at hfirst
    cases hfirst
  · intro hall other hother
    obtain ⟨k, hk⟩ := (hchecked other hother).keyed
    have hfirst := hall other hother
    rw [keysEqual_eq hk, ← keysMatch_eq_sameKey,
      precedes_eq (hchecked other hother) (hchecked row hrow)]
    cases hmatch : keysMatch businessKey other.1 row.1 with
    | false => rfl
    | true => simpa using hfirst hmatch

theorem insertOnConflict_eq_mergeOne :
    insertOnConflict businessKey cursorField =
      mergeOne (keyOf businessKey) (conflictCondition (V := V) cursorField) := by
  funext table excluded
  unfold insertOnConflict mergeOne
  simp only [keysMatch_eq_sameKey]
  congr 1
  refine Multiset.map_congr rfl ?_
  intro current _
  by_cases hsame : sameKey (keyOf businessKey) current excluded = true
  · obtain ⟨k, hcurrent, hexcluded⟩ := sameKey_iff.mp hsame
    rw [updated_eq hcurrent hexcluded]
  · simp [hsame]

theorem conflictCondition_iff {excluded current : Row n V}
    (hexcluded : ∀ field, cursorField = some field → ∃ value, excluded field = some value) :
    conflictCondition cursorField excluded current = true ↔
      cursorRank cursorField current ≤ cursorRank cursorField excluded := by
  cases cursorField with
  | none => simp [conflictCondition, cursorRank]
  | some field =>
    obtain ⟨value, hvalue⟩ := hexcluded field rfl
    cases hcurrent : current field <;> simp [conflictCondition, cursorRank, hvalue, hcurrent]

theorem merge_eq_upsert (hchecked : ∀ row ∈ records, Checked businessKey cursorField row)
    (hunique : (keys (keyOf businessKey) table).Nodup) (index : ℕ) :
    merge businessKey cursorField table (records.zipIdx index) =
      upsert (keyOf businessKey) (cursorRank cursorField) table records := by
  have hlists := lists_of_checked hchecked index
  unfold merge
  rw [deduplicatedSource_eq (fun row hrow => hchecked row.1 (List.fst_mem_of_mem_zipIdx hrow)),
    insertOnConflict_eq_mergeOne, foldl_mergeOne hlists.pairwise]
  refine mergeWhen_eq_upsert hunique hlists ?_
  intro current _ excluded hexcluded _
  exact conflictCondition_iff (hchecked excluded (mem_of_mem_lists hlists hexcluded)).cursor

/-- A keyed write upserts its records. -/
theorem write_keyed {writer : Writer n} {after : Multiset (Row n V)}
    (hmode : writer.mode = .scd1 ∨ ∃ field, writer.mode = .incremental field)
    (hunique : (keys (keyOf writer.businessKey) table).Nodup)
    (h : write check writer table records = .ok after) :
    after = upsert (keyOf writer.businessKey) (cursorRank writer.cursorField) table records ∧
      ∀ row ∈ records, Checked writer.businessKey writer.cursorField row := by
  unfold write at h
  obtain ⟨⟨⟩, -, h⟩ := bind_eq_ok h
  obtain ⟨staged, hstaged, h⟩ := bind_eq_ok h
  obtain ⟨rfl, hchecked⟩ := recordValues_ok hstaged
  obtain rfl := Except.ok.inj h
  refine ⟨?_, hchecked⟩
  rw [← merge_eq_upsert hchecked hunique 1]
  unfold publish Writer.cursorField
  cases records with
  | nil =>
    rcases hmode with hmode | ⟨field, hmode⟩ <;> simp [hmode, merge, deduplicatedSource]
  | cons first rest =>
    rcases hmode with hmode | ⟨field, hmode⟩ <;> simp [hmode]

end Postgresql

namespace Bigquery

variable {n : ℕ} {V : Type} [LinearOrder V] {businessKey : List (Fin n)}
  {check : ℕ → Row n V → Except BigQueryWriteError Unit} {records seen : List (Row n V)}
  {deduplicated staged : List (Row n V)} {table : Multiset (Row n V)} {index : ℕ}

/-- The row of a key takes the place of the key's row. -/
theorem lists_setItem {w : List V → Option (Row n V)} {row : Row n V} {k : List V}
    (hlists : Lists (Redshift.keyOf businessKey) deduplicated w)
    (hkey : Redshift.keyOf businessKey row = some k) :
    Lists (Redshift.keyOf businessKey) (setItem businessKey deduplicated row)
      (Function.update w k (some row)) := by
  have hkeyed : ∀ k' row', Function.update w k (some row) k' = some row' →
      Redshift.keyOf businessKey row' = some k' := by
    intro k' row' hrow'
    by_cases hk : k' = k
    · subst hk
      rw [Function.update_self, Option.some.injEq] at hrow'
      exact hrow' ▸ hkey
    · rw [Function.update_of_ne hk] at hrow'
      exact hlists.keyed k' row' hrow'
  have hequal : ∀ old, Postgresql.keysEqual businessKey row old = true ↔
      Redshift.keyOf businessKey old = some k := by
    intro old
    rw [keysEqual_eq hkey, sameKey_of_key hkey]
  have hother : ∀ old ∈ deduplicated, Redshift.keyOf businessKey old ≠ some k →
      ∃ k', Function.update w k (some row) k' = some old := by
    intro old hold hne
    obtain ⟨k', hk', hchosen⟩ := hlists.key_of_mem hold
    refine ⟨k', ?_⟩
    rw [Function.update_of_ne (fun heq => hne (by rw [hk', heq])), hchosen]
  have hkept : ∀ k' old, k' ≠ k → Function.update w k (some row) k' = some old →
      old ∈ deduplicated ∧ Redshift.keyOf businessKey old ≠ some k := by
    intro k' old hk hchosen
    rw [Function.update_of_ne hk] at hchosen
    refine ⟨(hlists.mem old).mpr ⟨k', hchosen⟩, ?_⟩
    rw [hlists.keyed k' old hchosen]
    simpa using hk
  have hreplaced : ∀ old, Redshift.keyOf businessKey
      (if Postgresql.keysEqual businessKey row old then row else old) =
        Redshift.keyOf businessKey old := by
    intro old
    by_cases hk : Redshift.keyOf businessKey old = some k
    · rw [if_pos ((hequal old).mpr hk), hkey, hk]
    · rw [if_neg (mt (hequal old).mp hk)]
  unfold setItem
  by_cases hany : deduplicated.any (Postgresql.keysEqual businessKey row) = true
  · rw [if_pos hany]
    obtain ⟨first, hfirst, hfirstKey⟩ := List.any_eq_true.mp hany
    refine ⟨?_, ?_, hkeyed⟩
    · refine List.Nodup.map_on ?_ hlists.nodup
      intro a ha b hb heq
      obtain ⟨ka, hka, hchosenA⟩ := hlists.key_of_mem ha
      obtain ⟨kb, hkb, hchosenB⟩ := hlists.key_of_mem hb
      have hkeys := congrArg (Redshift.keyOf businessKey) heq
      rw [hreplaced, hreplaced, hka, hkb, Option.some.injEq] at hkeys
      rw [← hkeys, hchosenA, Option.some.injEq] at hchosenB
      exact hchosenB
    · intro row'
      rw [List.mem_map]
      constructor
      · rintro ⟨old, hold, rfl⟩
        by_cases hk : Redshift.keyOf businessKey old = some k
        · rw [if_pos ((hequal old).mpr hk)]
          exact ⟨k, Function.update_self _ _ _⟩
        · rw [if_neg (mt (hequal old).mp hk)]
          exact hother old hold hk
      · rintro ⟨k', hchosen⟩
        by_cases hk : k' = k
        · subst hk
          rw [Function.update_self, Option.some.injEq] at hchosen
          exact ⟨first, hfirst, by rw [if_pos hfirstKey, hchosen]⟩
        · obtain ⟨hold, hne⟩ := hkept k' row' hk hchosen
          exact ⟨row', hold, if_neg (mt (hequal row').mp hne)⟩
  · rw [if_neg hany]
    have hnone : ∀ old ∈ deduplicated, Redshift.keyOf businessKey old ≠ some k := by
      intro old hold hk
      exact hany (List.any_eq_true.mpr ⟨old, hold, (hequal old).mpr hk⟩)
    refine ⟨?_, ?_, hkeyed⟩
    · refine hlists.nodup.append (List.nodup_singleton row) ?_
      intro old hold hrow
      rw [List.mem_singleton.mp hrow] at hold
      exact hnone row hold hkey
    · intro row'
      rw [List.mem_append, List.mem_singleton]
      constructor
      · rintro (hold | rfl)
        · exact hother row' hold (hnone row' hold)
        · exact ⟨k, Function.update_self _ _ _⟩
      · rintro ⟨k', hchosen⟩
        by_cases hk : k' = k
        · subst hk
          rw [Function.update_self, Option.some.injEq] at hchosen
          exact .inr hchosen.symm
        · exact .inl (hkept k' row' hk hchosen).1

theorem latest_append_singleton {row : Row n V} {k : List V}
    (hkey : Redshift.keyOf businessKey row = some k) :
    (fun k' => latest (cursorRank none) (Redshift.keyOf businessKey) k' (seen ++ [row])) =
      Function.update (fun k' => latest (cursorRank none) (Redshift.keyOf businessKey) k' seen) k
        (some row) := by
  funext k'
  rw [latest_append]
  by_cases hk : k' = k
  · subst hk
    rw [Function.update_self]
    cases latest (cursorRank none) (Redshift.keyOf businessKey) k' seen <;>
      simp [latest, hkey, newer, cursorRank]
  · have hne : ¬ k = k' := fun heq => hk heq.symm
    rw [Function.update_of_ne hk]
    simp [latest, hkey, hne]

/-- The loop leaves the last record of each key. -/
theorem deduplicateKeyed_ok
    (hlists : Lists (Redshift.keyOf businessKey) deduplicated
      (fun k => latest (cursorRank none) (Redshift.keyOf businessKey) k seen))
    (h : deduplicateKeyed check businessKey index deduplicated records = .ok staged) :
    Lists (Redshift.keyOf businessKey) staged
        (fun k => latest (cursorRank none) (Redshift.keyOf businessKey) k (seen ++ records)) ∧
      ∀ row ∈ records, ∃ k, Redshift.keyOf businessKey row = some k := by
  induction records generalizing index deduplicated seen with
  | nil =>
    cases h
    rw [List.append_nil]
    exact ⟨hlists, by simp⟩
  | cons row rest ih =>
    unfold deduplicateKeyed at h
    obtain ⟨hnull, h⟩ := guard_eq_ok h
    obtain ⟨⟨⟩, -, h⟩ := bind_eq_ok h
    obtain ⟨k, hkey⟩ := Redshift.exists_keyOf (Bool.eq_false_of_not_eq_true hnull)
    have hnext := lists_setItem hlists hkey
    rw [← latest_append_singleton hkey] at hnext
    obtain ⟨hstaged, hrest⟩ := ih hnext h
    rw [List.append_assoc] at hstaged
    refine ⟨hstaged, ?_⟩
    intro other hother
    rcases List.mem_cons.mp hother with rfl | hin
    · exact ⟨k, hkey⟩
    · exact hrest other hin

/-- A write upserts its records, whatever their cursors. -/
theorem write_ok {writer : Writer n} {after : Multiset (Row n V)}
    (h : write check writer table records = .ok after) :
    after = upsert (Redshift.keyOf writer.businessKey) (cursorRank none) table records := by
  have hscd1 : scd1Write check writer.businessKey table records = .ok after := by
    unfold write at h
    cases hcursor : writer.cursorField with
    | none => simpa [hcursor] using h
    | some cursorField =>
      simp only [hcursor] at h
      obtain ⟨⟨⟩, -, h⟩ := bind_eq_ok h
      exact h
  unfold scd1Write at hscd1
  obtain ⟨-, hscd1⟩ := guard_eq_ok hscd1
  cases records with
  | nil =>
    rw [upsert_nil]
    exact (Except.ok.inj hscd1).symm
  | cons first rest =>
    obtain ⟨staged, hstaged, hscd1⟩ := bind_eq_ok hscd1
    obtain rfl := Except.ok.inj hscd1
    have hnone : Lists (Redshift.keyOf writer.businessKey) ([] : List (Row n V))
        (fun k => latest (cursorRank none) (Redshift.keyOf writer.businessKey) k []) :=
      ⟨List.nodup_nil, by simp [latest], by simp [latest]⟩
    obtain ⟨hlists, -⟩ := deduplicateKeyed_ok hnone hstaged
    rw [Redshift.merge_eq_mergeWhen, upsert, Redshift.prune_none]
    exact mergeWhen_true hlists (choice_latest _ _ _)

end Bigquery

namespace Redshift

variable {n : ℕ} {V : Type} [LinearOrder V] {check : ℕ → Row n V → Except RedshiftWriteError Unit}
  {digest : List (Row n V × ℕ) → String} {target : WriteTarget n}
  {warehouse after : Warehouse n V} {records : List (Row n V)} {cursorField : Fin n}

theorem write_ok (h : write check digest target warehouse records = .ok after) :
    after.table = publish target (decide (target.load (digest records.zipIdx) ∈ warehouse.history))
        warehouse.table records.zipIdx ∧
      ∀ row ∈ records, Checked target row := by
  unfold write at h
  obtain ⟨⟨⟩, -, h⟩ := bind_eq_ok h
  obtain ⟨staged, hstaged, h⟩ := bind_eq_ok h
  obtain ⟨rfl, hchecked⟩ := withOrdinals_ok hstaged
  obtain rfl := Except.ok.inj h
  exact ⟨rfl, hchecked⟩

/-- A load the history does not have is upserted. -/
theorem write_incremental (hmode : target.mode = .incremental cursorField)
    (hfresh : target.load (digest records.zipIdx) ∉ warehouse.history)
    (h : write check digest target warehouse records = .ok after) :
    after.table =
      upsert (keyOf target.businessKey) (cursorRank (some cursorField)) warehouse.table records := by
  obtain ⟨htable, hchecked⟩ := write_ok h
  rw [htable, decide_eq_false hfresh, publish_fresh hchecked]
  unfold modeSemantics
  rw [hmode]

theorem rising_write (hmode : target.mode = .incremental cursorField)
    (h : write check digest target warehouse records = .ok after) :
    Rising (keyOf target.businessKey) (cursorRank (some cursorField)) warehouse.table after.table := by
  by_cases hfresh : target.load (digest records.zipIdx) ∈ warehouse.history
  · obtain ⟨htable, -⟩ := write_ok h
    rw [htable, decide_eq_true hfresh, publish_loaded]
    exact Rising.refl
  · rw [write_incremental hmode hfresh h]
    exact rising_upsert

end Redshift

namespace Snowflake

variable {n : ℕ} {V : Type} [LinearOrder V] {platform : Platform n V} {run : RunIdentity}
  {writer : Writer n} {warehouse after : Warehouse (Multiset (Row n V))}
  {records : List (Row n V)} {businessKey : List (Fin n)} {table : Multiset (Row n V)}
  {cursorField : Fin n}

theorem merge_eq_mergeWhen {cursorField : Option (Fin n)} {staged : List (Row n V × ℕ)} :
    merge businessKey cursorField table staged =
      mergeWhen (keyOf businessKey) (matchedCondition cursorField) table
        (Redshift.deduplicatedSource businessKey cursorField staged) := by
  unfold merge mergeWhen unmatched
  simp only [keysMatch_eq_sameKey]
  congr 1
  refine Multiset.map_congr rfl ?_
  intro row _
  unfold mergedRow
  cases hfound : (Redshift.deduplicatedSource businessKey cursorField staged).find?
      (sameKey (keyOf businessKey) row) with
  | none => rfl
  | some new =>
    obtain ⟨k, hrow, hnew⟩ := sameKey_iff.mp (List.find?_some hfound)
    simp only [updated_eq hrow hnew]

/-- The rows of an incremental write that are not in the history yet are merged. -/
theorem write_merges (hmode : writer.mode = .incremental cursorField)
    (h : write platform run writer warehouse records = .ok after) :
    after.table = merge writer.businessKey (some cursorField) warehouse.table
        ((pendingArtifacts run warehouse.history
          (stagedLoad platform writer.settings records.zipIdx)).flatMap StagedArtifact.rows) ∧
      ∀ row ∈ records, Checked writer.businessKey (some cursorField) row := by
  obtain ⟨rfl, hchecked⟩ := write_ok h
  have hcursor : writer.cursorField = some cursorField := by simp [Writer.cursorField, hmode]
  rw [hcursor] at hchecked
  refine ⟨?_, hchecked⟩
  have hnothing : merge writer.businessKey (some cursorField) warehouse.table [] =
      warehouse.table := by
    simp [merge, Redshift.deduplicatedSource]
  have hsublist := pending_sublist run warehouse.history
    (stagedLoad platform writer.settings records.zipIdx)
  by_cases hempty : (stagedLoad platform writer.settings records.zipIdx).rows = []
  · rw [hempty, List.sublist_nil] at hsublist
    rw [loadAndPublish_empty hempty, hsublist, hnothing]
    simp [publicationStatements, hmode]
  · by_cases hpending : pendingArtifacts run warehouse.history
        (stagedLoad platform writer.settings records.zipIdx) = []
    · rw [loadAndPublish_skipped hempty hpending, hpending]
      exact hnothing.symm
    · rw [loadAndPublish_pending hempty hpending]
      simp [publicationStatements, hmode]

/-- A write none of whose parts are in the history is upserted, where no stored cursor it is
compared with is null. -/
theorem write_incremental (hmode : writer.mode = .incremental cursorField)
    (hunique : (keys (keyOf writer.businessKey) warehouse.table).Nodup)
    (hcursors : ∀ row ∈ warehouse.table, ∀ record ∈ records,
      keysMatch writer.businessKey row record = true → (row cursorField).isSome = true)
    (hfresh : ∀ artifact ∈ (stagedLoad platform writer.settings records.zipIdx).artifacts,
      artifactCommitted run warehouse.history artifact = false)
    (h : write platform run writer warehouse records = .ok after) :
    after.table = upsert (keyOf writer.businessKey) (cursorRank (some cursorField))
      warehouse.table records := by
  obtain ⟨htable, hchecked⟩ := write_merges hmode h
  have hpending : pendingArtifacts run warehouse.history
      (stagedLoad platform writer.settings records.zipIdx) =
        (stagedLoad platform writer.settings records.zipIdx).artifacts := by
    apply List.filter_eq_self.mpr
    intro artifact hartifact
    rw [hfresh artifact hartifact, Bool.not_false]
  have hrows : (stagedLoad platform writer.settings records.zipIdx).artifacts.flatMap
      StagedArtifact.rows = records.zipIdx := rows_stagedLoad _
  have hlists := lists_of_checked hchecked 0
  rw [htable, hpending, hrows, merge_eq_mergeWhen]
  refine mergeWhen_eq_upsert hunique hlists ?_
  intro row hrow new hnew hsame
  have hmem := mem_of_mem_lists hlists hnew
  obtain ⟨value, hvalue⟩ := (hchecked new hmem).cursor cursorField rfl
  rw [← keysMatch_eq_sameKey] at hsame
  obtain ⟨stored, hstored⟩ := Option.isSome_iff_exists.mp (hcursors row hrow new hmem hsame)
  simp [matchedCondition, cursorRank, hvalue, hstored]

theorem rising_write (hmode : writer.mode = .incremental cursorField)
    (h : write platform run writer warehouse records = .ok after) :
    Rising (keyOf writer.businessKey) (cursorRank (some cursorField)) warehouse.table
      after.table := by
  obtain ⟨htable, hchecked⟩ := write_merges hmode h
  have hsublist := pending_sublist run warehouse.history
    (stagedLoad platform writer.settings records.zipIdx)
  rw [rows_stagedLoad] at hsublist
  rw [htable, merge_eq_mergeWhen]
  refine rising_mergeWhen (lists_deduplicatedSource (staged_of_sublist hchecked hsublist)) ?_
  intro row _ new _ _ hallowed
  unfold matchedCondition at hallowed
  cases hnew : new cursorField with
  | none => simp [hnew] at hallowed
  | some value =>
    cases hstored : row cursorField with
    | none => simp [cursorRank, hstored]
    | some stored => simpa [hnew, hstored, cursorRank] using hallowed

end Snowflake

end Dander
