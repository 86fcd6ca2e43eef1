import Dander.IncrementalTransforms

/-!
# Incremental transforms across warehouses

Snowflake and Redshift leave the same bag in every target. BigQuery and PostgreSQL do, where the
stored keys are unique and both order tied rows alike. The two pairs differ in late rows: the
latest row of a key that is below the greatest stored cursor, but newer than what is stored of its
key.
-/
namespace Dander.Transform

open KeyedUpsert Execution
open Redshift (Row keysMatch keysMatch_eq_sameKey keyOf updated updated_eq)

section Keys

variable {n : ℕ} {V : Type} {model : IncrementalModel n} {a b row : Row n V}

theorem map_of_keyOf {uniqueKey : List (Fin n)} {k : List V} (hkey : keyOf uniqueKey row = some k) :
    uniqueKey.map row = k.map some := by
  induction uniqueKey generalizing k with
  | nil =>
    cases hkey
    rfl
  | cons first rest ih =>
    simp only [keyOf, List.mapM_cons, Option.pure_def, Option.bind_eq_bind,
      Option.bind_eq_some_iff, Option.some.injEq] at hkey
    obtain ⟨value, hvalue, tail, htail, rfl⟩ := hkey
    rw [List.map_cons, List.map_cons, hvalue, ih htail]

variable [LinearOrder V]

theorem partition_of_sameKey (hsame : sameKey (keyOf model.uniqueKey) a b = true) :
    model.partition a = model.partition b := by
  obtain ⟨k, ha, hb⟩ := sameKey_iff.mp hsame
  unfold IncrementalModel.partition
  rw [map_of_keyOf ha, map_of_keyOf hb]

theorem pairwise_of_firstRows {C : Type} [LinearOrder C] (order : Row n V → C)
    (result : List (Row n V)) :
    (firstRows model.partition order result).Pairwise
      (fun a b => sameKey (keyOf model.uniqueKey) a b = false) := by
  refine (pairwise_firstRows model.partition order result).imp ?_
  intro a b hne
  apply Bool.eq_false_of_not_eq_true
  exact fun hsame => hne (partition_of_sameKey hsame)

end Keys

section Orders

variable {n : ℕ} {V J J' : Type} [LinearOrder V] [LinearOrder J] [LinearOrder J']
  {model : IncrementalModel n} {table : Multiset (Row n V)} {result : List (Row n V)}
  {a b row : Row n V}

/-- Rows of one key and one cursor are ordered alike. -/
def TiesAlike (model : IncrementalModel n) (result : List (Row n V)) (tie : Row n V → J)
    (tie' : Row n V → J') : Prop :=
  ∀ a ∈ result, ∀ b ∈ result, model.partition a = model.partition b →
    model.cursor a = model.cursor b → (tie a < tie b ↔ tie' a < tie' b)

omit [LinearOrder V] in
theorem nullsLast_inj {x y : Option V} : nullsLast x = nullsLast y ↔ x = y := by
  cases x <;> cases y <;> simp [nullsLast]

theorem atBoundary_mono (hle : nullsLast (model.cursor a) ≤ nullsLast (model.cursor b))
    (ha : atBoundary model table a = true) : atBoundary model table b = true := by
  simp only [atBoundary, Bool.or_eq_true, Bool.and_eq_true, decide_eq_true_eq] at ha ⊢
  rcases ha with hempty | ⟨hmax, hbound⟩
  · exact .inl hempty
  · exact .inr ⟨hmax, hbound.trans hle⟩

theorem atBoundary_of_null (hnull : model.cursor row = none)
    (hrow : atBoundary model table row = true) : table = 0 := by
  simp only [atBoundary, Bool.or_eq_true, Bool.and_eq_true, decide_eq_true_eq] at hrow
  rcases hrow with hempty | ⟨hmax, hbound⟩
  · exact hempty
  · rw [hnull] at hbound
    exact absurd (le_bot_iff.mp hbound) hmax

/-- No row at the boundary of a target is older than a stored one. -/
theorem atLeast_of_atBoundary {old : Row n V} {stored : V} (hold : old ∈ table)
    (hstored : model.cursor old = some stored) (hrow : atBoundary model table row = true) :
    atLeast (model.cursor row) (model.cursor old) = true := by
  have hle : (stored : WithBot V) ≤ nullsLast (model.cursor row) := by
    simp only [atBoundary, Bool.or_eq_true, Bool.and_eq_true, decide_eq_true_eq] at hrow
    rcases hrow with hempty | ⟨-, hbound⟩
    · rw [hempty] at hold
      exact absurd hold (Multiset.notMem_zero _)
    · have hmem : nullsLast (model.cursor old) ∈ table.map fun row => nullsLast (model.cursor row) :=
        Multiset.mem_map_of_mem _ hold
      rw [hstored] at hmem
      exact (Multiset.le_sup hmem).trans hbound
  cases hcursor : model.cursor row with
  | none => simp [hcursor, nullsLast] at hle
  | some new =>
    rw [hcursor] at hle
    simpa [atLeast, hstored] using WithBot.coe_le_coe.mp hle

/-- BigQuery and PostgreSQL order rows with cursors alike. -/
theorem incoming_eq_sourceQuery {jsonString : Row n V → J} {jsonbText : Row n V → J'}
    (hcursor : table = 0 → ∀ row ∈ result, model.cursor row ≠ none)
    (hties : TiesAlike model result jsonString jsonbText) :
    Postgresql.incoming jsonbText model table result =
      Bigquery.sourceQuery jsonString model table result := by
  symm
  apply firstRows_congr
  intro a ha b hb hpartition
  obtain ⟨hain, habound⟩ := List.mem_filter.mp ha
  obtain ⟨hbin, hbbound⟩ := List.mem_filter.mp hb
  have hnull : ∀ row ∈ result, atBoundary model table row = true → ∃ value, model.cursor row = some value := by
    intro row hrow hbound
    apply Option.ne_none_iff_exists'.mp
    exact fun hnone => hcursor (atBoundary_of_null hnone hbound) row hrow hnone
  obtain ⟨x, hx⟩ := hnull a hain habound
  obtain ⟨y, hy⟩ := hnull b hbin hbbound
  have htie := hties a hain b hbin hpartition
  simp only [Bigquery.sourceOrder, Postgresql.incomingOrder, Prod.Lex.toLex_lt_toLex, hx, hy,
    nullsLast, nullsFirst, WithBot.coe_lt_coe, WithTop.coe_lt_coe, WithBot.coe_inj,
    WithTop.coe_inj] at htie ⊢
  apply or_congr_right
  apply and_congr_right
  intro hxy
  exact htie (congrArg some hxy)

/-- BigQuery takes those rows of the temporary table that are at the boundary. -/
theorem mem_sourceQuery {jsonString : Row n V → J}
    (hties : TiesAlike model result jsonString (otherColumns model)) :
    row ∈ Bigquery.sourceQuery jsonString model table result ↔
      row ∈ createTemporary model result ∧ atBoundary model table row = true := by
  have hsame : Bigquery.sourceQuery jsonString model table result =
      firstRows model.partition (stagingOrder model) (result.filter (atBoundary model table)) := by
    apply firstRows_congr
    intro a ha b hb hpartition
    have htie := hties a (List.mem_filter.mp ha).1 b (List.mem_filter.mp hb).1 hpartition
    simp only [Bigquery.sourceOrder, stagingOrder, Prod.Lex.toLex_lt_toLex]
    apply or_congr_right
    apply and_congr_right
    intro hcursor
    exact htie (nullsLast_inj.mp hcursor)
  rw [hsame, createTemporary]
  apply mem_firstRows_filter
  intro a b hle
  apply atBoundary_mono
  simp only [stagingOrder, Prod.Lex.toLex_le_toLex] at hle
  rcases hle with hlt | ⟨heq, -⟩
  · exact hlt.le
  · exact heq.le

end Orders

section Publications

variable {n : ℕ} {V J J' : Type} [LinearOrder V] [LinearOrder J] [LinearOrder J']
  {model : IncrementalModel n} {table : Multiset (Row n V)} {temporary result : List (Row n V)}
  {jsonString : Row n V → J} {jsonbText : Row n V → J'}

/-- The condition of the matched rows of Snowflake and Redshift. -/
def admits (model : IncrementalModel n) (incoming target : Row n V) : Bool :=
  atLeast (model.cursor incoming) (model.cursor target)

theorem missing_eq_unmatched :
    missing model table temporary = unmatched (keyOf model.uniqueKey) table temporary := by
  unfold missing unmatched
  simp only [keysMatch_eq_sameKey]

theorem snowflake_publication : Snowflake.transformPublication model table temporary =
    if (missing model table temporary).any (violatesNotNull model) then
      .error ⟨"Snowflake transform publication failed"⟩
    else .ok (mergeWhen (keyOf model.uniqueKey) (admits model) table temporary) := by
  have hmap : table.map (Snowflake.matchedRow model temporary) =
      table.map (mergedRow (keyOf model.uniqueKey) (admits model) temporary) := by
    refine Multiset.map_congr rfl ?_
    intro row _
    unfold Snowflake.matchedRow mergedRow
    simp only [keysMatch_eq_sameKey]
    cases hfound : temporary.find? (sameKey (keyOf model.uniqueKey) row) with
    | none => rfl
    | some new =>
      obtain ⟨k, hrow, hnew⟩ := sameKey_iff.mp (List.find?_some hfound)
      simp only [updated_eq hrow hnew, admits]
      rfl
  unfold Snowflake.transformPublication mergeWhen
  rw [hmap, ← missing_eq_unmatched]

theorem updatedRow_eq
    (hpairwise : temporary.Pairwise (fun a b => sameKey (keyOf model.uniqueKey) a b = false))
    (row : Row n V) : Redshift.updatedRow model temporary row =
      mergedRow (keyOf model.uniqueKey) (admits model) temporary row := by
  unfold Redshift.updatedRow
  simp only [keysMatch_eq_sameKey]
  cases hfound : temporary.find? (fun new => sameKey (keyOf model.uniqueKey) row new &&
      atLeast (model.cursor new) (model.cursor row)) with
  | none =>
    cases hmatch : temporary.find? (sameKey (keyOf model.uniqueKey) row) with
    | none => simp [mergedRow, hmatch]
    | some new =>
      have hnone := List.find?_eq_none.mp hfound new (List.mem_of_find?_eq_some hmatch)
      have hsame := List.find?_some hmatch
      simp only [hsame, Bool.true_and] at hnone
      simp [mergedRow, hmatch, admits, hnone]
  | some new =>
    have hboth := List.find?_some hfound
    simp only [Bool.and_eq_true] at hboth
    obtain ⟨hsame, hadmits⟩ := hboth
    obtain ⟨k, hrow, hnew⟩ := sameKey_iff.mp hsame
    rw [mergedRow_of_mem hpairwise (List.mem_of_find?_eq_some hfound) hsame]
    simp [admits, hadmits, updated_eq hrow hnew]

/-- The update and the insert of Redshift are one merge. -/
theorem redshift_publication
    (hpairwise : temporary.Pairwise (fun a b => sameKey (keyOf model.uniqueKey) a b = false)) :
    Redshift.transformPublication model table temporary =
      if (missing model table temporary).any (violatesNotNull model) then
        .error ⟨"Redshift transform publication failed"⟩
      else .ok (mergeWhen (keyOf model.uniqueKey) (admits model) table temporary) := by
  have hupdate : table.map (Redshift.updatedRow model temporary) =
      table.map (mergedRow (keyOf model.uniqueKey) (admits model) temporary) :=
    Multiset.map_congr rfl fun row _ => updatedRow_eq hpairwise row
  have hmissing : missing model (table.map (Redshift.updatedRow model temporary)) temporary =
      missing model table temporary := by
    rw [hupdate]
    apply List.filter_congr
    intro new _
    rw [decide_eq_decide]
    simp only [Multiset.mem_map, forall_exists_index, and_imp, forall_apply_eq_imp_iff₂,
      keysMatch_eq_sameKey]
    apply forall₂_congr
    intro row _
    have hkey : sameKey (keyOf model.uniqueKey)
          (mergedRow (keyOf model.uniqueKey) (admits model) temporary row) new =
        sameKey (keyOf model.uniqueKey) row new := sameKey_mergedRow row new
    rw [hkey]
  unfold Redshift.transformPublication mergeWhen
  simp only [hmissing]
  rw [hupdate, ← missing_eq_unmatched]

theorem pairwise_createTemporary (model : IncrementalModel n) (result : List (Row n V)) :
    (createTemporary model result).Pairwise
      (fun a b => sameKey (keyOf model.uniqueKey) a b = false) :=
  pairwise_of_firstRows (stagingOrder model) result

theorem snowflake_eq_redshift :
    left table (Snowflake.incrementalMaterialization model table result) =
      left table (Redshift.incrementalMaterialization model table result) := by
  unfold Snowflake.incrementalMaterialization Redshift.incrementalMaterialization
  rw [snowflake_publication, redshift_publication (pairwise_createTemporary model result)]
  cases (missing model table (createTemporary model result)).any (violatesNotNull model) <;> rfl

theorem bigquery_materialization :
    left table (Bigquery.incrementalMaterialization jsonString model table result) =
      mergeWhen (keyOf model.uniqueKey) (fun _ _ => true) table
        (Bigquery.sourceQuery jsonString model table result) :=
  Redshift.merge_eq_mergeWhen

theorem postgresql_materialization (hunique : (keys (keyOf model.uniqueKey) table).Nodup) :
    left table (Postgresql.incrementalStatements jsonbText model table result) =
      mergeWhen (keyOf model.uniqueKey) (fun _ _ => true) table
        (Postgresql.incoming jsonbText model table result) := by
  have hupdate : Postgresql.conflictCondition (V := V) (n := n) none = fun _ _ => true := rfl
  unfold Postgresql.incrementalStatements
  rw [if_pos hunique, Postgresql.insertOnConflict_eq_mergeOne, hupdate]
  exact foldl_mergeOne (pairwise_of_firstRows _ _)

theorem bigquery_eq_postgresql (hunique : (keys (keyOf model.uniqueKey) table).Nodup)
    (hcursor : table = 0 → ∀ row ∈ result, model.cursor row ≠ none)
    (hties : TiesAlike model result jsonString jsonbText) :
    left table (Bigquery.incrementalMaterialization jsonString model table result) =
      left table (Postgresql.incrementalStatements jsonbText model table result) := by
  rw [bigquery_materialization, postgresql_materialization hunique,
    incoming_eq_sourceQuery hcursor hties]

/-- A row below the boundary, where every stored row of its key is at most as new, and another. -/
def Late (model : IncrementalModel n) (table : Multiset (Row n V)) (row : Row n V) : Prop :=
  atBoundary model table row = false ∧
    ∀ old ∈ table, keysMatch model.uniqueKey old row = true →
      atLeast (model.cursor row) (model.cursor old) = true ∧ old ≠ row

theorem not_late_iff {row : Row n V} : ¬ Late model table row ↔ (atBoundary model table row = false →
    Settled (keyOf model.uniqueKey) (admits model) table row) := by
  unfold Late Settled admits
  simp only [keysMatch_eq_sameKey]
  constructor
  · intro hnot hbound
    by_contra hnone
    apply hnot
    refine ⟨hbound, ?_⟩
    intro old hold hsame
    constructor
    · apply Bool.eq_true_of_not_eq_false
      exact fun hfalse => hnone ⟨old, hold, hsame, .inl hfalse⟩
    · exact fun heq => hnone ⟨old, hold, hsame, .inr heq⟩
  · rintro hsettled ⟨hbound, hall⟩
    obtain ⟨old, hold, hsame, hcase⟩ := hsettled hbound
    obtain ⟨htrue, hne⟩ := hall old hold hsame
    rcases hcase with hfalse | heq
    · rw [htrue] at hfalse
      cases hfalse
    · exact hne heq

/-- Where no key and no cursor is null, Snowflake publishes a merge. -/
theorem snowflake_materialization
    (hresult : ∀ row ∈ result, violatesNotNull model row = false) :
    left table (Snowflake.incrementalMaterialization model table result) =
      mergeWhen (keyOf model.uniqueKey) (admits model) table (createTemporary model result) := by
  have hnone : (missing model table (createTemporary model result)).any (violatesNotNull model) =
      false := by
    rw [List.any_eq_false]
    intro row hrow
    rw [hresult row (mem_of_mem_firstRows (List.mem_filter.mp hrow).1)]
    simp
  unfold Snowflake.incrementalMaterialization
  rw [snowflake_publication, hnone]
  rfl

/-- BigQuery and Snowflake leave the same bag exactly if no row of the temporary table is late. -/
theorem bigquery_eq_snowflake_iff (hunique : (keys (keyOf model.uniqueKey) table).Nodup)
    (hstored : ∀ row ∈ table, model.cursor row ≠ none)
    (hresult : ∀ row ∈ result, violatesNotNull model row = false)
    (hties : TiesAlike model result jsonString (otherColumns model)) :
    left table (Bigquery.incrementalMaterialization jsonString model table result) =
        left table (Snowflake.incrementalMaterialization model table result) ↔
      ∀ row ∈ createTemporary model result, ¬ Late model table row := by
  rw [bigquery_materialization, snowflake_materialization hresult]
  have hkeyed : ∀ row ∈ createTemporary model result, ∃ k, keyOf model.uniqueKey row = some k := by
    intro row hrow
    apply Redshift.exists_keyOf
    have hnull := hresult row (mem_of_mem_firstRows hrow)
    simp only [violatesNotNull, List.any_cons, Bool.or_eq_false_iff] at hnull
    exact hnull.2
  have hselected : (Bigquery.sourceQuery jsonString model table result).Pairwise
      (fun a b => sameKey (keyOf model.uniqueKey) a b = false) :=
    pairwise_of_firstRows (Bigquery.sourceOrder jsonString model) _
  have hadmits : ∀ old ∈ table, ∀ new ∈ createTemporary model result,
      atBoundary model table new = true → admits model new old = true := by
    intro old hold new _ hbound
    obtain ⟨stored, hcursor⟩ := Option.ne_none_iff_exists'.mp (hstored old hold)
    exact atLeast_of_atBoundary hold hcursor hbound
  rw [mergeWhen_eq_iff hunique (pairwise_createTemporary model result) hselected
    (fun row => mem_sourceQuery hties) hkeyed hadmits]
  apply forall₂_congr
  intro row _
  exact not_late_iff.symm

end Publications

section Agreement

variable {n : ℕ} {V J J' : Type} [LinearOrder V] [LinearOrder J] [LinearOrder J']

/-- All four runners leave the same bag in the target. -/
def Agree (jsonString : Row n V → J) (jsonbText : Row n V → J') (model : IncrementalModel n)
    (table : Multiset (Row n V)) (result : List (Row n V)) : Prop :=
  left table (Bigquery.incrementalMaterialization jsonString model table result) =
      left table (Postgresql.incrementalStatements jsonbText model table result) ∧
    left table (Bigquery.incrementalMaterialization jsonString model table result) =
      left table (Snowflake.incrementalMaterialization model table result) ∧
    left table (Snowflake.incrementalMaterialization model table result) =
      left table (Redshift.incrementalMaterialization model table result)

theorem incremental_transforms_agree (jsonString : Row n V → J) (jsonbText : Row n V → J')
    (model : IncrementalModel n) (table : Multiset (Row n V)) (result : List (Row n V)) :
    left table (Snowflake.incrementalMaterialization model table result) =
        left table (Redshift.incrementalMaterialization model table result) ∧
      ((keys (keyOf model.uniqueKey) table).Nodup →
        (table = 0 → ∀ row ∈ result, model.cursor row ≠ none) →
        TiesAlike model result jsonString jsonbText →
        left table (Bigquery.incrementalMaterialization jsonString model table result) =
          left table (Postgresql.incrementalStatements jsonbText model table result)) ∧
      ((keys (keyOf model.uniqueKey) table).Nodup →
        (∀ row ∈ table, violatesNotNull model row = false) →
        (∀ row ∈ result, violatesNotNull model row = false) →
        TiesAlike model result jsonString (otherColumns model) →
        TiesAlike model result jsonbText (otherColumns model) →
        (Agree jsonString jsonbText model table result ↔
          ∀ row ∈ createTemporary model result, ¬ Late model table row)) := by
  have hcursor : ∀ row : Row n V, violatesNotNull model row = false → model.cursor row ≠ none := by
    intro row hrow hnone
    simp only [violatesNotNull, List.any_cons, Bool.or_eq_false_iff] at hrow
    rw [IncrementalModel.cursor] at hnone
    simp [hnone] at hrow
  refine ⟨snowflake_eq_redshift, fun hunique hnull hties =>
    bigquery_eq_postgresql hunique hnull hties, ?_⟩
  intro hunique hstored hresult hstring hbinary
  have hsame : TiesAlike model result jsonString jsonbText := by
    intro a ha b hb hpartition heq
    exact (hstring a ha b hb hpartition heq).trans (hbinary a ha b hb hpartition heq).symm
  have hpostgresql := bigquery_eq_postgresql hunique
    (fun _ row hrow => hcursor row (hresult row hrow)) hsame
  have hiff := bigquery_eq_snowflake_iff hunique (fun row hrow => hcursor row (hstored row hrow))
    hresult hstring
  constructor
  · rintro ⟨-, heq, -⟩
    exact hiff.mp heq
  · intro hlate
    exact ⟨hpostgresql, hiff.mpr hlate, snowflake_eq_redshift⟩

def orders : IncrementalModel 2 := ⟨[0], 1, [0, 1], by decide, by decide⟩

def order (number changedAt : ℕ) : Row 2 ℕ := fun name =>
  if name = 0 then some number else some changedAt

theorem incremental_transforms_agree_orders :
    Agree (fun _ => 0) (fun _ => 0) orders {order 1 5, order 2 4}
      [order 1 6, order 1 5, order 2 4, order 3 7] := by
  have hagree := (incremental_transforms_agree (fun _ => 0) (fun _ => 0) orders
    {order 1 5, order 2 4} [order 1 6, order 1 5, order 2 4, order 3 7]).2.2
    (by decide) (by decide) (by decide) (by unfold TiesAlike; decide) (by unfold TiesAlike; decide)
  rw [hagree]
  unfold Late
  decide +kernel

/-- An order that arrives late, with a cursor below the greatest stored one. -/
theorem late_order_differs : ¬ ∀ (jsonString jsonbText : Row 2 ℕ → ℕ) (model : IncrementalModel 2)
    (table : Multiset (Row 2 ℕ)) (result : List (Row 2 ℕ)),
    Agree jsonString jsonbText model table result := by
  intro hall
  obtain ⟨-, hagree, -⟩ := hall (fun _ => 0) (fun _ => 0) orders {order 1 5} [order 1 5, order 2 3]
  revert hagree
  decide +kernel

end Agreement

end Dander.Transform
