import Dander.TransformAgreement

/-!
# Repeated builds of incremental transforms

A second build of one query result takes the rows that reach the greatest cursor the first build
has stored. A row with a null in its unique key matches no stored row and is inserted again.
PostgreSQL, which puts nulls first, stores a row without a cursor in an empty target, and replaces
it in the second build by a row of its key that reaches the boundary. All other rows are found as
the first build has stored them.
-/
namespace Dander.Transform

open KeyedUpsert
open Redshift (Row keyOf)

section Statements

variable {n : ℕ} {V : Type}

/-- Building again from the bag that a build has left leaves that bag. -/
def Idempotent {ε : Type} (build : Multiset (Row n V) → Except ε (Multiset (Row n V)))
    (table : Multiset (Row n V)) : Prop :=
  left (left table (build table)) (build (left table (build table))) = left table (build table)

/-- No column of the unique key is null. -/
def Keyed (model : IncrementalModel n) (row : Row n V) : Prop :=
  ∀ name ∈ model.uniqueKey, row name ≠ none

/-- No row of the same key is without a cursor. -/
def Dated (model : IncrementalModel n) (rows : List (Row n V)) (row : Row n V) : Prop :=
  ∀ other ∈ rows, model.partition other = model.partition row → model.cursor other ≠ none

/-- The row reaches the cursors of all rows that count, of which one has a cursor. -/
def TakenAgain [LinearOrder V] (model : IncrementalModel n) (rows : List (Row n V))
    (counts : Row n V → Prop) (row : Row n V) : Prop :=
  row ∈ rows ∧ (∃ other ∈ rows, counts other ∧ model.cursor other ≠ none) ∧
    ∀ other ∈ rows, counts other → nullsLast (model.cursor other) ≤ nullsLast (model.cursor row)

end Statements

section Keys

variable {n : ℕ} {V : Type} {model : IncrementalModel n} {a b row : Row n V}

theorem keyOf_of_map {uniqueKey : List (Fin n)} {k : List V}
    (hmap : uniqueKey.map row = k.map some) : keyOf uniqueKey row = some k := by
  induction uniqueKey generalizing k with
  | nil =>
    cases k with
    | nil => rfl
    | cons value rest => cases hmap
  | cons first rest ih =>
    cases k with
    | nil => cases hmap
    | cons value tail =>
      simp only [List.map_cons, List.cons.injEq] at hmap
      have htail : rest.mapM row = some tail := ih hmap.2
      simp [keyOf, hmap.1, htail]

theorem keyOf_of_partition {k : List V} (ha : keyOf model.uniqueKey a = some k)
    (hpartition : model.partition a = model.partition b) : keyOf model.uniqueKey b = some k := by
  apply keyOf_of_map
  have hmap := map_of_keyOf ha
  unfold IncrementalModel.partition at hpartition
  rw [← hpartition, hmap]

theorem keyed_iff : Keyed model row ↔ ∃ k, keyOf model.uniqueKey row = some k := by
  constructor
  · intro hkeyed
    apply Redshift.exists_keyOf
    rw [List.any_eq_false]
    intro name hname
    simpa using hkeyed name hname
  · rintro ⟨k, hk⟩ name hname hnone
    have hmem : row name ∈ model.uniqueKey.map row := List.mem_map_of_mem hname
    rw [map_of_keyOf hk, hnone] at hmem
    simp at hmem

theorem keyed_of_partition (ha : Keyed model a)
    (hpartition : model.partition a = model.partition b) : Keyed model b := by
  rw [keyed_iff] at ha ⊢
  obtain ⟨k, hk⟩ := ha
  exact ⟨k, keyOf_of_partition hk hpartition⟩

variable [LinearOrder V]

theorem sameKey_of_partition (ha : Keyed model a)
    (hpartition : model.partition a = model.partition b) :
    sameKey (keyOf model.uniqueKey) a b = true := by
  obtain ⟨k, hk⟩ := keyed_iff.mp ha
  exact sameKey_iff.mpr ⟨k, hk, keyOf_of_partition hk hpartition⟩

end Keys

section Boundaries

variable {n : ℕ} {V : Type} [LinearOrder V] {model : IncrementalModel n}
  {table : Multiset (Row n V)} {row : Row n V}

theorem atBoundary_iff : atBoundary model table row = true ↔ table = 0 ∨
    (maxCursor model table ≠ ⊥ ∧ maxCursor model table ≤ nullsLast (model.cursor row)) := by
  simp [atBoundary]

theorem le_maxCursor (hrow : row ∈ table) :
    nullsLast (model.cursor row) ≤ maxCursor model table :=
  Multiset.le_sup (Multiset.mem_map_of_mem _ hrow)

theorem maxCursor_le {bound : WithBot V}
    (hall : ∀ row ∈ table, nullsLast (model.cursor row) ≤ bound) :
    maxCursor model table ≤ bound := by
  apply Multiset.sup_le.mpr
  intro value hvalue
  obtain ⟨row, hrow, rfl⟩ := Multiset.mem_map.mp hvalue
  exact hall row hrow

omit [LinearOrder V] in
theorem nullsLast_eq_bot {cursor : Option V} : nullsLast cursor = ⊥ ↔ cursor = none := by
  cases cursor <;> simp [nullsLast]

theorem exists_of_maxCursor (hmax : maxCursor model table ≠ ⊥) :
    ∃ row ∈ table, model.cursor row ≠ none := by
  by_contra hnone
  push Not at hnone
  apply hmax
  rw [← le_bot_iff]
  apply maxCursor_le
  intro row hrow
  rw [hnone row hrow]
  exact le_rfl

end Boundaries

section Rankings

variable {n : ℕ} {V C : Type} [LinearOrder V] [LinearOrder C]

/-- The first row of a key has a cursor only if its rows count, and then the greatest one. -/
structure Ranking (model : IncrementalModel n) (order : Row n V → C) (rows : List (Row n V))
    (counts : Row n V → Prop) : Prop where
  counts_of_first : ∀ first ∈ firstRows model.partition order rows, model.cursor first ≠ none →
    counts first
  newest : ∀ row ∈ rows, counts row → ∀ first ∈ firstRows model.partition order rows,
    model.partition first = model.partition row →
      nullsLast (model.cursor row) ≤ nullsLast (model.cursor first)
  congr : ∀ a b, model.partition a = model.partition b → (counts a ↔ counts b)

variable {model : IncrementalModel n} {order : Row n V → C} {table : Multiset (Row n V)}
  {result : List (Row n V)} {counts : Row n V → Prop} {row : Row n V}

theorem order_le_first {rows : List (Row n V)} {first : Row n V} (hrow : row ∈ rows)
    (hfirst : first ∈ firstRows model.partition order rows)
    (hpartition : model.partition first = model.partition row) : order row ≤ order first := by
  obtain ⟨other, hother, hsame, hle⟩ := exists_firstRow model.partition order hrow
  rwa [eq_of_mem_firstRows hfirst hother (hpartition.trans hsame.symm)]

/-- The bag that is left of the target by merging the first rows at its boundary. -/
def built (model : IncrementalModel n) (order : Row n V → C) (table : Multiset (Row n V))
    (result : List (Row n V)) : Multiset (Row n V) :=
  mergeWhen (keyOf model.uniqueKey) (fun _ _ => true) table
    (firstRows model.partition order (result.filter (atBoundary model table)))

theorem mem_built_of_first
    (hrow : row ∈ firstRows model.partition order (result.filter (atBoundary model table))) :
    row ∈ built model order table result :=
  mem_mergeWhen_of_incoming (pairwise_of_firstRows order _) hrow

/-- A first row at the boundary has a cursor as great as each stored one. -/
theorem maxCursor_le_first (hstored : table ≠ 0)
    (hrow : row ∈ firstRows model.partition order (result.filter (atBoundary model table))) :
    maxCursor model table ≠ ⊥ ∧ maxCursor model table ≤ nullsLast (model.cursor row) := by
  have hbound := (List.mem_filter.mp (mem_of_mem_firstRows hrow)).2
  rcases atBoundary_iff.mp hbound with hempty | hmax
  · exact absurd hempty hstored
  · exact hmax

theorem built_eq_self_iff : built model order table result = table ↔
    ∀ new ∈ firstRows model.partition order (result.filter (atBoundary model table)),
      (∃ old ∈ table, sameKey (keyOf model.uniqueKey) old new = true) ∧
        ∀ old ∈ table, sameKey (keyOf model.uniqueKey) old new = true → old = new :=
  mergeWhen_eq_self_iff (pairwise_of_firstRows order _)

theorem built_of_nil (hnil : result.filter (atBoundary model table) = []) :
    built model order table result = table := by
  rw [built_eq_self_iff, hnil]
  intro new hnew
  cases mem_of_mem_firstRows hnew

/-- A second build takes no row that the first one did not take. -/
theorem atBoundary_of_built
    (hbound : atBoundary model (built model order table result) row = true) :
    atBoundary model table row = true := by
  by_cases hempty : table = 0
  · exact atBoundary_iff.mpr (.inl hempty)
  · cases hrows : result.filter (atBoundary model table) with
    | nil => rwa [built_of_nil hrows] at hbound
    | cons taken rest =>
      have htaken : taken ∈ result.filter (atBoundary model table) := by
        rw [hrows]
        exact List.mem_cons_self
      obtain ⟨first, hfirst, -⟩ :=
      exists_firstRow model.partition order htaken
      have hmem := mem_built_of_first hfirst
      obtain ⟨hsome, hle⟩ := maxCursor_le_first hempty hfirst
      rcases atBoundary_iff.mp hbound with hzero | ⟨-, hmax⟩
      · rw [hzero] at hmem
        exact absurd hmem (Multiset.notMem_zero _)
      · exact atBoundary_iff.mpr (.inr ⟨hsome, (hle.trans (le_maxCursor hmem)).trans hmax⟩)

/-- A second build takes the rows that reach the cursors stored by the first one. -/
theorem atBoundary_built_iff
    (hranking : Ranking model order (result.filter (atBoundary model table)) counts)
    (hrow : row ∈ result) : atBoundary model (built model order table result) row = true ↔
      TakenAgain model (result.filter (atBoundary model table)) counts row := by
  constructor
  · intro hbound
    have hin : row ∈ result.filter (atBoundary model table) :=
      List.mem_filter.mpr ⟨hrow, atBoundary_of_built hbound⟩
    obtain ⟨first, hfirst, -⟩ :=
      exists_firstRow model.partition order hin
    rcases atBoundary_iff.mp hbound with hzero | ⟨hsome, hmax⟩
    · have hmem := mem_built_of_first hfirst
      rw [hzero] at hmem
      exact absurd hmem (Multiset.notMem_zero _)
    · refine ⟨hin, ?_, ?_⟩
      · obtain ⟨stored, hstored, hcursor⟩ := exists_of_maxCursor hsome
        rcases mem_or_mem_of_mem_mergeWhen hstored with hold | hnew
        · have hstoredSome : table ≠ 0 := by
            rintro rfl
            exact absurd hold (Multiset.notMem_zero _)
          obtain ⟨hne, hle⟩ := maxCursor_le_first hstoredSome hfirst
          have hdated : model.cursor first ≠ none := by
            intro hnone
            rw [nullsLast_eq_bot.mpr hnone, le_bot_iff] at hle
            exact hne hle
          exact ⟨first, mem_of_mem_firstRows hfirst,
            hranking.counts_of_first first hfirst hdated, hdated⟩
        · exact ⟨stored, mem_of_mem_firstRows hnew,
            hranking.counts_of_first stored hnew hcursor, hcursor⟩
      · intro other hother hcounts
        obtain ⟨newest, hnewest, hpartition, -⟩ :=
      exists_firstRow model.partition order hother
        calc nullsLast (model.cursor other)
          _ ≤ nullsLast (model.cursor newest) :=
            hranking.newest other hother hcounts newest hnewest hpartition
          _ ≤ maxCursor model (built model order table result) :=
            le_maxCursor (mem_built_of_first hnewest)
          _ ≤ nullsLast (model.cursor row) := hmax
  · rintro ⟨hin, ⟨other, hother, hcounts, hdated⟩, hall⟩
    rw [atBoundary_iff]
    right
    constructor
    · obtain ⟨newest, hnewest, hpartition, -⟩ :=
      exists_firstRow model.partition order hother
      have hle := (hranking.newest other hother hcounts newest hnewest hpartition).trans
        (le_maxCursor (mem_built_of_first hnewest))
      intro hbot
      rw [hbot, le_bot_iff, nullsLast_eq_bot] at hle
      exact hdated hle
    · apply maxCursor_le
      intro stored hstored
      rcases mem_or_mem_of_mem_mergeWhen hstored with hold | hnew
      · rcases atBoundary_iff.mp (List.mem_filter.mp hin).2 with hempty | ⟨-, hmax⟩
        · rw [hempty] at hold
          exact absurd hold (Multiset.notMem_zero _)
        · exact (le_maxCursor hold).trans hmax
      · by_cases hcursor : model.cursor stored = none
        · rw [hcursor]
          exact bot_le
        · exact hall stored (mem_of_mem_firstRows hnew)
            (hranking.counts_of_first stored hnew hcursor)

theorem filter_built : result.filter (atBoundary model (built model order table result)) =
    (result.filter (atBoundary model table)).filter
      (atBoundary model (built model order table result)) := by
  rw [List.filter_filter]
  apply List.filter_congr
  intro row _
  rw [Bool.eq_iff_iff, Bool.and_eq_true]
  constructor
  · intro hbound
    exact ⟨hbound, atBoundary_of_built hbound⟩
  · exact fun hboth => hboth.1

/-- A second build leaves the bag of the first one exactly if the rows it takes count and have no
null in their keys. -/
theorem built_built_iff
    (hranking : Ranking model order (result.filter (atBoundary model table)) counts) :
    built model order (built model order table result) result = built model order table result ↔
      ∀ row, TakenAgain model (result.filter (atBoundary model table)) counts row →
        counts row ∧ Keyed model row := by
  have htaken : ∀ row, row ∈ result.filter (atBoundary model (built model order table result)) ↔
      TakenAgain model (result.filter (atBoundary model table)) counts row := by
    intro row
    rw [List.mem_filter]
    constructor
    · rintro ⟨hrow, hbound⟩
      exact (atBoundary_built_iff hranking hrow).mp hbound
    · intro hagain
      have hrow := (List.mem_filter.mp hagain.1).1
      exact ⟨hrow, (atBoundary_built_iff hranking hrow).mpr hagain⟩
  have hdated : ∀ row, TakenAgain model (result.filter (atBoundary model table)) counts row →
      model.cursor row ≠ none := by
    rintro row ⟨-, ⟨other, hother, hcounts, hsome⟩, hall⟩ hnone
    have hle := hall other hother hcounts
    rw [hnone, nullsLast_eq_bot.mpr rfl, le_bot_iff, nullsLast_eq_bot] at hle
    exact hsome hle
  have hpairwise : (firstRows model.partition order
      (result.filter (atBoundary model table))).Pairwise
        (fun a b => sameKey (keyOf model.uniqueKey) a b = false) := pairwise_of_firstRows order _
  rw [built_eq_self_iff]
  constructor
  · intro hall row hrow
    obtain ⟨new, hnew, hpartition, -⟩ :=
      exists_firstRow model.partition order ((htaken row).mpr hrow)
    have hagain := (htaken new).mp (mem_of_mem_firstRows hnew)
    obtain ⟨⟨old, -, hsame⟩, honly⟩ := hall new hnew
    obtain ⟨k, -, hk⟩ := sameKey_iff.mp hsame
    have hkeyed : Keyed model new := keyed_iff.mpr ⟨k, hk⟩
    obtain ⟨first, hfirst, hfirstPartition, -⟩ :=
      exists_firstRow model.partition order hagain.1
    have hsameFirst : sameKey (keyOf model.uniqueKey) first new = true := by
      rw [sameKey_comm]
      exact sameKey_of_partition hkeyed hfirstPartition.symm
    have heq := honly first (mem_built_of_first hfirst) hsameFirst
    subst heq
    have hcounts := hranking.counts_of_first first hfirst (hdated first hagain)
    exact ⟨(hranking.congr first row hpartition).mp hcounts, keyed_of_partition hkeyed hpartition⟩
  · intro hall new hnew
    have hagain := (htaken new).mp (mem_of_mem_firstRows hnew)
    obtain ⟨hcounts, hkeyed⟩ := hall new hagain
    obtain ⟨first, hfirst, hpartition, -⟩ :=
      exists_firstRow model.partition order hagain.1
    have hle := hranking.newest new hagain.1 hcounts first hfirst hpartition
    have hbound := atBoundary_mono hle (List.mem_filter.mp (mem_of_mem_firstRows hnew)).2
    have hfirstAgain : first ∈ firstRows model.partition order
        (result.filter (atBoundary model (built model order table result))) := by
      rw [filter_built]
      exact mem_firstRows_filter_of_mem hfirst hbound
    have heq := eq_of_mem_firstRows hfirstAgain hnew hpartition
    subst heq
    constructor
    · exact ⟨first, mem_built_of_first hfirst, sameKey_of_partition hkeyed rfl⟩
    · intro old hold hsame
      exact eq_of_mem_mergeWhen hpairwise hfirst hold hsame

end Rankings

section Engines

variable {n : ℕ} {V J : Type} [LinearOrder V] [LinearOrder J] {model : IncrementalModel n}
  {table : Multiset (Row n V)} {result rows : List (Row n V)} {tie : Row n V → J}

/-- Where nulls are last, the first row of each key has its greatest cursor. -/
theorem ranking_nullsLast :
    Ranking model (Bigquery.sourceOrder tie model) rows (fun _ => True) := by
  refine ⟨fun _ _ _ => trivial, ?_, fun _ _ _ => Iff.rfl⟩
  intro row hrow _ first hfirst hpartition
  have hle := order_le_first hrow hfirst hpartition
  simp only [Bigquery.sourceOrder, Prod.Lex.toLex_le_toLex] at hle
  rcases hle with hlt | ⟨heq, -⟩
  · exact hlt.le
  · exact heq.le

/-- Where nulls are first, it does unless one of them has none. -/
theorem ranking_nullsFirst :
    Ranking model (Postgresql.incomingOrder tie model) rows (Dated model rows) := by
  have hcursor : ∀ row ∈ rows, ∀ first ∈ firstRows model.partition
      (Postgresql.incomingOrder tie model) rows, model.partition first = model.partition row →
      nullsFirst (model.cursor row) ≤ nullsFirst (model.cursor first) := by
    intro row hrow first hfirst hpartition
    have hle := order_le_first hrow hfirst hpartition
    simp only [Postgresql.incomingOrder, Prod.Lex.toLex_le_toLex] at hle
    rcases hle with hlt | ⟨heq, -⟩
    · exact hlt.le
    · exact heq.le
  constructor
  · intro first hfirst hdated other hother hpartition hnone
    have hle := hcursor other hother first hfirst hpartition.symm
    obtain ⟨value, hvalue⟩ := Option.ne_none_iff_exists'.mp hdated
    rw [hnone, hvalue] at hle
    simp [nullsFirst] at hle
  · intro row hrow hdated first hfirst hpartition
    have hle := hcursor row hrow first hfirst hpartition
    obtain ⟨value, hvalue⟩ := Option.ne_none_iff_exists'.mp (hdated row hrow rfl)
    obtain ⟨newest, hnewest⟩ := Option.ne_none_iff_exists'.mp
      (hdated first (mem_of_mem_firstRows hfirst) hpartition)
    rw [hvalue, hnewest] at hle ⊢
    exact WithBot.coe_le_coe.mpr (WithTop.coe_le_coe.mp hle)
  · intro a b hpartition
    unfold Dated
    rw [hpartition]

theorem bigquery_idempotent_iff :
    Idempotent (fun table => Bigquery.incrementalMaterialization tie model table result) table ↔
      ∀ row, TakenAgain model (result.filter (atBoundary model table)) (fun _ => True) row →
        Keyed model row := by
  have hranking : Ranking model (Bigquery.sourceOrder tie model)
      (result.filter (atBoundary model table)) (fun _ => True) := ranking_nullsLast
  have hiff := built_built_iff hranking
  simp only [true_and] at hiff
  rw [← hiff]
  unfold Idempotent
  simp only [bigquery_materialization]
  rfl

theorem postgresql_idempotent_iff :
    Idempotent (fun table => Postgresql.incrementalStatements tie model table result) table ↔
      ((keys (keyOf model.uniqueKey) table).Nodup →
        ∀ row, TakenAgain model (result.filter (atBoundary model table))
            (Dated model (result.filter (atBoundary model table))) row →
          Dated model (result.filter (atBoundary model table)) row ∧ Keyed model row) := by
  by_cases hunique : (keys (keyOf model.uniqueKey) table).Nodup
  · have hagain : (keys (keyOf model.uniqueKey)
        (built model (Postgresql.incomingOrder tie model) table result)).Nodup :=
      nodup_keys_mergeWhen (pairwise_of_firstRows _ _) hunique
    have hranking : Ranking model (Postgresql.incomingOrder tie model)
        (result.filter (atBoundary model table))
        (Dated model (result.filter (atBoundary model table))) := ranking_nullsFirst
    have hiff := built_built_iff hranking
    rw [forall_prop_of_true hunique, ← hiff]
    have hfirst : left table (Postgresql.incrementalStatements tie model table result) =
        built model (Postgresql.incomingOrder tie model) table result :=
      postgresql_materialization hunique
    unfold Idempotent
    simp only [hfirst]
    rw [postgresql_materialization hagain]
    rfl
  · have hfailed : ∀ build, build = Postgresql.incrementalStatements tie model table result →
        left table build = table := by
      rintro build rfl
      simp [Postgresql.incrementalStatements, hunique, left]
    constructor
    · exact fun _ hnodup => absurd hnodup hunique
    · intro _
      unfold Idempotent
      simp only [hfailed _ rfl]

end Engines

section Repeats

variable {n : ℕ} {V J J' : Type} [LinearOrder V] [LinearOrder J] [LinearOrder J']

theorem repeated_builds_iff (jsonString : Row n V → J) (jsonbText : Row n V → J')
    (model : IncrementalModel n) (table : Multiset (Row n V)) (result : List (Row n V)) :
    (Idempotent (fun table => Bigquery.incrementalMaterialization jsonString model table result)
        table ↔
      ∀ row, TakenAgain model (result.filter (atBoundary model table)) (fun _ => True) row →
        Keyed model row) ∧
      (Idempotent (fun table => Postgresql.incrementalStatements jsonbText model table result)
          table ↔
        ((keys (keyOf model.uniqueKey) table).Nodup →
          ∀ row, TakenAgain model (result.filter (atBoundary model table))
              (Dated model (result.filter (atBoundary model table))) row →
            Dated model (result.filter (atBoundary model table)) row ∧ Keyed model row)) :=
  ⟨bigquery_idempotent_iff, postgresql_idempotent_iff⟩

def unnumbered (changedAt : ℕ) : Row 2 ℕ := fun name => if name = 0 then none else some changedAt

/-- An order without a number is inserted by each build. -/
theorem null_key_is_inserted_again : ¬ ∀ (jsonString jsonbText : Row 2 ℕ → ℕ)
    (model : IncrementalModel 2) (table : Multiset (Row 2 ℕ)) (result : List (Row 2 ℕ)),
    Idempotent (fun table => Bigquery.incrementalMaterialization jsonString model table result)
        table ∧
      Idempotent (fun table => Postgresql.incrementalStatements jsonbText model table result)
        table := by
  intro hall
  obtain ⟨hrepeats, -⟩ := hall (fun _ => 0) (fun _ => 0) orders 0 [order 1 4, unnumbered 5]
  revert hrepeats
  unfold Idempotent
  decide +kernel

def undated (number : ℕ) : Row 2 ℕ := fun name => if name = 0 then some number else none

/-- A row without a cursor, which PostgreSQL stores first and then replaces. -/
example : ¬ Idempotent (fun table => Postgresql.incrementalStatements (fun _ => 0) orders table
    [undated 1, order 1 5, order 2 3]) 0 := by
  unfold Idempotent
  decide +kernel

end Repeats

end Dander.Transform
