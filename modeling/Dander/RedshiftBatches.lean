import Dander.Execution
import Dander.KeyedMerge
import Dander.RedshiftWriter
import Mathlib

/-!
# Batched Redshift writes of one run

What a publication that is not in the load history does is the mode's own semantics, and
these compose: a stream written batch by batch is the stream written at once. The guard
takes every batch that repeats an earlier batch of the run for a retry of it. The run
then differs from its batches exactly if leaving the repeated batches out changes which
record decides a key.
-/
namespace Dander.Redshift

open KeyedUpsert

section Keys

variable {n : ℕ} {V : Type} {businessKey : List (Fin n)} {row other : Row n V}

/-- The key of a row, if none of its columns is null. -/
def keyOf (businessKey : List (Fin n)) (row : Row n V) : Option (List V) :=
  businessKey.mapM row

theorem keysMatch_iff [LinearOrder V] :
    keysMatch businessKey row other = true ↔
      ∃ k, keyOf businessKey row = some k ∧ keyOf businessKey other = some k := by
  induction businessKey with
  | nil => simp [keysMatch, keyOf]
  | cons field rest ih =>
    rw [keysMatch, List.all_cons, Bool.and_eq_true, ← keysMatch, ih]
    cases hrow : row field with
    | none => simp [keyOf, hrow]
    | some a =>
      cases hother : other field with
      | none => simp [keyOf, hrow, hother]
      | some b =>
        simp only [keyOf, decide_eq_true_eq, List.mapM_cons, hrow, hother, Option.pure_def,
          Option.bind_eq_bind, Option.bind_some, Option.bind_eq_some_iff, Option.some.injEq]
        constructor
        · rintro ⟨rfl, k, hk, hk'⟩
          exact ⟨a :: k, ⟨k, hk, rfl⟩, ⟨k, hk', rfl⟩⟩
        · rintro ⟨k, ⟨l, hl, rfl⟩, ⟨l', hl', heq⟩⟩
          obtain ⟨rfl, rfl⟩ := List.cons.inj heq
          exact ⟨rfl, l', hl, hl'⟩

theorem keysMatch_eq_sameKey [LinearOrder V] :
    (keysMatch businessKey : Row n V → Row n V → Bool) = sameKey (keyOf businessKey) := by
  ext row other
  rw [Bool.eq_iff_iff, keysMatch_iff, sameKey_iff]

theorem keyOf_field {k : List V} (h : keyOf businessKey row = some k)
    (h' : keyOf businessKey other = some k) {field : Fin n} (hmem : field ∈ businessKey) :
    row field = other field := by
  induction businessKey generalizing k with
  | nil => cases hmem
  | cons first rest ih =>
    simp only [keyOf, List.mapM_cons, Option.pure_def, Option.bind_eq_bind,
      Option.bind_eq_some_iff, Option.some.injEq] at h h'
    obtain ⟨a, ha, l, hl, rfl⟩ := h
    obtain ⟨a', ha', l', hl', heq⟩ := h'
    obtain ⟨rfl, rfl⟩ := List.cons.inj heq
    rcases List.mem_cons.mp hmem with rfl | hin
    · rw [ha, ha']
    · exact ih hl hl' hin

/-- A matched row is updated to the incoming one. -/
theorem updated_eq {k : List V} (h : keyOf businessKey row = some k)
    (h' : keyOf businessKey other = some k) : updated businessKey row other = other := by
  funext field
  by_cases hmem : field ∈ businessKey
  · simp [updated, hmem, keyOf_field h h' hmem]
  · simp [updated, hmem]

theorem exists_keyOf (h : businessKey.any (fun field => (row field).isNone) = false) :
    ∃ k, keyOf businessKey row = some k := by
  induction businessKey with
  | nil => exact ⟨[], rfl⟩
  | cons field rest ih =>
    rw [List.any_cons, Bool.or_eq_false_iff] at h
    obtain ⟨k, hk⟩ := ih h.2
    cases hfield : row field with
    | none => simp [hfield] at h
    | some a =>
      unfold keyOf at hk
      exact ⟨a :: k, by simp [keyOf, hfield, hk]⟩

end Keys

section Ordinals

variable {n : ℕ} {V : Type} {businessKey : List (Fin n)} {staged : List (Row n V × ℕ)}

/-- Rows with ordinals in their order, all of them with keys. -/
structure Staged (businessKey : List (Fin n)) (staged : List (Row n V × ℕ)) : Prop where
  ordered : staged.Pairwise (fun a b => a.2 < b.2)
  keyed : ∀ row ∈ staged, ∃ k, keyOf businessKey row.1 = some k

theorem Staged.ordinal_injective (hstaged : Staged businessKey staged) {a b : Row n V × ℕ} (ha : a ∈ staged) (hb : b ∈ staged) (heq : a.2 = b.2) : a = b := by
  have hnodup : (staged.map Prod.snd).Nodup :=
    List.pairwise_map.mpr (hstaged.ordered.imp fun hlt => Nat.ne_of_lt hlt)
  exact List.inj_on_of_nodup_map hnodup ha hb heq

end Ordinals

section Merging

variable {n : ℕ} {V : Type} [LinearOrder V] {businessKey : List (Fin n)}
  {table : Multiset (Row n V)}

/-- What deduplication and pruning rank rows by. -/
def cursorRank (cursorField : Option (Fin n)) (row : Row n V) : WithBot V :=
  match cursorField with
  | none => ⊥
  | some field =>
    match row field with
    | none => ⊥
    | some value => value

theorem precedes_iff {cursorField : Option (Fin n)} {a b : Row n V × ℕ} :
    precedes cursorField a b = true ↔
      cursorRank cursorField b.1 < cursorRank cursorField a.1 ∨
        (cursorRank cursorField b.1 = cursorRank cursorField a.1 ∧ b.2 < a.2) := by
  cases cursorField with
  | none => simp [precedes, cursorRank]
  | some field =>
    cases ha : a.1 field with
    | none => cases hb : b.1 field <;> simp [precedes, cursorRank, ha, hb]
    | some x =>
      cases hb : b.1 field with
      | none => simp [precedes, cursorRank, ha, hb]
      | some y =>
        have hcomm : x = y ↔ y = x := eq_comm
        simp [precedes, cursorRank, ha, hb, hcomm]

/-- A row is numbered one when none of its partition precedes it. -/
theorem rowNumber_eq_one {cursorField : Option (Fin n)} {staged : List (Row n V × ℕ)}
    {row : Row n V × ℕ} :
    rowNumber businessKey cursorField staged row = 1 ↔
      ∀ other ∈ staged, keysMatch businessKey other.1 row.1 = true →
        ¬ precedes cursorField other row = true := by
  simp [rowNumber, List.filter_eq_nil_iff]

variable {cursorField : Option (Fin n)} {staged : List (Row n V × ℕ)}

/-- Deduplication keeps the latest row of each key. -/
theorem mem_deduplicatedSource (hstaged : Staged businessKey staged) {row : Row n V} :
    row ∈ deduplicatedSource businessKey cursorField staged ↔
      ∃ k, latest (cursorRank cursorField) (keyOf businessKey) k (staged.map Prod.fst) =
        some row := by
  simp only [deduplicatedSource, List.mem_map, List.mem_filter, decide_eq_true_eq,
    rowNumber_eq_one]
  constructor
  · rintro ⟨⟨row', ordinal⟩, ⟨hmem, hfirst⟩, rfl⟩
    obtain ⟨k, hk⟩ := hstaged.keyed _ hmem
    obtain ⟨last, hlast, -⟩ : ∃ last, latest (cursorRank cursorField) (keyOf businessKey) k
        (staged.map Prod.fst) = some last ∧ _ := exists_latest (List.mem_map_of_mem hmem) hk
    obtain ⟨number, hnumber, habove⟩ := exists_number_of_latest hstaged.ordered hlast
    have hlastKey := (latest_mem hlast).2
    have hnot := hfirst _ hnumber (keysMatch_iff.mpr ⟨k, hlastKey, hk⟩)
    have hnot' := habove _ hmem hk
    rw [precedes_iff] at hnot
    push Not at hnot hnot'
    have heq : cursorRank cursorField row' = cursorRank cursorField last :=
      le_antisymm hnot'.1 hnot.1
    have hsame : ordinal = number :=
      le_antisymm (hnot'.2 heq.symm) (hnot.2 heq)
    subst hsame
    refine ⟨k, ?_⟩
    rw [hlast]
    exact congrArg (fun pair => some pair.1) (hstaged.ordinal_injective hnumber hmem rfl)
  · rintro ⟨k, hlast⟩
    obtain ⟨number, hnumber, habove⟩ := exists_number_of_latest hstaged.ordered hlast
    refine ⟨(row, number), ⟨hnumber, ?_⟩, rfl⟩
    intro other hother hmatch hprecedes
    obtain ⟨k', hk', hrow⟩ := keysMatch_iff.mp hmatch
    rw [(latest_mem hlast).2, Option.some.injEq] at hrow
    subst hrow
    exact habove other hother hk' (precedes_iff.mp hprecedes)

theorem nodup_deduplicatedSource (hstaged : Staged businessKey staged) :
    (deduplicatedSource businessKey cursorField staged).Nodup := by
  have hnodup : staged.Nodup := hstaged.ordered.imp fun hlt heq => by simp [heq] at hlt
  refine List.Nodup.map_on ?_ (hnodup.filter _)
  intro a ha b hb heq
  obtain ⟨hamem, hafirst⟩ := List.mem_filter.mp ha
  obtain ⟨hbmem, hbfirst⟩ := List.mem_filter.mp hb
  rw [decide_eq_true_eq, rowNumber_eq_one] at hafirst hbfirst
  obtain ⟨k, hk⟩ := hstaged.keyed a hamem
  have hbefore := hafirst b hbmem (keysMatch_iff.mpr ⟨k, heq ▸ hk, hk⟩)
  have hafter := hbfirst a hamem (keysMatch_iff.mpr ⟨k, hk, heq ▸ hk⟩)
  rw [precedes_iff, heq] at hbefore hafter
  simp only [lt_self_iff_false, true_and, false_or, not_lt] at hbefore hafter
  exact hstaged.ordinal_injective hamem hbmem (by omega)

theorem lists_deduplicatedSource (hstaged : Staged businessKey staged) :
    Lists (keyOf businessKey) (deduplicatedSource businessKey cursorField staged)
      (fun k => latest (cursorRank cursorField) (keyOf businessKey) k (staged.map Prod.fst)) :=
  ⟨nodup_deduplicatedSource hstaged, fun _ => mem_deduplicatedSource hstaged,
    fun _ _ hlatest => (latest_mem hlatest).2⟩

theorem merge_eq_mergeWhen {incoming : List (Row n V)} :
    merge businessKey table incoming =
      mergeWhen (keyOf businessKey) (fun _ _ => true) table incoming := by
  unfold merge mergeWhen unmatched
  simp only [keysMatch_eq_sameKey]
  congr 1
  refine Multiset.map_congr rfl ?_
  intro row _
  unfold mergedRow
  cases hfound : incoming.find? (sameKey (keyOf businessKey) row) with
  | none => rfl
  | some new =>
    obtain ⟨k, hrow, hnew⟩ := sameKey_iff.mp (List.find?_some hfound)
    exact updated_eq hrow hnew

theorem merge_deduplicatedSource (hstaged : Staged businessKey staged) :
    merge businessKey table (deduplicatedSource businessKey cursorField staged) =
      overwrite (keyOf businessKey) table
        (keySet (keyOf businessKey) (staged.map Prod.fst))
        (fun k => latest (cursorRank cursorField) (keyOf businessKey) k
          (staged.map Prod.fst)) := by
  rw [merge_eq_mergeWhen]
  exact mergeWhen_true (lists_deduplicatedSource hstaged) (choice_latest _ _ _)

end Merging

section Semantics

variable {n : ℕ} {V : Type} [LinearOrder V] {target : WriteTarget n}
  {table : Multiset (Row n V)}

/-- The distinct rows of a batch that the table does not have. -/
def unseen (table : Multiset (Row n V)) (rows : List (Row n V)) : Multiset (Row n V) :=
  Multiset.dedup (Multiset.ofList (rows.filter fun row => decide (row ∉ table)))

/-- What a batch means in each mode: an overwrite by key with the last record of each key,
the same with the record of the greatest cursor unless the target has a greater one, or an
addition of the rows the target does not have. -/
def modeSemantics (target : WriteTarget n) (table : Multiset (Row n V))
    (rows : List (Row n V)) : Multiset (Row n V) :=
  match target.mode with
  | .scd1 => upsert (keyOf target.businessKey) (cursorRank none) table rows
  | .incremental cursorField =>
    upsert (keyOf target.businessKey) (cursorRank (some cursorField)) table rows
  | .snapshot _ => table + unseen table rows

theorem mem_unseen {rows : List (Row n V)} {row : Row n V} :
    row ∈ unseen table rows ↔ row ∈ rows ∧ row ∉ table := by
  simp [unseen]

theorem nodup_unseen (table : Multiset (Row n V)) (rows : List (Row n V)) :
    (unseen table rows).Nodup := Multiset.nodup_dedup _

theorem add_unseen_append (rows later : List (Row n V)) :
    table + unseen table rows + unseen (table + unseen table rows) later =
      table + unseen table (rows ++ later) := by
  rw [Multiset.add_assoc]
  congr 1
  refine (Multiset.Nodup.ext ?_ (nodup_unseen _ _)).mpr ?_
  · refine Multiset.nodup_add.mpr ⟨nodup_unseen _ _, nodup_unseen _ _, ?_⟩
    rw [Multiset.disjoint_left]
    intro row hfirst hsecond
    exact (mem_unseen.mp hsecond).2 (Multiset.mem_add.mpr (.inr hfirst))
  · intro row
    simp only [Multiset.mem_add, mem_unseen, List.mem_append]
    tauto

/-- A batch after a batch is both at once. -/
theorem modeSemantics_append (rows later : List (Row n V)) :
    modeSemantics target (modeSemantics target table rows) later =
      modeSemantics target table (rows ++ later) := by
  unfold modeSemantics
  cases target.mode with
  | scd1 => exact upsert_upsert
  | incremental cursorField => exact upsert_upsert
  | snapshot snapshotField => exact add_unseen_append rows later

theorem modeSemantics_nil : modeSemantics target table [] = table := by
  unfold modeSemantics
  cases target.mode with
  | scd1 => exact upsert_nil
  | incremental cursorField => exact upsert_nil
  | snapshot snapshotField => simp [unseen]

theorem foldl_modeSemantics (batches : List (List (Row n V))) :
    batches.foldl (modeSemantics target) table = modeSemantics target table batches.flatten := by
  induction batches generalizing table with
  | nil => exact modeSemantics_nil.symm
  | cons batch rest ih =>
    rw [List.foldl_cons, ih, List.flatten_cons, modeSemantics_append]

end Semantics

section Publishing

variable {n : ℕ} {V : Type} {target : WriteTarget n}
  {table : Multiset (Row n V)} {check : ℕ → Row n V → Except RedshiftWriteError Unit}
  {records : List (Row n V)} {staged : List (Row n V × ℕ)} {ordinal : ℕ}

/-- What a staged row has passed. -/
structure Checked (target : WriteTarget n) (row : Row n V) : Prop where
  keyed : ∃ k, keyOf target.businessKey row = some k
  cursor : ∀ field, target.mode = .incremental field → ∃ value, row field = some value
  snapshot : ∀ field, target.mode = .snapshot field → ∃ value, row field = some value

theorem checked_of_checkRecord {row : Row n V} (h : checkRecord target ordinal row = .ok ()) :
    Checked target row := by
  unfold checkRecord at h
  obtain ⟨hkey, hrest⟩ := Execution.guard_eq_ok h
  have hkeyed := exists_keyOf (Bool.eq_false_of_not_eq_true hkey)
  cases hmode : target.mode with
  | scd1 => exact ⟨hkeyed, by simp [hmode], by simp [hmode]⟩
  | incremental cursorField =>
    simp only [hmode] at hrest
    obtain ⟨hnull, -⟩ := Execution.guard_eq_ok hrest
    refine ⟨hkeyed, ?_, by simp [hmode]⟩
    intro field hfield
    rw [hmode, WriteMode.incremental.injEq] at hfield
    subst hfield
    simpa [Option.isNone_iff_eq_none, ← Option.ne_none_iff_exists'] using hnull
  | snapshot snapshotField =>
    simp only [hmode] at hrest
    obtain ⟨hnull, -⟩ := Execution.guard_eq_ok hrest
    refine ⟨hkeyed, by simp [hmode], ?_⟩
    intro field hfield
    rw [hmode, WriteMode.snapshot.injEq] at hfield
    subst hfield
    simpa [Option.isNone_iff_eq_none, ← Option.ne_none_iff_exists'] using hnull

theorem withOrdinals_ok (h : withOrdinals check target ordinal records = .ok staged) :
    staged = records.zipIdx ordinal ∧ ∀ row ∈ records, Checked target row := by
  induction records generalizing ordinal staged with
  | nil =>
    cases h
    exact ⟨rfl, by simp⟩
  | cons record rest ih =>
    unfold withOrdinals at h
    obtain ⟨⟨⟩, hrecord, h⟩ := Execution.bind_eq_ok h
    obtain ⟨⟨⟩, -, h⟩ := Execution.bind_eq_ok h
    obtain ⟨tail, htail, h⟩ := Execution.bind_eq_ok h
    cases h
    obtain ⟨rfl, hchecked⟩ := ih htail
    refine ⟨rfl, ?_⟩
    intro row hrow
    rcases List.mem_cons.mp hrow with rfl | hin
    · exact checked_of_checkRecord hrecord
    · exact hchecked row hin

theorem staged_zipIdx (hchecked : ∀ row ∈ records, Checked target row) :
    Staged target.businessKey (records.zipIdx ordinal) := by
  constructor
  · induction records generalizing ordinal with
    | nil => simp
    | cons record rest ih =>
      rw [List.zipIdx_cons, List.pairwise_cons]
      refine ⟨?_, ih (fun row hrow => hchecked row (List.mem_cons_of_mem _ hrow))⟩
      intro later hlater
      have hle := List.le_snd_of_mem_zipIdx hlater
      simp only
      omega
  · intro row hrow
    have hmem : row.1 ∈ records := List.fst_mem_of_mem_zipIdx hrow
    exact (hchecked row.1 hmem).keyed

variable [LinearOrder V]

theorem merge_nil (businessKey : List (Fin n)) : merge businessKey table [] = table := by
  simp [merge]

/-- A load that is in the history changes nothing. -/
theorem publish_loaded : publish target true table staged = table := by
  unfold publish
  cases staged with
  | nil => rfl
  | cons first rest =>
    cases target.mode with
    | scd1 => exact merge_nil _
    | incremental cursorField => exact merge_nil _
    | snapshot snapshotField => simp [snapshotInsert]

/-- Pruning keeps the staged rows that no stored row outranks. -/
theorem map_incrementalPrune {cursorField : Fin n}
    (hmode : target.mode = .incremental cursorField)
    (hchecked : ∀ row ∈ staged, Checked target row.1) :
    (incrementalPrune target.businessKey cursorField table staged).map Prod.fst =
      prune (keyOf target.businessKey) (cursorRank (some cursorField)) table
        (staged.map Prod.fst) := by
  unfold incrementalPrune prune
  rw [List.filter_map]
  congr 1
  apply List.filter_congr
  intro row hrow
  obtain ⟨k, hkey⟩ := (hchecked row hrow).keyed
  obtain ⟨value, hvalue⟩ := (hchecked row hrow).cursor cursorField hmode
  rw [Function.comp_apply, decide_eq_decide, outranked_iff hkey]
  have hmatches : ∀ existing : Row n V, (keysMatch target.businessKey row.1 existing &&
        lessThan (row.1 cursorField) (existing cursorField)) = true ↔
      keyOf target.businessKey existing = some k ∧
        cursorRank (some cursorField) row.1 < cursorRank (some cursorField) existing := by
    intro existing
    rw [Bool.and_eq_true, keysMatch_iff]
    have hkeys : (∃ k', keyOf target.businessKey row.1 = some k' ∧
        keyOf target.businessKey existing = some k') ↔
          keyOf target.businessKey existing = some k := by
      simp [hkey]
    rw [hkeys]
    cases hexisting : existing cursorField <;> simp [lessThan, cursorRank, hvalue, hexisting]
  constructor
  · intro hnone
    rintro ⟨existing, hmem, hexisting⟩
    have htrue := (hmatches existing).mpr hexisting
    rw [hnone existing hmem] at htrue
    cases htrue
  · intro hnone existing hmem
    by_contra hfalse
    rw [Bool.not_eq_false] at hfalse
    exact hnone ⟨existing, hmem, (hmatches existing).mp hfalse⟩

theorem prune_none (rows : List (Row n V)) (businessKey : List (Fin n)) :
    prune (keyOf businessKey) (cursorRank none) table rows = rows := by
  apply List.filter_eq_self.mpr
  intro row _
  rw [decide_eq_true_eq]
  rintro ⟨old, -, -, -, hlt⟩
  exact lt_irrefl _ hlt

/-- A load that is not in the history is published as its mode means it. -/
theorem publish_fresh (hchecked : ∀ row ∈ records, Checked target row) :
    publish target false table (records.zipIdx ordinal) = modeSemantics target table records := by
  have hstaged : Staged target.businessKey (records.zipIdx ordinal) := staged_zipIdx hchecked
  have hrows : (records.zipIdx ordinal).map Prod.fst = records := List.zipIdx_map_fst _ _
  cases records with
  | nil => exact modeSemantics_nil.symm
  | cons first rest =>
    have hnonempty : ((first :: rest).zipIdx ordinal).isEmpty = false := rfl
    unfold publish modeSemantics
    rw [hnonempty, if_neg (by decide)]
    cases hmode : target.mode with
    | scd1 =>
      simp only [Bool.false_eq_true, if_false]
      rw [merge_deduplicatedSource hstaged, hrows, upsert, prune_none]
    | incremental cursorField =>
      have hpruned : Staged target.businessKey
          (incrementalPrune target.businessKey cursorField table
            ((first :: rest).zipIdx ordinal)) := by
        refine ⟨hstaged.ordered.filter _, ?_⟩
        intro row hrow
        exact hstaged.keyed row (List.mem_filter.mp hrow).1
      have hmap : (incrementalPrune target.businessKey cursorField table
          ((first :: rest).zipIdx ordinal)).map Prod.fst = _ :=
        map_incrementalPrune hmode
          (fun row hrow => hchecked row.1 (List.fst_mem_of_mem_zipIdx hrow))
      simp only [Bool.false_eq_true, if_false]
      rw [merge_deduplicatedSource hpruned, hmap, hrows, upsert]
    | snapshot snapshotField =>
      simp only [Bool.false_eq_true, if_false, snapshotInsert, hrows, unseen]
      congr 3
      apply List.filter_congr
      intro row hrow
      obtain ⟨value, hvalue⟩ := (hchecked row hrow).snapshot snapshotField hmode
      simp [hvalue]

end Publishing

section Specification

variable {n : ℕ} {V : Type} (check : ℕ → Row n V → Except RedshiftWriteError Unit)
  (target : WriteTarget n)

/-- The checks before any batch reaches the target. -/
def stage (records : List (Row n V)) : Except RedshiftWriteError (List (Row n V × ℕ)) := do
  validateTarget target
  withOrdinals check target 0 records

/-- The batches before the first one that is rejected. -/
def acceptedBatches (batches : List (List (Row n V))) : List (List (Row n V)) :=
  batches.takeWhile fun batch => (stage check target batch).isOk

variable [LinearOrder V]

/-- One batch applied as its mode means it, if its records pass their checks. -/
def applyBatch (table : Multiset (Row n V)) (records : List (Row n V)) :
    Except RedshiftWriteError (Multiset (Row n V)) := do
  validateTarget target
  let _ ← withOrdinals check target 0 records
  return modeSemantics target table records

/-- The batches that do not repeat an earlier one. -/
def freshBatches (seen : List (List (Row n V))) :
    List (List (Row n V)) → List (List (Row n V))
  | [] => []
  | batch :: rest =>
    if batch ∈ seen then freshBatches seen rest
    else batch :: freshBatches (seen ++ [batch]) rest

def lastRecord (businessKey : List (Fin n)) (k : List V) (rows : List (Row n V)) :
    Option (Row n V) :=
  (rows.filter fun row => decide (keyOf businessKey row = some k)).getLast?

/-- The record that decides how a key is stored: the last one, or in incremental mode the last
one of the greatest cursor among those that no stored row outranks. Snapshots only add rows. -/
def decidingRecord (table : Multiset (Row n V)) (k : List V) (rows : List (Row n V)) :
    Option (Row n V) :=
  match target.mode with
  | .scd1 => lastRecord target.businessKey k rows
  | .incremental cursorField =>
    latest (cursorRank (some cursorField)) (keyOf target.businessKey) k
      (prune (keyOf target.businessKey) (cursorRank (some cursorField)) table rows)
  | .snapshot _ => none

/-- No key is decided by a record of a repeated batch alone. -/
def RepeatsHarmless (table : Multiset (Row n V)) (batches : List (List (Row n V))) : Prop :=
  ∀ k, decidingRecord target table k batches.flatten =
    decidingRecord target table k (freshBatches [] batches).flatten

/-- The run ends as its batches, applied one after another, would: with the same target and
the same error, if any, and in SCD1 mode with the last record of each key. -/
structure Composes (digest : List (Row n V × ℕ) → String) (rows : ℕ) (warehouse : Warehouse n V)
    (records : List (Row n V)) : Prop where
  table : (writeBatched check digest target rows warehouse records).1.table =
    (writeEach (applyBatch check target) warehouse.table (batches rows records)).1
  error : (writeBatched check digest target rows warehouse records).2 =
    (writeEach (applyBatch check target) warehouse.table (batches rows records)).2
  last : target.mode = .scd1 → ∀ k record, lastRecord target.businessKey k
      (acceptedBatches check target (batches rows records)).flatten = some record →
    record ∈ (writeBatched check digest target rows warehouse records).1.table ∧
      ∀ row ∈ (writeBatched check digest target rows warehouse records).1.table,
        keyOf target.businessKey row = some k → row = record

end Specification

section Runs

variable {n : ℕ} {V : Type} {check : ℕ → Row n V → Except RedshiftWriteError Unit}
  {target : WriteTarget n} {digest : List (Row n V × ℕ) → String}

theorem stage_ok {records : List (Row n V)} (h : (stage check target records).isOk = true) :
    stage check target records = .ok records.zipIdx ∧ ∀ row ∈ records, Checked target row := by
  cases hstage : stage check target records with
  | error error => simp [hstage, Except.isOk, Except.toBool] at h
  | ok staged =>
    obtain ⟨⟨⟩, -, hstaged⟩ := Execution.bind_eq_ok hstage
    obtain ⟨rfl, hchecked⟩ := withOrdinals_ok hstaged
    exact ⟨rfl, hchecked⟩

theorem checked_of_accepted {batches : List (List (Row n V))} {batch : List (Row n V)}
    (h : batch ∈ acceptedBatches check target batches) :
    batch ∈ batches ∧ ∀ row ∈ batch, Checked target row := by
  have haccepted : (stage check target batch).isOk = true :=
    List.all_eq_true.mp List.all_takeWhile batch h
  exact ⟨(List.takeWhile_prefix _).subset h, (stage_ok haccepted).2⟩

/-- The error of the first rejected batch. -/
def firstError (check : ℕ → Row n V → Except RedshiftWriteError Unit) (target : WriteTarget n)
    (batches : List (List (Row n V))) : Option RedshiftWriteError :=
  batches.findSome? fun batch =>
    match stage check target batch with
    | .ok _ => none
    | .error error => some error

/-- A writer that first stages a batch applies the accepted batches one after another. -/
theorem writeEach_eq {S : Type} {write : S → List (Row n V) → Except RedshiftWriteError S}
    {effect : S → List (Row n V) → S}
    (hwrite : ∀ state batch, write state batch =
      stage check target batch >>= fun _ => .ok (effect state batch))
    (state : S) (batches : List (List (Row n V))) :
    writeEach write state batches =
      ((acceptedBatches check target batches).foldl effect state,
        firstError check target batches) := by
  induction batches generalizing state with
  | nil => rfl
  | cons batch rest ih =>
    cases hstage : stage check target batch with
    | error error =>
      simp [writeEach, hwrite, hstage, acceptedBatches, firstError, Except.isOk, Except.toBool,
        bind, Except.bind]
    | ok staged =>
      simp [writeEach, hwrite, hstage, acceptedBatches, firstError, Except.isOk, Except.toBool,
        bind, Except.bind, ih]

variable [LinearOrder V]

theorem applyEach_eq (table : Multiset (Row n V)) (batches : List (List (Row n V))) :
    writeEach (applyBatch check target) table batches =
      ((acceptedBatches check target batches).foldl (modeSemantics target) table,
        firstError check target batches) := by
  apply writeEach_eq
  intro table batch
  unfold applyBatch stage
  cases validateTarget target <;> rfl

/-- What one call of the writer does with an accepted batch. -/
def loadBatch (digest : List (Row n V × ℕ) → String) (target : WriteTarget n)
    (warehouse : Warehouse n V) (batch : List (Row n V)) : Warehouse n V :=
  let load := target.load (digest batch.zipIdx)
  if load ∈ warehouse.history then
    ⟨publish target true warehouse.table batch.zipIdx, warehouse.history⟩
  else ⟨publish target false warehouse.table batch.zipIdx, warehouse.history ++ [load]⟩

theorem writeBatched_eq (rows : ℕ) (warehouse : Warehouse n V) (records : List (Row n V)) :
    writeBatched check digest target rows warehouse records =
      ((acceptedBatches check target (batches rows records)).foldl (loadBatch digest target)
          warehouse,
        firstError check target (batches rows records)) := by
  apply writeEach_eq
  intro warehouse batch
  cases hstage : stage check target batch with
  | error error =>
    unfold stage at hstage
    unfold write
    cases hvalid : validateTarget target with
    | error e =>
      rw [hvalid] at hstage
      cases hstage
      rfl
    | ok u =>
      rw [hvalid] at hstage
      have hordinals : withOrdinals check target 0 batch = .error error := hstage
      simp [hordinals, bind, Except.bind]
  | ok staged =>
    have hok : (stage check target batch).isOk = true := by rw [hstage]; rfl
    obtain rfl : batch.zipIdx = staged := by
      have hzip := (stage_ok hok).1
      rw [hstage] at hzip
      exact (Except.ok.inj hzip).symm
    obtain ⟨⟨⟩, hvalid, hordinals⟩ := Execution.bind_eq_ok hstage
    unfold write loadBatch
    rw [hvalid]
    simp only [bind, Except.bind, hordinals, pure, Except.pure]
    by_cases hload : target.load (digest batch.zipIdx) ∈ warehouse.history <;> simp [hload]

/-- While the history has exactly the loads of the batches seen in this run, the repeated
batches are skipped and the others applied. -/
theorem foldl_loadBatch {batches seen : List (List (Row n V))} {warehouse : Warehouse n V}
    (hchecked : ∀ batch ∈ batches, ∀ row ∈ batch, Checked target row)
    (hdigest : ∀ a ∈ batches, ∀ b ∈ batches, digest a.zipIdx = digest b.zipIdx → a = b)
    (hseen : ∀ batch ∈ batches,
      target.load (digest batch.zipIdx) ∈ warehouse.history ↔ batch ∈ seen) :
    (batches.foldl (loadBatch digest target) warehouse).table =
      (freshBatches seen batches).foldl (modeSemantics target) warehouse.table := by
  induction batches generalizing seen warehouse with
  | nil => rfl
  | cons batch rest ih =>
    have hrest : ∀ later ∈ rest, later ∈ batch :: rest := fun later h => List.mem_cons_of_mem _ h
    have hcheckedRest := fun later h => hchecked later (hrest later h)
    have hdigestRest : ∀ a ∈ rest, ∀ b ∈ rest, digest a.zipIdx = digest b.zipIdx → a = b :=
      fun a ha b hb => hdigest a (hrest a ha) b (hrest b hb)
    rw [List.foldl_cons]
    by_cases hin : batch ∈ seen
    · have hload := (hseen batch List.mem_cons_self).mpr hin
      have hsame : loadBatch digest target warehouse batch = warehouse := by
        simp [loadBatch, hload, publish_loaded]
      rw [hsame, freshBatches, if_pos hin]
      exact ih hcheckedRest hdigestRest (fun later h => hseen later (hrest later h))
    · have hload := (hseen batch List.mem_cons_self).not.mpr hin
      have hfresh : loadBatch digest target warehouse batch =
          ⟨modeSemantics target warehouse.table batch,
            warehouse.history ++ [target.load (digest batch.zipIdx)]⟩ := by
        simp [loadBatch, hload, publish_fresh (hchecked batch List.mem_cons_self)]
      rw [hfresh, freshBatches, if_neg hin, List.foldl_cons]
      apply ih hcheckedRest hdigestRest
      intro later hlater
      rw [List.mem_append, List.mem_singleton, List.mem_append, List.mem_singleton,
        hseen later (hrest later hlater)]
      constructor
      · rintro (hbefore | hequal)
        · exact .inl hbefore
        · have hdigests : digest later.zipIdx = digest batch.zipIdx := by
            simpa [WriteTarget.load] using hequal
          exact .inr (hdigest later (hrest later hlater) batch List.mem_cons_self hdigests)
      · rintro (hbefore | rfl)
        · exact .inl hbefore
        · exact .inr rfl

theorem mem_freshBatches {batches seen : List (List (Row n V))} {batch : List (Row n V)} :
    batch ∈ freshBatches seen batches ∨ batch ∈ seen ↔ batch ∈ batches ∨ batch ∈ seen := by
  induction batches generalizing seen with
  | nil => simp [freshBatches]
  | cons first rest ih =>
    unfold freshBatches
    by_cases hin : first ∈ seen
    · rw [if_pos hin, ih, List.mem_cons]
      constructor
      · tauto
      · rintro ((rfl | hrest) | hseen)
        · exact .inr hin
        · exact .inl hrest
        · exact .inr hseen
    · have hih : batch ∈ freshBatches (seen ++ [first]) rest ∨ batch ∈ seen ++ [first] ↔ _ := ih
      rw [List.mem_append, List.mem_singleton] at hih
      rw [if_neg hin, List.mem_cons, List.mem_cons]
      tauto

theorem mem_flatten_freshBatches {batches : List (List (Row n V))} {row : Row n V} :
    row ∈ batches.flatten ↔ row ∈ (freshBatches [] batches).flatten := by
  have hmem : ∀ batch, batch ∈ freshBatches [] batches ↔ batch ∈ batches := by
    intro batch
    have hfresh : batch ∈ freshBatches [] batches ∨ batch ∈ [] ↔ _ := mem_freshBatches
    simpa using hfresh
  simp only [List.mem_flatten, hmem]

theorem latest_eq_lastRecord (businessKey : List (Fin n)) (k : List V) (rows : List (Row n V)) :
    latest (cursorRank none) (keyOf businessKey) k rows = lastRecord businessKey k rows := by
  induction rows with
  | nil => rfl
  | cons row rest ih =>
    by_cases hkey : keyOf businessKey row = some k
    · have hcons : lastRecord businessKey k (row :: rest) =
          (lastRecord businessKey k rest).or (some row) := by
        simp [lastRecord, hkey, List.getLast?_cons]
      rw [hcons, ← ih]
      simp only [latest, hkey, if_true]
      cases latest (cursorRank none) (keyOf businessKey) k rest <;> simp [newer, cursorRank]
    · simp [latest, lastRecord, hkey, ih]

/-- The batches compose exactly if leaving out the repeated ones changes no deciding record. -/
theorem modeSemantics_fresh_iff (table : Multiset (Row n V)) (batches : List (List (Row n V))) :
    modeSemantics target table (freshBatches [] batches).flatten =
        modeSemantics target table batches.flatten ↔
      RepeatsHarmless target table batches := by
  unfold modeSemantics RepeatsHarmless decidingRecord
  cases target.mode with
  | scd1 =>
    simp only
    rw [eq_comm, upsert_eq_iff (fun row => mem_flatten_freshBatches)]
    simp only [prune_none, latest_eq_lastRecord]
  | incremental cursorField =>
    simp only
    rw [eq_comm, upsert_eq_iff (fun row => mem_flatten_freshBatches)]
  | snapshot snapshotField =>
    have hsame : unseen table (freshBatches [] batches).flatten =
        unseen table batches.flatten := by
      refine (Multiset.Nodup.ext (nodup_unseen _ _) (nodup_unseen _ _)).mpr ?_
      intro row
      rw [mem_unseen, mem_unseen, ← mem_flatten_freshBatches]
    simp [hsame]

/-- In every run with a fresh run id, whatever the target, the stream and the batch size, the
batches compose exactly if no key is decided by a record of a repeated batch alone. -/
theorem batched_writes_compose_iff (rows : ℕ) (warehouse : Warehouse n V)
    (records : List (Row n V))
    (hrun : ∀ load ∈ warehouse.history, load.runId ≠ target.runId)
    (hdigest : ∀ a ∈ batches rows records, ∀ b ∈ batches rows records,
      digest a.zipIdx = digest b.zipIdx → a = b) :
    Composes check target digest rows warehouse records ↔
      RepeatsHarmless target warehouse.table
        (acceptedBatches check target (batches rows records)) := by
  have hfresh : (writeBatched check digest target rows warehouse records).1.table =
      modeSemantics target warehouse.table
        (freshBatches [] (acceptedBatches check target (batches rows records))).flatten := by
    rw [writeBatched_eq, ← foldl_modeSemantics]
    apply foldl_loadBatch
    · intro batch hbatch
      exact (checked_of_accepted hbatch).2
    · intro a ha b hb
      exact hdigest a (checked_of_accepted ha).1 b (checked_of_accepted hb).1
    · intro batch _
      constructor
      · intro hload
        exact absurd rfl (hrun _ hload)
      · intro hnone
        cases hnone
  have hspec : writeEach (applyBatch check target) warehouse.table (batches rows records) =
      (modeSemantics target warehouse.table
          (acceptedBatches check target (batches rows records)).flatten,
        firstError check target (batches rows records)) := by
    rw [applyEach_eq, foldl_modeSemantics]
  rw [← modeSemantics_fresh_iff, ← hfresh]
  constructor
  · intro hcomposes
    rw [hcomposes.table, hspec]
  · intro htable
    refine ⟨by rw [htable, hspec], by rw [writeBatched_eq, hspec], ?_⟩
    intro hmode k record hlast
    have hchoice := choice_latest (keyOf target.businessKey) (cursorRank none)
      (acceptedBatches check target (batches rows records)).flatten
    rw [← latest_eq_lastRecord] at hlast
    rw [htable, modeSemantics, hmode]
    simp only [upsert, prune_none]
    refine ⟨mem_overwrite hchoice hlast, ?_⟩
    intro row hrow hkey
    exact eq_of_mem_overwrite hchoice hlast hrow hkey

end Runs

section Example

instance twoColumns : NeZero 2 := ⟨by decide⟩

/-- Rows of an `id` and a `label`. -/
def labelled (label : ℕ) : Row 2 ℕ := fun field => some (if field = 0 then 1 else label)

def labelTarget : WriteTarget 2 := ⟨.scd1, [0], "db.raw.records", "p", "run-1", "s"⟩

def labelDigest (staged : List (Row 2 ℕ × ℕ)) : String :=
  match staged.map fun row => row.1 1 with
  | [some 10] => "a"
  | [some 20] => "b"
  | _ => "c"

def noCheck (_ : ℕ) (_ : Row 2 ℕ) : Except RedshiftWriteError Unit := .ok ()

def emptyWarehouse : Warehouse 2 ℕ := ⟨0, []⟩

/-- The third batch repeats the first one and is taken for a retry of it: the key keeps the
label of the second batch. -/
theorem repeated_batch_is_skipped :
    ¬ Composes noCheck labelTarget labelDigest 1 emptyWarehouse
      [labelled 10, labelled 20, labelled 10] := by
  intro hcomposes
  have hdiffers : (writeBatched noCheck labelDigest labelTarget 1 emptyWarehouse
      [labelled 10, labelled 20, labelled 10]).1.table ≠
      (writeEach (applyBatch noCheck labelTarget) emptyWarehouse.table
        (batches 1 [labelled 10, labelled 20, labelled 10])).1 := by
    decide +kernel
  exact hdiffers hcomposes.table

/-- A repeated batch does no harm when a later batch decides its keys. -/
theorem batched_writes_compose_overwritten :
    (∀ a ∈ batches 1 [labelled 10, labelled 20, labelled 10, labelled 30],
      ∀ b ∈ batches 1 [labelled 10, labelled 20, labelled 10, labelled 30],
      labelDigest a.zipIdx = labelDigest b.zipIdx → a = b) ∧
    Composes noCheck labelTarget labelDigest 1 emptyWarehouse
      [labelled 10, labelled 20, labelled 10, labelled 30] := by
  have hdigest : ∀ a ∈ batches 1 [labelled 10, labelled 20, labelled 10, labelled 30],
      ∀ b ∈ batches 1 [labelled 10, labelled 20, labelled 10, labelled 30],
      labelDigest a.zipIdx = labelDigest b.zipIdx → a = b := by
    decide +kernel
  have hharmless : RepeatsHarmless labelTarget emptyWarehouse.table
      (acceptedBatches noCheck labelTarget
        (batches 1 [labelled 10, labelled 20, labelled 10, labelled 30])) := by
    have haccepted : acceptedBatches noCheck labelTarget
        (batches 1 [labelled 10, labelled 20, labelled 10, labelled 30]) =
        [[labelled 10], [labelled 20], [labelled 10], [labelled 30]] := by
      decide +kernel
    have hfresh : freshBatches [] [[labelled 10], [labelled 20], [labelled 10], [labelled 30]] =
        [[labelled 10], [labelled 20], [labelled 30]] := by
      decide +kernel
    have hkey : ∀ label, keyOf [0] (labelled label) = some [1] := fun _ => rfl
    intro k
    rw [haccepted, hfresh]
    by_cases hk : k = [1]
    · simp [decidingRecord, labelTarget, lastRecord, hkey, hk]
    · simp [decidingRecord, labelTarget, lastRecord, hkey, Ne.symm hk]
  have hiff : Composes noCheck labelTarget labelDigest 1 emptyWarehouse
      [labelled 10, labelled 20, labelled 10, labelled 30] ↔ _ :=
    batched_writes_compose_iff 1 emptyWarehouse _ (by simp [emptyWarehouse]) hdigest
  exact ⟨hdigest, hiff.mpr hharmless⟩

end Example

end Dander.Redshift
