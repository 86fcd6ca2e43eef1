import Dander.KeyedMerge
import Mathlib

/-!
# What an upsert leaves of each key

The rows of one key after an upsert are the last of the greatest of its stored row and its new
rows. The rows of other keys stay, and a second upsert of the same rows changes nothing.
-/
namespace KeyedUpsert

variable {R K C : Type} [LinearOrder C] [DecidableEq K] {key : R → Option K} {rank : R → C} {k : K}
  {rows : List R} {table : Multiset R}

/-- No row ranks higher, and every later row ranks lower. -/
def LastGreatest (rank : R → C) (rows : List R) (row : R) : Prop :=
  ∃ before later, rows = before ++ row :: later ∧ (∀ other ∈ before, rank other ≤ rank row) ∧
    ∀ other ∈ later, rank other < rank row

theorem newer_self (row : Option R) : newer rank row row = row := by
  cases row with
  | none => rfl
  | some row => rw [newer, if_neg (lt_irrefl _)]

theorem latest_eq_none_iff :
    latest rank key k rows = none ↔ ∀ row ∈ rows, key row ≠ some k := by
  constructor
  · intro hnone row hmem hkey
    obtain ⟨last, hlast, -⟩ : ∃ last, latest rank key k rows = some last ∧ rank row ≤ rank last :=
      exists_latest hmem hkey
    rw [hnone] at hlast
    cases hlast
  · intro hkeys
    rw [Option.eq_none_iff_forall_ne_some]
    intro row hrow
    obtain ⟨hmem, hkey⟩ := latest_mem hrow
    exact hkeys row hmem hkey

/-- The latest row of a key is the last greatest of the key's rows. -/
theorem lastGreatest_of_latest {row : R} (h : latest rank key k rows = some row) :
    LastGreatest rank (rows.filter fun other => decide (key other = some k)) row := by
  induction rows generalizing row with
  | nil => cases h
  | cons first rest ih =>
    by_cases hkey : key first = some k
    · have hfilter : (first :: rest).filter (fun other => decide (key other = some k)) =
          first :: rest.filter fun other => decide (key other = some k) := by
        simp [hkey]
      rw [hfilter]
      simp only [latest, hkey, if_true] at h
      cases hrest : latest rank key k rest with
      | none =>
        rw [hrest, newer_none, Option.some.injEq] at h
        subst h
        have hnone : rest.filter (fun other => decide (key other = some k)) = [] := by
          rw [List.filter_eq_nil_iff]
          intro other hother
          simpa using latest_eq_none_iff.mp hrest other hother
        exact ⟨[], [], by rw [hnone]; rfl, by simp, by simp⟩
      | some last =>
        obtain ⟨before, later, hsplit, hbefore, hlater⟩ := ih hrest
        rw [hrest] at h
        by_cases hlt : rank last < rank first
        · simp only [newer, hlt, if_true, Option.some.injEq] at h
          subst h
          refine ⟨[], _, rfl, by simp, ?_⟩
          intro other hother
          obtain ⟨hmem, hother⟩ := List.mem_filter.mp hother
          obtain ⟨last', hlast', hle⟩ : ∃ last, latest rank key k rest = some last ∧
              rank other ≤ rank last := exists_latest hmem (of_decide_eq_true hother)
          rw [hrest, Option.some.injEq] at hlast'
          subst hlast'
          exact hle.trans_lt hlt
        · simp only [newer, hlt, if_false, Option.some.injEq] at h
          subst h
          refine ⟨first :: before, later, by rw [hsplit, List.cons_append], ?_, hlater⟩
          intro other hother
          rcases List.mem_cons.mp hother with rfl | hin
          · exact not_lt.mp hlt
          · exact hbefore other hin
    · have hfilter : (first :: rest).filter (fun other => decide (key other = some k)) =
          rest.filter fun other => decide (key other = some k) := by
        simp [hkey]
      rw [hfilter]
      simp only [latest, hkey, if_false] at h
      exact ih h

theorem count_keys (table : Multiset R) :
    (keys key table).count k = (table.filter fun row => key row = some k).card := by
  induction table using Multiset.induction with
  | empty => rfl
  | cons row table ih =>
    rw [keys] at ih
    by_cases hkey : key row = some k
    · have hfilter : (row ::ₘ table).filter (fun row => key row = some k) =
          row ::ₘ table.filter (fun row => key row = some k) := Multiset.filter_cons_of_pos _ hkey
      rw [keys, Multiset.filterMap_cons_some _ _ _ hkey, Multiset.count_cons_self, ih, hfilter,
        Multiset.card_cons]
    · have hfilter : (row ::ₘ table).filter (fun row => key row = some k) =
          table.filter (fun row => key row = some k) := Multiset.filter_cons_of_neg _ hkey
      rw [hfilter, ← ih, keys]
      cases hnone : key row with
      | none => rw [Multiset.filterMap_cons_none _ _ hnone]
      | some k' =>
        have hne : k ≠ k' := by
          rintro rfl
          exact hkey hnone
        rw [Multiset.filterMap_cons_some _ _ _ hnone, Multiset.count_cons_of_ne hne]

/-- At most one stored row has a key, if the keys are unique. -/
theorem exists_stored (hunique : (keys key table).Nodup) (k : K) : ∃ stored : Option R,
    table.filter (fun row => key row = some k) = Multiset.ofList stored.toList := by
  have hcard : (table.filter fun row => key row = some k).card ≤ 1 := by
    rw [← count_keys]
    exact Multiset.nodup_iff_count_le_one.mp hunique k
  rcases Nat.lt_or_ge (table.filter fun row => key row = some k).card 1 with hzero | hone
  · exact ⟨none, Multiset.card_eq_zero.mp (by omega)⟩
  · obtain ⟨row, hrow⟩ := Multiset.card_eq_one.mp (le_antisymm hcard hone)
    exact ⟨some row, hrow⟩

/-- The new row of a key is the only one of the key. -/
theorem filter_upsert_of_some (hunique : (keys key table).Nodup) {row : R}
    (hrow : latest rank key k (prune key rank table rows) = some row) :
    (upsert key rank table rows).filter (fun other => key other = some k) = {row} := by
  have hw := choice_latest key rank (prune key rank table rows)
  have hafter : (keys key (upsert key rank table rows)).Nodup := (rising_upsert hunique).1
  obtain ⟨stored, hstored⟩ := exists_stored hafter k
  have hmem : row ∈ (upsert key rank table rows).filter (fun other => key other = some k) :=
    Multiset.mem_filter.mpr ⟨mem_overwrite hw hrow, hw.keyed k row hrow⟩
  rw [hstored] at hmem ⊢
  cases stored with
  | none => cases hmem
  | some other =>
    obtain rfl : row = other := by simpa using hmem
    rfl

/-- A key without a new row keeps its rows. -/
theorem filter_upsert_of_none
    (hnone : latest rank key k (prune key rank table rows) = none) :
    (upsert key rank table rows).filter (fun other => key other = some k) =
      table.filter (fun other => key other = some k) := by
  have hw := choice_latest key rank (prune key rank table rows)
  have hinserted : ((keySet key (prune key rank table rows)).filter (fun k' => k' ∉ keys key table)
      |>.val.filterMap (fun k' => latest rank key k' (prune key rank table rows))).filter
        (fun other => key other = some k) = 0 := by
    rw [Multiset.filter_eq_nil]
    intro row hmem hkey
    obtain ⟨k', -, -, hrow⟩ := mem_inserted.mp hmem
    have hk' := hw.keyed k' row hrow
    rw [hkey, Option.some.injEq] at hk'
    rw [← hk', hnone] at hrow
    cases hrow
  rw [upsert, overwrite, Multiset.filter_add, hinserted, add_zero, Multiset.filter_map]
  have hsame : table.filter ((fun other => key other = some k) ∘
      replaced key fun k' => latest rank key k' (prune key rank table rows)) =
        table.filter (fun other => key other = some k) := by
    apply Multiset.filter_congr
    intro row _
    rw [Function.comp_apply, key_replaced hw]
  rw [hsame]
  have hmap : ∀ row ∈ table.filter (fun other => key other = some k),
      replaced key (fun k' => latest rank key k' (prune key rank table rows)) row = row := by
    intro row hmem
    rw [replaced_of_key (Multiset.mem_filter.mp hmem).2, hnone, Option.getD_none]
  rw [Multiset.map_congr rfl hmap, Multiset.map_id']

/-- The new rows of a key that its stored row does not outrank, or that row. -/
theorem latest_prune_or {stored : Option R}
    (hstored : table.filter (fun row => key row = some k) = Multiset.ofList stored.toList) :
    (latest rank key k (prune key rank table rows)).or stored =
      latest rank key k (stored.toList ++ rows) := by
  have hmem : ∀ row, row ∈ table ∧ key row = some k ↔ row ∈ stored.toList := by
    intro row
    have hfilter : row ∈ table.filter (fun row => key row = some k) ↔
        row ∈ table ∧ key row = some k := Multiset.mem_filter
    rw [← hfilter, hstored, Multiset.mem_coe]
  have houtranked : ∀ row, key row = some k →
      (Outranked key rank table row ↔ ∃ old ∈ stored.toList, rank row < rank old) := by
    intro row hkey
    rw [outranked_iff hkey]
    simp only [← and_assoc, hmem]
  cases stored with
  | none =>
    have hsame : latest rank key k (prune key rank table rows) =
        latest rank key k (rows.filter fun _ => true) := by
      apply latest_filter_congr
      intro row hkey
      simp [houtranked row hkey]
    rw [hsame, List.filter_true, Option.or_none]
    rfl
  | some old =>
    have hold : key old = some k := ((hmem old).mpr (by simp)).2
    have hsame : latest rank key k (prune key rank table rows) =
        latest rank key k (rows.filter fun row => decide (rank old ≤ rank row)) := by
      apply latest_filter_congr
      intro row hkey
      simp [houtranked row hkey]
    have happend : latest rank key k ((some old).toList ++ rows) =
        newer rank (some old) (latest rank key k rows) := by
      simp [latest, hold]
    rw [happend, newer_some, hsame, latest_filter_rank]

/-- The rows of a key after an upsert. -/
theorem filter_upsert (hunique : (keys key table).Nodup) {stored : Option R}
    (hstored : table.filter (fun row => key row = some k) = Multiset.ofList stored.toList) :
    (upsert key rank table rows).filter (fun row => key row = some k) =
      Multiset.ofList (latest rank key k (stored.toList ++ rows)).toList := by
  rw [← latest_prune_or hstored]
  cases hlatest : latest rank key k (prune key rank table rows) with
  | none => rw [filter_upsert_of_none hlatest, hstored, Option.none_or]
  | some row => rw [filter_upsert_of_some hunique hlatest]; rfl

/-- A key with a new row is left with the last greatest of its stored and its new rows. -/
theorem exists_lastGreatest (hunique : (keys key table).Nodup) {stored : Option R}
    (hstored : table.filter (fun row => key row = some k) = Multiset.ofList stored.toList)
    (hnew : ∃ row ∈ rows, key row = some k) :
    ∃ row, LastGreatest rank
        (stored.toList ++ rows.filter fun other => decide (key other = some k)) row ∧
      (upsert key rank table rows).filter (fun other => key other = some k) = {row} := by
  obtain ⟨new, hmem, hkey⟩ := hnew
  obtain ⟨row, hrow, -⟩ : ∃ row, latest rank key k (stored.toList ++ rows) = some row ∧
      rank new ≤ rank row := exists_latest (List.mem_append_right _ hmem) hkey
  refine ⟨row, ?_, ?_⟩
  · have hfilter : (stored.toList ++ rows).filter (fun other => decide (key other = some k)) =
        stored.toList ++ rows.filter fun other => decide (key other = some k) := by
      rw [List.filter_append]
      congr 1
      rw [List.filter_eq_self]
      intro old hold
      have hin : old ∈ table.filter (fun other => key other = some k) := by
        rw [hstored, Multiset.mem_coe]
        exact hold
      exact decide_eq_true (Multiset.mem_filter.mp hin).2
    rw [← hfilter]
    exact lastGreatest_of_latest hrow
  · rw [filter_upsert hunique hstored, hrow]
    rfl

/-- The rows whose key has no new row stay. -/
theorem filter_upsert_others {p : R → Prop} [DecidablePred p]
    (hp : ∀ row, p row ↔ ∀ new ∈ rows, key row = none ∨ key row ≠ key new) :
    (upsert key rank table rows).filter p = table.filter p := by
  have hw := choice_latest key rank (prune key rank table rows)
  have hchosen : ∀ k' new, latest rank key k' (prune key rank table rows) = some new →
      new ∈ rows ∧ key new = some k' := by
    intro k' new hnew
    obtain ⟨hmem, hkey⟩ := latest_mem hnew
    exact ⟨(List.mem_filter.mp hmem).1, hkey⟩
  have hinserted : ((keySet key (prune key rank table rows)).filter (fun k' => k' ∉ keys key table)
      |>.val.filterMap (fun k' => latest rank key k' (prune key rank table rows))).filter p =
        0 := by
    rw [Multiset.filter_eq_nil]
    intro row hmem hrow
    obtain ⟨k', -, -, hnew⟩ := mem_inserted.mp hmem
    obtain ⟨hin, hkey⟩ := hchosen k' row hnew
    rcases (hp row).mp hrow row hin with hnone | hne
    · rw [hnone] at hkey
      cases hkey
    · exact hne rfl
  rw [upsert, overwrite, Multiset.filter_add, hinserted, add_zero, Multiset.filter_map]
  have hsame : table.filter (p ∘
      replaced key fun k' => latest rank key k' (prune key rank table rows)) =
        table.filter p := by
    apply Multiset.filter_congr
    intro row _
    rw [Function.comp_apply, hp, hp, key_replaced hw]
  rw [hsame]
  have hmap : ∀ row ∈ table.filter p,
      replaced key (fun k' => latest rank key k' (prune key rank table rows)) row = row := by
    intro row hmem
    have hrow := (hp row).mp (Multiset.mem_filter.mp hmem).2
    cases hkey : key row with
    | none => rw [replaced, hkey, Option.bind_none, Option.getD_none]
    | some k' =>
      rw [replaced_of_key hkey]
      cases hnew : latest rank key k' (prune key rank table rows) with
      | none => rfl
      | some new =>
        obtain ⟨hin, hkey'⟩ := hchosen k' new hnew
        rcases hrow new hin with hnone | hne
        · rw [hkey] at hnone
          cases hnone
        · exact absurd (hkey.trans hkey'.symm) hne
  rw [Multiset.map_congr rfl hmap, Multiset.map_id']

/-- A second upsert of the same rows changes nothing. -/
theorem upsert_self : upsert key rank (upsert key rank table rows) rows =
    upsert key rank table rows := by
  rw [upsert_upsert]
  have hsame : ∀ row, row ∈ rows ++ rows ↔ row ∈ rows := by
    intro row
    rw [List.mem_append, or_self]
  rw [upsert_eq_iff hsame]
  intro k
  have happend : prune key rank table (rows ++ rows) =
      prune key rank table rows ++ prune key rank table rows := List.filter_append _ _
  rw [happend, latest_append, newer_self]

end KeyedUpsert
