import Dander.KeyedUpsert

/-!
# Merging listed rows into bags by key

A merge takes a list with at most one row for each key. It replaces the stored rows of a listed
key where a condition admits it, and inserts the listed rows of keys that are not stored. Into a
bag with at most one row for each key, a merge of the latest rows that admits rows of at least
the stored rank is an upsert.
-/
namespace KeyedUpsert

variable {R K C : Type}

section Listing

variable [DecidableEq K] (key : R → Option K)

/-- Both rows have a key, and the same one. -/
def sameKey (row other : R) : Bool :=
  match key row, key other with
  | some a, some b => decide (a = b)
  | _, _ => false

/-- A list of the rows chosen for the keys. -/
structure Lists (incoming : List R) (w : K → Option R) : Prop where
  nodup : incoming.Nodup
  mem : ∀ row, row ∈ incoming ↔ ∃ k, w k = some row
  keyed : ∀ k row, w k = some row → key row = some k

variable {key} {incoming : List R} {w : K → Option R} {k : K} {row other : R}

theorem sameKey_iff : sameKey key row other = true ↔ ∃ k, key row = some k ∧ key other = some k := by
  unfold sameKey
  cases hrow : key row with
  | none => simp
  | some a =>
    cases hother : key other with
    | none => simp
    | some b => simp [eq_comm]

theorem sameKey_of_key (hkey : key row = some k) :
    sameKey key row other = true ↔ key other = some k := by
  simp [sameKey_iff, hkey]

theorem sameKey_of_none (hkey : key row = none) : sameKey key row other = false := by
  simp [sameKey, hkey]

omit [DecidableEq K] in
theorem Lists.key_of_mem (hlists : Lists key incoming w) (hmem : row ∈ incoming) :
    ∃ k, key row = some k ∧ w k = some row := by
  obtain ⟨k, hk⟩ := (hlists.mem row).mp hmem
  exact ⟨k, hlists.keyed k row hk, hk⟩

/-- The listed row that matches a row of a key is the one chosen for the key. -/
theorem Lists.find (hlists : Lists key incoming w) (hkey : key row = some k) :
    incoming.find? (sameKey key row) = w k := by
  cases hfound : incoming.find? (sameKey key row) with
  | none =>
    cases hk : w k with
    | none => rfl
    | some new =>
      have hnone := List.find?_eq_none.mp hfound new ((hlists.mem new).mpr ⟨k, hk⟩)
      exact absurd ((sameKey_of_key hkey).mpr (hlists.keyed k new hk)) hnone
  | some new =>
    have hnew := (sameKey_of_key hkey).mp (List.find?_some hfound)
    obtain ⟨k', hk', hchosen⟩ := hlists.key_of_mem (List.mem_of_find?_eq_some hfound)
    rw [hnew, Option.some.injEq] at hk'
    subst hk'
    exact hchosen.symm

theorem find_of_none (hkey : key row = none) : incoming.find? (sameKey key row) = none := by
  rw [List.find?_eq_none]
  intro new _
  simp [sameKey_of_none hkey]

theorem Lists.pairwise (hlists : Lists key incoming w) :
    incoming.Pairwise (fun a b => sameKey key a b = false) := by
  refine hlists.nodup.imp_of_mem ?_
  intro a b ha hb hne
  obtain ⟨k, hk, hchosen⟩ := hlists.key_of_mem ha
  obtain ⟨k', hk', hchosen'⟩ := hlists.key_of_mem hb
  apply Bool.eq_false_of_not_eq_true
  rw [sameKey_of_key hk]
  intro hsame
  rw [hk', Option.some.injEq] at hsame
  subst hsame
  rw [hchosen, Option.some.injEq] at hchosen'
  exact hne hchosen'

end Listing

section Merging

variable [DecidableEq K] (key : R → Option K) (update : R → R → Bool)

/-- A stored row after a merge: the listed row of its key, if the condition admits it. -/
def mergedRow (incoming : List R) (row : R) : R :=
  match incoming.find? (sameKey key row) with
  | some new => if update new row then new else row
  | none => row

def unmatched (table : Multiset R) (incoming : List R) : List R :=
  incoming.filter fun new => decide (∀ row ∈ table, sameKey key row new = false)

def mergeWhen (table : Multiset R) (incoming : List R) : Multiset R :=
  table.map (mergedRow key update incoming) + Multiset.ofList (unmatched key table incoming)

variable {key update} {table : Multiset R} {incoming : List R} {w : K → Option R} {k : K}

theorem mem_unmatched (hlists : Lists key incoming w) {new : R} :
    new ∈ unmatched key table incoming ↔ ∃ k, k ∉ keys key table ∧ w k = some new := by
  rw [unmatched, List.mem_filter, decide_eq_true_eq]
  constructor
  · rintro ⟨hmem, hnew⟩
    obtain ⟨k, hk, hchosen⟩ := hlists.key_of_mem hmem
    refine ⟨k, ?_, hchosen⟩
    intro hin
    obtain ⟨row, hrow, hkey⟩ := mem_keys.mp hin
    have hfalse := hnew row hrow
    rw [(sameKey_of_key hkey).mpr hk] at hfalse
    cases hfalse
  · rintro ⟨k, hnotin, hchosen⟩
    refine ⟨(hlists.mem new).mpr ⟨k, hchosen⟩, ?_⟩
    intro row hrow
    apply Bool.eq_false_of_not_eq_true
    rw [sameKey_iff]
    rintro ⟨k', hkey, hnew⟩
    rw [hlists.keyed k new hchosen, Option.some.injEq] at hnew
    subst hnew
    exact hnotin (mem_keys.mpr ⟨row, hrow, hkey⟩)

/-- A merge is the overwrite that leaves the same row of every stored key, and chooses the
listed rows of the others. -/
theorem mergeWhen_eq_overwrite {S : Finset K} {w' : K → Option R} (hlists : Lists key incoming w)
    (hchoice : Choice key S w')
    (hstored : ∀ row ∈ table, ∀ k, key row = some k →
      (w' k).getD row = ((w k).filter (fun new => update new row)).getD row)
    (hnew : ∀ k, k ∉ keys key table → w' k = w k) :
    mergeWhen key update table incoming = overwrite key table S w' := by
  unfold mergeWhen overwrite
  congr 1
  · refine Multiset.map_congr rfl ?_
    intro row hrow
    unfold mergedRow
    cases hkey : key row with
    | none => simp [find_of_none hkey, replaced, hkey]
    | some k =>
      rw [replaced_of_key hkey, hstored row hrow k hkey, hlists.find hkey]
      cases w k with
      | none => rfl
      | some new => cases hupdate : update new row <;> simp [hupdate, Option.filter]
  · refine (Multiset.Nodup.ext ?_ ?_).mpr ?_
    · exact Multiset.coe_nodup.mpr (hlists.nodup.filter _)
    · refine (Finset.nodup _).filterMap _ ?_
      intro a b row ha hb
      have heq := hchoice.keyed a row ha
      rw [hchoice.keyed b row hb, Option.some.injEq] at heq
      exact heq.symm
    · intro row
      rw [Multiset.mem_coe, mem_unmatched hlists, mem_inserted]
      constructor
      · rintro ⟨k, hnotin, hchosen⟩
        rw [← hnew k hnotin] at hchosen
        exact ⟨k, (hchoice.mem k).mpr (by simp [hchosen]), hnotin, hchosen⟩
      · rintro ⟨k, -, hnotin, hchosen⟩
        rw [hnew k hnotin] at hchosen
        exact ⟨k, hnotin, hchosen⟩

theorem mergeWhen_true {S : Finset K} (hlists : Lists key incoming w) (hchoice : Choice key S w) :
    mergeWhen key (fun _ _ => true) table incoming = overwrite key table S w := by
  refine mergeWhen_eq_overwrite hlists hchoice ?_ (fun _ _ => rfl)
  intro row _ k _
  cases w k <;> rfl

end Merging

section OneRow

variable [DecidableEq K] (key : R → Option K) (update : R → R → Bool)

/-- One row merged into a bag. -/
def mergeOne (table : Multiset R) (new : R) : Multiset R :=
  if ∀ row ∈ table, sameKey key row new = false then table + {new}
  else table.map fun row => if sameKey key row new && update new row then new else row

variable {key update} {table : Multiset R} {incoming : List R}

theorem mergedRow_cons {new row : R} :
    mergedRow key update (new :: incoming) row =
      if sameKey key row new then (if update new row then new else row)
      else mergedRow key update incoming row := by
  unfold mergedRow
  rw [List.find?_cons]
  cases sameKey key row new <;> rfl

theorem sameKey_comm {a b : R} : sameKey key a b = sameKey key b a := by
  rw [Bool.eq_iff_iff, sameKey_iff, sameKey_iff]
  simp only [and_comm]

theorem sameKey_congr {a b : R} (hsame : sameKey key a b = true) (row : R) :
    sameKey key a row = sameKey key b row := by
  obtain ⟨k, ha, hb⟩ := sameKey_iff.mp hsame
  rw [Bool.eq_iff_iff, sameKey_of_key ha, sameKey_of_key hb]

/-- A row none of the listed ones matches stays. -/
theorem mergedRow_of_unmatched {row : R} (hnone : ∀ new ∈ incoming, sameKey key row new = false) :
    mergedRow key update incoming row = row := by
  have hfind : incoming.find? (sameKey key row) = none := by
    rw [List.find?_eq_none]
    intro new hnew
    simp [hnone new hnew]
  simp [mergedRow, hfind]

/-- Rows of pairwise different keys merged one after another are merged at once. -/
theorem foldl_mergeOne
    (hpairwise : incoming.Pairwise (fun a b => sameKey key a b = false)) :
    incoming.foldl (mergeOne key update) table = mergeWhen key update table incoming := by
  induction incoming generalizing table with
  | nil =>
    have hself : mergedRow key update [] = fun row => row := rfl
    simp [mergeWhen, unmatched, hself]
  | cons new rest ih =>
    obtain ⟨hnew, hrest⟩ := List.pairwise_cons.mp hpairwise
    rw [List.foldl_cons, ih hrest]
    unfold mergeOne mergeWhen
    by_cases hstored : ∀ row ∈ table, sameKey key row new = false
    · rw [if_pos hstored, Multiset.map_add, Multiset.map_singleton, mergedRow_of_unmatched hnew]
      have hmap : table.map (mergedRow key update (new :: rest)) =
          table.map (mergedRow key update rest) := by
        refine Multiset.map_congr rfl ?_
        intro row hrow
        simp [mergedRow_cons, hstored row hrow]
      have hunmatched : unmatched key table (new :: rest) =
          new :: unmatched key (table + {new}) rest := by
        have hsame : unmatched key (table + {new}) rest = unmatched key table rest := by
          apply List.filter_congr
          intro later hlater
          rw [decide_eq_decide]
          constructor
          · intro hall row hrow
            exact hall row (Multiset.mem_add.mpr (.inl hrow))
          · intro hall row hrow
            rcases Multiset.mem_add.mp hrow with hin | hin
            · exact hall row hin
            · rw [Multiset.mem_singleton.mp hin]
              exact hnew later hlater
        rw [hsame]
        exact List.filter_cons_of_pos (decide_eq_true hstored)
      rw [hmap, hunmatched, Multiset.add_assoc]
      rfl
    · rw [if_neg hstored, Multiset.map_map]
      congr 1
      · refine Multiset.map_congr rfl ?_
        intro row _
        rw [Function.comp_apply, mergedRow_cons]
        by_cases hsame : sameKey key row new = true
        · have hkept : mergedRow key update rest row = row := by
            apply mergedRow_of_unmatched
            intro later hlater
            rw [sameKey_congr hsame]
            exact hnew later hlater
          cases hupdate : update new row with
          | true => simp [hsame, mergedRow_of_unmatched hnew]
          | false => simp [hsame, hkept]
        · simp [hsame]
      · have hkey : ∀ row later, sameKey key (if sameKey key row new && update new row then new
            else row) later = sameKey key row later := by
          intro row later
          cases hsame : sameKey key row new with
          | false => simp
          | true =>
            cases hupdate : update new row with
            | false => simp
            | true => simpa using (sameKey_congr hsame later).symm
        have hdrop : unmatched key table (new :: rest) = unmatched key table rest := by
          exact List.filter_cons_of_neg (by simpa using hstored)
        rw [hdrop]
        congr 1
        apply List.filter_congr
        intro later _
        simp only [Multiset.mem_map, forall_exists_index, and_imp, forall_apply_eq_imp_iff₂, hkey]

end OneRow

section Ranked

variable [DecidableEq K] [LinearOrder C] (key : R → Option K) (rank : R → C)

/-- From a bag with at most one row for each key to one with a row of at least the same rank for
each of them, and at most one for each key. -/
def Rising (table after : Multiset R) : Prop :=
  (keys key table).Nodup → (keys key after).Nodup ∧
    ∀ row ∈ table, ∀ k, key row = some k → ∃ later ∈ after, key later = some k ∧ rank row ≤ rank later

variable {key rank} {update : R → R → Bool} {table after final : Multiset R} {incoming rows : List R}
  {w : K → Option R} {k : K}

omit [DecidableEq K] in
theorem Rising.refl : Rising key rank table table :=
  fun hunique => ⟨hunique, fun row hrow _ hkey => ⟨row, hrow, hkey, le_rfl⟩⟩

omit [DecidableEq K] in
theorem Rising.trans (hfirst : Rising key rank table after) (hsecond : Rising key rank after final) :
    Rising key rank table final := by
  intro hunique
  obtain ⟨hafter, hrise⟩ := hfirst hunique
  obtain ⟨hfinal, hrise'⟩ := hsecond hafter
  refine ⟨hfinal, ?_⟩
  intro row hrow k hkey
  obtain ⟨later, hlater, hk, hle⟩ := hrise row hrow k hkey
  obtain ⟨last, hlast, hk', hle'⟩ := hrise' later hlater k hk
  exact ⟨last, hlast, hk', hle.trans hle'⟩

omit [DecidableEq K] in
/-- Stored rows of one key are one row. -/
theorem eq_of_unique (hunique : (keys key table).Nodup) {row other : R} (hrow : row ∈ table)
    (hother : other ∈ table) (hkey : key row = some k) (hkey' : key other = some k) :
    row = other := by
  by_contra hne
  obtain ⟨rest, rfl⟩ := Multiset.exists_cons_of_mem hrow
  have hin : other ∈ rest := (Multiset.mem_cons.mp hother).resolve_left (fun h => hne h.symm)
  have hkeys : keys key (row ::ₘ rest) = k ::ₘ keys key rest :=
    Multiset.filterMap_cons_some _ _ _ hkey
  rw [hkeys, Multiset.nodup_cons] at hunique
  exact hunique.1 (mem_keys.mpr ⟨other, hin, hkey'⟩)

theorem key_mergedRow (row : R) : key (mergedRow key update incoming row) = key row := by
  unfold mergedRow
  cases hfound : incoming.find? (sameKey key row) with
  | none => rfl
  | some new =>
    obtain ⟨k, hrow, hnew⟩ := sameKey_iff.mp (List.find?_some hfound)
    by_cases hallowed : update new row = true <;> simp [hallowed, hrow, hnew]

theorem sameKey_mergedRow (row other : R) :
    sameKey key (mergedRow key update incoming row) other = sameKey key row other := by
  have hkey : key (mergedRow key update incoming row) = key row := key_mergedRow row
  simp only [sameKey, hkey]

theorem nodup_keys_mergeWhen
    (hpairwise : incoming.Pairwise (fun a b => sameKey key a b = false))
    (hunique : (keys key table).Nodup) :
    (keys key (mergeWhen key update table incoming)).Nodup := by
  have hkeys : keys key (table.map (mergedRow key update incoming)) = keys key table := by
    unfold keys
    rw [Multiset.filterMap_map]
    congr 1
    funext row
    exact key_mergedRow row
  have hadd : keys key (mergeWhen key update table incoming) =
      keys key table + keys key (Multiset.ofList (unmatched key table incoming)) := by
    rw [← hkeys]
    exact Multiset.filterMap_add _ _ _
  rw [hadd, Multiset.nodup_add]
  refine ⟨hunique, ?_, ?_⟩
  · have hinserted : (unmatched key table incoming).Pairwise (fun a b => sameKey key a b = false) :=
      hpairwise.filter _
    refine Multiset.coe_nodup.mpr (List.pairwise_filterMap.mpr (hinserted.imp ?_))
    intro a b hfalse k ha k' hb heq
    subst heq
    rw [(sameKey_of_key ha).mpr hb] at hfalse
    cases hfalse
  · rw [Multiset.disjoint_left]
    intro k hin hnew
    obtain ⟨new, hmem, hkey⟩ := mem_keys.mp hnew
    obtain ⟨old, hold, holdKey⟩ := mem_keys.mp hin
    have hall := (List.mem_filter.mp (Multiset.mem_coe.mp hmem)).2
    rw [decide_eq_true_eq] at hall
    have hfalse := hall old hold
    rw [(sameKey_of_key holdKey).mpr hkey] at hfalse
    cases hfalse

/-- A merge that admits no row of smaller rank than the stored one lets no key fall. -/
theorem rising_mergeWhen (hlists : Lists key incoming w)
    (hupdate : ∀ row ∈ table, ∀ new ∈ incoming, sameKey key row new = true →
      update new row = true → rank row ≤ rank new) :
    Rising key rank table (mergeWhen key update table incoming) := by
  intro hunique
  refine ⟨nodup_keys_mergeWhen hlists.pairwise hunique, ?_⟩
  intro row hrow k hkey
  refine ⟨mergedRow key update incoming row,
    Multiset.mem_add.mpr (.inl (Multiset.mem_map_of_mem _ hrow)), ?_, ?_⟩
  · exact (key_mergedRow row).trans hkey
  · unfold mergedRow
    cases hfound : incoming.find? (sameKey key row) with
    | none => exact le_rfl
    | some new =>
      have hmem := List.mem_of_find?_eq_some hfound
      have hsame := List.find?_some hfound
      by_cases hallowed : update new row = true
      · simpa [hallowed] using hupdate row hrow new hmem hsame hallowed
      · simp [hallowed]

/-- The latest rows merged under the stored ranks are upserted. -/
theorem mergeWhen_eq_upsert (hunique : (keys key table).Nodup)
    (hlists : Lists key incoming (fun k => latest rank key k rows))
    (hupdate : ∀ row ∈ table, ∀ new ∈ incoming, sameKey key row new = true →
      (update new row = true ↔ rank row ≤ rank new)) :
    mergeWhen key update table incoming = upsert key rank table rows := by
  refine mergeWhen_eq_overwrite hlists (choice_latest key rank (prune key rank table rows)) ?_ ?_
  · intro row hrow k hkey
    have hpruned : latest rank key k (prune key rank table rows) =
        (latest rank key k rows).filter (fun new => decide (rank row ≤ rank new)) := by
      rw [← latest_filter_rank]
      apply latest_filter_congr
      intro other hother
      rw [decide_eq_decide, outranked_iff hother]
      constructor
      · intro hnone
        by_contra hlt
        exact hnone ⟨row, hrow, hkey, not_le.mp hlt⟩
      · rintro hle ⟨old, hold, holdKey, hlt⟩
        rw [eq_of_unique hunique hold hrow holdKey hkey] at hlt
        exact absurd hle (not_le.mpr hlt)
    rw [hpruned]
    cases hlatest : latest rank key k rows with
    | none => rfl
    | some new =>
      have hmem : new ∈ incoming := (hlists.mem new).mpr ⟨k, hlatest⟩
      have hsame : sameKey key row new = true :=
        (sameKey_of_key hkey).mpr (latest_mem hlatest).2
      have hiff := hupdate row hrow new hmem hsame
      by_cases hle : rank row ≤ rank new
      · simp [Option.filter, hle, hiff.mpr hle]
      · have hfalse : update new row = false :=
          Bool.eq_false_of_not_eq_true (fun htrue => hle (hiff.mp htrue))
        simp [Option.filter, hle, hfalse]
  · intro k hnotin
    have hall : latest rank key k (prune key rank table rows) =
        latest rank key k (rows.filter fun _ => true) := by
      apply latest_filter_congr
      intro other hother
      rw [decide_eq_true_eq, outranked_iff hother]
      rintro ⟨old, hold, holdKey, -⟩
      exact hnotin (mem_keys.mpr ⟨old, hold, holdKey⟩)
    rw [hall, List.filter_true]

theorem lists_latest (key : R → Option K) (rank : R → C) (rows : List R) :
    Lists key ((keySet key rows).toList.filterMap fun k => latest rank key k rows)
      (fun k => latest rank key k rows) := by
  have hchoice := choice_latest key rank rows
  refine ⟨?_, ?_, hchoice.keyed⟩
  · refine (Finset.nodup_toList _).filterMap ?_
    intro a b row ha hb
    have hkey := hchoice.keyed a row ha
    rw [hchoice.keyed b row hb, Option.some.injEq] at hkey
    exact hkey.symm
  · intro row
    rw [List.mem_filterMap]
    constructor
    · rintro ⟨k, -, hk⟩
      exact ⟨k, hk⟩
    · rintro ⟨k, hk⟩
      exact ⟨k, Finset.mem_toList.mpr ((hchoice.mem k).mpr (by simp [hk])), hk⟩

theorem rising_upsert : Rising key rank table (upsert key rank table rows) := by
  intro hunique
  have hlists := lists_latest key rank rows
  have hmerge : mergeWhen key (fun new row => decide (rank row ≤ rank new)) table _ =
      upsert key rank table rows :=
    mergeWhen_eq_upsert hunique hlists (fun _ _ _ _ _ => decide_eq_true_iff)
  rw [← hmerge]
  exact rising_mergeWhen hlists (fun _ _ _ _ _ hallowed => of_decide_eq_true hallowed) hunique

end Ranked

end KeyedUpsert
