import Mathlib.Data.List.Pairwise
import Dander.KeyedMerge

/-!
# The first rows of partitions

A ranking query numbers the rows of each partition in descending order of rank and keeps those
numbered one. It keeps the latest row of each partition. Merging a selection of the kept rows
leaves the same bag as merging all of them under a condition exactly if the condition, too,
changes nothing for the rows that are not selected.
-/
namespace KeyedUpsert

variable {R P K C C' : Type}

section FirstRows

variable [DecidableEq P] [LinearOrder C] [LinearOrder C'] (partition : R → P) (rank : R → C)

/-- The first row is of the same partition and stands before the second one. Rows that the rank
does not tell apart stand in the descending order of the numbers the engine read them under. -/
def ahead (a b : R × ℕ) : Bool :=
  decide (partition a.1 = partition b.1) &&
    (decide (rank b.1 < rank a.1) || decide (rank b.1 = rank a.1) && decide (b.2 < a.2))

/-- The number of a row in its partition. -/
def numberIn (rows : List (R × ℕ)) (row : R × ℕ) : ℕ :=
  rows.countP (fun other => ahead partition rank other row) + 1

def firstRows (rows : List R) : List R :=
  (rows.zipIdx.filter fun row => decide (numberIn partition rank rows.zipIdx row = 1)).map Prod.fst

variable {partition rank} {rank' : R → C'} {rows : List R} {row : R}

theorem ahead_iff {a b : R × ℕ} :
    ahead partition rank a b = true ↔ partition a.1 = partition b.1 ∧
      (rank b.1 < rank a.1 ∨ (rank b.1 = rank a.1 ∧ b.2 < a.2)) := by
  simp [ahead]

theorem numberIn_eq_one {numbered : List (R × ℕ)} {row : R × ℕ} :
    numberIn partition rank numbered row = 1 ↔
      ∀ other ∈ numbered, ¬ ahead partition rank other row = true := by
  simp [numberIn, List.countP_eq_zero]

theorem mem_firstRows_iff_number : row ∈ firstRows partition rank rows ↔
    ∃ number, (row, number) ∈ rows.zipIdx ∧
      ∀ other ∈ rows.zipIdx, ¬ ahead partition rank other (row, number) = true := by
  simp only [firstRows, List.mem_map, List.mem_filter, decide_eq_true_eq, numberIn_eq_one]
  constructor
  · rintro ⟨⟨row', number⟩, ⟨hmem, hfirst⟩, rfl⟩
    exact ⟨number, hmem, hfirst⟩
  · rintro ⟨number, hmem, hfirst⟩
    exact ⟨(row, number), ⟨hmem, hfirst⟩, rfl⟩

theorem ordered_zipIdx (rows : List R) (first : ℕ) :
    (rows.zipIdx first).Pairwise (fun a b => a.2 < b.2) := by
  induction rows generalizing first with
  | nil => simp
  | cons row rest ih =>
    rw [List.zipIdx_cons, List.pairwise_cons]
    refine ⟨?_, ih (first + 1)⟩
    intro other hother
    have hle := List.le_snd_of_mem_zipIdx hother
    omega

theorem eq_of_number {numbered : List (R × ℕ)} (hordered : numbered.Pairwise (fun a b => a.2 < b.2))
    {a b : R × ℕ} (ha : a ∈ numbered) (hb : b ∈ numbered) (heq : a.2 = b.2) : a = b := by
  induction numbered with
  | nil => cases ha
  | cons first rest ih =>
    obtain ⟨habove, hrest⟩ := List.pairwise_cons.mp hordered
    rcases List.mem_cons.mp ha with rfl | hain
    · rcases List.mem_cons.mp hb with rfl | hbin
      · rfl
      · have := habove b hbin
        omega
    · rcases List.mem_cons.mp hb with rfl | hbin
      · have := habove a hain
        omega
      · exact ih hrest hain hbin

/-- The first row of a partition is its latest row. -/
theorem mem_firstRows : row ∈ firstRows partition rank rows ↔
    latest rank (fun row => some (partition row)) (partition row) rows = some row := by
  have hordered := ordered_zipIdx rows 0
  have hrows : rows.zipIdx.map Prod.fst = rows := List.zipIdx_map_fst _ _
  rw [mem_firstRows_iff_number]
  constructor
  · rintro ⟨number, hmem, hfirst⟩
    have hin : row ∈ rows := by
      rw [← hrows]
      exact List.mem_map_of_mem hmem
    obtain ⟨last, hlast, -⟩ : ∃ last, latest rank (fun row => some (partition row))
        (partition row) rows = some last ∧ _ := exists_latest hin rfl
    have hpartition : partition last = partition row := Option.some.inj (latest_mem hlast).2
    obtain ⟨other, hother, habove⟩ := exists_number_of_latest hordered
      (by rw [hrows]; exact hlast)
    have hbefore := habove _ hmem rfl
    have hafter := hfirst _ hother
    rw [ahead_iff] at hafter
    push Not at hbefore hafter
    have hafter' := hafter hpartition
    have heq : rank row = rank last := le_antisymm hbefore.1 hafter'.1
    have hnumber : number = other := le_antisymm (hbefore.2 heq.symm) (hafter'.2 heq)
    have hsame : row = last := congrArg Prod.fst (eq_of_number hordered hmem hother hnumber)
    rw [hlast, hsame]
  · intro hlast
    obtain ⟨number, hmem, habove⟩ := exists_number_of_latest hordered
      (by rw [hrows]; exact hlast)
    refine ⟨number, hmem, ?_⟩
    intro other hother hahead
    obtain ⟨hpartition, hbefore⟩ := ahead_iff.mp hahead
    exact habove other hother (congrArg some hpartition) hbefore

theorem mem_of_mem_firstRows (hrow : row ∈ firstRows partition rank rows) : row ∈ rows :=
  (latest_mem (mem_firstRows.mp hrow)).1

/-- No two first rows are of one partition. -/
theorem pairwise_firstRows (partition : R → P) (rank : R → C) (rows : List R) :
    (firstRows partition rank rows).Pairwise (fun a b => partition a ≠ partition b) := by
  unfold firstRows
  rw [List.pairwise_map]
  have hnodup : rows.zipIdx.Pairwise (fun a b => a.2 < b.2) := ordered_zipIdx rows 0
  refine (hnodup.filter _).imp_of_mem ?_
  intro a b ha hb hlt hpartition
  obtain ⟨hamem, hafirst⟩ := List.mem_filter.mp ha
  obtain ⟨hbmem, hbfirst⟩ := List.mem_filter.mp hb
  rw [decide_eq_true_eq, numberIn_eq_one] at hafirst hbfirst
  have hbefore := hafirst b hbmem
  have hafter := hbfirst a hamem
  rw [ahead_iff] at hbefore hafter
  push Not at hbefore hafter
  have hbefore' := hbefore hpartition.symm
  have hafter' := hafter hpartition
  have heq : rank a.1 = rank b.1 := le_antisymm hafter'.1 hbefore'.1
  have := hbefore'.2 heq
  omega

/-- Ranks that order the rows of each partition alike keep the same rows. -/
theorem firstRows_congr (hsame : ∀ a ∈ rows, ∀ b ∈ rows, partition a = partition b →
      (rank a < rank b ↔ rank' a < rank' b)) :
    firstRows partition rank rows = firstRows partition rank' rows := by
  have hmem : ∀ numbered ∈ rows.zipIdx, numbered.1 ∈ rows := by
    intro numbered hnumbered
    have hin := List.mem_map_of_mem (f := Prod.fst) hnumbered
    rwa [List.zipIdx_map_fst] at hin
  unfold firstRows
  congr 1
  apply List.filter_congr
  intro row hrow
  have hcount : numberIn partition rank rows.zipIdx row =
      numberIn partition rank' rows.zipIdx row := by
    unfold numberIn
    congr 1
    apply List.countP_congr
    intro other hother
    rw [ahead_iff, ahead_iff]
    apply and_congr_right
    intro hpartition
    have hlt := hsame _ (hmem _ hrow) _ (hmem _ hother) hpartition.symm
    have hgt := hsame _ (hmem _ hother) _ (hmem _ hrow) hpartition
    have heq : rank row.1 = rank other.1 ↔ rank' row.1 = rank' other.1 := by
      constructor
      · intro heq
        exact le_antisymm (not_lt.mp fun h => (hgt.mpr h).ne heq.symm)
          (not_lt.mp fun h => (hlt.mpr h).ne heq)
      · intro heq
        exact le_antisymm (not_lt.mp fun h => (hgt.mp h).ne heq.symm)
          (not_lt.mp fun h => (hlt.mp h).ne heq)
    rw [hlt, heq]
  rw [hcount]

/-- The first rows among those that stand from some point upward. -/
theorem mem_firstRows_filter {p : R → Bool}
    (hup : ∀ a b, rank a ≤ rank b → p a = true → p b = true) :
    row ∈ firstRows partition rank (rows.filter p) ↔
      row ∈ firstRows partition rank rows ∧ p row = true := by
  have hfilter : latest rank (fun row => some (partition row)) (partition row) (rows.filter p) =
      (latest rank (fun row => some (partition row)) (partition row) rows).filter p :=
    latest_filter_of_upper (fun a b _ _ => hup a b) rows
  rw [mem_firstRows, mem_firstRows, hfilter, Option.filter_eq_some_iff]

theorem eq_of_mem_firstRows {a b : R} (ha : a ∈ firstRows partition rank rows)
    (hb : b ∈ firstRows partition rank rows) (hpartition : partition a = partition b) : a = b := by
  have hfirst := mem_firstRows.mp ha
  rw [hpartition, mem_firstRows.mp hb] at hfirst
  exact (Option.some.inj hfirst).symm

/-- Every row stands behind the first row of its partition. -/
theorem exists_firstRow (partition : R → P) (rank : R → C) (hrow : row ∈ rows) :
    ∃ first ∈ firstRows partition rank rows,
      partition first = partition row ∧ rank row ≤ rank first := by
  obtain ⟨first, hlatest, hle⟩ : ∃ first, latest rank (fun row => some (partition row))
      (partition row) rows = some first ∧ rank row ≤ rank first := exists_latest hrow rfl
  have hpartition : partition first = partition row := Option.some.inj (latest_mem hlatest).2
  refine ⟨first, ?_, hpartition, hle⟩
  rw [mem_firstRows, hpartition]
  exact hlatest

/-- A first row is the first one of any selection it belongs to. -/
theorem mem_firstRows_filter_of_mem {p : R → Bool} (hrow : row ∈ firstRows partition rank rows)
    (hp : p row = true) : row ∈ firstRows partition rank (rows.filter p) := by
  rw [mem_firstRows] at hrow ⊢
  exact latest_filter_of_mem hrow hp

end FirstRows

section Selections

variable [DecidableEq K] {key : R → Option K} {update : R → R → Bool} {p : R → Bool}
  {table : Multiset R} {incoming chosen : List R} {row new : R}

theorem eq_of_pairwise (hpairwise : incoming.Pairwise (fun a b => sameKey key a b = false))
    {a b : R} (ha : a ∈ incoming) (hb : b ∈ incoming) (hsame : sameKey key a b = true) : a = b := by
  by_contra hne
  have hsymmetric : Std.Symm fun a b => sameKey key a b = false :=
    ⟨fun a b h => by rwa [sameKey_comm]⟩
  have hfalse := hpairwise.forall ha hb hne
  rw [hsame] at hfalse
  cases hfalse

theorem nodup_of_pairwise (hpairwise : incoming.Pairwise (fun a b => sameKey key a b = false))
    (hkeyed : ∀ row ∈ incoming, ∃ k, key row = some k) : incoming.Nodup := by
  refine hpairwise.imp_of_mem ?_
  intro a b ha _ hfalse heq
  subst heq
  obtain ⟨k, hk⟩ := hkeyed a ha
  rw [(sameKey_of_key hk).mpr hk] at hfalse
  cases hfalse

theorem find_of_pairwise (hpairwise : incoming.Pairwise (fun a b => sameKey key a b = false))
    (hnew : new ∈ incoming) (hsame : sameKey key row new = true) :
    incoming.find? (sameKey key row) = some new := by
  cases hfound : incoming.find? (sameKey key row) with
  | none =>
    have hnone := List.find?_eq_none.mp hfound new hnew
    exact absurd hsame hnone
  | some other =>
    have hother := List.find?_some hfound
    have hboth : sameKey key other new = true := by rw [← sameKey_congr hother]; exact hsame
    rw [eq_of_pairwise hpairwise (List.mem_of_find?_eq_some hfound) hnew hboth]

theorem mergedRow_of_mem (hpairwise : incoming.Pairwise (fun a b => sameKey key a b = false))
    (hnew : new ∈ incoming) (hsame : sameKey key row new = true) :
    mergedRow key update incoming row = if update new row then new else row := by
  simp [mergedRow, find_of_pairwise hpairwise hnew hsame]

theorem mem_mergeWhen : row ∈ mergeWhen key update table incoming ↔
    (∃ old ∈ table, mergedRow key update incoming old = row) ∨
      (row ∈ incoming ∧ ∀ old ∈ table, sameKey key old row = false) := by
  rw [mergeWhen, Multiset.mem_add, Multiset.mem_map, Multiset.mem_coe, unmatched, List.mem_filter,
    decide_eq_true_eq]

/-- A row that is not selected is stored already, or is newer in no stored row of its key. -/
def Settled (key : R → Option K) (update : R → R → Bool) (table : Multiset R) (new : R) : Prop :=
  ∃ old ∈ table, sameKey key old new = true ∧ (update new old = false ∨ old = new)

/-- What the merge of all rows leaves of a row that the merge of the selected ones cannot see. -/
theorem settled_of_mergeWhen_eq (hunique : (keys key table).Nodup)
    (hincoming : incoming.Pairwise (fun a b => sameKey key a b = false))
    (hchosen : ∀ row, row ∈ chosen ↔ row ∈ incoming ∧ p row = true)
    (hkeyed : ∀ row ∈ incoming, ∃ k, key row = some k)
    (heq : mergeWhen key (fun _ _ => true) table chosen = mergeWhen key update table incoming)
    (hnew : new ∈ incoming) (hp : p new = false) : Settled key update table new := by
  have hkey : ∀ row, key (mergedRow key (fun _ _ => true) chosen row) = key row :=
    fun row => key_mergedRow row
  have hnotin : new ∉ chosen := fun hin => by simp [((hchosen new).mp hin).2] at hp
  obtain ⟨k, hk⟩ := hkeyed new hnew
  by_cases hmatched : ∃ old ∈ table, sameKey key old new = true
  · obtain ⟨old, hold, hsame⟩ := hmatched
    refine ⟨old, hold, hsame, ?_⟩
    cases hupdate : update new old with
    | false => exact .inl rfl
    | true =>
      have hafter : new ∈ mergeWhen key update table incoming := by
        refine mem_mergeWhen.mpr (.inl ⟨old, hold, ?_⟩)
        rw [mergedRow_of_mem hincoming hnew hsame, hupdate, if_pos rfl]
      rw [← heq, mem_mergeWhen] at hafter
      rcases hafter with ⟨other, hother, hmerged⟩ | ⟨hin, -⟩
      · have hotherKey : key other = some k := by rw [← hkey other, hmerged, hk]
        have holdKey : key old = some k := by
          rw [sameKey_comm] at hsame
          exact (sameKey_of_key hk).mp hsame
        have hrow : other = old := eq_of_unique hunique hother hold hotherKey holdKey
        subst hrow
        right
        cases hfound : chosen.find? (sameKey key other) with
        | none => simpa [mergedRow, hfound] using hmerged
        | some found =>
          have hfoundIn := (hchosen found).mp (List.mem_of_find?_eq_some hfound)
          have hboth : sameKey key found new = true := by
            rw [← sameKey_congr (List.find?_some hfound)]
            exact hsame
          have hfoundNew := eq_of_pairwise hincoming hfoundIn.1 hnew hboth
          rw [hfoundNew, hp] at hfoundIn
          exact absurd hfoundIn.2 (by simp)
      · exact absurd hin hnotin
  · have hall : ∀ old ∈ table, sameKey key old new = false := by
      intro old hold
      apply Bool.eq_false_of_not_eq_true
      exact fun hsame => hmatched ⟨old, hold, hsame⟩
    have hafter : new ∈ mergeWhen key update table incoming := mem_mergeWhen.mpr (.inr ⟨hnew, hall⟩)
    rw [← heq, mem_mergeWhen] at hafter
    rcases hafter with ⟨other, hother, hmerged⟩ | ⟨hin, -⟩
    · have hotherKey : key other = some k := by rw [← hkey other, hmerged, hk]
      exact absurd ⟨other, hother, (sameKey_of_key hotherKey).mpr hk⟩ hmatched
    · exact absurd hin hnotin

/-- A merge of selected rows leaves what a conditional merge of all of them leaves, exactly if each
of the others is settled. -/
theorem mergeWhen_eq_iff (hunique : (keys key table).Nodup)
    (hincoming : incoming.Pairwise (fun a b => sameKey key a b = false))
    (hselected : chosen.Pairwise (fun a b => sameKey key a b = false))
    (hchosen : ∀ row, row ∈ chosen ↔ row ∈ incoming ∧ p row = true)
    (hkeyed : ∀ row ∈ incoming, ∃ k, key row = some k)
    (hupdate : ∀ old ∈ table, ∀ new ∈ incoming, p new = true → update new old = true) :
    mergeWhen key (fun _ _ => true) table chosen = mergeWhen key update table incoming ↔
      ∀ new ∈ incoming, p new = false → Settled key update table new := by
  constructor
  · intro heq new hnew hp
    exact settled_of_mergeWhen_eq hunique hincoming hchosen hkeyed heq hnew hp
  · intro hsettled
    unfold mergeWhen
    congr 1
    · refine Multiset.map_congr rfl ?_
      intro old hold
      cases hfound : incoming.find? (sameKey key old) with
      | none =>
        have hnone : ∀ new ∈ incoming, sameKey key old new = false := by
          intro new hnew
          exact Bool.eq_false_of_not_eq_true (List.find?_eq_none.mp hfound new hnew)
        rw [mergedRow_of_unmatched hnone]
        exact mergedRow_of_unmatched fun new hnew => hnone new ((hchosen new).mp hnew).1
      | some new =>
        have hnew := List.mem_of_find?_eq_some hfound
        have hsame := List.find?_some hfound
        rw [mergedRow_of_mem hincoming hnew hsame]
        cases hp : p new with
        | true =>
          rw [mergedRow_of_mem hselected ((hchosen new).mpr ⟨hnew, hp⟩) hsame,
            hupdate old hold new hnew hp]
        | false =>
          have hunseen : mergedRow key (fun _ _ => true) chosen old = old := by
            apply mergedRow_of_unmatched
            intro other hother
            apply Bool.eq_false_of_not_eq_true
            intro hmatch
            obtain ⟨hin, hpother⟩ := (hchosen other).mp hother
            have hboth : sameKey key new other = true := by
              rw [← sameKey_congr hsame]
              exact hmatch
            rw [← eq_of_pairwise hincoming hnew hin hboth, hp] at hpother
            cases hpother
          obtain ⟨stored, hstored, hstoredSame, hcase⟩ := hsettled new hnew hp
          obtain ⟨k, hold', hk⟩ := sameKey_iff.mp hsame
          have hstoredKey : key stored = some k := by
            rw [sameKey_comm] at hstoredSame
            exact (sameKey_of_key hk).mp hstoredSame
          have hrow := eq_of_unique hunique hstored hold hstoredKey hold'
          subst hrow
          rw [hunseen]
          rcases hcase with hupdateFalse | rfl
          · simp [hupdateFalse]
          · simp
    · refine (Multiset.Nodup.ext ?_ ?_).mpr ?_
      · have hkeyed' : ∀ row ∈ chosen, ∃ k, key row = some k :=
          fun row hrow => hkeyed row ((hchosen row).mp hrow).1
        exact Multiset.coe_nodup.mpr ((nodup_of_pairwise hselected hkeyed').filter _)
      · exact Multiset.coe_nodup.mpr ((nodup_of_pairwise hincoming hkeyed).filter _)
      · intro new
        simp only [Multiset.mem_coe, unmatched, List.mem_filter, decide_eq_true_eq, hchosen]
        constructor
        · rintro ⟨⟨hin, -⟩, hall⟩
          exact ⟨hin, hall⟩
        · rintro ⟨hin, hall⟩
          refine ⟨⟨hin, ?_⟩, hall⟩
          apply Bool.eq_true_of_not_eq_false
          intro hp
          obtain ⟨old, hold, hsame, -⟩ := hsettled new hin hp
          rw [hall old hold] at hsame
          cases hsame

/-- A merge leaves the bag it finds exactly if every merged row is stored already, and no other row
of its key is. -/
theorem mergeWhen_eq_self_iff
    (hincoming : incoming.Pairwise (fun a b => sameKey key a b = false)) :
    mergeWhen key (fun _ _ => true) table incoming = table ↔ ∀ new ∈ incoming,
      (∃ old ∈ table, sameKey key old new = true) ∧
        ∀ old ∈ table, sameKey key old new = true → old = new := by
  constructor
  · intro hself
    have hnone : unmatched key table incoming = [] := by
      have hcard := congrArg Multiset.card hself
      rw [mergeWhen, Multiset.card_add, Multiset.card_map, Multiset.coe_card] at hcard
      apply List.eq_nil_of_length_eq_zero
      omega
    have hmap : table.map (mergedRow key (fun _ _ => true) incoming) = table := by
      rw [mergeWhen, hnone] at hself
      simpa using hself
    intro new hnew
    constructor
    · by_contra hnot
      push Not at hnot
      have hin : new ∈ unmatched key table incoming := by
        refine List.mem_filter.mpr ⟨hnew, ?_⟩
        rw [decide_eq_true_eq]
        exact fun old hold => Bool.eq_false_of_not_eq_true (hnot old hold)
      rw [hnone] at hin
      cases hin
    · intro old hold hsame
      rw [← hmap] at hold
      obtain ⟨other, hother, rfl⟩ := Multiset.mem_map.mp hold
      have hkey : sameKey key other new = true := by
        rwa [sameKey_mergedRow] at hsame
      rw [mergedRow_of_mem hincoming hnew hkey, if_pos rfl]
  · intro hall
    have hnone : unmatched key table incoming = [] := by
      rw [unmatched, List.filter_eq_nil_iff]
      intro new hnew hunmatched
      obtain ⟨old, hold, hsame⟩ := (hall new hnew).1
      rw [decide_eq_true_eq] at hunmatched
      rw [hunmatched old hold] at hsame
      cases hsame
    have hmap : table.map (mergedRow key (fun _ _ => true) incoming) = table := by
      conv_rhs => rw [← Multiset.map_id table]
      refine Multiset.map_congr rfl ?_
      intro old hold
      by_cases hmatched : ∃ new ∈ incoming, sameKey key old new = true
      · obtain ⟨new, hnew, hsame⟩ := hmatched
        rw [mergedRow_of_mem hincoming hnew hsame, if_pos rfl]
        exact ((hall new hnew).2 old hold hsame).symm
      · apply mergedRow_of_unmatched
        intro new hnew
        apply Bool.eq_false_of_not_eq_true
        exact fun hsame => hmatched ⟨new, hnew, hsame⟩
    simp [mergeWhen, hmap, hnone]

/-- What a merge stores of a key it merges is the merged row. -/
theorem eq_of_mem_mergeWhen (hincoming : incoming.Pairwise (fun a b => sameKey key a b = false))
    (hnew : new ∈ incoming) (hrow : row ∈ mergeWhen key (fun _ _ => true) table incoming)
    (hsame : sameKey key row new = true) : row = new := by
  rcases mem_mergeWhen.mp hrow with ⟨old, hold, rfl⟩ | ⟨hin, -⟩
  · have hkey : sameKey key old new = true := by
      rwa [sameKey_mergedRow] at hsame
    rw [mergedRow_of_mem hincoming hnew hkey, if_pos rfl]
  · exact eq_of_pairwise hincoming hin hnew hsame

/-- Every merged row is stored. -/
theorem mem_mergeWhen_of_incoming
    (hincoming : incoming.Pairwise (fun a b => sameKey key a b = false)) (hnew : new ∈ incoming) :
    new ∈ mergeWhen key (fun _ _ => true) table incoming := by
  rw [mem_mergeWhen]
  by_cases hmatched : ∃ old ∈ table, sameKey key old new = true
  · obtain ⟨old, hold, hsame⟩ := hmatched
    refine .inl ⟨old, hold, ?_⟩
    rw [mergedRow_of_mem hincoming hnew hsame, if_pos rfl]
  · refine .inr ⟨hnew, ?_⟩
    intro old hold
    apply Bool.eq_false_of_not_eq_true
    exact fun hsame => hmatched ⟨old, hold, hsame⟩

/-- A stored row was stored before or is merged. -/
theorem mem_or_mem_of_mem_mergeWhen (hrow : row ∈ mergeWhen key update table incoming) :
    row ∈ table ∨ row ∈ incoming := by
  rcases mem_mergeWhen.mp hrow with ⟨old, hold, hmerged⟩ | ⟨hin, -⟩
  · unfold mergedRow at hmerged
    cases hfound : incoming.find? (sameKey key old) with
    | none =>
      rw [hfound] at hmerged
      exact .inl (hmerged ▸ hold)
    | some new =>
      rw [hfound] at hmerged
      dsimp only at hmerged
      split at hmerged
      · exact .inr (hmerged ▸ List.mem_of_find?_eq_some hfound)
      · exact .inl (hmerged ▸ hold)
  · exact .inr hin

end Selections

end KeyedUpsert
