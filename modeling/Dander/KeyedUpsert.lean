import Mathlib.Data.Finset.Basic
import Mathlib.Data.Multiset.Filter
import Mathlib.Data.Finset.Dedup
import Mathlib.Data.Multiset.FinsetOps
import Mathlib.Order.Defs.LinearOrder
import Mathlib.Tactic.Common

/-!
# Upserting streams of rows into bags by key

Rows may have a key and have a rank. Of the rows of a stream with one key the latest is
the last of those of highest rank. An upsert drops the rows that rank below a stored row
of their key, replaces every stored row of a key by the latest of what is left, and
inserts the latest rows of keys that are not stored. Upserting two streams one after
the other is upserting their concatenation.
-/
namespace KeyedUpsert

variable {R K C : Type}

section Latest

variable [LinearOrder C] (rank : R → C)

/-- Of an earlier and a later row the one of higher rank, the later one of equals. -/
def newer : Option R → Option R → Option R
  | none, later => later
  | some row, none => some row
  | some row, some later => if rank later < rank row then some row else some later

@[simp] theorem newer_none (row : Option R) : newer rank row none = row := by
  cases row <;> rfl

theorem newer_assoc (a b c : Option R) :
    newer rank (newer rank a b) c = newer rank a (newer rank b c) := by
  cases a with
  | none => rfl
  | some a =>
    cases b with
    | none => rfl
    | some b =>
      cases c with
      | none => simp
      | some c =>
        by_cases hba : rank b < rank a
        · by_cases hcb : rank c < rank b
          · have hca : rank c < rank a := hcb.trans hba
            simp [newer, hba, hcb, hca]
          · by_cases hca : rank c < rank a <;> simp [newer, hba, hcb, hca]
        · by_cases hcb : rank c < rank b
          · simp [newer, hba, hcb]
          · have hca : ¬ rank c < rank a := by
              rw [not_lt] at hba hcb ⊢
              exact hba.trans hcb
            simp [newer, hba, hcb, hca]

variable [DecidableEq K] (key : R → Option K)

def latest (k : K) : List R → Option R
  | [] => none
  | row :: rest =>
    if key row = some k then newer rank (some row) (latest k rest) else latest k rest

variable {rank key} {k : K}

theorem latest_append (rows later : List R) :
    latest rank key k (rows ++ later) =
      newer rank (latest rank key k rows) (latest rank key k later) := by
  induction rows with
  | nil => rfl
  | cons row rest ih =>
    by_cases hkey : key row = some k
    · simp only [List.cons_append, latest, hkey, if_true, ih, newer_assoc]
    · simp only [List.cons_append, latest, hkey, if_false, ih]

theorem newer_eq_or {a b : Option R} {row : R} (h : newer rank a b = some row) :
    a = some row ∨ b = some row := by
  cases a with
  | none => exact .inr h
  | some a =>
    cases b with
    | none => exact .inl h
    | some b =>
      by_cases hlt : rank b < rank a
      · simp only [newer, hlt, if_true] at h
        exact .inl h
      · simp only [newer, hlt, if_false] at h
        exact .inr h

theorem latest_mem {rows : List R} {row : R} (h : latest rank key k rows = some row) :
    row ∈ rows ∧ key row = some k := by
  induction rows with
  | nil => cases h
  | cons first rest ih =>
    by_cases hkey : key first = some k
    · simp only [latest, hkey, if_true] at h
      rcases newer_eq_or h with hfirst | hrest
      · cases hfirst
        exact ⟨List.mem_cons_self, hkey⟩
      · obtain ⟨hmem, hk⟩ := ih hrest
        exact ⟨List.mem_cons_of_mem _ hmem, hk⟩
    · simp only [latest, hkey, if_false] at h
      obtain ⟨hmem, hk⟩ := ih h
      exact ⟨List.mem_cons_of_mem _ hmem, hk⟩

/-- Every row of a key ranks at most as high as the latest one. -/
theorem exists_latest {rows : List R} {row : R} (hmem : row ∈ rows) (hkey : key row = some k) :
    ∃ last, latest rank key k rows = some last ∧ rank row ≤ rank last := by
  induction rows with
  | nil => cases hmem
  | cons first rest ih =>
    by_cases hfirst : key first = some k
    · cases hrest : latest rank key k rest with
      | none =>
        rcases List.mem_cons.mp hmem with rfl | hin
        · exact ⟨row, by simp [latest, hfirst, hrest], le_rfl⟩
        · obtain ⟨last, hlast, -⟩ := ih hin
          rw [hrest] at hlast
          cases hlast
      | some last =>
        by_cases hlt : rank last < rank first
        · refine ⟨first, by simp [latest, hfirst, hrest, newer, hlt], ?_⟩
          rcases List.mem_cons.mp hmem with rfl | hin
          · exact le_rfl
          · obtain ⟨last', hlast', hle⟩ := ih hin
            rw [hrest, Option.some.injEq] at hlast'
            subst hlast'
            exact hle.trans hlt.le
        · refine ⟨last, by simp [latest, hfirst, hrest, newer, hlt], ?_⟩
          rcases List.mem_cons.mp hmem with rfl | hin
          · exact not_lt.mp hlt
          · obtain ⟨last', hlast', hle⟩ := ih hin
            rw [hrest, Option.some.injEq] at hlast'
            subst hlast'
            exact hle
    · rcases List.mem_cons.mp hmem with rfl | hin
      · exact absurd hkey hfirst
      · obtain ⟨last, hlast, hle⟩ := ih hin
        exact ⟨last, by simp [latest, hfirst, hlast], hle⟩

/-- Leaving out rows of other keys changes nothing. -/
theorem latest_filter_congr {p q : R → Bool} (h : ∀ row, key row = some k → p row = q row)
    (rows : List R) :
    latest rank key k (rows.filter p) = latest rank key k (rows.filter q) := by
  induction rows with
  | nil => rfl
  | cons row rest ih =>
    by_cases hkey : key row = some k
    · have hpq := h row hkey
      cases hq : q row with
      | false => simp [hpq, hq, ih]
      | true => simp [hpq, hq, latest, hkey, ih]
    · cases hp : p row <;> cases hq : q row <;> simp [hp, hq, latest, hkey, ih]

/-- Leaving out rows of other keys and rows below those that stay leaves the latest one, unless it
is left out. -/
theorem latest_filter_of_upper {p : R → Bool}
    (hup : ∀ a b, key a = some k → key b = some k → rank a ≤ rank b → p a = true → p b = true)
    (rows : List R) :
    latest rank key k (rows.filter p) = (latest rank key k rows).filter p := by
  induction rows with
  | nil => rfl
  | cons row rest ih =>
    by_cases hkey : key row = some k
    · by_cases hp : p row = true
      · simp only [List.filter_cons, hp, if_true, latest, hkey, ih]
        cases hrest : latest rank key k rest with
        | none => simp [Option.filter, hp]
        | some last =>
          have hlastKey := (latest_mem hrest).2
          by_cases hlast : p last = true
          · by_cases hlt : rank last < rank row <;> simp [newer, Option.filter, hlast, hlt, hp]
          · have hlt : rank last < rank row :=
              not_le.mp fun hle => hlast (hup row last hkey hlastKey hle hp)
            simp [newer, Option.filter, hlast, hlt, hp]
      · simp only [List.filter_cons, hp, Bool.false_eq_true, if_false, latest, hkey, if_true, ih]
        cases hrest : latest rank key k rest with
        | none => simp [Option.filter, hp]
        | some last =>
          have hlastKey := (latest_mem hrest).2
          by_cases hlt : rank last < rank row
          · have hlast : ¬ p last = true := fun hlast => hp (hup last row hlastKey hkey hlt.le hlast)
            simp [newer, Option.filter, hlt, hlast, hp]
          · simp [newer, hlt]
    · by_cases hp : p row = true <;> simp [hp, latest, hkey, ih]

/-- Leaving out other rows than the latest one leaves it the latest. -/
theorem latest_filter_of_mem {p : R → Bool} {rows : List R} {last : R}
    (hlast : latest rank key k rows = some last) (hp : p last = true) :
    latest rank key k (rows.filter p) = some last := by
  induction rows with
  | nil => cases hlast
  | cons row rest ih =>
    have hbehind : ∀ x, latest rank key k (rest.filter p) = some x →
        ∃ y, latest rank key k rest = some y ∧ rank x ≤ rank y := by
      intro x hx
      obtain ⟨hmem, hkey⟩ := latest_mem hx
      exact exists_latest (List.mem_filter.mp hmem).1 hkey
    by_cases hkey : key row = some k
    · simp only [latest, hkey, if_true] at hlast
      cases hrest : latest rank key k rest with
      | none =>
        rw [hrest, newer_none] at hlast
        cases hlast
        have hnone : latest rank key k (rest.filter p) = none := by
          rw [Option.eq_none_iff_forall_ne_some]
          intro x hx
          obtain ⟨y, hy, -⟩ := hbehind x hx
          rw [hrest] at hy
          cases hy
        simp [latest, hp, hkey, hnone]
      | some r =>
        rw [hrest] at hlast ih
        by_cases hlt : rank r < rank row
        · simp only [newer, hlt, if_true, Option.some.injEq] at hlast
          subst hlast
          cases hfiltered : latest rank key k (rest.filter p) with
          | none => simp [latest, hp, hkey, hfiltered]
          | some x =>
            obtain ⟨y, hy, hle⟩ := hbehind x hfiltered
            rw [hrest, Option.some.injEq] at hy
            subst hy
            simp [latest, hp, hkey, hfiltered, newer, hle.trans_lt hlt]
        · simp only [newer, hlt, if_false, Option.some.injEq] at hlast
          subst hlast
          by_cases hrow : p row = true <;> simp [latest, hrow, hkey, ih rfl, newer, hlt]
    · simp only [latest, hkey, if_false] at hlast
      by_cases hrow : p row = true <;> simp [latest, hrow, hkey, ih hlast]

/-- Leaving out the rows below a rank leaves the latest one, unless it is one of them. -/
theorem latest_filter_rank (c : C) (rows : List R) :
    latest rank key k (rows.filter (fun row => decide (c ≤ rank row))) =
      (latest rank key k rows).filter (fun row => decide (c ≤ rank row)) := by
  refine latest_filter_of_upper ?_ rows
  intro a b _ _ hle ha
  exact decide_eq_true ((of_decide_eq_true ha).trans hle)

/-- The latest row, where rows are numbered in their order: it precedes all others of its key
when they are put in descending order of rank and then of number. -/
theorem exists_number_of_latest {numbered : List (R × ℕ)} {row : R}
    (hordered : numbered.Pairwise (fun a b => a.2 < b.2))
    (h : latest rank key k (numbered.map Prod.fst) = some row) :
    ∃ number, (row, number) ∈ numbered ∧ ∀ other ∈ numbered, key other.1 = some k →
      ¬ (rank row < rank other.1 ∨ (rank row = rank other.1 ∧ number < other.2)) := by
  induction numbered with
  | nil => cases h
  | cons first rest ih =>
    obtain ⟨habove, hrest⟩ := List.pairwise_cons.mp hordered
    have hlower : ∀ other ∈ rest, key other.1 = some k →
        ∃ last, latest rank key k (rest.map Prod.fst) = some last ∧ rank other.1 ≤ rank last :=
      fun other hother => exists_latest (List.mem_map_of_mem hother)
    by_cases hkey : key first.1 = some k
    · simp only [List.map_cons, latest, hkey, if_true] at h
      cases hlast : latest rank key k (rest.map Prod.fst) with
      | none =>
        rw [hlast, newer_none, Option.some.injEq] at h
        subst h
        refine ⟨first.2, List.mem_cons_self, ?_⟩
        intro other hother hk
        rcases List.mem_cons.mp hother with rfl | hin
        · simp
        · obtain ⟨last, hsome, -⟩ := hlower other hin hk
          rw [hlast] at hsome
          cases hsome
      | some last =>
        rw [hlast] at h
        by_cases hlt : rank last < rank first.1
        · simp only [newer, hlt, if_true, Option.some.injEq] at h
          subst h
          refine ⟨first.2, List.mem_cons_self, ?_⟩
          intro other hother hk
          rcases List.mem_cons.mp hother with rfl | hin
          · simp
          · obtain ⟨last', hsome, hle⟩ := hlower other hin hk
            rw [hlast, Option.some.injEq] at hsome
            subst hsome
            have hbelow := hle.trans_lt hlt
            rintro (hgt | ⟨heq, -⟩)
            · exact absurd hgt (not_lt.mpr hbelow.le)
            · exact absurd heq hbelow.ne'
        · simp only [newer, hlt, if_false, Option.some.injEq] at h
          subst h
          obtain ⟨number, hmem, hfirst⟩ := ih hrest hlast
          refine ⟨number, List.mem_cons_of_mem _ hmem, ?_⟩
          intro other hother hk
          rcases List.mem_cons.mp hother with rfl | hin
          · have hnumber := habove _ hmem
            rintro (hgt | ⟨-, hless⟩)
            · exact hlt hgt
            · exact absurd hless (by omega)
          · exact hfirst other hin hk
    · simp only [List.map_cons, latest, hkey, if_false] at h
      obtain ⟨number, hmem, hfirst⟩ := ih hrest h
      refine ⟨number, List.mem_cons_of_mem _ hmem, ?_⟩
      intro other hother hk
      rcases List.mem_cons.mp hother with rfl | hin
      · exact absurd hk hkey
      · exact hfirst other hin hk

end Latest

section Tables

theorem filterMap_congr_mem {f g : K → Option R} {s : Multiset K} (h : ∀ k ∈ s, f k = g k) :
    s.filterMap f = s.filterMap g := by
  induction s using Quotient.inductionOn with
  | h l =>
    simp only [Multiset.quot_mk_to_coe, Multiset.filterMap_coe]
    exact congrArg _ (List.filterMap_congr h)

variable (key : R → Option K)

/-- A stored row, once the rows of its key have been replaced. -/
def replaced (w : K → Option R) (row : R) : R := ((key row).bind w).getD row

def keys (table : Multiset R) : Multiset K := table.filterMap key

/-- One row for each key of a set. -/
structure Choice (S : Finset K) (w : K → Option R) : Prop where
  mem : ∀ k, k ∈ S ↔ (w k).isSome = true
  keyed : ∀ k row, w k = some row → key row = some k

variable {key} {table : Multiset R} {S S' : Finset K} {w w' : K → Option R} {k : K}

theorem mem_keys {table : Multiset R} : k ∈ keys key table ↔ ∃ row ∈ table, key row = some k := by
  simp [keys]

theorem replaced_of_key {row : R} (hkey : key row = some k) :
    replaced key w row = (w k).getD row := by
  simp [replaced, hkey]

theorem key_replaced (hw : Choice key S w) (row : R) : key (replaced key w row) = key row := by
  cases hkey : key row with
  | none => simp [replaced, hkey]
  | some k =>
    rw [replaced_of_key hkey]
    cases hk : w k with
    | none => simpa using hkey
    | some row' => simpa using hw.keyed k row' hk

theorem replaced_replaced (hw : Choice key S w) (row : R) :
    replaced key w' (replaced key w row) = replaced key (fun k => (w' k).or (w k)) row := by
  cases hkey : key row with
  | none => simp [replaced, hkey]
  | some k =>
    have hkey' : key (replaced key w row) = some k := by rw [key_replaced hw, hkey]
    rw [replaced_of_key hkey', replaced_of_key hkey, replaced_of_key hkey]
    cases w' k <;> cases w k <;> rfl

variable [DecidableEq K]

/-- The bag with the chosen rows in place of, or in addition to, the stored ones. -/
def overwrite (key : R → Option K) (table : Multiset R) (S : Finset K) (w : K → Option R) :
    Multiset R :=
  table.map (replaced key w) + (S.filter (fun k => k ∉ keys key table)).val.filterMap w

/-- The chosen rows that are inserted. -/
theorem mem_inserted {row : R} :
    row ∈ (S.filter (fun k => k ∉ keys key table)).val.filterMap w ↔
      ∃ k ∈ S, k ∉ keys key table ∧ w k = some row := by
  simp [Multiset.mem_filterMap, and_assoc]

theorem mem_keys_overwrite (hw : Choice key S w) :
    k ∈ keys key (overwrite key table S w) ↔ k ∈ keys key table ∨ k ∈ S := by
  rw [mem_keys, mem_keys]
  constructor
  · rintro ⟨row, hmem, hkey⟩
    rcases Multiset.mem_add.mp hmem with hold | hnew
    · obtain ⟨old, hin, rfl⟩ := Multiset.mem_map.mp hold
      rw [key_replaced hw] at hkey
      exact .inl ⟨old, hin, hkey⟩
    · obtain ⟨k', hS, -, hrow⟩ := mem_inserted.mp hnew
      have hk' := hw.keyed k' row hrow
      rw [hkey, Option.some.injEq] at hk'
      subst hk'
      exact .inr hS
  · rintro (⟨old, hin, hkey⟩ | hS)
    · refine ⟨replaced key w old, Multiset.mem_add.mpr (.inl (Multiset.mem_map_of_mem _ hin)), ?_⟩
      rw [key_replaced hw]
      exact hkey
    · obtain ⟨row, hrow⟩ := Option.isSome_iff_exists.mp ((hw.mem k).mp hS)
      by_cases hin : k ∈ keys key table
      · obtain ⟨old, hold, hkey⟩ := mem_keys.mp hin
        refine ⟨replaced key w old, Multiset.mem_add.mpr (.inl (Multiset.mem_map_of_mem _ hold)),
          ?_⟩
        rw [key_replaced hw]
        exact hkey
      · have hnew := mem_inserted.mpr ⟨k, hS, hin, hrow⟩
        exact ⟨row, Multiset.mem_add.mpr (.inr hnew), hw.keyed k row hrow⟩

/-- What was inserted is replaced in turn. -/
theorem inserted_replaced (hw : Choice key S w) :
    ((S.filter (fun k => k ∉ keys key table)).val.filterMap w).map (replaced key w') =
      (S.filter (fun k => k ∉ keys key table)).val.filterMap (fun k => (w' k).or (w k)) := by
  rw [Multiset.map_filterMap]
  apply filterMap_congr_mem
  intro k hk
  have hS : k ∈ S := (Finset.mem_filter.mp hk).1
  obtain ⟨row, hrow⟩ := Option.isSome_iff_exists.mp ((hw.mem k).mp hS)
  rw [hrow, Option.map_some, replaced_of_key (hw.keyed k row hrow)]
  cases w' k <;> rfl

theorem overwrite_overwrite (hw : Choice key S w) (hw' : Choice key S' w') :
    overwrite key (overwrite key table S w) S' w' =
      overwrite key table (S ∪ S') (fun k => (w' k).or (w k)) := by
  have hsplit : (S ∪ S').filter (fun k => k ∉ keys key table) =
      (S.filter (fun k => k ∉ keys key table)).disjUnion
        (S'.filter (fun k => k ∉ keys key (overwrite key table S w)))
        (by
          rw [Finset.disjoint_left]
          intro k hk hk'
          rw [Finset.mem_filter] at hk hk'
          exact hk'.2 ((mem_keys_overwrite hw).mpr (.inr hk.1))) := by
    ext k
    simp only [Finset.mem_filter, Finset.mem_union, Finset.mem_disjUnion, mem_keys_overwrite hw,
      not_or]
    tauto
  have hlater : (S'.filter (fun k => k ∉ keys key (overwrite key table S w))).val.filterMap w' =
      (S'.filter (fun k => k ∉ keys key (overwrite key table S w))).val.filterMap
        (fun k => (w' k).or (w k)) := by
    apply filterMap_congr_mem
    intro k hk
    have hS : k ∈ S' := (Finset.mem_filter.mp hk).1
    obtain ⟨row, hrow⟩ := Option.isSome_iff_exists.mp ((hw'.mem k).mp hS)
    simp [hrow]
  have hmap : (overwrite key table S w).map (replaced key w') =
      table.map (replaced key (fun k => (w' k).or (w k))) +
        (S.filter (fun k => k ∉ keys key table)).val.filterMap (fun k => (w' k).or (w k)) := by
    rw [overwrite, Multiset.map_add, inserted_replaced hw, Multiset.map_map]
    congr 1
    exact Multiset.map_congr rfl (fun row _ => replaced_replaced hw row)
  have hinserted : ((S ∪ S').filter (fun k => k ∉ keys key table)).val.filterMap
        (fun k => (w' k).or (w k)) =
      (S.filter (fun k => k ∉ keys key table)).val.filterMap (fun k => (w' k).or (w k)) +
        (S'.filter (fun k => k ∉ keys key (overwrite key table S w))).val.filterMap w' := by
    rw [hsplit, hlater]
    exact Multiset.filterMap_add _ _ _
  rw [overwrite, hmap, Multiset.add_assoc, ← hinserted]
  rfl

/-- After an overwrite every row of a chosen key is the chosen one. -/
theorem eq_of_mem_overwrite (hw : Choice key S w) {row chosen : R} (hk : w k = some chosen)
    (hmem : row ∈ overwrite key table S w) (hkey : key row = some k) : row = chosen := by
  rcases Multiset.mem_add.mp hmem with hold | hnew
  · obtain ⟨old, -, rfl⟩ := Multiset.mem_map.mp hold
    rw [key_replaced hw] at hkey
    rw [replaced_of_key hkey, hk, Option.getD_some]
  · obtain ⟨k', -, -, hrow⟩ := mem_inserted.mp hnew
    have hk' := hw.keyed k' row hrow
    rw [hkey, Option.some.injEq] at hk'
    subst hk'
    rw [hk, Option.some.injEq] at hrow
    exact hrow.symm

theorem mem_overwrite (hw : Choice key S w) {chosen : R} (hk : w k = some chosen) :
    chosen ∈ overwrite key table S w := by
  have hS : k ∈ S := (hw.mem k).mpr (by simp [hk])
  have hin : k ∈ keys key (overwrite key table S w) := (mem_keys_overwrite hw).mpr (.inr hS)
  obtain ⟨row, hmem, hkey⟩ := mem_keys.mp hin
  rw [← eq_of_mem_overwrite hw hk hmem hkey]
  exact hmem

/-- Rows of a key without a chosen row stay what they are. -/
theorem mem_overwrite_of_none (hw : Choice key S w) (hk : w k = none) {row : R}
    (hkey : key row = some k) : row ∈ overwrite key table S w ↔ row ∈ table := by
  have hself : replaced key w row = row := by rw [replaced_of_key hkey, hk, Option.getD_none]
  constructor
  · intro hmem
    rcases Multiset.mem_add.mp hmem with hold | hnew
    · obtain ⟨old, hin, heq⟩ := Multiset.mem_map.mp hold
      have holdKey : key old = some k := by rw [← key_replaced hw, heq, hkey]
      rw [replaced_of_key holdKey, hk, Option.getD_none] at heq
      rwa [heq] at hin
    · obtain ⟨k', -, -, hrow⟩ := mem_inserted.mp hnew
      have hk' := hw.keyed k' row hrow
      rw [hkey, Option.some.injEq] at hk'
      rw [← hk', hk] at hrow
      cases hrow
  · intro hmem
    exact Multiset.mem_add.mpr (.inl (Multiset.mem_map.mpr ⟨row, hmem, hself⟩))

/-- Two choices for the same keys that leave the same bag are the same choice. -/
theorem choice_unique (hw : Choice key S w) (hw' : Choice key S w')
    (heq : overwrite key table S w = overwrite key table S w') : w = w' := by
  funext k
  cases hk : w k with
  | none =>
    have hS : k ∉ S := fun hS => by simpa [hk] using (hw.mem k).mp hS
    cases hk' : w' k with
    | none => rfl
    | some row => exact absurd ((hw'.mem k).mpr (by simp [hk'])) hS
  | some row =>
    have hS : k ∈ S := (hw.mem k).mpr (by simp [hk])
    obtain ⟨row', hk'⟩ := Option.isSome_iff_exists.mp ((hw'.mem k).mp hS)
    have hmem : row ∈ overwrite key table S w' := heq ▸ mem_overwrite hw hk
    rw [hk', eq_of_mem_overwrite hw' hk' hmem (hw.keyed k row hk)]

end Tables

section Upserts

variable [LinearOrder C] (key : R → Option K) (rank : R → C)

/-- A stored row of the same key ranks higher. -/
def Outranked (table : Multiset R) (row : R) : Prop :=
  ∃ old ∈ table, (key old).isSome = true ∧ key old = key row ∧ rank row < rank old

theorem outranked_iff {key : R → Option K} {rank : R → C} {table : Multiset R} {row : R} {k : K}
    (hkey : key row = some k) :
    Outranked key rank table row ↔ ∃ old ∈ table, key old = some k ∧ rank row < rank old := by
  unfold Outranked
  constructor
  · rintro ⟨old, hmem, -, heq, hlt⟩
    exact ⟨old, hmem, heq.trans hkey, hlt⟩
  · rintro ⟨old, hmem, hold, hlt⟩
    exact ⟨old, hmem, by simp [hold], by rw [hold, hkey], hlt⟩

variable [DecidableEq K]

instance (table : Multiset R) (row : R) : Decidable (Outranked key rank table row) :=
  Multiset.decidableExistsMultiset

def prune (table : Multiset R) (rows : List R) : List R :=
  rows.filter (fun row => decide (¬ Outranked key rank table row))

def keySet (rows : List R) : Finset K := (rows.filterMap key).toFinset

def upsert (table : Multiset R) (rows : List R) : Multiset R :=
  overwrite key table (keySet key (prune key rank table rows))
    (fun k => latest rank key k (prune key rank table rows))

variable {key rank} {table : Multiset R} {rows later : List R} {k : K}

theorem choice_latest (key : R → Option K) (rank : R → C) (rows : List R) :
    Choice key (keySet key rows) (fun k => latest rank key k rows) := by
  constructor
  · intro k
    rw [keySet, List.mem_toFinset, List.mem_filterMap]
    constructor
    · rintro ⟨row, hmem, hkey⟩
      obtain ⟨last, hlast, -⟩ : ∃ last, latest rank key k rows = some last ∧ rank row ≤ rank last :=
        exists_latest hmem hkey
      simp [hlast]
    · intro hsome
      obtain ⟨row, hrow⟩ := Option.isSome_iff_exists.mp hsome
      obtain ⟨hmem, hkey⟩ := latest_mem hrow
      exact ⟨row, hmem, hkey⟩
  · intro k row hrow
    exact (latest_mem hrow).2

/-- A key without a new row is stored as before. -/
theorem outranked_upsert_of_none {row : R} (hkey : key row = some k)
    (hnone : latest rank key k (prune key rank table rows) = none) :
    Outranked key rank (upsert key rank table rows) row ↔ Outranked key rank table row := by
  have hw := choice_latest key rank (prune key rank table rows)
  rw [outranked_iff hkey, outranked_iff hkey]
  constructor
  · rintro ⟨old, hmem, hold, hlt⟩
    exact ⟨old, (mem_overwrite_of_none hw hnone hold).mp hmem, hold, hlt⟩
  · rintro ⟨old, hmem, hold, hlt⟩
    exact ⟨old, (mem_overwrite_of_none hw hnone hold).mpr hmem, hold, hlt⟩

/-- A key with a new row is stored as that row only. -/
theorem outranked_upsert_of_some {row last : R} (hkey : key row = some k)
    (hlast : latest rank key k (prune key rank table rows) = some last) :
    Outranked key rank (upsert key rank table rows) row ↔ rank row < rank last := by
  have hw := choice_latest key rank (prune key rank table rows)
  rw [outranked_iff hkey]
  constructor
  · rintro ⟨old, hmem, hold, hlt⟩
    rwa [eq_of_mem_overwrite hw hlast hmem hold] at hlt
  · intro hlt
    exact ⟨last, mem_overwrite hw hlast, hw.keyed k last hlast, hlt⟩

theorem newer_some (row : R) (other : Option R) :
    newer rank (some row) other =
      (other.filter (fun later => decide (rank row ≤ rank later))).or (some row) := by
  cases other with
  | none => rfl
  | some later =>
    by_cases hlt : rank later < rank row
    · simp [newer, Option.filter, hlt, not_le.mpr hlt]
    · simp [newer, Option.filter, hlt, not_lt.mp hlt]

/-- The rows chosen by the second of two upserts, in terms of the table before both. -/
theorem latest_prune_upsert :
    (latest rank key k (prune key rank (upsert key rank table rows) later)).or
        (latest rank key k (prune key rank table rows)) =
      latest rank key k (prune key rank table (rows ++ later)) := by
  have happend : prune key rank table (rows ++ later) =
      prune key rank table rows ++ prune key rank table later := List.filter_append _ _
  rw [happend, latest_append]
  cases hfirst : latest rank key k (prune key rank table rows) with
  | none =>
    have hsame : latest rank key k (prune key rank (upsert key rank table rows) later) =
        latest rank key k (prune key rank table later) := by
      apply latest_filter_congr
      intro row hkey
      simp only [outranked_upsert_of_none hkey hfirst]
    rw [hsame]
    simp [newer]
  | some last =>
    have habove : ∀ row, key row = some k → rank last ≤ rank row →
        ¬ Outranked key rank table row := by
      intro row hkey hle hout
      obtain ⟨hmem, hlastKey⟩ := latest_mem hfirst
      have hkept := (List.mem_filter.mp hmem).2
      apply of_decide_eq_true hkept
      obtain ⟨old, hold, holdKey, hlt⟩ := (outranked_iff hkey).mp hout
      exact (outranked_iff hlastKey).mpr ⟨old, hold, holdKey, hle.trans_lt hlt⟩
    have hstored : latest rank key k (prune key rank (upsert key rank table rows) later) =
        latest rank key k (later.filter (fun row => decide (rank last ≤ rank row))) := by
      apply latest_filter_congr
      intro row hkey
      simp only [outranked_upsert_of_some hkey hfirst, not_lt]
    have hpruned : latest rank key k
          ((prune key rank table later).filter (fun row => decide (rank last ≤ rank row))) =
        latest rank key k (later.filter (fun row => decide (rank last ≤ rank row))) := by
      rw [prune, List.filter_filter]
      apply latest_filter_congr
      intro row hkey
      by_cases hle : rank last ≤ rank row
      · simp [hle, habove row hkey hle]
      · simp [hle]
    rw [newer_some, hstored, ← hpruned, latest_filter_rank]

theorem upsert_upsert :
    upsert key rank (upsert key rank table rows) later =
      upsert key rank table (rows ++ later) := by
  have hfirst := choice_latest key rank (prune key rank table rows)
  have hsecond := choice_latest key rank
    (prune key rank (upsert key rank table rows) later)
  have hboth := choice_latest key rank
    (prune key rank table (rows ++ later))
  have hrows : (fun k => (latest rank key k
        (prune key rank (upsert key rank table rows) later)).or
        (latest rank key k (prune key rank table rows))) =
      fun k => latest rank key k (prune key rank table (rows ++ later)) :=
    funext fun k => latest_prune_upsert
  have hkeys : keySet key (prune key rank table rows) ∪
        keySet key (prune key rank (upsert key rank table rows) later) =
      keySet key (prune key rank table (rows ++ later)) := by
    ext k
    rw [Finset.mem_union, hfirst.mem, hsecond.mem, hboth.mem, ← congrFun hrows k,
      Option.isSome_or, Bool.or_eq_true]
    exact or_comm
  calc upsert key rank (upsert key rank table rows) later
      = overwrite key table (keySet key (prune key rank table rows) ∪
            keySet key (prune key rank (upsert key rank table rows) later))
          (fun k => (latest rank key k (prune key rank (upsert key rank table rows) later)).or
            (latest rank key k (prune key rank table rows))) :=
        overwrite_overwrite hfirst hsecond
    _ = upsert key rank table (rows ++ later) := by rw [hkeys, hrows]; rfl

@[simp] theorem upsert_nil : upsert key rank table [] = table := by
  have hsame : ∀ row, replaced key (fun k => latest rank key k ([] : List R)) row = row := by
    intro row
    cases hkey : key row <;> simp [replaced, hkey, latest]
  simp [upsert, overwrite, prune, keySet, hsame]

/-- Streams of the same rows are upserted alike exactly if they agree on the latest rows. -/
theorem upsert_eq_iff (hsame : ∀ row, row ∈ rows ↔ row ∈ later) :
    upsert key rank table rows = upsert key rank table later ↔
      ∀ k, latest rank key k (prune key rank table rows) =
        latest rank key k (prune key rank table later) := by
  have hkeys : keySet key (prune key rank table rows) = keySet key (prune key rank table later) := by
    ext k
    simp only [keySet, prune, List.mem_toFinset, List.mem_filterMap, List.mem_filter, hsame]
  have hfirst := choice_latest key rank (prune key rank table rows)
  have hsecond := choice_latest key rank (prune key rank table later)
  constructor
  · intro heq k
    rw [← hkeys] at hsecond
    have hunique := choice_unique hfirst hsecond (heq.trans (by rw [upsert, hkeys]))
    exact congrFun hunique k
  · intro h
    rw [upsert, upsert, hkeys, funext h]

end Upserts

end KeyedUpsert
