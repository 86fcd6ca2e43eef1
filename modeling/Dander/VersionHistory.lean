import Dander.KeyedMerge
import Mathlib.Data.List.Chain

/-!
# Versions of keyed rows

A table keeps versions of rows, each valid from one time to another, and one of each key current.
It advances by closing the current versions that differ from the incoming rows of their keys, and
opening versions of the incoming rows whose keys have no current one. Each key's versions then stay
one contiguous history that ends with the current version.
-/
namespace VersionHistory

open KeyedUpsert

variable {R K T : Type}

structure Version (R T : Type) where
  row : R
  validFrom : T
  validTo : Option T
  isCurrent : Bool
  deriving DecidableEq

def Version.close (version : Version R T) (now : T) : Version R T :=
  { version with validTo := some now, isCurrent := false }

def Version.opened (now : T) (row : R) : Version R T := ⟨row, now, none, true⟩

@[simp] theorem close_isCurrent (version : Version R T) (now : T) :
    (version.close now).isCurrent = false := rfl

@[simp] theorem opened_row (now : T) (row : R) : (Version.opened now row).row = row := rfl

/-- The next version begins where one ends, and later than that one began. -/
def Follows [LT T] (version next : Version R T) : Prop :=
  version.validTo = some next.validFrom ∧ version.validFrom < next.validFrom

/-- Versions in their order: one begins where the one before ends, and the last one is the only
current one and has no end. -/
structure History [LT T] (versions : List (Version R T)) : Prop where
  contiguous : versions.IsChain Follows
  current : ∃ closed last, versions = closed ++ [last] ∧
    (∀ version ∈ closed, version.isCurrent = false) ∧ last.isCurrent = true ∧ last.validTo = none

section Histories

variable [LinearOrder T] {closed : List (Version R T)} {last : Version R T} {now : T} {new : R}

theorem history_opened : History [Version.opened now new] where
  contiguous := List.IsChain.singleton _
  current := ⟨[], Version.opened now new, rfl, by simp, rfl, rfl⟩

/-- A history continues with a version opened when its last one is closed. -/
theorem History.advance (hhistory : History (closed ++ [last]))
    (hclosed : ∀ version ∈ closed, version.isCurrent = false) (hlt : last.validFrom < now) :
    History (closed ++ [last.close now] ++ [Version.opened now new]) := by
  have hchain := List.isChain_append.mp hhistory.contiguous
  constructor
  · rw [List.append_assoc, List.isChain_append]
    refine ⟨hchain.1, ?_, ?_⟩
    · exact List.isChain_pair.mpr ⟨rfl, hlt⟩
    · intro before hbefore after hafter
      obtain rfl : last.close now = after := by simpa using hafter
      exact hchain.2.2 before hbefore last (by simp)
  · refine ⟨closed ++ [last.close now], Version.opened now new, rfl, ?_, rfl, rfl⟩
    intro version hversion
    rcases List.mem_append.mp hversion with hin | hin
    · exact hclosed version hin
    · rw [List.mem_singleton.mp hin, close_isCurrent]

end Histories

section Tables

variable [DecidableEq K] (key : R → Option K)

/-- The versions of one key. -/
def versions (k : K) (table : Multiset (Version R T)) : Multiset (Version R T) :=
  table.filter fun version => key version.row = some k

/-- The rows of a key's current versions. -/
def currentRows (k : K) (table : Multiset (Version R T)) : Multiset R :=
  ((versions key k table).filter fun version => version.isCurrent = true).map Version.row

/-- Every key's versions, if it has any, are a history. -/
def WellFormed [LT T] (table : Multiset (Version R T)) : Prop :=
  ∀ k, versions key k table = 0 ∨
    ∃ history, versions key k table = Multiset.ofList history ∧ History history

variable [DecidableEq R]

/-- `UPDATE ... SET valid_to, is_current` of the current versions with a different incoming row. -/
def closeChanged (now : T) (incoming : List R) (table : Multiset (Version R T)) :
    Multiset (Version R T) :=
  table.map fun version =>
    if version.isCurrent && incoming.any (fun new =>
        sameKey key version.row new && decide (version.row ≠ new)) then version.close now
    else version

/-- `INSERT ... WHERE NOT EXISTS` a current version of the key. -/
def insertMissing (now : T) (incoming : List R) (table : Multiset (Version R T)) :
    Multiset (Version R T) :=
  table + (Multiset.ofList (incoming.filter fun new => decide (∀ version ∈ table,
    (version.isCurrent && sameKey key version.row new) = false))).map (Version.opened now)

def advance (now : T) (incoming : List R) (table : Multiset (Version R T)) :
    Multiset (Version R T) :=
  insertMissing key now incoming (closeChanged key now incoming table)

/-- A version of a key, when `new` is the key's incoming row. -/
def replacedBy (now : T) (new : R) (version : Version R T) : Version R T :=
  if version.isCurrent && decide (version.row ≠ new) then version.close now else version

variable {key} {now : T} {incoming : List R} {w : K → Option R} {k : K} {new : R}
  {table : Multiset (Version R T)}

@[simp] theorem replacedBy_row (version : Version R T) :
    (replacedBy now new version).row = version.row := by
  unfold replacedBy
  split <;> rfl

omit [DecidableEq R] in
theorem mem_versions {version : Version R T} :
    version ∈ versions key k table ↔ version ∈ table ∧ key version.row = some k :=
  Multiset.mem_filter

theorem any_changed (hlists : Lists key incoming w) {version : Version R T}
    (hkey : key version.row = some k) :
    incoming.any (fun new => sameKey key version.row new && decide (version.row ≠ new)) =
      (w k).any fun new => decide (version.row ≠ new) := by
  rw [Bool.eq_iff_iff, List.any_eq_true]
  constructor
  · rintro ⟨new, hnew, hchanged⟩
    rw [Bool.and_eq_true, sameKey_of_key hkey] at hchanged
    obtain ⟨k', hk', hchosen⟩ := hlists.key_of_mem hnew
    rw [hchanged.1, Option.some.injEq] at hk'
    subst hk'
    simpa [hchosen] using hchanged.2
  · intro hchanged
    cases hchosen : w k with
    | none => simp [hchosen] at hchanged
    | some new =>
      refine ⟨new, (hlists.mem new).mpr ⟨k, hchosen⟩, ?_⟩
      rw [Bool.and_eq_true, sameKey_of_key hkey]
      exact ⟨hlists.keyed k new hchosen, by simpa [hchosen] using hchanged⟩

/-- What closing makes of the versions of a key. -/
theorem versions_closeChanged (hlists : Lists key incoming w) :
    versions key k (closeChanged key now incoming table) =
      match w k with
      | some new => (versions key k table).map (replacedBy now new)
      | none => versions key k table := by
  have hfilter : versions key k (closeChanged key now incoming table) =
      (versions key k table).map fun version =>
        if version.isCurrent && incoming.any (fun new =>
          sameKey key version.row new && decide (version.row ≠ new)) then version.close now
        else version := by
    unfold versions closeChanged
    rw [Multiset.filter_map]
    congr 1
    apply Multiset.filter_congr
    intro version _
    rw [Function.comp_apply]
    split <;> rfl
  rw [hfilter]
  cases hchosen : w k with
  | none =>
    conv_rhs => rw [← Multiset.map_id (versions key k table)]
    refine Multiset.map_congr rfl ?_
    intro version hversion
    rw [any_changed hlists (mem_versions.mp hversion).2, hchosen, Option.any_none, Bool.and_false]
    rfl
  | some new =>
    refine Multiset.map_congr rfl ?_
    intro version hversion
    rw [any_changed hlists (mem_versions.mp hversion).2, hchosen]
    rfl

omit [DecidableEq R] in
/-- The incoming rows of a key. -/
theorem filter_key (hlists : Lists key incoming w) :
    (Multiset.ofList incoming).filter (fun row => key row = some k) =
      match w k with
      | some new => {new}
      | none => 0 := by
  cases hchosen : w k with
  | none =>
    rw [Multiset.filter_eq_nil]
    intro row hrow hkey
    obtain ⟨k', hk', hrow'⟩ := hlists.key_of_mem (Multiset.mem_coe.mp hrow)
    rw [hkey, Option.some.injEq] at hk'
    subst hk'
    rw [hchosen] at hrow'
    cases hrow'
  | some new =>
    refine (Multiset.Nodup.ext ?_ (Multiset.nodup_singleton new)).mpr ?_
    · exact (Multiset.coe_nodup.mpr hlists.nodup).filter _
    · intro row
      rw [Multiset.mem_filter, Multiset.mem_coe, Multiset.mem_singleton]
      constructor
      · rintro ⟨hrow, hkey⟩
        obtain ⟨k', hk', hrow'⟩ := hlists.key_of_mem hrow
        rw [hkey, Option.some.injEq] at hk'
        subst hk'
        rw [hchosen, Option.some.injEq] at hrow'
        exact hrow'.symm
      · rintro rfl
        exact ⟨(hlists.mem row).mpr ⟨k, hchosen⟩, hlists.keyed k row hchosen⟩

omit [DecidableEq R] in
/-- What inserting adds to the versions of a key. -/
theorem versions_insertMissing (hlists : Lists key incoming w) :
    versions key k (insertMissing key now incoming table) =
      versions key k table +
        match w k with
        | some new => if ∀ version ∈ versions key k table, version.isCurrent = false then
            {Version.opened now new} else 0
        | none => 0 := by
  unfold versions insertMissing
  rw [Multiset.filter_add, Multiset.filter_map, ← Multiset.filter_coe]
  congr 1
  have hincoming : ∀ (p : R → Prop) [DecidablePred p],
      ((Multiset.ofList incoming).filter p).filter
          ((fun version : Version R T => key version.row = some k) ∘ Version.opened now) =
        ((Multiset.ofList incoming).filter (fun row => key row = some k)).filter p := by
    intro p _
    rw [Multiset.filter_filter, Multiset.filter_filter]
    apply Multiset.filter_congr
    intro row _
    exact and_comm
  rw [hincoming, filter_key hlists]
  cases hchosen : w k with
  | none => rfl
  | some new =>
    have hmissing : (∀ version ∈ table, (version.isCurrent && sameKey key version.row new) = false) ↔
        ∀ version ∈ table.filter (fun version => key version.row = some k),
          version.isCurrent = false := by
      have hnew := hlists.keyed k new hchosen
      constructor
      · intro hall version hversion
        obtain ⟨hin, hkey⟩ := Multiset.mem_filter.mp hversion
        have hfalse := hall version hin
        rwa [(sameKey_of_key hkey).mpr hnew, Bool.and_true] at hfalse
      · intro hall version hin
        apply Bool.eq_false_of_not_eq_true
        rw [Bool.and_eq_true, sameKey_iff]
        rintro ⟨hcurrent, k', hkey, hk'⟩
        rw [hnew, Option.some.injEq] at hk'
        subst hk'
        rw [hall version (Multiset.mem_filter.mpr ⟨hin, hkey⟩)] at hcurrent
        cases hcurrent
    simp only [Multiset.filter_singleton, hmissing]
    split <;> rfl

/-- A key without an incoming row keeps its versions. -/
theorem versions_advance_of_none (hlists : Lists key incoming w) (hchosen : w k = none) :
    versions key k (advance key now incoming table) = versions key k table := by
  unfold advance
  rw [versions_insertMissing hlists, versions_closeChanged hlists, hchosen, Multiset.add_zero]

theorem versions_advance_of_some (hlists : Lists key incoming w) (hchosen : w k = some new) :
    versions key k (advance key now incoming table) =
      (versions key k table).map (replacedBy now new) +
        if ∀ version ∈ (versions key k table).map (replacedBy now new), version.isCurrent = false then
          {Version.opened now new} else 0 := by
  unfold advance
  rw [versions_insertMissing hlists, versions_closeChanged hlists, hchosen]

omit [DecidableEq R] in
theorem current_of_history {closed : List (Version R T)} {last : Version R T}
    (hversions : versions key k table = Multiset.ofList (closed ++ [last]))
    (hclosed : ∀ version ∈ closed, version.isCurrent = false) (hlast : last.isCurrent = true) :
    (versions key k table).filter (fun version => version.isCurrent = true) = {last} := by
  have hnone : closed.filter (fun version => decide (version.isCurrent = true)) = [] := by
    rw [List.filter_eq_nil_iff]
    intro version hversion
    simp [hclosed version hversion]
  rw [hversions, Multiset.filter_coe, List.filter_append, hnone]
  simp [hlast]

omit [DecidableEq R] in
theorem currentRows_of_history {closed : List (Version R T)} {last : Version R T}
    (hversions : versions key k table = Multiset.ofList (closed ++ [last]))
    (hclosed : ∀ version ∈ closed, version.isCurrent = false) (hlast : last.isCurrent = true) :
    currentRows key k table = {last.row} := by
  rw [currentRows, current_of_history hversions hclosed hlast, Multiset.map_singleton]

omit [DecidableEq R] in
/-- A key has at most one current version. -/
theorem current_of_wellFormed [LT T] (hwf : WellFormed key table) (k : K) :
    (versions key k table).filter (fun version => version.isCurrent = true) = 0 ∨
      ∃ last, (versions key k table).filter (fun version => version.isCurrent = true) = {last} := by
  rcases hwf k with hempty | ⟨history, hsame, hhistory⟩
  · exact .inl (by rw [hempty, Multiset.filter_zero])
  · obtain ⟨closed, last, rfl, hclosed, hlast, -⟩ := hhistory.current
    exact .inr ⟨last, current_of_history hsame hclosed hlast⟩

/-- The versions of a key with an incoming row are a history again, and end with that row. -/
theorem history_advance [LinearOrder T] (hlists : Lists key incoming w) (hchosen : w k = some new)
    (hbefore : versions key k table = 0 ∨
      ∃ history, versions key k table = Multiset.ofList history ∧ History history)
    (hlt : ∀ version ∈ table, version.validFrom < now) :
    (∃ history, versions key k (advance key now incoming table) = Multiset.ofList history ∧
        History history) ∧
      currentRows key k (advance key now incoming table) = {new} := by
  have hversions : versions key k (advance key now incoming table) = _ :=
    versions_advance_of_some hlists hchosen
  rcases hbefore with hempty | ⟨history, hsame, hhistory⟩
  · have hopened : versions key k (advance key now incoming table) =
        Multiset.ofList ([] ++ [Version.opened now new]) := by
      simpa [hempty] using hversions
    exact ⟨⟨_, hopened, history_opened⟩, currentRows_of_history hopened (by simp) rfl⟩
  · obtain ⟨closed, last, rfl, hclosed, hlast, hend⟩ := hhistory.current
    have hkept : closed.map (replacedBy now new) = closed := by
      conv_rhs => rw [← List.map_id closed]
      refine List.map_congr_left ?_
      intro version hversion
      simp [replacedBy, hclosed version hversion]
    rw [hsame, Multiset.map_coe, List.map_append, hkept, List.map_singleton] at hversions
    by_cases hrow : last.row = new
    · have hself : replacedBy now new last = last := by simp [replacedBy, hrow]
      have hnotall : ¬ ∀ version ∈ Multiset.ofList (closed ++ [last]),
          version.isCurrent = false := by
        intro hall
        have hfalse := hall last (Multiset.mem_coe.mpr (by simp))
        rw [hlast] at hfalse
        cases hfalse
      rw [hself, if_neg hnotall, Multiset.add_zero] at hversions
      refine ⟨⟨_, hversions, hhistory⟩, ?_⟩
      rw [currentRows_of_history hversions hclosed hlast, hrow]
    · have hself : replacedBy now new last = last.close now := by simp [replacedBy, hrow, hlast]
      have hall : ∀ version ∈ closed ++ [last.close now], version.isCurrent = false := by
        intro version hversion
        rcases List.mem_append.mp hversion with hin | hin
        · exact hclosed version hin
        · rw [List.mem_singleton.mp hin, close_isCurrent]
      have hallCoe : ∀ version ∈ Multiset.ofList (closed ++ [last.close now]),
          version.isCurrent = false := fun version hversion => hall version (Multiset.mem_coe.mp hversion)
      rw [hself, if_pos hallCoe, ← Multiset.coe_singleton, Multiset.coe_add] at hversions
      have hlastIn : last ∈ versions key k table := by
        rw [hsame]
        exact Multiset.mem_coe.mpr (by simp)
      have hadvanced : History (closed ++ [last.close now] ++ [Version.opened now new]) :=
        hhistory.advance hclosed (hlt last (mem_versions.mp hlastIn).1)
      exact ⟨⟨_, hversions, hadvanced⟩, currentRows_of_history hversions hall rfl⟩

theorem wellFormed_advance [LinearOrder T] (hlists : Lists key incoming w)
    (hbefore : WellFormed key table) (hlt : ∀ version ∈ table, version.validFrom < now) :
    WellFormed key (advance key now incoming table) := by
  intro k
  cases hchosen : w k with
  | none =>
    rw [versions_advance_of_none hlists hchosen]
    exact hbefore k
  | some new => exact .inr (history_advance hlists hchosen (hbefore k) hlt).1

/-- New versions begin now. -/
theorem validFrom_advance {version : Version R T}
    (hversion : version ∈ advance key now incoming table) :
    version.validFrom = now ∨ ∃ before ∈ table, version.validFrom = before.validFrom := by
  rcases Multiset.mem_add.mp hversion with hstored | hopened
  · obtain ⟨before, hbefore, rfl⟩ := Multiset.mem_map.mp hstored
    refine .inr ⟨before, hbefore, ?_⟩
    split <;> rfl
  · obtain ⟨row, -, rfl⟩ := Multiset.mem_map.mp hopened
    exact .inl rfl

/-- Versions of keys without an incoming row, and of no key, are as before. -/
theorem filter_advance (hlists : Lists key incoming w) :
    (advance key now incoming table).filter (fun version => (key version.row).bind w = none) =
      table.filter (fun version => (key version.row).bind w = none) := by
  have hsame : ∀ version : Version R T, (key version.row).bind w = none →
      incoming.any (fun new => sameKey key version.row new && decide (version.row ≠ new)) =
        false := by
    intro version hnone
    cases hkey : key version.row with
    | none => simp [sameKey_of_none hkey]
    | some k =>
      rw [hkey, Option.bind_some] at hnone
      rw [any_changed hlists hkey, hnone, Option.any_none]
  unfold advance insertMissing closeChanged
  rw [Multiset.filter_add, Multiset.filter_map, Multiset.filter_map]
  have hinserted : ∀ rows : List R, (∀ row ∈ rows, row ∈ incoming) →
      (Multiset.ofList rows).filter ((fun version : Version R T =>
        (key version.row).bind w = none) ∘ Version.opened now) = 0 := by
    intro rows hrows
    rw [Multiset.filter_eq_nil]
    intro row hrow hnone
    obtain ⟨k, hkey, hchosen⟩ := hlists.key_of_mem (hrows row (Multiset.mem_coe.mp hrow))
    simp [hkey, hchosen] at hnone
  rw [hinserted _ (fun row hrow => (List.mem_filter.mp hrow).1), Multiset.map_zero,
    Multiset.add_zero]
  have hfilter : table.filter ((fun version : Version R T => (key version.row).bind w = none) ∘
      fun version => if version.isCurrent && incoming.any (fun new =>
        sameKey key version.row new && decide (version.row ≠ new)) then version.close now
      else version) = table.filter (fun version => (key version.row).bind w = none) := by
    apply Multiset.filter_congr
    intro version _
    rw [Function.comp_apply]
    split <;> rfl
  rw [hfilter]
  conv_rhs => rw [← Multiset.map_id (table.filter _)]
  refine Multiset.map_congr rfl ?_
  intro version hversion
  rw [hsame version (Multiset.mem_filter.mp hversion).2, Bool.and_false]
  rfl

/-- Closed versions stay. -/
theorem closed_le_advance :
    table.filter (fun version => version.isCurrent = false) ≤
      advance key now incoming table := by
  have hself : (table.filter fun version => version.isCurrent = false).map (fun version =>
      if version.isCurrent && incoming.any (fun new =>
        sameKey key version.row new && decide (version.row ≠ new)) then version.close now
      else version) = table.filter fun version => version.isCurrent = false := by
    conv_rhs => rw [← Multiset.map_id (table.filter _)]
    refine Multiset.map_congr rfl ?_
    intro version hversion
    simp [(Multiset.mem_filter.mp hversion).2]
  refine le_trans ?_ (Multiset.le_add_right _ _)
  rw [← hself]
  exact Multiset.map_le_map (Multiset.filter_le _ _)

omit [DecidableEq R] in
theorem mem_of_currentRows (h : currentRows key k table = {new}) :
    ∃ version ∈ table, version.isCurrent = true ∧ version.row = new ∧ key version.row = some k := by
  have hmem : new ∈ currentRows key k table := by
    rw [h]
    exact Multiset.mem_singleton_self new
  obtain ⟨version, hversion, hrow⟩ := Multiset.mem_map.mp hmem
  obtain ⟨hin, hcurrent⟩ := Multiset.mem_filter.mp hversion
  exact ⟨version, (mem_versions.mp hin).1, hcurrent, hrow, (mem_versions.mp hin).2⟩

/-- Where every incoming row is its key's current row, nothing changes. -/
theorem advance_of_current (hlists : Lists key incoming w)
    (hcurrent : ∀ k new, w k = some new → currentRows key k table = {new}) :
    advance key now incoming table = table := by
  have hclose : closeChanged key now incoming table = table := by
    unfold closeChanged
    conv_rhs => rw [← Multiset.map_id table]
    refine Multiset.map_congr rfl ?_
    intro version hversion
    cases hcase : version.isCurrent with
    | false => rfl
    | true =>
      cases hkey : key version.row with
      | none => simp [sameKey_of_none hkey]
      | some k =>
        rw [any_changed hlists hkey]
        cases hchosen : w k with
        | none => rfl
        | some new =>
          have hrow : version.row ∈ currentRows key k table :=
            Multiset.mem_map_of_mem _
              (Multiset.mem_filter.mpr ⟨mem_versions.mpr ⟨hversion, hkey⟩, hcase⟩)
          rw [hcurrent k new hchosen, Multiset.mem_singleton] at hrow
          simp [hrow]
  have hmissing : incoming.filter (fun new => decide (∀ version ∈ table,
      (version.isCurrent && sameKey key version.row new) = false)) = [] := by
    rw [List.filter_eq_nil_iff]
    intro new hnew
    obtain ⟨k, hk, hchosen⟩ := hlists.key_of_mem hnew
    obtain ⟨version, hin, hcase, -, hkey⟩ := mem_of_currentRows (hcurrent k new hchosen)
    rw [decide_eq_true_eq]
    intro hall
    have hfalse := hall version hin
    rw [hcase, (sameKey_of_key hkey).mpr hk] at hfalse
    cases hfalse
  unfold advance insertMissing
  rw [hclose, hmissing]
  simp

end Tables

end VersionHistory
