import Dander.Scd2Writers

/-!
# What SCD2 statements mean

The statements of all four warehouses advance the versions by the rows they take in. BigQuery's do
so while every key has at most one current version.
-/
namespace Dander.Scd2

open KeyedUpsert VersionHistory
open Redshift (Row keysMatch keysMatch_eq_sameKey keyOf keyOf_field)

section Statements

variable {n : ℕ} {V : Type} [LinearOrder V] {businessKey : List (Fin n)}
  {different : Option V → Option V → Bool} {effectiveAt : ℤ} {incoming : List (Row n V)}
  {table : Versions n V} {w : List V → Option (Row n V)}

/-- Of rows with one key a column outside the key differs exactly if the rows do. -/
theorem changed_eq (hdifferent : ∀ a b, different a b = decide (a ≠ b)) {row new : Row n V}
    (hsame : sameKey (keyOf businessKey) row new = true) :
    changed businessKey different row new = decide (row ≠ new) := by
  obtain ⟨k, hrow, hnew⟩ := sameKey_iff.mp hsame
  unfold changed
  rw [decide_eq_decide]
  constructor
  · rintro ⟨field, -, hfield⟩ rfl
    rw [hdifferent, decide_eq_true_eq] at hfield
    exact hfield rfl
  · intro hne
    by_contra hnone
    push Not at hnone
    apply hne
    funext field
    by_cases hfield : field ∈ businessKey
    · exact keyOf_field hrow hnew hfield
    · have heq := hnone field hfield
      rw [hdifferent] at heq
      simpa using heq

theorem closeStatement_eq (hdifferent : ∀ a b, different a b = decide (a ≠ b)) :
    closeStatement businessKey different effectiveAt incoming table =
      closeChanged (keyOf businessKey) effectiveAt incoming table := by
  have hany : ∀ row : Row n V, incoming.any (fun new => keysMatch businessKey row new &&
      changed businessKey different row new) = incoming.any (fun new =>
        sameKey (keyOf businessKey) row new && decide (row ≠ new)) := by
    intro row
    congr 1
    funext new
    rw [keysMatch_eq_sameKey]
    cases hsame : sameKey (keyOf businessKey) row new with
    | false => rfl
    | true => rw [changed_eq hdifferent hsame]
  unfold closeStatement closeChanged
  simp only [hany]

theorem scd2Statements_eq (hdifferent : ∀ a b, different a b = decide (a ≠ b)) :
    scd2Statements businessKey different effectiveAt incoming table =
      advance (keyOf businessKey) effectiveAt incoming table := by
  unfold scd2Statements advance insertStatement insertMissing
  rw [closeStatement_eq hdifferent]
  simp only [keysMatch_eq_sameKey, Bool.and_comm]

/-- Current versions of one key are one version. -/
theorem current_unique (hwf : WellFormed (keyOf businessKey) table)
    {version other : Version (Row n V) ℤ} {new : Row n V} (hversion : version ∈ table)
    (hother : other ∈ table) (hcurrent : version.isCurrent = true)
    (hcurrent' : other.isCurrent = true)
    (hsame : sameKey (keyOf businessKey) version.row new = true)
    (hsame' : sameKey (keyOf businessKey) other.row new = true) : version = other := by
  obtain ⟨k, hkey, hnew⟩ := sameKey_iff.mp hsame
  rw [sameKey_comm, sameKey_of_key hnew] at hsame'
  have hin : version ∈ (versions (keyOf businessKey) k table).filter
      (fun v => v.isCurrent = true) :=
    Multiset.mem_filter.mpr ⟨mem_versions.mpr ⟨hversion, hkey⟩, hcurrent⟩
  have hin' : other ∈ (versions (keyOf businessKey) k table).filter
      (fun v => v.isCurrent = true) :=
    Multiset.mem_filter.mpr ⟨mem_versions.mpr ⟨hother, hsame'⟩, hcurrent'⟩
  rcases current_of_wellFormed hwf k with hnone | ⟨last, hlast⟩
  · rw [hnone] at hin
    cases hin
  · rw [hlast, Multiset.mem_singleton] at hin hin'
    rw [hin, hin']

end Statements

section Bigquery

variable {n : ℕ} {V : Type} [LinearOrder V] {businessKey : List (Fin n)}
  {toJsonString : Option V → String} {effectiveAt : ℤ} {source : List (Row n V)}
  {table : Versions n V} {w : List V → Option (Row n V)}

/-- No current version of the row's key has the row. -/
def NotCurrent (businessKey : List (Fin n)) (table : Versions n V) (new : Row n V) : Prop :=
  ∀ version ∈ table, (version.isCurrent && sameKey (keyOf businessKey) version.row new) = true →
    version.row ≠ new

instance (new : Row n V) : Decidable (NotCurrent businessKey table new) :=
  Multiset.decidableForallMultiset

theorem bind_ite {α : Type} (s : Multiset α) (p : α → Prop) [DecidablePred p] :
    (s.bind fun a => if p a then {a} else 0) = s.filter p := by
  induction s using Multiset.induction_on with
  | empty => rfl
  | cons a s ih =>
    rw [Multiset.cons_bind, ih]
    by_cases ha : p a
    · rw [if_pos ha, Multiset.filter_cons_of_pos _ ha, Multiset.singleton_add]
    · rw [if_neg ha, Multiset.filter_cons_of_neg _ ha, Multiset.zero_add]

/-- With one current version for each key, the temporary table has the rows that are not
current. -/
theorem changedRows_eq (hjson : Function.Injective toJsonString)
    (hwf : WellFormed (keyOf businessKey) table)
    (hlists : Lists (keyOf businessKey) source w) :
    Bigquery.changedRows businessKey toJsonString source table =
      (Multiset.ofList source).filter (NotCurrent businessKey table) := by
  rw [← bind_ite]
  refine Multiset.bind_congr ?_
  intro new hnew
  obtain ⟨k, hkey, -⟩ := hlists.key_of_mem (Multiset.mem_coe.mp hnew)
  have hdifferent : ∀ a b, Bigquery.jsonDistinct toJsonString a b = decide (a ≠ b) := by
    intro a b
    simp [Bigquery.jsonDistinct, hjson.eq_iff]
  have hmatched : (table.filter fun target =>
      (keysMatch businessKey target.row new && target.isCurrent) = true) =
        (versions (keyOf businessKey) k table).filter (fun target => target.isCurrent = true) := by
    unfold versions
    rw [Multiset.filter_filter]
    apply Multiset.filter_congr
    intro target _
    rw [keysMatch_eq_sameKey, Bool.and_eq_true, sameKey_comm, sameKey_of_key hkey]
    exact and_comm
  have hcurrent : ∀ version, version ∈ table ∧ (version.isCurrent &&
      sameKey (keyOf businessKey) version.row new) = true ↔
        version ∈ (versions (keyOf businessKey) k table).filter (fun v => v.isCurrent = true) := by
    intro version
    rw [Multiset.mem_filter, mem_versions, Bool.and_eq_true, sameKey_comm, sameKey_of_key hkey]
    tauto
  rw [hmatched]
  rcases current_of_wellFormed hwf k with hnone | ⟨last, hlast⟩
  · rw [hnone] at hcurrent ⊢
    have hnot : NotCurrent businessKey table new := by
      intro version hversion hcase
      exact absurd ((hcurrent version).mp ⟨hversion, hcase⟩) (Multiset.notMem_zero _)
    rw [if_pos Multiset.card_zero, if_pos hnot]
  · rw [hlast] at hcurrent ⊢
    obtain ⟨hin, hcase⟩ := (hcurrent last).mpr (Multiset.mem_singleton_self last)
    have hsame : sameKey (keyOf businessKey) last.row new = true := by
      simp only [Bool.and_eq_true] at hcase
      exact hcase.2
    have hiff : NotCurrent businessKey table new ↔ last.row ≠ new := by
      constructor
      · intro hnot
        exact hnot last hin hcase
      · intro hne version hversion hversionCase
        have heq := (hcurrent version).mp ⟨hversion, hversionCase⟩
        rw [Multiset.mem_singleton.mp heq]
        exact hne
    rw [if_neg (by simp), Multiset.filter_singleton, changed_eq hdifferent hsame]
    by_cases hne : last.row ≠ new
    · rw [if_pos (decide_eq_true hne), if_pos (hiff.mpr hne), Multiset.map_singleton]
    · rw [if_neg (by simpa using hne), if_neg (fun hnot => hne (hiff.mp hnot))]
      rfl

/-- The script closes what differs and inserts what is not current, as the others do. -/
theorem bigquery_scd2Sql_eq (hjson : Function.Injective toJsonString)
    (hwf : WellFormed (keyOf businessKey) table) (hlists : Lists (keyOf businessKey) source w) :
    Bigquery.scd2Sql businessKey toJsonString effectiveAt source table =
      advance (keyOf businessKey) effectiveAt source table := by
  have hclose : ∀ target ∈ table, (target.isCurrent && decide (¬ ∀ row ∈
      (Multiset.ofList source).filter (NotCurrent businessKey table),
        keysMatch businessKey target.row row = false)) =
        (target.isCurrent && source.any (fun new =>
          sameKey (keyOf businessKey) target.row new && decide (target.row ≠ new))) := by
    intro target htarget
    cases hcurrent : target.isCurrent with
    | false => rfl
    | true =>
      rw [Bool.true_and, Bool.true_and, Bool.eq_iff_iff, decide_eq_true_eq, List.any_eq_true]
      push Not
      simp only [Multiset.mem_filter, Multiset.mem_coe, Bool.and_eq_true, decide_eq_true_eq,
        keysMatch_eq_sameKey, ne_eq, Bool.not_eq_false]
      constructor
      · rintro ⟨new, ⟨hnew, hnot⟩, hsame⟩
        exact ⟨new, hnew, hsame, hnot target htarget (by rw [hcurrent, hsame]; rfl)⟩
      · rintro ⟨new, hnew, hsame, hne⟩
        refine ⟨new, ⟨hnew, ?_⟩, hsame⟩
        intro version hversion hcase
        rw [Bool.and_eq_true] at hcase
        rw [current_unique hwf hversion htarget hcase.1 hcurrent hcase.2 hsame]
        exact hne
  have hinsert : (Multiset.ofList source).filter (NotCurrent businessKey table) =
      Multiset.ofList (source.filter fun new => decide (∀ version ∈
        closeChanged (keyOf businessKey) effectiveAt source table,
          (version.isCurrent && sameKey (keyOf businessKey) version.row new) = false)) := by
    rw [Multiset.filter_coe]
    congr 1
    apply List.filter_congr
    intro new hnew
    obtain ⟨k, hkey, hchosen⟩ := hlists.key_of_mem hnew
    rw [decide_eq_decide]
    unfold closeChanged
    constructor
    · intro hnot version hversion
      obtain ⟨target, htarget, rfl⟩ := Multiset.mem_map.mp hversion
      apply Bool.eq_false_of_not_eq_true
      intro hcase
      by_cases hclosed : (target.isCurrent && source.any (fun new =>
          sameKey (keyOf businessKey) target.row new && decide (target.row ≠ new))) = true
      · rw [if_pos hclosed] at hcase
        cases hcase
      · rw [if_neg hclosed] at hcase
        have hcurrent := hcase
        rw [Bool.and_eq_true] at hcurrent
        apply hclosed
        rw [hcurrent.1, Bool.true_and, List.any_eq_true]
        exact ⟨new, hnew, by rw [hcurrent.2, decide_eq_true (hnot target htarget hcase)]; rfl⟩
    · intro hall version hversion hcase heq
      have hunchanged : source.any (fun new =>
          sameKey (keyOf businessKey) version.row new && decide (version.row ≠ new)) = false := by
        rw [any_changed hlists (heq ▸ hkey), hchosen, Option.any_some, heq]
        simp
      have hfalse := hall version (Multiset.mem_map.mpr ⟨version, hversion, by
        rw [hunchanged, Bool.and_false]; rfl⟩)
      rw [hcase] at hfalse
      cases hfalse
  unfold Bigquery.scd2Sql advance insertMissing
  simp only [changedRows_eq hjson hwf hlists]
  congr 1
  · refine Multiset.map_congr rfl ?_
    intro target htarget
    rw [hclose target htarget]
  · rw [hinsert]

end Bigquery

end Dander.Scd2
