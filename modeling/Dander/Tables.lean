import Mathlib.Data.List.Nodup
import Mathlib.Data.Option.Basic

/-!
# Tables with a primary key

Rows in insertion order, at most one for each key, and the statements that read and change the
row of one key. What a statement does is said by what is selected afterwards.
-/
namespace Tables

section Statements

variable {Row Key : Type} [DecidableEq Key] (key : Row → Key)

/-- The row of a key. -/
def select (rows : List Row) (k : Key) : Option Row := rows.find? (fun row => key row = k)

/-- An insert that does nothing if its key is taken. -/
def insertNew (rows : List Row) (row : Row) : List Row :=
  if (select key rows (key row)).isSome then rows else rows ++ [row]

def updateWhere (rows : List Row) (k : Key) (cond : Row → Bool) (change : Row → Row) : List Row :=
  rows.map (fun row => if key row = k ∧ cond row then change row else row)

def deleteWhere (rows : List Row) (k : Key) (cond : Row → Bool) : List Row :=
  rows.filter (fun row => !(decide (key row = k) && cond row))

end Statements

section Rules

variable {Row Key : Type} [DecidableEq Key] {key : Row → Key} {rows : List Row} {row : Row}
  {j k : Key} {cond : Row → Bool} {change : Row → Row}

@[simp] theorem select_nil : select key [] k = none := rfl

theorem key_of_select (h : select key rows k = some row) : key row = k := by
  have hfound := List.find?_some h
  simpa using hfound

theorem mem_of_select (h : select key rows k = some row) : row ∈ rows := List.mem_of_find?_eq_some h

theorem select_eq_none : select key rows k = none ↔ ∀ row ∈ rows, key row ≠ k := by
  simp [select]

theorem select_of_mem (hnodup : (rows.map key).Nodup) (hmem : row ∈ rows) :
    select key rows (key row) = some row := by
  cases hselected : select key rows (key row) with
  | none => exact absurd rfl (select_eq_none.mp hselected row hmem)
  | some other =>
    have hsame := List.inj_on_of_nodup_map hnodup (mem_of_select hselected) hmem
      (key_of_select hselected)
    rw [hsame]

/-- The place of a row does not matter. -/
theorem select_perm {rows' : List Row} (hperm : rows.Perm rows') (hnodup : (rows.map key).Nodup) :
    select key rows k = select key rows' k := by
  cases hselected : select key rows k with
  | none =>
    have habsent := select_eq_none.mp hselected
    exact (select_eq_none.mpr fun row hmem => habsent row (hperm.mem_iff.mpr hmem)).symm
  | some row =>
    have hkey := key_of_select hselected
    have hmem := hperm.mem_iff.mp (mem_of_select hselected)
    rw [← hkey]
    exact (select_of_mem ((hperm.map key).nodup_iff.mp hnodup) hmem).symm

theorem insertNew_of_none (h : select key rows (key row) = none) :
    insertNew key rows row = rows ++ [row] := by simp [insertNew, h]

theorem insertNew_of_some {old : Row} (h : select key rows (key row) = some old) :
    insertNew key rows row = rows := by simp [insertNew, h]

theorem select_append_new (h : select key rows (key row) = none) :
    select key (rows ++ [row]) j = if j = key row then some row else select key rows j := by
  by_cases hj : j = key row
  · subst hj
    rw [if_pos rfl]
    unfold select at h ⊢
    rw [List.find?_append, h]
    simp
  · rw [if_neg hj]
    unfold select
    rw [List.find?_append]
    simp [Ne.symm hj]

theorem nodup_append_new (hnodup : (rows.map key).Nodup) (h : select key rows (key row) = none) :
    ((rows ++ [row]).map key).Nodup := by
  rw [List.map_append, List.map_singleton, List.nodup_append_comm, List.singleton_append,
    List.nodup_cons]
  refine ⟨?_, hnodup⟩
  intro hmem
  obtain ⟨other, hother, hkey⟩ := List.mem_map.mp hmem
  exact select_eq_none.mp h other hother hkey

/-- Changes that leave the key alone change the selected row. -/
theorem select_map {f : Row → Row} (hf : ∀ row, key (f row) = key row) :
    select key (rows.map f) j = (select key rows j).map f := by
  induction rows with
  | nil => rfl
  | cons first rest ih =>
    unfold select at ih ⊢
    rw [List.map_cons, List.find?_cons, List.find?_cons, hf]
    by_cases hj : key first = j
    · simp [hj]
    · simp [hj, ih]

theorem map_key_map {f : Row → Row} (hf : ∀ row, key (f row) = key row) :
    (rows.map f).map key = rows.map key := by
  rw [List.map_map]
  exact List.map_congr_left fun row _ => hf row

theorem key_updated (hchange : ∀ row, key (change row) = key row) (row : Row) :
    key (if key row = k ∧ cond row then change row else row) = key row := by
  split
  · exact hchange row
  · rfl

theorem map_key_updateWhere (hchange : ∀ row, key (change row) = key row) :
    (updateWhere key rows k cond change).map key = rows.map key :=
  map_key_map (key_updated hchange)

theorem select_updateWhere (hchange : ∀ row, key (change row) = key row) :
    select key (updateWhere key rows k cond change) j =
      (select key rows j).map (fun row => if key row = k ∧ cond row then change row else row) :=
  select_map (key_updated hchange)

theorem select_updateWhere_self (hchange : ∀ row, key (change row) = key row)
    (h : select key rows k = some row) :
    select key (updateWhere key rows k cond change) k =
      some (if cond row then change row else row) := by
  rw [select_updateWhere hchange, h]
  simp [key_of_select h]

theorem select_updateWhere_of_ne (hchange : ∀ row, key (change row) = key row) (hj : j ≠ k) :
    select key (updateWhere key rows k cond change) j = select key rows j := by
  rw [select_updateWhere hchange]
  cases hselected : select key rows j with
  | none => rfl
  | some row =>
    have hkey : key row ≠ k := fun heq => hj ((key_of_select hselected).symm.trans heq)
    simp [hkey]

theorem select_deleteWhere (hnodup : (rows.map key).Nodup) :
    select key (deleteWhere key rows k cond) j =
      if j = k then (select key rows j).filter (fun row => !cond row) else select key rows j := by
  induction rows with
  | nil => simp [deleteWhere]
  | cons first rest ih =>
    rw [List.map_cons, List.nodup_cons] at hnodup
    have hrest := ih hnodup.2
    by_cases hfirst : key first = j
    · have hnone : select key rest j = none := by
        refine select_eq_none.mpr ?_
        intro row hrow hkey
        exact hnodup.1 (List.mem_map.mpr ⟨row, hrow, hkey.trans hfirst.symm⟩)
      by_cases hj : j = k
      · cases hcond : cond first with
        | true =>
          have hgone : deleteWhere key (first :: rest) k cond = deleteWhere key rest k cond := by
            simp [deleteWhere, hfirst, hj, hcond]
          rw [hgone, hrest, hnone, if_pos hj, if_pos hj]
          simp [select, hfirst, Option.filter, hcond]
        | false => simp [select, deleteWhere, hfirst, hj, Option.filter, hcond]
      · simp [select, deleteWhere, hfirst, hj]
    · by_cases hgone : key first = k ∧ cond first = true
      · have hdrop : deleteWhere key (first :: rest) k cond = deleteWhere key rest k cond := by
          simp [deleteWhere, hgone.1, hgone.2]
        rw [hdrop, hrest]
        simp [select, hfirst]
      · have hkeep : deleteWhere key (first :: rest) k cond =
            first :: deleteWhere key rest k cond := by
          have hkept : (decide (key first = k) && cond first) = false := by
            rw [← Bool.not_eq_true]
            simpa using hgone
          unfold deleteWhere
          rw [List.filter_cons, hkept]
          rfl
        have hskip : ∀ others : List Row, select key (first :: others) j = select key others j := by
          intro others
          simp [select, hfirst]
        rw [hkeep, hskip, hskip, hrest]

theorem nodup_deleteWhere (hnodup : (rows.map key).Nodup) :
    ((deleteWhere key rows k cond).map key).Nodup :=
  hnodup.sublist (List.filter_sublist.map key)

end Rules

end Tables
