import Mathlib.Data.List.Nodup
import Mathlib.Tactic.Common

/-!
# Dictionaries

A dictionary lists its entries in the order in which their keys were first assigned. An assignment
to a key that it has replaces the value in its place.
-/
namespace Dictionary

variable {K V : Type} [DecidableEq K] {key k : K} {value : V} {entry : K × V}
  {entries : List (K × V)}

def setItem (key : K) (value : V) : List (K × V) → List (K × V)
  | [] => [(key, value)]
  | (k, v) :: rest => if k = key then (k, value) :: rest else (k, v) :: setItem key value rest

theorem mem_keys_setItem :
    k ∈ (setItem key value entries).map Prod.fst ↔ k = key ∨ k ∈ entries.map Prod.fst := by
  induction entries with
  | nil => simp [setItem]
  | cons first rest ih =>
    obtain ⟨first, old⟩ := first
    by_cases hfirst : first = key
    · subst hfirst
      simp [setItem]
    · simp only [setItem, if_neg hfirst, List.map_cons, List.mem_cons, ih]
      tauto

theorem nodup_keys_setItem (h : (entries.map Prod.fst).Nodup) :
    ((setItem key value entries).map Prod.fst).Nodup := by
  induction entries with
  | nil => simp [setItem]
  | cons first rest ih =>
    obtain ⟨first, old⟩ := first
    rw [List.map_cons, List.nodup_cons] at h
    by_cases hfirst : first = key
    · rw [setItem, if_pos hfirst, List.map_cons, List.nodup_cons]
      exact h
    · rw [setItem, if_neg hfirst, List.map_cons, List.nodup_cons, mem_keys_setItem]
      exact ⟨not_or.mpr ⟨hfirst, h.1⟩, ih h.2⟩

theorem eq_or_mem_of_mem_setItem (h : entry ∈ setItem key value entries) :
    entry = (key, value) ∨ entry ∈ entries := by
  induction entries with
  | nil => exact .inl (List.mem_singleton.mp h)
  | cons first rest ih =>
    obtain ⟨first, old⟩ := first
    by_cases hfirst : first = key
    · rw [setItem, if_pos hfirst] at h
      rcases List.mem_cons.mp h with rfl | hrest
      · exact .inl (by rw [hfirst])
      · exact .inr (List.mem_cons_of_mem _ hrest)
    · rw [setItem, if_neg hfirst] at h
      rcases List.mem_cons.mp h with rfl | hrest
      · exact .inr List.mem_cons_self
      · exact (ih hrest).imp_right (List.mem_cons_of_mem _)

end Dictionary
